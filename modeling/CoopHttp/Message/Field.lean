import CoopHttp.Message.Token

/-!
# Header fields

A field name is a token in lower case, so names that differ in case are the same name. A field
value is a string without controls other than tab; octets above ASCII are allowed.
-/
namespace CoopHttp

def maxFieldName : Nat := 65535

/-- A token in lower case of at most `maxFieldName` octets. -/
def isFieldName (s : Bytes) : Bool :=
  isToken s && s.map Bytes.lower == s && s.length ≤ maxFieldName

/-- A field name in its lower-case form. -/
structure FieldName where
  bytes : Bytes
  isFieldName_bytes : isFieldName bytes = true
  deriving DecidableEq

def isValueByte (b : UInt8) : Bool := b == Bytes.tab || (32 ≤ b && b != 127)

structure FieldValue where
  bytes : Bytes
  isValue_bytes : bytes.all isValueByte = true
  deriving DecidableEq

namespace FieldName

def ofBytes? (s : Bytes) : Option FieldName :=
  if h : isFieldName (s.map Bytes.lower) = true then some ⟨s.map Bytes.lower, h⟩ else none

def acceptEncoding : FieldName := ⟨ascii "accept-encoding", by decide⟩
def connection : FieldName := ⟨ascii "connection", by decide⟩
def contentEncoding : FieldName := ⟨ascii "content-encoding", by decide⟩
def contentLength : FieldName := ⟨ascii "content-length", by decide⟩
def contentType : FieldName := ⟨ascii "content-type", by decide⟩
def expect : FieldName := ⟨ascii "expect", by decide⟩
def transferEncoding : FieldName := ⟨ascii "transfer-encoding", by decide⟩

end FieldName

namespace FieldValue

def ofBytes? (s : Bytes) : Option FieldValue :=
  if h : s.all isValueByte = true then some ⟨s, h⟩ else none

/-- The octets of a value without any above ASCII. -/
def visible? (value : FieldValue) : Option Bytes :=
  if value.bytes.all (· < 128) then some value.bytes else none

def chunked : FieldValue := ⟨ascii "chunked", by decide⟩
def close : FieldValue := ⟨ascii "close", by decide⟩
def deflate : FieldValue := ⟨ascii "deflate", by decide⟩
def gzip : FieldValue := ⟨ascii "gzip", by decide⟩
def keepAlive : FieldValue := ⟨ascii "keep-alive", by decide⟩
def plainText : FieldValue := ⟨ascii "text/plain", by decide⟩
def plainTextUtf8 : FieldValue := ⟨ascii "text/plain; charset=utf-8", by decide⟩

end FieldValue

end CoopHttp
