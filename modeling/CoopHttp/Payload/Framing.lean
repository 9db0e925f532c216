import CoopHttp.Decimal
import CoopHttp.Message.Error
import CoopHttp.Message.Fields
import CoopHttp.Payload.Size

/-!
# Payload framing

The fields of a request decide how its payload is delimited: by chunks if the last coding of the
transfer encoding is `chunked`, by a length if one is declared, and never by both.
-/
namespace CoopHttp.PayloadSize

/-- The last member of a list of codings is `chunked`, in any case. -/
def endsInChunked (value : Bytes) : Bool :=
  match (Bytes.listMembers value).getLast? with
  | some member => Bytes.equalsIgnoringCase member (ascii "chunked")
  | none => false

/-- Reads a declared length below 2^64. -/
def ofDeclaredLength (value : FieldValue) : Except ParseError PayloadSize :=
  match value.visible? with
  | none => .error (.invalidContentLength .notVisible)
  | some text =>
    match Decimal.natural? UInt64.size (Bytes.trim text) with
    | none => .error (.invalidContentLength (.notNumber text))
    | some n => .ok (ofLength n)

/-- The framing that the fields of a request declare. -/
def ofFields (fields : Fields) : Except ParseError PayloadSize :=
  match fields.get? .transferEncoding, fields.get? .contentLength with
  | none, none => .ok empty
  | some value, none => .ok (if endsInChunked value.bytes then chunked else empty)
  | none, some value => ofDeclaredLength value
  | some _, some _ => .error (.invalidContentLength .alsoTransferEncoding)

end CoopHttp.PayloadSize
