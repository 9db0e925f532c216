import CoopHttp.Bytes

/-!
# Payload sizes and items
-/
namespace CoopHttp

/-- How a payload is delimited: by its length, by chunks, or there is none. -/
inductive PayloadSize
  | length (n : Nat)
  | chunked
  | empty
  deriving DecidableEq, Repr

namespace PayloadSize

/-- The size of a payload of `n` octets; of none, if `n` is zero. -/
def ofLength (n : Nat) : PayloadSize := if n = 0 then empty else length n

def isChunked : PayloadSize → Bool
  | chunked => true
  | _ => false

def isEmpty : PayloadSize → Bool
  | empty => true
  | _ => false

/-- The declared length, zero where none is declared. -/
def contentLength : PayloadSize → Nat
  | length n => n
  | chunked | empty => 0

end PayloadSize

inductive PayloadItem
  | chunk (bytes : Bytes)
  | eof
  deriving DecidableEq, Repr

namespace PayloadItem

def isEof : PayloadItem → Bool
  | eof => true
  | chunk _ => false

def isChunk : PayloadItem → Bool
  | chunk _ => true
  | eof => false

def bytes? : PayloadItem → Option Bytes
  | chunk bytes => some bytes
  | eof => none

end PayloadItem

end CoopHttp
