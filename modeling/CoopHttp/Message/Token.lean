import CoopHttp.Bytes

/-!
# Tokens and methods

A token is a non-empty string of letters, digits and a few marks. Request methods are tokens, and
so are field names.
-/
namespace CoopHttp

def tokenMarks : Bytes := ascii "!#$%&'*+-.^_`|~"

def isTokenByte (b : UInt8) : Bool := Bytes.isLetter b || Bytes.isDigit b || tokenMarks.contains b

/-- A non-empty string of token octets. -/
def isToken (s : Bytes) : Bool := s != [] && s.all isTokenByte

/-- A request method: any token, in the case it was written in. -/
structure Method where
  bytes : Bytes
  isToken_bytes : isToken bytes = true
  deriving DecidableEq

namespace Method

def ofBytes? (s : Bytes) : Option Method :=
  if h : isToken s = true then some ⟨s, h⟩ else none

/-- The method that asks for a resource. -/
def get : Method := ⟨ascii "GET", by decide⟩

end Method

end CoopHttp
