import CoopHttp.Bytes
import CoopHttp.Decimal

/-!
# Request targets

A target is a path with an optional query, a bare authority, or both behind a scheme. Reading it
checks each octet against the class of its place; a fragment is dropped. The path a target shows is
`/` where it has a scheme or a query but no path of its own.
-/
namespace CoopHttp

inductive UriFault
  | tooLong
  | nothing
  | badByte
  | badFormat
  | schemeTooLong
  | badAuthority
  deriving DecidableEq, Repr

namespace UriFault

def message : UriFault → String
  | tooLong => "uri too long"
  | nothing => "empty string"
  | badByte => "invalid uri character"
  | badFormat => "invalid format"
  | schemeTooLong => "scheme too long"
  | badAuthority => "invalid authority"

end UriFault

/-- A request target. `authority` is empty where there is none, and `path` where none was given. -/
structure Uri where
  scheme : Option Bytes
  authority : Bytes
  path : Bytes
  query : Option Bytes
  deriving DecidableEq, Repr

namespace Uri

def maxLength : Nat := 65534

def maxScheme : Nat := 64

/-- The colons an authority may have in a row of parts: seven in an address, one before a port. -/
def maxColons : Nat := 8

/-- The marks allowed in an authority beside letters and digits. -/
def authorityMarks : Bytes := ascii "!#$&'()*+,-./:;=?@[]_~"

/-- An octet of an authority outside percent-encoding. -/
def isAuthorityByte (b : UInt8) : Bool :=
  Bytes.isLetter b || Bytes.isDigit b || authorityMarks.contains b

def isSchemeByte (b : UInt8) : Bool :=
  Bytes.isLetter b || Bytes.isDigit b || (ascii "+-.~").contains b

def isPathByte (b : UInt8) : Bool :=
  b == 33 || (36 ≤ b && b ≤ 59) || b == 61 || (64 ≤ b && b ≤ 95) || (97 ≤ b && b ≤ 122) ||
    b == 124 || b == 126 || b == 34 || b == 123 || b == 125 || 128 ≤ b

def isQueryByte (b : UInt8) : Bool :=
  b == 33 || (36 ≤ b && b ≤ 59) || b == 61 || (63 ≤ b && b ≤ 126) || 128 ≤ b

/-- An octet that ends an authority. -/
def endsAuthority (b : UInt8) : Bool := b == 47 || b == 63 || b == 35

structure AuthorityScan where
  /-- Colons since the last `@` or closing bracket. -/
  colons : Nat := 0
  opened : Bool := false
  closed : Bool := false
  /-- A percent sign was seen since the last `@` or closing bracket. -/
  percent : Bool := false
  /-- The last octet was `@`. -/
  atSign : Bool := false

def AuthorityScan.step (s : AuthorityScan) (b : UInt8) : Except UriFault AuthorityScan :=
  let s := { s with atSign := false }
  if b = 58 then
    if s.colons ≥ maxColons then .error .badAuthority else .ok { s with colons := s.colons + 1 }
  else if b = 91 then
    if s.percent || s.opened then .error .badAuthority else .ok { s with opened := true }
  else if b = 93 then
    if !s.opened || s.closed then .error .badAuthority
    else .ok { s with closed := true, colons := 0, percent := false }
  else if b = 64 then .ok { s with colons := 0, percent := false, atSign := true }
  else if b = 37 then .ok { s with percent := true }
  else if isAuthorityByte b then .ok s
  else .error .badByte

/-- The whole of an authority is in order. -/
def AuthorityScan.isComplete (s : AuthorityScan) : Bool :=
  s.opened == s.closed && s.colons ≤ 1 && !s.atSign && !s.percent

/-- Checks the octets of an authority. -/
def checkAuthority (s : Bytes) : Except UriFault Unit := do
  let scan ← s.foldlM AuthorityScan.step {}
  if scan.isComplete then pure () else throw .badAuthority

/-- Cuts the authority off the front of a non-empty text. -/
def splitAuthority (s : Bytes) : Except UriFault (Bytes × Bytes) := do
  if s = [] then throw .nothing
  let (authority, rest) := s.span (fun b => !endsAuthority b)
  checkAuthority authority
  return (authority, rest)

/-- Reads the path, and the query if there is one; a fragment is dropped. -/
def readPath (s : Bytes) : Except UriFault (Bytes × Option Bytes) :=
  let (path, rest) := s.span (fun b => b != 63 && b != 35)
  if !path.all isPathByte then .error .badByte
  else match rest with
    | 63 :: rest =>
      let query := rest.takeWhile (· != 35)
      if query.all isQueryByte then .ok (path, some query) else .error .badByte
    | _ => .ok (path, none)

/-- A scheme and what follows `://`, if the text starts so. The two web schemes are recognised in
any case and kept in lower case. -/
def splitScheme (s : Bytes) : Except UriFault (Option Bytes × Bytes) :=
  if Bytes.equalsIgnoringCase (s.take 7) (ascii "http://") then
    .ok (some (ascii "http"), s.drop 7)
  else if Bytes.equalsIgnoringCase (s.take 8) (ascii "https://") then
    .ok (some (ascii "https"), s.drop 8)
  else if s.length ≤ 3 then .ok (none, s)
  else
    let (scheme, rest) := s.span isSchemeByte
    if (ascii "://").isPrefixOf rest then
      if scheme.length > maxScheme then .error .schemeTooLong
      else .ok (some scheme, rest.drop 3)
    else .ok (none, s)

def parse (s : Bytes) : Except UriFault Uri := do
  if s.length > maxLength then throw .tooLong
  match s with
  | [] => throw .nothing
  | 47 :: _ =>
    let (path, query) ← readPath s
    return ⟨none, [], path, query⟩
  | [42] => return ⟨none, [], s, none⟩
  | [b] =>
    if endsAuthority b then throw .badByte
    checkAuthority s
    return ⟨none, s, [], none⟩
  | _ =>
    let (scheme, s) ← splitScheme s
    let (authority, rest) ← splitAuthority s
    match scheme with
    | none =>
      if rest ≠ [] then throw .badFormat
      return ⟨none, authority, [], none⟩
    | some scheme =>
      if authority = [] then throw .badFormat
      let (path, query) ← readPath rest
      return ⟨some scheme, authority, path, query⟩

/-- The path the target shows. -/
def shownPath (uri : Uri) : Bytes :=
  if uri.path = [] ∧ (uri.scheme.isSome ∨ uri.query.isSome) then [47] else uri.path

def render (uri : Uri) : Bytes :=
  (match uri.scheme with
    | some scheme => scheme ++ ascii "://"
    | none => []) ++
  uri.authority ++ uri.shownPath ++
  (match uri.query with
    | some query => 63 :: query
    | none => [])

/-- The part of the authority behind the user information. -/
def hostPort (uri : Uri) : Bytes := ((Bytes.splitOn 64 uri.authority).getLast?).getD []

/-- The host, brackets kept. -/
def host? (uri : Uri) : Option Bytes :=
  if uri.authority = [] then none
  else match uri.hostPort with
    | 91 :: _ => some (uri.hostPort.takeWhile (· != 93) ++ [93])
    | _ => some (uri.hostPort.takeWhile (· != 58))

/-- The port: what follows the last colon of the authority, if it is a number below 2^16. -/
def port? (uri : Uri) : Option Nat :=
  match (Bytes.splitOn 58 uri.authority).reverse with
  | last :: _ :: _ => Decimal.natural? UInt16.size last
  | _ => none

end Uri

end CoopHttp
