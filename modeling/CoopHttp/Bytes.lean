/-!
# Byte strings

Wire data is a list of octets. A decoder returns the octets it leaves, so "nothing is lost" is an
equation about append. The operations here know only the ASCII meaning of an octet.
-/
namespace CoopHttp

abbrev Bytes := List UInt8

/-- The octets of a text whose characters are all below U+0100, one octet a character. -/
def ascii (text : String) : Bytes :=
  text.toList.map fun c => UInt8.ofNat c.toNat

namespace Bytes

def ofText (text : String) : Bytes := text.toUTF8.toList

abbrev lf : UInt8 := 10

abbrev cr : UInt8 := 13

abbrev space : UInt8 := 32

abbrev tab : UInt8 := 9

/-- Carriage return and line feed, the line break this library writes. -/
def crlf : Bytes := [cr, lf]

/-- A space or a tab, the blanks allowed around a field value. -/
def isBlank (b : UInt8) : Bool := b == space || b == tab

/-- White space of ASCII: the blanks, line feed, form feed and carriage return. -/
def isSpace (b : UInt8) : Bool := b == space || (9 ≤ b && b ≤ 10) || (12 ≤ b && b ≤ 13)

def isDigit (b : UInt8) : Bool := 48 ≤ b && b ≤ 57

def isLetter (b : UInt8) : Bool := (65 ≤ b && b ≤ 90) || (97 ≤ b && b ≤ 122)

/-- The lower-case form of a letter, any other octet unchanged. -/
def lower (b : UInt8) : UInt8 := if 65 ≤ b && b ≤ 90 then b + 32 else b

/-- Two strings that differ at most in the case of letters. -/
def equalsIgnoringCase (a b : Bytes) : Bool := a.map lower == b.map lower

def hexValue? (b : UInt8) : Option Nat :=
  if 48 ≤ b ∧ b ≤ 57 then some (b.toNat - 48)
  else if 97 ≤ b ∧ b ≤ 102 then some (b.toNat - 87)
  else if 65 ≤ b ∧ b ≤ 70 then some (b.toNat - 55)
  else none

/-- A string without the octets at its end that satisfy `p`. -/
def trimEndWhile (p : UInt8 → Bool) (s : Bytes) : Bytes := (s.reverse.dropWhile p).reverse

/-- A string without the white space at its end. -/
def trimEnd (s : Bytes) : Bytes := trimEndWhile isSpace s

/-- A string without the white space at either end. -/
def trim (s : Bytes) : Bytes := trimEnd (s.dropWhile isSpace)

/-- The parts between the separators; one more part than there are separators. -/
def splitOn (separator : UInt8) : Bytes → List Bytes
  | [] => [[]]
  | b :: rest =>
    match splitOn separator rest with
    | [] => [[b]]
    | part :: parts => if b = separator then [] :: part :: parts else (b :: part) :: parts

/-- The trimmed members of a comma-separated list, none skipped. -/
def listMembers (s : Bytes) : List Bytes := (splitOn 44 s).map trim

/-- A comma-separated list has a member equal to `token` up to the case of letters. -/
def listHas (token s : Bytes) : Bool := (listMembers s).any (equalsIgnoringCase token)

/-- The length of the first line with its line feed, if there is a line feed. -/
def lineLength? : Bytes → Option Nat
  | [] => none
  | b :: rest => if b = lf then some 1 else (lineLength? rest).map (· + 1)

end Bytes

end CoopHttp
