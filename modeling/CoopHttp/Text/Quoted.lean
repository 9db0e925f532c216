import CoopHttp.Text.Printable

/-!
# Quoted text

A text between double quotes in which every character can be seen: quotes and backslashes are
escaped, the common controls have short names, and any other character without a shape of its own
is written by its code point.
-/
namespace CoopHttp.Quoted

/-- The form of one character between the quotes. -/
def escape (c : Char) : List Char :=
  if c = '\x00' then ['\\', '0']
  else if c = '\t' then ['\\', 't']
  else if c = '\n' then ['\\', 'n']
  else if c = '\r' then ['\\', 'r']
  else if c = '"' then ['\\', '"']
  else if c = '\\' then ['\\', '\\']
  else if Printable.isPrintable c then [c]
  else ['\\', 'u', '\x7b'] ++ Nat.toDigits 16 c.toNat ++ ['\x7d']

def quote (text : String) : String :=
  String.ofList (['"'] ++ text.toList.flatMap escape ++ ['"'])

end CoopHttp.Quoted
