import CoopHttp.Bytes

/-!
# UTF-8

A machine that reads one octet at a time and remembers how many continuation octets are still owed
and which range the next one must lie in. `isValid` runs it to the end; `repair` replaces each
longest broken piece by one replacement character.
-/
namespace CoopHttp.Utf8

/-- What a character in progress still needs: the octets already read, the number of octets owed
beyond the next one, and the range of the next one. -/
structure Open where
  read : Bytes
  later : Nat
  low : UInt8
  high : UInt8
  deriving DecidableEq, Repr

inductive Lead
  | whole
  | opens (state : Open)
  | broken

/-- The meaning of an octet at the start of a character. -/
def lead (b : UInt8) : Lead :=
  if b < 0x80 then .whole
  else if 0xC2 ≤ b ∧ b ≤ 0xDF then .opens ⟨[b], 0, 0x80, 0xBF⟩
  else if b = 0xE0 then .opens ⟨[b], 1, 0xA0, 0xBF⟩
  else if b = 0xED then .opens ⟨[b], 1, 0x80, 0x9F⟩
  else if 0xE1 ≤ b ∧ b ≤ 0xEF then .opens ⟨[b], 1, 0x80, 0xBF⟩
  else if b = 0xF0 then .opens ⟨[b], 2, 0x90, 0xBF⟩
  else if 0xF1 ≤ b ∧ b ≤ 0xF3 then .opens ⟨[b], 2, 0x80, 0xBF⟩
  else if b = 0xF4 then .opens ⟨[b], 2, 0x80, 0x8F⟩
  else .broken

/-- The octet is one the character in progress can go on with. -/
def Open.accepts (state : Open) (b : UInt8) : Bool := state.low ≤ b && b ≤ state.high

/-- The character in progress after one more octet; `none` when that octet completes it. -/
def Open.next (state : Open) (b : UInt8) : Option Open :=
  match state.later with
  | 0 => none
  | later + 1 => some ⟨state.read ++ [b], later, 0x80, 0xBF⟩

/-- Runs the machine from a character in progress, or from between characters. -/
def validFrom : Option Open → Bytes → Bool
  | none, [] => true
  | some _, [] => false
  | none, b :: rest =>
    match lead b with
    | .whole => validFrom none rest
    | .opens state => validFrom (some state) rest
    | .broken => false
  | some state, b :: rest => state.accepts b && validFrom (state.next b) rest

/-- The octets are the UTF-8 form of some text. -/
def isValid (s : Bytes) : Bool := validFrom none s

/-- The UTF-8 form of U+FFFD. -/
def replacement : Bytes := [0xEF, 0xBF, 0xBD]

/-- What the octet `b` at the start of a character contributes, and what it leaves open. -/
def startRepair (b : UInt8) : Bytes × Option Open :=
  match lead b with
  | .whole => ([b], none)
  | .opens state => ([], some state)
  | .broken => (replacement, none)

/-- What one octet contributes: a completed character, or the replacement of a broken one. -/
def stepRepair : Option Open → UInt8 → Bytes × Option Open
  | none, b => startRepair b
  | some state, b =>
    if state.accepts b then
      match state.next b with
      | none => (state.read ++ [b], none)
      | some state => ([], some state)
    else
      let (out, pending) := startRepair b
      (replacement ++ out, pending)

/-- Repairs the rest of a text from a character in progress. -/
def repairFrom : Option Open → Bytes → Bytes
  | none, [] => []
  | some _, [] => replacement
  | pending, b :: rest =>
    let (out, pending) := stepRepair pending b
    out ++ repairFrom pending rest

/-- The octets with each longest broken piece replaced by U+FFFD. -/
def repair (s : Bytes) : Bytes := repairFrom none s

end CoopHttp.Utf8
