import CoopHttp.Message.Error
import CoopHttp.Message.Field
import CoopHttp.Message.Status
import CoopHttp.Text.Utf8

/-!
# The grammar of a request head

A request line and field lines, closed by an empty line. A line ends in CR LF or in LF alone. An
input that stops early is incomplete; an octet out of place is an error as soon as it is reached,
whatever follows.
-/
namespace CoopHttp.Grammar

/-- The outcome of reading a part of a head: its value and what follows it, nothing yet because
the input ended, or an error. -/
inductive Scan (α : Type)
  | done (value : α) (rest : Bytes)
  | more
  | bad (error : ParseError)
  deriving DecidableEq

namespace Scan

variable {α β : Type}

/-- Goes on behind what was read. -/
def bind (scan : Scan α) (next : α → Bytes → Scan β) : Scan β :=
  match scan with
  | done value rest => next value rest
  | more => .more
  | bad error => .bad error

/-- Changes the value that was read. -/
def map (f : α → β) (scan : Scan α) : Scan β := scan.bind fun value rest => .done (f value) rest

end Scan

def maxFields : Nat := 64

/-- Reads one octet that must be a line feed. -/
def lineFeed (fault : HeadFault) : Bytes → Scan Unit
  | [] => .more
  | b :: rest => if b = Bytes.lf then .done () rest else .bad (.invalidHeader fault)

def lineBreak (fault : HeadFault) : Bytes → Scan Unit
  | [] => .more
  | b :: rest =>
    if b = Bytes.lf then .done () rest
    else if b = Bytes.cr then lineFeed fault rest
    else .bad (.invalidHeader fault)

def skipEmptyLines : Bytes → Scan Unit
  | [] => .more
  | b :: rest =>
    if b = Bytes.lf then skipEmptyLines rest
    else if b = Bytes.cr then
      match rest with
      | [] => .more
      | c :: rest =>
        if c = Bytes.lf then skipEmptyLines rest else .bad (.invalidHeader .invalidNewLine)
    else .done () (b :: rest)

/-- The visible octets that no method and no field name may hold. -/
def separators : Bytes := ascii "()<>@,;:\\\"/[]?=\x7b\x7d"

def isWordByte (b : UInt8) : Bool := 33 ≤ b && b ≤ 126 && !separators.contains b

/-- Reads the method and the space behind it. -/
def method (s : Bytes) : Scan Bytes :=
  let (word, rest) := s.span isWordByte
  match rest with
  | [] => .more
  | b :: rest =>
    if b = Bytes.space ∧ word ≠ [] then .done word rest else .bad (.invalidHeader .invalidToken)

def isTargetByte (b : UInt8) : Bool := (33 ≤ b && b ≤ 126) || 128 ≤ b

/-- Reads the target and the space behind it. -/
def target (s : Bytes) : Scan Bytes :=
  let (word, rest) := s.span isTargetByte
  match rest with
  | [] => .more
  | b :: rest =>
    if b = Bytes.space ∧ word ≠ [] ∧ Utf8.isValid word then .done word rest
    else .bad (.invalidHeader .invalidToken)

/-- Reads octets that are fixed in advance. -/
def expected (fault : HeadFault) : Bytes → Bytes → Scan Unit
  | [], s => .done () s
  | _ :: _, [] => .more
  | e :: es, b :: rest => if e = b then expected fault es rest else .bad (.invalidHeader fault)

def version (s : Bytes) : Scan Version :=
  (expected .invalidVersion (ascii "HTTP/1.") s).bind fun _ s =>
    match s with
    | [] => .more
    | b :: rest =>
      if b = 48 then .done .http10 rest
      else if b = 49 then .done .http11 rest
      else .bad (.invalidHeader .invalidVersion)

/-- A field as it stands in its line: the name, and the value without the blanks around it. -/
structure FieldLine where
  name : Bytes
  value : Bytes
  deriving DecidableEq, Repr

/-- Reads a field name and the colon right behind it. -/
def fieldName (s : Bytes) : Scan Bytes :=
  let (word, rest) := s.span isWordByte
  match rest with
  | [] => .more
  | b :: rest =>
    if b = 58 ∧ word ≠ [] then .done word rest else .bad (.invalidHeader .invalidName)

/-- A blank, a visible octet or one above ASCII. -/
def isTextByte (b : UInt8) : Bool := Bytes.isBlank b || (33 ≤ b && b ≤ 126) || 128 ≤ b

/-- Reads a field value and the line break behind it. -/
def fieldValue (s : Bytes) : Scan Bytes :=
  let (word, rest) := (s.dropWhile Bytes.isBlank).span isTextByte
  (lineBreak .invalidValue rest).map fun _ => Bytes.trimEndWhile Bytes.isBlank word

def fieldLine (s : Bytes) : Scan FieldLine :=
  (fieldName s).bind fun name rest => (fieldValue rest).map fun value => ⟨name, value⟩

/-- Reads field lines up to the empty line, at most `room` of them. -/
def fieldLines (room : Nat) (s : Bytes) : Scan (List FieldLine) :=
  match s with
  | [] => .more
  | b :: _ =>
    if b = Bytes.lf ∨ b = Bytes.cr then (lineBreak .invalidNewLine s).map fun _ => []
    else (fieldLine s).bind fun line rest =>
      match room with
      | 0 => .bad (.tooManyHeaders maxFields)
      | room + 1 => (fieldLines room rest).map (line :: ·)

structure RawHead where
  method : Bytes
  target : Bytes
  version : Version
  lines : List FieldLine
  deriving DecidableEq

def head (s : Bytes) : Scan RawHead :=
  (skipEmptyLines s).bind fun _ s =>
  (method s).bind fun method s =>
  (target s).bind fun target s =>
  (version s).bind fun version s =>
  (lineBreak .invalidNewLine s).bind fun _ s =>
  (fieldLines maxFields s).map fun lines => ⟨method, target, version, lines⟩

end CoopHttp.Grammar
