import CoopHttp.Head.Grammar
import CoopHttp.Proofs.Line

/-!
# Request heads as they are written

The grammar of a head, as data: empty lines that are skipped, a request line, field lines and the
empty line that closes the head, each with a line break of its own. The blanks around a value belong
to the line and not to the value.
-/
namespace CoopHttp

structure FieldText where
  name : Bytes
  before : Bytes
  value : Bytes
  after : Bytes
  ending : LineBreak
  isToken_name : isToken name = true
  isBlank_before : ∀ b ∈ before, Bytes.isBlank b = true
  isValueByte_value : ∀ b ∈ value, isValueByte b = true
  head_value : ∀ b ∈ value.head?, Bytes.isBlank b = false
  getLast_value : ∀ b ∈ value.getLast?, Bytes.isBlank b = false
  isBlank_after : ∀ b ∈ after, Bytes.isBlank b = true

namespace FieldText

/-- Everything in front of the line break. -/
def front (f : FieldText) : Bytes := f.name ++ 58 :: (f.before ++ (f.value ++ f.after))

def bytes (f : FieldText) : Bytes := f.front ++ f.ending.bytes

/-- What is read of the line. -/
def line (f : FieldText) : Grammar.FieldLine := ⟨f.name, f.value⟩

end FieldText

def breakBytes (breaks : List LineBreak) : Bytes := (breaks.map LineBreak.bytes).flatten

def fieldBytes (fields : List FieldText) : Bytes := (fields.map FieldText.bytes).flatten

/-- The last octet of a version. -/
def Version.digit : Version → UInt8
  | http10 => 48
  | _ => 49

structure HeadText where
  /-- The empty lines in front of the request line. -/
  skipped : List LineBreak
  method : Bytes
  target : Bytes
  version : Version
  ending : LineBreak
  fields : List FieldText
  closing : LineBreak
  isToken_method : isToken method = true
  target_ne_nil : target ≠ []
  isTargetByte_target : ∀ b ∈ target, Grammar.isTargetByte b = true
  isValid_target : Utf8.isValid target = true
  version_eq : version = .http10 ∨ version = .http11
  length_fields_le : fields.length ≤ Grammar.maxFields

namespace HeadText

/-- The request line in front of its line break. -/
def requestLine (t : HeadText) : Bytes :=
  t.method ++ Bytes.space :: (t.target ++ Bytes.space :: (ascii "HTTP/1." ++ [t.version.digit]))

def bytes (t : HeadText) : Bytes :=
  breakBytes t.skipped ++ (t.requestLine ++ t.ending.bytes ++ fieldBytes t.fields ++ t.closing.bytes)

/-- What is read of the head. -/
def raw (t : HeadText) : Grammar.RawHead :=
  ⟨t.method, t.target, t.version, t.fields.map FieldText.line⟩

end HeadText

/-! No octet of a word is one of a line break. -/

def isBreakByte (b : UInt8) : Bool := b == Bytes.cr || b == Bytes.lf

theorem isBreakByte_eq_false_iff {b : UInt8} :
    isBreakByte b = false ↔ ¬ (b = Bytes.lf ∨ b = Bytes.cr) := by
  simp [isBreakByte, and_comm]

/-- A class of octets without CR and LF has no octet of a line break. -/
theorem isBreakByte_eq_false_of_class {p : UInt8 → Bool} (hlf : p Bytes.lf = false)
    (hcr : p Bytes.cr = false) {b : UInt8} (h : p b = true) : isBreakByte b = false := by
  rw [isBreakByte_eq_false_iff]
  rintro (rfl | rfl)
  · simp [hlf] at h
  · simp [hcr] at h

theorem isBreakByte_eq_false_of_isTokenByte {b : UInt8} (h : isTokenByte b = true) :
    isBreakByte b = false :=
  isBreakByte_eq_false_of_class (by decide) (by decide) h

theorem isBreakByte_eq_false_of_isTargetByte {b : UInt8} (h : Grammar.isTargetByte b = true) :
    isBreakByte b = false :=
  isBreakByte_eq_false_of_class (by decide) (by decide) h

theorem isBreakByte_eq_false_of_isValueByte {b : UInt8} (h : isValueByte b = true) :
    isBreakByte b = false :=
  isBreakByte_eq_false_of_class (by decide) (by decide) h

theorem isValueByte_of_isBlank {b : UInt8} (h : Bytes.isBlank b = true) : isValueByte b = true := by
  simp only [Bytes.isBlank, Bool.or_eq_true, beq_iff_eq] at h
  obtain rfl | rfl := h
  · decide
  · decide

/-! The octets a head is read by are those its words and its values may hold. -/

theorem Grammar.isWordByte_eq (b : UInt8) : isWordByte b = isTokenByte b := by
  have hall : ∀ k : Fin 256, isWordByte (UInt8.ofFin k) = isTokenByte (UInt8.ofFin k) := by
    decide +kernel
  exact hall b.toFin

theorem Grammar.isTextByte_eq (b : UInt8) : isTextByte b = isValueByte b := by
  have hall : ∀ k : Fin 256, isTextByte (UInt8.ofFin k) = isValueByte (UInt8.ofFin k) := by
    decide +kernel
  exact hall b.toFin

theorem isToken_iff (s : Bytes) : isToken s = true ↔ s ≠ [] ∧ ∀ b ∈ s, isTokenByte b = true := by
  simp [isToken]

namespace FieldText

theorem front_ne_nil (f : FieldText) : f.front ≠ [] := by
  simp [front]

theorem not_break_of_mem_front (f : FieldText) : ∀ b ∈ f.front, isBreakByte b = false := by
  intro b hb
  simp only [front, List.mem_append, List.mem_cons] at hb
  obtain hb | rfl | hb | hb | hb := hb
  · exact isBreakByte_eq_false_of_isTokenByte (((isToken_iff _).1 f.isToken_name).2 b hb)
  · rfl
  · exact isBreakByte_eq_false_of_isValueByte (isValueByte_of_isBlank (f.isBlank_before b hb))
  · exact isBreakByte_eq_false_of_isValueByte (f.isValueByte_value b hb)
  · exact isBreakByte_eq_false_of_isValueByte (isValueByte_of_isBlank (f.isBlank_after b hb))

end FieldText

namespace HeadText

theorem requestLine_ne_nil (t : HeadText) : t.requestLine ≠ [] := by
  simp [requestLine]

theorem not_break_of_mem_requestLine (t : HeadText) :
    ∀ b ∈ t.requestLine, isBreakByte b = false := by
  have hversion : (ascii "HTTP/1." ++ [t.version.digit]).any isBreakByte = false := by
    obtain hv | hv := t.version_eq
    · rw [hv]
      decide
    · rw [hv]
      decide
  intro b hb
  rw [requestLine, List.mem_append, List.mem_cons, List.mem_append, List.mem_cons] at hb
  obtain hb | rfl | hb | rfl | hb := hb
  · exact isBreakByte_eq_false_of_isTokenByte (((isToken_iff _).1 t.isToken_method).2 b hb)
  · rfl
  · exact isBreakByte_eq_false_of_isTargetByte (t.isTargetByte_target b hb)
  · rfl
  · simpa using List.any_eq_false.1 hversion b hb

end HeadText

end CoopHttp
