import CoopHttp.Proofs.Chunked.SizeLine

/-!
# How a size may be spelled

A size is written in hexadecimal digits of either case, with any number of leading zeros. The reader
of size lines gives exactly the number that is spelled, as long as it is below 2^64; a number beyond
that, like a word that is no number, is refused, and never cut to what would fit.
-/
namespace CoopHttp

structure HexDigit where
  value : Fin 16
  /-- A digit above nine is written as an upper-case letter. -/
  upper : Bool
  deriving DecidableEq, Repr

namespace HexDigit

def octet (d : HexDigit) : UInt8 :=
  (ascii (if d.upper then "0123456789ABCDEF" else "0123456789abcdef")).getD d.value 0

/-- The number that digits denote, the most significant first. -/
def number (digits : List HexDigit) : ℕ := Nat.ofDigits 16 (digits.map (·.value.val)).reverse

/-- The octets of the digits, as numbers. -/
theorem octet_eq (d : HexDigit) : d.octet =
    (if d.upper then [48, 49, 50, 51, 52, 53, 54, 55, 56, 57, 65, 66, 67, 68, 69, 70]
      else [48, 49, 50, 51, 52, 53, 54, 55, 56, 57, 97, 98, 99, 100, 101, 102]).getD d.value 0 := by
  rw [octet]
  congr 1
  cases d.upper <;> rfl

/-- A digit is read in either case. -/
theorem hexValue?_octet (d : HexDigit) : Bytes.hexValue? d.octet = some d.value.val := by
  obtain ⟨value, upper⟩ := d
  rw [octet_eq]
  revert value upper
  decide

/-- Nothing is read that is no digit. -/
theorem exists_of_hexValue? {b : UInt8} {n : ℕ} (h : Bytes.hexValue? b = some n) :
    ∃ d : HexDigit, d.octet = b ∧ d.value.val = n := by
  have hall : ∀ k : Fin 256, (Bytes.hexValue? (UInt8.ofFin k)).isSome = true →
      ∃ (value : Fin 16) (upper : Bool), octet ⟨value, upper⟩ = UInt8.ofFin k := by
    simp only [octet_eq]
    decide +kernel
  obtain ⟨value, upper, hoctet⟩ := hall b.toFin (by rw [UInt8.ofFin_toFin, h]; rfl)
  rw [UInt8.ofFin_toFin] at hoctet
  refine ⟨⟨value, upper⟩, hoctet, ?_⟩
  rw [← hoctet, hexValue?_octet] at h
  exact Option.some.inj h

end HexDigit

/-- The word is some spelling of the number in hexadecimal digits. -/
def SpellsHex (word : Bytes) (n : ℕ) : Prop :=
  ∃ digits : List HexDigit, digits ≠ [] ∧ digits.map HexDigit.octet = word ∧
    HexDigit.number digits = n

theorem mapM_hexValue?_eq_some_iff {word : Bytes} {values : List ℕ} :
    word.mapM Bytes.hexValue? = some values ↔ ∃ digits : List HexDigit,
      digits.map HexDigit.octet = word ∧ digits.map (·.value.val) = values := by
  constructor
  · intro h
    induction word generalizing values with
    | nil =>
      cases h
      exact ⟨[], rfl, rfl⟩
    | cons b word ih =>
      rw [List.mapM_cons] at h
      simp only [Option.bind_eq_bind, Option.bind_eq_some_iff, Option.pure_def,
        Option.some.injEq] at h
      obtain ⟨value, hvalue, values, hvalues, rfl⟩ := h
      obtain ⟨d, rfl, rfl⟩ := HexDigit.exists_of_hexValue? hvalue
      obtain ⟨digits, rfl, rfl⟩ := ih hvalues
      exact ⟨d :: digits, rfl, rfl⟩
  · rintro ⟨digits, rfl, rfl⟩
    induction digits with
    | nil => rfl
    | cons d digits ih => simp [HexDigit.hexValue?_octet, ih]

/-- A word has a value as a numeral just if it spells that number. -/
theorem numeralValue?_eq_some_iff_spellsHex {word : Bytes} (hne : word ≠ []) {n : ℕ} :
    numeralValue? 16 Bytes.hexValue? word = some n ↔ SpellsHex word n := by
  rw [numeralValue?, Option.map_eq_some_iff]
  simp only [mapM_hexValue?_eq_some_iff]
  constructor
  · rintro ⟨_, ⟨digits, rfl, rfl⟩, rfl⟩
    exact ⟨digits, fun hnil => hne (by rw [hnil]; rfl), rfl, rfl⟩
  · rintro ⟨digits, -, rfl, rfl⟩
    exact ⟨_, ⟨digits, rfl, rfl⟩, rfl⟩

theorem numeralValue?_eq_none_iff_hexDigit {word : Bytes} :
    numeralValue? 16 Bytes.hexValue? word = none ↔ ∃ b ∈ word, ∀ d : HexDigit, d.octet ≠ b := by
  rw [numeralValue?, Option.map_eq_none_iff, Option.eq_none_iff_forall_ne_some]
  constructor
  · intro h
    by_contra hall
    push Not at hall
    -- A digit for every octet gives the digits of the word.
    choose digit hdigit using hall
    refine h _ (mapM_hexValue?_eq_some_iff.2
      ⟨word.attach.map fun b => digit b.1 b.2, ?_, rfl⟩)
    simp only [List.map_map, Function.comp_def, hdigit, List.attach_map_subtype_val]
  · rintro ⟨b, hb, hnot⟩ values h
    obtain ⟨digits, rfl, -⟩ := mapM_hexValue?_eq_some_iff.1 h
    obtain ⟨d, -, rfl⟩ := List.mem_map.1 hb
    exact hnot d rfl

/-- The parts of a line whose word is these digits. -/
def SizeParts.ofDigits (digits : List HexDigit) (blanks : Bytes) (extension : Option Bytes)
    (ending : LineBreak) (hblanks : ∀ b ∈ blanks, Bytes.isSpace b = true) : SizeParts where
  word := digits.map HexDigit.octet
  blanks := blanks
  extension := extension
  ending := ending
  semicolon_notMem h := by
    obtain ⟨d, -, hd⟩ := List.mem_map.1 h
    exact (ChunkedDecoder.not_isSpace_of_hexValue? d.hexValue?_octet).2.1 hd
  getLast_word b hb := by
    obtain ⟨d, -, rfl⟩ := List.mem_map.1 (List.mem_of_getLast? hb)
    exact (ChunkedDecoder.not_isSpace_of_hexValue? d.hexValue?_octet).1
  isSpace_blanks := hblanks

namespace ChunkedDecoder

theorem parseSize_eq_ok_iff_spellsHex {p : SizeParts} {n : ℕ} :
    parseSize p.bytes = .ok n ↔ SpellsHex p.word n ∧ n < 2 ^ 64 := by
  rw [parseSize, p.sizeDigits_bytes]
  by_cases hnil : p.word = []
  · have hnone : ¬ SpellsHex p.word n := by
      rintro ⟨digits, hne, hword, -⟩
      exact hne (List.map_eq_nil_iff.1 (hword.trans hnil))
    exact iff_of_false (by simp [hnil]) fun h => hnone h.1
  · have hvalue : hexValue? p.word = some n ↔ SpellsHex p.word n ∧ n < 2 ^ 64 := by
      rw [hexValue?_eq, Option.filter_eq_some_iff, numeralValue?_eq_some_iff_spellsHex hnil,
        decide_eq_true_eq]
      rfl
    rw [if_neg hnil, ← hvalue]
    cases hexValue? p.word <;> simp

/-- A line whose word spells no number below 2^64 is refused: the word is empty, holds something
else than digits, or spells a larger number. -/
theorem parseSize_eq_error_iff {p : SizeParts} :
    (∃ fault, parseSize p.bytes = .error (.invalidBody fault)) ↔
      p.word = [] ∨ (∃ b ∈ p.word, ∀ d : HexDigit, d.octet ≠ b) ∨
        ∃ n, SpellsHex p.word n ∧ 2 ^ 64 ≤ n := by
  rw [parseSize, p.sizeDigits_bytes]
  by_cases hnil : p.word = []
  · simp [hnil]
  · have hnone : hexValue? p.word = none ↔ (∃ b ∈ p.word, ∀ d : HexDigit, d.octet ≠ b) ∨
        ∃ n, SpellsHex p.word n ∧ 2 ^ 64 ≤ n := by
      rw [hexValue?_eq, ← numeralValue?_eq_none_iff_hexDigit]
      simp only [← numeralValue?_eq_some_iff_spellsHex hnil]
      cases numeralValue? 16 Bytes.hexValue? p.word with
      | none => simp
      | some m =>
        have hsize : UInt64.size = 2 ^ 64 := rfl
        simp [Option.filter_eq_none_iff, hsize]
    rw [if_neg hnil, or_iff_right hnil, ← hnone]
    cases hexValue? p.word <;> simp

/-- Every spelling of a number below 2^64, with white space, an extension and a line break behind it,
announces that number. Every line has a word in front of its extension and the white space there; the
line announces what the word spells, if that is below 2^64, and it is refused just if the word is
empty, holds an octet that is no digit, or spells a number from 2^64 on. -/
theorem parseSize_spelling :
    (∀ (digits : List HexDigit) (blanks : Bytes) (extension : Option Bytes) (ending : LineBreak),
      digits ≠ [] → (∀ b ∈ blanks, Bytes.isSpace b = true) → HexDigit.number digits < 2 ^ 64 →
      parseSize (digits.map HexDigit.octet ++ blanks ++ extension.elim [] (59 :: ·) ++ ending.bytes) =
        .ok (HexDigit.number digits)) ∧
    (∀ s : Bytes, ∃ p : SizeParts, p.bytes = s ++ [Bytes.lf]) ∧
    ∀ p : SizeParts,
      (∀ n, parseSize p.bytes = .ok n ↔ SpellsHex p.word n ∧ n < 2 ^ 64) ∧
      ((∃ fault, parseSize p.bytes = .error (.invalidBody fault)) ↔
        p.word = [] ∨ (∃ b ∈ p.word, ∀ d : HexDigit, d.octet ≠ b) ∨
          ∃ n, SpellsHex p.word n ∧ 2 ^ 64 ≤ n) := by
  refine ⟨fun digits blanks extension ending hne hblanks hlt => ?_, SizeParts.exists_bytes_eq,
    fun p => ⟨fun n => parseSize_eq_ok_iff_spellsHex, parseSize_eq_error_iff⟩⟩
  have hline : (SizeParts.ofDigits digits blanks extension ending hblanks).bytes =
      digits.map HexDigit.octet ++ blanks ++ extension.elim [] (59 :: ·) ++ ending.bytes := by
    simp [SizeParts.bytes, SizeParts.tail, SizeParts.ofDigits, LineBreak.bytes_eq]
  rw [← hline]
  exact parseSize_eq_ok_iff_spellsHex.2 ⟨⟨digits, hne, rfl, rfl⟩, hlt⟩

/-- The digits of `00fFFF`. -/
def paddedDigits : List HexDigit :=
  [⟨0, false⟩, ⟨0, true⟩, ⟨15, false⟩, ⟨15, true⟩, ⟨15, true⟩, ⟨15, true⟩]

theorem parseSize_paddedDigits :
    paddedDigits ≠ [] ∧ (∀ b ∈ ascii " 	", Bytes.isSpace b = true) ∧
      HexDigit.number paddedDigits < 2 ^ 64 ∧
      parseSize (paddedDigits.map HexDigit.octet ++ ascii " 	" ++
        (some (ascii "name=1;")).elim [] (59 :: ·) ++ LineBreak.crlf.bytes) =
          .ok (HexDigit.number paddedDigits) := by
  have hblanks : ∀ b ∈ ascii " 	", Bytes.isSpace b = true := List.all_eq_true.1 (by decide)
  exact ⟨by decide, hblanks, by decide, parseSize_spelling.1 paddedDigits _ _ _ (by decide) hblanks
    (by decide)⟩

end ChunkedDecoder

end CoopHttp
