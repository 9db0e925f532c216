import CoopHttp.Proofs.Chunked.Text

/-!
# Reading size lines

The reader of size lines accepts exactly the size lines of the grammar and finds the number that
their digits denote. It removes the line break, then everything from the semicolon on, then the
white space at the end; since CR is white space, a CR that it leaves does no harm.
-/
namespace CoopHttp

namespace ChunkedDecoder

/-- A line without the CR at its end. -/
def dropCr (s : Bytes) : Bytes := if s.getLast? = some Bytes.cr then s.dropLast else s

theorem isPrefix_dropCr (s : Bytes) : dropCr s <+: s := by
  rw [dropCr]
  split
  · exact List.dropLast_prefix s
  · exact List.prefix_rfl

/-- A CR at the end of what follows a string that does not end in one. -/
theorem dropCr_append {a : Bytes} (ha : a.getLast? ≠ some Bytes.cr) (b : Bytes) :
    dropCr (a ++ b) = a ++ dropCr b := by
  by_cases hb : b = []
  · subst hb
    simp [dropCr, ha]
  · rw [dropCr, dropCr, List.getLast?_append_of_ne_nil a hb, List.dropLast_append_of_ne_nil hb]
    split <;> rfl

/-- A line ends in some line break in front of which no CR is left to drop. -/
theorem exists_dropCr (s : Bytes) : ∃ e : LineBreak, s = dropCr s ++ e.lead := by
  rw [dropCr]
  split
  · rename_i h
    exact ⟨.crlf, (List.dropLast_append_getLast? _ h).symm⟩
  · exact ⟨.lf, (List.append_nil s).symm⟩

/-- What stands from the first semicolon on. -/
theorem exists_dropWhile_semicolon (s : Bytes) :
    ∃ extension : Option Bytes, s.dropWhile (· != 59) = extension.elim [] (59 :: ·) := by
  cases hd : s.dropWhile (· != 59) with
  | nil => exact ⟨none, rfl⟩
  | cons b e =>
    have hb := List.head?_dropWhile_not (· != 59) s
    simp only [hd, List.head?_cons, bne_eq_false_iff_eq] at hb
    exact ⟨some e, by rw [hb]; rfl⟩

theorem sizeDigits_concat_lf (s : Bytes) :
    sizeDigits (s ++ [Bytes.lf]) = Bytes.trimEnd ((dropCr s).takeWhile (· != 59)) := by
  simp [sizeDigits, dropCr]

/-- A hexadecimal digit is no white space and no semicolon. -/
theorem not_isSpace_of_hexValue? {b : UInt8} {n : ℕ} (h : Bytes.hexValue? b = some n) :
    Bytes.isSpace b = false ∧ b ≠ 59 ∧ b ≠ Bytes.cr ∧ b ≠ Bytes.lf := by
  have hsome : (Bytes.hexValue? b).isSome = true := by simp [h]
  have hall : ∀ k : Fin 256, (Bytes.hexValue? (UInt8.ofFin k)).isSome = true →
      Bytes.isSpace (UInt8.ofFin k) = false ∧ UInt8.ofFin k ≠ 59 ∧ UInt8.ofFin k ≠ Bytes.cr ∧
        UInt8.ofFin k ≠ Bytes.lf := by decide +kernel
  exact hall b.toFin hsome

/-- A beginning of a string has no other octets in front of a semicolon than the string. -/
theorem mem_takeWhile_mono {s t : Bytes} (h : s <+: t) {p : UInt8 → Bool} {b : UInt8}
    (hb : b ∈ s.takeWhile p) : b ∈ t.takeWhile p := by
  obtain ⟨u, rfl⟩ := h
  rw [List.takeWhile_append]
  split
  · exact List.mem_append_left _ (List.takeWhile_subset p hb)
  · exact hb

end ChunkedDecoder

/-- A line that may announce a size, taken apart: a word, which is what will be read as a number,
white space, perhaps a semicolon with anything behind it, and a line break. -/
structure SizeParts where
  word : Bytes
  blanks : Bytes
  /-- What stands behind the semicolon, if there is one. -/
  extension : Option Bytes
  ending : LineBreak
  semicolon_notMem : 59 ∉ word
  getLast_word : ∀ b ∈ word.getLast?, Bytes.isSpace b = false
  isSpace_blanks : ∀ b ∈ blanks, Bytes.isSpace b = true

namespace SizeParts
open ChunkedDecoder

variable (p : SizeParts)

/-- What stands behind the word, in front of the line feed. -/
def tail : Bytes := p.blanks ++ p.extension.elim [] (59 :: ·) ++ p.ending.lead

def bytes : Bytes := p.word ++ p.tail ++ [Bytes.lf]

/-- Behind the word there is white space only, up to the semicolon or the line feed. -/
theorem isSpace_of_mem_takeWhile {b : UInt8} (hb : b ∈ p.tail.takeWhile (· != 59)) :
    Bytes.isSpace b = true := by
  have hlead : ∀ b ∈ p.ending.lead, Bytes.isSpace b = true :=
    List.all_eq_true.1 (by cases p.ending <;> decide)
  cases he : p.extension with
  | none =>
    have hmem := List.takeWhile_subset _ hb
    simp only [tail, he, Option.elim_none, List.append_nil, List.mem_append] at hmem
    exact hmem.elim (p.isSpace_blanks b) (hlead b)
  | some e =>
    have hsemi : (59 :: (e ++ p.ending.lead)).takeWhile (· != (59 : UInt8)) = [] := by simp
    simp only [tail, he, Option.elim_some, List.append_assoc, List.cons_append] at hb
    rw [List.takeWhile_append] at hb
    split at hb
    · rw [hsemi, List.append_nil] at hb
      exact p.isSpace_blanks b hb
    · exact p.isSpace_blanks b (List.takeWhile_subset _ hb)

theorem sizeDigits_bytes : sizeDigits p.bytes = p.word := by
  have hword : ∀ b ∈ p.word, (b != 59) = true := by
    intro b hb
    rw [bne_iff_ne]
    exact fun heq => p.semicolon_notMem (heq ▸ hb)
  have hcr : p.word.getLast? ≠ some Bytes.cr := fun h => absurd (p.getLast_word _ h) (by decide)
  rw [bytes, sizeDigits_concat_lf, dropCr_append hcr, List.takeWhile_append_of_pos hword]
  apply Bytes.trimEndWhile_append
  · intro b hb
    exact p.isSpace_of_mem_takeWhile (mem_takeWhile_mono (isPrefix_dropCr _) hb)
  · exact p.getLast_word

/-- Every line can be taken apart. -/
theorem exists_bytes_eq (s : Bytes) : ∃ p : SizeParts, p.bytes = s ++ [Bytes.lf] := by
  obtain ⟨ending, hending⟩ := exists_dropCr s
  obtain ⟨extension, hrest⟩ := exists_dropWhile_semicolon (dropCr s)
  obtain ⟨blanks, hblanks, hspace⟩ :=
    Bytes.exists_of_trimEndWhile Bytes.isSpace ((dropCr s).takeWhile (· != 59))
  have hlast := Bytes.getLast?_trimEndWhile Bytes.isSpace ((dropCr s).takeWhile (· != 59))
  generalize Bytes.trimEndWhile Bytes.isSpace ((dropCr s).takeWhile (· != 59)) = word at hblanks hlast
  have hsemicolon : 59 ∉ word := by
    intro hmem
    have hfront : (59 : UInt8) ∈ (dropCr s).takeWhile (· != 59) := by
      rw [hblanks]
      exact List.mem_append_left _ hmem
    simpa using List.mem_takeWhile_imp hfront
  have hsplit : word ++ (blanks ++ extension.elim [] (59 :: ·) ++ ending.lead) = s := by
    rw [← hrest, ← List.append_assoc, ← List.append_assoc, ← hblanks,
      List.takeWhile_append_dropWhile, ← hending]
  refine ⟨⟨word, blanks, extension, ending, hsemicolon, hlast, hspace⟩, ?_⟩
  exact congrArg (· ++ [Bytes.lf]) hsplit

end SizeParts

namespace SizeLine
open ChunkedDecoder

variable (l : SizeLine)

theorem digit_of_mem {b : UInt8} (hb : b ∈ l.digits) :
    Bytes.isSpace b = false ∧ b ≠ 59 ∧ b ≠ Bytes.cr ∧ b ≠ Bytes.lf := by
  obtain ⟨d, hd⟩ := exists_digit_of_numeralValue? l.value_digits b hb
  exact not_isSpace_of_hexValue? hd

def parts : SizeParts where
  word := l.digits
  blanks := l.blanks
  extension := l.extension
  ending := l.ending
  semicolon_notMem h := (l.digit_of_mem h).2.1 rfl
  getLast_word _ hb := (l.digit_of_mem (List.mem_of_getLast? hb)).1
  isSpace_blanks := l.isSpace_blanks

theorem bytes_parts : l.parts.bytes = l.bytes := rfl

theorem lf_notMem_front : Bytes.lf ∉ l.front := by
  have hdigits : Bytes.lf ∉ l.digits := fun h => (l.digit_of_mem h).2.2.2 rfl
  have hextension : Bytes.lf ∉ l.extensionBytes := by
    cases he : l.extension with
    | none => simp [extensionBytes, he]
    | some e =>
      have hne : Bytes.lf ≠ 59 := by decide
      simpa [extensionBytes, he, hne] using l.lf_notMem_extension e he
  simp [front, hdigits, l.lf_notMem_blanks, hextension, l.ending.lf_notMem_lead]

theorem length_bytes_le : l.bytes.length ≤ maxSizeLine := by
  have h := l.length_le
  rw [LineBreak.bytes_eq] at h
  rw [bytes, front, extensionBytes]
  cases he : l.extension <;> simp [he] at h ⊢ <;> omega

theorem sizeDigits_bytes : sizeDigits l.bytes = l.digits := by
  rw [← bytes_parts, l.parts.sizeDigits_bytes]
  rfl

/-- A size line announces the number that its digits denote. -/
theorem parseSize_bytes : parseSize l.bytes = .ok l.size := by
  rw [parseSize, sizeDigits_bytes]
  simp only [l.digits_ne_nil, if_false, hexValue?_eq, l.value_digits, Option.filter_some,
    l.size_lt, decide_true, if_true]

/-- A line that announces a size is a size line. -/
theorem exists_of_parseSize {s : Bytes} {n : ℕ} (hs : Bytes.lf ∉ s)
    (hlen : s.length + 1 ≤ maxSizeLine) (h : parseSize (s ++ [Bytes.lf]) = .ok n) :
    ∃ l : SizeLine, l.bytes = s ++ [Bytes.lf] ∧ l.size = n := by
  obtain ⟨p, hp⟩ := SizeParts.exists_bytes_eq s
  rw [← hp, parseSize, p.sizeDigits_bytes, hexValue?_eq] at h
  obtain rfl : s = p.word ++ p.tail := (List.append_cancel_right hp).symm
  split at h
  · simp at h
  · rename_i hword
    split at h
    · simp at h
    · rename_i m hm
      simp only [Except.ok.injEq] at h
      subst h
      rw [Option.filter_eq_some_iff, decide_eq_true_eq] at hm
      simp only [SizeParts.tail, List.mem_append, not_or] at hs
      refine ⟨{
          digits := p.word
          blanks := p.blanks
          extension := p.extension
          ending := p.ending
          size := m
          digits_ne_nil := hword
          value_digits := hm.1
          size_lt := hm.2
          isSpace_blanks := p.isSpace_blanks
          lf_notMem_blanks := hs.2.1.1
          lf_notMem_extension := ?_
          length_le := ?_ }, rfl, rfl⟩
      · intro e he
        rw [Option.mem_def.1 he] at hs
        exact fun hmem => hs.2.1.2 (List.mem_cons_of_mem _ hmem)
      · rw [LineBreak.bytes_eq]
        cases he : p.extension <;> simp [SizeParts.tail, he] at hlen ⊢ <;> omega

end SizeLine

end CoopHttp
