import CoopHttp.Proofs.Head.Fields

/-!
# Blanks around a text

What trimming a part of a field value gives: the text that has only blanks around it. A field value
has no other white space than blanks.
-/
namespace CoopHttp

namespace Bytes

/-- The string is the text with blanks around it. -/
def Pads (s text : Bytes) : Prop :=
  ∃ before after, s = before ++ text ++ after ∧ (∀ b ∈ before, isBlank b = true) ∧
    ∀ b ∈ after, isBlank b = true

/-- The text begins and ends with something else than white space. -/
structure Trimmed (text : Bytes) : Prop where
  first : ∀ b ∈ text.head?, isSpace b = false
  last : ∀ b ∈ text.getLast?, isSpace b = false

theorem pads_self (s : Bytes) : Pads s s := ⟨[], [], by simp, by simp, by simp⟩

theorem trimmed_of_forall {text : Bytes} (h : ∀ b ∈ text, isSpace b = false) : Trimmed text :=
  ⟨fun b hb => h b (List.mem_of_head? hb), fun b hb => h b (List.mem_of_getLast? hb)⟩

theorem isSpace_of_isBlank {b : UInt8} (h : isBlank b = true) : isSpace b = true := by
  have hall : ∀ k : Fin 256, isBlank (UInt8.ofFin k) = true → isSpace (UInt8.ofFin k) = true := by
    decide +kernel
  exact hall b.toFin h

theorem isBlank_of_isSpace {b : UInt8} (hvalue : isValueByte b = true) (h : isSpace b = true) :
    isBlank b = true := by
  by_contra hnot
  rw [Bool.not_eq_true] at hnot
  rw [isSpace_eq_false hvalue hnot] at h
  cases h

/-- Trimming takes the white space around a text away, and nothing of the text. -/
theorem trim_append {before text after : Bytes} (hbefore : ∀ b ∈ before, isSpace b = true)
    (htext : Trimmed text) (hafter : ∀ b ∈ after, isSpace b = true) :
    trim (before ++ (text ++ after)) = text := by
  rw [trim, trimEnd, List.dropWhile_append_of_pos hbefore]
  cases text with
  | nil =>
    rw [List.nil_append, List.dropWhile_eq_nil_iff.2 hafter]
    rfl
  | cons b text =>
    have hb : isSpace b = false := htext.first b rfl
    rw [List.cons_append, List.dropWhile_cons_of_neg (by simp [hb])]
    exact trimEndWhile_append hafter htext.last

/-- Trimming takes the blanks away, and nothing of the text. -/
theorem trim_of_pads {s text : Bytes} (h : Pads s text) (htext : Trimmed text) : trim s = text := by
  obtain ⟨before, after, rfl, hbefore, hafter⟩ := h
  rw [List.append_assoc]
  exact trim_append (fun b hb => isSpace_of_isBlank (hbefore b hb)) htext
    fun b hb => isSpace_of_isBlank (hafter b hb)

theorem pads_trim {s : Bytes} (hs : ∀ b ∈ s, isValueByte b = true) : Pads s (trim s) := by
  obtain ⟨after, hrest, hafter⟩ := exists_of_trimEndWhile isSpace (s.dropWhile isSpace)
  have hsplit : s = s.takeWhile isSpace ++ trim s ++ after := by
    rw [List.append_assoc, trim, trimEnd, ← hrest, List.takeWhile_append_dropWhile]
  refine ⟨s.takeWhile isSpace, after, hsplit, fun b hb => ?_, fun b hb => ?_⟩
  · have hmem : b ∈ s := (List.takeWhile_sublist _).subset hb
    exact isBlank_of_isSpace (hs b hmem) (List.mem_takeWhile_imp hb)
  · exact isBlank_of_isSpace (hs b (by rw [hsplit]; simp [hb])) (hafter b hb)

end Bytes

theorem FieldText.trimmed_value (f : FieldText) : Bytes.Trimmed f.value where
  first b hb := isSpace_eq_false (f.isValueByte_value b (List.mem_of_head? hb)) (f.head_value b hb)
  last b hb := isSpace_eq_false (f.isValueByte_value b (List.mem_of_getLast? hb)) (f.getLast_value b hb)

end CoopHttp
