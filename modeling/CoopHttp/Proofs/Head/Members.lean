import CoopHttp.Proofs.Head.Padding
import CoopHttp.Proofs.Payload.Repeated

/-!
# Members of a list

A field value may be a list of words with commas between them. A word is in the list, in any case
and with blanks around it, exactly where the scanner of tokens finds it.
-/
namespace CoopHttp

namespace Bytes

/-- The part stands between two separators, or between one and an end, and holds none. -/
structure HasPart (separator : UInt8) (s part : Bytes) : Prop where
  cut : ∃ before after, s = before ++ part ++ after ∧
    (before = [] ∨ ∃ front, before = front ++ [separator]) ∧
    (after = [] ∨ ∃ back, after = separator :: back)
  whole : separator ∉ part

/-- The word, which is in lower case, is a member of the comma-separated list, in any case and with
blanks around it. -/
def Lists (s word : Bytes) : Prop :=
  ∃ part text, HasPart 44 s part ∧ part.Pads text ∧ text.map lower = word

/-! Cutting a list. -/

theorem splitOn_cons_self (separator : UInt8) (s : Bytes) :
    splitOn separator (separator :: s) = [] :: splitOn separator s := by
  rw [splitOn]
  cases hs : splitOn separator s with
  | nil => exact absurd hs (splitOn_ne_nil separator s)
  | cons part parts => exact if_pos rfl

/-- A separator cuts a list into what stands before it and what stands behind it. -/
theorem splitOn_append_cons (separator : UInt8) (a b : Bytes) :
    splitOn separator (a ++ separator :: b) = splitOn separator a ++ splitOn separator b := by
  induction a with
  | nil => exact splitOn_cons_self separator b
  | cons c a ih =>
    rw [List.cons_append, splitOn, ih, splitOn]
    cases ha : splitOn separator a with
    | nil => exact absurd ha (splitOn_ne_nil separator a)
    | cons part parts =>
      dsimp only [List.cons_append]
      split_ifs <;> rfl

theorem mem_splitOn_iff {separator : UInt8} {s part : Bytes} :
    part ∈ splitOn separator s ↔ HasPart separator s part := by
  constructor
  · intro h
    -- Each separator gives away the part before it; the induction is on what is left.
    induction hlength : s.length using Nat.strong_induction_on generalizing s with
    | _ n ih =>
      by_cases hs : separator ∈ s
      · obtain ⟨a, b, rfl, ha⟩ := List.eq_append_cons_of_mem hs
        rw [splitOn_append_cons, splitOn_eq_singleton ha, List.mem_append, List.mem_singleton] at h
        obtain rfl | h := h
        · exact ⟨⟨[], separator :: b, rfl, .inl rfl, .inr ⟨b, rfl⟩⟩, ha⟩
        · have hshorter : b.length < n := by
            rw [← hlength, List.length_append, List.length_cons]
            omega
          obtain ⟨⟨before, after, rfl, hbefore, hafter⟩, hwhole⟩ := ih _ hshorter h rfl
          refine ⟨⟨a ++ separator :: before, after, by simp, .inr ?_, hafter⟩, hwhole⟩
          obtain rfl | ⟨front, rfl⟩ := hbefore
          · exact ⟨a, rfl⟩
          · exact ⟨a ++ separator :: front, by simp⟩
      · rw [splitOn_eq_singleton hs, List.mem_singleton] at h
        subst h
        exact ⟨⟨[], [], by simp, .inl rfl, .inl rfl⟩, hs⟩
  · rintro ⟨⟨before, after, rfl, hbefore, hafter⟩, hwhole⟩
    have hbehind : part ∈ splitOn separator (part ++ after) := by
      obtain rfl | ⟨back, rfl⟩ := hafter
      · rw [List.append_nil, splitOn_eq_singleton hwhole]
        exact List.mem_singleton_self part
      · rw [splitOn_append_cons, splitOn_eq_singleton hwhole]
        exact List.mem_append_left _ (List.mem_singleton_self part)
    obtain rfl | ⟨front, rfl⟩ := hbefore
    · exact hbehind
    · rw [List.append_assoc, List.append_assoc, List.singleton_append, splitOn_append_cons]
      exact List.mem_append_right _ hbehind

/-! Finding a word. -/

/-- White space has no case. -/
theorem isSpace_eq_false_of_lower {b : UInt8} (h : isSpace (lower b) = false) :
    isSpace b = false := by
  have hall : ∀ k : Fin 256, isSpace (lower (UInt8.ofFin k)) = false →
      isSpace (UInt8.ofFin k) = false := by
    decide +kernel
  exact hall b.toFin h

theorem listHas_iff {s word : Bytes} (hs : ∀ b ∈ s, isValueByte b = true)
    (hlower : word.map lower = word) (hplain : ∀ b ∈ word, isSpace b = false) :
    listHas word s = true ↔ Lists s word := by
  have hpart : ∀ {part : Bytes}, HasPart 44 s part → ∀ b ∈ part, isValueByte b = true := by
    rintro part ⟨⟨before, after, rfl, -⟩, -⟩ b hb
    exact hs b (by simp [hb])
  rw [listHas, listMembers, List.any_map, List.any_eq_true]
  simp only [Function.comp_apply, equalsIgnoringCase, beq_iff_eq, hlower]
  constructor
  · rintro ⟨part, hmem, hword⟩
    have hhas := mem_splitOn_iff.1 hmem
    exact ⟨part, trim part, hhas, pads_trim (hpart hhas), hword.symm⟩
  · rintro ⟨part, text, hhas, hpads, rfl⟩
    have htext : ∀ b ∈ text, isSpace b = false := fun b hb =>
      isSpace_eq_false_of_lower (hplain _ (List.mem_map_of_mem hb))
    refine ⟨part, mem_splitOn_iff.2 hhas, ?_⟩
    rw [trim_of_pads hpads (trimmed_of_forall htext)]

end Bytes

def Fields.Lists (fields : Fields) (name : FieldName) (word : Bytes) : Prop :=
  ∃ value ∈ fields.getAll name, value.bytes.Lists word

theorem Fields.hasToken_iff {fields : Fields} {name : FieldName} {word : Bytes}
    (hlower : word.map Bytes.lower = word) (hplain : ∀ b ∈ word, Bytes.isSpace b = false) :
    fields.hasToken name word = true ↔ fields.Lists name word := by
  rw [hasToken, List.any_eq_true]
  simp only [Lists,
    Bytes.listHas_iff (List.all_eq_true.1 (FieldValue.isValue_bytes _)) hlower hplain]

end CoopHttp
