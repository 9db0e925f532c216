import CoopHttp.Bytes
import Mathlib.Data.List.DropRight

/-!
# Lines and the blanks at their ends

A line break is LF alone or CR LF. What a decoder calls a line is everything up to the first line
feed of a buffer, so a line is told by the octets in front of its line feed, among which there is no
other. What trimming leaves of a line is told by what stands behind it: octets to be trimmed, and
none of them in front.
-/
namespace CoopHttp

inductive LineBreak
  | lf
  | crlf
  deriving DecidableEq, Repr

namespace LineBreak

def bytes : LineBreak → Bytes
  | lf => [Bytes.lf]
  | crlf => Bytes.crlf

/-- What stands in front of the line feed of a line break. -/
def lead : LineBreak → Bytes
  | lf => []
  | crlf => [Bytes.cr]

theorem bytes_eq (e : LineBreak) : e.bytes = e.lead ++ [Bytes.lf] := by
  cases e <;> rfl

theorem lf_notMem_lead (e : LineBreak) : Bytes.lf ∉ e.lead := by
  cases e <;> decide

end LineBreak

namespace Bytes

@[simp]
theorem cr_ne_lf : cr ≠ lf := by
  decide

@[simp]
theorem lf_ne_cr : lf ≠ cr :=
  cr_ne_lf.symm

theorem lineLength?_eq_none_iff (s : Bytes) : lineLength? s = none ↔ lf ∉ s := by
  induction s with
  | nil => simp [lineLength?]
  | cons b rest ih =>
    by_cases hb : b = lf
    · simp [lineLength?, hb]
    · simp [lineLength?, hb, ih, Ne.symm hb]

theorem lineLength?_append_lf {a : Bytes} (ha : lf ∉ a) (s : Bytes) :
    lineLength? (a ++ lf :: s) = some (a.length + 1) := by
  induction a with
  | nil => simp [lineLength?]
  | cons b rest ih =>
    have hb : b ≠ lf := fun h => ha (by simp [h])
    have hrest : lf ∉ rest := fun h => ha (by simp [h])
    simp [lineLength?, hb, ih hrest]

theorem take_line (a rest : Bytes) : (a ++ lf :: rest).take (a.length + 1) = a ++ [lf] := by
  rw [List.append_cons]
  exact List.take_left' (by simp)

theorem drop_line (a rest : Bytes) : (a ++ lf :: rest).drop (a.length + 1) = rest := by
  rw [List.append_cons]
  exact List.drop_left' (by simp)

/-- A line that has arrived is the octets in front of the first line feed, and that line feed. -/
theorem eq_of_lineLength? {s : Bytes} {n : Nat} (h : lineLength? s = some n) :
    ∃ a rest, lf ∉ a ∧ s = a ++ lf :: rest ∧ n = a.length + 1 := by
  induction s generalizing n with
  | nil => simp [lineLength?] at h
  | cons b s ih =>
    by_cases hb : b = lf
    · refine ⟨[], s, by simp, by simp [hb], ?_⟩
      simpa [lineLength?, hb] using h.symm
    · simp only [lineLength?, hb, if_false, Option.map_eq_some_iff] at h
      obtain ⟨m, hm, rfl⟩ := h
      obtain ⟨a, rest, ha, rfl, rfl⟩ := ih hm
      exact ⟨b :: a, rest, by simp [Ne.symm hb, ha], rfl, by simp⟩

/-- What has arrived of a line without its line feed is the beginning of the line. -/
theorem exists_of_append_eq_line {s t a rest : Bytes} (hs : lf ∉ s)
    (h : s ++ t = a ++ lf :: rest) : ∃ a', a = s ++ a' ∧ t = a' ++ lf :: rest := by
  obtain ⟨a', rfl, rfl⟩ | ⟨c, rfl, hc⟩ := List.append_eq_append_iff.1 h
  · exact ⟨a', rfl, rfl⟩
  · cases c with
    | nil => exact ⟨[], by simp, by simpa using hc.symm⟩
    | cons b c =>
      cases hc
      simp at hs

/-- What stands in front of the first line feed is told by the string. -/
theorem line_inj {a b s t : Bytes} (ha : lf ∉ a) (hb : lf ∉ b) (h : a ++ lf :: s = b ++ lf :: t) :
    a = b ∧ s = t := by
  obtain ⟨a', rfl, hs⟩ := exists_of_append_eq_line ha h
  cases a' with
  | nil => exact ⟨(List.append_nil a).symm, (List.cons.inj hs).2⟩
  | cons c a' =>
    obtain ⟨rfl, -⟩ := List.cons.inj hs
    exact absurd (List.mem_append_right a List.mem_cons_self) hb

/-- Octets known to hold no line feed need not be searched again. -/
theorem lineLength?_drop {s : Bytes} {k : Nat} (hk : k ≤ s.length) (h : lf ∉ s.take k) :
    (lineLength? (s.drop k)).map (k + ·) = lineLength? s := by
  cases hs : lineLength? (s.drop k) with
  | none =>
    rw [lineLength?_eq_none_iff] at hs
    refine ((lineLength?_eq_none_iff s).2 fun hmem => ?_).symm
    rw [← List.take_append_drop k s, List.mem_append] at hmem
    exact hmem.elim h hs
  | some n =>
    obtain ⟨a, rest, ha, hdrop, rfl⟩ := eq_of_lineLength? hs
    have hsplit : s = (s.take k ++ a) ++ lf :: rest := by
      rw [List.append_assoc, ← hdrop, List.take_append_drop]
    have hno : lf ∉ s.take k ++ a := by simp [h, ha]
    rw [hsplit, lineLength?_append_lf hno]
    simp only [Option.map_some, List.length_append, List.length_take, Option.some.injEq]
    omega

theorem trimEndWhile_eq_rdropWhile (p : UInt8 → Bool) (s : Bytes) :
    trimEndWhile p s = s.rdropWhile p := rfl

theorem trimEndWhile_append {p : UInt8 → Bool} {a b : Bytes} (hb : ∀ c ∈ b, p c = true)
    (ha : ∀ c ∈ a.getLast?, p c = false) : trimEndWhile p (a ++ b) = a := by
  rw [trimEndWhile_eq_rdropWhile]
  induction b using List.reverseRecOn with
  | nil =>
    rw [List.append_nil, List.rdropWhile_eq_self_iff]
    intro hne
    simp [ha _ (List.getLast?_eq_getLast_of_ne_nil hne)]
  | append_singleton b c ih =>
    have hc : p c = true := hb c (by simp)
    have hrest : ∀ c ∈ b, p c = true := fun d hd => hb d (by simp [hd])
    rw [← List.append_assoc, List.rdropWhile_concat_pos p _ c hc, ih hrest]

/-- What trimming takes away is octets to be trimmed. -/
theorem exists_of_trimEndWhile (p : UInt8 → Bool) (s : Bytes) :
    ∃ b, s = trimEndWhile p s ++ b ∧ ∀ c ∈ b, p c = true :=
  ⟨s.rtakeWhile p, (List.rdropWhile_append_rtakeWhile).symm, fun _ hc => List.mem_rtakeWhile_imp hc⟩

theorem getLast?_trimEndWhile (p : UInt8 → Bool) (s : Bytes) :
    ∀ c ∈ (trimEndWhile p s).getLast?, p c = false := by
  rw [trimEndWhile_eq_rdropWhile]
  intro c hc
  have hne : s.rdropWhile p ≠ [] := List.ne_nil_of_mem (List.mem_of_getLast? hc)
  have hlast : (s.rdropWhile p).getLast hne = c := List.getLast_of_mem_getLast? hc
  simpa [hlast] using List.rdropWhile_last_not p s hne

end Bytes

end CoopHttp
