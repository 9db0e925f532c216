import CoopHttp.Head.Decode
import CoopHttp.Proofs.Head.Text
import Mathlib.Data.List.Forall2

/-!
# Fields that are written

Field lines spell fields: a name in any case, and a value. Reading the lines gives the fields that
were spelled, in a section where every name has its values in the order in which they were written, at
the place of the first of them.
-/
namespace CoopHttp

/-! What a section holds after values were appended. -/

namespace Fields

theorem filter_appendEntry (name : FieldName) (value : FieldValue) (wanted : FieldName)
    (entries : List (FieldName × FieldValue)) :
    (appendEntry name value entries).filter (·.1 = wanted) =
      entries.filter (·.1 = wanted) ++ if name = wanted then [(name, value)] else [] := by
  induction entries with
  | nil => by_cases h : name = wanted <;> simp [appendEntry, h]
  | cons entry entries ih =>
    by_cases hlast : entry.1 = name ∧ ¬ entries.any (·.1 = name)
    · rw [appendEntry, if_pos hlast]
      by_cases hname : name = wanted
      · -- Nothing of this name stands behind the entry.
        have hrest : entries.filter (·.1 = wanted) = [] := by
          rw [List.filter_eq_nil_iff]
          intro later hlater hwanted
          exact hlast.2 (List.any_eq_true.2 ⟨later, hlater, by simpa [hname] using hwanted⟩)
        simp [hlast.1, hname, hrest]
      · simp [hlast.1, hname]
    · rw [appendEntry, if_neg hlast, List.filter_cons, List.filter_cons, ih]
      split_ifs <;> simp

/-- An appended value stands behind the values its name had. -/
theorem getAll_append (fields : Fields) (name wanted : FieldName) (value : FieldValue) :
    (fields.append name value).getAll wanted =
      fields.getAll wanted ++ if name = wanted then [value] else [] := by
  rw [getAll, append, filter_appendEntry, getAll, List.map_append]
  split_ifs <;> rfl

theorem ofList_concat (entries : List (FieldName × FieldValue)) (entry : FieldName × FieldValue) :
    ofList (entries ++ [entry]) = (ofList entries).append entry.1 entry.2 := by
  simp [ofList]

/-- A section that was put together from a list holds the values of every name in the order of the
list. -/
theorem getAll_ofList (entries : List (FieldName × FieldValue)) (wanted : FieldName) :
    (ofList entries).getAll wanted = (entries.filter (·.1 = wanted)).map (·.2) := by
  induction entries using List.reverseRecOn with
  | nil => rfl
  | append_singleton entries entry ih =>
    rw [ofList_concat, getAll_append, ih, List.filter_append, List.map_append]
    by_cases h : entry.1 = wanted <;> simp [h]

theorem perm_appendEntry (name : FieldName) (value : FieldValue)
    (entries : List (FieldName × FieldValue)) :
    (appendEntry name value entries).Perm ((name, value) :: entries) := by
  induction entries with
  | nil => exact .refl _
  | cons entry entries ih =>
    rw [appendEntry]
    split_ifs
    · exact .swap _ _ _
    · exact (ih.cons entry).trans (.swap _ _ _)

/-- A section that was put together from a list holds its entries, and no others. -/
theorem perm_entries_ofList (entries : List (FieldName × FieldValue)) :
    (ofList entries).entries.Perm entries := by
  induction entries using List.reverseRecOn with
  | nil => exact .refl _
  | append_singleton entries entry ih =>
    rw [ofList_concat]
    exact (perm_appendEntry _ _ _).trans ((ih.cons entry).trans (List.perm_append_singleton _ _).symm)

/-- The entries of a list, those of one name together at the place of the first of them. -/
def grouped : List (FieldName × FieldValue) → List (FieldName × FieldValue)
  | [] => []
  | entry :: entries =>
    entry :: entries.filter (·.1 = entry.1) ++ grouped (entries.filter (·.1 ≠ entry.1))
termination_by entries => entries.length
decreasing_by
  have hle := List.length_filter_le (fun later => decide (later.1.1 ≠ entry.1)) entries.attach
  simp only [List.length_unattach, List.length_attach, List.length_cons] at hle ⊢
  exact Nat.lt_succ_of_le hle

def appendAll (fields : Fields) (entries : List (FieldName × FieldValue)) : Fields :=
  entries.foldl (fun fields entry => fields.append entry.1 entry.2) fields

theorem appendEntry_append_of_ne {name : FieldName} {front : List (FieldName × FieldValue)}
    (hfront : ∀ entry ∈ front, entry.1 ≠ name) (value : FieldValue)
    (back : List (FieldName × FieldValue)) :
    appendEntry name value (front ++ back) = front ++ appendEntry name value back := by
  induction front with
  | nil => rfl
  | cons entry front ih =>
    have hentry : entry.1 ≠ name := hfront entry (by simp)
    rw [List.cons_append, appendEntry, if_neg fun h => hentry h.1,
      ih fun later hlater => hfront later (by simp [hlater]), List.cons_append]

/-- A value is put behind the group of its name. -/
theorem appendEntry_group {name : FieldName} {group back : List (FieldName × FieldValue)}
    (hne : group ≠ []) (hgroup : ∀ entry ∈ group, entry.1 = name)
    (hback : ∀ entry ∈ back, entry.1 ≠ name) (value : FieldValue) :
    appendEntry name value (group ++ back) = group ++ [(name, value)] ++ back := by
  induction group with
  | nil => exact absurd rfl hne
  | cons entry group ih =>
    have hentry : entry.1 = name := hgroup entry (by simp)
    have hlater : ∀ later ∈ group, later.1 = name := fun later h => hgroup later (by simp [h])
    cases group with
    | nil =>
      have hnone : ¬ back.any (·.1 = name) := by
        rw [List.any_eq_true]
        rintro ⟨later, hmem, heq⟩
        exact hback later hmem (by simpa using heq)
      rw [List.singleton_append, appendEntry, if_pos ⟨hentry, hnone⟩]
      rfl
    | cons next group =>
      have hsome : (next :: group ++ back).any (·.1 = name) := by simp [hlater next (by simp)]
      rw [List.cons_append, appendEntry, if_neg fun h => h.2 hsome, ih (by simp) hlater]
      rfl

/-- What is appended to a section that begins with a group goes there or behind it. -/
theorem entries_appendAll_group {name : FieldName} {group back : List (FieldName × FieldValue)}
    (hne : group ≠ []) (hgroup : ∀ entry ∈ group, entry.1 = name)
    (hback : ∀ entry ∈ back, entry.1 ≠ name) (entries : List (FieldName × FieldValue)) :
    (appendAll ⟨group ++ back⟩ entries).entries = group ++ entries.filter (·.1 = name) ++
      (appendAll ⟨back⟩ (entries.filter (·.1 ≠ name))).entries := by
  induction entries generalizing group back with
  | nil => simp [appendAll]
  | cons entry entries ih =>
    obtain ⟨name', value⟩ := entry
    by_cases hname : name' = name
    · subst hname
      have happend : (⟨group ++ back⟩ : Fields).append name' value =
          ⟨(group ++ [(name', value)]) ++ back⟩ := by
        rw [append, appendEntry_group hne hgroup hback]
      have hgroup' : ∀ entry ∈ group ++ [(name', value)], entry.1 = name' := by
        intro entry hentry
        obtain hentry | hentry := List.mem_append.1 hentry
        · exact hgroup entry hentry
        · rw [List.mem_singleton.1 hentry]
      rw [appendAll, List.foldl_cons, happend]
      exact (ih (by simp) hgroup' hback).trans (by simp)
    · have happend : (⟨group ++ back⟩ : Fields).append name' value =
          ⟨group ++ appendEntry name' value back⟩ := by
        rw [append, appendEntry_append_of_ne fun entry h => by rw [hgroup entry h]; exact Ne.symm hname]
      have hback' : ∀ entry ∈ appendEntry name' value back, entry.1 ≠ name := by
        intro entry hentry heq
        have hmem : entry ∈ (appendEntry name' value back).filter (·.1 = name) := by
          simp [hentry, heq]
        rw [filter_appendEntry, if_neg hname, List.append_nil, List.mem_filter] at hmem
        exact hback entry hmem.1 heq
      rw [appendAll, List.foldl_cons, happend]
      exact (ih hne hgroup hback').trans (by simp [hname, appendAll, append])

/-- Appending the entries of a list groups them by name. -/
theorem entries_ofList (entries : List (FieldName × FieldValue)) :
    (ofList entries).entries = grouped entries := by
  induction hlength : entries.length using Nat.strong_induction_on generalizing entries with
  | _ n ih =>
    cases entries with
    | nil => simp [ofList, empty, grouped]
    | cons entry entries =>
      have hshorter : (entries.filter (·.1 ≠ entry.1)).length < n := by
        rw [← hlength, List.length_cons]
        exact Nat.lt_succ_of_le (List.length_filter_le _ _)
      have hgroup : ∀ first ∈ [entry], first.1 = entry.1 := by simp
      rw [grouped, ← ih _ hshorter _ rfl]
      exact entries_appendAll_group (by simp) hgroup (by simp) entries

end Fields

/-! What a field line spells. -/

/-- The line spells the field: its name in any case, and its value. -/
def FieldText.Spells (f : FieldText) (entry : FieldName × FieldValue) : Prop :=
  f.name.map Bytes.lower = entry.1.bytes ∧ f.value = entry.2.bytes

/-- Nothing is trimmed off a string without white space at its ends. -/
theorem Bytes.trim_eq_self {s : Bytes} (hfirst : ∀ b ∈ s.head?, Bytes.isSpace b = false)
    (hlast : ∀ b ∈ s.getLast?, Bytes.isSpace b = false) : Bytes.trim s = s := by
  have hdrop : s.dropWhile Bytes.isSpace = s := by
    cases s with
    | nil => rfl
    | cons b s =>
      have hb : Bytes.isSpace b = false := hfirst b rfl
      rw [List.dropWhile_cons_of_neg (by simp [hb])]
  have hend := Bytes.trimEndWhile_append (p := Bytes.isSpace) (a := s) (b := []) (by simp) hlast
  rw [List.append_nil] at hend
  rw [Bytes.trim, hdrop, Bytes.trimEnd, hend]

/-- White space in a value is a blank. -/
theorem isSpace_eq_false {b : UInt8} (hvalue : isValueByte b = true) (hblank : Bytes.isBlank b = false) :
    Bytes.isSpace b = false := by
  have hall : ∀ k : Fin 256, isValueByte (UInt8.ofFin k) = true →
      Bytes.isBlank (UInt8.ofFin k) = false → Bytes.isSpace (UInt8.ofFin k) = false := by
    decide +kernel
  exact hall b.toFin hvalue hblank

namespace FieldText

theorem trim_value (f : FieldText) : Bytes.trim f.value = f.value := by
  refine Bytes.trim_eq_self ?_ ?_
  · intro b hb
    exact isSpace_eq_false (f.isValueByte_value b (List.mem_of_head? hb)) (f.head_value b hb)
  · intro b hb
    exact isSpace_eq_false (f.isValueByte_value b (List.mem_of_getLast? hb)) (f.getLast_value b hb)

theorem Spells.name_eq {f : FieldText} {entry : FieldName × FieldValue} (h : f.Spells entry) :
    FieldName.ofBytes? f.name = some entry.1 := by
  have hname : isFieldName (f.name.map Bytes.lower) = true := by
    rw [h.1]
    exact entry.1.isFieldName_bytes
  rw [FieldName.ofBytes?, dif_pos hname, Option.some.injEq, FieldName.mk.injEq]
  exact h.1

theorem Spells.value_eq {f : FieldText} {entry : FieldName × FieldValue} (h : f.Spells entry) :
    FieldValue.ofBytes? (Bytes.trim f.value) = some entry.2 := by
  have hvalue : f.value.all isValueByte = true := List.all_eq_true.2 f.isValueByte_value
  rw [f.trim_value, FieldValue.ofBytes?, dif_pos hvalue, Option.some.injEq, FieldValue.mk.injEq]
  exact h.2

/-- A letter in lower case is an octet of a token like the letter, and in lower case. -/
theorem isTokenByte_lower {b : UInt8} (h : isTokenByte b = true) :
    isTokenByte (Bytes.lower b) = true ∧ Bytes.lower (Bytes.lower b) = Bytes.lower b := by
  have hall : ∀ k : Fin 256, isTokenByte (UInt8.ofFin k) = true →
      isTokenByte (Bytes.lower (UInt8.ofFin k)) = true ∧
        Bytes.lower (Bytes.lower (UInt8.ofFin k)) = Bytes.lower (UInt8.ofFin k) := by
    decide +kernel
  exact hall b.toFin h

/-- A line whose name is not too long spells some field. -/
theorem exists_spells (f : FieldText) (h : f.name.length ≤ maxFieldName) :
    ∃ entry, f.Spells entry := by
  obtain ⟨hne, htoken⟩ := (isToken_iff f.name).1 f.isToken_name
  have hname : isFieldName (f.name.map Bytes.lower) = true := by
    simp only [isFieldName, isToken_iff, Bool.and_eq_true, beq_iff_eq, decide_eq_true_eq,
      List.length_map, List.map_map, List.forall_mem_map]
    refine ⟨⟨⟨by simpa using hne, fun b hb => (isTokenByte_lower (htoken b hb)).1⟩, ?_⟩, h⟩
    exact List.map_congr_left fun b hb => (isTokenByte_lower (htoken b hb)).2
  exact ⟨(⟨_, hname⟩, ⟨_, List.all_eq_true.2 f.isValueByte_value⟩), rfl, rfl⟩

end FieldText

/-- A name is not longer than the lines that it stands in. -/
theorem length_name_le {f : FieldText} {fields : List FieldText} (h : f ∈ fields) :
    f.name.length ≤ (fieldBytes fields).length := by
  have hline : f.bytes.length ≤ (fieldBytes fields).length :=
    List.Sublist.length_le (List.sublist_flatten_of_mem (List.mem_map_of_mem h))
  have hname : f.name.length ≤ f.bytes.length := by
    simp only [FieldText.bytes, FieldText.front, List.length_append]
    omega
  exact hname.trans hline

/-- Field lines that are not too long altogether spell fields. -/
theorem exists_forall₂_spells {fields : List FieldText}
    (h : (fieldBytes fields).length ≤ maxFieldName) :
    ∃ entries, List.Forall₂ FieldText.Spells fields entries := by
  have hname : ∀ f ∈ fields, ∃ entry, f.Spells entry := fun f hf =>
    f.exists_spells ((length_name_le hf).trans h)
  clear h
  induction fields with
  | nil => exact ⟨[], .nil⟩
  | cons f fields ih =>
    obtain ⟨entry, hentry⟩ := hname f (by simp)
    obtain ⟨entries, hentries⟩ := ih fun f hf => hname f (by simp [hf])
    exact ⟨entry :: entries, .cons hentry hentries⟩

/-- Reading field lines gives the fields that they spell. -/
theorem Fields.ofLines_eq_ofList {fields : List FieldText}
    {entries : List (FieldName × FieldValue)} (h : List.Forall₂ FieldText.Spells fields entries) :
    Fields.ofLines (fields.map FieldText.line) = .ok (Fields.ofList entries) := by
  unfold Fields.ofLines Fields.ofList
  generalize Fields.empty = start
  induction h generalizing start with
  | nil => rfl
  | cons hspells _ ih =>
    rw [List.map_cons, List.foldlM_cons, FieldText.line]
    simp only [hspells.name_eq, hspells.value_eq]
    exact ih _

end CoopHttp
