import CoopHttp.Arena
import Mathlib.Data.List.Basic
import Mathlib.Data.List.Nodup
import Mathlib.Tactic.Common

/-!
# Values under handles

An arena is tidy if the slots listed as free are exactly the empty ones, each listed once. In a tidy
arena each operation touches the value of one handle: a new value gets a handle that had none, and
the values under all other handles stay what they were, even in the same slot.
-/
namespace CoopHttp.Arena

variable {α : Type}

/-- The free slots are the empty ones. -/
structure Tidy (a : Arena α) : Prop where
  nodup_free : a.free.Nodup
  mem_free_iff : ∀ i, i ∈ a.free ↔ ∃ generation, a.slots[i]? = some ⟨generation, none⟩

theorem tidy_empty : Tidy ({} : Arena α) where
  nodup_free := List.nodup_nil
  mem_free_iff := by simp

theorem contains_iff {a : Arena α} {id : TaskId} :
    a.contains id ↔ ∃ value, a.get? id = some value := by
  rw [contains, Option.isSome_iff_exists]

theorem get?_eq_some_iff {a : Arena α} {id : TaskId} {value : α} :
    a.get? id = some value ↔ a.slots[id.index]? = some ⟨id.generation, some value⟩ := by
  rw [get?, slot?]
  cases hslot : a.slots[id.index]? with
  | none => simp
  | some slot =>
    obtain ⟨generation, stored⟩ := slot
    by_cases hgen : generation = id.generation <;> simp [Option.filter, hgen]

/-- An arena with the same slots has the same values. -/
theorem get?_congr {a a' : Arena α} {id : TaskId} (h : a.slots[id.index]? = a'.slots[id.index]?) :
    a.get? id = a'.get? id := by
  rw [get?, get?, slot?, slot?, h]

theorem get?_of_slot {a : Arena α} {id : TaskId} {slot : Slot α}
    (h : a.slots[id.index]? = some slot) :
    a.get? id = if slot.generation = id.generation then slot.value else none := by
  rw [get?, slot?, h]
  by_cases hgen : slot.generation = id.generation <;> simp [Option.filter, hgen]

theorem index_lt_of_get? {a : Arena α} {id : TaskId} {value : α} (h : a.get? id = some value) :
    id.index < a.slots.length :=
  (List.getElem?_eq_some_iff.1 (get?_eq_some_iff.1 h)).1

/-! What an operation does with the slot of a handle. -/

theorem modify_of_get?_eq_none {a : Arena α} {id : TaskId} (h : a.get? id = none) (f : α → α) :
    a.modify id f = a := by
  rw [modify, h]

theorem modify_of_get? {a : Arena α} {id : TaskId} {value : α} (h : a.get? id = some value)
    (f : α → α) :
    a.modify id f =
      { a with slots := a.slots.set id.index ⟨id.generation, some (f value)⟩ } := by
  rw [modify, h]

theorem remove_of_get?_eq_none {a : Arena α} {id : TaskId} (h : a.get? id = none) :
    a.remove id = (a, none) := by
  rw [remove, h]

theorem remove_of_get? {a : Arena α} {id : TaskId} {value : α} (h : a.get? id = some value) :
    a.remove id =
      ({ slots := a.slots.set id.index ⟨id.generation + 1, none⟩
         free := id.index :: a.free
         size := a.size - 1 }, some value) := by
  rw [remove, h]

/-- A slot of a changed list is the one that was written, or it was there before. -/
theorem getElem?_set_cases {slots : List (Slot α)} {slot new : Slot α} {i j : ℕ}
    (h : (slots.set j new)[i]? = some slot) :
    i = j ∧ slot = new ∨ i ≠ j ∧ slots[i]? = some slot := by
  rw [List.getElem?_set] at h
  split_ifs at h with hj hlt
  · exact .inl ⟨hj.symm, (Option.some.inj h).symm⟩
  · exact .inr ⟨Ne.symm hj, h⟩

/-- A slot that is written holds nothing for the other handles, whatever it was. -/
theorem get?_set {a a' : Arena α} {id other : TaskId} {value : Option α}
    (hslots : a'.slots = a.slots.set id.index ⟨id.generation, value⟩)
    (hlt : id.index < a.slots.length)
    (hrest : other.index = id.index → other ≠ id → a.get? other = none) :
    a'.get? other = if other = id then value else a.get? other := by
  by_cases hindex : other.index = id.index
  · have hslot : a'.slots[other.index]? = some ⟨id.generation, value⟩ := by
      rw [hslots, hindex, List.getElem?_set_self hlt]
    rw [get?_of_slot hslot]
    by_cases hid : other = id
    · simp [hid]
    · have hgen : id.generation ≠ other.generation := by
        intro heq
        exact hid (by cases other; cases id; simp_all)
      rw [if_neg hid, if_neg hgen, hrest hindex hid]
  · have hid : other ≠ id := fun heq => hindex (congrArg _ heq)
    rw [if_neg hid]
    refine get?_congr ?_
    rw [hslots, List.getElem?_set_ne (Ne.symm hindex)]

/-- Only one handle of a slot has a value. -/
theorem get?_eq_none_of_ne {a : Arena α} {id other : TaskId} {value : α}
    (h : a.get? id = some value) (hindex : other.index = id.index) (hne : other ≠ id) :
    a.get? other = none := by
  have hslot := get?_eq_some_iff.1 h
  rw [← hindex] at hslot
  rw [get?_of_slot hslot, if_neg]
  intro heq
  exact hne (by cases other; cases id; simp_all)

theorem get?_modify (a : Arena α) (id other : TaskId) (f : α → α) :
    (a.modify id f).get? other = if other = id then (a.get? id).map f else a.get? other := by
  cases hget : a.get? id with
  | none =>
    rw [modify_of_get?_eq_none hget]
    split_ifs with hid
    · rw [hid, hget]; rfl
    · rfl
  | some value =>
    rw [modify_of_get? hget]
    exact get?_set rfl (index_lt_of_get? hget) fun hindex hne => get?_eq_none_of_ne hget hindex hne

theorem get?_remove (a : Arena α) (id other : TaskId) :
    (a.remove id).1.get? other = if other = id then none else a.get? other := by
  cases hget : a.get? id with
  | none =>
    rw [remove_of_get?_eq_none hget]
    split_ifs with hid
    · rw [hid, hget]
    · rfl
  | some value =>
    rw [remove_of_get? hget]
    by_cases hindex : other.index = id.index
    · -- the slot has gone on to its next generation, so `get?_set` does not apply
      have hslot : (a.slots.set id.index ⟨id.generation + 1, none⟩)[other.index]? =
          some ⟨id.generation + 1, none⟩ := by
        rw [hindex, List.getElem?_set_self (index_lt_of_get? hget)]
      rw [get?_of_slot hslot, ite_self none]
      split_ifs with hid
      · rfl
      · exact (get?_eq_none_of_ne hget hindex hid).symm
    · rw [if_neg fun heq => hindex (congrArg _ heq)]
      exact get?_congr (List.getElem?_set_ne (Ne.symm hindex))

/-! Tidiness. -/

theorem getElem?_concat_of_ne {slots : List (Slot α)} {slot : Slot α} {i : ℕ}
    (h : i ≠ slots.length) : (slots ++ [slot])[i]? = slots[i]? := by
  obtain hlt | hgt := Nat.lt_or_gt_of_ne h
  · rw [List.getElem?_append_left hlt]
  · have hlen : (slots ++ [slot]).length ≤ i := by
      rw [List.length_append]
      exact hgt
    rw [List.getElem?_eq_none hlen, List.getElem?_eq_none (Nat.le_of_lt hgt)]

/-- A new value takes an empty slot that is listed, or a slot of its own. -/
theorem Tidy.insertWith_cases {a : Arena α} (h : a.Tidy) (make : TaskId → α) :
    (∃ id : TaskId, a.free = [] ∧ id = ⟨a.slots.length, 0⟩ ∧
      a.insertWith make =
        ({ a with slots := a.slots ++ [⟨0, some (make id)⟩], size := a.size + 1 }, id)) ∨
    ∃ (id : TaskId) (free : List ℕ), a.free = id.index :: free ∧
      a.slots[id.index]? = some ⟨id.generation, none⟩ ∧
      a.insertWith make =
        ({ slots := a.slots.set id.index ⟨id.generation, some (make id)⟩, free,
           size := a.size + 1 }, id) := by
  cases hfree : a.free with
  | nil => exact .inl ⟨_, rfl, rfl, by simp [insertWith, hfree]⟩
  | cons index free =>
    obtain ⟨generation, hslot⟩ := (h.mem_free_iff index).1 (by simp [hfree])
    refine .inr ⟨⟨index, generation⟩, free, rfl, hslot, ?_⟩
    simp [insertWith, hfree, hslot]

/-- A new value gets a handle that had none. -/
theorem Tidy.get?_insertWith_snd {a : Arena α} (h : a.Tidy) (make : TaskId → α) :
    a.get? (a.insertWith make).2 = none := by
  obtain ⟨id, -, rfl, heq⟩ | ⟨id, free, -, hslot, heq⟩ := h.insertWith_cases make
  · rw [heq]
    simp [get?, slot?]
  · rw [heq, get?_of_slot hslot]
    exact ite_self none

theorem Tidy.get?_insertWith {a : Arena α} (h : a.Tidy) (make : TaskId → α) (other : TaskId) :
    (a.insertWith make).1.get? other =
      if other = (a.insertWith make).2 then some (make (a.insertWith make).2)
      else a.get? other := by
  obtain ⟨id, -, rfl, heq⟩ | ⟨id, free, -, hslot, heq⟩ := h.insertWith_cases make
  · rw [heq]
    by_cases hindex : other.index = a.slots.length
    · have hnone : a.get? other = none := by simp [get?, slot?, hindex]
      have hslot : (a.slots ++ [⟨0, some (make ⟨a.slots.length, 0⟩)⟩])[other.index]? =
          some ⟨0, some (make ⟨a.slots.length, 0⟩)⟩ := by simp [hindex]
      rw [hnone, get?_of_slot hslot]
      have hiff : 0 = other.generation ↔ other = ⟨a.slots.length, 0⟩ := by
        cases other
        simp_all [eq_comm]
      exact if_congr hiff rfl rfl
    · rw [if_neg fun hid => hindex (congrArg _ hid)]
      exact get?_congr (getElem?_concat_of_ne hindex)
  · rw [heq]
    refine get?_set rfl (List.getElem?_eq_some_iff.1 hslot).1 fun hindex _ => ?_
    rw [← hindex] at hslot
    rw [get?_of_slot hslot]
    exact ite_self none

/-- Filling the slot of a handle takes it off the list of free slots. -/
theorem Tidy.fill {a : Arena α} (h : a.Tidy) {id : TaskId} {free : List ℕ} {value : α}
    (hfree : a.free.Perm (id.index :: free)) (hlt : id.index < a.slots.length) {size : ℕ} :
    Tidy ⟨a.slots.set id.index ⟨id.generation, some value⟩, free, size⟩ := by
  obtain ⟨hnot, hnodup⟩ := List.nodup_cons.1 (hfree.nodup_iff.1 h.nodup_free)
  refine ⟨hnodup, fun i => ?_⟩
  have hmem : i ∈ a.free ↔ i = id.index ∨ i ∈ free := by rw [hfree.mem_iff, List.mem_cons]
  have hiff := h.mem_free_iff i
  by_cases hi : i = id.index
  · subst hi
    simp [List.getElem?_set_self hlt, hnot]
  · rw [List.getElem?_set_ne (Ne.symm hi), ← hiff, hmem]
    simp [hi]

theorem Tidy.insertWith {a : Arena α} (h : a.Tidy) (make : TaskId → α) :
    (a.insertWith make).1.Tidy := by
  obtain ⟨id, hfree, rfl, heq⟩ | ⟨id, free, hfree, hslot, heq⟩ := h.insertWith_cases make
  · rw [heq]
    refine ⟨h.nodup_free, fun i => ?_⟩
    by_cases hi : i = a.slots.length
    · subst hi
      simp [hfree]
    · rw [getElem?_concat_of_ne hi]
      exact h.mem_free_iff i
  · rw [heq]
    exact h.fill (by rw [hfree]) (List.getElem?_eq_some_iff.1 hslot).1

theorem Tidy.modify {a : Arena α} (h : a.Tidy) (id : TaskId) (f : α → α) : (a.modify id f).Tidy := by
  cases hget : a.get? id with
  | none =>
    rw [modify_of_get?_eq_none hget]
    exact h
  | some value =>
    have hslot := get?_eq_some_iff.1 hget
    rw [modify_of_get? hget]
    refine ⟨h.nodup_free, fun i => (h.mem_free_iff i).trans ?_⟩
    by_cases hi : i = id.index
    · subst hi
      simp [hslot, List.getElem?_set_self (index_lt_of_get? hget)]
    · rw [List.getElem?_set_ne (Ne.symm hi)]

theorem Tidy.remove {a : Arena α} (h : a.Tidy) (id : TaskId) : (a.remove id).1.Tidy := by
  cases hget : a.get? id with
  | none =>
    rw [remove_of_get?_eq_none hget]
    exact h
  | some value =>
    have hslot := get?_eq_some_iff.1 hget
    rw [remove_of_get? hget]
    have hnot : id.index ∉ a.free := by
      rw [h.mem_free_iff]
      simp [hslot]
    refine ⟨List.nodup_cons.2 ⟨hnot, h.nodup_free⟩, fun i => ?_⟩
    by_cases hi : i = id.index
    · subst hi
      simp [List.getElem?_set_self (index_lt_of_get? hget)]
    · rw [List.getElem?_set_ne (Ne.symm hi), List.mem_cons, h.mem_free_iff]
      simp [hi]

end CoopHttp.Arena
