import CoopHttp.Proofs.Arena
import Mathlib.Data.Finset.Card

/-!
# What becomes of a handle

The history of an arena, as what its operations came to, says which handles were issued and what is
stored under each of them. As long as no slot is freed so often that its generations begin again, the
arena and its history agree: a handle is issued once, and it finds what was stored under it until it
is removed, and nothing before and after. What ties the two together is that the generation of a slot
is the number of times the slot has been freed.
-/
namespace CoopHttp.Arena

variable {α : Type}

inductive Event (α : Type)
  /-- A value was stored under a new handle. -/
  | inserted (id : TaskId) (value : α)
  /-- The value under a handle was changed in place, if there is one. -/
  | modified (id : TaskId) (change : α → α)
  /-- The value under a handle was asked back. -/
  | removed (id : TaskId) (answer : Option α)

/-- Arenas with their histories, the last event first. -/
inductive Recorded : Arena α → List (Event α) → Prop
  | empty : Recorded {} []
  | insertWith {a : Arena α} {events : List (Event α)} (h : Recorded a events) (make : TaskId → α) :
    Recorded (a.insertWith make).1
      (.inserted (a.insertWith make).2 (make (a.insertWith make).2) :: events)
  | modify {a : Arena α} {events : List (Event α)} (h : Recorded a events) (id : TaskId)
    (change : α → α) : Recorded (a.modify id change) (.modified id change :: events)
  | remove {a : Arena α} {events : List (Event α)} (h : Recorded a events) (id : TaskId) :
    Recorded (a.remove id).1 (.removed id (a.remove id).2 :: events)

def issued : List (Event α) → List TaskId
  | [] => []
  | .inserted id _ :: events => id :: issued events
  | .modified _ _ :: events | .removed _ _ :: events => issued events

/-- The handles whose value was handed back. -/
def returned : List (Event α) → List TaskId
  | [] => []
  | .removed id (some _) :: events => id :: returned events
  | .removed _ none :: events | .inserted _ _ :: events | .modified _ _ :: events => returned events

/-- What is stored under a handle, by the history alone. -/
def stored : List (Event α) → TaskId → Option α
  | [], _ => none
  | .inserted id value :: events, other => if other = id then some value else stored events other
  | .modified id change :: events, other =>
    if other = id then (stored events id).map change else stored events other
  | .removed id _ :: events, other => if other = id then none else stored events other

def freed (events : List (Event α)) (index : ℕ) : ℕ :=
  (returned events).countP (·.index = index)

/-- A value is stored under a handle from its insertion until the handle is removed. -/
theorem isSome_stored_iff {events : List (Event α)} {id : TaskId} :
    (stored events id).isSome ↔ ∃ later value earlier, events = later ++ .inserted id value :: earlier ∧
      ∀ answer, .removed id answer ∉ later := by
  induction events with
  | nil => simp [stored]
  | cons event events ih =>
    have hcons (hother : ∀ value, event ≠ .inserted id value) :
        (∃ later value earlier, event :: events = later ++ .inserted id value :: earlier ∧
          ∀ answer, .removed id answer ∉ later) ↔
        (∀ answer, event ≠ .removed id answer) ∧ (stored events id).isSome := by
      rw [ih]
      constructor
      · rintro ⟨_ | ⟨first, later⟩, value, earlier, heq, hkept⟩
        · exact absurd (List.cons.inj heq).1 (hother value)
        · obtain ⟨rfl, rfl⟩ := List.cons.inj heq
          exact ⟨fun answer h => hkept answer (h ▸ List.mem_cons_self),
            later, value, earlier, rfl, fun answer h => hkept answer (List.mem_cons_of_mem _ h)⟩
      · rintro ⟨hkept, later, value, earlier, rfl, hlater⟩
        refine ⟨event :: later, value, earlier, rfl, fun answer h => ?_⟩
        obtain h | h := List.mem_cons.1 h
        · exact hkept answer h.symm
        · exact hlater answer h
    cases event with
    | inserted other value =>
      by_cases hid : id = other
      · subst hid
        exact iff_of_true (by simp [stored]) ⟨[], value, events, rfl, by simp⟩
      · have hne : ∀ v, Event.inserted other value ≠ .inserted id v := by
          intro v heq
          cases heq
          exact hid rfl
        rw [hcons hne]
        simp [stored, hid]
    | modified other change =>
      rw [hcons (by simp)]
      by_cases hid : id = other <;> simp [stored, hid]
    | removed other answer =>
      rw [hcons (by simp)]
      by_cases hid : id = other
      · simp [stored, hid]
      · have hother : other ≠ id := Ne.symm hid
        simp [stored, hid, hother]

/-- No slot has been freed so often that its generations begin again. -/
def Spared (events : List (Event α)) : Prop := ∀ index, freed events index < UInt32.size

theorem freed_removed (events : List (Event α)) (id : TaskId) (value : α) (index : ℕ) :
    freed (.removed id (some value) :: events) index =
      freed events index + if id.index = index then 1 else 0 := by
  simp [freed, returned, List.countP_cons]

theorem freed_self (events : List (Event α)) (id : TaskId) (value : α) :
    freed (.removed id (some value) :: events) id.index = freed events id.index + 1 := by
  rw [freed_removed, if_pos rfl]

theorem freed_of_ne {events : List (Event α)} {id : TaskId} {value : α} {index : ℕ}
    (h : index ≠ id.index) : freed (.removed id (some value) :: events) index = freed events index := by
  rw [freed_removed, if_neg (Ne.symm h), Nat.add_zero]

theorem freed_le_cons (event : Event α) (events : List (Event α)) (index : ℕ) :
    freed events index ≤ freed (event :: events) index := by
  cases event with
  | inserted id value | modified id change => exact le_rfl
  | removed id answer =>
    cases answer with
    | none => exact le_rfl
    | some value =>
      rw [freed_removed]
      exact Nat.le_add_right _ _

theorem Spared.of_cons {event : Event α} {events : List (Event α)} (h : Spared (event :: events)) :
    Spared events :=
  fun index => (freed_le_cons event events index).trans_lt (h index)

/-- What the slots of an arena have to do with its history. -/
structure Tracked (a : Arena α) (events : List (Event α)) : Prop where
  tidy : a.Tidy
  get?_eq : ∀ id, a.get? id = stored events id
  nodup_issued : (issued events).Nodup
  nodup_returned : (returned events).Nodup
  toNat_generation : ∀ {i slot}, a.slots[i]? = some slot → slot.generation.toNat = freed events i
  freed_eq_zero : ∀ {i}, a.slots.length ≤ i → freed events i = 0
  /-- A handle that was issued still has its value, or its slot has gone on to a later generation. -/
  issued_cases : ∀ id ∈ issued events, id.index < a.slots.length ∧
    (a.contains id ∨ id.generation.toNat < freed events id.index)
  mem_issued : ∀ id, a.contains id → id ∈ issued events
  returned_lt : ∀ id ∈ returned events, id.generation.toNat < freed events id.index
  size_eq : a.size = {id ∈ (issued events).toFinset | a.contains id}.card

namespace Tracked

variable {a : Arena α} {events : List (Event α)}

theorem empty : Tracked ({} : Arena α) [] where
  tidy := tidy_empty
  get?_eq _ := rfl
  nodup_issued := List.nodup_nil
  nodup_returned := List.nodup_nil
  toNat_generation h := by simp at h
  freed_eq_zero _ := rfl
  issued_cases := by simp [issued]
  mem_issued _ h := by simp [contains, get?, slot?] at h
  returned_lt := by simp [returned]
  size_eq := rfl

/-- A new value gets a handle that was never issued, in the generation of its slot. -/
theorem fresh (h : Tracked a events) (make : TaskId → α) :
    (a.insertWith make).2 ∉ issued events := by
  intro hissued
  obtain ⟨hlt, hcase⟩ := h.issued_cases _ hissued
  have hnone : ¬ a.contains (a.insertWith make).2 := by
    rw [contains, h.tidy.get?_insertWith_snd make]
    exact Bool.false_ne_true
  have hgen := hcase.resolve_left hnone
  obtain ⟨id, -, rfl, heq⟩ | ⟨id, free, -, hslot, heq⟩ := h.tidy.insertWith_cases make
  · rw [heq] at hlt
    exact Nat.lt_irrefl _ hlt
  · rw [heq] at hgen
    exact Nat.lt_irrefl _ (h.toNat_generation hslot ▸ hgen)

theorem contains_insertWith (h : Tracked a events) (make : TaskId → α) (other : TaskId) :
    (a.insertWith make).1.contains other ↔ other = (a.insertWith make).2 ∨ a.contains other := by
  rw [contains, contains, h.tidy.get?_insertWith]
  split_ifs with hid <;> simp [hid]

/-- A new value takes the next slot or an empty one, whose generation stays. -/
theorem slots_insertWith (h : Tracked a events) (make : TaskId → α) {i : ℕ} {slot : Slot α}
    (hslot : (a.insertWith make).1.slots[i]? = some slot) :
    i = a.slots.length ∧ slot.generation = 0 ∨
      ∃ old, a.slots[i]? = some old ∧ slot.generation = old.generation := by
  obtain ⟨id, -, rfl, heq⟩ | ⟨id, free, -, hold, heq⟩ := h.tidy.insertWith_cases make
  · rw [heq] at hslot
    by_cases hi : i = a.slots.length
    · subst hi
      rw [List.getElem?_concat_length] at hslot
      cases hslot
      exact .inl ⟨rfl, rfl⟩
    · rw [getElem?_concat_of_ne hi] at hslot
      exact .inr ⟨slot, hslot, rfl⟩
  · rw [heq] at hslot
    obtain ⟨rfl, rfl⟩ | ⟨-, hslot⟩ := getElem?_set_cases hslot
    · exact .inr ⟨_, hold, rfl⟩
    · exact .inr ⟨slot, hslot, rfl⟩

theorem length_slots_insertWith (h : Tracked a events) (make : TaskId → α) :
    a.slots.length ≤ (a.insertWith make).1.slots.length ∧
      (a.insertWith make).2.index < (a.insertWith make).1.slots.length := by
  obtain ⟨id, -, rfl, heq⟩ | ⟨id, free, -, hold, heq⟩ := h.tidy.insertWith_cases make
  · rw [heq]
    simp
  · rw [heq]
    simpa using (List.getElem?_eq_some_iff.1 hold).1

theorem size_insertWith (a : Arena α) (make : TaskId → α) :
    (a.insertWith make).1.size = a.size + 1 := by
  rw [Arena.insertWith]
  split <;> rfl

theorem insertWith (h : Tracked a events) (make : TaskId → α) :
    Tracked (a.insertWith make).1
      (.inserted (a.insertWith make).2 (make (a.insertWith make).2) :: events) := by
  obtain ⟨hgrown, hlt⟩ := h.length_slots_insertWith make
  have hcontains := h.contains_insertWith make
  exact {
    tidy := h.tidy.insertWith make
    get?_eq := fun id => by
      rw [h.tidy.get?_insertWith, stored, h.get?_eq]
    nodup_issued := List.nodup_cons.2 ⟨h.fresh make, h.nodup_issued⟩
    nodup_returned := h.nodup_returned
    toNat_generation := fun {i slot} hslot => by
      obtain ⟨rfl, hzero⟩ | ⟨old, hold, hgen⟩ := h.slots_insertWith make hslot
      · rw [hzero]
        exact (h.freed_eq_zero le_rfl).symm
      · rw [hgen]
        exact h.toNat_generation hold
    freed_eq_zero := fun hle => h.freed_eq_zero (hgrown.trans hle)
    issued_cases := by
      refine List.forall_mem_cons.2 ⟨⟨hlt, .inl ((hcontains _).2 (.inl rfl))⟩, fun id hid => ?_⟩
      obtain ⟨hindex, hcase⟩ := h.issued_cases id hid
      exact ⟨hindex.trans_le hgrown, hcase.imp_left fun hold => (hcontains id).2 (.inr hold)⟩
    mem_issued := fun id hid => by
      obtain rfl | hold := (hcontains id).1 hid
      · exact List.mem_cons_self
      · exact List.mem_cons_of_mem _ (h.mem_issued id hold)
    returned_lt := h.returned_lt
    size_eq := by
      have hlive : {id ∈ (issued (.inserted (a.insertWith make).2
          (make (a.insertWith make).2) :: events)).toFinset | (a.insertWith make).1.contains id} =
          insert (a.insertWith make).2 {id ∈ (issued events).toFinset | a.contains id} := by
        ext id
        simp only [issued, List.toFinset_cons, Finset.mem_filter, Finset.mem_insert,
          List.mem_toFinset, hcontains]
        have hissued := h.mem_issued id
        tauto
      rw [hlive, Finset.card_insert_of_notMem, size_insertWith, h.size_eq]
      intro hmem
      exact h.fresh make (List.mem_toFinset.1 (Finset.mem_filter.1 hmem).1) }

/-! Changing a value in place. -/

theorem contains_modify (a : Arena α) (id other : TaskId) (change : α → α) :
    (a.modify id change).contains other ↔ a.contains other := by
  rw [contains, contains, get?_modify]
  split_ifs with hid <;> simp [hid]

theorem slots_modify (a : Arena α) (id : TaskId) (change : α → α) :
    (a.modify id change).slots.length = a.slots.length ∧
      ∀ {i : ℕ} {slot : Slot α}, (a.modify id change).slots[i]? = some slot →
        ∃ old, a.slots[i]? = some old ∧ slot.generation = old.generation := by
  cases hget : a.get? id with
  | none =>
    rw [modify_of_get?_eq_none hget]
    exact ⟨rfl, fun hslot => ⟨_, hslot, rfl⟩⟩
  | some value =>
    have hold := get?_eq_some_iff.1 hget
    rw [modify_of_get? hget]
    refine ⟨List.length_set, fun {i slot} hslot => ?_⟩
    obtain ⟨rfl, rfl⟩ | ⟨-, hslot⟩ := getElem?_set_cases hslot
    · exact ⟨_, hold, rfl⟩
    · exact ⟨slot, hslot, rfl⟩

theorem size_modify (a : Arena α) (id : TaskId) (change : α → α) :
    (a.modify id change).size = a.size := by
  rw [Arena.modify]
  split <;> rfl

theorem modify (h : Tracked a events) (id : TaskId) (change : α → α) :
    Tracked (a.modify id change) (.modified id change :: events) := by
  obtain ⟨hlength, hslots⟩ := slots_modify a id change
  have hcontains := fun other => contains_modify a id other change
  exact {
    tidy := h.tidy.modify id change
    get?_eq := fun other => by
      rw [get?_modify, stored, h.get?_eq, h.get?_eq]
    nodup_issued := h.nodup_issued
    nodup_returned := h.nodup_returned
    toNat_generation := fun {i slot} hslot => by
      obtain ⟨old, hold, hgen⟩ := hslots hslot
      rw [hgen]
      exact h.toNat_generation hold
    freed_eq_zero := fun hle => h.freed_eq_zero (hlength ▸ hle)
    issued_cases := fun other hother => by
      rw [hlength, hcontains]
      exact h.issued_cases other hother
    mem_issued := fun other hother => h.mem_issued other ((hcontains other).1 hother)
    returned_lt := h.returned_lt
    size_eq := by
      simp only [size_modify, h.size_eq, issued, hcontains] }

/-! Taking a value out. -/

/-- An answer is what was stored. -/
theorem answer_remove (h : Tracked a events) (id : TaskId) :
    (a.remove id).2 = stored events id := by
  rw [← h.get?_eq]
  cases hget : a.get? id with
  | none => rw [remove_of_get?_eq_none hget]
  | some value => rw [remove_of_get? hget]

theorem contains_remove (a : Arena α) (id other : TaskId) :
    (a.remove id).1.contains other ↔ other ≠ id ∧ a.contains other := by
  rw [contains, contains, get?_remove]
  split_ifs with hid <;> simp [hid]

section Freed

variable {id : TaskId} {value : α}

/-- The handle that is removed is of an earlier generation from then on. -/
theorem lt_freed (h : Tracked a events) (hget : a.get? id = some value) :
    id.generation.toNat < freed (.removed id (some value) :: events) id.index := by
  rw [freed_self, h.toNat_generation (get?_eq_some_iff.1 hget)]
  exact Nat.lt_succ_self _

/-- The slot that is freed goes on to the generation that counts this time too. -/
theorem toNat_generation_freed (h : Tracked a events) (hget : a.get? id = some value)
    (hspared : Spared (.removed id (some value) :: events)) :
    (id.generation + 1).toNat = freed (.removed id (some value) :: events) id.index := by
  -- without this bound the slot could go back to its first generation
  have hlast := hspared id.index
  rw [freed_self] at hlast ⊢
  rw [UInt32.toNat_add, h.toNat_generation (get?_eq_some_iff.1 hget)]
  exact Nat.mod_eq_of_lt hlast

theorem toNat_generation_remove (h : Tracked a events) (hget : a.get? id = some value)
    (hspared : Spared (.removed id (some value) :: events)) {i : ℕ} {slot : Slot α}
    (hslot : (a.remove id).1.slots[i]? = some slot) :
    slot.generation.toNat = freed (.removed id (some value) :: events) i := by
  rw [remove_of_get? hget] at hslot
  obtain ⟨rfl, rfl⟩ | ⟨hi, hslot⟩ := getElem?_set_cases hslot
  · exact h.toNat_generation_freed hget hspared
  · rw [freed_of_ne hi]
    exact h.toNat_generation hslot

/-- The other handles keep their values, and those without one stay behind their slots. -/
theorem issued_cases_remove (h : Tracked a events) (hget : a.get? id = some value) {other : TaskId}
    (hother : other ∈ issued events) :
    (a.remove id).1.contains other ∨
      other.generation.toNat < freed (.removed id (some value) :: events) other.index := by
  by_cases hid : other = id
  · subst hid
    exact .inr (h.lt_freed hget)
  · exact (h.issued_cases other hother).2.imp (fun hheld => (contains_remove a id other).2 ⟨hid, hheld⟩)
      (·.trans_le (freed_le_cons _ events other.index))

theorem size_remove (h : Tracked a events) (hget : a.get? id = some value) :
    (a.remove id).1.size = {other ∈ (issued events).toFinset | (a.remove id).1.contains other}.card := by
  have herase : {other ∈ (issued events).toFinset | (a.remove id).1.contains other} =
      {other ∈ (issued events).toFinset | a.contains other}.erase id := by
    ext other
    simp only [Finset.mem_filter, Finset.mem_erase, contains_remove]
    tauto
  have hlive : a.contains id := contains_iff.2 ⟨value, hget⟩
  have hmem := List.mem_toFinset.2 (h.mem_issued id hlive)
  rw [herase, Finset.card_erase_of_mem (Finset.mem_filter.2 ⟨hmem, hlive⟩), remove_of_get? hget,
    h.size_eq]

theorem remove_of_get? (h : Tracked a events) (hget : a.get? id = some value)
    (hspared : Spared (.removed id (some value) :: events)) :
    Tracked (a.remove id).1 (.removed id (some value) :: events) := by
  have hlength : (a.remove id).1.slots.length = a.slots.length := by
    rw [Arena.remove_of_get? hget]
    exact List.length_set
  exact {
    tidy := h.tidy.remove id
    get?_eq := fun other => by rw [get?_remove, stored, h.get?_eq]
    nodup_issued := h.nodup_issued
    nodup_returned := by
      refine List.nodup_cons.2 ⟨fun hreturned => ?_, h.nodup_returned⟩
      have hlt := h.returned_lt id hreturned
      rw [h.toNat_generation (get?_eq_some_iff.1 hget)] at hlt
      exact absurd hlt (lt_irrefl _)
    toNat_generation := h.toNat_generation_remove hget hspared
    freed_eq_zero := fun {i} hi => by
      rw [hlength] at hi
      rw [freed_of_ne ((index_lt_of_get? hget).trans_le hi).ne', h.freed_eq_zero hi]
    issued_cases := fun other hother =>
      ⟨hlength ▸ (h.issued_cases other hother).1, h.issued_cases_remove hget hother⟩
    mem_issued := fun other hother => h.mem_issued other ((contains_remove a id other).1 hother).2
    returned_lt := List.forall_mem_cons.2 ⟨h.lt_freed hget, fun other hother =>
      (h.returned_lt other hother).trans_le (freed_le_cons _ events other.index)⟩
    size_eq := h.size_remove hget }

end Freed

theorem remove (h : Tracked a events) (id : TaskId)
    (hspared : Spared (.removed id (a.remove id).2 :: events)) :
    Tracked (a.remove id).1 (.removed id (a.remove id).2 :: events) := by
  cases hget : a.get? id with
  | none =>
    rw [remove_of_get?_eq_none hget]
    exact { h with
      get?_eq := fun other => by
        rw [stored, ← h.get?_eq]
        split_ifs with hid
        · rw [hid, hget]
        · rfl }
  | some value =>
    have hanswer : (a.remove id).2 = some value := by rw [Arena.remove_of_get? hget]
    rw [hanswer] at hspared ⊢
    exact h.remove_of_get? hget hspared

end Tracked

theorem Recorded.tracked {a : Arena α} {events : List (Event α)} (h : Recorded a events)
    (hspared : Spared events) : Tracked a events := by
  induction h with
  | empty => exact .empty
  | insertWith h make ih => exact (ih hspared.of_cons).insertWith make
  | modify h id change ih => exact (ih hspared.of_cons).modify id change
  | remove h id ih => exact (ih hspared.of_cons).remove id hspared

/-- Whenever a handle was removed, the answer was what was stored under it then. -/
theorem Recorded.answer_eq {a : Arena α} {events later earlier : List (Event α)} {id : TaskId}
    {answer : Option α} (h : Recorded a events) (hspared : Spared events)
    (hevents : events = later ++ .removed id answer :: earlier) : answer = stored earlier id := by
  induction h generalizing later with
  | empty => simp at hevents
  | insertWith h make ih | modify h id change ih =>
    obtain _ | ⟨event, later⟩ := later
    · simp at hevents
    · exact ih hspared.of_cons (List.cons.inj hevents).2
  | remove h id ih =>
    obtain _ | ⟨event, later⟩ := later
    · obtain ⟨hevent, rfl⟩ := List.cons.inj hevents
      cases hevent
      exact (h.tracked hspared.of_cons).answer_remove id
    · exact ih hspared.of_cons (List.cons.inj hevents).2

structure KeepsApart (a : Arena α) (events : List (Event α)) : Prop where
  nodup_issued : (issued events).Nodup
  get?_eq : ∀ id, a.get? id = stored events id
  get?_modify_eq : ∀ id change other, (a.modify id change).get? other =
    if other = id then (stored events id).map change else stored events other
  /-- A handle finds a value from its insertion until its removal. -/
  contains_iff : ∀ id, a.contains id ↔
    ∃ later value earlier, events = later ++ .inserted id value :: earlier ∧
      ∀ answer, .removed id answer ∉ later
  answer_eq : ∀ later id answer earlier, events = later ++ .removed id answer :: earlier →
    answer = stored earlier id
  /-- No handle's value is handed back twice. -/
  nodup_returned : (returned events).Nodup
  nodup_free : a.free.Nodup
  mem_free_iff : ∀ i, i ∈ a.free ↔ ∃ generation, a.slots[i]? = some ⟨generation, none⟩
  size_eq : a.size = {id ∈ (issued events).toFinset | a.contains id}.card

/-- Handles are never confused, unless the generations of a slot have begun again. -/
theorem keepsApart_of_recorded {a : Arena α} {events : List (Event α)} (h : Recorded a events)
    (hspared : Spared events) : KeepsApart a events := by
  have htracked := h.tracked hspared
  exact {
    nodup_issued := htracked.nodup_issued
    get?_eq := htracked.get?_eq
    get?_modify_eq := fun id change other => by
      rw [get?_modify, htracked.get?_eq, htracked.get?_eq]
    contains_iff := fun id => by
      rw [contains, htracked.get?_eq]
      exact isSome_stored_iff
    answer_eq := fun _ _ _ _ => h.answer_eq hspared
    nodup_returned := htracked.nodup_returned
    nodup_free := htracked.tidy.nodup_free
    mem_free_iff := htracked.tidy.mem_free_iff
    size_eq := htracked.size_eq }

/-- A slot that is used twice, and the first handle removed a second time. -/
theorem exists_keepsApart_reusedSlot : ∃ (a : Arena ℕ) (events : List (Event ℕ)),
    Recorded a events ∧ Spared events ∧ a.slots = [⟨1, some 1⟩] ∧
      issued events = [⟨0, 1⟩, ⟨0, 0⟩] ∧ returned events = [⟨0, 0⟩] ∧ KeepsApart a events := by
  have h := (((Recorded.empty.insertWith fun id => id.generation.toNat).remove ⟨0, 0⟩).insertWith
    fun id => id.generation.toNat).remove ⟨0, 0⟩
  refine ⟨_, _, h, ?spared, rfl, rfl, rfl, keepsApart_of_recorded h ?spared⟩
  intro index
  exact Nat.lt_of_le_of_lt List.countP_le_length (by decide)

end CoopHttp.Arena
