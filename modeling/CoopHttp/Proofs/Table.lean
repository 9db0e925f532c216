import Mathlib.Data.List.Nodup
import Mathlib.Data.List.Sort
import Mathlib.Tactic.Common

/-!
# Tables with distinct keys

A list of keys and values in which no key occurs twice: looking a key up finds exactly the entry
that is in the list.
-/
namespace CoopHttp.Table

variable {κ β γ : Type} [DecidableEq κ]

/-- No key has two entries. -/
def Distinct (table : List (κ × β)) : Prop := (table.map (·.1)).Nodup

omit [DecidableEq κ] in
theorem distinct_nil : Distinct ([] : List (κ × β)) := List.nodup_nil

omit [DecidableEq κ] in
theorem distinct_cons {key : κ} {value : β} {table : List (κ × β)} :
    Distinct ((key, value) :: table) ↔ key ∉ table.map (·.1) ∧ Distinct table :=
  List.nodup_cons

omit [DecidableEq κ] in
theorem Distinct.filter {table : List (κ × β)} (h : Distinct table) (p : κ × β → Bool) :
    Distinct (table.filter p) :=
  List.Nodup.sublist ((List.filter_sublist).map _) h

theorem Distinct.cons_filter {table : List (κ × β)} (h : Distinct table) (key : κ) (value : β) :
    Distinct ((key, value) :: table.filter (·.1 ≠ key)) := by
  refine distinct_cons.2 ⟨?_, h.filter _⟩
  simp

omit [DecidableEq κ] in
theorem Distinct.eq_of_mem {table : List (κ × β)} (h : Distinct table) {key : κ} {a b : β}
    (ha : (key, a) ∈ table) (hb : (key, b) ∈ table) : a = b := by
  have heq := List.inj_on_of_nodup_map h ha hb rfl
  exact congrArg Prod.snd heq

theorem mem_of_lookup_eq_some {table : List (κ × β)} {key : κ} {value : β}
    (h : table.lookup key = some value) : (key, value) ∈ table := by
  obtain ⟨front, rest, rfl, -⟩ := List.lookup_eq_some_iff.1 h
  simp

theorem isSome_lookup_iff {table : List (κ × β)} {key : κ} :
    (table.lookup key).isSome ↔ key ∈ table.map (·.1) := by
  rw [Option.isSome_iff_ne_none, ne_eq, List.lookup_eq_none_iff, List.mem_map]
  constructor
  · intro h
    by_contra hnone
    exact h fun entry hentry => bne_iff_ne.2 fun heq => hnone ⟨entry, hentry, heq.symm⟩
  · rintro ⟨entry, hentry, rfl⟩ h
    exact bne_iff_ne.1 (h entry hentry) rfl

theorem Distinct.lookup_eq_some_iff {table : List (κ × β)} (h : Distinct table) {key : κ}
    {value : β} : table.lookup key = some value ↔ (key, value) ∈ table := by
  refine ⟨mem_of_lookup_eq_some, fun hmem => ?_⟩
  have hsome := isSome_lookup_iff.2 (List.mem_map_of_mem (f := Prod.fst) hmem)
  obtain ⟨found, hfound⟩ := Option.isSome_iff_exists.1 hsome
  rw [hfound, h.eq_of_mem (mem_of_lookup_eq_some hfound) hmem]

theorem lookup_cons_self (table : List (κ × β)) (key : κ) (value : β) :
    ((key, value) :: table).lookup key = some value := by
  simp

theorem lookup_cons_ne (table : List (κ × β)) {key other : κ} (value : β) (hne : other ≠ key) :
    ((key, value) :: table).lookup other = table.lookup other := by
  rw [List.lookup_cons, beq_false_of_ne hne]

theorem lookup_filter_self (table : List (κ × β)) (key : κ) :
    (table.filter (·.1 ≠ key)).lookup key = none := by
  rw [List.lookup_eq_none_iff]
  intro entry hentry
  have hne : entry.1 ≠ key := by simpa using (List.mem_filter.1 hentry).2
  exact bne_iff_ne.2 hne.symm

theorem lookup_filter_ne (table : List (κ × β)) {key other : κ} (hne : other ≠ key) :
    (table.filter (·.1 ≠ key)).lookup other = table.lookup other := by
  induction table with
  | nil => rfl
  | cons entry table ih =>
    obtain ⟨first, value⟩ := entry
    by_cases hfirst : first = key
    · subst hfirst
      rw [List.filter_cons_of_neg (by simp), ih, lookup_cons_ne table value hne]
    · rw [List.filter_cons_of_pos (by simpa using hfirst), List.lookup_cons, List.lookup_cons, ih]

end CoopHttp.Table
