import Mathlib.Tactic.Common

/-!
# Computations that may fail

What a computation that has succeeded went through.
-/
namespace CoopHttp

variable {ε α β γ : Type}

theorem exists_of_bind_eq_ok {x : Except ε α} {f : α → Except ε β} {b : β} (h : x.bind f = .ok b) :
    ∃ a, x = .ok a ∧ f a = .ok b := by
  cases x with
  | error e => cases h
  | ok a => exact ⟨a, rfl, h⟩

theorem exists_of_map_eq_ok {x : Except ε α} {f : α → β} {b : β} (h : x.map f = .ok b) :
    ∃ a, x = .ok a ∧ f a = b := by
  cases x with
  | error e => cases h
  | ok a => exact ⟨a, rfl, Except.ok.inj h⟩

theorem map_eq_error_iff {x : Except ε α} {f : α → β} {e : ε} :
    x.map f = .error e ↔ x = .error e := by
  cases x <;> simp [Except.map]

theorem bind_eq_error {x : Except ε α} {f : α → Except ε β} {e : ε} (h : x.bind f = .error e) :
    x = .error e ∨ ∃ a, x = .ok a ∧ f a = .error e := by
  cases x with
  | error e' =>
    cases h
    exact .inl rfl
  | ok a => exact .inr ⟨a, rfl, h⟩

/-- An error of a whole run is an error of one of its steps. -/
theorem foldlM_eq_error {P : ε → Prop} {f : α → β → Except ε α}
    (hstep : ∀ a b e, f a b = .error e → P e) {l : List β} {a : α} {e : ε}
    (h : l.foldlM f a = .error e) : P e := by
  induction l generalizing a with
  | nil => cases h
  | cons b l ih =>
    rw [List.foldlM_cons] at h
    obtain hfirst | ⟨a', -, hrest⟩ := bind_eq_error h
    · exact hstep a b e hfirst
    · exact ih hrest

/-- An invariant of what is still to be done and what has come of the rest. -/
theorem foldlM_invariant {P : List β → α → Prop} {f : α → β → Except ε α}
    (hstep : ∀ {a a' : α} {b : β} {rest : List β}, P (b :: rest) a → f a b = .ok a' → P rest a')
    {l : List β} {a a' : α} (ha : P l a) (h : l.foldlM f a = .ok a') : P [] a' := by
  induction l generalizing a with
  | nil =>
    cases h
    exact ha
  | cons b l ih =>
    rw [List.foldlM_cons] at h
    obtain ⟨a₁, hfirst, hrest⟩ := exists_of_bind_eq_ok h
    exact ih (hstep ha hfirst) hrest

/-- An invariant under which no step fails, of what is still to be done and what has come of the
rest: a run of some steps succeeds, whatever is to be done behind it. -/
theorem exists_foldlM_eq_ok {P : List β → α → Prop} {f : α → β → Except ε α}
    (hstep : ∀ {a : α} {b : β} {rest : List β}, P (b :: rest) a → ∃ a', f a b = .ok a' ∧ P rest a')
    {l rest : List β} {a : α} (ha : P (l ++ rest) a) : ∃ a', l.foldlM f a = .ok a' ∧ P rest a' := by
  induction l generalizing a with
  | nil => exact ⟨a, rfl, ha⟩
  | cons b l ih =>
    obtain ⟨a₁, hfirst, hlater⟩ := hstep ha
    rw [List.foldlM_cons, hfirst]
    exact ih hlater

end CoopHttp
