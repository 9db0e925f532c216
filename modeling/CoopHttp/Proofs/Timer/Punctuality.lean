import CoopHttp.Proofs.Except
import CoopHttp.Proofs.Timer.History
import CoopHttp.Proofs.Timer.Places

/-!
# Punctuality of timers

A key that is armed for a delay is due at one point of the grid, and fires in the first sweep that
reaches it. How far this point is from the deadline is a matter of the bucket: the floor division
costs one step of the grid, and so does a wheel that has been swept up to the present. A wheel that
lags behind may run out of buckets before the deadline, and then the key fires early. The main
statement says exactly when.
-/
namespace CoopHttp

variable {κ : Type}

namespace TimerRequest

/-- The time of a request; disarming a key has none. -/
def time? : TimerRequest κ → Option Int
  | .insertAt now _ _ => some now
  | .remove _ => none
  | .sweep now => some now

/-- From `start` on, no request is earlier than the one before it. -/
def Forward (start : Int) (requests : List (TimerRequest κ)) : Prop :=
  (start :: requests.filterMap time?).Pairwise (· ≤ ·)

instance (start : Int) (requests : List (TimerRequest κ)) : Decidable (Forward start requests) :=
  inferInstanceAs (Decidable (List.Pairwise _ _))

/-- The request neither disarms the key nor arms it again. -/
def Spares (key : κ) : TimerRequest κ → Prop
  | .insertAt _ _ other => other ≠ key
  | .remove other => other ≠ key
  | .sweep _ => True

/-- The request is a sweep that gets as far as the given time. -/
def Reaches (time : Int) : TimerRequest κ → Prop
  | .sweep now => time ≤ now
  | _ => False

/-- What comes before a request that has a time is no later than it. -/
theorem Forward.le_of_append {start now : Int} {before : List (TimerRequest κ)}
    {request : TimerRequest κ} (h : Forward start (before ++ [request]))
    (htime : request.time? = some now) :
    start ≤ now ∧ ∀ t ∈ before.filterMap time?, t ≤ now := by
  have htimes : (start :: before.filterMap time?) ++ [now] =
      start :: (before ++ [request]).filterMap time? := by
    rw [List.filterMap_append, List.filterMap_cons_some htime]
    rfl
  rw [Forward, ← htimes, List.pairwise_append] at h
  have hle : ∀ t ∈ start :: before.filterMap time?, t ≤ now :=
    fun t ht => h.2.2 t ht now (List.mem_singleton_self now)
  exact ⟨hle start List.mem_cons_self, fun t ht => hle t (List.mem_cons_of_mem _ ht)⟩

end TimerRequest

def TimerAnswer.keys : TimerAnswer κ → List κ
  | .fired keys => keys
  | _ => []

/-- A request leaves the grid of a map as it is, and only a sweep moves the epoch. -/
theorem TimerMap.grid_apply [DecidableEq κ] {m m' : TimerMap κ} {request : TimerRequest κ}
    {answer : TimerAnswer κ} (h : m.apply request = .ok (m', answer)) :
    m'.granularity = m.granularity ∧ m'.reach = m.reach ∧
      (m'.epoch = m.epoch ∨ ∃ now, request = .sweep now ∧ m'.epoch = m.epochAfter now) := by
  cases request with
  | insertAt now delay key =>
    obtain ⟨m₁, hinsert, heq⟩ := exists_of_map_eq_ok h
    rw [TimerMap.insertAt] at hinsert
    split_ifs at hinsert
    cases heq
    cases hinsert
    exact ⟨rfl, rfl, .inl rfl⟩
  | remove key =>
    cases h
    exact ⟨rfl, rfl, .inl rfl⟩
  | sweep now =>
    obtain ⟨⟨m₁, keys⟩, hsweep, heq⟩ := exists_of_map_eq_ok h
    rw [TimerMap.sweep] at hsweep
    split_ifs at hsweep
    cases heq
    cases hsweep
    exact ⟨rfl, rfl, .inr ⟨now, rfl, rfl⟩⟩

namespace TimerWheel

open TimerRequest

variable [DecidableEq κ] {w w' : TimerWheel κ}

/-- Carries out requests one after the other; the second component lists the keys fired. -/
def follow (w : TimerWheel κ) : List (TimerRequest κ) → Except Crash (TimerWheel κ × List κ)
  | [] => .ok (w, [])
  | request :: requests =>
    (w.apply request).bind fun (w, answer) =>
      (w.follow requests).map fun (w, later) => (w, answer.keys ++ later)

theorem exists_of_follow_cons {request : TimerRequest κ} {requests : List (TimerRequest κ)}
    {fired : List κ} (h : w.follow (request :: requests) = .ok (w', fired)) :
    ∃ w₁ answer later, w.apply request = .ok (w₁, answer) ∧
      w₁.follow requests = .ok (w', later) ∧ fired = answer.keys ++ later := by
  obtain ⟨⟨w₁, answer⟩, happly, hrest⟩ := exists_of_bind_eq_ok h
  obtain ⟨⟨w₂, later⟩, hfollow, heq⟩ := exists_of_map_eq_ok hrest
  obtain ⟨rfl, rfl⟩ := Prod.mk.inj heq
  exact ⟨w₁, answer, later, happly, hfollow, rfl⟩

theorem follow_concat {w'' : TimerWheel κ} {requests : List (TimerRequest κ)} {fired : List κ}
    {request : TimerRequest κ} {answer : TimerAnswer κ}
    (hfollow : w.follow requests = .ok (w', fired))
    (happly : w'.apply request = .ok (w'', answer)) :
    w.follow (requests ++ [request]) = .ok (w'', fired ++ answer.keys) := by
  induction requests generalizing w fired with
  | nil =>
    cases hfollow
    simp [follow, happly, Except.bind, Except.map]
  | cons first requests ih =>
    obtain ⟨w₁, answer₁, later, hfirst, hrest, rfl⟩ := exists_of_follow_cons hfollow
    simp only [List.cons_append, follow, hfirst, Except.bind, ih hrest, Except.map,
      List.append_assoc]

/-! What no request changes. -/

omit [DecidableEq κ] in
/-- A sound wheel of the given grid whose epoch is at most one step ahead of `latest`. -/
structure Fits (w : TimerWheel κ) (granularity reach : ℕ) (latest : Int) : Prop where
  sound : w.Sound
  granularity_eq : w.granularity = granularity
  size_eq : w.buckets.size = reach
  epoch_le : w.epoch ≤ latest + granularity

namespace Fits

variable {granularity reach : ℕ} {latest : Int}

omit [DecidableEq κ] in
theorem withEpoch {horizon : ℕ} {epoch : Int}
    (h : TimerWheel.withEpoch horizon granularity epoch = .ok w) (hle : epoch ≤ latest) :
    w.Fits granularity (horizon / granularity + 1) latest := by
  refine ⟨(sound_withEpoch h).1, ?_, ?_, ?_⟩ <;> rw [TimerWheel.withEpoch] at h <;>
    split_ifs at h <;> cases h
  · rfl
  · exact Array.size_replicate
  · show epoch ≤ latest + granularity
    omega

theorem apply (h : w.Fits granularity reach latest) {request : TimerRequest κ}
    {answer : TimerAnswer κ} (happly : w.apply request = .ok (w', answer))
    (htime : ∀ t ∈ request.time?, t ≤ latest) : w'.Fits granularity reach latest := by
  obtain ⟨m, hm⟩ := h.sound
  obtain ⟨w₁, m', answer', hw, hmap, hm'⟩ | ⟨cause, hw, -⟩ := hm.apply request
  case inr => cases hw.symm.trans happly
  cases hw.symm.trans happly
  obtain ⟨hgranularity, hreach, hepoch⟩ := TimerMap.grid_apply hmap
  refine ⟨⟨m', hm'⟩, ?_, ?_, ?_⟩
  · rw [hm'.granularity_eq, hgranularity, ← hm.granularity_eq, h.granularity_eq]
  · rw [hm'.size_eq, hreach, ← hm.size_eq, h.size_eq]
  · have hle : m.epoch ≤ latest + granularity := hm.epoch_eq ▸ h.epoch_le
    have hstep : m.granularity = granularity := hm.granularity_eq ▸ h.granularity_eq
    rw [hm'.epoch_eq]
    obtain hsame | ⟨now, rfl, hswept⟩ := hepoch
    · rw [hsame]
      exact hle
    · have hnow : now ≤ latest := htime now rfl
      obtain hdue | hlt := le_or_gt m.epoch now
      · have hafter := TimerMap.epochAfter_le hm.granularity_pos hdue
        omega
      · rw [hswept, TimerMap.epochAfter_of_lt hlt]
        exact hle

omit [DecidableEq κ] in
theorem mono (h : w.Fits granularity reach latest) {later : Int} (hle : latest ≤ later) :
    w.Fits granularity reach later :=
  ⟨h.sound, h.granularity_eq, h.size_eq, h.epoch_le.trans (by omega)⟩

theorem follow (h : w.Fits granularity reach latest) {requests : List (TimerRequest κ)}
    {fired : List κ} (hfollow : w.follow requests = .ok (w', fired))
    (htimes : ∀ t ∈ requests.filterMap time?, t ≤ latest) : w'.Fits granularity reach latest := by
  induction requests generalizing w fired with
  | nil =>
    cases hfollow
    exact h
  | cons request requests ih =>
    obtain ⟨w₁, answer, later, happly, hrest, -⟩ := exists_of_follow_cons hfollow
    refine ih (h.apply happly fun t ht => ?_) hrest fun t ht => ?_
    · exact htimes t (List.mem_filterMap.2 ⟨request, List.mem_cons_self, ht⟩)
    · obtain ⟨r, hr, hrt⟩ := List.mem_filterMap.1 ht
      exact htimes t (List.mem_filterMap.2 ⟨r, List.mem_cons_of_mem _ hr, hrt⟩)

end Fits

/-! How long a key keeps its place. -/

namespace Sound

variable {key : κ} {place : TimerPlace} {request : TimerRequest κ} {answer : TimerAnswer κ}

omit [DecidableEq κ] in
theorem place_eq (h : w.Sound) {other : TimerPlace} (hplace : w.Holds key place)
    (hother : w.Holds key other) : other = place := by
  obtain ⟨m, hm⟩ := h
  exact m.distinct_armed.eq_of_mem (hm.holds_iff.1 hother) (hm.holds_iff.1 hplace)

theorem apply (h : w.Sound) (happly : w.apply request = .ok (w', answer)) : w'.Sound := by
  obtain ⟨m, hm⟩ := h
  obtain ⟨w₁, m', answer', hw, -, hm'⟩ | ⟨cause, hw, -⟩ := hm.apply request
  · cases hw.symm.trans happly
    exact ⟨m', hm'⟩
  · cases hw.symm.trans happly

/-- A request that spares the key takes it from its place only by reaching it. -/
theorem holds_apply (h : w.Sound) (happly : w.apply request = .ok (w', answer))
    (hspares : request.Spares key) :
    w'.Holds key place ↔ w.Holds key place ∧ ¬ request.Reaches place.time := by
  cases request with
  | insertAt now delay other =>
    obtain ⟨w₁, hinsert, heq⟩ := exists_of_map_eq_ok happly
    cases heq
    rw [h.holds_insertAt hinsert, if_neg (Ne.symm hspares)]
    simp [Reaches]
  | remove other =>
    cases happly
    rw [h.holds_remove]
    simp [Reaches, Ne.symm hspares]
  | sweep now =>
    rw [TimerWheel.apply] at happly
    split at happly
    · cases happly
    · next hcrash =>
      cases happly
      rw [h.holds_sweep hcrash, Reaches, Int.not_le]

/-- A request fires a key, once, if and only if it reaches its place. -/
theorem mem_keys_apply (h : w.Sound) (happly : w.apply request = .ok (w', answer)) (key : κ) :
    answer.keys.Nodup ∧
      (key ∈ answer.keys ↔ ∃ place, w.Holds key place ∧ request.Reaches place.time) := by
  cases request with
  | insertAt now delay other =>
    obtain ⟨w₁, -, heq⟩ := exists_of_map_eq_ok happly
    cases heq
    simp [TimerAnswer.keys, Reaches]
  | remove other =>
    cases happly
    simp [TimerAnswer.keys, Reaches]
  | sweep now =>
    rw [TimerWheel.apply] at happly
    split at happly
    · cases happly
    · next hcrash =>
      cases happly
      obtain ⟨due, hmem, hnodup, -, ⟨-, hfired⟩ | ⟨hover, -⟩⟩ := h.exists_due now
      · rw [TimerAnswer.keys, hfired]
        simp only [hnodup, true_and, List.mem_map, Prod.exists, exists_and_right, exists_eq_right,
          hmem, Reaches]
      · cases hcrash.symm.trans hover

theorem follow (h : w.Sound) {requests : List (TimerRequest κ)} {fired : List κ}
    (hfollow : w.follow requests = .ok (w', fired)) : w'.Sound := by
  induction requests generalizing w fired with
  | nil =>
    cases hfollow
    exact h
  | cons request requests ih =>
    obtain ⟨w₁, answer, later, happly, hrest, -⟩ := exists_of_follow_cons hfollow
    exact ih (h.apply happly) hrest

/-- A key that is in no place does not fire until it is armed again. -/
theorem notMem_follow (h : w.Sound) (hfree : ∀ place, ¬ w.Holds key place)
    {requests : List (TimerRequest κ)} (hspares : ∀ r ∈ requests, r.Spares key) {fired : List κ}
    (hfollow : w.follow requests = .ok (w', fired)) :
    key ∉ fired ∧ ∀ place, ¬ w'.Holds key place := by
  induction requests generalizing w fired with
  | nil =>
    cases hfollow
    exact ⟨List.not_mem_nil, hfree⟩
  | cons request requests ih =>
    obtain ⟨w₁, answer, later, happly, hrest, rfl⟩ := exists_of_follow_cons hfollow
    obtain ⟨hspare, hspares⟩ := List.forall_mem_cons.1 hspares
    have hfree₁ : ∀ place, ¬ w₁.Holds key place :=
      fun place hplace => hfree place ((h.holds_apply happly hspare).1 hplace).1
    obtain ⟨hlater, hfree'⟩ := ih (h.apply happly) hfree₁ hspares hrest
    refine ⟨fun hmem => ?_, hfree'⟩
    obtain hnow | hmem := List.mem_append.1 hmem
    · obtain ⟨place, hplace, -⟩ := (h.mem_keys_apply happly key).2.1 hnow
      exact hfree place hplace
    · exact hlater hmem

/-- A key stays in its place until a request reaches it, and fires then, once. -/
theorem holds_follow (h : w.Sound) (hplace : w.Holds key place)
    {requests : List (TimerRequest κ)} (hspares : ∀ r ∈ requests, r.Spares key) {fired : List κ}
    (hfollow : w.follow requests = .ok (w', fired)) :
    (∀ r ∈ requests, ¬ r.Reaches place.time) ∧ key ∉ fired ∧ w'.Holds key place ∨
      (∃ r ∈ requests, r.Reaches place.time) ∧ fired.count key = 1 ∧
        ∀ other, ¬ w'.Holds key other := by
  induction requests generalizing w fired with
  | nil =>
    cases hfollow
    exact .inl ⟨by simp, List.not_mem_nil, hplace⟩
  | cons request requests ih =>
    obtain ⟨w₁, answer, later, happly, hrest, rfl⟩ := exists_of_follow_cons hfollow
    obtain ⟨hspare, hspares⟩ := List.forall_mem_cons.1 hspares
    obtain ⟨hnodup, hkeys⟩ := h.mem_keys_apply happly key
    by_cases hreaches : request.Reaches place.time
    -- The key fires now and is in no place afterwards, so nothing can fire it again.
    · have hfree : ∀ other, ¬ w₁.Holds key other := by
        intro other hother
        obtain ⟨hheld, hnot⟩ := (h.holds_apply happly hspare).1 hother
        exact hnot (h.place_eq hplace hheld ▸ hreaches)
      obtain ⟨hlater, hfree'⟩ := (h.apply happly).notMem_follow hfree hspares hrest
      refine .inr ⟨⟨request, List.mem_cons_self, hreaches⟩, ?_, hfree'⟩
      rw [List.count_append, List.count_eq_zero.2 hlater,
        List.count_eq_one_of_mem hnodup (hkeys.2 ⟨place, hplace, hreaches⟩)]
    · have hkey : key ∉ answer.keys := by
        rintro hmem
        obtain ⟨other, hother, hreached⟩ := hkeys.1 hmem
        exact hreaches (h.place_eq hplace hother ▸ hreached)
      have hplace₁ : w₁.Holds key place := (h.holds_apply happly hspare).2 ⟨hplace, hreaches⟩
      obtain ⟨hnone, hlater, hheld⟩ | ⟨⟨r, hr, hreached⟩, hcount, hfree⟩ :=
        ih (h.apply happly) hplace₁ hspares hrest
      · refine .inl ⟨List.forall_mem_cons.2 ⟨hreaches, hnone⟩, ?_, hheld⟩
        exact fun hmem => (List.mem_append.1 hmem).elim hkey hlater
      · refine .inr ⟨⟨r, List.mem_cons_of_mem _ hr, hreached⟩, ?_, hfree⟩
        rw [List.count_append, List.count_eq_zero.2 hkey, hcount]

end Sound

/-! Where an insertion comes to stand. -/

namespace Fits

variable {granularity reach : ℕ} {now : Int}

omit [DecidableEq κ]

theorem time_nextPlace (h : w.Fits granularity reach now) (delay : ℕ) :
    (w.nextPlace now delay).time = w.epoch +
      (min ((Instant.since now w.epoch + delay) / granularity) (reach - 1) * granularity : ℕ) := by
  rw [nextPlace, bucketOf, h.granularity_eq, h.size_eq]

theorem time_nextPlace_le (h : w.Fits granularity reach now) (delay : ℕ) :
    (w.nextPlace now delay).time ≤ now + delay + granularity := by
  have hepoch := h.epoch_le
  have hfloor : min ((Instant.since now w.epoch + delay) / granularity) (reach - 1) * granularity ≤
      Instant.since now w.epoch + delay :=
    (Nat.mul_le_mul_right _ (Nat.min_le_left _ _)).trans (Nat.div_mul_le_self _ _)
  rw [h.time_nextPlace]
  rw [Instant.since] at hfloor ⊢
  omega

/-- With enough buckets the key is due less than one step of the grid before the deadline. -/
theorem lt_time_nextPlace (h : w.Fits granularity reach now) {delay : ℕ}
    (hroom : Instant.since now w.epoch + delay < reach * granularity) :
    now + delay < (w.nextPlace now delay).time + granularity := by
  have hpos : 0 < granularity := h.granularity_eq ▸ w.granularity_pos
  have hbucket : (Instant.since now w.epoch + delay) / granularity ≤ reach - 1 := by
    have hlt := (Nat.div_lt_iff_lt_mul hpos).2 hroom
    omega
  have hfloor := Nat.lt_div_mul_add hpos (a := Instant.since now w.epoch + delay)
  rw [h.time_nextPlace, Nat.min_eq_left hbucket]
  rw [Instant.since] at hfloor ⊢
  omega

/-- Without enough buckets the key is due at least one step of the grid early. -/
theorem time_nextPlace_add_le (h : w.Fits granularity reach now) {delay : ℕ}
    (hfull : reach * granularity ≤ Instant.since now w.epoch + delay)
    (hdelay : delay < reach * granularity) :
    (w.nextPlace now delay).time + granularity ≤ now + delay := by
  have hpos : 0 < granularity := h.granularity_eq ▸ w.granularity_pos
  have hreach : 0 < reach := h.size_eq ▸ w.size_pos
  have hbucket : reach - 1 ≤ (Instant.since now w.epoch + delay) / granularity := by
    have hle := (Nat.le_div_iff_mul_le hpos).2 hfull
    omega
  have hlast : (reach - 1) * granularity + granularity = reach * granularity := by
    rw [← Nat.succ_mul, Nat.succ_eq_add_one, Nat.sub_add_cancel hreach]
  rw [h.time_nextPlace, Nat.min_eq_right hbucket]
  rw [Instant.since] at hfull
  omega

end Fits

/-! The deadline of a key, seen from outside. -/

/-- From `now` on, no sweep fires the key one step of the grid before `due`, or earlier still. -/
def NeverEarly (w : TimerWheel κ) (key : κ) (now due : Int) : Prop :=
  ∀ (after : List (TimerRequest κ)) (w' w'' : TimerWheel κ) (fired late : List κ) (t : Int),
    Forward now (after ++ [.sweep t]) → (∀ r ∈ after, r.Spares key) →
    w.follow after = .ok (w', fired) → w'.apply (.sweep t) = .ok (w'', .fired late) →
    t + w.granularity ≤ due → key ∉ late

/-- From `now` on, a sweep one step of the grid after `due`, or later still, fires the key, if no
sweep before it has, unless the clock ends there. -/
def NeverLate (w : TimerWheel κ) (key : κ) (now due : Int) : Prop :=
  ∀ (after : List (TimerRequest κ)) (w' : TimerWheel κ) (fired : List κ) (t : Int),
    Forward now (after ++ [.sweep t]) → (∀ r ∈ after, r.Spares key) →
    w.follow after = .ok (w', fired) → due + w.granularity ≤ t →
    (∃ w'' late, w'.apply (.sweep t) = .ok (w'', .fired late) ∧ (fired ++ late).count key = 1) ∨
      w'.apply (.sweep t) = .error .clockOverflow ∧ Instant.last < t + w.granularity

namespace Sound

variable {key : κ} {place : TimerPlace} {now due : Int}

/-- A sweep fails only where the clock ends. -/
theorem apply_sweep (h : w.Sound) (t : Int) :
    (∃ w' late, w.apply (.sweep t) = .ok (w', .fired late)) ∨
      w.apply (.sweep t) = .error .clockOverflow ∧ Instant.last < t + w.granularity := by
  obtain ⟨_, -, -, -, ⟨hcrash, -⟩ | ⟨hcrash, hlast⟩⟩ := h.exists_due t
  · exact .inl ⟨_, _, by rw [TimerWheel.apply, hcrash]⟩
  · exact .inr ⟨by rw [TimerWheel.apply, hcrash], hlast⟩

/-- A key is early if and only if there is time for a sweep between its place and one step of the
grid before the deadline. -/
theorem neverEarly_iff (h : w.Sound) (hplace : w.Holds key place) (hlast : due ≤ Instant.last) :
    w.NeverEarly key now due ↔
      due < place.time + w.granularity ∨ due < now + w.granularity := by
  constructor
  · intro hnever
    by_contra! hearly
    -- A sweep may come at any time that is not before `now`.
    obtain ⟨t, ht⟩ : ∃ t : Int, place.time ≤ t ∧ now ≤ t ∧ t + w.granularity ≤ due :=
      ⟨max place.time now, by omega⟩
    obtain ⟨w', late, happly⟩ | ⟨-, hover⟩ := h.apply_sweep t
    · have hfires : key ∈ late := (h.mem_keys_apply happly key).2.2 ⟨place, hplace, ht.1⟩
      refine hnever [] w w' [] late t ?_ (by simp) rfl happly ht.2.2 hfires
      simpa [Forward, time?] using ht.2.1
    · omega
  · intro hpunctual after w' w'' fired late t hforward hspares hfollow happly hle hfires
    obtain ⟨hnow, -⟩ := hforward.le_of_append rfl
    have hsound' : w'.Sound := h.follow hfollow
    obtain ⟨other, hother, hreached⟩ := (hsound'.mem_keys_apply happly key).2.1 hfires
    obtain ⟨-, -, hheld⟩ | ⟨-, -, hfree⟩ := h.holds_follow hplace hspares hfollow
    · rw [hsound'.place_eq hheld hother] at hreached
      change place.time ≤ t at hreached
      omega
    · exact hfree other hother

end Sound

namespace Fits

variable {granularity reach : ℕ} {key : κ} {now due : Int} {delay : ℕ}

/-- A key that is due at most one step of the grid late fires at most one step late. -/
theorem neverLate (h : w.Fits granularity reach now) {place : TimerPlace}
    (hplace : w.Holds key place) (hle : place.time ≤ due + granularity) :
    w.NeverLate key now due := by
  intro after w' fired t hforward hspares hfollow hlate
  obtain ⟨hnow, htimes⟩ := hforward.le_of_append rfl
  have hfits : w'.Fits granularity reach t := (h.mono hnow).follow hfollow htimes
  rw [h.granularity_eq] at hlate ⊢
  obtain ⟨w'', late, happly⟩ | ⟨hcrash, hover⟩ := hfits.sound.apply_sweep t
  · refine .inl ⟨w'', late, happly, ?_⟩
    have hspares' : ∀ r ∈ after ++ [.sweep t], r.Spares key := by
      simpa [or_imp, forall_and, Spares] using hspares
    obtain ⟨hnone, -⟩ | ⟨-, hcount, -⟩ :=
      h.sound.holds_follow hplace hspares' (follow_concat hfollow happly)
    · exact absurd (hle.trans hlate) (hnone (.sweep t) (by simp))
    · exact hcount
  · rw [hfits.granularity_eq] at hover
    exact .inr ⟨hcrash, hover⟩

theorem insertAt (h : w.Fits granularity reach now) (hinsert : w.insertAt now delay key = .ok w') :
    w'.Fits granularity reach now ∧ w'.Holds key (w.nextPlace now delay) := by
  have happly : w.apply (.insertAt now delay key) = .ok (w', .armed) := by
    rw [TimerWheel.apply, hinsert]
    rfl
  refine ⟨h.apply happly fun t ht => ?_, ?_⟩
  · exact (Option.mem_some.1 ht).ge
  · rw [h.sound.holds_insertAt hinsert, if_pos rfl]

theorem neverEarly_insertAt_iff (h : w.Fits granularity reach now)
    (hinsert : w.insertAt now delay key = .ok w') (hdelay : delay < reach * granularity)
    (hlast : now + delay ≤ Instant.last) :
    w'.NeverEarly key now (now + delay) ↔
      Instant.since now w.epoch + delay < reach * granularity ∨ delay < granularity := by
  obtain ⟨hfits, hplace⟩ := h.insertAt hinsert
  rw [hfits.sound.neverEarly_iff hplace hlast, hfits.granularity_eq]
  obtain hroom | hfull := Nat.lt_or_ge (Instant.since now w.epoch + delay) (reach * granularity)
  · have hlt := h.lt_time_nextPlace hroom
    exact ⟨fun _ => .inl hroom, fun _ => .inl hlt⟩
  · have hle := h.time_nextPlace_add_le hfull hdelay
    omega

end Fits

/-- Whatever a wheel is asked before and after, a key that is armed for a delay within the horizon
never fires more than one step of the grid late. It never fires that early if and only if the
buckets, counted from the epoch that the last sweep has left, go as far as the deadline; a delay
shorter than one step cannot be cut short by one. -/
theorem neverEarly_iff_and_neverLate {horizon granularity : ℕ} {epoch now : Int} {delay : ℕ}
    {key : κ} {w₀ w : TimerWheel κ} {before : List (TimerRequest κ)} {earlier : List κ}
    (hmade : withEpoch horizon granularity epoch = .ok w₀)
    (hbefore : w₀.follow before = .ok (w, earlier))
    (hforward : Forward epoch (before ++ [.insertAt now delay key])) (hdelay : delay ≤ horizon) :
    (w.insertAt now delay key = .error .durationOverflow ∧
        Duration.max < Instant.since now w.epoch + delay) ∨
      ∃ w', w.insertAt now delay key = .ok w' ∧ w'.granularity = granularity ∧
        w'.NeverLate key now (now + delay) ∧
        (now + delay ≤ Instant.last →
          (w'.NeverEarly key now (now + delay) ↔
            Instant.since now w.epoch + delay < (horizon / granularity + 1) * granularity ∨
              delay < granularity)) := by
  obtain ⟨hstart, htimes⟩ := hforward.le_of_append rfl
  have hfits : w.Fits granularity (horizon / granularity + 1) now :=
    (Fits.withEpoch hmade hstart).follow hbefore htimes
  have hpos : 0 < granularity := hfits.granularity_eq ▸ w.granularity_pos
  have hreach : delay < (horizon / granularity + 1) * granularity :=
    hdelay.trans_lt ((Nat.div_lt_iff_lt_mul hpos).1 (Nat.lt_succ_self _))
  obtain hmax | hover := le_or_gt (Instant.since now w.epoch + delay) Duration.max
  · have hinsert := w.insertAt_eq now delay key
    rw [if_pos hmax] at hinsert
    obtain ⟨hfits', hplace⟩ := hfits.insertAt hinsert
    exact .inr ⟨_, hinsert, hfits'.granularity_eq,
      hfits'.neverLate hplace (hfits.time_nextPlace_le delay),
      hfits.neverEarly_insertAt_iff hinsert hreach⟩
  · have hinsert := w.insertAt_eq now delay key
    rw [if_neg (Nat.not_le.2 hover)] at hinsert
    exact .inl ⟨hinsert, hover⟩

/-- A wheel that has not been swept for 40 ticks still has room for a delay of 60. -/
theorem exists_punctual_insertion :
    ∃ w₀ w w' : TimerWheel ℕ, withEpoch 100 10 0 = .ok w₀ ∧
      w₀.follow [.insertAt 3 20 2, .remove 2] = .ok (w, []) ∧
      Forward 0 ([.insertAt 3 20 2, .remove 2] ++ [.insertAt 40 60 1] : List (TimerRequest ℕ)) ∧
      60 ≤ 100 ∧ 40 + 60 ≤ Instant.last ∧ w.insertAt 40 60 1 = .ok w' ∧
      w'.NeverLate 1 40 (40 + 60) ∧ w'.NeverEarly 1 40 (40 + 60) := by
  obtain ⟨w₀, w, hmade, hbefore, hepoch⟩ : ∃ w₀ w : TimerWheel ℕ, withEpoch 100 10 0 = .ok w₀ ∧
      w₀.follow [.insertAt 3 20 2, .remove 2] = .ok (w, []) ∧ w.epoch = 0 :=
    ⟨_, _, rfl, rfl, rfl⟩
  have hforward : Forward 0
      ([.insertAt 3 20 2, .remove 2] ++ [.insertAt 40 60 1] : List (TimerRequest ℕ)) := by
    decide
  have hlast : 40 + 60 ≤ Instant.last := by decide
  obtain ⟨-, hover⟩ | ⟨w', hinsert, -, hlate, hearly⟩ :=
    neverEarly_iff_and_neverLate hmade hbefore hforward (by decide)
  · rw [hepoch] at hover
    exact absurd hover (by decide)
  · refine ⟨w₀, w, w', hmade, hbefore, hforward, by decide, hlast, hinsert, hlate, ?_⟩
    refine (hearly hlast).2 ?_
    rw [hepoch]
    decide

/-- A wheel that has not been swept for ten times its horizon fires a key a whole horizon early. -/
theorem exists_stalled_insertion :
    ∃ w w' : TimerWheel ℕ, withEpoch 100 10 0 = .ok w ∧ w.insertAt 1000 100 1 = .ok w' ∧
      ¬ w'.NeverEarly 1 1000 (1000 + 100) := by
  obtain ⟨w, w', hmade, hinsert, hepoch⟩ : ∃ w w' : TimerWheel ℕ, withEpoch 100 10 0 = .ok w ∧
      w.insertAt 1000 100 1 = .ok w' ∧ w.epoch = 0 := ⟨_, _, rfl, rfl, rfl⟩
  have hfits : w.Fits 10 11 1000 := Fits.withEpoch hmade (by decide)
  refine ⟨w, w', hmade, hinsert, ?_⟩
  refine mt (hfits.neverEarly_insertAt_iff hinsert (by decide) (by decide)).1 ?_
  rw [hepoch]
  decide

end TimerWheel

end CoopHttp
