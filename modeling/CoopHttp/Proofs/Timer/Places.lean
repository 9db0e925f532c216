import CoopHttp.Proofs.Timer.Refinement

/-!
# Where the keys of a timer wheel stand

A key is armed for the time of the bucket that its live entry stands in. What each operation does to
these places is read off the map that the wheel stands for.
-/
namespace CoopHttp.TimerWheel

variable {κ : Type}

/-- The key is armed, and its entry stands in the bucket of the place's time. -/
def Holds (w : TimerWheel κ) (key : κ) (place : TimerPlace) : Prop :=
  (key, place.number) ∈ w.armed ∧
    ∃ i < w.buckets.size, (key, place.number) ∈ w.ring i ∧
      place.time = w.epoch + (i * w.granularity : ℕ)

/-- The wheel stands for some map. -/
def Sound (w : TimerWheel κ) : Prop := ∃ m, Represents w m

/-- The place that the next insertion gives. -/
def nextPlace (w : TimerWheel κ) (now : Int) (delay : ℕ) : TimerPlace :=
  ⟨w.epoch + (w.bucketOf (Instant.since now w.epoch + delay) * w.granularity : ℕ), w.insertions⟩

namespace Represents

variable {w : TimerWheel κ} {m : TimerMap κ}

/-- What a wheel holds are the entries of its map. -/
theorem holds_iff (h : Represents w m) {key : κ} {place : TimerPlace} :
    w.Holds key place ↔ (key, place) ∈ m.armed := by
  constructor
  · rintro ⟨harmed, i, hi, hring, htime⟩
    rw [h.armed_eq] at harmed
    obtain ⟨e, he, heq⟩ := List.mem_map.1 harmed
    obtain ⟨rfl, hnumber⟩ := Prod.mk.inj heq
    rw [h.size_eq] at hi
    have htime' := h.time_eq e he i hi (heq ▸ hring)
    rw [← h.epoch_eq, ← h.granularity_eq, ← htime] at htime'
    have hplace : e.2 = place := congrArg₂ TimerPlace.mk htime' hnumber
    exact hplace ▸ he
  · intro he
    refine ⟨h.armed_eq ▸ List.mem_map.2 ⟨_, he, rfl⟩, ?_⟩
    obtain ⟨i, hi, hring⟩ := h.placed _ he
    refine ⟨i, h.size_eq ▸ hi, hring, ?_⟩
    rw [h.epoch_eq, h.granularity_eq]
    exact h.time_eq _ he i hi hring

theorem nextPlace_eq (h : Represents w m) (now : Int) (delay : ℕ) :
    w.nextPlace now delay = m.nextPlace now delay := by
  rw [nextPlace, TimerMap.nextPlace, h.elapsed_eq, h.bucketOf_eq, h.epoch_eq, h.granularity_eq,
    h.insertions_eq]

end Represents

variable {w w' : TimerWheel κ}

/-- A wheel that has just been made stands for the map without keys. -/
theorem sound_withEpoch {horizon granularity : ℕ} {epoch : Int}
    (h : withEpoch horizon granularity epoch = .ok w) :
    w.Sound ∧ ∀ key place, ¬ w.Holds key place := by
  have hfits : 0 < granularity ∧ horizon / granularity < maxBuckets := by
    rw [withEpoch] at h
    split_ifs at h with hzero hfits
    exact ⟨Nat.pos_of_ne_zero hzero, hfits⟩
  obtain ⟨w', hw', hfresh⟩ := Represents.fresh (κ := κ) epoch hfits.1 hfits.2
  cases hw'.symm.trans h
  exact ⟨⟨_, hfresh⟩, fun key place hholds => List.not_mem_nil (hfresh.holds_iff.1 hholds)⟩

namespace Sound

variable [DecidableEq κ]

theorem remove (h : w.Sound) (key : κ) : (w.remove key).1.Sound := by
  obtain ⟨m, hm⟩ := h
  exact ⟨_, hm.remove key⟩

theorem holds_remove (h : w.Sound) {key other : κ} {place : TimerPlace} :
    (w.remove key).1.Holds other place ↔ other ≠ key ∧ w.Holds other place := by
  obtain ⟨m, hm⟩ := h
  rw [(hm.remove key).holds_iff, hm.holds_iff, TimerMap.remove, List.mem_filter, decide_eq_true_eq,
    and_comm]

theorem insertAt (h : w.Sound) {now : Int} {delay : ℕ} {key : κ}
    (hinsert : w.insertAt now delay key = .ok w') : w'.Sound := by
  obtain ⟨m, hm⟩ := h
  obtain ⟨w₁, m', hw, -, hm'⟩ | ⟨cause, hw, -⟩ := hm.insertAt now delay key
  · cases hw.symm.trans hinsert
    exact ⟨m', hm'⟩
  · cases hw.symm.trans hinsert

/-- The key that is armed gets the next place, and all others keep theirs. -/
theorem holds_insertAt (h : w.Sound) {now : Int} {delay : ℕ} {key other : κ} {place : TimerPlace}
    (hinsert : w.insertAt now delay key = .ok w') :
    w'.Holds other place ↔
      if other = key then place = w.nextPlace now delay else w.Holds other place := by
  obtain ⟨m, hm⟩ := h
  obtain ⟨w₁, m', hw, hput, hm'⟩ | ⟨cause, hw, -⟩ := hm.insertAt now delay key
  · cases hw.symm.trans hinsert
    rw [TimerMap.insertAt] at hput
    split_ifs at hput
    cases hput
    rw [hm'.holds_iff, hm.holds_iff, hm.nextPlace_eq, TimerMap.put, List.mem_cons, List.mem_filter,
      decide_eq_true_eq, Prod.mk.injEq]
    split_ifs with hother
    · simp [hother]
    · simp [hother]
  · cases hw.symm.trans hinsert

theorem sweep (h : w.Sound) {now : Int} (hcrash : (w.sweep now).crash = none) :
    (w.sweep now).wheel.Sound := by
  obtain ⟨m, hm⟩ := h
  obtain ⟨w₁, m', keys, hw, -, hm'⟩ | ⟨cause, hw, -⟩ := hm.sweepFrom now []
  · rw [TimerWheel.sweep, hw]
    exact ⟨m', hm'⟩
  · cases hw.symm.trans hcrash

/-- A sweep takes out what it fires. -/
theorem holds_sweep (h : w.Sound) {now : Int} (hcrash : (w.sweep now).crash = none) {key : κ}
    {place : TimerPlace} :
    (w.sweep now).wheel.Holds key place ↔ w.Holds key place ∧ now < place.time := by
  obtain ⟨m, hm⟩ := h
  obtain ⟨w₁, m', keys, hw, hadvance, hm'⟩ | ⟨cause, hw, -⟩ := hm.sweepFrom now []
  · rw [TimerMap.sweep] at hadvance
    split_ifs at hadvance
    cases hadvance
    rw [TimerWheel.sweep, hw, hm'.holds_iff, hm.holds_iff, TimerMap.advance, List.mem_filter,
      decide_eq_true_eq]
  · cases hw.symm.trans hcrash

/-- A sweep fires the keys that are due, in the order of their places, unless the clock ends within
one step of the grid. -/
theorem exists_due (h : w.Sound) (now : Int) :
    ∃ due : List (κ × TimerPlace),
      (∀ key place, (key, place) ∈ due ↔ w.Holds key place ∧ place.time ≤ now) ∧
      (due.map (·.1)).Nodup ∧ due.Pairwise (·.2 ≤ ·.2) ∧
      ((w.sweep now).crash = none ∧ (w.sweep now).fired = due.map (·.1) ∨
        (w.sweep now).crash = some .clockOverflow ∧ Instant.last < now + w.granularity) := by
  obtain ⟨m, hm⟩ := h
  refine ⟨m.due now, fun key place => ?_, ?_, m.pairwise_due now, ?_⟩
  · rw [TimerMap.mem_due_iff, hm.holds_iff]
  · have hperm : (m.due now).Perm (m.armed.filter (·.2.time ≤ now)) := List.perm_insertionSort _ _
    exact (hperm.map Prod.fst).nodup_iff.2 (m.distinct_armed.filter _)
  · rw [TimerWheel.sweep]
    obtain ⟨w₁, m', keys, hw, hmap, -⟩ | ⟨cause, hw, hmap⟩ := hm.sweepFrom now []
    · rw [TimerMap.sweep] at hmap
      split_ifs at hmap
      cases hmap
      exact .inl (by rw [hw]; exact ⟨rfl, rfl⟩)
    · rw [TimerMap.sweep] at hmap
      split_ifs at hmap with hlast
      cases hmap
      refine .inr ⟨hw, lt_of_lt_of_le hlast.2 ?_⟩
      rw [hm.granularity_eq]
      exact TimerMap.epochAfter_le hm.granularity_pos hlast.1

end Sound

end CoopHttp.TimerWheel
