import CoopHttp.Proofs.Timer.Refinement

/-!
# Histories of a timer wheel

A wheel is asked to arm, to disarm and to sweep. What can be told from outside is what each request
answers and how the wheel looks after it. The main statement is that no history tells a wheel from
the timer map of its size, which has neither buckets nor stale entries.
-/
namespace CoopHttp

inductive TimerRequest (κ : Type)
  | insertAt (now : Int) (delay : ℕ) (key : κ)
  | remove (key : κ)
  | sweep (now : Int)
  deriving DecidableEq

inductive TimerAnswer (κ : Type)
  | armed
  | removed (was : Bool)
  | fired (keys : List κ)
  deriving DecidableEq

structure TimerView (κ : Type) where
  epoch : Int
  size : ℕ
  isEmpty : Bool
  contains : κ → Bool

variable {κ : Type}

/-- The answers to the requests of a history, each with the view after it. -/
def replay {σ : Type} (apply : σ → TimerRequest κ → Except Crash (σ × TimerAnswer κ))
    (view : σ → TimerView κ) (s : σ) :
    List (TimerRequest κ) → Except Crash (List (TimerAnswer κ × TimerView κ))
  | [] => .ok []
  | request :: requests =>
    (apply s request).bind fun (s, answer) =>
      (replay apply view s requests).map ((answer, view s) :: ·)

variable [DecidableEq κ]

namespace TimerMap

def apply (m : TimerMap κ) : TimerRequest κ → Except Crash (TimerMap κ × TimerAnswer κ)
  | .insertAt now delay key => (m.insertAt now delay key).map (·, .armed)
  | .remove key => .ok ((m.remove key).1, .removed (m.remove key).2)
  | .sweep now => (m.sweep now).map fun (m, keys) => (m, .fired keys)

/-- How a map looks from outside. -/
def view (m : TimerMap κ) : TimerView κ := ⟨m.epoch, m.size, m.isEmpty, m.contains⟩

end TimerMap

namespace TimerWheel

def apply (w : TimerWheel κ) : TimerRequest κ → Except Crash (TimerWheel κ × TimerAnswer κ)
  | .insertAt now delay key => (w.insertAt now delay key).map (·, .armed)
  | .remove key => .ok ((w.remove key).1, .removed (w.remove key).2)
  | .sweep now =>
    match (w.sweep now).crash with
    | some cause => .error cause
    | none => .ok ((w.sweep now).wheel, .fired (w.sweep now).fired)

/-- How a wheel looks from outside. -/
def view (w : TimerWheel κ) : TimerView κ := ⟨w.epoch, w.size, w.isEmpty, w.contains⟩

namespace Represents

variable {w : TimerWheel κ} {m : TimerMap κ}

theorem view_eq (h : Represents w m) : w.view = m.view := by
  have hsize : w.size = m.size := by rw [size, h.armed_eq, List.length_map, TimerMap.size]
  have hempty : w.isEmpty = m.isEmpty := by
    rw [isEmpty, h.armed_eq, List.isEmpty_map, TimerMap.isEmpty]
  have hcontains : w.contains = m.contains := funext h.contains_eq
  rw [view, TimerMap.view, h.epoch_eq, hsize, hempty, hcontains]

/-- A request has the answer that the map gives; both crash, or neither. -/
theorem apply (h : Represents w m) (request : TimerRequest κ) :
    (∃ w' m' answer, w.apply request = .ok (w', answer) ∧ m.apply request = .ok (m', answer) ∧
        Represents w' m') ∨
      ∃ cause, w.apply request = .error cause ∧ m.apply request = .error cause := by
  cases request with
  | insertAt now delay key =>
    rw [TimerWheel.apply, TimerMap.apply]
    obtain ⟨w', m', hw, hm, h'⟩ | ⟨cause, hw, hm⟩ := h.insertAt now delay key
    · rw [hw, hm]
      exact .inl ⟨w', m', .armed, rfl, rfl, h'⟩
    · rw [hw, hm]
      exact .inr ⟨cause, rfl, rfl⟩
  | remove key =>
    refine .inl ⟨_, _, .removed (w.contains key), rfl, ?_, h.remove key⟩
    rw [h.contains_eq]
    rfl
  | sweep now =>
    rw [TimerWheel.apply, TimerMap.apply, sweep]
    obtain ⟨w', m', keys, hw, hm, h'⟩ | ⟨cause, hw, hm⟩ := h.sweepFrom now []
    · rw [hw, hm]
      exact .inl ⟨w', m', .fired keys, rfl, rfl, h'⟩
    · rw [hw, hm]
      exact .inr ⟨cause, rfl, rfl⟩

theorem replay_eq (h : Represents w m) (requests : List (TimerRequest κ)) :
    replay TimerWheel.apply TimerWheel.view w requests =
      replay TimerMap.apply TimerMap.view m requests := by
  induction requests generalizing w m with
  | nil => rfl
  | cons request requests ih =>
    rw [replay, replay]
    obtain ⟨w', m', answer, hw, hm, h'⟩ | ⟨cause, hw, hm⟩ := h.apply request
    · rw [hw, hm]
      simp only [Except.bind, h'.view_eq, ih h']
    · rw [hw, hm]
      rfl

end Represents

/-- No history of requests tells a wheel from a timer map: not by an answer, not by how it looks
after any of them, and not by a crash, which comes of nothing but a time out of range. -/
theorem replay_eq_replay_map {horizon granularity : ℕ} (epoch : Int) (hpos : 0 < granularity)
    (hfits : horizon / granularity < maxBuckets) :
    ∃ w : TimerWheel κ, withEpoch horizon granularity epoch = .ok w ∧
      ∀ requests : List (TimerRequest κ),
        replay TimerWheel.apply view w requests =
          replay TimerMap.apply TimerMap.view
            (.fresh epoch granularity (horizon / granularity + 1)) requests := by
  obtain ⟨w, hw, h⟩ := Represents.fresh (κ := κ) epoch hpos hfits
  exact ⟨w, hw, h.replay_eq⟩

/-- One key is armed three times, twice for one bucket, one is beyond the horizon and one is disarmed
again; the sweeps come late. -/
def rearmings : List (TimerRequest ℕ) :=
  [.insertAt 0 5 1, .insertAt 0 100 2, .insertAt 0 12 1, .insertAt (-7) 0 3, .insertAt 0 9 1,
    .insertAt 1 3 4, .remove 4, .sweep 5, .sweep 95, .insertAt 96 8 1, .sweep 99, .sweep 100]

theorem replay_rearmings :
    0 < 10 ∧ 20 / 10 < maxBuckets ∧
      ∃ w : TimerWheel ℕ, withEpoch 20 10 0 = .ok w ∧
        (replay TimerWheel.apply view w rearmings).map (·.map (·.1)) =
          .ok [.armed, .armed, .armed, .armed, .armed, .armed, .removed true, .fired [3, 1],
            .fired [2], .armed, .fired [], .fired [1]] := by
  obtain ⟨w, hw, hreplay⟩ : ∃ w : TimerWheel ℕ, withEpoch 20 10 0 = .ok w ∧
      ∀ requests, replay TimerWheel.apply view w requests =
        replay TimerMap.apply TimerMap.view (.fresh 0 10 3) requests :=
    replay_eq_replay_map 0 (by decide) (by decide)
  refine ⟨by decide, by decide, w, hw, ?_⟩
  rw [hreplay]
  decide +kernel

end TimerWheel

end CoopHttp
