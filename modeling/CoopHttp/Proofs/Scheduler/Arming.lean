import CoopHttp.Proofs.Scheduler.Resting
import CoopHttp.Proofs.Timer.Places

/-!
# Armed tasks

Which deadlines a scheduler holds, at any point of a run, also while a stretch is under way. A task
is armed on a wheel by nothing but a deadline that is set for it there. To clear the deadline, to set
another one, or to end the task takes the old one away for good.
-/
namespace CoopHttp.Scheduler

open Relation

variable {σ ν : Type} {b : Behaviour σ ν} {s s' : Scheduler σ ν} {timer : TimerId} {id : TaskId}
  {place : TimerPlace}

/-- The task is armed on a wheel, for the bucket of a place. -/
def Armed (s : Scheduler σ ν) (timer : TimerId) (id : TaskId) (place : TimerPlace) : Prop :=
  ∃ wheel, s.wheels[timer.index]? = some wheel ∧ wheel.Holds id place

/-- Every wheel stands for a map of deadlines. -/
def SoundWheels (s : Scheduler σ ν) : Prop := ∀ wheel ∈ s.wheels, wheel.Sound

theorem SoundWheels.sound (h : s.SoundWheels) {index : ℕ} {wheel : TimerWheel TaskId}
    (hwheel : s.wheels[index]? = some wheel) : wheel.Sound :=
  h wheel (List.mem_of_getElem? hwheel)

theorem SoundWheels.setWheel (h : s.SoundWheels) (index : ℕ) {wheel : TimerWheel TaskId}
    (hsound : wheel.Sound) :
    ({ s with wheels := s.wheels.set index wheel } : Scheduler σ ν).SoundWheels := by
  intro other hother
  obtain hmem | rfl := List.mem_or_eq_of_mem_set hother
  · exact h other hmem
  · exact hsound

theorem armed_setWheel {index : ℕ} {old wheel : TimerWheel TaskId}
    (hold : s.wheels[index]? = some old) :
    ({ s with wheels := s.wheels.set index wheel } : Scheduler σ ν).Armed timer id place ↔
      if timer.index = index then wheel.Holds id place else s.Armed timer id place := by
  rw [Armed]
  split_ifs with hindex
  · subst hindex
    rw [List.getElem?_set_self (List.getElem?_eq_some_iff.1 hold).1]
    simp
  · rw [List.getElem?_set_ne (Ne.symm hindex), Armed]

/-- A task that has ended is armed nowhere. -/
theorem Registered.not_armed (h : s.Registered) (hdead : ¬ s.tasks.contains id) :
    ¬ s.Armed timer id place := by
  rintro ⟨wheel, hwheel, hholds⟩
  refine hdead (h.live_of_armed wheel (List.mem_of_getElem? hwheel) id ?_)
  rw [TimerWheel.contains, Table.isSome_lookup_iff]
  exact List.mem_map_of_mem hholds.1

/-! Setting and clearing. -/

theorem SoundWheels.not_armed_clearTimer (h : s.SoundWheels) :
    ¬ (s.clearTimer timer id).1.Armed timer id place := by
  rintro ⟨wheel, hwheel, hholds⟩
  rw [clearTimer] at hwheel
  cases hold : s.wheels[timer.index]? with
  | none =>
    rw [hold] at hwheel
    cases hold.symm.trans hwheel
  | some old =>
    rw [hold] at hwheel
    dsimp only at hwheel
    rw [List.getElem?_set_self (List.getElem?_eq_some_iff.1 hold).1] at hwheel
    cases hwheel
    exact ((h.sound hold).holds_remove.1 hholds).1 rfl

theorem exists_of_setTimer_true {delay : ℕ} (h : s.setTimer timer id delay = .ok (s', true)) :
    ∃ wheel wheel', s.wheels[timer.index]? = some wheel ∧
      wheel.insertAt s.clock delay id = .ok wheel' ∧
      s' = { s with wheels := s.wheels.set timer.index wheel' } := by
  rw [setTimer] at h
  split at h
  · split at h
    · cases h
    · rename_i wheel hwheel
      obtain ⟨wheel', hinsert, hs⟩ := exists_of_map_eq_ok h
      cases hs
      exact ⟨wheel, wheel', hwheel, hinsert, rfl⟩
  · cases h

theorem eq_of_setTimer_false {delay : ℕ} (h : s.setTimer timer id delay = .ok (s', false)) :
    s' = s := by
  rw [setTimer] at h
  split at h
  · split at h
    · cases h
      rfl
    · obtain ⟨wheel', -, hs⟩ := exists_of_map_eq_ok h
      cases hs
  · cases h
    rfl

theorem SoundWheels.setTimer (h : s.SoundWheels) {delay : ℕ}
    (hset : s.setTimer timer id delay = .ok (s', true)) : s'.SoundWheels := by
  obtain ⟨wheel, wheel', hwheel, hinsert, rfl⟩ := exists_of_setTimer_true hset
  exact h.setWheel timer.index ((h.sound hwheel).insertAt hinsert)

/-- A deadline that has been set is the only one of its task on the wheel. -/
theorem SoundWheels.armed_setTimer (h : s.SoundWheels) {delay : ℕ}
    (hset : s.setTimer timer id delay = .ok (s', true)) :
    s'.Armed timer id place ↔
      ∃ wheel, s.wheels[timer.index]? = some wheel ∧ place = wheel.nextPlace s.clock delay := by
  obtain ⟨wheel, wheel', hwheel, hinsert, rfl⟩ := exists_of_setTimer_true hset
  rw [armed_setWheel hwheel, if_pos rfl, (h.sound hwheel).holds_insertAt hinsert, if_pos rfl, hwheel]
  simp

/-- All other deadlines stay as they are. -/
theorem SoundWheels.armed_setTimer_other (h : s.SoundWheels) {delay : ℕ}
    (hset : s.setTimer timer id delay = .ok (s', true)) {timer' : TimerId} {id' : TaskId}
    (hother : timer' ≠ timer ∨ id' ≠ id) :
    s'.Armed timer' id' place ↔ s.Armed timer' id' place := by
  obtain ⟨wheel, wheel', hwheel, hinsert, rfl⟩ := exists_of_setTimer_true hset
  rw [armed_setWheel hwheel]
  split_ifs with hindex
  · have hsame : timer' = timer := congrArg TimerId.mk hindex
    have hne : id' ≠ id := hother.resolve_left (not_not_intro hsame)
    rw [(h.sound hwheel).holds_insertAt hinsert, if_neg hne, Armed, hsame, hwheel]
    simp
  · rfl

/-! Everything else. -/

/-- The wheels are sound, and nothing is armed that was not. -/
structure Disarms (s s' : Scheduler σ ν) : Prop where
  sound : s'.SoundWheels
  armed_of_armed : ∀ timer id place, s'.Armed timer id place → s.Armed timer id place

namespace Disarms

theorem of_wheels (h : s.SoundWheels) (hwheels : s'.wheels = s.wheels) : Disarms s s' := by
  refine ⟨fun wheel hwheel => h wheel (hwheels ▸ hwheel), fun timer id place harmed => ?_⟩
  rwa [Armed, hwheels] at harmed

theorem setWheel (h : s.SoundWheels) {index : ℕ} {old wheel : TimerWheel TaskId}
    (hold : s.wheels[index]? = some old) (hsound : wheel.Sound)
    (hholds : ∀ key place, wheel.Holds key place → old.Holds key place) :
    Disarms s { s with wheels := s.wheels.set index wheel } := by
  refine ⟨h.setWheel index hsound, fun timer id place harmed => ?_⟩
  rw [armed_setWheel hold] at harmed
  split_ifs at harmed with hindex
  · exact ⟨old, hindex ▸ hold, hholds id place harmed⟩
  · exact harmed

theorem addWheel (h : s.SoundWheels) {wheel : TimerWheel TaskId} (hsound : wheel.Sound)
    (hempty : ∀ key place, ¬ wheel.Holds key place) :
    Disarms s { s with wheels := s.wheels ++ [wheel] } := by
  refine ⟨fun other hother => ?_, fun timer id place ⟨found, hfound, hholds⟩ => ?_⟩
  · obtain hmem | hmem := List.mem_append.1 hother
    · exact h other hmem
    · exact List.mem_singleton.1 hmem ▸ hsound
  · obtain hlt | hge := Nat.lt_or_ge timer.index s.wheels.length
    · exact ⟨found, (List.getElem?_append_left hlt).symm.trans hfound, hholds⟩
    · dsimp only at hfound
      rw [List.getElem?_append_right hge] at hfound
      have hmem := List.mem_singleton.1 (List.mem_of_getElem? hfound)
      exact absurd (hmem ▸ hholds) (hempty id place)

theorem removeAll (h : s.SoundWheels) (id : TaskId)
    (hwheels : s'.wheels = s.wheels.map fun wheel => (wheel.remove id).1) : Disarms s s' := by
  refine ⟨fun wheel hwheel => ?_, fun timer other place ⟨wheel, hwheel, hholds⟩ => ?_⟩
  · rw [hwheels] at hwheel
    obtain ⟨old, hold, rfl⟩ := List.mem_map.1 hwheel
    exact (h old hold).remove id
  · rw [hwheels, List.getElem?_map] at hwheel
    obtain ⟨old, hold, rfl⟩ := Option.map_eq_some_iff.1 hwheel
    exact ⟨old, hold, ((h.sound hold).holds_remove.1 hholds).2⟩

end Disarms

/-- To end a task disarms it everywhere. -/
theorem wheels_terminate_cases (b : Behaviour σ ν) (s : Scheduler σ ν) (id : TaskId) :
    (s.terminate b id).wheels = s.wheels ∨
      (s.terminate b id).wheels = s.wheels.map fun wheel => (wheel.remove id).1 := by
  rw [terminate]
  split
  · exact .inl rfl
  · refine .inr ?_
    dsimp only
    split_ifs <;> rfl

theorem Disarms.settle (h : s.SoundWheels) (b : Behaviour σ ν) (id : TaskId) :
    Disarms s (s.settle b id) := by
  have hterminate : ∀ t : Scheduler σ ν, t.wheels = s.wheels → Disarms s (t.terminate b id) := by
    intro t ht
    obtain hwheels | hwheels := wheels_terminate_cases b t id
    · exact .of_wheels h (hwheels.trans ht)
    · exact .removeAll h id (hwheels.trans (by rw [ht]))
  obtain ⟨-, heq⟩ | ⟨task, -, ⟨-, heq⟩ | ⟨-, heq⟩⟩ := settle_cases b s id
  · exact .of_wheels h (by rw [heq])
  · exact heq ▸ hterminate s rfl
  · obtain ⟨interest, heq' | ⟨applied, refusals, failure, heq' | heq'⟩⟩ :=
      reconcile_cases b s id task task.wanted
    · exact .of_wheels h (by rw [heq, heq']; rfl)
    · exact .of_wheels h (by rw [heq, heq']; rfl)
    · rw [heq, heq']
      exact hterminate _ rfl

/-- A change that does not set a deadline arms nobody. -/
theorem Change.disarms (h : s.SoundWheels) (hchange : Change b s s') :
    Disarms s s' ∨ ∃ timer id delay, s.setTimer timer id delay = .ok (s', true) := by
  cases hchange with
  | notes | poll => exact .inl (.of_wheels h rfl)
  | elapse heq =>
    obtain ⟨clock, rfl⟩ := elapse_eq heq
    exact .inl (.of_wheels h rfl)
  | addTimer heq =>
    obtain ⟨wheel, hwheel, rfl⟩ := addTimer_eq heq
    obtain ⟨hsound, hempty⟩ := TimerWheel.sound_withEpoch hwheel
    exact .inl (.addWheel h hsound hempty)
  | @setTimer _ was timer task delay heq =>
    cases was with
    | true => exact .inr ⟨timer, task, delay, heq⟩
    | false => exact .inl (.of_wheels h (by rw [eq_of_setTimer_false heq]))
  | clearTimer timer task =>
    obtain heq | ⟨wheel, hwheel, heq⟩ := clearTimer_cases s timer task
    · exact .inl (.of_wheels h (by rw [heq]))
    · have hsound := h.sound hwheel
      exact .inl (heq ▸ .setWheel h hwheel (hsound.remove task) fun key place hholds =>
        (hsound.holds_remove.1 hholds).2)
  | sweep hwheel hcrash =>
    have hsound := h.sound hwheel
    exact .inl (.setWheel h hwheel (hsound.sweep hcrash) fun key place hholds =>
      ((hsound.holds_sweep hcrash).1 hholds).1)
  | enrol fd interest start =>
    obtain ⟨-, heq⟩ | ⟨error, refusals, -, -, heq⟩ | ⟨tasks, id, refusals, -, -, -, heq⟩ :=
      enrol_cases s fd interest start
    all_goals
      rw [heq]
      exact .inl (.of_wheels h rfl)
  | settle id => exact .inl (.settle h b id)

theorem invariant_soundWheels (b : Behaviour σ ν) : Invariant b SoundWheels where
  fresh _ _ _ wheel hwheel := by cases hwheel
  change _ hchange h := by
    obtain hdisarms | ⟨timer, id, delay, hset⟩ := hchange.disarms h
    · exact hdisarms.sound
    · exact h.setTimer hset
  rouse _ _ _ h := h

/-! Points of a run. -/

inductive Move (b : Behaviour σ ν) : Scheduler σ ν → Scheduler σ ν → Prop
  | change {s s' : Scheduler σ ν} : Change b s s' → Move b s s'
  | rouse {s : Scheduler σ ν} {id : TaskId} {task task' : Task σ} {wake : Wake} :
    s.tasks.get? id = some task → Roused task wake task' → Move b s (s.rouse id wake task')

theorem Invariant.moves {P : Scheduler σ ν → Prop} (hP : Invariant b P) (h : s.Registered)
    (hs : P s) (hmoves : ReflTransGen (Move b) s s') : s'.Registered ∧ P s' := by
  induction hmoves with
  | refl => exact ⟨h, hs⟩
  | tail _ hmove ih =>
    cases hmove with
    | change hchange => exact ⟨hchange.registered ih.1, hP.change ih.1 hchange ih.2⟩
    | rouse hget hroused =>
      exact ⟨registered_rouse ih.1 hget _ hroused.fd_eq, hP.rouse ih.1 hget hroused ih.2⟩

/-- A move that sets no deadline for the task on the wheel. -/
def Leaves (b : Behaviour σ ν) (timer : TimerId) (id : TaskId) (s s' : Scheduler σ ν) : Prop :=
  Move b s s' ∧ ∀ delay, s.setTimer timer id delay ≠ .ok (s', true)

/-- Unless a deadline is set for it, a task does not come to be armed. -/
theorem SoundWheels.armed_of_leaves (h : s.SoundWheels) (hregistered : s.Registered)
    (hleaves : ReflTransGen (Leaves b timer id) s s') (harmed : s'.Armed timer id place) :
    s.Armed timer id place := by
  induction hleaves with
  | refl => exact harmed
  | @tail t s' hleaves hlast ih =>
    refine ih ?_
    have hmoves : ReflTransGen (Move b) s t := ReflTransGen.mono (fun _ _ => And.left) s t hleaves
    have ht := ((invariant_soundWheels b).moves hregistered h hmoves).2
    obtain ⟨hmove, hunset⟩ := hlast
    cases hmove with
    | rouse => exact harmed
    | change hchange =>
      obtain hdisarms | ⟨timer', id', delay, hset⟩ := hchange.disarms ht
      · exact hdisarms.armed_of_armed timer id place harmed
      · refine (ht.armed_setTimer_other hset ?_).1 harmed
        by_contra hsame
        rw [not_or, not_not, not_not] at hsame
        obtain ⟨rfl, rfl⟩ := hsame
        exact hunset delay hset

end CoopHttp.Scheduler
