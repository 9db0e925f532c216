import CoopHttp.Proofs.Scheduler.Registration

/-!
# What an operation leaves alone

An operation on one task changes nothing about the others: neither the tasks themselves nor the
insertions under which they are armed. Beside it stands what the operation does to the task itself.
-/
namespace CoopHttp.Scheduler

variable {σ ν : Type}

/-- The number of the insertion under which a task is armed on a wheel. -/
def insertion? (s : Scheduler σ ν) (index : ℕ) (id : TaskId) : Option ℕ :=
  s.wheels[index]?.bind (·.insertion? id)

/-- No wheel is added, and of the tasks only `id` changes, if any. -/
structure Frames (id : TaskId) (s s' : Scheduler σ ν) : Prop where
  length_wheels : s'.wheels.length = s.wheels.length
  get?_eq : ∀ other, other ≠ id → s'.tasks.get? other = s.tasks.get? other
  insertion?_eq : ∀ other, other ≠ id → ∀ i, s'.insertion? i other = s.insertion? i other

namespace Frames

variable {id : TaskId} {s s' s'' : Scheduler σ ν}

theorem of_eq (htasks : s'.tasks = s.tasks) (hwheels : s'.wheels = s.wheels) : Frames id s s' where
  length_wheels := by rw [hwheels]
  get?_eq _ _ := by rw [htasks]
  insertion?_eq _ _ _ := by rw [Scheduler.insertion?, hwheels, Scheduler.insertion?]

theorem trans (h : Frames id s s') (h' : Frames id s' s'') : Frames id s s'' where
  length_wheels := h'.length_wheels.trans h.length_wheels
  get?_eq other hne := (h'.get?_eq other hne).trans (h.get?_eq other hne)
  insertion?_eq other hne i := (h'.insertion?_eq other hne i).trans (h.insertion?_eq other hne i)

end Frames

variable {s s' : Scheduler σ ν}

/-! Timers. -/

theorem insertion?_eq_of_wheels (hwheels : s'.wheels = s.wheels) (i : ℕ) (id : TaskId) :
    s'.insertion? i id = s.insertion? i id := by
  rw [insertion?, hwheels, insertion?]

theorem insertion?_setWheel {index : ℕ} {old wheel : TimerWheel TaskId}
    (hold : s.wheels[index]? = some old) (i : ℕ) (id : TaskId) :
    ({ s with wheels := s.wheels.set index wheel } : Scheduler σ ν).insertion? i id =
      if i = index then wheel.insertion? id else s.insertion? i id := by
  rw [insertion?]
  split_ifs with hi
  · subst hi
    rw [List.getElem?_set_self (List.getElem?_eq_some_iff.1 hold).1]
    rfl
  · rw [List.getElem?_set_ne (Ne.symm hi), insertion?]

theorem insertion?_of_getElem? {index : ℕ} {wheel : TimerWheel TaskId}
    (h : s.wheels[index]? = some wheel) (id : TaskId) :
    s.insertion? index id = wheel.insertion? id := by
  rw [insertion?, h]
  rfl

/-- A sweep disarms those that it fires. -/
theorem insertion?_sweep {index : ℕ} {wheel : TimerWheel TaskId}
    (hwheel : s.wheels[index]? = some wheel) (now : Int) (i : ℕ) (id : TaskId) :
    ({ s with wheels := s.wheels.set index (wheel.sweep now).wheel } :
      Scheduler σ ν).insertion? i id =
      if i = index ∧ id ∈ (wheel.sweep now).fired then none else s.insertion? i id := by
  rw [insertion?_setWheel hwheel]
  by_cases hi : i = index
  · rw [if_pos hi, hi, insertion?_of_getElem? hwheel]
    refine ((wheel.fires_sweep now).lookup_eq id).trans (if_congr ?_ rfl rfl)
    exact (and_iff_right rfl).symm
  · rw [if_neg hi, if_neg fun h => hi h.1]

/-- A wheel that is added has nobody armed. -/
theorem insertion?_addTimer {horizon granularity : ℕ} {timer : TimerId}
    (h : s.addTimer horizon granularity = .ok (s', timer)) (i : ℕ) (id : TaskId) :
    s'.insertion? i id = s.insertion? i id := by
  obtain ⟨wheel, hwheel, rfl⟩ := addTimer_eq h
  rw [insertion?, insertion?]
  obtain hlt | rfl | hgt := Nat.lt_trichotomy i s.wheels.length
  · rw [List.getElem?_append_left hlt]
  · rw [List.getElem?_concat_length, List.getElem?_eq_none (Nat.le_refl _)]
    exact TimerWheel.insertion?_withEpoch hwheel id
  · have hlen : (s.wheels ++ [wheel]).length ≤ i := by
      rw [List.length_append]
      exact hgt
    rw [List.getElem?_eq_none hlen, List.getElem?_eq_none (Nat.le_of_lt hgt)]

theorem tasks_clearTimer (s : Scheduler σ ν) (timer : TimerId) (task : TaskId) :
    (s.clearTimer timer task).1.tasks = s.tasks := by
  obtain heq | ⟨wheel, -, heq⟩ := clearTimer_cases s timer task <;> rw [heq]

theorem insertion?_clearTimer (s : Scheduler σ ν) (timer : TimerId) (task : TaskId) (i : ℕ)
    (id : TaskId) : (s.clearTimer timer task).1.insertion? i id =
      if i = timer.index ∧ id = task then none else s.insertion? i id := by
  cases hwheel : s.wheels[timer.index]? with
  | none =>
    have hsame : (s.clearTimer timer task).1 = s := by rw [clearTimer, hwheel]
    rw [hsame]
    split_ifs with h
    · rw [insertion?, h.1, hwheel, Option.bind_none]
    · rfl
  | some wheel =>
    have hset : (s.clearTimer timer task).1 =
        { s with wheels := s.wheels.set timer.index (wheel.remove task).1 } := by
      rw [clearTimer, hwheel]
    rw [hset, insertion?_setWheel hwheel]
    by_cases hi : i = timer.index
    · rw [if_pos hi, hi, TimerWheel.insertion?_remove, insertion?_of_getElem? hwheel]
      exact if_congr (by simp) rfl rfl
    · rw [if_neg hi, if_neg fun h => hi h.1]

theorem frames_clearTimer (s : Scheduler σ ν) (timer : TimerId) (task : TaskId) :
    Frames task s (s.clearTimer timer task).1 where
  length_wheels := by
    obtain heq | ⟨wheel, -, heq⟩ := clearTimer_cases s timer task
    · rw [heq]
    · rw [heq]
      exact List.length_set
  get?_eq _ _ := by rw [tasks_clearTimer]
  insertion?_eq other hne i := by
    rw [insertion?_clearTimer, if_neg fun h => hne h.2]

theorem tasks_setTimer {timer : TimerId} {task : TaskId} {delay : ℕ} {was : Bool}
    (h : s.setTimer timer task delay = .ok (s', was)) : s'.tasks = s.tasks := by
  obtain rfl | ⟨wheel, wheel', -, -, -, rfl⟩ := setTimer_cases h <;> rfl

/-- A live task is armed by a new insertion, and nobody else is touched. -/
theorem insertion?_setTimer {timer : TimerId} {task : TaskId} {delay : ℕ} {was : Bool}
    (h : s.setTimer timer task delay = .ok (s', was)) (hlive : s.tasks.contains task)
    (htimer : timer.index < s.wheels.length) :
    ∃ n, ∀ i id, s'.insertion? i id =
      if i = timer.index ∧ id = task then some n else s.insertion? i id := by
  have hwheel : s.wheels[timer.index]? = some s.wheels[timer.index] :=
    List.getElem?_eq_getElem htimer
  rw [setTimer, if_pos hlive, hwheel] at h
  obtain ⟨wheel', hinsert, hs⟩ := exists_of_map_eq_ok h
  cases hs
  refine ⟨s.wheels[timer.index].insertions, fun i id => ?_⟩
  rw [insertion?_setWheel hwheel]
  by_cases hi : i = timer.index
  · rw [if_pos hi, hi, TimerWheel.insertion?_insertAt hinsert, insertion?_of_getElem? hwheel]
    exact if_congr (by simp) rfl rfl
  · rw [if_neg hi, if_neg fun h => hi h.1]

theorem frames_setTimer {timer : TimerId} {task : TaskId} {delay : ℕ} {was : Bool}
    (h : s.setTimer timer task delay = .ok (s', was)) : Frames task s s' := by
  obtain rfl | ⟨wheel, wheel', -, hwheel, hinsert, rfl⟩ := setTimer_cases h
  · exact .of_eq rfl rfl
  · refine ⟨List.length_set, fun _ _ => rfl, fun other hne i => ?_⟩
    rw [insertion?_setWheel hwheel]
    split_ifs with hi
    · rw [hi, TimerWheel.insertion?_insertAt hinsert, if_neg hne, insertion?_of_getElem? hwheel]
    · rfl

/-! Tasks. -/

theorem frames_modifyTask (s : Scheduler σ ν) (id : TaskId) (f : Task σ → Task σ) :
    Frames id s (s.modifyTask id f) where
  length_wheels := rfl
  get?_eq other hne := by
    rw [modifyTask, Arena.get?_modify, if_neg hne]
  insertion?_eq _ _ _ := rfl

/-- A task that is made was not there before, and starts unarmed. -/
theorem enrol_spec (h : s.Registered) {fd : Int} {interest : Ready} {start : TaskId → Run σ ν}
    {id : TaskId} (henrol : s.enrol fd interest start = (s', .ok id)) :
    s.tasks.get? id = none ∧ Frames id s s' ∧ s'.wheels = s.wheels ∧
      s'.tasks.get? id = some (.first fd (interest ||| Ready.errors) (start id)) := by
  obtain ⟨-, heq⟩ | ⟨error, refusals, -, -, heq⟩ | ⟨tasks, made, refusals, -, -, hinsert, heq⟩ :=
    enrol_cases s fd interest start
  · cases heq.symm.trans henrol
  · cases heq.symm.trans henrol
  · cases heq.symm.trans henrol
    have hget := h.tidy.get?_insertWith fun id =>
      Task.first fd (interest ||| Ready.errors) (start id)
    have hnone := h.tidy.get?_insertWith_snd fun id =>
      Task.first fd (interest ||| Ready.errors) (start id)
    simp only [hinsert] at hget hnone
    refine ⟨hnone, ⟨rfl, fun other hne => ?_, fun _ _ _ => rfl⟩, rfl, ?_⟩
    · exact (hget other).trans (if_neg hne)
    · exact (hget id).trans (if_pos rfl)

/-- The notes and the time of a stretch are neither tasks nor wheels. -/
theorem perform_eq {run : Run σ ν} (h : perform run s = .ok s') :
    s'.tasks = s.tasks ∧ s'.wheels = s.wheels := by
  induction run generalizing s with
  | stop outcome =>
    cases h
    exact ⟨rfl, rfl⟩
  | crash cause => cases h
  | note entry next ih => exact ih (s := s.record (.note entry)) h
  | elapse span next ih =>
    obtain ⟨later, helapse, hnext⟩ := exists_of_bind_eq_ok h
    obtain ⟨clock, rfl⟩ := elapse_eq helapse
    exact ih (s := { s with clock }) hnext
  | setTimer timer delay next ih => exact ih h
  | clearTimer timer next ih => exact ih h
  | spawn fd interest refused start next _ ih => exact ih h

theorem insertion?_removeAll (s : Scheduler σ ν) (id other : TaskId) (i : ℕ) :
    ({ s with wheels := s.wheels.map fun wheel => (wheel.remove id).1 } :
      Scheduler σ ν).insertion? i other =
      if other = id then none else s.insertion? i other := by
  rw [insertion?, insertion?, List.getElem?_map]
  cases s.wheels[i]? with
  | none => simp
  | some wheel => exact wheel.insertion?_remove id other

theorem get?_terminate (h : s.Registered) (b : Behaviour σ ν) (id : TaskId) :
    (s.terminate b id).tasks.get? id = none := by
  obtain ⟨hget, heq⟩ | ⟨task, refusals, failure, -, heq⟩ :=
    terminate_cases b s (h.owner?_of_get? id)
  · rw [heq, hget]
  · rw [heq]
    show (s.tasks.remove id).1.get? id = none
    rw [Arena.get?_remove, if_pos rfl]

theorem frames_terminate (h : s.Registered) (b : Behaviour σ ν) (id : TaskId) :
    Frames id s (s.terminate b id) := by
  obtain ⟨-, heq⟩ | ⟨task, refusals, failure, -, heq⟩ :=
    terminate_cases b s (h.owner?_of_get? id)
  · rw [heq]
    exact .of_eq rfl rfl
  · rw [heq]
    refine ⟨List.length_map _, fun other hne => ?_, fun other hne i => ?_⟩
    · show (s.tasks.remove id).1.get? other = s.tasks.get? other
      rw [Arena.get?_remove, if_neg hne]
    · refine (insertion?_removeAll s id other i).trans ?_
      rw [if_neg hne]

theorem frames_told (s : Scheduler σ ν) (id : TaskId) (task : Task σ) (interest : Interest)
    (refusals : List Poller.Refusal) (applied : Ready) (failure : Option IoError) :
    Frames id s ({ s.modifyTask id fun task => { task with interest } with
      refusals }.record (.modified task.fd applied failure)) :=
  (frames_modifyTask s id fun task => { task with interest }).trans (.of_eq rfl rfl)

/-- What the end of a stretch comes to for its task: the task is gone, or it is suspended and is
armed as it was. -/
theorem settle_spec (h : s.Registered) (b : Behaviour σ ν) {id : TaskId} {task : Task σ}
    (hget : s.tasks.get? id = some task) :
    Frames id s (s.settle b id) ∧ ∀ task', (s.settle b id).tasks.get? id = some task' →
      task'.outcome = task.outcome ∧ task.outcome.suspended?.isSome ∧
        ∀ i, (s.settle b id).insertion? i id = s.insertion? i id := by
  obtain ⟨hnone, -⟩ | ⟨found, hfound, hcases⟩ := settle_cases b s id
  · rw [hget] at hnone
    cases hnone
  · cases hget.symm.trans hfound
    obtain ⟨-, heq⟩ | ⟨hsuspended, heq⟩ := hcases
    · rw [heq]
      refine ⟨frames_terminate h b id, fun task' htask' => ?_⟩
      rw [get?_terminate h] at htask'
      cases htask'
    · obtain ⟨interest, heq' | ⟨applied, refusals, failure, heq' | heq'⟩⟩ :=
        reconcile_cases b s id task task.wanted
      · rw [heq, heq']
        refine ⟨frames_modifyTask s id _, fun task' htask' => ?_⟩
        rw [modifyTask, Arena.get?_modify, if_pos rfl, hget] at htask'
        cases htask'
        exact ⟨rfl, hsuspended, fun _ => rfl⟩
      · rw [heq, heq']
        refine ⟨frames_told s id task interest refusals applied failure, fun task' htask' => ?_⟩
        change (s.modifyTask id _).tasks.get? id = some task' at htask'
        rw [modifyTask, Arena.get?_modify, if_pos rfl, hget] at htask'
        cases htask'
        exact ⟨rfl, hsuspended, fun _ => rfl⟩
      · have htold := h.told hget interest refusals applied failure
        rw [heq, heq']
        refine ⟨(frames_told s id task interest refusals applied failure).trans
          (frames_terminate htold b id), fun task' htask' => ?_⟩
        rw [get?_terminate htold] at htask'
        cases htask'

end CoopHttp.Scheduler
