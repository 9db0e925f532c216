import CoopHttp.Proofs.Except
import CoopHttp.Scheduler.Turn

/-!
# What the operations of a scheduler come to

One statement for each operation that ends or starts a task, or speaks with the poller, says all
that it can do to the scheduler. What is kept along a run is proved from these.
-/
namespace CoopHttp

def Task.first {σ ν : Type} (fd : Int) (base : Ready) (run : Run σ ν) : Task σ :=
  ⟨fd, base, .ofApplied base, .empty, .empty, run.outcome, run.outcome.lastStep.standing none⟩

namespace Scheduler

variable {σ ν : Type}

theorem recordNotes_cons (s : Scheduler σ ν) (entry : ν) (entries : List ν) :
    s.recordNotes (entry :: entries) = (s.record (.note entry)).recordNotes entries := by
  simp [recordNotes, record]

/-- The descriptor has an owner, or the poller refuses it, or the task is made. -/
theorem enrol_cases (s : Scheduler σ ν) (fd : Int) (interest : Ready) (start : TaskId → Run σ ν) :
    ((s.owner? fd).isSome ∧ s.enrol fd interest start = (s, .error (.descriptorTaken fd))) ∨
    (∃ error refusals, s.owner? fd = none ∧
      Poller.answer .add fd s.refusals = (refusals, some error) ∧
      s.enrol fd interest start =
        ({ s with refusals }.record (.added fd (interest ||| Ready.errors) (some error)),
          .error error)) ∨
    ∃ tasks id refusals, s.owner? fd = none ∧
      Poller.answer .add fd s.refusals = (refusals, none) ∧
      s.tasks.insertWith (fun id => .first fd (interest ||| Ready.errors) (start id)) = (tasks, id) ∧
      s.enrol fd interest start =
        ({ s with
            refusals, tasks
            owners := (fd, id) :: s.owners
            history :=
              .woken id (.io .empty) :: .added fd (interest ||| Ready.errors) none :: s.history },
          .ok id) := by
  cases howner : s.owner? fd with
  | some id =>
    refine .inl ⟨rfl, ?_⟩
    simp only [enrol, howner]
  | none =>
    cases hanswer : Poller.answer .add fd s.refusals with
    | mk refusals failure =>
      cases failure with
      | some error =>
        refine .inr (.inl ⟨error, refusals, rfl, rfl, ?_⟩)
        simp only [enrol, howner, callPoller, hanswer]
      | none =>
        refine .inr (.inr ⟨_, _, refusals, rfl, rfl, rfl, ?_⟩)
        simp only [enrol, howner, callPoller, hanswer]
        rfl

/-- Ending a task that owns its descriptor. -/
theorem terminate_cases (b : Behaviour σ ν) (s : Scheduler σ ν) {id : TaskId}
    (howns : ∀ task, s.tasks.get? id = some task → s.owner? task.fd = some id) :
    (s.tasks.get? id = none ∧ s.terminate b id = s) ∨
    ∃ task refusals failure, s.tasks.get? id = some task ∧
      s.terminate b id =
        ({ s with
            refusals
            tasks := (s.tasks.remove id).1
            owners := s.owners.filter (·.1 ≠ task.fd)
            wheels := s.wheels.map fun wheel => (wheel.remove id).1
            history := .deleted task.fd failure :: s.history } : Scheduler σ ν).recordNotes
          ((task.outcome.owner?.map (b.release task.fd)).getD []) := by
  cases hget : s.tasks.get? id with
  | none =>
    refine .inl ⟨rfl, ?_⟩
    simp only [terminate, Arena.remove, hget]
  | some task =>
    have howner := howns task hget
    cases hanswer : Poller.answer .delete task.fd s.refusals with
    | mk refusals failure =>
      refine .inr ⟨task, refusals, failure, rfl, ?_⟩
      have hremove : s.tasks.remove id = ((s.tasks.remove id).1, some task) := by
        simp only [Arena.remove, hget]
      rw [owner?] at howner
      rw [terminate, hremove]
      simp only [owner?, howner, if_true, callPoller, hanswer]
      rfl

/-- Ways to go on with the interest of a task. -/
theorem reconcile_cases (b : Behaviour σ ν) (s : Scheduler σ ν) (id : TaskId) (task : Task σ)
    (wish : Ready) :
    ∃ interest, let s' := s.modifyTask id fun task => { task with interest }
      s.reconcile b id task wish = s' ∨
      ∃ applied refusals failure,
        let told := { s' with refusals }.record (.modified task.fd applied failure)
        s.reconcile b id task wish = told ∨ s.reconcile b id task wish = told.terminate b id := by
  cases hsync : ((task.interest.set wish).disable task.errors).sync with
  | mk interest change =>
    refine ⟨interest, ?_⟩
    cases change with
    | none =>
      refine .inl ?_
      simp only [reconcile, hsync]
    | some applied =>
      cases hanswer : Poller.answer .modify task.fd s.refusals with
      | mk refusals failure =>
        refine .inr ⟨applied, refusals, failure, ?_⟩
        cases failure with
        | none =>
          refine .inl ?_
          simp only [reconcile, hsync, callPoller, modifyTask, hanswer]
        | some error =>
          refine .inr ?_
          simp only [reconcile, hsync, callPoller, modifyTask, hanswer]

/-- What the end of a stretch comes to. -/
theorem settle_cases (b : Behaviour σ ν) (s : Scheduler σ ν) (id : TaskId) :
    (s.tasks.get? id = none ∧ s.settle b id = s) ∨
    ∃ task, s.tasks.get? id = some task ∧
      ((task.outcome.suspended? = none ∧ s.settle b id = s.terminate b id) ∨
        task.outcome.suspended?.isSome ∧ s.settle b id = s.reconcile b id task task.wanted) := by
  cases hget : s.tasks.get? id with
  | none => exact .inl ⟨rfl, by simp only [settle, hget]⟩
  | some task =>
    refine .inr ⟨task, rfl, ?_⟩
    cases hsuspended : task.outcome.suspended? with
    | none => exact .inl ⟨rfl, by simp only [settle, hget, hsuspended]⟩
    | some state => exact .inr ⟨rfl, by simp only [settle, hget, hsuspended]⟩

theorem setTimer_cases {s s' : Scheduler σ ν} {timer : TimerId} {task : TaskId} {delay : ℕ}
    {was : Bool} (h : s.setTimer timer task delay = .ok (s', was)) :
    s' = s ∨ ∃ wheel wheel', s.tasks.contains task ∧ s.wheels[timer.index]? = some wheel ∧
      wheel.insertAt s.clock delay task = .ok wheel' ∧
      s' = { s with wheels := s.wheels.set timer.index wheel' } := by
  rw [setTimer] at h
  split at h
  · rename_i hlive
    split at h
    · cases h
      exact .inl rfl
    · rename_i wheel hwheel
      obtain ⟨wheel', hinsert, hs⟩ := exists_of_map_eq_ok h
      cases hs
      exact .inr ⟨wheel, wheel', hlive, hwheel, hinsert, rfl⟩
  · cases h
    exact .inl rfl

theorem setTimer_eq_error_iff {s : Scheduler σ ν} {timer : TimerId} {task : TaskId} {delay : ℕ}
    {cause : Crash} :
    s.setTimer timer task delay = .error cause ↔ cause = .durationOverflow ∧
      s.tasks.contains task ∧ ∃ wheel, s.wheels[timer.index]? = some wheel ∧
        Duration.max < Instant.since s.clock wheel.epoch + delay := by
  rw [setTimer]
  split_ifs with hlive
  · cases hwheel : s.wheels[timer.index]? with
    | none => simp
    | some wheel =>
      simp only [TimerWheel.insertAt, Duration.add?]
      split_ifs with hfits
      · simp [Except.map, Nat.not_lt.2 hfits]
      · simp [Except.map, hlive, Nat.lt_of_not_le hfits, eq_comm]
  · simp [hlive]

theorem clearTimer_cases (s : Scheduler σ ν) (timer : TimerId) (task : TaskId) :
    (s.clearTimer timer task).1 = s ∨ ∃ wheel, s.wheels[timer.index]? = some wheel ∧
      (s.clearTimer timer task).1 =
        { s with wheels := s.wheels.set timer.index (wheel.remove task).1 } := by
  rw [clearTimer]
  cases hwheel : s.wheels[timer.index]? with
  | none => exact .inl rfl
  | some wheel => exact .inr ⟨wheel, rfl, rfl⟩

theorem elapse_eq {s s' : Scheduler σ ν} {span : ℕ} (h : s.elapse span = .ok s') :
    ∃ clock, s' = { s with clock } := by
  rw [elapse] at h
  split at h
  · cases h
    exact ⟨_, rfl⟩
  · cases h

theorem elapse_eq_error_iff {s : Scheduler σ ν} {span : ℕ} {cause : Crash} :
    s.elapse span = .error cause ↔ cause = .clockOverflow ∧ Instant.last < s.clock + span := by
  rw [elapse, Instant.add?]
  split_ifs with hfits
  · simp [Int.not_lt.2 hfits]
  · simp [Int.not_le.1 hfits, eq_comm]

theorem addTimer_eq {s s' : Scheduler σ ν} {horizon granularity : ℕ} {timer : TimerId}
    (h : s.addTimer horizon granularity = .ok (s', timer)) :
    ∃ wheel, TimerWheel.withEpoch horizon granularity s.clock = .ok wheel ∧
      s' = { s with wheels := s.wheels ++ [wheel] } := by
  obtain ⟨wheel, hwheel, hs⟩ := exists_of_map_eq_ok h
  cases hs
  exact ⟨wheel, hwheel, rfl⟩

/-- An event wakes the owner of its descriptor, which only learns of its readiness before. -/
theorem dispatch_cases {b : Behaviour σ ν} {s s' : Scheduler σ ν} {event : Int × Ready}
    (h : s.dispatch b event = .ok s') :
    s' = s ∨ ∃ id task errors ready, s.tasks.get? id = some task ∧
      (s.modifyTask id fun task => { task with errors, ready }).wake b id (.io ready) = .ok s' := by
  rw [dispatch] at h
  split at h
  · cases h
    exact .inl rfl
  · rename_i id howner
    split at h
    · cases h
      exact .inl rfl
    · rename_i task hget
      exact .inr ⟨id, task, _, _, hget, h⟩

/-- A sweep that does not crash, and the wakes behind it. -/
theorem sweepTimer_cases {b : Behaviour σ ν} {now : Int} {s s' : Scheduler σ ν} {index : ℕ}
    (h : sweepTimer b now s index = .ok s') :
    s' = s ∨ ∃ wheel, s.wheels[index]? = some wheel ∧ (wheel.sweep now).crash = none ∧
      expire b ⟨index⟩ { s with wheels := s.wheels.set index (wheel.sweep now).wheel }
        (wheel.sweep now).fired = .ok s' := by
  rw [sweepTimer] at h
  split at h
  · cases h
    exact .inl rfl
  · rename_i wheel hwheel
    dsimp only at h
    split at h
    · cases h
    · rename_i hcrash
      exact .inr ⟨wheel, hwheel, hcrash, h⟩

end Scheduler

end CoopHttp
