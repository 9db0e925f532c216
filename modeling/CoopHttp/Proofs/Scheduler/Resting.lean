import CoopHttp.Proofs.Scheduler.Stretch
import Mathlib.Logic.Relation

/-!
# Schedulers at rest

A scheduler is at rest when no stretch is under way: between the operations of a run, and within a
turn between one wake and the next. What every small change keeps, and the waking of a task, holds
of every scheduler at rest.
-/
namespace CoopHttp.Scheduler

open Relation

variable {σ ν : Type} {b : Behaviour σ ν} {s s' : Scheduler σ ν}

/-- The scheduler comes of a new one by its operations and by the steps that turns are made of. -/
inductive Resting (b : Behaviour σ ν) : Scheduler σ ν → Prop
  | fresh (settings : Settings) (refusals : List Poller.Refusal) (clock : Int) :
    Resting b { settings, refusals, clock }
  | elapse {s s' : Scheduler σ ν} (span : ℕ) :
    Resting b s → s.elapse span = .ok s' → Resting b s'
  | addTimer {s s' : Scheduler σ ν} {timer : TimerId} (horizon granularity : ℕ) :
    Resting b s → s.addTimer horizon granularity = .ok (s', timer) → Resting b s'
  | setTimer {s s' : Scheduler σ ν} {was : Bool} (timer : TimerId) (task : TaskId) (delay : ℕ) :
    Resting b s → s.setTimer timer task delay = .ok (s', was) → Resting b s'
  | clearTimer {s : Scheduler σ ν} (timer : TimerId) (task : TaskId) :
    Resting b s → Resting b (s.clearTimer timer task).1
  | spawn {s s' : Scheduler σ ν} {result : Except IoError TaskId} (fd : Int) (interest : Ready)
      (refused : List ν) (start : TaskId → Run σ ν) :
    Resting b s → s.spawn b fd interest refused start = .ok (s', result) → Resting b s'
  | poll {s : Scheduler σ ν} :
    Resting b s → Resting b (s.record (.polled s.settings.maxEvents s.settings.pollTimeout))
  | dispatch {s s' : Scheduler σ ν} (event : Int × Ready) :
    Resting b s → s.dispatch b event = .ok s' → Resting b s'
  | sweepTimer {s s' : Scheduler σ ν} (now : Int) (index : ℕ) :
    Resting b s → sweepTimer b now s index = .ok s' → Resting b s'

theorem Resting.dispatches {events : List (Int × Ready)} (h : Resting b s)
    (hdispatch : events.foldlM (Scheduler.dispatch b) s = .ok s') : Resting b s' :=
  foldlM_invariant (P := fun _ s => Resting b s) (fun h hstep => h.dispatch _ hstep) h hdispatch

theorem Resting.sweeps {now : Int} {indices : List ℕ} (h : Resting b s)
    (hsweep : indices.foldlM (Scheduler.sweepTimer b now) s = .ok s') : Resting b s' :=
  foldlM_invariant (P := fun _ s => Resting b s) (fun h hstep => h.sweepTimer now _ hstep) h hsweep

theorem Reachable.resting (h : Reachable b s) : Resting b s := by
  induction h with
  | fresh settings refusals clock => exact .fresh settings refusals clock
  | elapse span _ heq ih => exact ih.elapse span heq
  | addTimer horizon granularity _ heq ih => exact ih.addTimer horizon granularity heq
  | setTimer timer task delay _ heq ih => exact ih.setTimer timer task delay heq
  | clearTimer timer task _ ih => exact ih.clearTimer timer task
  | spawn fd interest refused start _ heq ih => exact ih.spawn fd interest refused start heq
  | turn poll _ heq ih =>
    obtain ⟨polled, helapse, heq⟩ := exists_of_bind_eq_ok heq
    have hpolled := ih.poll.elapse poll.elapsed helapse
    split at heq
    · obtain ⟨dispatched, hdispatch, heq⟩ := exists_of_bind_eq_ok heq
      obtain ⟨swept, hsweep, hs⟩ := exists_of_map_eq_ok heq
      cases hs
      exact (hpolled.dispatches hdispatch).sweeps hsweep
    · obtain ⟨swept, hsweep, hs⟩ := exists_of_map_eq_ok heq
      cases hs
      exact hpolled.sweeps hsweep
    · cases heq
      exact hpolled

/-! Small changes. -/

inductive Change (b : Behaviour σ ν) : Scheduler σ ν → Scheduler σ ν → Prop
  | notes (s : Scheduler σ ν) (entries : List ν) : Change b s (s.recordNotes entries)
  | poll (s : Scheduler σ ν) :
    Change b s (s.record (.polled s.settings.maxEvents s.settings.pollTimeout))
  | elapse {s s' : Scheduler σ ν} {span : ℕ} : s.elapse span = .ok s' → Change b s s'
  | addTimer {s s' : Scheduler σ ν} {timer : TimerId} {horizon granularity : ℕ} :
    s.addTimer horizon granularity = .ok (s', timer) → Change b s s'
  | setTimer {s s' : Scheduler σ ν} {was : Bool} {timer : TimerId} {task : TaskId} {delay : ℕ} :
    s.setTimer timer task delay = .ok (s', was) → Change b s s'
  | clearTimer (s : Scheduler σ ν) (timer : TimerId) (task : TaskId) :
    Change b s (s.clearTimer timer task).1
  | sweep {s : Scheduler σ ν} {index : ℕ} {wheel : TimerWheel TaskId} {now : Int} :
    s.wheels[index]? = some wheel → (wheel.sweep now).crash = none →
    Change b s { s with wheels := s.wheels.set index (wheel.sweep now).wheel }
  | enrol (s : Scheduler σ ν) (fd : Int) (interest : Ready) (start : TaskId → Run σ ν) :
    Change b s (s.enrol fd interest start).1
  | settle (s : Scheduler σ ν) (id : TaskId) : Change b s (s.settle b id)

theorem Change.registered (h : s.Registered) (hchange : Change b s s') : s'.Registered := by
  cases hchange with
  | notes entries => exact h.recordNotes entries
  | poll => exact h.record _ rfl trivial
  | elapse heq => exact h.elapse heq
  | addTimer heq => exact h.addTimer heq
  | setTimer heq => exact h.setTimer heq
  | clearTimer timer task => exact h.clearTimer timer task
  | sweep hwheel _ => exact h.sweepWheel hwheel _
  | enrol fd interest start => exact h.enrol fd interest start
  | settle id => exact h.settle b id

theorem changes_perform {run : Run σ ν} (h : perform run s = .ok s') :
    ReflTransGen (Change b) s s' := by
  induction run generalizing s with
  | stop outcome =>
    cases h
    exact .refl
  | crash cause => cases h
  | note entry next ih => exact .head (.notes s [entry]) (ih h)
  | elapse span next ih =>
    obtain ⟨later, helapse, hnext⟩ := exists_of_bind_eq_ok h
    exact .head (.elapse helapse) (ih hnext)
  | setTimer timer delay next ih => exact ih h
  | clearTimer timer next ih => exact ih h
  | spawn fd interest refused start next _ ih => exact ih h

/-- A start that is refused, or a task that is made. -/
theorem change_of_enrol {fd : Int} {interest : Ready} {start : TaskId → Run σ ν}
    {result : Except IoError TaskId} (h : s.enrol fd interest start = (s', result)) :
    Change b s s' := by
  have hchange := Change.enrol (b := b) s fd interest start
  rwa [h] at hchange

theorem changes_grant {id : TaskId} {run : Run σ ν} (h : grant b id run s = .ok s') :
    ReflTransGen (Change b) s s' := by
  induction run generalizing s s' id with
  | stop outcome | crash cause =>
    cases h
    exact .refl
  | note entry next ih | elapse span next ih => exact ih h
  | setTimer timer delay next ih =>
    obtain ⟨⟨armed, was⟩, hset, hnext⟩ := exists_of_bind_eq_ok h
    exact .head (.setTimer hset) (ih hnext)
  | clearTimer timer next ih => exact .head (.clearTimer s timer id) (ih h)
  | spawn fd interest refused start next ihstart ih =>
    rw [grant] at h
    split at h
    · rename_i enrolled error henrol
      exact .head (change_of_enrol henrol) (.head (.notes enrolled refused) (ih h))
    · rename_i enrolled child henrol
      obtain ⟨performed, hperform, h⟩ := exists_of_bind_eq_ok h
      obtain ⟨granted, hgrant, h⟩ := exists_of_bind_eq_ok h
      have hgranted := (changes_perform hperform).trans (ihstart child hgrant)
      exact .head (change_of_enrol henrol)
        (hgranted.trans (.head (.settle granted child) (ih h)))

theorem changes_drive {id : TaskId} {run : Run σ ν} (h : s.drive b id run = .ok s') :
    ReflTransGen (Change b) s s' := by
  obtain ⟨performed, hperform, h⟩ := exists_of_bind_eq_ok h
  obtain ⟨granted, hgrant, rfl⟩ := exists_of_map_eq_ok h
  exact ((changes_perform hperform).trans (changes_grant hgrant)).tail (.settle granted id)

theorem changes_spawn {fd : Int} {interest : Ready} {refused : List ν} {start : TaskId → Run σ ν}
    {result : Except IoError TaskId} (h : s.spawn b fd interest refused start = .ok (s', result)) :
    ReflTransGen (Change b) s s' := by
  rw [spawn] at h
  split at h
  · rename_i enrolled error henrol
    cases h
    exact .head (change_of_enrol henrol) (.single (.notes enrolled refused))
  · rename_i enrolled id henrol
    obtain ⟨driven, hdrive, hs⟩ := exists_of_map_eq_ok h
    cases hs
    exact .head (change_of_enrol henrol) (changes_drive hdrive)

/-! Invariants. -/

def AtRest (s : Scheduler σ ν) : Prop := ∀ id task, s.tasks.get? id = some task → task.AtRest

/-- What becomes of a task that is woken: it has heard of the event, if there is one, and is in the
condition that its stretch will end in. -/
inductive Roused (task : Task σ) : Wake → Task σ → Prop
  | io (ready : Ready) (outcome : Outcome σ) :
    Roused task (.io (task.hear ready).ready) ((task.hear ready).after outcome)
  | timer (timer : TimerId) (outcome : Outcome σ) : Roused task (.timer timer) (task.after outcome)

theorem Roused.fd_eq {task task' : Task σ} {wake : Wake} (h : Roused task wake task') :
    task'.fd = task.fd := by
  cases h <;> rfl

theorem Roused.poised {task task' : Task σ} {wake : Wake} (h : Roused task wake task')
    (hrest : task.AtRest) : task'.Poised := by
  cases h with
  | io ready outcome => exact hrest.poised (task.hear ready) _ rfl rfl rfl rfl outcome
  | timer timer outcome =>
    have hself : task.errors = task.errors ||| task.errors := by
      rw [← Ready.kinds_inj, Ready.kinds_or, Finset.union_self]
    exact hrest.poised task _ rfl rfl rfl hself outcome

/-- A property that new schedulers have and that neither a change nor the waking of a task takes
away. -/
structure Invariant (b : Behaviour σ ν) (P : Scheduler σ ν → Prop) : Prop where
  fresh : ∀ settings refusals clock, P { settings, refusals, clock }
  change : ∀ {s s' : Scheduler σ ν}, s.Registered → Change b s s' → P s → P s'
  rouse : ∀ {s : Scheduler σ ν} {id : TaskId} {task task' : Task σ} {wake : Wake},
    s.Registered → s.tasks.get? id = some task → Roused task wake task' → P s →
    P (s.rouse id wake task')

theorem Spares.atRest_of (h : s.AtRest) {id : TaskId} (hspares : Spares id s s') : s'.AtRest := by
  intro other task hget
  obtain ⟨-, hget'⟩ | hrest := hspares.atRest other task hget
  · exact h other task hget'
  · exact hrest

/-- A stretch of a task that has been woken spares the others. -/
theorem spares_rouse {id : TaskId} {task task' : Task σ} {wake : Wake} {run : Run σ ν}
    (h : s.Registered) (hget : s.tasks.get? id = some task) (hrest : task.AtRest)
    (hroused : Roused task wake task')
    (hdrive : (s.rouse id wake task').drive b id run = .ok s') : Spares id s s' :=
  (frames_rouse s id wake task').spares
    (spares_drive (registered_rouse h hget wake hroused.fd_eq) (get?_rouse hget wake task')
      (hroused.poised hrest) hdrive)

/-- An event wakes the owner of its descriptor, if there is one. -/
theorem AtRest.dispatch_cases (h : s.AtRest) {event : Int × Ready}
    (hdispatch : s.dispatch b event = .ok s') :
    s' = s ∨ ∃ id task task' wake run, s.tasks.get? id = some task ∧ Roused task wake task' ∧
      (s.rouse id wake task').drive b id run = .ok s' := by
  cases howner : s.owner? event.1 with
  | none =>
    rw [dispatch, howner] at hdispatch
    cases hdispatch
    exact .inl rfl
  | some id =>
    cases hget : s.tasks.get? id with
    | none =>
      simp only [dispatch, howner, hget] at hdispatch
      cases hdispatch
      exact .inl rfl
    | some task =>
      obtain ⟨state, hstate⟩ := Option.isSome_iff_exists.1 (h id task hget).suspended
      rw [show event = (event.1, event.2) from rfl,
        dispatch_eq_drive b howner hget hstate] at hdispatch
      exact .inr ⟨id, task, _, _, _, hget, .io event.2 _, hdispatch⟩

/-- A task whose deadline has expired is woken if it is live. -/
theorem AtRest.wake_timer_cases (h : s.AtRest) {id : TaskId} {timer : TimerId}
    (hwake : s.wake b id (.timer timer) = .ok s') :
    s' = s ∨ ∃ task task' run, s.tasks.get? id = some task ∧ Roused task (.timer timer) task' ∧
      (s.rouse id (.timer timer) task').drive b id run = .ok s' := by
  cases hget : s.tasks.get? id with
  | none =>
    rw [wake, hget] at hwake
    cases hwake
    exact .inl rfl
  | some task =>
    obtain ⟨state, hstate⟩ := Option.isSome_iff_exists.1 (h id task hget).suspended
    rw [wake_eq_drive b hget hstate] at hwake
    exact .inr ⟨task, _, _, rfl, .timer timer _, hwake⟩

namespace Invariant

variable {P : Scheduler σ ν → Prop}

theorem changes (hP : Invariant b P) (h : s.Registered) (hs : P s)
    (hchanges : ReflTransGen (Change b) s s') : P s' := by
  have hboth : s'.Registered ∧ P s' := by
    induction hchanges with
    | refl => exact ⟨h, hs⟩
    | tail _ hchange ih => exact ⟨hchange.registered ih.1, hP.change ih.1 hchange ih.2⟩
  exact hboth.2

theorem drive (hP : Invariant b P) (h : s.Registered) (hs : P s) {id : TaskId}
    {task task' : Task σ} {wake : Wake} {run : Run σ ν} (hget : s.tasks.get? id = some task)
    (hroused : Roused task wake task')
    (hdrive : (s.rouse id wake task').drive b id run = .ok s') : P s' :=
  hP.changes (registered_rouse h hget wake hroused.fd_eq) (hP.rouse h hget hroused hs)
    (changes_drive hdrive)

/-- An invariant holds at rest, and so do registration and the rest of the tasks. -/
theorem sound (hP : Invariant b P) (h : Resting b s) : s.Registered ∧ s.AtRest ∧ P s := by
  have hsame : ∀ {s s' : Scheduler σ ν}, s.Registered ∧ s.AtRest ∧ P s → Change b s s' →
      s'.tasks = s.tasks → s'.Registered ∧ s'.AtRest ∧ P s' := by
    intro s s' hs hchange htasks
    refine ⟨hchange.registered hs.1, fun id task hget => hs.2.1 id task ?_,
      hP.change hs.1 hchange hs.2.2⟩
    rwa [htasks] at hget
  induction h with
  | fresh settings refusals clock =>
    refine ⟨.fresh settings refusals clock, fun id task hget => ?_, hP.fresh settings refusals clock⟩
    simp [Arena.get?, Arena.slot?] at hget
  | elapse span _ heq ih =>
    obtain ⟨clock, rfl⟩ := elapse_eq heq
    exact hsame ih (.elapse heq) rfl
  | addTimer horizon granularity _ heq ih =>
    obtain ⟨wheel, -, rfl⟩ := addTimer_eq heq
    exact hsame ih (.addTimer heq) rfl
  | setTimer timer task delay _ heq ih => exact hsame ih (.setTimer heq) (tasks_setTimer heq)
  | clearTimer timer task _ ih => exact hsame ih (.clearTimer _ _ _) (tasks_clearTimer _ _ _)
  | @spawn s s' result fd interest refused start _ heq ih =>
    refine ⟨ih.1.spawn heq, ?_, hP.changes ih.1 ih.2.2 (changes_spawn heq)⟩
    cases result with
    | error error =>
      intro id task hget
      rw [(sameTasks_of_spawn heq).1] at hget
      exact ih.2.1 id task hget
    | ok id =>
      have henrolled := ih.1.enrol fd interest start
      rw [Scheduler.spawn] at heq
      split at heq
      · cases heq
      · rename_i enrolled made henrol
        rw [henrol] at henrolled
        obtain ⟨driven, hdrive, hs⟩ := exists_of_map_eq_ok heq
        cases hs
        obtain ⟨-, hframes, -, hget⟩ := enrol_spec ih.1 henrol
        exact (hframes.spares (spares_drive henrolled hget (Task.poised_first fd _ _)
          hdrive)).atRest_of ih.2.1
  | poll _ ih => exact hsame ih (.poll _) rfl
  | dispatch event _ heq ih =>
    obtain rfl | ⟨id, task, task', wake, run, hget, hroused, hdrive⟩ := ih.2.1.dispatch_cases heq
    · exact ih
    · have hspares := spares_rouse ih.1 hget (ih.2.1 id task hget) hroused hdrive
      exact ⟨ih.1.dispatch heq, hspares.atRest_of ih.2.1,
        hP.drive ih.1 ih.2.2 hget hroused hdrive⟩
  | sweepTimer now index _ heq ih =>
    obtain rfl | ⟨wheel, hwheel, hcrash, hexpire⟩ := sweepTimer_cases heq
    · exact ih
    · have hswept := hsame ih (.sweep hwheel hcrash) rfl
      refine foldlM_invariant (P := fun _ s => s.Registered ∧ s.AtRest ∧ P s) ?_ hswept hexpire
      intro s s' id rest hs hstep
      split_ifs at hstep
      · obtain rfl | ⟨task, task', run, hget, hroused, hdrive⟩ := hs.2.1.wake_timer_cases hstep
        · exact hs
        · have hspares := spares_rouse hs.1 hget (hs.2.1 id task hget) hroused hdrive
          exact ⟨hs.1.wake hstep, hspares.atRest_of hs.2.1,
            hP.drive hs.1 hs.2.2 hget hroused hdrive⟩
      · cases hstep
        exact hs

theorem of_resting (hP : Invariant b P) (h : Resting b s) : P s := (hP.sound h).2.2

end Invariant

/-- Nothing is asked of a scheduler. -/
theorem invariant_true (b : Behaviour σ ν) : Invariant b fun _ => True :=
  ⟨fun _ _ _ => trivial, fun _ _ _ => trivial, fun _ _ _ _ => trivial⟩

theorem Resting.registered (h : Resting b s) : s.Registered := ((invariant_true b).sound h).1

theorem Resting.atRest (h : Resting b s) : s.AtRest := ((invariant_true b).sound h).2.1

end CoopHttp.Scheduler
