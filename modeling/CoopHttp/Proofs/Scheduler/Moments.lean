import CoopHttp.Proofs.Scheduler.Queue
import CoopHttp.Proofs.Scheduler.Still
import Mathlib.Logic.Function.Basic

/-!
# Moments of a run

A run of a scheduler is followed through every moment of it, those within a stretch included, where
the queue of requests shows what is still to be done. Along with it goes what no scheduler keeps:
the events that each live task has heard of.
-/
namespace CoopHttp.Scheduler

open Queue

variable {σ ν : Type} {b : Behaviour σ ν} {s s' : Scheduler σ ν} {id : TaskId} {task : Task σ}
  {m m' : Machine σ ν} {marks : List (Mark σ ν)}

/-! Steps within a stretch. -/

/-- A step starts one task, or leaves the readiness of all tasks alone. -/
theorem still_of_step (h : m.scheduler.Registered) (hstep : m.step b = .ok (some (marks, m'))) :
    (Still m.scheduler m'.scheduler ∧ ∀ id, .started id ∉ marks) ∨
      ∃ fd interest start id, m.scheduler.enrol fd interest start = (m'.scheduler, .ok id) ∧
        ∀ other, .started other ∈ marks ↔ other = id := by
  cases moves_of_step hstep with
  | yield | enqueue | take => exact .inl ⟨.of_eq h rfl rfl, by simp⟩
  | note => exact .inl ⟨.recordNotes h [_], by simp⟩
  | elapse helapse => exact .inl ⟨.elapse h helapse, by simp⟩
  | setTimer hset => exact .inl ⟨.setTimer h hset, by simp⟩
  | clearTimer => exact .inl ⟨.clearTimer h _ _, by simp⟩
  | refuse henrol =>
    have hrefused := Still.refused h henrol
    exact .inl ⟨hrefused.trans (.recordNotes hrefused.registered _), by simp⟩
  | start henrol => exact .inr ⟨_, _, _, _, henrol, by simp⟩
  | settle hs' _ => exact .inl ⟨hs' ▸ .settle h b _, by simp⟩

theorem registered_of_step (h : m.scheduler.Registered)
    (hstep : m.step b = .ok (some (marks, m'))) : m'.scheduler.Registered := by
  obtain ⟨hstill, -⟩ | ⟨fd, interest, start, id, henrol, -⟩ := still_of_step h hstep
  · exact hstill.registered
  · have hregistered := h.enrol fd interest start
    rwa [henrol] at hregistered

/-! A run. -/

/-- The task has been woken in `state`, and its stretch begins. -/
def resumed (b : Behaviour σ ν) (s : Scheduler σ ν) (id : TaskId) (task : Task σ) (wake : Wake)
    (state : σ) : Machine σ ν :=
  let run := stretch b id task wake state
  ⟨s.rouse id wake (task.after run.outcome), [], [.running id run]⟩

/-- The moments of a run, and the events that each live task has heard of since it was started, the
last one first. -/
inductive Moment (b : Behaviour σ ν) : (TaskId → List Ready) → Machine σ ν → Prop
  | fresh (settings : Settings) (refusals : List Poller.Refusal) (clock : Int) :
    Moment b (fun _ => []) ⟨{ settings, refusals, clock }, [], []⟩
  /-- Time passes, the poller is asked, timers are set, or a task is refused. -/
  | aside {heard : TaskId → List Ready} {s s' : Scheduler σ ν} :
    Moment b heard ⟨s, [], []⟩ → Change b s s' → s'.tasks = s.tasks → Moment b heard ⟨s', [], []⟩
  /-- A task is started from outside. -/
  | spawn {heard : TaskId → List Ready} {s s' : Scheduler σ ν} {fd : Int} {interest : Ready}
      {start : TaskId → Run σ ν} {id : TaskId} :
    Moment b heard ⟨s, [], []⟩ → s.enrol fd interest start = (s', .ok id) →
    Moment b (Function.update heard id []) ⟨s', [], [.running id (start id)]⟩
  /-- A task is told of an event on its descriptor. -/
  | event {heard : TaskId → List Ready} {s : Scheduler σ ν} {id : TaskId} {task : Task σ}
      {state : σ} (ready : Ready) :
    Moment b heard ⟨s, [], []⟩ → s.tasks.get? id = some task →
    task.outcome.suspended? = some state →
    Moment b (Function.update heard id (ready :: heard id))
      (resumed b s id (task.hear ready) (.io (task.hear ready).ready) state)
  /-- A deadline of a task has expired. -/
  | deadline {heard : TaskId → List Ready} {s : Scheduler σ ν} {id : TaskId} {task : Task σ}
      {state : σ} (timer : TimerId) :
    Moment b heard ⟨s, [], []⟩ → s.tasks.get? id = some task →
    task.outcome.suspended? = some state →
    Moment b heard (resumed b s id task (.timer timer) state)
  /-- A stretch goes on. -/
  | step {heard : TaskId → List Ready} {m m' : Machine σ ν} {marks : List (Mark σ ν)} :
    Moment b heard m → m.step b = .ok (some (marks, m')) → (∀ id, .started id ∉ marks) →
    Moment b heard m'
  /-- A stretch goes on, and a task is started that it has asked for. -/
  | start {heard : TaskId → List Ready} {m m' : Machine σ ν} {marks : List (Mark σ ν)}
      {id : TaskId} :
    Moment b heard m → m.step b = .ok (some (marks, m')) → .started id ∈ marks →
    Moment b (Function.update heard id []) m'

namespace Moment

variable {heard : TaskId → List Ready}

theorem registered (h : Moment b heard m) : m.scheduler.Registered := by
  induction h with
  | fresh settings refusals clock => exact .fresh settings refusals clock
  | aside _ hchange _ ih => exact hchange.registered ih
  | @spawn heard s s' fd interest start id _ henrol ih =>
    have hregistered := ih.enrol fd interest start
    rwa [henrol] at hregistered
  | event ready _ hget _ ih => exact registered_rouse ih hget _ rfl
  | deadline timer _ hget _ ih => exact registered_rouse ih hget _ rfl
  | step _ hstep _ ih | start _ hstep _ ih => exact registered_of_step ih hstep

end Moment

/-- The tasks that are started in these steps have heard of nothing then, and nobody else has heard
of anything since. -/
structure Resets (marks : List (Mark σ ν)) (heard heard' : TaskId → List Ready) : Prop where
  started : ∀ id, .started id ∈ marks → heard' id = []
  kept : ∀ id, .started id ∉ marks → heard' id = heard id

theorem Resets.head {later : List (Mark σ ν)} {heard heard' heard'' : TaskId → List Ready}
    (h : Resets marks heard heard') (h' : Resets later heard' heard'') :
    Resets (marks ++ later) heard heard'' where
  started id hid := by
    by_cases hlater : .started id ∈ later
    · exact h'.started id hlater
    · rw [h'.kept id hlater]
      exact h.started id ((List.mem_append.1 hid).resolve_right hlater)
  kept id hid := by
    rw [List.mem_append, not_or] at hid
    rw [h'.kept id hid.2, h.kept id hid.1]

namespace Moment

variable {heard : TaskId → List Ready}

theorem exists_of_step (h : Moment b heard m) (hstep : m.step b = .ok (some (marks, m'))) :
    ∃ heard', Moment b heard' m' ∧ Resets marks heard heard' := by
  obtain ⟨-, hnone⟩ | ⟨fd, interest, start, id, -, hmarks⟩ := still_of_step h.registered hstep
  · exact ⟨heard, h.step hstep hnone, fun id hid => absurd hid (hnone id), fun _ _ => rfl⟩
  · refine ⟨_, h.start hstep ((hmarks id).2 rfl), fun other hother => ?_, fun other hother => ?_⟩
    · rw [(hmarks other).1 hother, Function.update_self]
    · exact Function.update_of_ne (fun heq => hother ((hmarks other).2 heq)) _ _

/-- A stretch goes on from moment to moment. -/
theorem exists_of_reaches (h : Moment b heard m) (hreaches : Reaches b m marks m') :
    ∃ heard', Moment b heard' m' ∧ Resets marks heard heard' := by
  induction hreaches generalizing heard with
  | refl => exact ⟨heard, h, fun _ hid => absurd hid List.not_mem_nil, fun _ _ => rfl⟩
  | head hstep _ ih =>
    obtain ⟨heard', h', hresets⟩ := h.exists_of_step hstep
    obtain ⟨heard'', h'', hresets'⟩ := ih h'
    exact ⟨heard'', h'', hresets.head hresets'⟩

/-- A stretch that is carried out comes to a moment at which nobody runs. -/
theorem exists_of_drive {run : Run σ ν} (h : Moment b heard ⟨s, [], [.running id run]⟩)
    (hdrive : s.drive b id run = .ok s') :
    ∃ marks heard', Reaches b ⟨s, [], [.running id run]⟩ marks ⟨s', [], []⟩ ∧
      Moment b heard' ⟨s', [], []⟩ ∧ Resets marks heard heard' := by
  obtain ⟨driven, marks, hdriven, hreaches⟩ | ⟨cause, herror, -⟩ :=
    carries_drive (b := b) run s id []
  · cases hdriven.symm.trans hdrive
    obtain ⟨heard', h', hresets⟩ := h.exists_of_reaches hreaches
    exact ⟨marks, heard', hreaches, h', hresets⟩
  · cases herror.symm.trans hdrive

theorem drive {run : Run σ ν} (h : Moment b heard ⟨s, [], [.running id run]⟩)
    (hdrive : s.drive b id run = .ok s') : ∃ heard', Moment b heard' ⟨s', [], []⟩ := by
  obtain ⟨marks, heard', -, h', -⟩ := h.exists_of_drive hdrive
  exact ⟨heard', h'⟩

end Moment

/-- The stretch of one task is under way, and its end will leave all tasks at rest. -/
def Underway (b : Behaviour σ ν) (m : Machine σ ν) : Prop :=
  ∃ s id run marks, (∀ s', s.drive b id run = .ok s' → s'.AtRest) ∧
    Reaches b ⟨s, [], [.running id run]⟩ marks m

theorem Underway.step (h : Underway b m) (hstep : m.step b = .ok (some (marks, m'))) :
    Underway b m' := by
  obtain ⟨s, id, run, earlier, hrest, hreaches⟩ := h
  exact ⟨s, id, run, _, hrest, hreaches.trans (.single hstep)⟩

theorem Underway.begin (h : s.AtRest) {run : Run σ ν}
    (hspares : ∀ s'', s'.drive b id run = .ok s'' → Spares id s s'') :
    Underway b ⟨s', [], [.running id run]⟩ :=
  ⟨s', id, run, [], fun s'' hdrive => (hspares s'' hdrive).atRest_of h, .refl _⟩

theorem Underway.atRest (h : Underway b m) (hframes : m.frames = []) : m.scheduler.AtRest := by
  obtain ⟨s, id, run, marks, hrest, hreaches⟩ := h
  have hcarries := carries_drive (b := b) run s id []
  obtain ⟨s', hdrive, rfl⟩ := hcarries.of_end (fun _ => rfl) hreaches hframes
  exact hrest s' hdrive

namespace Moment

variable {heard : TaskId → List Ready}

/-- Whenever nobody runs, all live tasks are at rest. -/
theorem atRest (h : Moment b heard m) (hframes : m.frames = []) : m.scheduler.AtRest := by
  have hcases : (m.frames = [] ∧ m.scheduler.AtRest) ∨ Underway b m := by
    clear hframes
    induction h with
    | fresh settings refusals clock =>
      exact .inl ⟨rfl, (Resting.fresh (b := b) settings refusals clock).atRest⟩
    | @aside heard s s' _ _ htasks ih =>
      have hrest : s.AtRest := ih.elim And.right (·.atRest rfl)
      exact .inl ⟨rfl, fun id task hget => hrest id task (htasks ▸ hget)⟩
    | @spawn heard s s' fd interest start id h henrol ih =>
      have hrest : s.AtRest := ih.elim And.right (·.atRest rfl)
      obtain ⟨-, hframes, -, hget⟩ := enrol_spec h.registered henrol
      have henrolled := h.registered.enrol fd interest start
      rw [henrol] at henrolled
      exact .inr (.begin hrest fun s'' hdrive =>
        hframes.spares (spares_drive henrolled hget (Task.poised_first fd _ _) hdrive))
    | @event heard s id task state ready h hget _ ih =>
      have hrest : s.AtRest := ih.elim And.right (·.atRest rfl)
      exact .inr (.begin hrest fun s'' =>
        spares_rouse h.registered hget (hrest id task hget) (.io ready _))
    | @deadline heard s id task state timer h hget _ ih =>
      have hrest : s.AtRest := ih.elim And.right (·.atRest rfl)
      exact .inr (.begin hrest fun s'' =>
        spares_rouse h.registered hget (hrest id task hget) (.timer timer _))
    | step _ hstep _ ih | start _ hstep _ ih =>
      obtain ⟨hframes, -⟩ | hunderway := ih
      · rw [Machine.step, hframes] at hstep
        cases hstep
      · exact .inr (hunderway.step hstep)
  exact hcases.elim And.right (·.atRest hframes)

/-- An event runs the next stretch of the task of its descriptor, which hears of it first. -/
theorem dispatch (h : Moment b heard ⟨s, [], []⟩) (hget : s.tasks.get? id = some task)
    (ready : Ready) :
    ∃ state woken, task.outcome.suspended? = some state ∧
      let run := stretch b id (task.hear ready) (.io (task.hear ready).ready) state
      s.dispatch b (task.fd, ready) = woken.drive b id run ∧
        Moment b (Function.update heard id (ready :: heard id)) ⟨woken, [], [.running id run]⟩ := by
  obtain ⟨state, hstate⟩ := Option.isSome_iff_exists.1 (h.atRest rfl id task hget).suspended
  have howner := h.registered.owner?_of_get? id task hget
  exact ⟨state, _, hstate, dispatch_eq_drive b howner hget hstate ready,
    h.event ready hget hstate⟩

/-- A deadline that has expired runs the next stretch of its task. -/
theorem wake (h : Moment b heard ⟨s, [], []⟩) (hget : s.tasks.get? id = some task)
    (timer : TimerId) :
    ∃ state woken, task.outcome.suspended? = some state ∧
      let run := stretch b id task (.timer timer) state
      s.wake b id (.timer timer) = woken.drive b id run ∧
        Moment b heard ⟨woken, [], [.running id run]⟩ := by
  obtain ⟨state, hstate⟩ := Option.isSome_iff_exists.1 (h.atRest rfl id task hget).suspended
  exact ⟨state, _, hstate, wake_eq_drive b hget hstate (.timer timer),
    h.deadline timer hget hstate⟩

end Moment

/-- Every scheduler at rest is met at a moment of a run. -/
theorem Resting.exists_moment (h : Resting b s) : ∃ heard, Moment b heard ⟨s, [], []⟩ := by
  induction h with
  | fresh settings refusals clock => exact ⟨_, .fresh settings refusals clock⟩
  | elapse span _ heq ih =>
    obtain ⟨heard, hmoment⟩ := ih
    obtain ⟨clock, rfl⟩ := elapse_eq heq
    exact ⟨heard, hmoment.aside (.elapse heq) rfl⟩
  | addTimer horizon granularity _ heq ih =>
    obtain ⟨heard, hmoment⟩ := ih
    obtain ⟨wheel, -, rfl⟩ := addTimer_eq heq
    exact ⟨heard, hmoment.aside (.addTimer heq) rfl⟩
  | setTimer timer task delay _ heq ih =>
    obtain ⟨heard, hmoment⟩ := ih
    exact ⟨heard, hmoment.aside (.setTimer heq) (tasks_setTimer heq)⟩
  | clearTimer timer task _ ih =>
    obtain ⟨heard, hmoment⟩ := ih
    exact ⟨heard, hmoment.aside (.clearTimer _ timer task) (tasks_clearTimer _ _ _)⟩
  | @spawn s s' result fd interest refused start _ heq ih =>
    obtain ⟨heard, hmoment⟩ := ih
    have hchange := Change.enrol (b := b) s fd interest start
    rw [Scheduler.spawn] at heq
    split at heq
    · rename_i enrolled error henrol
      cases heq
      rw [henrol] at hchange
      have henrolled := hmoment.aside hchange (sameTasks_of_enrol henrol).1
      exact ⟨heard, henrolled.aside (.notes enrolled refused) rfl⟩
    · rename_i enrolled id henrol
      obtain ⟨driven, hdrive, hs⟩ := exists_of_map_eq_ok heq
      cases hs
      exact (hmoment.spawn henrol).drive hdrive
  | poll _ ih =>
    obtain ⟨heard, hmoment⟩ := ih
    exact ⟨heard, hmoment.aside (.poll _) rfl⟩
  | @dispatch s s' event _ heq ih =>
    obtain ⟨heard, hmoment⟩ := ih
    cases howner : s.owner? event.1 with
    | none =>
      rw [Scheduler.dispatch, howner] at heq
      cases heq
      exact ⟨heard, hmoment⟩
    | some id =>
      obtain ⟨task, hget, hfd⟩ := hmoment.registered.owner?_eq_some_iff.1 howner
      obtain ⟨state, woken, -, hdrive, hwoken⟩ := hmoment.dispatch hget event.2
      rw [hfd] at hdrive
      exact hwoken.drive (hdrive.symm.trans heq)
  | @sweepTimer s s' now index _ heq ih =>
    obtain rfl | ⟨wheel, hwheel, hcrash, hexpire⟩ := sweepTimer_cases heq
    · exact ih
    · obtain ⟨heard, hmoment⟩ := ih
      have hswept := hmoment.aside (.sweep hwheel hcrash) rfl
      refine foldlM_invariant (P := fun _ s => ∃ heard, Moment b heard ⟨s, [], []⟩) ?_
        ⟨heard, hswept⟩ hexpire
      rintro s s' id rest ⟨heard, hmoment⟩ hstep
      split_ifs at hstep with hlive
      · obtain ⟨task, hget⟩ := Arena.contains_iff.1 hlive
        obtain ⟨state, woken, -, hdrive, hwoken⟩ := hmoment.wake hget ⟨index⟩
        exact hwoken.drive (hdrive.symm.trans hstep)
      · cases hstep
        exact ⟨heard, hmoment⟩

end CoopHttp.Scheduler
