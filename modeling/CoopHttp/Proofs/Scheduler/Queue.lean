import CoopHttp.Proofs.Scheduler.Reachable
import CoopHttp.Scheduler.Queue

/-!
# The queue serves all requests

The machine with one queue is followed from the resumption of a task on. At every moment no request
is lost or granted twice and nobody runs but the innermost task, and where the machine comes to an
end the requests have been granted in order. It comes to an end unless it crashes, if nobody leaves
requests behind, and then it does what a scheduler does that carries out a stretch as a whole.
-/
namespace CoopHttp.Queue

open Scheduler (belated returning)

variable {σ ν : Type}

/-- Any number of steps, and all that happens in them. -/
inductive Reaches (c : Bodies σ ν) : Machine σ ν → List (Mark σ ν) → Machine σ ν → Prop
  | refl (m : Machine σ ν) : Reaches c m [] m
  | head {m m' m'' : Machine σ ν} {marks later : List (Mark σ ν)} :
    m.step c = .ok (some (marks, m')) → Reaches c m' later m'' → Reaches c m (marks ++ later) m''

/-- The machine comes to a step that crashes. -/
def Crashes (c : Bodies σ ν) (m : Machine σ ν) (cause : Crash) : Prop :=
  ∃ marks m', Reaches c m marks m' ∧ m'.step c = .error cause

/-- There is no further step. -/
def Machine.Halts (c : Bodies σ ν) (m : Machine σ ν) : Prop :=
  ∀ marks m', m.step c ≠ .ok (some (marks, m'))

variable {b : Behaviour σ ν} {c : Bodies σ ν} {m m' m'' : Machine σ ν}
  {marks later : List (Mark σ ν)}

namespace Reaches

theorem trans (h : Reaches c m marks m') (h' : Reaches c m' later m'') :
    Reaches c m (marks ++ later) m'' := by
  induction h with
  | refl => exact h'
  | head hstep _ ih =>
    rw [List.append_assoc]
    exact .head hstep (ih h')

theorem single (hstep : m.step c = .ok (some (marks, m'))) : Reaches c m marks m' :=
  List.append_nil marks ▸ .head hstep (.refl m')

/-- The machine is deterministic: there is one way to an end. -/
theorem eq_of_halts (h : Reaches c m marks m') (hhalts : m'.Halts c) (h' : Reaches c m later m'')
    (hhalts' : m''.Halts c) : marks = later ∧ m' = m'' := by
  induction h generalizing later with
  | refl =>
    cases h' with
    | refl => exact ⟨rfl, rfl⟩
    | head hstep => exact absurd hstep (hhalts _ _)
  | head hstep _ ih =>
    cases h' with
    | refl => exact absurd hstep (hhalts' _ _)
    | head hstep' hrest =>
      cases hstep.symm.trans hstep'
      obtain ⟨rfl, rfl⟩ := ih hhalts hrest
      exact ⟨rfl, rfl⟩

end Reaches

theorem Crashes.of_reaches {cause : Crash} (h : Reaches c m marks m') (h' : Crashes c m' cause) :
    Crashes c m cause := by
  obtain ⟨later, m'', hreaches, hstep⟩ := h'
  exact ⟨marks ++ later, m'', h.trans hreaches, hstep⟩

theorem halts_of_frames (hframes : m.frames = []) : m.Halts c := by
  intro marks m' hstep
  rw [Machine.step, hframes] at hstep
  cases hstep

theorem halts_of_error {cause : Crash} (herror : m.step c = .error cause) : m.Halts c :=
  fun _ _ hstep => by cases herror.symm.trans hstep

/-! A single step. -/

inductive Moves (c : Bodies σ ν) : Machine σ ν → List (Mark σ ν) → Machine σ ν → Prop
  | yield {s : Scheduler σ ν} {queue : List (Command σ ν)} {id : TaskId} {outcome : Outcome σ}
      {frames : List (Frame σ ν)} :
    Moves c ⟨s, queue, .running id (.stop outcome) :: frames⟩ [.yielded id]
      ⟨s, queue, .granting id [] :: frames⟩
  | note {s : Scheduler σ ν} {queue : List (Command σ ν)} {id : TaskId} {entry : ν}
      {next : Run σ ν} {frames : List (Frame σ ν)} :
    Moves c ⟨s, queue, .running id (.note entry next) :: frames⟩ []
      ⟨s.record (.note entry), queue, .running id next :: frames⟩
  | elapse {s s' : Scheduler σ ν} {queue : List (Command σ ν)} {id : TaskId} {span : ℕ}
      {next : Run σ ν} {frames : List (Frame σ ν)} :
    s.elapse span = .ok s' →
    Moves c ⟨s, queue, .running id (.elapse span next) :: frames⟩ []
      ⟨s', queue, .running id next :: frames⟩
  | enqueue {s : Scheduler σ ν} {queue : List (Command σ ν)} {id : TaskId} {run next : Run σ ν}
      {command : Command σ ν} {frames : List (Frame σ ν)} :
    commands id run = command :: commands id next →
    Moves c ⟨s, queue, .running id run :: frames⟩ [.queued command]
      ⟨s, queue ++ [command], .running id next :: frames⟩
  | setTimer {s s' : Scheduler σ ν} {was : Bool} {queue batch : List (Command σ ν)}
      {id task : TaskId} {timer : TimerId} {delay : ℕ} {frames : List (Frame σ ν)} :
    s.setTimer timer task delay = .ok (s', was) →
    Moves c ⟨s, queue, .granting id (.setTimer task timer delay :: batch) :: frames⟩
      [.granted (.setTimer task timer delay)] ⟨s', queue, .granting id batch :: frames⟩
  | clearTimer {s : Scheduler σ ν} {queue batch : List (Command σ ν)} {id task : TaskId}
      {timer : TimerId} {frames : List (Frame σ ν)} :
    Moves c ⟨s, queue, .granting id (.clearTimer task timer :: batch) :: frames⟩
      [.granted (.clearTimer task timer)]
      ⟨(s.clearTimer timer task).1, queue, .granting id batch :: frames⟩
  | refuse {s s' : Scheduler σ ν} {queue batch : List (Command σ ν)} {id task : TaskId} {fd : Int}
      {interest : Ready} {refused : List ν} {start : TaskId → Run σ ν} {error : IoError}
      {frames : List (Frame σ ν)} :
    s.enrol fd interest start = (s', .error error) →
    Moves c ⟨s, queue, .granting id (.spawn task fd interest refused start :: batch) :: frames⟩
      (.granted (.spawn task fd interest refused start) :: (c.leaveStart fd start).map .left)
      ⟨s'.recordNotes refused, queue ++ c.leaveStart fd start, .granting id batch :: frames⟩
  | start {s s' : Scheduler σ ν} {queue batch : List (Command σ ν)} {id task child : TaskId}
      {fd : Int} {interest : Ready} {refused : List ν} {start : TaskId → Run σ ν}
      {frames : List (Frame σ ν)} :
    s.enrol fd interest start = (s', .ok child) →
    Moves c ⟨s, queue, .granting id (.spawn task fd interest refused start :: batch) :: frames⟩
      [.granted (.spawn task fd interest refused start), .started child]
      ⟨s', queue, .running child (start child) :: .granting id batch :: frames⟩
  | take {s : Scheduler σ ν} {command : Command σ ν} {queue : List (Command σ ν)} {id : TaskId}
      {frames : List (Frame σ ν)} :
    Moves c ⟨s, command :: queue, .granting id [] :: frames⟩ []
      ⟨s, [], .granting id (command :: queue) :: frames⟩
  | settle {s s' : Scheduler σ ν} {left : List (Command σ ν)} {id : TaskId}
      {frames : List (Frame σ ν)} :
    s' = s.settle c.toBehaviour id → left = c.left id s s' →
    Moves c ⟨s, [], .granting id [] :: frames⟩ (.settled id :: left.map .left) ⟨s', left, frames⟩

section Step

variable {s : Scheduler σ ν} {queue batch : List (Command σ ν)} {id : TaskId} {run : Run σ ν}
  {command : Command σ ν} {frames : List (Frame σ ν)} {cause : Crash}

theorem moves_of_runStep (hrun : Machine.runStep s queue id frames run = .ok (marks, m')) :
    Moves c ⟨s, queue, .running id run :: frames⟩ marks m' := by
  cases run with
  | stop outcome =>
    cases hrun
    exact .yield
  | crash cause => cases hrun
  | note entry next =>
    cases hrun
    exact .note
  | elapse span next =>
    obtain ⟨s', helapse, hs⟩ := exists_of_map_eq_ok hrun
    cases hs
    exact .elapse helapse
  | setTimer | clearTimer | spawn =>
    cases hrun
    exact .enqueue rfl

theorem moves_of_grantStep
    (hgrant : Machine.grantStep c s queue (.granting id batch :: frames) command = .ok (marks, m')) :
    Moves c ⟨s, queue, .granting id (command :: batch) :: frames⟩ marks m' := by
  cases command with
  | setTimer task timer delay =>
    obtain ⟨⟨s', was⟩, hset, hs⟩ := exists_of_map_eq_ok hgrant
    cases hs
    exact .setTimer hset
  | clearTimer task timer =>
    cases hgrant
    exact .clearTimer
  | spawn task fd interest refused start =>
    rw [Machine.grantStep] at hgrant
    split at hgrant
    · rename_i s' error henrol
      cases hgrant
      exact .refuse henrol
    · rename_i s' child henrol
      cases hgrant
      exact .start henrol

theorem moves_of_step (hstep : m.step c = .ok (some (marks, m'))) : Moves c m marks m' := by
  obtain ⟨s, queue, _ | ⟨⟨id, run⟩ | ⟨id, _ | ⟨command, batch⟩⟩, frames⟩⟩ := m
  · cases hstep
  · obtain ⟨⟨marks', m₁⟩, hrun, hsome⟩ := exists_of_map_eq_ok hstep
    cases hsome
    exact moves_of_runStep hrun
  · cases queue with
    | nil =>
      cases hstep
      exact .settle rfl rfl
    | cons command queue =>
      cases hstep
      exact .take
  · obtain ⟨⟨marks', m₁⟩, hgrant, hsome⟩ := exists_of_map_eq_ok hstep
    cases hsome
    exact moves_of_grantStep hgrant

/-- The next step crashes: a task does so by itself, time goes beyond the end of the clock, or a live
task is armed on a wheel beyond what a duration can hold, counted from the wheel's epoch. -/
inductive Machine.Breaks : Machine σ ν → Crash → Prop
  | body {s : Scheduler σ ν} {queue : List (Command σ ν)} {id : TaskId} (cause : Crash)
      {frames : List (Frame σ ν)} : Breaks ⟨s, queue, .running id (.crash cause) :: frames⟩ cause
  | clock {s : Scheduler σ ν} {queue : List (Command σ ν)} {id : TaskId} {span : ℕ}
      {next : Run σ ν} {frames : List (Frame σ ν)} :
    Instant.last < s.clock + span →
    Breaks ⟨s, queue, .running id (.elapse span next) :: frames⟩ .clockOverflow
  | deadline {s : Scheduler σ ν} {queue batch : List (Command σ ν)} {id task : TaskId}
      {timer : TimerId} {delay : ℕ} {wheel : TimerWheel TaskId} {frames : List (Frame σ ν)} :
    s.tasks.contains task → s.wheels[timer.index]? = some wheel →
    Duration.max < Instant.since s.clock wheel.epoch + delay →
    Breaks ⟨s, queue, .granting id (.setTimer task timer delay :: batch) :: frames⟩
      .durationOverflow

theorem runStep_eq_error_iff : Machine.runStep s queue id frames run = .error cause ↔
    Machine.Breaks ⟨s, queue, .running id run :: frames⟩ cause := by
  cases run with
  | crash own =>
    constructor
    · intro herror
      cases herror
      exact .body cause
    · intro hbreaks
      cases hbreaks
      rfl
  | elapse span next =>
    rw [Machine.runStep, map_eq_error_iff, Scheduler.elapse_eq_error_iff]
    constructor
    · rintro ⟨rfl, hlast⟩
      exact .clock hlast
    · intro hbreaks
      cases hbreaks with
      | clock hlast => exact ⟨rfl, hlast⟩
  | stop | note | setTimer | clearTimer | spawn => exact ⟨nofun, nofun⟩

theorem grantStep_eq_error_iff :
    Machine.grantStep c s queue (.granting id batch :: frames) command = .error cause ↔
      Machine.Breaks ⟨s, queue, .granting id (command :: batch) :: frames⟩ cause := by
  cases command with
  | setTimer task timer delay =>
    rw [Machine.grantStep, map_eq_error_iff, Scheduler.setTimer_eq_error_iff]
    constructor
    · rintro ⟨rfl, hlive, wheel, hwheel, hmax⟩
      exact .deadline hlive hwheel hmax
    · intro hbreaks
      cases hbreaks with
      | deadline hlive hwheel hmax => exact ⟨rfl, hlive, _, hwheel, hmax⟩
  | clearTimer task timer => exact ⟨nofun, nofun⟩
  | spawn task fd interest refused start =>
    refine ⟨fun herror => ?_, nofun⟩
    rw [Machine.grantStep] at herror
    split at herror <;> cases herror

theorem step_eq_error_iff : m.step c = .error cause ↔ m.Breaks cause := by
  obtain ⟨s, queue, _ | ⟨⟨id, run⟩ | ⟨id, _ | ⟨command, batch⟩⟩, frames⟩⟩ := m
  · exact ⟨nofun, nofun⟩
  · exact map_eq_error_iff.trans runStep_eq_error_iff
  · refine ⟨fun herror => ?_, nofun⟩
    rw [Machine.step] at herror
    split_ifs at herror
  · exact map_eq_error_iff.trans grantStep_eq_error_iff

end Step

/-! One task at a time. -/

/-- No frame runs but the innermost one. -/
def Machine.Alone (m : Machine σ ν) : Prop :=
  ∀ frame ∈ m.frames.tail, ∃ id batch, frame = .granting id batch

theorem Machine.Alone.moves (h : m.Alone) (hmoves : Moves c m marks m') : m'.Alone := by
  cases hmoves with
  | start => exact List.forall_mem_cons.2 ⟨⟨_, _, rfl⟩, h⟩
  | settle => exact fun frame hmem => h frame (List.mem_of_mem_tail hmem)
  | yield | note | elapse | enqueue | setTimer | clearTimer | refuse | take => exact h

theorem Machine.Alone.reaches (h : m.Alone) (hreaches : Reaches c m marks m') : m'.Alone := by
  induction hreaches with
  | refl => exact h
  | head hstep _ ih => exact ih (h.moves (moves_of_step hstep))

/-! Nothing is lost. -/

/-- The requests that have come into the queue, in order. -/
def asked (marks : List (Mark σ ν)) : List (Command σ ν) :=
  marks.filterMap fun
    | .queued command | .left command => some command
    | _ => none

/-- The requests that have been granted, in order. -/
def granted (marks : List (Mark σ ν)) : List (Command σ ν) :=
  marks.filterMap fun
    | .granted command => some command
    | _ => none

theorem asked_append (marks later : List (Mark σ ν)) :
    asked (marks ++ later) = asked marks ++ asked later := List.filterMap_append

theorem granted_append (marks later : List (Mark σ ν)) :
    granted (marks ++ later) = granted marks ++ granted later := List.filterMap_append

theorem asked_left (left : List (Command σ ν)) : asked (left.map .left) = left := by
  rw [asked, List.filterMap_map]
  exact List.filterMap_some

theorem granted_left (left : List (Command σ ν)) : granted (left.map .left) = [] := by
  rw [granted, List.filterMap_map]
  exact List.filterMap_eq_nil_iff.2 fun _ _ => rfl

/-- The requests of a frame's batch that are still to be granted. -/
def Frame.batch : Frame σ ν → List (Command σ ν)
  | running _ _ => []
  | granting _ batch => batch

def Machine.pending (m : Machine σ ν) : List (Command σ ν) := m.queue ++ m.frames.flatMap Frame.batch

theorem perm_append_right_comm {α : Type} (l l₁ l₂ : List α) :
    (l ++ l₁ ++ l₂).Perm (l ++ l₂ ++ l₁) := by
  rw [List.append_assoc, List.append_assoc]
  exact List.perm_append_comm.append_left l

theorem Moves.perm (h : Moves c m marks m') :
    (granted marks ++ m'.pending).Perm (m.pending ++ asked marks) := by
  cases h with
  | yield | note | elapse | take => simp [granted, asked, Machine.pending, Frame.batch]
  | enqueue => exact perm_append_right_comm ..
  | setTimer | clearTimer | start =>
    simpa [granted, asked, Machine.pending, Frame.batch] using List.perm_middle.symm
  | @refuse s s' queue batch id task fd interest refused start error frames =>
    show (_ :: (granted ((c.leaveStart fd start).map .left) ++ _)).Perm
      (_ ++ asked ((c.leaveStart fd start).map .left))
    rw [granted_left, asked_left, List.nil_append]
    exact List.perm_middle.symm.trans (perm_append_right_comm queue ..)
  | @settle s s' left id frames =>
    show (granted (left.map .left) ++ (left ++ frames.flatMap Frame.batch)).Perm
      (frames.flatMap Frame.batch ++ asked (left.map .left))
    rw [granted_left, asked_left, List.nil_append]
    exact List.perm_append_comm

/-- What has been granted and what is pending is what was pending at first and what has been asked
for since. -/
theorem Reaches.perm (h : Reaches c m marks m') :
    (granted marks ++ m'.pending).Perm (m.pending ++ asked marks) := by
  induction h with
  | refl m => exact List.perm_append_comm
  | @head m m' m'' marks later hstep _ ih =>
    calc granted (marks ++ later) ++ m''.pending
        = granted marks ++ (granted later ++ m''.pending) := by
          rw [granted_append, List.append_assoc]
      _ |>.Perm (granted marks ++ (m'.pending ++ asked later)) := ih.append_left _
      _ = (granted marks ++ m'.pending) ++ asked later := (List.append_assoc ..).symm
      _ |>.Perm ((m.pending ++ asked marks) ++ asked later) :=
        (moves_of_step hstep).perm.append_right _
      _ = m.pending ++ asked (marks ++ later) := by rw [asked_append, List.append_assoc]

/-! The order of things. -/

/-- What happens from the resumption of a task on until it is settled: it adds its requests, yields,
and is settled behind what happens while the queue is served (`serving`). Its end may leave
requests. -/
def resumption (id : TaskId) (requests : List (Command σ ν)) (serving : List (Mark σ ν))
    (left : List (Command σ ν)) : List (Mark σ ν) :=
  requests.map .queued ++ .yielded id :: (serving ++ .settled id :: left.map .left)

/-- The requests that are left where a request is granted in vain. -/
def Bodies.leftBy (c : Bodies σ ν) : Command σ ν → List (Command σ ν)
  | .setTimer _ _ _ | .clearTimer _ _ => []
  | .spawn _ fd _ _ start => c.leaveStart fd start

/-- The end of a stretch of `id` has brought the scheduler to `s'` and left these requests. -/
def Leaves (c : Bodies σ ν) (id : TaskId) (s' : Scheduler σ ν) (left : List (Command σ ν)) : Prop :=
  ∃ s, s' = s.settle c.toBehaviour id ∧ left = c.left id s s'

/-- What happens while a batch is granted, and behind it the queue, until both are empty: each
request is granted, in order, and a task that is started goes through its whole resumption before
the next one is. The queue is taken when the batch is empty. -/
inductive Serving (c : Bodies σ ν) :
    List (Command σ ν) → List (Command σ ν) → List (Mark σ ν) → Prop
  | done : Serving c [] [] []
  | take {command : Command σ ν} {queue : List (Command σ ν)} {marks : List (Mark σ ν)} :
    Serving c (command :: queue) [] marks → Serving c [] (command :: queue) marks
  | alone {command : Command σ ν} {batch queue : List (Command σ ν)} {marks : List (Mark σ ν)} :
    Serving c batch (queue ++ c.leftBy command) marks →
    Serving c (command :: batch) queue
      (.granted command :: ((c.leftBy command).map .left ++ marks))
  | starting {task child : TaskId} {fd : Int} {interest : Ready} {refused : List ν}
      {start : TaskId → Run σ ν} {batch queue left : List (Command σ ν)} {s : Scheduler σ ν}
      {inner marks : List (Mark σ ν)} :
    Serving c [] (queue ++ commands child (start child)) inner → Leaves c child s left →
    Serving c batch left marks →
    Serving c (.spawn task fd interest refused start :: batch) queue
      (.granted (.spawn task fd interest refused start) :: .started child ::
        (resumption child (commands child (start child)) inner left ++ marks))

/-- What happens until all of some frames are done with, and where that ends. -/
def Unwinds (c : Bodies σ ν) : List (Frame σ ν) → Scheduler σ ν → List (Command σ ν) →
    List (Mark σ ν) → Machine σ ν → Prop
  | [], s, queue, marks, m => marks = [] ∧ m = ⟨s, queue, []⟩
  | .running id run :: frames, _, queue, marks, m => ∃ s left serving later,
    Serving c [] (queue ++ commands id run) serving ∧ Leaves c id s left ∧
      marks = resumption id (commands id run) serving left ++ later ∧
      Unwinds c frames s left later m
  | .granting id batch :: frames, _, queue, marks, m => ∃ s left serving later,
    Serving c batch queue serving ∧ Leaves c id s left ∧
      marks = serving ++ .settled id :: (left.map .left ++ later) ∧ Unwinds c frames s left later m

theorem Moves.unwinds (h : Moves c m marks m')
    (hlater : Unwinds c m'.frames m'.scheduler m'.queue later m'') :
    Unwinds c m.frames m.scheduler m.queue (marks ++ later) m'' := by
  cases h with
  | yield =>
    obtain ⟨s, left, serving, later, hserving, hleaves, rfl, hrest⟩ := hlater
    exact ⟨s, left, serving, later, by simpa [commands] using hserving, hleaves,
      by simp [resumption, commands], hrest⟩
  | note | elapse =>
    obtain ⟨s, left, serving, later, hserving, hleaves, rfl, hrest⟩ := hlater
    exact ⟨s, left, serving, later, hserving, hleaves, rfl, hrest⟩
  | enqueue hcommands =>
    obtain ⟨s, left, serving, later, hserving, hleaves, rfl, hrest⟩ := hlater
    refine ⟨s, left, serving, later, ?_, hleaves, by rw [hcommands]; rfl, hrest⟩
    rw [hcommands]
    simpa using hserving
  | setTimer | clearTimer =>
    obtain ⟨s, left, serving, later, hserving, hleaves, rfl, hrest⟩ := hlater
    exact ⟨s, left, _, later, .alone (by simpa [Bodies.leftBy] using hserving), hleaves, rfl, hrest⟩
  | refuse =>
    obtain ⟨s, left, serving, later, hserving, hleaves, rfl, hrest⟩ := hlater
    exact ⟨s, left, _, later, .alone hserving, hleaves, by simp [Bodies.leftBy], hrest⟩
  | start =>
    obtain ⟨s₁, left₁, inner, later, hinner, hleaves₁, rfl, hlater⟩ := hlater
    obtain ⟨s, left, serving, later, hserving, hleaves, rfl, hrest⟩ := hlater
    exact ⟨s, left, _, later, .starting hinner hleaves₁ hserving, hleaves, by simp, hrest⟩
  | take =>
    obtain ⟨s, left, serving, later, hserving, hleaves, rfl, hrest⟩ := hlater
    exact ⟨s, left, serving, later, .take hserving, hleaves, rfl, hrest⟩
  | settle hs' hleft =>
    exact ⟨_, _, [], later, .done, ⟨_, hs', hleft⟩, rfl, hlater⟩

theorem Reaches.unwinds (h : Reaches c m marks m') (hframes : m'.frames = []) :
    Unwinds c m.frames m.scheduler m.queue marks m' := by
  induction h with
  | refl m =>
    obtain ⟨s, queue, frames⟩ := m
    cases hframes
    exact ⟨rfl, rfl⟩
  | head hstep _ ih => exact (moves_of_step hstep).unwinds (ih hframes)

/-! A computation, step by step. -/

variable {α β : Type} {x : Except Crash α} {f : α → Machine σ ν}

/-- The machine does what a computation does: it comes to what stands for its value, or to the same
crash. -/
def Carries (c : Bodies σ ν) (m : Machine σ ν) (x : Except Crash α) (f : α → Machine σ ν) : Prop :=
  (∃ a marks, x = .ok a ∧ Reaches c m marks (f a)) ∨ ∃ cause, x = .error cause ∧ Crashes c m cause

namespace Carries

theorem of_reaches (hreaches : Reaches c m marks m') (h : Carries c m' x f) : Carries c m x f := by
  obtain ⟨a, later, hx, hlater⟩ | ⟨cause, hx, hcrash⟩ := h
  · exact .inl ⟨a, _, hx, hreaches.trans hlater⟩
  · exact .inr ⟨cause, hx, hcrash.of_reaches hreaches⟩

theorem of_step (hstep : m.step c = .ok (some (marks, m'))) (h : Carries c m' x f) :
    Carries c m x f :=
  of_reaches (.single hstep) h

theorem of_crash {cause : Crash} (hstep : m.step c = .error cause) :
    Carries c m (.error cause) f :=
  .inr ⟨cause, rfl, [], m, .refl m, hstep⟩

theorem ok {a : α} (h : m = f a) : Carries c m (.ok a) f := .inl ⟨a, [], rfl, h ▸ .refl m⟩

theorem bind {g : α → Except Crash β} {f' : β → Machine σ ν} (h : Carries c m x f)
    (hg : ∀ a, Carries c (f a) (g a) f') : Carries c m (x.bind g) f' := by
  obtain ⟨a, marks, rfl, hreaches⟩ | ⟨cause, rfl, hcrash⟩ := h
  · exact of_reaches hreaches (hg a)
  · exact .inr ⟨cause, rfl, hcrash⟩

/-- The machine is deterministic, so where it ends is what it has been said to come to. -/
theorem of_end (h : Carries c m x f) (hf : ∀ a, (f a).frames = []) (hreaches : Reaches c m marks m')
    (hframes : m'.frames = []) : ∃ a, x = .ok a ∧ m' = f a := by
  obtain ⟨a, path, hx, hpath⟩ | ⟨cause, hx, path, m₁, hpath, hcrash⟩ := h
  · obtain ⟨-, rfl⟩ :=
      hpath.eq_of_halts (halts_of_frames (hf a)) hreaches (halts_of_frames hframes)
    exact ⟨a, hx, rfl⟩
  · obtain ⟨-, rfl⟩ :=
      hpath.eq_of_halts (halts_of_error hcrash) hreaches (halts_of_frames hframes)
    rw [Machine.step, hframes] at hcrash
    cases hcrash

theorem eq_error_iff (h : Carries c m x f) (hf : ∀ a, (f a).frames = []) {cause : Crash} :
    x = .error cause ↔ Crashes c m cause := by
  constructor
  · rintro rfl
    obtain ⟨a, path, hx, -⟩ | ⟨cause₁, hx, hcrash⟩ := h
    · cases hx
    · cases hx
      exact hcrash
  · rintro ⟨marks, m', hreaches, herror⟩
    obtain ⟨a, path, hx, hpath⟩ | ⟨cause₁, hx, path, m₁, hpath, hcrash⟩ := h
    · obtain ⟨-, rfl⟩ :=
        hpath.eq_of_halts (halts_of_frames (hf a)) hreaches (halts_of_error herror)
      rw [Machine.step, hf a] at herror
      cases herror
    · obtain ⟨-, rfl⟩ :=
        hpath.eq_of_halts (halts_of_error hcrash) hreaches (halts_of_error herror)
      cases hcrash.symm.trans herror
      exact hx

end Carries

/-! A scheduler's stretch, step by step. -/

variable {s s' : Scheduler σ ν} {queue : List (Command σ ν)} {id : TaskId}
  {frames : List (Frame σ ν)}

theorem Carries.enqueue {x : Except Crash (Scheduler σ ν)} {next : Run σ ν}
    (h : ∀ queue, Carries c ⟨s, queue, .running id next :: frames⟩ x fun s' =>
      ⟨s', queue ++ commands id next, .granting id [] :: frames⟩) {command : Command σ ν} :
    Carries c ⟨s, queue ++ [command], .running id next :: frames⟩ x fun s' =>
      ⟨s', queue ++ command :: commands id next, .granting id [] :: frames⟩ := by
  simpa using h (queue ++ [command])

/-- A task that runs takes its notes, adds its requests to the queue, and yields. -/
theorem carries_perform (run : Run σ ν) (s : Scheduler σ ν) (queue : List (Command σ ν)) :
    Carries c ⟨s, queue, .running id run :: frames⟩ (s.perform run) fun s' =>
      ⟨s', queue ++ commands id run, .granting id [] :: frames⟩ := by
  induction run generalizing s queue with
  | stop outcome => exact .of_step rfl (.ok (by rw [commands, List.append_nil]))
  | crash cause => exact .of_crash rfl
  | note entry next ih => exact .of_step rfl (ih _ _)
  | elapse span next ih =>
    rw [Scheduler.perform]
    cases helapse : s.elapse span with
    | error cause => exact .of_crash (by simp only [Machine.step, Machine.runStep, helapse]; rfl)
    | ok s' =>
      exact .of_step (by simp only [Machine.step, Machine.runStep, helapse]; rfl) (ih s' queue)
  | setTimer timer delay next ih | clearTimer timer next ih | spawn _ _ _ _ next _ ih =>
    exact .of_step rfl (Carries.enqueue (ih s))

theorem left_silent (b : Behaviour σ ν) (id : TaskId) (s s' : Scheduler σ ν) :
    (Bodies.silent b).left id s s' = [] := by
  rw [Bodies.left]
  cases s.tasks.get? id with
  | none => rfl
  | some task =>
    show (if _ then [] else (task.outcome.owner?.map fun _ => []).getD []) = _
    cases task.outcome.owner? <;> simp

/-- A stretch is carried out if its requests are granted. -/
theorem carries_drive_of {run : Run σ ν}
    (hgrant : ∀ s, Carries b ⟨s, [], .granting id (commands id run) :: frames⟩ (s.grant b id run)
      fun s' => ⟨s', [], .granting id [] :: frames⟩) (s : Scheduler σ ν) :
    Carries b ⟨s, [], .running id run :: frames⟩ (s.drive b id run) fun s' => ⟨s', [], frames⟩ := by
  refine (carries_perform run s []).bind fun s₁ => ?_
  -- An empty queue is not taken: the batch that has been granted is the last one already.
  have htake : Reaches b ⟨s₁, [] ++ commands id run, .granting id [] :: frames⟩ []
      ⟨s₁, [], .granting id (commands id run) :: frames⟩ := by
    cases hcommands : commands id run with
    | nil => exact .refl _
    | cons command batch => exact .single rfl
  have hmap : (s₁.grant b id run).map (fun s => s.settle b id) =
      (s₁.grant b id run).bind fun s => .ok (s.settle b id) := by
    cases s₁.grant b id run <;> rfl
  rw [hmap]
  refine .of_reaches htake ((hgrant s₁).bind fun s₂ => .of_step rfl (.ok ?_))
  show (⟨s₂.settle b id, (Bodies.silent b).left id _ _, frames⟩ : Machine σ ν) = _
  rw [left_silent]

theorem grant_spawn (b : Behaviour σ ν) (id : TaskId) (fd : Int) (interest : Ready)
    (refused : List ν) (start : TaskId → Run σ ν) (next : Run σ ν) (s : Scheduler σ ν) :
    s.grant b id (.spawn fd interest refused start next) =
      match s.enrol fd interest start with
      | (s, .error _) => (s.recordNotes refused).grant b id next
      | (s, .ok child) => (s.drive b child (start child)).bind fun s => s.grant b id next := by
  rw [Scheduler.grant]
  rcases s.enrol fd interest start with ⟨s₁, error | child⟩
  · rfl
  · simp only [Scheduler.drive]
    cases hperform : s₁.perform (start child) with
    | error cause => rfl
    | ok s₂ =>
      simp only [Except.bind]
      cases s₂.grant b child (start child) <;> rfl

/-- A batch is granted request by request. -/
theorem carries_grant (run : Run σ ν) (s : Scheduler σ ν) (id owner : TaskId)
    (rest : List (Command σ ν)) (frames : List (Frame σ ν)) :
    Carries b ⟨s, [], .granting owner (commands id run ++ rest) :: frames⟩ (s.grant b id run)
      fun s' => ⟨s', [], .granting owner rest :: frames⟩ := by
  induction run generalizing s id owner rest frames with
  | stop outcome | crash cause => exact .ok rfl
  | note entry next ih | elapse span next ih => exact ih s id owner rest frames
  | setTimer timer delay next ih =>
    rw [Scheduler.grant, commands, List.cons_append]
    cases harm : s.setTimer timer id delay with
    | error cause => exact .of_crash (by simp only [Machine.step, Machine.grantStep, harm]; rfl)
    | ok armed =>
      exact .of_step (by simp only [Machine.step, Machine.grantStep, harm]; rfl)
        (ih armed.1 id owner rest frames)
  | clearTimer timer next ih => exact .of_step rfl (ih _ id owner rest frames)
  | spawn fd interest refused start next ihstart ih =>
    rw [grant_spawn, commands, List.cons_append]
    cases henrol : s.enrol fd interest start with
    | mk s₁ answer =>
      cases answer with
      | error error =>
        exact .of_step (by simp only [Machine.step, Machine.grantStep, henrol]; rfl)
          (ih (s₁.recordNotes refused) id owner rest frames)
      | ok child =>
        -- The new task runs on top of this frame with the queue empty, and leaves it so.
        have hdrive : Carries b
            ⟨s₁, [], .running child (start child) :: .granting owner (commands id next ++ rest) ::
              frames⟩
            (s₁.drive b child (start child)) fun s' =>
              ⟨s', [], .granting owner (commands id next ++ rest) :: frames⟩ := by
          refine carries_drive_of (fun s => ?_) s₁
          have hgrant := ihstart child s child child []
            (.granting owner (commands id next ++ rest) :: frames)
          rwa [List.append_nil] at hgrant
        exact .of_step (by simp only [Machine.step, Machine.grantStep, henrol]; rfl)
          (hdrive.bind fun s₂ => ih s₂ id owner rest frames)

theorem carries_drive (run : Run σ ν) (s : Scheduler σ ν) (id : TaskId)
    (frames : List (Frame σ ν)) :
    Carries b ⟨s, [], .running id run :: frames⟩ (s.drive b id run) fun s' =>
      ⟨s', [], frames⟩ := by
  refine carries_drive_of (fun s => ?_) s
  have hgrant := carries_grant (b := b) run s id id [] frames
  rwa [List.append_nil] at hgrant

/-- A resumption is over: the requests of the stretch, and those that were in the queue before, have
been granted in order, and what is in the queue now has been left by its end. -/
def Served (c : Bodies σ ν) (id : TaskId) (run : Run σ ν) (queue : List (Command σ ν))
    (marks : List (Mark σ ν)) (m : Machine σ ν) : Prop :=
  ∃ serving, Serving c [] (queue ++ commands id run) serving ∧
    marks = resumption id (commands id run) serving m.queue ∧ Leaves c id m.scheduler m.queue

/-- Whatever a task does in a stretch, whichever tasks it starts and whatever they leave behind, at
every moment nobody runs but the innermost task, and each request that was in the queue or has come
into it is pending or has been granted, once. When the resumption is over the requests of each task
have been granted in the order in which it has queued them, behind its yielding and before it is
settled, and those of a task that is started, with all that come of them, before the next one; but
the queue holds what the task has left by its end. A step can crash, and then what is pending is
never granted. If nobody leaves requests, this is what a scheduler does that carries out a stretch as
a whole, and the queue is empty at the end unless there is a crash. -/
theorem served_of_reaches (c : Bodies σ ν) (id : TaskId) (run : Run σ ν) (s : Scheduler σ ν)
    (queue : List (Command σ ν)) :
    (∀ marks m, Reaches c ⟨s, queue, [.running id run]⟩ marks m →
      m.Alone ∧ (granted marks ++ m.pending).Perm (queue ++ asked marks) ∧
        (m.frames = [] → Served c id run queue marks m) ∧
        ∀ cause, m.step c = .error cause ↔ m.Breaks cause) ∧
    ∀ b : Behaviour σ ν,
      (∀ s', s.drive b id run = .ok s' ↔
        ∃ marks, Reaches b ⟨s, [], [.running id run]⟩ marks ⟨s', [], []⟩) ∧
      ∀ cause, s.drive b id run = .error cause ↔
        ∃ marks m, Reaches b ⟨s, [], [.running id run]⟩ marks m ∧ m.Breaks cause := by
  refine ⟨fun marks m hreaches => ⟨?_, ?_, fun hend => ?_, fun _ => step_eq_error_iff⟩,
    fun b => ⟨fun s' => ⟨fun hs' => ?_, ?_⟩, fun cause => ?_⟩⟩
  · exact Machine.Alone.reaches (by simp [Machine.Alone]) hreaches
  · simpa [Machine.pending, Frame.batch] using hreaches.perm
  · obtain ⟨s', left, serving, later, hserving, hleaves, hmarks, rfl, rfl⟩ :=
      hreaches.unwinds hend
    exact ⟨serving, hserving, by rw [hmarks, List.append_nil], hleaves⟩
  · obtain ⟨s₁, marks, hdrive, hreaches⟩ | ⟨cause, hdrive, -⟩ := carries_drive (b := b) run s id []
    · cases hdrive.symm.trans hs'
      exact ⟨marks, hreaches⟩
    · cases hdrive.symm.trans hs'
  · rintro ⟨marks, hreaches⟩
    obtain ⟨s₁, hdrive, heq⟩ :=
      (carries_drive (b := b) run s id []).of_end (fun _ => rfl) hreaches rfl
    cases heq
    exact hdrive
  · rw [(carries_drive (b := b) run s id []).eq_error_iff fun _ => rfl]
    simp only [Crashes, step_eq_error_iff]

/-- A stretch that starts a task and then disarms its own; the task that it starts arms itself. -/
def spawningRun : Run Unit Unit :=
  .spawn 5 .readable [] (fun _ => .setTimer ⟨0⟩ 3 (.stop (.parked ())))
    (.clearTimer ⟨0⟩ (.stop (.parked ())))

/-- A scheduler about to carry out that stretch, as the first one of its only task. -/
def spawningScheduler : Scheduler Unit Unit :=
  (Scheduler.enrol {} 4 .readable fun _ => spawningRun).1

theorem exists_marks_spawningRun :
    ∃ s marks, spawningScheduler.drive returning ⟨0, 0⟩ spawningRun = .ok s ∧
      Reaches returning ⟨spawningScheduler, [], [.running ⟨0, 0⟩ spawningRun]⟩ marks ⟨s, [], []⟩ ∧
      Served returning ⟨0, 0⟩ spawningRun [] marks ⟨s, [], []⟩ ∧
      (granted marks).Perm (asked marks) := by
  obtain ⟨hreached, hdrive⟩ :=
    served_of_reaches (Bodies.silent returning) ⟨0, 0⟩ spawningRun spawningScheduler []
  obtain ⟨s, hs⟩ : ∃ s, spawningScheduler.drive returning ⟨0, 0⟩ spawningRun = .ok s := ⟨_, rfl⟩
  obtain ⟨marks, hreaches⟩ := ((hdrive returning).1 s).1 hs
  obtain ⟨-, hperm, hserved, -⟩ := hreached marks _ hreaches
  refine ⟨s, marks, hs, hreaches, hserved rfl, ?_⟩
  simpa [Machine.pending] using hperm

/-- A stretch that asks for the longest deadline, and then for another task. -/
def overlongRun : Run Unit Unit :=
  .setTimer ⟨0⟩ Duration.max
    (.spawn 4 .readable [] (fun _ => .stop (.blocked .readable ())) (.stop (.blocked .readable ())))

/-- Tasks that own something which clears a deadline when it is let go of. -/
def guarding : Bodies Unit Unit :=
  { Bodies.silent returning with leave := fun id _ => [.clearTimer id ⟨0⟩] }

/-- The requests of a task are lost if the deadline that it asks for has no sum with the time since
the epoch of a wheel. And what a task owns that asks to be ended may leave a request, which is in the
queue when the resumption is over. -/
theorem exists_unserved :
    (∃ s s' marks m, belated = .ok s ∧
      s.enrol 3 .readable (fun _ => overlongRun) = (s', .ok ⟨0, 0⟩) ∧
      Reaches returning ⟨s', [], [.running ⟨0, 0⟩ overlongRun]⟩ marks m ∧
      m.step returning = .error .durationOverflow ∧
      asked marks = commands ⟨0, 0⟩ overlongRun ∧ granted marks = []) ∧
    ∃ s s' marks, Scheduler.enrol {} 3 .readable (fun _ => .stop (.exited ())) = (s, .ok ⟨0, 0⟩) ∧
      Reaches guarding ⟨s, [], [.running ⟨0, 0⟩ (.stop (.exited ()))]⟩ marks
        ⟨s', [.clearTimer ⟨0, 0⟩ ⟨0⟩], []⟩ ∧ granted marks = [] := by
  constructor
  · exact ⟨_, _, _, _, rfl, rfl,
      .head rfl (.head rfl (.head rfl (.head rfl (.refl _)))), rfl, rfl, rfl⟩
  · exact ⟨_, _, _, rfl, .head rfl (.head rfl (.refl _)), rfl⟩

end CoopHttp.Queue
