import CoopHttp.Scheduler.Basic

/-!
# One queue for all requests

The tasks of a scheduler share one queue of requests. A task that runs adds to it, and once it has
yielded the queue is taken as a batch, whose requests are granted one after the other; a task that is
started meanwhile adds to the same queue, and its requests are taken as another batch before the
first one goes on. What a task owns may add requests as well, when it is let go of. Here this is a
machine that takes one small step at a time. A scheduler that carries out a stretch as a whole goes
without the queue, which is possible for tasks that leave no requests behind.
-/
namespace CoopHttp.Queue

variable {σ ν : Type}

/-- A request in the queue, and the task that has added it. -/
inductive Command (σ ν : Type)
  | setTimer (task : TaskId) (timer : TimerId) (delay : Nat)
  | clearTimer (task : TaskId) (timer : TimerId)
  | spawn (task : TaskId) (fd : Int) (interest : Ready) (refused : List ν)
      (start : TaskId → Run σ ν)

/-- The requests of a stretch of the task `id`, in order. -/
def commands (id : TaskId) : Run σ ν → List (Command σ ν)
  | .stop _ | .crash _ => []
  | .note _ next | .elapse _ next => commands id next
  | .setTimer timer delay next => .setTimer id timer delay :: commands id next
  | .clearTimer timer next => .clearTimer id timer :: commands id next
  | .spawn fd interest refused start next =>
    .spawn id fd interest refused start :: commands id next

/-- What tasks do, and which requests they leave behind. -/
structure Bodies (σ ν : Type) extends Behaviour σ ν where
  /-- The requests of a task that is ended from outside and lets go of what it owns. -/
  leave : TaskId → σ → List (Command σ ν)
  /-- The requests of a task that could not be started on a descriptor. -/
  leaveStart : Int → (TaskId → Run σ ν) → List (Command σ ν)

namespace Bodies

/-- The tasks leave no requests. -/
def silent (b : Behaviour σ ν) : Bodies σ ν :=
  { b with leave := fun _ _ => [], leaveStart := fun _ _ => [] }

attribute [coe] silent

instance : Coe (Behaviour σ ν) (Bodies σ ν) := ⟨silent⟩

/-- The requests left by a task that was live in `s` and is not in `s'`. -/
def left (c : Bodies σ ν) (id : TaskId) (s s' : Scheduler σ ν) : List (Command σ ν) :=
  match s.tasks.get? id with
  | none => []
  | some task =>
    if s'.tasks.contains id then [] else (task.outcome.owner?.map (c.leave id)).getD []

end Bodies

/-- Where a task stands that has been resumed: it runs, or it has yielded and a batch of the queue
is being granted. -/
inductive Frame (σ ν : Type)
  | running (id : TaskId) (run : Run σ ν)
  | granting (id : TaskId) (batch : List (Command σ ν))

/-- A scheduler at work. The innermost frame comes first. -/
structure Machine (σ ν : Type) where
  scheduler : Scheduler σ ν
  queue : List (Command σ ν)
  frames : List (Frame σ ν)

/-- What happens to requests and to the tasks that have been resumed. -/
inductive Mark (σ ν : Type)
  | queued (command : Command σ ν)
  /-- A request comes into the queue by what is let go of. -/
  | left (command : Command σ ν)
  | yielded (id : TaskId)
  | granted (command : Command σ ν)
  | started (id : TaskId)
  /-- The task's interest is reconciled, or the task is ended. -/
  | settled (id : TaskId)

namespace Machine

def runStep (s : Scheduler σ ν) (queue : List (Command σ ν)) (id : TaskId)
    (frames : List (Frame σ ν)) : Run σ ν → Except Crash (List (Mark σ ν) × Machine σ ν)
  | .stop _ => .ok ([.yielded id], ⟨s, queue, .granting id [] :: frames⟩)
  | .crash cause => .error cause
  | .note entry next => .ok ([], ⟨s.record (.note entry), queue, .running id next :: frames⟩)
  | .elapse span next =>
    (s.elapse span).map fun s => ([], ⟨s, queue, .running id next :: frames⟩)
  | .setTimer timer delay next => enqueue (.setTimer id timer delay) next
  | .clearTimer timer next => enqueue (.clearTimer id timer) next
  | .spawn fd interest refused start next => enqueue (.spawn id fd interest refused start) next
where
  enqueue (command : Command σ ν) (next : Run σ ν) :
      Except Crash (List (Mark σ ν) × Machine σ ν) :=
    .ok ([.queued command], ⟨s, queue ++ [command], .running id next :: frames⟩)

/-- Grants a request; `frames` are what is to be done behind it. A task that is started runs at
once. -/
def grantStep (c : Bodies σ ν) (s : Scheduler σ ν) (queue : List (Command σ ν))
    (frames : List (Frame σ ν)) : Command σ ν → Except Crash (List (Mark σ ν) × Machine σ ν)
  | .setTimer task timer delay => (s.setTimer timer task delay).map fun (s, _) =>
    ([.granted (.setTimer task timer delay)], ⟨s, queue, frames⟩)
  | .clearTimer task timer =>
    .ok ([.granted (.clearTimer task timer)], ⟨(s.clearTimer timer task).1, queue, frames⟩)
  | .spawn task fd interest refused start =>
    let granted := .granted (.spawn task fd interest refused start)
    match s.enrol fd interest start with
    | (s, .error _) =>
      let left := c.leaveStart fd start
      .ok (granted :: left.map .left, ⟨s.recordNotes refused, queue ++ left, frames⟩)
    | (s, .ok child) =>
      .ok ([granted, .started child], ⟨s, queue, .running child (start child) :: frames⟩)

/-- One step, and what happens in it; there is none when the last task has been settled. A batch
that has been granted is followed by another one, unless the queue is empty. -/
def step (c : Bodies σ ν) (m : Machine σ ν) :
    Except Crash (Option (List (Mark σ ν) × Machine σ ν)) :=
  match m.frames with
  | [] => .ok none
  | .running id run :: frames => (runStep m.scheduler m.queue id frames run).map some
  | .granting id (command :: batch) :: frames =>
    (grantStep c m.scheduler m.queue (.granting id batch :: frames) command).map some
  | .granting id [] :: frames =>
    if m.queue.isEmpty then
      let s := m.scheduler.settle c.toBehaviour id
      let left := c.left id m.scheduler s
      .ok (some (.settled id :: left.map .left, ⟨s, m.queue ++ left, frames⟩))
    else .ok (some ([], ⟨m.scheduler, [], .granting id m.queue :: frames⟩))

end Machine

end CoopHttp.Queue
