import CoopHttp.Interest
import CoopHttp.Scheduler.Poller
import CoopHttp.Task
import CoopHttp.TimerWheel

/-!
# Scheduler

A scheduler owns tasks, the descriptors they belong to, and timer wheels. It keeps a log of every
call to the poller, of every wake, and of the notes that tasks take.

A stretch of a task is carried out in three steps: its notes and the time it takes (`perform`), the
requests it leaves (`grant`), and what its end means for the task (`settle`). A task started by a
request goes through its own three steps at that point, before the next request.
-/
namespace CoopHttp

structure Task (σ : Type) where
  fd : Int
  /-- The interest that a task has while it waits for nothing in particular. -/
  base : Ready
  interest : Interest
  /-- The readiness of the last event, with the error conditions seen before it. -/
  ready : Ready
  /-- The error conditions seen so far. -/
  errors : Ready
  /-- How the last stretch ended. -/
  outcome : Outcome σ
  /-- The wait that was begun last and has not ended. It is kept for what is said of the task; the
  scheduler goes by the interest. -/
  standing : Option Ready
  deriving DecidableEq

namespace Task

variable {σ : Type}

/-- The task as its next stretch leaves it. -/
def after (task : Task σ) (outcome : Outcome σ) : Task σ :=
  { task with outcome, standing := outcome.lastStep.standing task.standing }

/-- The interest that the last stretch has left. A wait sets it when it begins and puts it back when
it ends; what is dropped in between puts nothing back. -/
def wanted (task : Task σ) : Ready :=
  match task.outcome.lastStep with
  | .untouched => task.interest.current
  | .began wanted => wanted ||| (.errors &&& ~~~task.errors)
  | .ended => task.base

end Task

structure Settings where
  /-- The longest wait of one poll. -/
  pollTimeout : Nat := Duration.ofMilliseconds 10
  /-- The most events of one poll. -/
  maxEvents : Nat := 8192
  deriving DecidableEq, Repr

/-- What a scheduler logs. Calls to the poller are logged with their failure, if they fail. -/
inductive Event (ν : Type)
  | added (fd : Int) (interest : Ready) (failure : Option IoError)
  | modified (fd : Int) (interest : Ready) (failure : Option IoError)
  | deleted (fd : Int) (failure : Option IoError)
  | polled (maxEvents timeout : Nat)
  | woken (task : TaskId) (wake : Wake)
  | note (entry : ν)
  deriving DecidableEq, Repr

/-- A scheduler of tasks whose states are of type `σ` and whose notes are of type `ν`. -/
structure Scheduler (σ ν : Type) where
  settings : Settings := {}
  /-- The calls that the poller will refuse. -/
  refusals : List Poller.Refusal := []
  tasks : Arena (Task σ) := {}
  /-- The task of every watched descriptor. -/
  owners : List (Int × TaskId) := []
  wheels : List (TimerWheel TaskId) := []
  clock : Int := 0
  /-- What has been logged, the last event first. -/
  history : List (Event ν) := []

namespace Scheduler

variable {σ ν : Type}

def log (s : Scheduler σ ν) : List (Event ν) := s.history.reverse

def record (s : Scheduler σ ν) (event : Event ν) : Scheduler σ ν :=
  { s with history := event :: s.history }

def recordNotes (s : Scheduler σ ν) (entries : List ν) : Scheduler σ ν :=
  { s with history := (entries.map .note).reverse ++ s.history }

def callPoller (s : Scheduler σ ν) (call : Poller.Call) (fd : Int)
    (event : Option IoError → Event ν) : Scheduler σ ν × Option IoError :=
  let (refusals, failure) := Poller.answer call fd s.refusals
  ({ s with refusals }.record (event failure), failure)

def elapse (s : Scheduler σ ν) (span : Nat) : Except Crash (Scheduler σ ν) :=
  match Instant.add? s.clock span with
  | some clock => .ok { s with clock }
  | none => .error .clockOverflow

/-! ### Timers -/

/-- Adds a timer wheel that covers `horizon` from now on. -/
def addTimer (s : Scheduler σ ν) (horizon granularity : Nat) :
    Except Crash (Scheduler σ ν × TimerId) :=
  (TimerWheel.withEpoch horizon granularity s.clock).map fun wheel =>
    ({ s with wheels := s.wheels ++ [wheel] }, ⟨s.wheels.length⟩)

/-- Arms a live task on a wheel, `delay` from now; `false` if there is no such task or wheel. -/
def setTimer (s : Scheduler σ ν) (timer : TimerId) (task : TaskId) (delay : Nat) :
    Except Crash (Scheduler σ ν × Bool) :=
  if s.tasks.contains task then
    match s.wheels[timer.index]? with
    | none => .ok (s, false)
    | some wheel => (wheel.insertAt s.clock delay task).map fun wheel =>
      ({ s with wheels := s.wheels.set timer.index wheel }, true)
  else .ok (s, false)

/-- Disarms a task on a wheel; `false` if it was not armed. -/
def clearTimer (s : Scheduler σ ν) (timer : TimerId) (task : TaskId) : Scheduler σ ν × Bool :=
  match s.wheels[timer.index]? with
  | none => (s, false)
  | some wheel =>
    let (wheel, was) := wheel.remove task
    ({ s with wheels := s.wheels.set timer.index wheel }, was)

/-! ### Tasks -/

def owner? (s : Scheduler σ ν) (fd : Int) : Option TaskId := s.owners.lookup fd

def modifyTask (s : Scheduler σ ν) (id : TaskId) (f : Task σ → Task σ) : Scheduler σ ν :=
  { s with tasks := s.tasks.modify id f }

/-- Gives a new task its descriptor, with error conditions always wanted. The task is in the
condition that its first stretch will end in. -/
def enrol (s : Scheduler σ ν) (fd : Int) (interest : Ready) (start : TaskId → Run σ ν) :
    Scheduler σ ν × Except IoError TaskId :=
  match s.owner? fd with
  | some _ => (s, .error (.descriptorTaken fd))
  | none =>
    let base := interest ||| .errors
    match s.callPoller .add fd (.added fd base) with
    | (s, some error) => (s, .error error)
    | (s, none) =>
      let (tasks, id) := s.tasks.insertWith fun id =>
        let outcome := (start id).outcome
        ⟨fd, base, .ofApplied base, .empty, .empty, outcome, outcome.lastStep.standing none⟩
      ({ s with tasks, owners := (fd, id) :: s.owners }.record (.woken id (.io .empty)), .ok id)

/-- Ends a task: it is disarmed everywhere, its descriptor is watched no longer, and then it lets go
of what it owned. -/
def terminate (b : Behaviour σ ν) (s : Scheduler σ ν) (id : TaskId) : Scheduler σ ν :=
  match s.tasks.remove id with
  | (_, none) => s
  | (tasks, some task) =>
    let wheels := s.wheels.map fun wheel => (wheel.remove id).1
    let s : Scheduler σ ν := { s with tasks, wheels }
    let s :=
      if s.owner? task.fd = some id then
        { s with owners := s.owners.filter (·.1 ≠ task.fd) }.callPoller .delete task.fd
          (.deleted task.fd) |>.1
      else s
    s.recordNotes ((task.outcome.owner?.map (b.release task.fd)).getD [])

/-- Tells the poller what a suspended task wants, if it was told something else: the task's wish,
less the error conditions it has been told of. A task whose wish is refused is ended. -/
def reconcile (b : Behaviour σ ν) (s : Scheduler σ ν) (id : TaskId) (task : Task σ)
    (wish : Ready) : Scheduler σ ν :=
  let (interest, change) := ((task.interest.set wish).disable task.errors).sync
  let s := s.modifyTask id fun task => { task with interest }
  match change with
  | none => s
  | some applied =>
    match s.callPoller .modify task.fd (.modified task.fd applied) with
    | (s, none) => s
    | (s, some _) => s.terminate b id

/-- Does what the end of a stretch asks for. -/
def settle (b : Behaviour σ ν) (s : Scheduler σ ν) (id : TaskId) : Scheduler σ ν :=
  match s.tasks.get? id with
  | none => s
  | some task =>
    match task.outcome.suspended? with
    | none => s.terminate b id
    | some _ => s.reconcile b id task task.wanted

/-- Takes the notes of a stretch and lets its time pass. -/
def perform : Run σ ν → Scheduler σ ν → Except Crash (Scheduler σ ν)
  | .stop _, s => .ok s
  | .crash cause, _ => .error cause
  | .note entry next, s => perform next (s.record (.note entry))
  | .elapse span next, s => (s.elapse span).bind (perform next)
  | .setTimer _ _ next, s | .clearTimer _ next, s | .spawn _ _ _ _ next, s => perform next s

/-- Grants the requests of a stretch of the task `id`, in order. -/
def grant (b : Behaviour σ ν) (id : TaskId) : Run σ ν → Scheduler σ ν → Except Crash (Scheduler σ ν)
  | .stop _, s | .crash _, s => .ok s
  | .note _ next, s | .elapse _ next, s => grant b id next s
  | .setTimer timer delay next, s =>
    (s.setTimer timer id delay).bind fun (s, _) => grant b id next s
  | .clearTimer timer next, s => grant b id next (s.clearTimer timer id).1
  | .spawn fd interest refused start next, s =>
    match s.enrol fd interest start with
    | (s, .error _) => grant b id next (s.recordNotes refused)
    | (s, .ok child) =>
      (perform (start child) s).bind fun s =>
      (grant b child (start child) s).bind fun s => grant b id next (s.settle b child)

/-- Carries out a stretch of a task whose condition says already how the stretch ends. -/
def drive (b : Behaviour σ ν) (id : TaskId) (run : Run σ ν) (s : Scheduler σ ν) :
    Except Crash (Scheduler σ ν) :=
  (perform run s).bind fun s => (grant b id run s).map fun s => s.settle b id

/-- Starts a task, which runs at once up to its first suspension. -/
def spawn (b : Behaviour σ ν) (s : Scheduler σ ν) (fd : Int) (interest : Ready) (refused : List ν)
    (start : TaskId → Run σ ν) : Except Crash (Scheduler σ ν × Except IoError TaskId) :=
  match s.enrol fd interest start with
  | (s, .error error) => .ok (s.recordNotes refused, .error error)
  | (s, .ok id) => (s.drive b id (start id)).map fun s => (s, .ok id)

end Scheduler

end CoopHttp
