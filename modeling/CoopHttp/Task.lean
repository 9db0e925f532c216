import CoopHttp.Arena
import CoopHttp.Crash
import CoopHttp.Message.Error
import CoopHttp.Ready

/-!
# Tasks

A task belongs to one descriptor and is run in stretches, each from a wake to the next suspension.
A stretch is a finite tree of effects (`Run`); what lies between two stretches is a state of any
type, so a task may go on for ever. A stretch that starts another task carries the first stretch of
that task in it: chains of tasks that start tasks are finite, whatever the tasks are.
-/
namespace CoopHttp

inductive Wake
  /-- Its descriptor is ready; error conditions seen earlier are included. -/
  | io (ready : Ready)
  /-- Its deadline on a timer wheel has expired. -/
  | timer (wheel : TimerId)
  deriving DecidableEq, Repr

/-- What a wake means to a task that waits: readiness, or a deadline that has expired. -/
def Wake.result : Wake → Except TaskError Ready
  | io ready => .ok ready
  | timer wheel => .error (.timeout wheel)

/-- What a stretch does last with a wait of its task. -/
inductive WaitStep
  /-- It begins none and brings none to its end. -/
  | untouched
  | began (wanted : Ready)
  | ended
  deriving DecidableEq, Repr

/-- The wait that was begun last and has not ended; it may have been dropped. -/
def WaitStep.standing : WaitStep → Option Ready → Option Ready
  | untouched, before => before
  | began wanted, _ => some wanted
  | ended, _ => none

/-- How a stretch ends; `σ` is the type of the states of suspended tasks. -/
inductive Outcome (σ : Type)
  /-- Waits for readiness, in the wait that it has just begun. -/
  | blocked (wanted : Ready) (state : σ)
  /-- Waits for whatever wakes it; every wait that it has begun has ended. -/
  | parked (state : σ)
  /-- Waits for whatever wakes it, in any number of waits. Some may have been dropped. -/
  | adrift (last : WaitStep) (waits : List Ready) (state : σ)
  /-- Asks to be ended, and still owns what it owned. -/
  | exited (state : σ)
  /-- Has returned and owns nothing any more. -/
  | completed
  deriving DecidableEq, Repr

namespace Outcome

variable {σ : Type}

/-- The state that a task in this condition goes on from. -/
def suspended? : Outcome σ → Option σ
  | blocked _ state | parked state | adrift _ _ state => some state
  | exited _ | completed => none

/-- The state that still owns something. -/
def owner? : Outcome σ → Option σ
  | blocked _ state | parked state | adrift _ _ state | exited state => some state
  | completed => none

def lastStep : Outcome σ → WaitStep
  | blocked wanted _ => .began wanted
  | parked _ => .ended
  | adrift last _ _ => last
  | exited _ | completed => .untouched

/-- The waits that a task in this condition is in. -/
def waits : Outcome σ → List Ready
  | blocked wanted _ => [wanted]
  | adrift _ waits _ => waits
  | parked _ | exited _ | completed => []

end Outcome

/-- One stretch of a task: its effects in order, and how it ends. Notes and the passing of time take
effect at once. Deadlines and new tasks are requests, granted when the stretch is over. `ν` is the
type of notes. -/
inductive Run (σ ν : Type)
  | stop (outcome : Outcome σ)
  | crash (cause : Crash)
  | note (entry : ν) (next : Run σ ν)
  | elapse (span : Nat) (next : Run σ ν)
  | setTimer (timer : TimerId) (delay : Nat) (next : Run σ ν)
  | clearTimer (timer : TimerId) (next : Run σ ν)
  /-- Starts a task with the stretch `start`; a task that cannot be started leaves the notes
  `refused`. -/
  | spawn (fd : Int) (interest : Ready) (refused : List ν) (start : TaskId → Run σ ν)
      (next : Run σ ν)

namespace Run

variable {σ ν : Type}

/-- How the stretch ends, if it does not crash. -/
def outcome : Run σ ν → Outcome σ
  | stop outcome => outcome
  | crash _ => .completed
  | note _ next | elapse _ next | setTimer _ _ next | clearTimer _ next | spawn _ _ _ _ next =>
    next.outcome

def noteAll (entries : List ν) (next : Run σ ν) : Run σ ν := entries.foldr note next

end Run

/-- What a task knows when it is woken: its handle, its descriptor, the last readiness of that, and
all error conditions seen on it. -/
structure TaskContext where
  id : TaskId
  fd : Int
  ready : Ready
  errors : Ready
  deriving DecidableEq, Repr

structure Behaviour (σ ν : Type) where
  /-- The stretch after a wake. -/
  resume : TaskContext → Wake → σ → Run σ ν
  /-- What is noted when a task is ended from outside and lets go of what it owns. -/
  release : Int → σ → List ν

end CoopHttp
