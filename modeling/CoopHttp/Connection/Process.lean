import CoopHttp.Connection.Progress
import CoopHttp.Task

/-!
# Connections as tasks

A connection runs as the task of its descriptor. Entering a phase arms the task for the phase's
deadline, and leaving the phase disarms it, so waiting within a phase moves no deadline.
-/
namespace CoopHttp

structure Service (η : Type) where
  handler : Handler η
  deadlines : Deadlines := {}

namespace Connection

variable {η : Type}

/-- A stretch of a connection's task. A note carries the descriptor it is about. -/
abbrev Stretch (η : Type) := Run (Connection η) (Int × Note)

/-- Arms the task for a deadline, if there is one. -/
def arm (deadline : Option Deadline) (next : Stretch η) : Stretch η :=
  match deadline with
  | none => next
  | some d => .setTimer d.timer d.delay next

/-- Disarms the task for a deadline, if there is one. -/
def disarm (deadline : Option Deadline) (next : Stretch η) : Stretch η :=
  match deadline with
  | none => next
  | some d => .clearTimer d.timer next

/-- The end of a connection: the phase is left and the socket closed. -/
def ending (service : Service η) (fd : Int) (c : Connection η) (result : Except HttpError Unit) :
    Stretch η :=
  disarm (c.deadline service.deadlines)
    (.note (fd, .closed) (.note (fd, .ended result) (.stop .completed)))

/-- Goes on until the connection has to wait or comes to its end. -/
def proceed (service : Service η) (fd : Int) (c : Connection η) : Stretch η :=
  let noted (notes : List Note) (next : Stretch η) : Stretch η :=
    .noteAll (notes.map fun entry => (fd, entry)) next
  match _h : c.step service.handler with
  | (notes, .stay d) => noted notes (proceed service fd d)
  | (notes, .enter d) =>
    noted notes (disarm (c.deadline service.deadlines)
      (arm (d.deadline service.deadlines) (proceed service fd d)))
  | (notes, .wait wanted d) => noted notes (.stop (.blocked wanted d))
  | (notes, .finish result) => noted notes (ending service fd c result)
  | (notes, .crash cause) => noted notes (.crash cause)
termination_by c.effort
decreasing_by
  all_goals exact effort_step_lt (by rw [_h]; rfl)

def start (service : Service η) (fd : Int) (c : Connection η) : Stretch η :=
  arm (c.deadline service.deadlines) (proceed service fd c)

/-- The stretch after a wake. A deadline that has expired ends the connection. -/
def resume (service : Service η) (context : TaskContext) (wake : Wake) (c : Connection η) :
    Stretch η :=
  match wake with
  | .io _ => proceed service context.fd c
  | .timer timer => ending service context.fd c (.error (c.failure (.timeout timer)))

/-- What the tasks of connections do. One that is ended from outside closes its socket. -/
def behaviour (service : Service η) : Behaviour (Connection η) (Int × Note) :=
  ⟨resume service, fun fd _ => [(fd, .closed)]⟩

end Connection

end CoopHttp
