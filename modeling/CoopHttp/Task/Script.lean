import CoopHttp.Socket
import CoopHttp.Task

/-!
# Scripted tasks

A small language of task bodies: each step waits, transfers octets over the task's own socket, or
asks the scheduler for something, and notes what came of it. A step that has to wait is tried again
when the task is woken by its descriptor, and is given up when a deadline wakes it. A loop is worked
out round by round, and no further than to the next wait.
-/
namespace CoopHttp.Task.Script

inductive Step
  | wait (wanted : Ready)
  | read (size : Nat)
  | write (data : Bytes)
  | writeAll (data : Bytes)
  | setTimer (timer : TimerId) (delay : Nat)
  | clearTimer (timer : TimerId)
  | spawn (fd : Int) (interest : Ready) (socket : Socket) (body : List Step)
  /-- Asks to be ended. -/
  | exit
  /-- Returns. -/
  | finish
  /-- Pauses once without waiting for anything. -/
  | idle
  | advance (span : Nat)
  | note (label : String)
  | repeated (count : Nat) (body : List Step)
  deriving Inhabited

/-- What a task notes about itself. -/
inductive Act
  | started (fd : Int) (ready errors : Ready)
  | woke (result : Except TaskError Ready) (ready errors : Ready)
  | read (result : Except TaskError Bytes)
  | wrote (result : Except TaskError Nat)
  | wroteAll (result : Except TaskError Unit)
  | idled
  | ended
  | label (text : String)

inductive Note
  | act (task : TaskId) (act : Act)
  /-- The socket accepted octets. -/
  | accepted (fd : Int) (bytes : Bytes)
  /-- The socket was closed. -/
  | closed (fd : Int)

/-- A suspended body: its socket and its steps, the first of which it is suspended in. What is left of
a loop stands behind the steps of the round that has begun. -/
structure State where
  socket : Socket
  steps : List Step

abbrev Stretch := Run State Note

/-- The end of a body: it closes its socket. -/
def ending (id : TaskId) (fd : Int) : Stretch :=
  .note (.act id .ended) (.note (.closed fd) (.stop .completed))

/-- Takes up an attempt: waits for `wanted`, or notes the result and goes on with `next`. -/
def attempted {α : Type} (attempt : Attempt α) (note : Except TaskError α → Note) (wanted : Ready)
    (waiting : State) (next : Unit → Stretch) : Stretch :=
  match attempt with
  | .done value => .note (note (.ok value)) (next ())
  | .failed error => .note (note (.error (.io error))) (next ())
  | .blocked => .stop (.blocked wanted waiting)

/-- The stretch of a loop: `round` carries out its body, given the steps behind the round and the
stretch that they make; `rest` are the steps behind the loop, carried out by `next`. -/
def loop (round : List Step → (Socket → Stretch) → Socket → Stretch) (body rest : List Step)
    (next : Socket → Stretch) : Nat → Socket → Stretch
  | 0, socket => next socket
  | n + 1, socket =>
    round (.repeated n body :: rest) (fun socket => loop round body rest next n socket) socket

mutual

/-- The stretch that begins with a step; `rest` are the steps behind it, carried out by `next`. -/
def Step.stretch (id : TaskId) (fd : Int) (rest : List Step) (next : Socket → Stretch)
    (socket : Socket) : Step → Stretch
  | .wait wanted => .stop (.blocked wanted ⟨socket, .wait wanted :: rest⟩)
  | .idle => .stop (.parked ⟨socket, .idle :: rest⟩)
  | .exit => .stop (.exited ⟨socket, rest⟩)
  | .finish => ending id fd
  | .read size =>
    let (socket, attempt) := socket.read size
    attempted attempt (.act id ∘ .read) .readable ⟨socket, .read size :: rest⟩ fun _ => next socket
  | .write data =>
    let (socket, attempt) := socket.write data
    let noted (_ : Unit) : Stretch :=
      attempted attempt (.act id ∘ .wrote) .writable ⟨socket, .write data :: rest⟩
        fun _ => next socket
    match attempt with
    | .done n => .note (.accepted fd (data.take n)) (noted ())
    | _ => noted ()
  | .writeAll data =>
    let (transfer, socket, attempt) := socket.writeAll data
    .noteAll (transfer.accepted.map (.accepted fd))
      (attempted attempt (.act id ∘ .wroteAll) .writable ⟨socket, .writeAll transfer.rest :: rest⟩
        fun _ => next socket)
  | .setTimer timer delay => .setTimer timer delay (next socket)
  | .clearTimer timer => .clearTimer timer (next socket)
  | .spawn childFd interest childSocket body =>
    .spawn childFd interest [.closed childFd]
      (fun child => .note (.act child (.started childFd .empty .empty))
        (stretchAll child childFd [] (fun _ => ending child childFd) childSocket body))
      (next socket)
  | .advance span => .elapse span (next socket)
  | .note label => .note (.act id (.label label)) (next socket)
  | .repeated _ [] => next socket
  | .repeated count body =>
    loop (fun rest next socket => stretchAll id fd rest next socket body) body rest next count
      socket

/-- The stretch that carries out steps in order; `rest` are the steps behind them, carried out by
`next`. -/
def stretchAll (id : TaskId) (fd : Int) (rest : List Step) (next : Socket → Stretch)
    (socket : Socket) : List Step → Stretch
  | [] => next socket
  | step :: steps =>
    step.stretch id fd (steps ++ rest) (fun socket => stretchAll id fd rest next socket steps) socket

end

/-- The stretch that carries out what is left of a body. -/
def bodyStretch (id : TaskId) (fd : Int) (socket : Socket) (steps : List Step) : Stretch :=
  stretchAll id fd [] (fun _ => ending id fd) socket steps

def start (fd : Int) (socket : Socket) (body : List Step) (id : TaskId) : Stretch :=
  .note (.act id (.started fd .empty .empty)) (bodyStretch id fd socket body)

def resume (context : TaskContext) (wake : Wake) (state : State) : Stretch :=
  let { id, fd, ready, errors } := context
  let retry (_ : Unit) : Stretch := bodyStretch id fd state.socket state.steps
  let giveUp (act : TaskError → Act) (rest : List Step) : Stretch :=
    match wake with
    | .io _ => retry ()
    | .timer timer => .note (.act id (act (.timeout timer))) (bodyStretch id fd state.socket rest)
  match state.steps with
  | .wait _ :: rest =>
    .note (.act id (.woke wake.result ready errors)) (bodyStretch id fd state.socket rest)
  | .idle :: rest => .note (.act id .idled) (bodyStretch id fd state.socket rest)
  | .read _ :: rest => giveUp (.read ∘ .error) rest
  | .write _ :: rest => giveUp (.wrote ∘ .error) rest
  | .writeAll _ :: rest => giveUp (.wroteAll ∘ .error) rest
  | _ => retry ()

/-- What scripted tasks do. One that is ended from outside closes its socket. -/
def behaviour : Behaviour State Note := ⟨resume, fun fd _ => [.closed fd]⟩

end CoopHttp.Task.Script
