import CoopHttp.Scheduler.Basic

/-!
# Turns

A turn of a scheduler polls once, wakes the owner of each descriptor that has an event, and then
sweeps the timer wheels and wakes each task whose deadline has expired.
-/
namespace CoopHttp.Scheduler

variable {σ ν : Type}

/-- Wakes a suspended task and carries out its next stretch. -/
def wake (b : Behaviour σ ν) (s : Scheduler σ ν) (id : TaskId) (wake : Wake) :
    Except Crash (Scheduler σ ν) :=
  match s.tasks.get? id with
  | none => .ok s
  | some task =>
    match task.outcome.suspended? with
    | none => .ok s
    | some state =>
      let run := b.resume ⟨id, task.fd, task.ready, task.errors⟩ wake state
      ((s.record (.woken id wake)).modifyTask id (·.after run.outcome)).drive b id run

/-- Wakes the owner of a descriptor that has an event. Its error conditions stay with the task. -/
def dispatch (b : Behaviour σ ν) (s : Scheduler σ ν) (event : Int × Ready) :
    Except Crash (Scheduler σ ν) :=
  match s.owner? event.1 with
  | none => .ok s
  | some id =>
    match s.tasks.get? id with
    | none => .ok s
    | some task =>
      let errors := task.errors ||| (event.2 &&& .errors)
      let ready := event.2 ||| errors
      (s.modifyTask id fun task => { task with errors, ready }).wake b id (.io ready)

/-- Wakes the tasks of a list that are still live, for a deadline on `timer`. -/
def expire (b : Behaviour σ ν) (timer : TimerId) (s : Scheduler σ ν) (expired : List TaskId) :
    Except Crash (Scheduler σ ν) :=
  expired.foldlM (fun s id => if s.tasks.contains id then s.wake b id (.timer timer) else .ok s) s

/-- Sweeps one wheel, and then wakes the tasks whose deadline has expired. -/
def sweepTimer (b : Behaviour σ ν) (now : Int) (s : Scheduler σ ν) (index : Nat) :
    Except Crash (Scheduler σ ν) :=
  match s.wheels[index]? with
  | none => .ok s
  | some wheel =>
    let swept := wheel.sweep now
    match swept.crash with
    | some cause => .error cause
    | none => expire b ⟨index⟩ { s with wheels := s.wheels.set index swept.wheel } swept.fired

/-- Sweeps the wheels in the order they were added in. -/
def sweepTimers (b : Behaviour σ ν) (s : Scheduler σ ν) : Except Crash (Scheduler σ ν) :=
  (List.range s.wheels.length).foldlM (sweepTimer b s.clock) s

/-- One turn. A poll that was interrupted has no events; any other failure ends the turn. -/
def turn (b : Behaviour σ ν) (s : Scheduler σ ν) (poll : Poll) :
    Except Crash (Scheduler σ ν × Except IoError Unit) :=
  ((s.record (.polled s.settings.maxEvents s.settings.pollTimeout)).elapse poll.elapsed).bind
    fun s =>
      match poll.failure with
      | none =>
        ((poll.events.take s.settings.maxEvents).foldlM (dispatch b) s).bind fun s =>
          (s.sweepTimers b).map fun s => (s, .ok ())
      | some .interrupted => (s.sweepTimers b).map fun s => (s, .ok ())
      | some error => .ok (s, .error error)

/-- Turns until no task is left. -/
def run (b : Behaviour σ ν) (polls : List Poll) (s : Scheduler σ ν) :
    Except Crash (Scheduler σ ν × Except IoError Unit) :=
  if s.tasks.isEmpty then .ok (s, .ok ())
  else match polls with
    | [] => s.turn b .exhausted
    | poll :: polls => (s.turn b poll).bind fun
      | (s, .error error) => .ok (s, .error error)
      | (s, .ok ()) => run b polls s

end CoopHttp.Scheduler
