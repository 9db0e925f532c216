/-!
# Coroutines

A coroutine runs its body up to the next pause each time it is resumed. A resume value is offered to
the body during that one run; a body that does not take it loses it. A yielded value is handed to
the resumer at the next pause, the last one if there were several.
-/
namespace CoopHttp

/-- The rest of a body, as the tree of what it does next: `ρ` is the type of resume values, `υ` that
of yielded values, `ε` that of log entries. What lies behind a pause is a function, so a body may be
as long as it likes: only the part up to the next pause is ever worked out. -/
inductive Body (ρ υ ε : Type)
  /-- The body has returned. -/
  | returned
  /-- Writes a log entry. -/
  | log (entry : ε) (next : Body ρ υ ε)
  /-- Takes the resume value of this run, if it is still there. -/
  | take (next : Option ρ → Body ρ υ ε)
  /-- Yields a value and discards the resume value of this run, without pausing yet. -/
  | offer (value : υ) (next : Body ρ υ ε)
  /-- Pauses; the next run starts by taking its resume value. -/
  | await (next : ρ → Body ρ υ ε)
  /-- Pauses for another reason; the next run finds its resume value untaken. -/
  | park (next : Unit → Body ρ υ ε)

/-- A coroutine between two runs. -/
inductive Coroutine (ρ υ ε : Type)
  /-- Not started, or parked. -/
  | parked (body : Unit → Body ρ υ ε)
  /-- Waiting for the next resume value. -/
  | waiting (next : ρ → Body ρ υ ε)
  | complete

inductive Resumed (υ : Type)
  | yielded (value : υ)
  /-- Paused without yielding. -/
  | idle
  | complete
  deriving DecidableEq, Repr

def Resumed.isComplete {υ : Type} : Resumed υ → Bool
  | complete => true
  | _ => false

namespace Body

variable {ρ υ ε : Type}

/-- Yields a value and pauses until the next resume value. -/
def suspend (value : υ) (next : ρ → Body ρ υ ε) : Body ρ υ ε := offer value (await next)

def logAll (entries : List ε) (next : Body ρ υ ε) : Body ρ υ ε := entries.foldr log next

/-- What a pause hands to the resumer. -/
def handOver (yielded : Option υ) : Resumed υ :=
  match yielded with
  | some value => .yielded value
  | none => .idle

/-- Runs a body up to its next pause, given the resume value not yet taken and the last value
yielded. The log of the run comes last. -/
def run : Body ρ υ ε → Option ρ → Option υ → Coroutine ρ υ ε × Resumed υ × List ε
  | returned, _, _ => (.complete, .complete, [])
  | log entry next, value, yielded =>
    let (rest, resumed, entries) := next.run value yielded
    (rest, resumed, entry :: entries)
  | take next, value, yielded => (next value).run none yielded
  | offer value next, _, _ => next.run none (some value)
  | await next, _, yielded => (.waiting next, handOver yielded, [])
  | park next, _, yielded => (.parked next, handOver yielded, [])

end Body

namespace Coroutine

variable {ρ υ ε : Type}

/-- A coroutine around a body; nothing runs yet. -/
def spawn (body : Unit → Body ρ υ ε) : Coroutine ρ υ ε := parked body

def isComplete : Coroutine ρ υ ε → Bool
  | complete => true
  | _ => false

/-- Runs the body up to its next pause. -/
def resume (c : Coroutine ρ υ ε) (value : ρ) : Coroutine ρ υ ε × Resumed υ × List ε :=
  match c with
  | parked body => (body ()).run (some value) none
  | waiting next => (next value).run none none
  | complete => (complete, .complete, [])

end Coroutine

end CoopHttp
