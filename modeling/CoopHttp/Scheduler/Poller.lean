import CoopHttp.Message.Error
import CoopHttp.Ready

/-!
# The poller

The poller is told which descriptors to watch, and waits for events on them. It is given by the
calls that it will refuse and, poll by poll, by what it reports.
-/
namespace CoopHttp

namespace Poller

inductive Call
  | add
  | modify
  | delete
  deriving DecidableEq, Repr

/-- A call that will fail: the one on `fd` after `skip` others of its kind. -/
structure Refusal where
  call : Call
  fd : Int
  error : IoError
  skip : Nat
  deriving DecidableEq, Repr

/-- Whether a call fails: the first refusal that is due decides and is used up; those tried before
it come closer by one call. -/
def answer (call : Call) (fd : Int) : List Refusal → List Refusal × Option IoError
  | [] => ([], none)
  | refusal :: rest =>
    if refusal.call = call ∧ refusal.fd = fd ∧ refusal.skip = 0 then (rest, some refusal.error)
    else
      let (rest, error) := answer call fd rest
      if refusal.call = call ∧ refusal.fd = fd then
        ({ refusal with skip := refusal.skip - 1 } :: rest, error)
      else (refusal :: rest, error)

end Poller

structure Poll where
  events : List (Int × Ready) := []
  elapsed : Nat := 0
  failure : Option IoError := none
  deriving DecidableEq, Repr

/-- What a poller without anything left to report does. -/
def Poll.exhausted : Poll := { failure := some .other }

end CoopHttp
