import CoopHttp.Coroutine

/-!
# The places a coroutine and its body share

A coroutine and its body hand values to each other through two places, one for the resume value and
one for the yielded value, which both sides fill and empty. Here a switch is written with these
places. They are empty after every switch, so nothing but its body is left of a coroutine between two
runs.
-/
namespace CoopHttp

variable {ρ υ ε : Type}

/-- The two places, each of which may hold a value. -/
structure Channel (ρ υ : Type) where
  resume : Option ρ := none
  yielded : Option υ := none

namespace Body

/-- Runs a body up to its next pause, or to its end. -/
def poll : Body ρ υ ε → Channel ρ υ → Coroutine ρ υ ε × Channel ρ υ × List ε
  | returned, channel => (.complete, channel, [])
  | log entry next, channel =>
    let (rest, channel, entries) := next.poll channel
    (rest, channel, entry :: entries)
  | take next, channel => (next channel.resume).poll { channel with resume := none }
  | offer value next, _ => next.poll { resume := none, yielded := some value }
  | await next, channel => (.waiting next, channel, [])
  | park next, channel => (.parked next, channel, [])

end Body

namespace Coroutine

/-- Goes on with a body that has paused. One that waits for a resume value takes it, and goes on
waiting if there is none. -/
def poll (c : Coroutine ρ υ ε) (channel : Channel ρ υ) :
    Coroutine ρ υ ε × Channel ρ υ × List ε :=
  match c with
  | parked body => (body ()).poll channel
  | waiting next =>
    match channel.resume with
    | some value => (next value).poll { channel with resume := none }
    | none => (waiting next, channel, [])
  | complete => (complete, channel, [])

/-- Switches into the body and back. A resume value that was not taken is thrown away, and so is a
value that a body yielded before it returned. -/
def switch (c : Coroutine ρ υ ε) (channel : Channel ρ υ) (value : ρ) :
    Coroutine ρ υ ε × Channel ρ υ × Resumed υ × List ε :=
  match c with
  | complete => (complete, channel, .complete, [])
  | c =>
    let (c, channel, entries) := c.poll { channel with resume := some value }
    let channel := { channel with resume := none }
    match c with
    | complete => (complete, { channel with yielded := none }, .complete, entries)
    | c => (c, { channel with yielded := none }, Body.handOver channel.yielded, entries)

/-- What a run comes to, by what is left of the body and what it has yielded. -/
def resumed (c : Coroutine ρ υ ε) (yielded : Option υ) : Resumed υ :=
  if c.isComplete then .complete else Body.handOver yielded

end Coroutine

namespace Body

theorem run_eq_poll (b : Body ρ υ ε) (channel : Channel ρ υ) :
    b.run channel.resume channel.yielded =
      let (c, channel, entries) := b.poll channel
      (c, c.resumed channel.yielded, entries) := by
  induction b generalizing channel with
  | returned => rfl
  | log entry next ih => simp only [run, poll, ih]
  | take next ih => exact ih channel.resume { channel with resume := none }
  | offer value next ih => exact ih { resume := none, yielded := some value }
  | await next ih => rfl
  | park next ih => rfl

end Body

namespace Coroutine

/-- A switch with empty places is a resumption, and it leaves them empty. -/
theorem switch_eq_resume (c : Coroutine ρ υ ε) (value : ρ) :
    c.switch {} value = ((c.resume value).1, {}, (c.resume value).2) := by
  have hswitch (b : Body ρ υ ε) (channel : Channel ρ υ) (hc : c ≠ complete)
      (hpoll : c.poll { resume := some value } = b.poll channel)
      (hresume : c.resume value = b.run channel.resume channel.yielded) :
      c.switch {} value = ((c.resume value).1, {}, (c.resume value).2) := by
    rw [hresume, b.run_eq_poll]
    rcases hpolled : b.poll channel with ⟨_ | _ | _, channel', entries⟩ <;>
      simp [switch, hpoll, hpolled, resumed, isComplete]
  cases c with
  | parked body => exact hswitch (body ()) { resume := some value } (by simp) rfl rfl
  | waiting next => exact hswitch (next value) {} (by simp) rfl rfl
  | complete => rfl

def switchAll (c : Coroutine ρ υ ε) (channel : Channel ρ υ) :
    List ρ → Coroutine ρ υ ε × Channel ρ υ × List (Resumed υ × List ε)
  | [] => (c, channel, [])
  | value :: values =>
    let (c, channel, outcome) := c.switch channel value
    let (c, channel, outcomes) := c.switchAll channel values
    (c, channel, outcome :: outcomes)

end Coroutine

end CoopHttp
