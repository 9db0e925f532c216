import CoopHttp.Coroutine

/-!
# Scripted coroutines

A small language of coroutine bodies over 64-bit integers: a body keeps an accumulator and inner
coroutines of its own, and logs what it does under its name.
-/
namespace CoopHttp.Script

/-- What a scripted body logs. -/
inductive Act
  | started
  | ended
  | resumed (value : Option Int64)
  | got (value : Int64)
  | idled
  | stray
  | joined (first second : Int64)
  | selected (value : Int64)
  /-- The outcome of resuming an inner coroutine and whether it is complete; `none` if there is no
  inner coroutine of that name. -/
  | inner (outcome : Option (Resumed Int64 × Bool))
  | note (value : Int64)

structure Entry where
  name : String
  act : Act

abbrev Code := Body Int64 Int64 Entry

/-- One instruction. A missing value stands for the accumulator. -/
inductive Instr
  /-- Takes the resume value; it becomes the accumulator if it is there. -/
  | resumed
  /-- Yields and waits; the value received replaces the accumulator, or is added to it. -/
  | suspend (value : Option Int64) (add : Bool)
  /-- Pauses once without yielding. -/
  | idle
  /-- Begins to yield, and does not wait. -/
  | stray (value : Option Int64)
  /-- Yields a value and the one after it, and waits for both replies, one resume value each. -/
  | join (value : Option Int64)
  /-- Yields a value and the one after it, and waits for the first reply. -/
  | select (value : Option Int64)
  /-- Makes an inner coroutine, which does not run yet. -/
  | spawn (name : String) (body : List Instr)
  /-- Resumes an inner coroutine. -/
  | resume (name : String) (value : Option Int64)
  | repeated (count : Nat) (body : List Instr)
  /-- Ends the whole body. -/
  | finish
  | note (value : Option Int64)
  deriving Inhabited

structure Env where
  acc : Int64 := 0
  inner : List (String × Coroutine Int64 Int64 Entry) := []

namespace Env

def value (env : Env) (v : Option Int64) : Int64 := v.getD env.acc

/-- Stores an inner coroutine under its name. -/
def store (env : Env) (name : String) (c : Coroutine Int64 Int64 Entry) : Env :=
  { env with inner := (name, c) :: env.inner.filter (·.1 != name) }

end Env

/-- A step carried out a number of times before `next`; a step is given what comes behind it. -/
def loop {α β : Type} (step : (α → β) → α → β) (next : α → β) : Nat → α → β
  | 0, a => next a
  | n + 1, a => step (fun a => loop step next n a) a

/-- Resumes an inner coroutine; its log comes before the entry of the resumption. -/
def resumeInner (path name : String) (value : Int64) (next : Env → Code) (env : Env) : Code :=
  match env.inner.lookup name with
  | none => .log ⟨path, .inner none⟩ (next env)
  | some c =>
    let (c, outcome, entries) := c.resume value
    let env := env.store name c
    let env := match outcome with
      | .yielded value => { env with acc := value }
      | _ => env
    .logAll entries (.log ⟨path, .inner (some (outcome, c.isComplete))⟩ (next env))

mutual

/-- The body that carries out one instruction, named `path`, and goes on with `next`. -/
def Instr.code (path : String) (next : Env → Code) (env : Env) : Instr → Code
  | .resumed => .take fun
    | none => .log ⟨path, .resumed none⟩ (next env)
    | some value => .log ⟨path, .resumed (some value)⟩ (next { env with acc := value })
  | .suspend v add => .suspend (env.value v) fun value =>
    .log ⟨path, .got value⟩ (next { env with acc := if add then env.acc + value else value })
  | .idle => .park fun _ => .log ⟨path, .idled⟩ (next env)
  | .stray v => .offer (env.value v) (.log ⟨path, .stray⟩ (next env))
  | .join v => .offer (env.value v) (.offer (env.value v + 1) (.await fun first => .await fun second =>
    .log ⟨path, .joined first second⟩ (next env)))
  | .select v => .offer (env.value v) (.offer (env.value v + 1) (.await fun value =>
    .log ⟨path, .selected value⟩ (next env)))
  | .spawn name body =>
    let path := path ++ "/" ++ name
    next (env.store name (.spawn fun _ =>
      .log ⟨path, .started⟩ (codeAll path (fun _ => .log ⟨path, .ended⟩ .returned) {} body)))
  | .resume name v => resumeInner path name (env.value v) next env
  | .repeated _ [] => next env
  | .repeated count body => loop (fun next env => codeAll path next env body) next count env
  | .finish => .log ⟨path, .ended⟩ .returned
  | .note v => .log ⟨path, .note (env.value v)⟩ (next env)

/-- The body that carries out instructions in order and goes on with `next`. -/
def codeAll (path : String) (next : Env → Code) (env : Env) : List Instr → Code
  | [] => next env
  | i :: rest => i.code path (fun env => codeAll path next env rest) env

end

def body (path : String) (script : List Instr) : Code :=
  .log ⟨path, .started⟩ (codeAll path (fun _ => .log ⟨path, .ended⟩ .returned) {} script)

end CoopHttp.Script
