import CoopHttp.Connection.Process
import CoopHttp.Proofs.Connection.Passage

/-!
# The course of a connection

The task of a connection runs in stretches, which show what is noted and nothing of what lies
between two notes. Here the same course is taken step by step, with the connection as it is between
any two of its steps. Whatever wakes the task, and however often, what it notes is what is noted on
such a walk.
-/
namespace CoopHttp

namespace Run

variable {σ ν : Type}

def notes : Run σ ν → List ν
  | stop _ | crash _ => []
  | note entry next => entry :: next.notes
  | elapse _ next | setTimer _ _ next | clearTimer _ next | spawn _ _ _ _ next => next.notes

theorem notes_noteAll (entries : List ν) (next : Run σ ν) :
    (noteAll entries next).notes = entries ++ next.notes := by
  induction entries with
  | nil => rfl
  | cons entry entries ih => exact congrArg (entry :: ·) ih

theorem outcome_noteAll (entries : List ν) (next : Run σ ν) :
    (noteAll entries next).outcome = next.outcome := by
  induction entries with
  | nil => rfl
  | cons entry entries ih => exact ih

end Run

namespace Connection

variable {η : Type}

/-- Where a connection is: between two steps, asleep in the middle of a phase, at its end, or
lost. -/
inductive Point (η : Type)
  | serving (c : Connection η)
  | waiting (c : Connection η)
  | closed (result : Except HttpError Unit)
  | crashed (cause : Crash)

namespace Point

/-- The connection that has not come to its end. -/
def connection? : Point η → Option (Connection η)
  | serving c | waiting c => some c
  | closed _ | crashed _ => none

/-- The task has nothing to do but to wait, or has come to its end. -/
def Rests : Point η → Prop
  | serving _ => False
  | waiting _ | closed _ | crashed _ => True

end Point

/-- What the end of a connection notes. -/
def parting (result : Except HttpError Unit) : List Note := [.closed, .ended result]

/-- What happens next, and what is noted meanwhile: a step, or a wake. -/
inductive Advance (handler : Handler η) : Point η → List Note → Point η → Prop
  | goes {c d : Connection η} {notes : List Note} {move : Move η}
      (step_eq : c.step handler = (notes, move)) (onward : move.onward? = some d) :
      Advance handler (.serving c) notes (.serving d)
  | waits {c d : Connection η} {notes : List Note} {wanted : Ready}
      (step_eq : c.step handler = (notes, .wait wanted d)) :
      Advance handler (.serving c) notes (.waiting d)
  | ends {c : Connection η} {notes : List Note} {result : Except HttpError Unit}
      (step_eq : c.step handler = (notes, .finish result)) :
      Advance handler (.serving c) (notes ++ parting result) (.closed result)
  | crashes {c : Connection η} {notes : List Note} {cause : Crash}
      (step_eq : c.step handler = (notes, .crash cause)) :
      Advance handler (.serving c) notes (.crashed cause)
  | wakes (c : Connection η) : Advance handler (.waiting c) [] (.serving c)
  /-- The deadline on a wheel expires, whichever it is. -/
  | expires (c : Connection η) (timer : TimerId) :
      Advance handler (.waiting c) (parting (.error (c.failure (.timeout timer))))
        (.closed (.error (c.failure (.timeout timer))))

/-- Any number of steps and wakes, and all that is noted on the way. -/
inductive Walk (handler : Handler η) (p : Point η) : List Note → Point η → Prop
  | refl : Walk handler p [] p
  | tail {notes more : List Note} {q r : Point η} :
      Walk handler p notes q → Advance handler q more r → Walk handler p (notes ++ more) r

theorem Walk.trans {handler : Handler η} {p q r : Point η} {notes later : List Note}
    (h : Walk handler p notes q) (h' : Walk handler q later r) :
    Walk handler p (notes ++ later) r := by
  induction h' with
  | refl => rwa [List.append_nil]
  | tail _ hadvance ih =>
    rw [← List.append_assoc]
    exact ih.tail hadvance

theorem Walk.head {handler : Handler η} {p q r : Point η} {notes later : List Note}
    (h : Advance handler p notes q) (h' : Walk handler q later r) :
    Walk handler p (notes ++ later) r :=
  (Walk.refl.tail h : Walk handler p ([] ++ notes) q).trans h'

/-! Stretches. -/

variable {service : Service η} {fd : Int}

theorem notes_arm (deadline : Option Deadline) (next : Stretch η) :
    (arm deadline next).notes = next.notes := by
  cases deadline <;> rfl

theorem outcome_arm (deadline : Option Deadline) (next : Stretch η) :
    (arm deadline next).outcome = next.outcome := by
  cases deadline <;> rfl

theorem notes_disarm (deadline : Option Deadline) (next : Stretch η) :
    (disarm deadline next).notes = next.notes := by
  cases deadline <;> rfl

theorem outcome_disarm (deadline : Option Deadline) (next : Stretch η) :
    (disarm deadline next).outcome = next.outcome := by
  cases deadline <;> rfl

theorem notes_ending (c : Connection η) (result : Except HttpError Unit) :
    (ending service fd c result).notes = (parting result).map fun note => (fd, note) := by
  rw [ending, notes_disarm]
  rfl

theorem outcome_ending (c : Connection η) (result : Except HttpError Unit) :
    (ending service fd c result).outcome = .completed := by
  rw [ending, outcome_disarm]
  rfl

/-- A stretch follows a walk to a point of rest: where it ends suspended, the walk ends waiting. -/
def Follows (handler : Handler η) (fd : Int) (p : Point η) (run : Stretch η) : Prop :=
  ∃ notes q, Walk handler p notes q ∧ q.Rests ∧ run.notes = notes.map (fun note => (fd, note)) ∧
    match run.outcome with
    | .blocked _ d => q = .waiting d
    | .completed => q.connection? = none
    | .parked _ | .adrift .. | .exited _ => False

theorem Follows.head {handler : Handler η} {p q : Point η} {notes : List Note} {run : Stretch η}
    (hadvance : Advance handler p notes q) (h : Follows handler fd q run) :
    Follows handler fd p (.noteAll (notes.map fun note => (fd, note)) run) := by
  obtain ⟨later, r, hwalk, hrests, hnotes, houtcome⟩ := h
  refine ⟨notes ++ later, r, Walk.head hadvance hwalk, hrests, ?_, ?_⟩
  · rw [Run.notes_noteAll, hnotes, List.map_append]
  · rw [Run.outcome_noteAll]
    exact houtcome

theorem Follows.arm {handler : Handler η} {p : Point η} {run : Stretch η}
    (h : Follows handler fd p run) (deadline : Option Deadline) :
    Follows handler fd p (arm deadline run) := by
  rwa [Follows, notes_arm, outcome_arm]

theorem Follows.disarm {handler : Handler η} {p : Point η} {run : Stretch η}
    (h : Follows handler fd p run) (deadline : Option Deadline) :
    Follows handler fd p (disarm deadline run) := by
  rwa [Follows, notes_disarm, outcome_disarm]

/-- What one advance to a point of rest notes, and how a stretch that notes this may end. -/
theorem follows_of_advance {handler : Handler η} {p q : Point η} {notes : List Note}
    {run : Stretch η} (hadvance : Advance handler p notes q) (hrests : q.Rests)
    (hnotes : run.notes = notes.map fun note => (fd, note))
    (houtcome : match run.outcome with
      | .blocked _ d => q = .waiting d
      | .completed => q.connection? = none
      | .parked _ | .adrift .. | .exited _ => False) : Follows handler fd p run :=
  ⟨notes, q, Walk.refl.tail hadvance, hrests, hnotes, houtcome⟩

theorem follows_proceed (service : Service η) (fd : Int) (c : Connection η) :
    Follows service.handler fd (.serving c) (proceed service fd c) := by
  fun_induction proceed service fd c with
  | case1 c noted notes d hstep ih => exact ih.head (.goes hstep rfl)
  | case2 c noted notes d hstep ih =>
    exact ((ih.arm (d.deadline service.deadlines)).disarm (c.deadline service.deadlines)).head
      (.goes hstep rfl)
  | case3 c noted notes wanted d hstep =>
    refine follows_of_advance (.waits hstep) trivial ?_ ?_
    · exact (Run.notes_noteAll _ _).trans (List.append_nil _)
    · rw [Run.outcome_noteAll]
      rfl
  | case4 c noted notes result hstep =>
    refine follows_of_advance (.ends hstep) trivial ?_ ?_
    · rw [Run.notes_noteAll, notes_ending, List.map_append]
    · rw [Run.outcome_noteAll, outcome_ending]
      rfl
  | case5 c noted notes cause hstep =>
    refine follows_of_advance (.crashes hstep) trivial ?_ ?_
    · exact (Run.notes_noteAll _ _).trans (List.append_nil _)
    · rw [Run.outcome_noteAll]
      rfl

theorem follows_start (service : Service η) (fd : Int) (c : Connection η) :
    Follows service.handler fd (.serving c) (start service fd c) :=
  (follows_proceed service fd c).arm _

/-- The first stretch takes a walk that notes the same, and that waits where the stretch is
suspended. -/
theorem exists_walk_start (service : Service η) (c : Connection η) :
    ∃ p, Walk service.handler (.serving c) ((start service 0 c).notes.map Prod.snd) p ∧
      ∀ d, (start service 0 c).outcome.suspended? = some d → p = .waiting d := by
  obtain ⟨notes, p, hwalk, -, hnotes, houtcome⟩ := follows_start service 0 c
  have hsame : (start service 0 c).notes.map Prod.snd = notes := by
    rw [hnotes, List.map_map]
    exact List.map_id notes
  refine ⟨p, hsame ▸ hwalk, fun d hd => ?_⟩
  cases hcase : (start service 0 c).outcome with
  | blocked wanted state =>
    rw [hcase] at hd houtcome
    cases hd
    exact houtcome
  | parked | adrift | exited =>
    rw [hcase] at houtcome
    exact houtcome.elim
  | completed =>
    rw [hcase] at hd
    cases hd

/-- A service that answers every request alike. -/
def plainService : Service Unit where
  handler := ⟨fun _ _ => ((), .ok (.ofStatus .ok .http11))⟩

theorem follows_resume (service : Service η) (context : TaskContext) (wake : Wake)
    (c : Connection η) :
    Follows service.handler context.fd (.waiting c) (resume service context wake c) := by
  cases wake with
  | io ready => exact (follows_proceed service context.fd c).head (.wakes c)
  | timer timer =>
    refine follows_of_advance (.expires c timer) trivial (notes_ending c _) ?_
    rw [resume, outcome_ending]
    rfl

/-! The whole course. -/

/-- What a task notes from a stretch on, while it is woken again and again. A task looks at nothing
in its context but its descriptor. -/
def history (service : Service η) (context : TaskContext) :
    Stretch η → List Wake → List (Int × Note)
  | run, [] => run.notes
  | run, wake :: wakes =>
    run.notes ++ match run.outcome with
      | .blocked _ c => history service context (resume service context wake c) wakes
      | .parked _ | .adrift .. | .exited _ | .completed => []

theorem exists_walk_history (context : TaskContext) (wakes : List Wake) {p : Point η}
    {run : Stretch η} (h : Follows service.handler context.fd p run) :
    ∃ notes q, Walk service.handler p notes q ∧ q.Rests ∧
      history service context run wakes = notes.map fun note => (context.fd, note) := by
  induction wakes generalizing p run with
  | nil =>
    obtain ⟨notes, q, hwalk, hrests, hnotes, -⟩ := h
    exact ⟨notes, q, hwalk, hrests, hnotes⟩
  | cons wake wakes ih =>
    obtain ⟨notes, q, hwalk, hrests, hnotes, houtcome⟩ := h
    rw [history, hnotes]
    split at houtcome
    · rename_i wanted d heq
      subst houtcome
      obtain ⟨later, r, hlater, hr, hhistory⟩ := ih (follows_resume service context wake d)
      refine ⟨notes ++ later, r, hwalk.trans hlater, hr, ?_⟩
      rw [heq, List.map_append, ← hhistory]
    · rename_i heq
      exact ⟨notes, q, hwalk, hrests, by rw [heq, List.append_nil]⟩
    · exact houtcome.elim
    · exact houtcome.elim
    · exact houtcome.elim

end Connection

end CoopHttp
