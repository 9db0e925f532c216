import CoopHttp.Proofs.Scheduler.Still

/-!
# Who is resumed

The log of a scheduler shows every wake. Those that follow upon the adding of a descriptor start a
task; the others resume one that was suspended. A stretch starts tasks and resumes nobody, so at
rest the log of resumptions is exactly what the scheduler has woken by itself.
-/
namespace CoopHttp

namespace Event

variable {ν : Type}

/-- The log ends with the adding of a descriptor, so that its task is about to be started. -/
def Opens : List (Event ν) → Prop
  | .added _ _ none :: _ => True
  | _ => False

/-- Whom some events resume, and by which wake; the last one comes first in both lists. -/
def resumed : List (Event ν) → List (TaskId × Wake)
  | [] => []
  | .woken _ _ :: .added _ _ none :: earlier => resumed earlier
  | .woken id wake :: earlier => (id, wake) :: resumed earlier
  | _ :: earlier => resumed earlier

/-- Events that resume nobody; the last one comes first. -/
inductive Quiet : List (Event ν) → Prop
  | nil : Quiet []
  | idle {event : Event ν} {earlier : List (Event ν)} :
    event.Idle → Quiet earlier → Quiet (event :: earlier)
  | start (id : TaskId) (wake : Wake) (fd : Int) (value : Ready) {earlier : List (Event ν)} :
    Quiet earlier → Quiet (.woken id wake :: .added fd value none :: earlier)

theorem Idle.resumed_cons {event : Event ν} (h : event.Idle) (earlier : List (Event ν)) :
    resumed (event :: earlier) = resumed earlier := by
  cases event with
  | woken => cases h
  | added | modified | deleted | polled | note => rfl

theorem Idle.not_opens {event : Event ν} (h : event.Idle) (earlier : List (Event ν)) :
    ¬ Opens (event :: earlier) := by
  cases event with
  | added fd value failure =>
    cases failure with
    | none => cases h
    | some error => exact not_false
  | woken | modified | deleted | polled | note => exact not_false

/-- A wake that does not start a task resumes one. -/
theorem resumed_woken {earlier : List (Event ν)} (h : ¬ Opens earlier) (id : TaskId) (wake : Wake) :
    resumed (.woken id wake :: earlier) = (id, wake) :: resumed earlier := by
  cases earlier with
  | nil => rfl
  | cons event earlier =>
    cases event with
    | added fd value failure =>
      cases failure with
      | none => exact absurd trivial h
      | some error => rfl
    | modified | deleted | polled | woken | note => rfl

namespace Quiet

variable {new earlier : List (Event ν)}

theorem of_idle (h : ∀ event ∈ new, event.Idle) : Quiet new := by
  induction new with
  | nil => exact .nil
  | cons event new ih =>
    rw [List.forall_mem_cons] at h
    exact .idle h.1 (ih h.2)

theorem append (h : Quiet new) (h' : Quiet earlier) : Quiet (new ++ earlier) := by
  induction h with
  | nil => exact h'
  | idle hidle _ ih => exact .idle hidle ih
  | start id wake fd value _ ih => exact ih.start id wake fd value

theorem resumed_append (h : Quiet new) (earlier : List (Event ν)) :
    resumed (new ++ earlier) = resumed earlier := by
  induction h with
  | nil => rfl
  | idle hidle _ ih => exact (hidle.resumed_cons _).trans ih
  | start id wake fd value _ ih => exact ih

theorem not_opens_append (h : Quiet new) (hearlier : ¬ Opens earlier) :
    ¬ Opens (new ++ earlier) := by
  cases h with
  | nil => exact hearlier
  | idle hidle => exact hidle.not_opens _
  | start => exact not_false

end Quiet

end Event

namespace Scheduler

open Relation

variable {σ ν : Type} {b : Behaviour σ ν} {s s' : Scheduler σ ν} {id : TaskId}

/-- What has been logged of `s'` since `s` resumes nobody. -/
def Quietly (s s' : Scheduler σ ν) : Prop :=
  ∃ new, s'.history = new ++ s.history ∧ Event.Quiet new

/-- What leaves tasks alone resumes nobody. -/
theorem Still.quietly (h : Still s s') : Quietly s s' := by
  obtain ⟨new, hnew, hidle⟩ := h.history_eq
  exact ⟨new, hnew, .of_idle hidle⟩

namespace Quietly

theorem refl (s : Scheduler σ ν) : Quietly s s := ⟨[], rfl, .nil⟩

theorem trans {s'' : Scheduler σ ν} (h : Quietly s s') (h' : Quietly s' s'') : Quietly s s'' := by
  obtain ⟨new, hnew, hquiet⟩ := h
  obtain ⟨later, hlater, hquiet'⟩ := h'
  exact ⟨later ++ new, by rw [hlater, hnew, List.append_assoc], hquiet'.append hquiet⟩

theorem enrol {fd : Int} {interest : Ready} {start : TaskId → Run σ ν}
    (henrol : s.enrol fd interest start = (s', .ok id)) : Quietly s s' := by
  obtain ⟨-, heq⟩ | ⟨error, refusals, -, -, heq⟩ | ⟨tasks, made, refusals, -, -, -, heq⟩ :=
    enrol_cases s fd interest start
  · cases heq.symm.trans henrol
  · cases heq.symm.trans henrol
  · cases heq.symm.trans henrol
    exact ⟨[_, _], rfl, .start id _ fd _ .nil⟩

theorem change (h : s.Registered) (hchange : Change b s s') : Quietly s s' := by
  obtain hstill | ⟨fd, interest, start, id, henrol⟩ := hchange.still_or_starts h
  · exact hstill.quietly
  · exact enrol henrol

theorem changes (h : s.Registered) (hchanges : ReflTransGen (Change b) s s') : Quietly s s' := by
  have hboth : s'.Registered ∧ Quietly s s' := by
    induction hchanges with
    | refl => exact ⟨h, .refl s⟩
    | tail _ hchange ih => exact ⟨hchange.registered ih.1, ih.2.trans (.change ih.1 hchange)⟩
  exact hboth.2

end Quietly

/-- At rest no task is about to be started. -/
theorem invariant_not_opens (b : Behaviour σ ν) : Invariant b fun s => ¬ Event.Opens s.history where
  fresh _ _ _ := id
  change hregistered hchange h := by
    obtain ⟨new, hnew, hquiet⟩ := Quietly.change hregistered hchange
    rw [hnew]
    exact hquiet.not_opens_append h
  rouse _ _ _ _ := id

/-- A task that is woken runs its stretch after the wake has been logged. -/
theorem quietly_drive {task task' : Task σ} {wake : Wake} {run : Run σ ν} (h : s.Registered)
    (hget : s.tasks.get? id = some task) (hroused : Roused task wake task')
    (hdrive : (s.rouse id wake task').drive b id run = .ok s') :
    ∃ new, s'.history = new ++ .woken id wake :: s.history ∧ Event.Quiet new :=
  Quietly.changes (registered_rouse h hget wake hroused.fd_eq) (changes_drive hdrive)

/-- Who has been resumed, and by which wake, in order. -/
def resumptions (s : Scheduler σ ν) : List (TaskId × Wake) := (Event.resumed s.history).reverse

/-- The stretch of a task that is woken is one resumption. -/
theorem resumptions_drive {task task' : Task σ} {wake : Wake} {run : Run σ ν} (h : s.Registered)
    (hopens : ¬ Event.Opens s.history) (hget : s.tasks.get? id = some task)
    (hroused : Roused task wake task')
    (hdrive : (s.rouse id wake task').drive b id run = .ok s') :
    s'.resumptions = s.resumptions ++ [(id, wake)] := by
  obtain ⟨new, hnew, hquiet⟩ := quietly_drive h hget hroused hdrive
  rw [resumptions, hnew, hquiet.resumed_append, Event.resumed_woken hopens, List.reverse_cons,
    resumptions]

end Scheduler

end CoopHttp
