import CoopHttp.Proofs.Scheduler.Moments
import CoopHttp.Proofs.Scheduler.Resumption

/-!
# Error conditions stay

An error condition that a task has once heard of comes back in every later wake. What is kept of a
task's readiness and of its error conditions says nothing but what events the task has heard of, at
every moment of a run, so nothing else can change it.
-/
namespace CoopHttp

namespace Ready

def errorsIn : List Ready → Ready
  | [] => .empty
  | event :: earlier => errorsIn earlier ||| (event &&& .errors)

/-- What a task is woken with for each of some events, the last one first: the event, with the error
conditions of those before it. -/
def wakes : List Ready → List Ready
  | [] => []
  | event :: earlier => (event ||| errorsIn earlier) :: wakes earlier

/-- What a task was last woken with, if it has heard of these events. -/
def latest (heard : List Ready) : Ready := (wakes heard).headD .empty

end Ready

namespace Event

variable {ν : Type}

/-- What a task has been woken with for readiness, the first wake after its descriptor was added
included; the last one comes first in both lists. -/
def ioWakes (id : TaskId) (fd : Int) : List (Event ν) → List Ready
  | [] => []
  | .added other _ none :: earlier => if other = fd then [] else ioWakes id fd earlier
  | .woken other (.io ready) :: earlier =>
    if other = id then ready :: ioWakes id fd earlier else ioWakes id fd earlier
  | _ :: earlier => ioWakes id fd earlier

theorem Idle.ioWakes_cons {event : Event ν} (h : event.Idle) (id : TaskId) (fd : Int)
    (earlier : List (Event ν)) : ioWakes id fd (event :: earlier) = ioWakes id fd earlier := by
  cases event with
  | added other value failure =>
    cases failure with
    | none => cases h
    | some error => rfl
  | woken => cases h
  | modified | deleted | polled | note => rfl

theorem ioWakes_append {new : List (Event ν)} (h : ∀ event ∈ new, event.Idle) (id : TaskId)
    (fd : Int) (earlier : List (Event ν)) :
    ioWakes id fd (new ++ earlier) = ioWakes id fd earlier := by
  induction new with
  | nil => rfl
  | cons event new ih =>
    rw [List.forall_mem_cons] at h
    exact (h.1.ioWakes_cons id fd _).trans (ih h.2)

/-- Another task has been woken. -/
theorem ioWakes_woken_ne {id other : TaskId} (h : other ≠ id) (fd : Int) (wake : Wake)
    (earlier : List (Event ν)) :
    ioWakes id fd (.woken other wake :: earlier) = ioWakes id fd earlier := by
  cases wake with
  | io ready => exact if_neg h
  | timer timer => rfl

end Event

namespace Task

variable {σ ν : Type} {task : Task σ} {id : TaskId} {heard : List Ready}
  {history : List (Event ν)}

/-- What is kept of the task, and what it has been woken with since its start, is what it has heard
of. -/
structure Recalls (task : Task σ) (id : TaskId) (heard : List Ready) (history : List (Event ν)) :
    Prop where
  errors_eq : task.errors = Ready.errorsIn heard
  ready_eq : task.ready = Ready.latest heard
  ioWakes_eq : Event.ioWakes id task.fd history = Ready.wakes heard ++ [.empty]

/-- A task that is started has heard of nothing. -/
theorem recalls_first (fd : Int) (base : Ready) (run : Run σ ν) (id : TaskId)
    (history : List (Event ν)) :
    (first fd base run).Recalls id []
      (.woken id (.io .empty) :: .added fd base none :: history) where
  errors_eq := rfl
  ready_eq := rfl
  ioWakes_eq := by
    show (if id = id then Ready.empty :: (if fd = fd then [] else _) else _) = [Ready.empty]
    rw [if_pos rfl, if_pos rfl]

/-- An event is told with the error conditions that came before it. -/
theorem Recalls.hear (h : task.Recalls id heard history) (ready : Ready) (outcome : Outcome σ) :
    ((task.hear ready).after outcome).Recalls id (ready :: heard)
      (.woken id (.io (task.hear ready).ready) :: history) := by
  have hready : (task.hear ready).ready = ready ||| Ready.errorsIn heard := by
    rw [← h.errors_eq]
    exact Ready.or_or_and_errors ready task.errors
  refine ⟨?_, hready, ?_⟩
  · show task.errors ||| (ready &&& .errors) = _
    rw [h.errors_eq, Ready.errorsIn]
  · show (if id = id then _ :: Event.ioWakes id task.fd history else _) = _
    rw [if_pos rfl, h.ioWakes_eq, hready]
    rfl

end Task

namespace Scheduler

open Queue

variable {σ ν : Type} {b : Behaviour σ ν} {s s' : Scheduler σ ν} {id : TaskId} {task : Task σ}
  {heard : TaskId → List Ready} {m m' : Machine σ ν} {marks : List (Mark σ ν)}

def Recalled (heard : TaskId → List Ready) (s : Scheduler σ ν) : Prop :=
  ∀ id task, s.tasks.get? id = some task → task.Recalls id (heard id) s.history

namespace Recalled

theorem still (h : Recalled heard s) (hstill : Still s s') : Recalled heard s' := by
  intro id task' hget'
  obtain ⟨task, hget, hfd, hready, herrors⟩ := hstill.exists_get? id task' hget'
  obtain ⟨new, hnew, hidle⟩ := hstill.history_eq
  have hrecalls := h id task hget
  exact {
    errors_eq := herrors.trans hrecalls.errors_eq
    ready_eq := hready.trans hrecalls.ready_eq
    ioWakes_eq := by rw [hnew, Event.ioWakes_append hidle, hfd, hrecalls.ioWakes_eq] }

/-- Whatever the handle of a new task stood for before, the task has heard of nothing. -/
theorem enrol (h : Recalled heard s) (hregistered : s.Registered) {fd : Int} {interest : Ready}
    {start : TaskId → Run σ ν} (henrol : s.enrol fd interest start = (s', .ok id)) :
    Recalled (Function.update heard id []) s' := by
  obtain ⟨-, heq⟩ | ⟨error, refusals, -, -, heq⟩ |
      ⟨tasks, made, refusals, howner, -, hinsert, heq⟩ := enrol_cases s fd interest start
  · cases heq.symm.trans henrol
  · cases heq.symm.trans henrol
  · cases heq.symm.trans henrol
    have hget := hregistered.tidy.get?_insertWith fun id =>
      Task.first fd (interest ||| Ready.errors) (start id)
    simp only [hinsert] at hget
    intro other task hother
    rw [hget other] at hother
    split_ifs at hother with hid
    · cases hother
      rw [hid, Function.update_self]
      exact Task.recalls_first fd _ _ id s.history
    · rw [Function.update_of_ne hid]
      have hfd : fd ≠ task.fd := by
        rintro rfl
        cases howner.symm.trans (hregistered.owner?_of_get? other task hother)
      have hrecalls := h other task hother
      refine ⟨hrecalls.errors_eq, hrecalls.ready_eq, ?_⟩
      rw [Event.ioWakes_woken_ne (Ne.symm hid)]
      exact (if_neg hfd).trans hrecalls.ioWakes_eq

/-- The waking of one task is nothing to the others. -/
theorem rouse (h : Recalled heard s) (hget : s.tasks.get? id = some task) {wake : Wake}
    {task' : Task σ} {new : List Ready}
    (hrecalls : task'.Recalls id new (.woken id wake :: s.history)) :
    Recalled (Function.update heard id new) (s.rouse id wake task') := by
  intro other found hfound
  by_cases hother : other = id
  · subst hother
    rw [get?_rouse hget] at hfound
    cases hfound
    rw [Function.update_self]
    exact hrecalls
  · rw [(frames_rouse s id wake task').get?_eq other hother] at hfound
    have hfound := h other found hfound
    rw [Function.update_of_ne hother]
    exact ⟨hfound.errors_eq, hfound.ready_eq,
      (Event.ioWakes_woken_ne (Ne.symm hother) _ _ _).trans hfound.ioWakes_eq⟩

end Recalled

theorem Moment.recalled (h : Moment b heard m) : Recalled heard m.scheduler := by
  induction h with
  | fresh settings refusals clock =>
    intro id task hget
    simp [Arena.get?, Arena.slot?] at hget
  | aside h hchange htasks ih => exact ih.still (hchange.still h.registered htasks)
  | spawn h henrol ih => exact ih.enrol h.registered henrol
  | @event heard s id task state ready h hget _ ih =>
    exact ih.rouse hget ((ih id task hget).hear ready _)
  | @deadline heard s id task state timer h hget _ ih =>
    have hrecalls := ih id task hget
    rw [← Function.update_eq_self id heard]
    exact ih.rouse hget ⟨hrecalls.errors_eq, hrecalls.ready_eq, hrecalls.ioWakes_eq⟩
  | step h hstep hstarts ih =>
    obtain ⟨hstill, -⟩ | ⟨fd, interest, start, id, -, hmarks⟩ := still_of_step h.registered hstep
    · exact ih.still hstill
    · exact absurd ((hmarks id).2 rfl) (hstarts id)
  | @start heard m m' marks id h hstep hstarts ih =>
    obtain ⟨-, hnone⟩ | ⟨fd, interest, start, made, henrol, hmarks⟩ :=
      still_of_step h.registered hstep
    · exact absurd hstarts (hnone id)
    · cases (hmarks id).1 hstarts
      exact ih.enrol h.registered henrol

/-- A task that stays keeps its readiness and its error conditions, and one that is started was not
there before and has neither. -/
structure Undisturbed (marks : List (Mark σ ν)) (s s' : Scheduler σ ν) : Prop where
  kept : ∀ id task task', s.tasks.get? id = some task → s'.tasks.get? id = some task' →
    task'.ready = task.ready ∧ task'.errors = task.errors
  started : ∀ id, .started id ∈ marks → s.tasks.get? id = none ∧
    ∃ task, s'.tasks.get? id = some task ∧ task.ready = .empty ∧ task.errors = .empty

theorem undisturbed_of_step (h : m.scheduler.Registered)
    (hstep : m.step b = .ok (some (marks, m'))) :
    Undisturbed marks m.scheduler m'.scheduler := by
  obtain ⟨hstill, hnone⟩ | ⟨fd, interest, start, id, henrol, hmarks⟩ := still_of_step h hstep
  · refine ⟨fun id task task' hget hget' => ?_, fun id hid => absurd hid (hnone id)⟩
    obtain ⟨found, hfound, -, hready, herrors⟩ := hstill.exists_get? id task' hget'
    cases hget.symm.trans hfound
    exact ⟨hready, herrors⟩
  · obtain ⟨hfree, hframes, -, hnew⟩ := enrol_spec h henrol
    refine ⟨fun other task task' hget hget' => ?_, fun other hother => ?_⟩
    · have hne : other ≠ id := by
        rintro rfl
        cases hfree.symm.trans hget
      rw [hframes.get?_eq other hne, hget] at hget'
      cases hget'
      exact ⟨rfl, rfl⟩
    · cases (hmarks other).1 hother
      exact ⟨hfree, _, hnew, rfl, rfl⟩

structure Attentive (b : Behaviour σ ν) (heard : TaskId → List Ready) (s : Scheduler σ ν) :
    Prop where
  /-- An event resumes its task with the error conditions of all events before it. -/
  event : ∀ id task ready, s.tasks.get? id = some task → ∃ state woken,
    task.outcome.suspended? = some state ∧
      let told := ready ||| Ready.errorsIn (heard id)
      let run := b.resume ⟨id, task.fd, told, Ready.errorsIn (ready :: heard id)⟩ (.io told) state
      s.dispatch b (task.fd, ready) = woken.drive b id run ∧
        Moment b (Function.update heard id (ready :: heard id)) ⟨woken, [], [.running id run]⟩
  /-- A deadline resumes its task, which hears of nothing by it. -/
  deadline : ∀ id task timer, s.tasks.get? id = some task → ∃ state woken,
    task.outcome.suspended? = some state ∧
      let run := b.resume ⟨id, task.fd, Ready.latest (heard id), Ready.errorsIn (heard id)⟩
        (.timer timer) state
      s.wake b id (.timer timer) = woken.drive b id run ∧
        Moment b heard ⟨woken, [], [.running id run]⟩
  /-- A new task has heard of nothing, whatever its descriptor and its handle were used for. -/
  start : ∀ fd interest start s' id, s.enrol fd interest start = (s', .ok id) →
    s.tasks.get? id = none ∧
      (∃ task, s'.tasks.get? id = some task ∧ task.fd = fd ∧ task.ready = .empty ∧
        task.errors = .empty) ∧
      Moment b (Function.update heard id []) ⟨s', [], [.running id (start id)]⟩

theorem Moment.attentive (h : Moment b heard ⟨s, [], []⟩) : Attentive b heard s where
  event id task ready hget := by
    obtain ⟨state, woken, hstate, hdispatch, hmoment⟩ := h.dispatch hget ready
    have hrecalls := (h.recalled id task hget).hear ready .completed
    have hready : (task.hear ready).ready = ready ||| Ready.errorsIn (heard id) :=
      hrecalls.ready_eq
    have herrors : (task.hear ready).errors = Ready.errorsIn (ready :: heard id) :=
      hrecalls.errors_eq
    rw [stretch, hready, herrors] at hdispatch hmoment
    exact ⟨state, woken, hstate, hdispatch, hmoment⟩
  deadline id task timer hget := by
    obtain ⟨state, woken, hstate, hwake, hmoment⟩ := h.wake hget timer
    have hrecalls := h.recalled id task hget
    rw [stretch, hrecalls.ready_eq, hrecalls.errors_eq] at hwake hmoment
    exact ⟨state, woken, hstate, hwake, hmoment⟩
  start fd interest start s' id henrol := by
    obtain ⟨hnone, -, -, hget⟩ := enrol_spec h.registered henrol
    exact ⟨hnone, ⟨_, hget, rfl, rfl, rfl⟩, h.spawn henrol⟩

/-- At every moment of every run, within stretches and between them, what a live task can ask for is
what the events say that it has heard of since its start: their error conditions, and the last one
with the error conditions of those before it. It has been woken for each of these events, in order,
with the event and the error conditions of those before it, and for no other readiness. No step of
any stretch changes either of a task that stays; an event adds to what its own task has heard of, a
deadline does not, and neither does all that comes of them. A task that is started has heard of
nothing. -/
theorem recalled_of_moment (b : Behaviour σ ν) :
    (∀ s, Resting b s → ∃ heard, Moment b heard ⟨s, [], []⟩) ∧
      (∀ heard m, Moment b heard m → ∀ id task, m.scheduler.tasks.get? id = some task →
        task.Recalls id (heard id) m.scheduler.history) ∧
      (∀ heard m marks m', Moment b heard m → m.step b = .ok (some (marks, m')) →
        Undisturbed marks m.scheduler m'.scheduler) ∧
      (∀ heard s, Moment b heard ⟨s, [], []⟩ → Attentive b heard s) ∧
      ∀ heard s id run s', Moment b heard ⟨s, [], [.running id run]⟩ →
        s.drive b id run = .ok s' →
          ∃ marks heard', Reaches b ⟨s, [], [.running id run]⟩ marks ⟨s', [], []⟩ ∧
            Moment b heard' ⟨s', [], []⟩ ∧ Resets marks heard heard' :=
  ⟨fun _ h => h.exists_moment, fun _ _ h => h.recalled,
    fun _ _ _ _ h => undisturbed_of_step h.registered, fun _ _ h => h.attentive,
    fun _ _ _ _ _ h => h.exists_of_drive⟩

/-- Tasks that note what they know when they are woken, and then wait on. -/
def noting : Behaviour Unit (Ready × Ready) :=
  ⟨fun context _ _ =>
    .note (context.ready, context.errors) (.stop (.blocked .readable ())), fun _ _ => []⟩

/-- A task hears that the other side has closed, is woken by its deadline, and hears that it can
read. -/
def closedEarly : Except Crash (Scheduler Unit (Ready × Ready)) :=
  (({} : Scheduler Unit (Ready × Ready)).addTimer 100 10).bind fun (s, timer) =>
    (s.spawn noting 3 .readable [] fun _ =>
      .setTimer timer 5 (.stop (.blocked .readable ()))).bind fun (s, _) =>
    (s.turn noting { events := [(3, .writable ||| .readHangup)], elapsed := 1 }).bind fun (s, _) =>
    (s.turn noting { elapsed := 30 }).bind fun (s, _) =>
    (s.turn noting { events := [(3, .readable)] }).map (·.1)

theorem exists_recalled_closedEarly :
    ∃ (s : Scheduler Unit (Ready × Ready)) (heard : TaskId → List Ready) (task : Task Unit),
      Reachable noting s ∧ Moment noting heard ⟨s, [], []⟩ ∧ s.tasks.get? ⟨0, 0⟩ = some task ∧
      s.resumptions = [(⟨0, 0⟩, .io (.writable ||| .readHangup)), (⟨0, 0⟩, .timer ⟨0⟩),
        (⟨0, 0⟩, .io (.readable ||| .readHangup))] ∧
      Ready.wakes (heard ⟨0, 0⟩) = [.readable ||| .readHangup, .writable ||| .readHangup] ∧
      Ready.errorsIn (heard ⟨0, 0⟩) = .readHangup ∧ task.errors = .readHangup := by
  obtain ⟨s, hs, hview⟩ := exists_of_map_eq_ok (show closedEarly.map (fun s =>
    ((s.tasks.get? ⟨0, 0⟩).map fun task => (task.fd, task.errors), s.resumptions,
      Event.ioWakes ⟨0, 0⟩ 3 s.history)) =
    .ok (some (3, .readHangup), [(⟨0, 0⟩, .io (.writable ||| .readHangup)),
      (⟨0, 0⟩, .timer ⟨0⟩), (⟨0, 0⟩, .io (.readable ||| .readHangup))],
      [.readable ||| .readHangup, .writable ||| .readHangup, .empty]) by
      decide +kernel)
  obtain ⟨htask, hview⟩ := Prod.mk.inj hview
  obtain ⟨hresumptions, hwakes⟩ := Prod.mk.inj hview
  obtain ⟨⟨timed, timer⟩, htimer, hs⟩ := exists_of_bind_eq_ok hs
  obtain ⟨⟨spawned, result⟩, hspawned, hs⟩ := exists_of_bind_eq_ok hs
  obtain ⟨⟨closed, result⟩, hclosed, hs⟩ := exists_of_bind_eq_ok hs
  obtain ⟨⟨waited, result⟩, hwaited, hs⟩ := exists_of_bind_eq_ok hs
  obtain ⟨⟨turned, result⟩, hturned, rfl⟩ := exists_of_map_eq_ok hs
  have hreach : Reachable noting turned :=
    (((((Reachable.fresh {} [] 0).addTimer 100 10 htimer).spawn 3 .readable [] _ hspawned).turn _
      hclosed).turn _ hwaited).turn _ hturned
  obtain ⟨task, hget, hkept⟩ := Option.map_eq_some_iff.1 htask
  obtain ⟨hfd, herrors⟩ := Prod.mk.inj hkept
  obtain ⟨hmoments, hrecalls, -⟩ := recalled_of_moment noting
  obtain ⟨heard, hmoment⟩ := hmoments turned hreach.resting
  have htaskRecalls := hrecalls heard _ hmoment ⟨0, 0⟩ task hget
  have hheard : Ready.wakes (heard ⟨0, 0⟩) ++ [Ready.empty] =
      [.readable ||| .readHangup, .writable ||| .readHangup] ++ [Ready.empty] := by
    rw [← htaskRecalls.ioWakes_eq, hfd]
    exact hwakes
  exact ⟨turned, heard, task, hreach, hmoment, hget, hresumptions,
    List.append_cancel_right hheard, htaskRecalls.errors_eq.symm.trans herrors, herrors⟩

end Scheduler

end CoopHttp
