import CoopHttp.Proofs.Scheduler.Resumption

/-!
# What the poller is told

The log shows what the poller was last told of a descriptor, and which error conditions a task has
been woken with. At rest both agree with what the scheduler keeps of each task: the poller was told
the task's wish, less the error conditions that it knows of, and it is never told what it was told
before.
-/
namespace CoopHttp

namespace Event

variable {ν : Type}

/-- What the poller was last told of a descriptor, of the calls that it did not refuse; the last
event comes first. -/
def told? (fd : Int) : List (Event ν) → Option Ready
  | [] => none
  | .added other value none :: earlier | .modified other value none :: earlier =>
    if other = fd then some value else told? fd earlier
  | _ :: earlier => told? fd earlier

/-- The error conditions that a task has been woken with since its descriptor was added; the last
event comes first. -/
def errorsSeen (id : TaskId) (fd : Int) : List (Event ν) → Ready
  | [] => .empty
  | .added other _ none :: earlier => if other = fd then .empty else errorsSeen id fd earlier
  | .woken other (.io ready) :: earlier =>
    if other = id then (ready &&& .errors) ||| errorsSeen id fd earlier
    else errorsSeen id fd earlier
  | _ :: earlier => errorsSeen id fd earlier

/-- No change told the poller what it had been told before; the last event comes first. -/
def Thrifty : List (Event ν) → Prop
  | [] => True
  | .modified fd value _ :: earlier => told? fd earlier ≠ some value ∧ Thrifty earlier
  | _ :: earlier => Thrifty earlier

/-- The event tells the poller nothing and wakes nobody. -/
def Silent : Event ν → Prop
  | added _ _ (some _) | deleted _ _ | polled _ _ | note _ => True
  | _ => False

variable {event : Event ν}

theorem Silent.told?_cons (h : event.Silent) (fd : Int) (earlier : List (Event ν)) :
    told? fd (event :: earlier) = told? fd earlier := by
  cases event with
  | added other value failure =>
    cases failure with
    | none => cases h
    | some error => rfl
  | modified | woken => cases h
  | deleted | polled | note => rfl

theorem Silent.errorsSeen_cons (h : event.Silent) (id : TaskId) (fd : Int)
    (earlier : List (Event ν)) : errorsSeen id fd (event :: earlier) = errorsSeen id fd earlier := by
  cases event with
  | added other value failure =>
    cases failure with
    | none => cases h
    | some error => rfl
  | modified | woken => cases h
  | deleted | polled | note => rfl

theorem thrifty_cons_iff (h : ∀ fd value failure, event ≠ .modified fd value failure)
    {earlier : List (Event ν)} : Thrifty (event :: earlier) ↔ Thrifty earlier := by
  cases event with
  | modified fd value failure => exact absurd rfl (h fd value failure)
  | added | deleted | polled | woken | note => exact Iff.rfl

theorem Silent.thrifty_cons (h : event.Silent) {earlier : List (Event ν)} :
    Thrifty (event :: earlier) ↔ Thrifty earlier := by
  refine thrifty_cons_iff ?_
  rintro fd value failure rfl
  exact h

end Event

namespace Task

variable {σ ν : Type} {task task' : Task σ} {id : TaskId} {history : List (Event ν)}

/-- The log shows what the scheduler keeps of the task: what the poller was told, and the error
conditions that the task has been woken with. -/
structure Agrees (task : Task σ) (id : TaskId) (history : List (Event ν)) : Prop where
  told : Event.told? task.fd history = some task.interest.applied
  seen : Event.errorsSeen id task.fd history = task.errors

namespace Agrees

/-- Of a task only what is kept of its interest and of the error conditions matters. -/
theorem congr (h : task.Agrees id history) (hfd : task'.fd = task.fd)
    (happlied : task'.interest.applied = task.interest.applied)
    (herrors : task'.errors = task.errors) : task'.Agrees id history where
  told := by rw [hfd, happlied, h.told]
  seen := by rw [hfd, herrors, h.seen]

theorem silent (h : task.Agrees id history) (event : Event ν) (hsilent : event.Silent) :
    task.Agrees id (event :: history) where
  told := (hsilent.told?_cons _ _).trans h.told
  seen := (hsilent.errorsSeen_cons _ _ _).trans h.seen

/-- The poller has been told of another descriptor. -/
theorem modified (h : task.Agrees id history) {fd : Int} (hfd : task.fd ≠ fd) (value : Ready)
    (failure : Option IoError) : task.Agrees id (.modified fd value failure :: history) where
  told := by
    cases failure with
    | none => exact (if_neg hfd.symm).trans h.told
    | some error => exact h.told
  seen := h.seen

/-- Another descriptor has been added. -/
theorem added (h : task.Agrees id history) {fd : Int} (hfd : task.fd ≠ fd) (value : Ready) :
    task.Agrees id (.added fd value none :: history) where
  told := (if_neg hfd.symm).trans h.told
  seen := (if_neg hfd.symm).trans h.seen

/-- Another task has been woken. -/
theorem woken (h : task.Agrees id history) {other : TaskId} (hother : id ≠ other) (wake : Wake) :
    task.Agrees id (.woken other wake :: history) where
  told := h.told
  seen := by
    cases wake with
    | io ready => exact (if_neg hother.symm).trans h.seen
    | timer timer => exact h.seen

end Agrees

/-- A task agrees with the log that begins with it. -/
theorem agrees_first (fd : Int) (base : Ready) (run : Run σ ν) (id : TaskId)
    (history : List (Event ν)) :
    (first fd base run).Agrees id (.woken id (.io .empty) :: .added fd base none :: history) where
  told := if_pos rfl
  seen := by
    show (if id = id then _ ||| (if fd = fd then Ready.empty else _) else _) = Ready.empty
    rw [if_pos rfl, if_pos rfl]
    rfl

end Task

namespace Scheduler

variable {σ ν : Type} {b : Behaviour σ ν} {s s' : Scheduler σ ν} {id : TaskId} {task : Task σ}

/-- The log agrees with every live task, and all that the poller was told was news. -/
structure Agreed (s : Scheduler σ ν) : Prop where
  agrees : ∀ id task, s.tasks.get? id = some task → task.Agrees id s.history
  thrifty : Event.Thrifty s.history

theorem Registered.fd_ne (h : s.Registered) {other : TaskId} {task' : Task σ}
    (hget : s.tasks.get? id = some task) (hget' : s.tasks.get? other = some task')
    (hne : other ≠ id) : task'.fd ≠ task.fd := by
  intro heq
  have howner := h.owner?_of_get? id task hget
  rw [← heq, h.owner?_of_get? other task' hget'] at howner
  exact hne (Option.some.inj howner)

namespace Agreed

theorem of_eq (h : s.Agreed) (htasks : s'.tasks = s.tasks) (hhistory : s'.history = s.history) :
    s'.Agreed where
  agrees := by
    rw [htasks, hhistory]
    exact h.agrees
  thrifty := hhistory ▸ h.thrifty

theorem record (h : s.Agreed) (event : Event ν) (hsilent : event.Silent) :
    (s.record event).Agreed where
  agrees id task hget := (h.agrees id task hget).silent event hsilent
  thrifty := hsilent.thrifty_cons.2 h.thrifty

theorem recordNotes (h : s.Agreed) (entries : List ν) : (s.recordNotes entries).Agreed := by
  induction entries generalizing s with
  | nil => exact h
  | cons entry entries ih =>
    rw [recordNotes_cons]
    exact ih (h.record (.note entry) trivial)

theorem enrol (h : s.Agreed) (hregistered : s.Registered) (fd : Int) (interest : Ready)
    (start : TaskId → Run σ ν) : (s.enrol fd interest start).1.Agreed := by
  obtain ⟨-, heq⟩ | ⟨error, refusals, -, -, heq⟩ | ⟨tasks, id, refusals, howner, -, hinsert, heq⟩ :=
    enrol_cases s fd interest start
  · rw [heq]
    exact h
  · rw [heq]
    have hrefusals : ({ s with refusals } : Scheduler σ ν).Agreed := h.of_eq rfl rfl
    exact hrefusals.record (.added fd _ (some error)) trivial
  · rw [heq]
    have hget := hregistered.tidy.get?_insertWith fun id =>
      Task.first fd (interest ||| Ready.errors) (start id)
    simp only [hinsert] at hget
    refine ⟨fun other task hother => ?_, h.thrifty⟩
    rw [hget other] at hother
    split_ifs at hother with hid
    · cases hother
      rw [hid]
      exact Task.agrees_first fd _ _ id s.history
    · have hfd : task.fd ≠ fd := by
        rintro rfl
        cases howner.symm.trans (hregistered.owner?_of_get? other task hother)
      exact ((h.agrees other task hother).added hfd _).woken hid _

/-- A task that ends need not agree with the log. -/
theorem terminate (hregistered : s.Registered) (b : Behaviour σ ν)
    (hothers : ∀ other task, other ≠ id → s.tasks.get? other = some task →
      task.Agrees other s.history)
    (hthrifty : Event.Thrifty s.history) : (s.terminate b id).Agreed := by
  obtain ⟨hnone, heq⟩ | ⟨task, refusals, failure, -, heq⟩ :=
    terminate_cases b s (hregistered.owner?_of_get? id)
  · rw [heq]
    refine ⟨fun other task hget => hothers other task ?_ hget, hthrifty⟩
    rintro rfl
    cases hnone.symm.trans hget
  · rw [heq]
    refine recordNotes ?_ _
    refine ⟨fun other task' hget => ?_, hthrifty⟩
    change (s.tasks.remove id).1.get? other = some task' at hget
    rw [Arena.get?_remove] at hget
    split_ifs at hget with hother
    exact (hothers other task' hother hget).silent (.deleted task.fd failure) trivial

/-- What the poller has been asked agrees with the others, whatever its answer. -/
theorem agrees_ask (h : s.Agreed) (hregistered : s.Registered) (hget : s.tasks.get? id = some task)
    {wish : Ready} {refusals : List Poller.Refusal} {failure : Option IoError} {other : TaskId}
    {task' : Task σ} (hother : other ≠ id)
    (hget' : (s.ask id task.fd wish refusals failure).tasks.get? other = some task') :
    task'.Agrees other (s.ask id task.fd wish refusals failure).history := by
  change (s.adopt id wish).tasks.get? other = some task' at hget'
  rw [adopt, modifyTask, Arena.get?_modify, if_neg hother] at hget'
  exact (h.agrees other task' hget').modified (hregistered.fd_ne hget hget' hother) wish failure

theorem settle (h : s.Agreed) (hregistered : s.Registered) (b : Behaviour σ ν) (id : TaskId) :
    (s.settle b id).Agreed := by
  cases hget : s.tasks.get? id with
  | none => exact (settle_of_none b hget).symm ▸ h
  | some task =>
    obtain ⟨-, heq⟩ | ⟨-, hheeds⟩ := settle_heeds b hget
    · rw [heq]
      exact terminate hregistered b (fun other task _ => h.agrees other task) h.thrifty
    · -- The wish is news exactly if the log does not show it yet.
      have hagrees := h.agrees id task hget
      generalize task.wanted &&& ~~~task.errors = wish at hheeds
      have hnews : task.interest.applied ≠ wish → ∀ failure,
          Event.Thrifty (.modified task.fd wish failure :: s.history) := by
        intro hne failure
        refine ⟨?_, h.thrifty⟩
        rw [hagrees.told]
        exact fun heq => hne (Option.some.inj heq)
      generalize s.settle b id = settled at hheeds
      cases hheeds with
      | known heq =>
        refine ⟨fun other task' hget' => ?_, h.thrifty⟩
        rw [adopt, modifyTask, Arena.get?_modify] at hget'
        split_ifs at hget' with hother
        · rw [hget] at hget'
          cases hget'
          rw [hother]
          exact hagrees.congr rfl heq.symm rfl
        · exact h.agrees other task' hget'
      | told refusals hne =>
        refine ⟨fun other task' hget' => ?_, hnews hne none⟩
        by_cases hother : other = id
        · subst hother
          change (s.adopt other wish).tasks.get? other = some task' at hget'
          rw [adopt, get?_modifyTask_self hget] at hget'
          cases hget'
          exact ⟨if_pos rfl, hagrees.seen⟩
        · exact h.agrees_ask hregistered hget hother hget'
      | refused refusals error hne =>
        have hasked : (s.ask id task.fd wish refusals (some error)).Registered :=
          hregistered.told hget _ refusals _ _
        exact terminate hasked b (fun other task' => h.agrees_ask hregistered hget)
          (hnews hne (some error))

theorem change (h : s.Agreed) (hregistered : s.Registered) (hchange : Change b s s') :
    s'.Agreed := by
  cases hchange with
  | notes entries => exact h.recordNotes entries
  | poll => exact h.record (.polled _ _) trivial
  | elapse heq =>
    obtain ⟨clock, rfl⟩ := elapse_eq heq
    exact h.of_eq rfl rfl
  | addTimer heq =>
    obtain ⟨wheel, -, rfl⟩ := addTimer_eq heq
    exact h.of_eq rfl rfl
  | setTimer heq =>
    obtain rfl | ⟨wheel, wheel', -, -, -, rfl⟩ := setTimer_cases heq
    · exact h
    · exact h.of_eq rfl rfl
  | clearTimer timer task =>
    obtain heq | ⟨wheel, -, heq⟩ := clearTimer_cases s timer task
    · rw [heq]
      exact h
    · rw [heq]
      exact h.of_eq rfl rfl
  | sweep => exact h.of_eq rfl rfl
  | enrol fd interest start => exact h.enrol hregistered fd interest start
  | settle id => exact h.settle hregistered b id

/-- The error conditions of an event are logged with the wake that it leads to. -/
theorem rouse (h : s.Agreed) (hget : s.tasks.get? id = some task) {wake : Wake} {task' : Task σ}
    (hroused : Roused task wake task') : (s.rouse id wake task').Agreed where
  agrees other found hfound := by
    by_cases hother : other = id
    · subst hother
      rw [get?_rouse hget] at hfound
      cases hfound
      have hagrees := h.agrees other task hget
      cases hroused with
      | io ready outcome =>
        refine ⟨hagrees.told, ?_⟩
        show (if other = other then _ ||| Event.errorsSeen other task.fd s.history else _) = _
        rw [if_pos rfl, hagrees.seen]
        exact Ready.and_errors_or ready task.errors
      | timer timer outcome => exact ⟨hagrees.told, hagrees.seen⟩
    · rw [(frames_rouse s id wake task').get?_eq other hother] at hfound
      exact (h.agrees other found hfound).woken hother wake
  thrifty := h.thrifty

end Agreed

end Scheduler

/-! What a task waits for. -/

namespace Task

variable {σ : Type} {task : Task σ} {seen : Ready}

end Task

namespace Scheduler

variable {σ ν : Type} {b : Behaviour σ ν} {s : Scheduler σ ν}

/-- Tasks that wait again whenever they are woken. -/
def waiting : Behaviour Unit Unit :=
  ⟨fun _ _ _ => .stop (.blocked .readable ()), fun _ _ => []⟩

end Scheduler

end CoopHttp
