import CoopHttp.Proofs.Interest
import CoopHttp.Proofs.Scheduler.Frame
import CoopHttp.Proofs.Scheduler.Reachable

/-!
# Stretches

Between two stretches every live task is suspended, and its interest is what it wishes. A stretch
leaves the other live tasks as they are, whatever it does, and the tasks that it starts are at rest
when it ends.
-/
namespace CoopHttp

namespace Task

variable {σ : Type}

/-- What a task asks for in a wait: what it waits for, and the error conditions. In no wait it asks
for what it was started with. -/
def request (task : Task σ) (wait : Option Ready) : Ready := wait.elim task.base (· ||| .errors)

/-- What a suspended task wants by the wait that was begun last and has not ended. The error
conditions that it has been told of are left out. -/
def wish (task : Task σ) : Ready := task.request task.standing &&& ~~~task.errors

/-- The wait that was begun last is the one that the last stretch has left. -/
def Follows (task : Task σ) : Prop :=
  ∃ before, task.standing = task.outcome.lastStep.standing before

/-- The interest that the last stretch has left is the wish, but for error conditions. -/
structure Poised (task : Task σ) : Prop where
  wanted_eq : task.wanted &&& ~~~task.errors = task.wish
  follows : task.Follows

/-- The task is suspended, and its interest is its wish. -/
structure AtRest (task : Task σ) : Prop where
  suspended : task.outcome.suspended?.isSome
  interest_eq : task.interest = .ofApplied task.wish
  follows : task.Follows

/-- What an event leaves with a task before it is woken. -/
def hear (task : Task σ) (ready : Ready) : Task σ :=
  { task with
    errors := task.errors ||| (ready &&& .errors)
    ready := ready ||| (task.errors ||| (ready &&& .errors)) }

theorem poised_first {ν : Type} (fd : Int) (base : Ready) (run : Run σ ν) :
    (first fd base run).Poised := by
  refine ⟨?_, none, rfl⟩
  rw [wanted, wish, first]
  cases run.outcome.lastStep with
  | untouched => exact congrArg (· &&& _) (Interest.current_ofApplied base)
  | began wanted => exact Ready.or_errors_and_not wanted .empty
  | ended => rfl

/-- A stretch of a task that was at rest leaves it poised, whatever error conditions it has been told
of meanwhile. -/
theorem AtRest.poised {task : Task σ} (h : task.AtRest) (told : Task σ) (more : Ready)
    (hbase : told.base = task.base) (hinterest : told.interest = task.interest)
    (hstanding : told.standing = task.standing) (herrors : told.errors = task.errors ||| more)
    (outcome : Outcome σ) :
    (told.after outcome).Poised := by
  refine ⟨?_, told.standing, rfl⟩
  rw [wanted, wish, after]
  cases outcome.lastStep with
  | untouched =>
    show told.interest.current &&& _ = _
    rw [hinterest, h.interest_eq, Interest.current_ofApplied, wish]
    show _ &&& ~~~told.errors = request _ told.standing &&& ~~~told.errors
    rw [herrors, Ready.and_not_and_not_or, hstanding, request, request]
    exact congrArg (fun base => Option.elim _ base _ &&& _) hbase.symm
  | began wanted => exact Ready.or_errors_and_not wanted _
  | ended => rfl

end Task

namespace Scheduler

variable {σ ν : Type} {b : Behaviour σ ν} {s s' : Scheduler σ ν} {id : TaskId} {task : Task σ}

/-! The end of a stretch. -/

/-- The interest of a task is its wish from now on. -/
def adopt (s : Scheduler σ ν) (id : TaskId) (wish : Ready) : Scheduler σ ν :=
  s.modifyTask id fun task => { task with interest := .ofApplied wish }

/-- The poller has been told of a wish. -/
def ask (s : Scheduler σ ν) (id : TaskId) (fd : Int) (wish : Ready)
    (refusals : List Poller.Refusal) (failure : Option IoError) : Scheduler σ ν :=
  { s.adopt id wish with refusals }.record (.modified fd wish failure)

/-- Ways to go on with the wish of a task: nothing is told that is known already, and a task whose
wish is refused is ended. -/
inductive Heeds (b : Behaviour σ ν) (s : Scheduler σ ν) (id : TaskId) (task : Task σ)
    (wish : Ready) : Scheduler σ ν → Prop
  | known : task.interest.applied = wish → Heeds b s id task wish (s.adopt id wish)
  | told (refusals : List Poller.Refusal) :
    task.interest.applied ≠ wish → Heeds b s id task wish (s.ask id task.fd wish refusals none)
  | refused (refusals : List Poller.Refusal) (error : IoError) :
    task.interest.applied ≠ wish →
    Heeds b s id task wish ((s.ask id task.fd wish refusals (some error)).terminate b id)

theorem heeds_reconcile (b : Behaviour σ ν) (s : Scheduler σ ν) (id : TaskId) (task : Task σ)
    (wish : Ready) :
    Heeds b s id task (wish &&& ~~~task.errors) (s.reconcile b id task wish) := by
  rw [reconcile, Interest.sync_disable_set]
  by_cases heq : task.interest.applied = wish &&& ~~~task.errors
  · rw [if_pos heq]
    exact .known heq
  · rw [if_neg heq]
    cases hanswer : Poller.answer .modify task.fd s.refusals with
    | mk refusals failure =>
      cases failure with
      | none =>
        simp only [callPoller, modifyTask, hanswer]
        exact .told refusals heq
      | some error =>
        simp only [callPoller, modifyTask, hanswer]
        exact .refused refusals error heq

theorem settle_of_none (b : Behaviour σ ν) (hget : s.tasks.get? id = none) : s.settle b id = s := by
  simp only [settle, hget]

/-- The end of a stretch ends its task, or goes on with the interest that the stretch has left. -/
theorem settle_heeds (b : Behaviour σ ν) (hget : s.tasks.get? id = some task) :
    (task.outcome.suspended? = none ∧ s.settle b id = s.terminate b id) ∨
    (task.outcome.suspended?.isSome ∧
      Heeds b s id task (task.wanted &&& ~~~task.errors) (s.settle b id)) := by
  obtain ⟨hnone, -⟩ | ⟨found, hfound, ⟨hended, heq⟩ | ⟨hsuspended, heq⟩⟩ := settle_cases b s id
  · cases hget.symm.trans hnone
  · cases hget.symm.trans hfound
    exact .inl ⟨hended, heq⟩
  · cases hget.symm.trans hfound
    exact .inr ⟨hsuspended, heq ▸ heeds_reconcile b s id task task.wanted⟩

/-- A task that adopts its wish is at rest. -/
theorem atRest_adopt (hget : s.tasks.get? id = some task)
    (hsuspended : task.outcome.suspended?.isSome) (hfollows : task.Follows) {task' : Task σ}
    (hget' : (s.adopt id task.wish).tasks.get? id = some task') : task'.AtRest := by
  rw [adopt, modifyTask, Arena.get?_modify, if_pos rfl, hget] at hget'
  cases hget'
  exact ⟨hsuspended, rfl, hfollows⟩

theorem atRest_settle (h : s.Registered) (b : Behaviour σ ν) (hget : s.tasks.get? id = some task)
    (hpoised : task.Poised) {task' : Task σ}
    (hget' : (s.settle b id).tasks.get? id = some task') : task'.AtRest := by
  obtain ⟨-, heq⟩ | ⟨hsuspended, hheeds⟩ := settle_heeds b hget
  · rw [heq, get?_terminate h] at hget'
    cases hget'
  · rw [hpoised.wanted_eq] at hheeds
    generalize s.settle b id = settled at hheeds hget'
    cases hheeds with
    | known => exact atRest_adopt hget hsuspended hpoised.follows hget'
    | told refusals => exact atRest_adopt hget hsuspended hpoised.follows hget'
    | refused refusals error =>
      have hasked : (s.ask id task.fd task.wish refusals (some error)).Registered :=
        h.told hget _ refusals _ _
      rw [get?_terminate hasked] at hget'
      cases hget'

/-! What a stretch leaves alone. -/

/-- The live tasks are as they were, and those that are new are at rest. -/
structure Keeps (s s' : Scheduler σ ν) : Prop where
  get?_eq : ∀ other task, s.tasks.get? other = some task → s'.tasks.get? other = some task
  atRest : ∀ other task, s'.tasks.get? other = some task →
    s.tasks.get? other = some task ∨ task.AtRest

/-- The live tasks apart from `id` are as they were, and all others are at rest. -/
structure Spares (id : TaskId) (s s' : Scheduler σ ν) : Prop where
  get?_eq : ∀ other task, other ≠ id → s.tasks.get? other = some task →
    s'.tasks.get? other = some task
  atRest : ∀ other task, s'.tasks.get? other = some task →
    other ≠ id ∧ s.tasks.get? other = some task ∨ task.AtRest

theorem Keeps.of_eq (htasks : s'.tasks = s.tasks) : Keeps s s' where
  get?_eq _ _ hget := htasks ▸ hget
  atRest _ _ hget := .inl (htasks ▸ hget)

theorem Keeps.trans {s'' : Scheduler σ ν} (h : Keeps s s') (h' : Keeps s' s'') : Keeps s s'' where
  get?_eq other task hget := h'.get?_eq other task (h.get?_eq other task hget)
  atRest other task hget := by
    obtain hget' | hrest := h'.atRest other task hget
    · exact h.atRest other task hget'
    · exact .inr hrest

/-- What one task goes through while all others are kept. -/
theorem Keeps.spares {s'' : Scheduler σ ν} (h : Keeps s s') (h' : Spares id s' s'') :
    Spares id s s'' where
  get?_eq other task hne hget := h'.get?_eq other task hne (h.get?_eq other task hget)
  atRest other task hget := by
    obtain ⟨hne, hget'⟩ | hrest := h'.atRest other task hget
    · exact (h.atRest other task hget').imp (⟨hne, ·⟩) (·)
    · exact .inr hrest

theorem Frames.spares {s'' : Scheduler σ ν} (h : Frames id s s') (h' : Spares id s' s'') :
    Spares id s s'' where
  get?_eq other task hne hget := h'.get?_eq other task hne ((h.get?_eq other hne).trans hget)
  atRest other task hget := by
    obtain ⟨hne, hget'⟩ | hrest := h'.atRest other task hget
    · exact .inl ⟨hne, (h.get?_eq other hne).symm.trans hget'⟩
    · exact .inr hrest

/-- A task that was not there before is spared by nobody and concerns nobody. -/
theorem Spares.keeps (h : Spares id s s') (hnone : s.tasks.get? id = none) : Keeps s s' where
  get?_eq other task hget := by
    refine h.get?_eq other task ?_ hget
    rintro rfl
    cases hnone.symm.trans hget
  atRest other task hget := (h.atRest other task hget).imp_left And.right

theorem spares_settle (h : s.Registered) (b : Behaviour σ ν)
    (hget : s.tasks.get? id = some task) (hpoised : task.Poised) :
    Spares id s (s.settle b id) := by
  have hframes := (settle_spec h b hget).1
  refine ⟨fun other task' hne hget' => (hframes.get?_eq other hne).trans hget',
    fun other task' hget' => ?_⟩
  by_cases hother : other = id
  · subst hother
    exact .inr (atRest_settle h b hget hpoised hget')
  · exact .inl ⟨hother, (hframes.get?_eq other hother).symm.trans hget'⟩

theorem keeps_grant {run : Run σ ν} (h : s.Registered) (hrun : grant b id run s = .ok s') :
    Keeps s s' := by
  induction run generalizing s s' id with
  | stop outcome | crash cause =>
    cases hrun
    exact .of_eq rfl
  | note entry next ih | elapse span next ih => exact ih h hrun
  | setTimer timer delay next ih =>
    obtain ⟨⟨armed, was⟩, hset, hnext⟩ := exists_of_bind_eq_ok hrun
    exact (Keeps.of_eq (tasks_setTimer hset)).trans (ih (h.setTimer hset) hnext)
  | clearTimer timer next ih =>
    exact (Keeps.of_eq (tasks_clearTimer s timer id)).trans (ih (h.clearTimer timer id) hrun)
  | spawn fd interest refused start next ihstart ih =>
    have henrolled := h.enrol fd interest start
    rw [grant] at hrun
    split at hrun
    · rename_i enrolled error henrol
      rw [henrol] at henrolled
      have hsame : Keeps s (enrolled.recordNotes refused) := .of_eq (sameTasks_of_enrol henrol).1
      exact hsame.trans (ih (henrolled.recordNotes refused) hrun)
    · rename_i enrolled child henrol
      rw [henrol] at henrolled
      obtain ⟨performed, hperform, hrun⟩ := exists_of_bind_eq_ok hrun
      obtain ⟨granted, hgrant, hnext⟩ := exists_of_bind_eq_ok hrun
      have hperformed := henrolled.perform hperform
      have hgranted := hperformed.grant hgrant
      obtain ⟨hnone, hframes, -, hget⟩ := enrol_spec h henrol
      have hkeeps : Keeps enrolled granted :=
        (Keeps.of_eq (perform_eq hperform).1).trans (ihstart child hperformed hgrant)
      have hsettled := spares_settle hgranted b (hkeeps.get?_eq child _ hget)
        (Task.poised_first fd _ (start child))
      have hchild := (hframes.spares (hkeeps.spares hsettled)).keeps hnone
      exact hchild.trans (ih (hgranted.settle b child) hnext)

theorem spares_drive {run : Run σ ν} (h : s.Registered) (hget : s.tasks.get? id = some task)
    (hpoised : task.Poised) (hdrive : s.drive b id run = .ok s') : Spares id s s' := by
  obtain ⟨performed, hperform, hdrive⟩ := exists_of_bind_eq_ok hdrive
  obtain ⟨granted, hgrant, rfl⟩ := exists_of_map_eq_ok hdrive
  have hperformed := h.perform hperform
  have hkeeps : Keeps s granted :=
    (Keeps.of_eq (perform_eq hperform).1).trans (keeps_grant hperformed hgrant)
  exact hkeeps.spares
    (spares_settle (hperformed.grant hgrant) b (hkeeps.get?_eq id task hget) hpoised)

/-! Waking. -/

/-- The stretch of a task that is woken in `state`. -/
def stretch (b : Behaviour σ ν) (id : TaskId) (task : Task σ) (wake : Wake) (state : σ) : Run σ ν :=
  b.resume ⟨id, task.fd, task.ready, task.errors⟩ wake state

/-- A task has been woken, and is in the condition that its stretch will end in. -/
def rouse (s : Scheduler σ ν) (id : TaskId) (wake : Wake) (task : Task σ) : Scheduler σ ν :=
  (s.record (.woken id wake)).modifyTask id fun _ => task

theorem modifyTask_congr {f g : Task σ → Task σ} (hget : s.tasks.get? id = some task)
    (heq : f task = g task) : s.modifyTask id f = s.modifyTask id g := by
  simp only [modifyTask, Arena.modify, hget, heq]

theorem get?_modifyTask_self (hget : s.tasks.get? id = some task) (f : Task σ → Task σ) :
    (s.modifyTask id f).tasks.get? id = some (f task) := by
  rw [modifyTask, Arena.get?_modify, if_pos rfl, hget, Option.map_some]

theorem modifyTask_modifyTask (s : Scheduler σ ν) (id : TaskId) (f g : Task σ → Task σ) :
    (s.modifyTask id f).modifyTask id g = s.modifyTask id (g ∘ f) := by
  cases hget : s.tasks.get? id with
  | none => simp only [modifyTask, Arena.modify, hget]
  | some task =>
    have hget' := get?_modifyTask_self hget f
    simp only [modifyTask, Arena.modify, hget] at hget' ⊢
    rw [hget']
    simp only [List.set_set, Function.comp_apply]

theorem get?_rouse (hget : s.tasks.get? id = some task) (wake : Wake) (task' : Task σ) :
    (s.rouse id wake task').tasks.get? id = some task' :=
  get?_modifyTask_self (s := s.record (.woken id wake)) hget _

theorem frames_rouse (s : Scheduler σ ν) (id : TaskId) (wake : Wake) (task : Task σ) :
    Frames id s (s.rouse id wake task) :=
  (Frames.of_eq rfl rfl : Frames id s (s.record (.woken id wake))).trans (frames_modifyTask _ id _)

theorem registered_rouse (h : s.Registered) (hget : s.tasks.get? id = some task) (wake : Wake)
    {task' : Task σ} (hfd : task'.fd = task.fd) : (s.rouse id wake task').Registered := by
  have hrecord := h.record (.woken id wake) rfl trivial
  rw [rouse, modifyTask_congr (s := s.record (.woken id wake)) (g := fun old =>
    { task' with fd := old.fd }) hget (by simp [← hfd])]
  exact hrecord.modifyTask id _ fun _ => rfl

/-- Waking a suspended task runs its next stretch. -/
theorem wake_eq_drive (b : Behaviour σ ν) (hget : s.tasks.get? id = some task) {state : σ}
    (hstate : task.outcome.suspended? = some state) (wake : Wake) :
    s.wake b id wake =
      (s.rouse id wake (task.after (stretch b id task wake state).outcome)).drive b id
        (stretch b id task wake state) := by
  simp only [Scheduler.wake, hget, hstate]
  rw [modifyTask_congr (s := s.record (.woken id wake)) (g := fun _ =>
    task.after (stretch b id task wake state).outcome) hget rfl]
  rfl

/-- An event runs the next stretch of the owner of its descriptor, which hears of it first. -/
theorem dispatch_eq_drive (b : Behaviour σ ν) {fd : Int} (howner : s.owner? fd = some id)
    (hget : s.tasks.get? id = some task) {state : σ}
    (hstate : task.outcome.suspended? = some state) (ready : Ready) :
    s.dispatch b (fd, ready) =
      let heard := task.hear ready
      let run := stretch b id heard (.io heard.ready) state
      (s.rouse id (.io heard.ready) (heard.after run.outcome)).drive b id run := by
  have hheard : (s.modifyTask id fun _ => task.hear ready).tasks.get? id = some (task.hear ready) :=
    get?_modifyTask_self hget _
  have hdispatch : s.dispatch b (fd, ready) =
      (s.modifyTask id fun _ => task.hear ready).wake b id (.io (task.hear ready).ready) := by
    simp only [dispatch, howner, hget]
    rw [modifyTask_congr (g := fun _ => task.hear ready) hget rfl]
    rfl
  rw [hdispatch, wake_eq_drive b hheard hstate]
  congr 1
  exact modifyTask_modifyTask (s.record _) id _ _

end Scheduler

end CoopHttp
