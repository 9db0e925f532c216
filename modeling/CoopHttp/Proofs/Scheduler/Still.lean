import CoopHttp.Proofs.Scheduler.Resting

/-!
# What leaves tasks alone

Whatever a scheduler does apart from waking a task and starting one: the tasks that stay keep their
readiness and their error conditions, and the log shows no wake.
-/
namespace CoopHttp

namespace Event

variable {ν : Type}

/-- The event wakes nobody, and no task is started behind it. -/
def Idle : Event ν → Prop
  | woken _ _ | added _ _ none => False
  | _ => True

end Event

namespace Scheduler

variable {σ ν : Type} {b : Behaviour σ ν} {s s' s'' : Scheduler σ ν} {id : TaskId} {task : Task σ}

/-- The tasks of `s'` were there before, with the same readiness and the same error conditions, and
nobody has been woken since. -/
structure Still (s s' : Scheduler σ ν) : Prop where
  registered : s'.Registered
  exists_get? : ∀ id task', s'.tasks.get? id = some task' → ∃ task, s.tasks.get? id = some task ∧
    task'.fd = task.fd ∧ task'.ready = task.ready ∧ task'.errors = task.errors
  history_eq : ∃ new, s'.history = new ++ s.history ∧ ∀ event ∈ new, event.Idle

namespace Still

theorem of_tasks (hregistered : s'.Registered) (htasks : s'.tasks = s.tasks)
    (hhistory : ∃ new, s'.history = new ++ s.history ∧ ∀ event ∈ new, event.Idle) : Still s s' where
  registered := hregistered
  exists_get? _ task' hget := ⟨task', htasks ▸ hget, rfl, rfl, rfl⟩
  history_eq := hhistory

theorem of_eq (hregistered : s'.Registered) (htasks : s'.tasks = s.tasks)
    (hhistory : s'.history = s.history) : Still s s' :=
  of_tasks hregistered htasks ⟨[], hhistory, by simp⟩

theorem trans (h : Still s s') (h' : Still s' s'') : Still s s'' where
  registered := h'.registered
  exists_get? id task'' hget := by
    obtain ⟨task', hget', hfd', hready', herrors'⟩ := h'.exists_get? id task'' hget
    obtain ⟨task, hget, hfd, hready, herrors⟩ := h.exists_get? id task' hget'
    exact ⟨task, hget, hfd'.trans hfd, hready'.trans hready, herrors'.trans herrors⟩
  history_eq := by
    obtain ⟨new, hnew, hidle⟩ := h.history_eq
    obtain ⟨later, hlater, hidle'⟩ := h'.history_eq
    refine ⟨later ++ new, by rw [hlater, hnew, List.append_assoc], fun event hevent => ?_⟩
    exact (List.mem_append.1 hevent).elim (hidle' event) (hidle event)

theorem recordNotes (h : s.Registered) (entries : List ν) : Still s (s.recordNotes entries) := by
  refine of_tasks (h.recordNotes entries) rfl ⟨(entries.map .note).reverse, rfl, ?_⟩
  intro event hevent
  obtain ⟨entry, -, rfl⟩ := List.mem_map.1 (List.mem_reverse.1 hevent)
  trivial

theorem elapse {span : ℕ} (h : s.Registered) (helapse : s.elapse span = .ok s') : Still s s' := by
  have hregistered := h.elapse helapse
  obtain ⟨clock, rfl⟩ := elapse_eq helapse
  exact of_eq hregistered rfl rfl

theorem setTimer {timer : TimerId} {delay : ℕ} {was : Bool} (h : s.Registered)
    (hset : s.setTimer timer id delay = .ok (s', was)) : Still s s' := by
  have hregistered := h.setTimer hset
  obtain rfl | ⟨wheel, wheel', -, -, -, rfl⟩ := setTimer_cases hset
  · exact of_eq hregistered rfl rfl
  · exact of_eq hregistered rfl rfl

theorem clearTimer (h : s.Registered) (timer : TimerId) (id : TaskId) :
    Still s (s.clearTimer timer id).1 := by
  refine of_eq (h.clearTimer timer id) (tasks_clearTimer s timer id) ?_
  obtain heq | ⟨wheel, -, heq⟩ := clearTimer_cases s timer id <;> rw [heq]

/-- A task that cannot be started changes nobody. -/
theorem refused {fd : Int} {interest : Ready} {start : TaskId → Run σ ν} {error : IoError}
    (h : s.Registered) (henrol : s.enrol fd interest start = (s', .error error)) : Still s s' := by
  have hregistered := h.enrol fd interest start
  rw [henrol] at hregistered
  obtain ⟨-, heq⟩ | ⟨error', refusals, -, -, heq⟩ | ⟨tasks, made, refusals, -, -, -, heq⟩ :=
    enrol_cases s fd interest start
  · cases heq.symm.trans henrol
    exact of_eq hregistered rfl rfl
  · cases heq.symm.trans henrol
    exact of_tasks hregistered rfl ⟨[.added fd _ (some error)], rfl, by simp [Event.Idle]⟩
  · cases heq.symm.trans henrol

theorem terminate (h : s.Registered) (b : Behaviour σ ν) (id : TaskId) :
    Still s (s.terminate b id) := by
  have hregistered := h.terminate b id
  obtain ⟨-, heq⟩ | ⟨task, refusals, failure, -, heq⟩ :=
    terminate_cases b s (h.owner?_of_get? id)
  · rw [heq] at hregistered ⊢
    exact of_eq hregistered rfl rfl
  · rw [heq] at hregistered ⊢
    generalize (task.outcome.owner?.map (b.release task.fd)).getD [] = entries at hregistered
    refine ⟨hregistered, fun other task' hget => ?_, ?_⟩
    · change (s.tasks.remove id).1.get? other = some task' at hget
      rw [Arena.get?_remove] at hget
      split_ifs at hget
      exact ⟨task', hget, rfl, rfl, rfl⟩
    · refine ⟨(entries.map .note).reverse ++ [.deleted task.fd failure],
        by simp [Scheduler.recordNotes], fun event hevent => ?_⟩
      obtain hnote | hdeleted := List.mem_append.1 hevent
      · obtain ⟨entry, -, rfl⟩ := List.mem_map.1 (List.mem_reverse.1 hnote)
        trivial
      · rw [List.mem_singleton.1 hdeleted]
        trivial

/-- Only the interest of the task is changed, and the poller may be told. -/
theorem adopted (h : s.Registered) (hget : s.tasks.get? id = some task) (interest : Interest) :
    Still s (s.modifyTask id fun task => { task with interest }) ∧
      ∀ refusals applied failure,
        Still s ({ s.modifyTask id fun task => { task with interest } with
          refusals }.record (.modified task.fd applied failure)) := by
  have hwas : ∀ other task', (s.modifyTask id fun task => { task with interest }).tasks.get? other =
      some task' → ∃ task, s.tasks.get? other = some task ∧ task'.fd = task.fd ∧
        task'.ready = task.ready ∧ task'.errors = task.errors := by
    intro other task' hget'
    rw [modifyTask, Arena.get?_modify] at hget'
    split_ifs at hget' with hother
    · rw [hget] at hget'
      cases hget'
      exact ⟨task, hother ▸ hget, rfl, rfl, rfl⟩
    · exact ⟨task', hget', rfl, rfl, rfl⟩
  refine ⟨⟨h.modifyTask id _ fun _ => rfl, hwas, [], rfl, by simp⟩,
    fun refusals applied failure => ⟨h.told hget interest refusals applied failure, hwas, ?_⟩⟩
  exact ⟨[.modified task.fd applied failure], rfl, by simp [Event.Idle]⟩

theorem settle (h : s.Registered) (b : Behaviour σ ν) (id : TaskId) : Still s (s.settle b id) := by
  obtain ⟨-, heq⟩ | ⟨task, hget, ⟨-, heq⟩ | ⟨-, heq⟩⟩ := settle_cases b s id
  · rw [heq]
    exact of_eq h rfl rfl
  · rw [heq]
    exact terminate h b id
  · obtain ⟨interest, heq' | ⟨applied, refusals, failure, heq' | heq'⟩⟩ :=
      reconcile_cases b s id task task.wanted
    · rw [heq, heq']
      exact (adopted h hget interest).1
    · rw [heq, heq']
      exact (adopted h hget interest).2 refusals applied failure
    · have htold := (adopted h hget interest).2 refusals applied failure
      rw [heq, heq']
      exact htold.trans (terminate htold.registered b id)

end Still

/-- A change starts a task, or leaves the readiness of all tasks alone. -/
theorem Change.still_or_starts (h : s.Registered) (hchange : Change b s s') :
    Still s s' ∨ ∃ fd interest start id, s.enrol fd interest start = (s', .ok id) := by
  have hregistered := hchange.registered h
  cases hchange with
  | notes entries => exact .inl (.recordNotes h entries)
  | poll => exact .inl (.of_tasks hregistered rfl ⟨[.polled _ _], rfl, by simp [Event.Idle]⟩)
  | elapse heq => exact .inl (.elapse h heq)
  | addTimer heq =>
    obtain ⟨wheel, -, rfl⟩ := addTimer_eq heq
    exact .inl (.of_eq hregistered rfl rfl)
  | setTimer heq => exact .inl (.setTimer h heq)
  | clearTimer timer task => exact .inl (.clearTimer h timer task)
  | sweep => exact .inl (.of_eq hregistered rfl rfl)
  | enrol fd interest start =>
    cases henrol : s.enrol fd interest start with
    | mk enrolled answer =>
      cases answer with
      | error error => exact .inl (.refused h henrol)
      | ok id => exact .inr ⟨fd, interest, start, id, henrol⟩
  | settle id => exact .inl (.settle h b id)

/-- A change that makes no task leaves the readiness of all tasks alone. -/
theorem Change.still (h : s.Registered) (hchange : Change b s s') (htasks : s'.tasks = s.tasks) :
    Still s s' := by
  obtain hstill | ⟨fd, interest, start, id, henrol⟩ := hchange.still_or_starts h
  · exact hstill
  · obtain ⟨hnone, -, -, hget⟩ := enrol_spec h henrol
    rw [← htasks, hget] at hnone
    cases hnone

end Scheduler

end CoopHttp
