import CoopHttp.Proofs.Scheduler.Registration

/-!
# What can become of a scheduler

A scheduler is made without tasks, and then time passes, wheels are added, tasks are started, armed
and disarmed from outside, and turns are made, in any order. What every operation keeps holds of
every scheduler that is met this way.
-/
namespace CoopHttp.Scheduler

variable {σ ν : Type}

/-- The scheduler comes of a new one by the operations that there are. -/
inductive Reachable (b : Behaviour σ ν) : Scheduler σ ν → Prop
  | fresh (settings : Settings) (refusals : List Poller.Refusal) (clock : Int) :
    Reachable b { settings, refusals, clock }
  | elapse {s s' : Scheduler σ ν} (span : ℕ) :
    Reachable b s → s.elapse span = .ok s' → Reachable b s'
  | addTimer {s s' : Scheduler σ ν} {timer : TimerId} (horizon granularity : ℕ) :
    Reachable b s → s.addTimer horizon granularity = .ok (s', timer) → Reachable b s'
  | setTimer {s s' : Scheduler σ ν} {was : Bool} (timer : TimerId) (task : TaskId) (delay : ℕ) :
    Reachable b s → s.setTimer timer task delay = .ok (s', was) → Reachable b s'
  | clearTimer {s : Scheduler σ ν} (timer : TimerId) (task : TaskId) :
    Reachable b s → Reachable b (s.clearTimer timer task).1
  | spawn {s s' : Scheduler σ ν} {result : Except IoError TaskId} (fd : Int) (interest : Ready)
      (refused : List ν) (start : TaskId → Run σ ν) :
    Reachable b s → s.spawn b fd interest refused start = .ok (s', result) → Reachable b s'
  | turn {s s' : Scheduler σ ν} {result : Except IoError Unit} (poll : Poll) :
    Reachable b s → s.turn b poll = .ok (s', result) → Reachable b s'

theorem Reachable.registered {b : Behaviour σ ν} {s : Scheduler σ ν} (h : Reachable b s) :
    s.Registered := by
  induction h with
  | fresh settings refusals clock => exact .fresh settings refusals clock
  | elapse span _ heq ih => exact ih.elapse heq
  | addTimer horizon granularity _ heq ih => exact ih.addTimer heq
  | setTimer timer task delay _ heq ih => exact ih.setTimer heq
  | clearTimer timer task _ ih => exact ih.clearTimer timer task
  | spawn fd interest refused start _ heq ih => exact ih.spawn heq
  | turn poll _ heq ih => exact ih.turn heq

/-- Nothing has been registered or armed in between. -/
def SameTasks (s s' : Scheduler σ ν) : Prop :=
  s'.tasks = s.tasks ∧ s'.owners = s.owners ∧ s'.wheels = s.wheels

/-- A task that could not be started leaves nothing behind. -/
theorem sameTasks_of_enrol {s s' : Scheduler σ ν} {fd : Int} {interest : Ready}
    {start : TaskId → Run σ ν} {error : IoError}
    (h : s.enrol fd interest start = (s', .error error)) : SameTasks s s' := by
  obtain ⟨-, heq⟩ | ⟨error', refusals, -, -, heq⟩ | ⟨tasks, id, refusals, -, -, -, heq⟩ :=
    enrol_cases s fd interest start
  · cases heq.symm.trans h
    exact ⟨rfl, rfl, rfl⟩
  · cases heq.symm.trans h
    exact ⟨rfl, rfl, rfl⟩
  · cases heq.symm.trans h

theorem sameTasks_of_spawn {b : Behaviour σ ν} {s s' : Scheduler σ ν} {fd : Int} {interest : Ready}
    {refused : List ν} {start : TaskId → Run σ ν} {error : IoError}
    (h : s.spawn b fd interest refused start = .ok (s', .error error)) : SameTasks s s' := by
  rw [spawn] at h
  split at h
  · rename_i enrolled error' heq
    cases h
    have hsame := sameTasks_of_enrol heq
    exact hsame
  · obtain ⟨driven, -, hs⟩ := exists_of_map_eq_ok h
    cases hs

/-- A task whose descriptor has an owner, or is refused by the poller, is not started. -/
theorem exists_spawn_eq_error {b : Behaviour σ ν} {s : Scheduler σ ν} {fd : Int}
    (hrefused : (s.owner? fd).isSome ∨ (Poller.answer .add fd s.refusals).2.isSome)
    (interest : Ready) (refused : List ν) (start : TaskId → Run σ ν) :
    ∃ s' error, s.spawn b fd interest refused start = .ok (s', .error error) := by
  obtain ⟨-, heq⟩ | ⟨error, refusals, -, -, heq⟩ | ⟨tasks, id, refusals, howner, hanswer, -, heq⟩ :=
    enrol_cases s fd interest start
  · exact ⟨_, _, by rw [spawn, heq]⟩
  · exact ⟨_, _, by rw [spawn, heq]⟩
  · rw [howner, hanswer] at hrefused
    simp at hrefused

/-- After every operation of a run the owners of descriptors, the descriptors that the poller
watches and the armed keys are those of the live tasks, the poller has been asked in order and
deletes each descriptor once for each time it was added; and a task that cannot be started, because
its descriptor is taken or refused, changes none of this, whether it was asked for from outside or
by a task. -/
theorem registered_of_reachable {b : Behaviour σ ν} {s : Scheduler σ ν} (h : Reachable b s) :
    s.Registered ∧
      (∀ fd, s.history.countP (Event.adds fd) =
        s.history.countP (Event.deletes fd) + if (s.owner? fd).isSome then 1 else 0) ∧
      ∀ (t : Scheduler σ ν) (fd : Int) (interest : Ready) (refused : List ν)
        (start : TaskId → Run σ ν),
        ((t.owner? fd).isSome ∨ (Poller.answer .add fd t.refusals).2.isSome →
          ∃ t' error, t.spawn b fd interest refused start = .ok (t', .error error)) ∧
        (∀ t' error, t.spawn b fd interest refused start = .ok (t', .error error) →
          SameTasks t t') ∧
        ∀ t' error, t.enrol fd interest start = (t', .error error) → SameTasks t t' := by
  refine ⟨h.registered, fun fd => ?_, fun t fd interest refused start => ⟨?_, ?_, ?_⟩⟩
  · rw [Event.countP_adds h.registered.orderly]
    refine congrArg _ (if_congr ?_ rfl rfl)
    rw [h.registered.mem_watched_iff, ← Table.isSome_lookup_iff]
    rfl
  · exact fun hrefused => exists_spawn_eq_error hrefused interest refused start
  · exact fun t' error => sameTasks_of_spawn
  · exact fun t' error => sameTasks_of_enrol

/-- Tasks that return when they are woken. -/
def returning : Behaviour Unit Unit := ⟨fun _ _ _ => .stop .completed, fun _ _ => []⟩

/-- A scheduler whose only wheel has not been swept for a while. -/
def belated : Except Crash (Scheduler Unit Unit) :=
  (({} : Scheduler Unit Unit).addTimer 100 10).bind fun (s, _) => s.elapse 1

/-- A task that arms itself and starts three others: one that is refused at once, one that arms itself
and is ended when its wish is refused, and one that has returned before anyone else is started. -/
def family (_ : TaskId) : Run Unit Unit :=
  .setTimer ⟨0⟩ 5
    (.spawn 9 .readable [()] (fun _ => .stop .completed)
      (.spawn 4 .readable [] (fun _ => .setTimer ⟨0⟩ 7 (.stop (.blocked .writable ())))
        (.spawn 6 .readable [] (fun _ => .stop .completed) (.stop (.blocked .readable ())))))

/-- A family is started and woken, and then, with a wheel to arm on, started again. -/
def twoFamilies : Except Crash (Scheduler Unit Unit) :=
  (({ refusals := [⟨.modify, 4, .other, 1⟩, ⟨.add, 9, .other, 0⟩] } : Scheduler Unit Unit).spawn
      returning 3 .readable [] family).bind fun (s, _) =>
    (s.turn returning { events := [(3, .readable), (4, .writable)], elapsed := 8 }).bind fun (s, _) =>
    (s.addTimer 100 10).bind fun (s, _) =>
    (s.spawn returning 3 .readable [] family).map (·.1)

theorem exists_reachable_family :
    ∃ s : Scheduler Unit Unit, Reachable returning s ∧ s.owners.map (·.1) = [3] ∧ s.Registered ∧
      s.history.countP (Event.adds 4) = 2 ∧ s.history.countP (Event.deletes 4) = 2 := by
  obtain ⟨s, hs, hview⟩ := exists_of_map_eq_ok (show twoFamilies.map (fun s =>
    (s.owners.map (·.1), s.history.countP (Event.adds 4))) = .ok ([3], 2) by decide)
  obtain ⟨⟨first, id⟩, hfirst, hs⟩ := exists_of_bind_eq_ok hs
  obtain ⟨⟨turned, result⟩, hturn, hs⟩ := exists_of_bind_eq_ok hs
  obtain ⟨⟨timed, timer⟩, hwheel, hs⟩ := exists_of_bind_eq_ok hs
  obtain ⟨⟨second, id'⟩, hsecond, rfl⟩ := exists_of_map_eq_ok hs
  obtain ⟨howners, hadds⟩ := Prod.mk.inj hview
  have hreach : Reachable returning second :=
    ((((Reachable.fresh {} _ 0).spawn 3 .readable [] family hfirst).turn _ hturn).addTimer 100 10
      hwheel).spawn 3 .readable [] family hsecond
  obtain ⟨hregistered, hcount, -⟩ := registered_of_reachable hreach
  have hfree : ((second.owner? 4).isSome) = false := by
    rw [Bool.eq_false_iff, owner?, ne_eq, Table.isSome_lookup_iff, howners]
    decide
  refine ⟨second, hreach, howners, hregistered, hadds, ?_⟩
  rw [← hadds, hcount 4, hfree]
  rfl

end CoopHttp.Scheduler
