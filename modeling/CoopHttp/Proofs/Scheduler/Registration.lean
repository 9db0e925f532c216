import CoopHttp.Proofs.Arena
import CoopHttp.Proofs.Scheduler.Effects
import CoopHttp.Proofs.Timer.Armed

/-!
# Registration

A live task is registered in three places: as the owner of its descriptor, with the poller, and on
the wheels it is armed on. The three agree with the live tasks after every operation, whatever the
tasks do and whichever calls the poller refuses, and the log shows that the poller was never asked
about a descriptor that it did not watch.
-/
namespace CoopHttp

namespace Event

variable {ν : Type}

/-- What an event does to the descriptors that the poller watches. -/
def register (watched : List Int) : Event ν → List Int
  | added fd _ none => fd :: watched
  | deleted fd _ => watched.filter (· ≠ fd)
  | _ => watched

/-- The event is in order while the poller watches these descriptors: what is added is not watched,
and what is modified or deleted is. -/
def Permitted (watched : List Int) : Event ν → Prop
  | added fd _ none => fd ∉ watched
  | modified fd _ _ | deleted fd _ => fd ∈ watched
  | _ => True

/-- The descriptors watched after some events, the last event first. -/
def watched : List (Event ν) → List Int
  | [] => []
  | event :: earlier => event.register (watched earlier)

/-- Every event was in order when it took place; the last event comes first. -/
def Orderly : List (Event ν) → Prop
  | [] => True
  | event :: earlier => event.Permitted (watched earlier) ∧ Orderly earlier

/-- The event is a successful call that adds the descriptor. -/
def adds (fd : Int) : Event ν → Bool
  | added other _ none => other = fd
  | _ => false

/-- The event is a call that deletes the descriptor. -/
def deletes (fd : Int) : Event ν → Bool
  | deleted other _ => other = fd
  | _ => false

/-- In an orderly log every descriptor is deleted once for each time it was added, except that the
ones still watched are yet to be deleted. -/
theorem countP_adds {history : List (Event ν)} (h : Orderly history) (fd : Int) :
    history.countP (adds fd) =
      history.countP (deletes fd) + if fd ∈ watched history then 1 else 0 := by
  induction history with
  | nil => rfl
  | cons event earlier ih =>
    obtain ⟨hpermitted, hearlier⟩ := h
    have ih := ih hearlier
    rw [List.countP_cons, List.countP_cons, watched]
    cases event with
    | added other interest failure =>
      cases failure with
      | some error => exact ih
      | none =>
        by_cases hfd : other = fd
        · subst hfd
          have hnot : other ∉ watched earlier := hpermitted
          simp [adds, deletes, register, ih, hnot]
        · simp [adds, deletes, register, ih, hfd, Ne.symm hfd]
    | deleted other failure =>
      by_cases hfd : other = fd
      · subst hfd
        have hmem : other ∈ watched earlier := hpermitted
        simp [adds, deletes, register, ih, hmem]
      · simp [adds, deletes, register, ih, hfd, Ne.symm hfd]
    | modified | polled | woken | note => exact ih

end Event

namespace Scheduler

variable {σ ν : Type}

/-- The owners of descriptors, the poller and the wheels agree with the live tasks. -/
structure Registered (s : Scheduler σ ν) : Prop where
  tidy : s.tasks.Tidy
  distinct_owners : Table.Distinct s.owners
  mem_owners_iff : ∀ fd id, (fd, id) ∈ s.owners ↔ ∃ task, s.tasks.get? id = some task ∧ task.fd = fd
  mem_watched_iff : ∀ fd, fd ∈ Event.watched s.history ↔ fd ∈ s.owners.map (·.1)
  orderly : Event.Orderly s.history
  live_of_armed : ∀ wheel ∈ s.wheels, ∀ id, wheel.contains id → s.tasks.contains id

namespace Registered

variable {s s' : Scheduler σ ν}

theorem owner?_eq_some_iff (h : s.Registered) {fd : Int} {id : TaskId} :
    s.owner? fd = some id ↔ ∃ task, s.tasks.get? id = some task ∧ task.fd = fd :=
  h.distinct_owners.lookup_eq_some_iff.trans (h.mem_owners_iff fd id)

theorem owner?_of_get? (h : s.Registered) (id : TaskId) (task : Task σ)
    (hget : s.tasks.get? id = some task) : s.owner? task.fd = some id :=
  h.owner?_eq_some_iff.2 ⟨task, hget, rfl⟩

theorem mem_watched_of_get? (h : s.Registered) {id : TaskId} {task : Task σ}
    (hget : s.tasks.get? id = some task) : task.fd ∈ Event.watched s.history := by
  have hmem := (h.mem_owners_iff task.fd id).2 ⟨task, hget, rfl⟩
  exact (h.mem_watched_iff _).2 (List.mem_map_of_mem hmem)

theorem fresh (settings : Settings) (refusals : List Poller.Refusal) (clock : Int) :
    ({ settings, refusals, clock } : Scheduler σ ν).Registered where
  tidy := Arena.tidy_empty
  distinct_owners := Table.distinct_nil
  mem_owners_iff := by simp [Arena.get?, Arena.slot?]
  mem_watched_iff := by simp [Event.watched]
  orderly := trivial
  live_of_armed := by simp

/-- An event in order that leaves the poller watching what it watched. -/
theorem record (h : s.Registered) (event : Event ν)
    (hsame : event.register (Event.watched s.history) = Event.watched s.history)
    (hpermitted : event.Permitted (Event.watched s.history)) : (s.record event).Registered where
  tidy := h.tidy
  distinct_owners := h.distinct_owners
  mem_owners_iff := h.mem_owners_iff
  mem_watched_iff fd := by
    rw [Scheduler.record, Event.watched, hsame]
    exact h.mem_watched_iff fd
  orderly := ⟨hpermitted, h.orderly⟩
  live_of_armed := h.live_of_armed

theorem recordNotes (h : s.Registered) (entries : List ν) : (s.recordNotes entries).Registered := by
  induction entries generalizing s with
  | nil => exact h
  | cons entry entries ih =>
    rw [recordNotes_cons]
    exact ih (h.record (.note entry) rfl trivial)

theorem setRefusals (h : s.Registered) (refusals : List Poller.Refusal) :
    ({ s with refusals } : Scheduler σ ν).Registered :=
  ⟨h.tidy, h.distinct_owners, h.mem_owners_iff, h.mem_watched_iff, h.orderly, h.live_of_armed⟩

theorem elapse {span : ℕ} (h : s.Registered) (helapse : s.elapse span = .ok s') :
    s'.Registered := by
  obtain ⟨clock, rfl⟩ := elapse_eq helapse
  exact ⟨h.tidy, h.distinct_owners, h.mem_owners_iff, h.mem_watched_iff, h.orderly,
    h.live_of_armed⟩

/-! Timers. -/

/-- Wheels that arm nobody but live tasks. -/
theorem setWheels (h : s.Registered) {wheels : List (TimerWheel TaskId)}
    (hwheels : ∀ wheel ∈ wheels, ∀ id, wheel.contains id → s.tasks.contains id) :
    ({ s with wheels } : Scheduler σ ν).Registered :=
  ⟨h.tidy, h.distinct_owners, h.mem_owners_iff, h.mem_watched_iff, h.orderly, hwheels⟩

theorem setWheel (h : s.Registered) {index : ℕ} {wheel : TimerWheel TaskId}
    (hwheel : ∀ id, wheel.contains id → s.tasks.contains id) :
    ({ s with wheels := s.wheels.set index wheel } : Scheduler σ ν).Registered := by
  refine h.setWheels fun other hother => ?_
  obtain hother | rfl := List.mem_or_eq_of_mem_set hother
  · exact h.live_of_armed other hother
  · exact hwheel

theorem addTimer {horizon granularity : ℕ} {timer : TimerId} (h : s.Registered)
    (hadd : s.addTimer horizon granularity = .ok (s', timer)) : s'.Registered := by
  obtain ⟨wheel, hwheel, rfl⟩ := addTimer_eq hadd
  refine h.setWheels fun other hother id hid => ?_
  obtain hother | hother := List.mem_append.1 hother
  · exact h.live_of_armed other hother id hid
  · rw [List.mem_singleton.1 hother, TimerWheel.contains_eq_isSome,
      TimerWheel.insertion?_withEpoch hwheel] at hid
    exact absurd hid Bool.false_ne_true

theorem setTimer {timer : TimerId} {task : TaskId} {delay : ℕ} {was : Bool} (h : s.Registered)
    (hset : s.setTimer timer task delay = .ok (s', was)) : s'.Registered := by
  obtain rfl | ⟨wheel, wheel', hlive, hwheel, hinsert, rfl⟩ := setTimer_cases hset
  · exact h
  · refine h.setWheel fun id hid => ?_
    rw [TimerWheel.contains_eq_isSome, TimerWheel.insertion?_insertAt hinsert] at hid
    split_ifs at hid with htask
    · exact htask ▸ hlive
    · exact h.live_of_armed wheel (List.mem_of_getElem? hwheel) id hid

theorem clearTimer (h : s.Registered) (timer : TimerId) (task : TaskId) :
    (s.clearTimer timer task).1.Registered := by
  obtain hs | ⟨wheel, hwheel, hs⟩ := clearTimer_cases s timer task
  · rw [hs]
    exact h
  · rw [hs]
    refine h.setWheel fun id hid => ?_
    rw [TimerWheel.contains_eq_isSome, TimerWheel.insertion?_remove] at hid
    split_ifs at hid
    · exact absurd hid Bool.false_ne_true
    · exact h.live_of_armed wheel (List.mem_of_getElem? hwheel) id hid

/-! Tasks. -/

/-- A task keeps its descriptor whatever else changes about it. -/
theorem modifyTask (h : s.Registered) (id : TaskId) (f : Task σ → Task σ)
    (hf : ∀ task, (f task).fd = task.fd) : (s.modifyTask id f).Registered := by
  have hget : ∀ other fd, (∃ task, (s.modifyTask id f).tasks.get? other = some task ∧ task.fd = fd) ↔
      ∃ task, s.tasks.get? other = some task ∧ task.fd = fd := by
    intro other fd
    rw [Scheduler.modifyTask, Arena.get?_modify]
    split_ifs with hid
    · subst hid
      simp [Option.map_eq_some_iff, hf]
    · rfl
  have hcontains : ∀ other, s.tasks.contains other → (s.modifyTask id f).tasks.contains other := by
    intro other hother
    rw [Arena.contains_iff] at hother ⊢
    obtain ⟨task, htask⟩ := hother
    obtain ⟨task', htask', -⟩ := (hget other task.fd).2 ⟨task, htask, rfl⟩
    exact ⟨task', htask'⟩
  exact {
    tidy := h.tidy.modify id f
    distinct_owners := h.distinct_owners
    mem_owners_iff := fun fd other => (h.mem_owners_iff fd other).trans (hget other fd).symm
    mem_watched_iff := h.mem_watched_iff
    orderly := h.orderly
    live_of_armed := fun wheel hwheel other hother =>
      hcontains other (h.live_of_armed wheel hwheel other hother) }

/-- A task is started on a descriptor that has no owner, or nothing is registered. -/
theorem enrol (h : s.Registered) (fd : Int) (interest : Ready) (start : TaskId → Run σ ν) :
    (s.enrol fd interest start).1.Registered := by
  obtain ⟨-, heq⟩ | ⟨error, refusals, -, -, heq⟩ | ⟨tasks, id, refusals, howner, -, hinsert, heq⟩ :=
    enrol_cases s fd interest start
  · rw [heq]
    exact h
  · rw [heq]
    exact (h.setRefusals refusals).record (.added fd _ (some error)) rfl trivial
  · rw [heq]
    have htidy := h.tidy.insertWith fun id => .first fd (interest ||| Ready.errors) (start id)
    have hget := h.tidy.get?_insertWith fun id => .first fd (interest ||| Ready.errors) (start id)
    have hnone := h.tidy.get?_insertWith_snd
      fun id => .first fd (interest ||| Ready.errors) (start id)
    simp only [hinsert] at htidy hget hnone
    have hfree : fd ∉ s.owners.map (·.1) := by
      rw [← Table.isSome_lookup_iff, ← owner?, howner]
      exact Bool.false_ne_true
    have howners : ∀ fd' other, (fd', other) ∈ s.owners → other ≠ id := by
      rintro fd' other hmem rfl
      obtain ⟨task, htask, -⟩ := (h.mem_owners_iff fd' _).1 hmem
      rw [hnone] at htask
      cases htask
    constructor
    case tidy => exact htidy
    case distinct_owners => exact Table.distinct_cons.2 ⟨hfree, h.distinct_owners⟩
    case mem_owners_iff =>
      intro fd' other
      rw [List.mem_cons, hget other]
      split_ifs with hid
      · constructor
        · rintro (hpair | hmem)
          · exact ⟨_, rfl, (Prod.mk.inj hpair).1.symm⟩
          · exact absurd hid (howners fd' other hmem)
        · rintro ⟨task, htask, rfl⟩
          cases htask
          exact .inl (Prod.ext rfl hid)
      · rw [← h.mem_owners_iff]
        refine or_iff_right fun hpair => hid (Prod.mk.inj hpair).2
    case mem_watched_iff =>
      intro fd'
      show fd' ∈ fd :: Event.watched s.history ↔ fd' ∈ fd :: s.owners.map (·.1)
      rw [List.mem_cons, List.mem_cons, h.mem_watched_iff]
    case orderly =>
      exact ⟨trivial, fun hmem => hfree ((h.mem_watched_iff fd).1 hmem), h.orderly⟩
    case live_of_armed =>
      intro wheel hwheel other hother
      have hlive := h.live_of_armed wheel hwheel other hother
      rw [Arena.contains_iff] at hlive ⊢
      rw [hget other]
      split_ifs
      · exact ⟨_, rfl⟩
      · exact hlive

/-- A task that ends is registered nowhere any more. -/
theorem terminate (h : s.Registered) (b : Behaviour σ ν) (id : TaskId) :
    (s.terminate b id).Registered := by
  obtain ⟨-, heq⟩ | ⟨task, refusals, failure, htask, heq⟩ :=
    terminate_cases b s (h.owner?_of_get? id)
  · rw [heq]
    exact h
  · rw [heq]
    refine recordNotes ?_ _
    have hget := s.tasks.get?_remove id
    have hid : ∀ fd other, (fd, other) ∈ s.owners → (other = id ↔ fd = task.fd) := by
      intro fd other hmem
      have hown := (h.mem_owners_iff task.fd id).2 ⟨task, htask, rfl⟩
      constructor
      · rintro rfl
        obtain ⟨task', htask', rfl⟩ := (h.mem_owners_iff fd _).1 hmem
        rw [htask] at htask'
        cases htask'
        rfl
      · rintro rfl
        exact h.distinct_owners.eq_of_mem hmem hown
    constructor
    case tidy => exact h.tidy.remove id
    case distinct_owners => exact h.distinct_owners.filter _
    case mem_owners_iff =>
      intro fd other
      rw [hget other, List.mem_filter]
      constructor
      · rintro ⟨hmem, hne⟩
        have hother : other ≠ id := fun heq => by simp [(hid fd other hmem).1 heq] at hne
        rw [if_neg hother]
        exact (h.mem_owners_iff fd other).1 hmem
      · rintro ⟨task', htask', hfd⟩
        split_ifs at htask' with hother
        have hmem := (h.mem_owners_iff fd other).2 ⟨task', htask', hfd⟩
        exact ⟨hmem, by simpa using fun heq => hother ((hid fd other hmem).2 heq)⟩
    case mem_watched_iff =>
      intro fd
      show fd ∈ (Event.watched s.history).filter (· ≠ task.fd) ↔ _
      rw [List.mem_filter, h.mem_watched_iff]
      simp only [List.mem_map, List.mem_filter]
      constructor
      · rintro ⟨⟨owner, howner, rfl⟩, hne⟩
        exact ⟨owner, ⟨howner, hne⟩, rfl⟩
      · rintro ⟨owner, ⟨howner, hne⟩, rfl⟩
        exact ⟨⟨owner, howner, rfl⟩, hne⟩
    case orderly => exact ⟨h.mem_watched_of_get? htask, h.orderly⟩
    case live_of_armed =>
      intro wheel hwheel other hother
      obtain ⟨old, hold, rfl⟩ := List.mem_map.1 hwheel
      rw [TimerWheel.contains_eq_isSome, TimerWheel.insertion?_remove] at hother
      split_ifs at hother with hne
      · exact absurd hother Bool.false_ne_true
      · rw [Arena.contains, hget other, if_neg hne]
        exact h.live_of_armed old hold other hother

/-- A task whose new wish the poller has been told of, whatever the answer. -/
theorem told (h : s.Registered) {id : TaskId} {task : Task σ}
    (htask : s.tasks.get? id = some task) (interest : Interest) (refusals : List Poller.Refusal)
    (applied : Ready) (failure : Option IoError) :
    ({ s.modifyTask id fun task => { task with interest } with
      refusals }.record (.modified task.fd applied failure)).Registered := by
  have hmodified := h.modifyTask id (fun task => { task with interest }) fun _ => rfl
  exact (hmodified.setRefusals refusals).record (.modified task.fd applied failure) rfl
    (h.mem_watched_of_get? htask)

theorem reconcile (h : s.Registered) (b : Behaviour σ ν) {id : TaskId} {task : Task σ}
    (htask : s.tasks.get? id = some task) (wish : Ready) :
    (s.reconcile b id task wish).Registered := by
  obtain ⟨interest, heq | ⟨applied, refusals, failure, heq | heq⟩⟩ :=
    reconcile_cases b s id task wish
  · rw [heq]
    exact h.modifyTask id _ fun _ => rfl
  · rw [heq]
    exact h.told htask interest refusals applied failure
  · rw [heq]
    exact (h.told htask interest refusals applied failure).terminate b id

theorem settle (h : s.Registered) (b : Behaviour σ ν) (id : TaskId) :
    (s.settle b id).Registered := by
  obtain ⟨-, heq⟩ | ⟨task, htask, ⟨-, heq⟩ | ⟨-, heq⟩⟩ := settle_cases b s id
  · rw [heq]
    exact h
  · rw [heq]
    exact h.terminate b id
  · rw [heq]
    exact h.reconcile b htask task.wanted

/-! Stretches, by the effects they are made of. -/

theorem perform {run : Run σ ν} (h : s.Registered) (hrun : Scheduler.perform run s = .ok s') :
    s'.Registered := by
  induction run generalizing s with
  | stop outcome =>
    cases hrun
    exact h
  | crash cause => cases hrun
  | note entry next ih => exact ih (h.record (.note entry) rfl trivial) hrun
  | elapse span next ih =>
    obtain ⟨later, helapse, hnext⟩ := exists_of_bind_eq_ok hrun
    exact ih (h.elapse helapse) hnext
  | setTimer timer delay next ih => exact ih h hrun
  | clearTimer timer next ih => exact ih h hrun
  | spawn fd interest refused start next _ ih => exact ih h hrun

theorem grant {b : Behaviour σ ν} {id : TaskId} {run : Run σ ν} (h : s.Registered)
    (hrun : Scheduler.grant b id run s = .ok s') : s'.Registered := by
  induction run generalizing s s' id with
  | stop outcome =>
    cases hrun
    exact h
  | crash cause =>
    cases hrun
    exact h
  | note entry next ih => exact ih h hrun
  | elapse span next ih => exact ih h hrun
  | setTimer timer delay next ih =>
    obtain ⟨⟨armed, was⟩, hset, hnext⟩ := exists_of_bind_eq_ok hrun
    exact ih (h.setTimer hset) hnext
  | clearTimer timer next ih => exact ih (h.clearTimer timer id) hrun
  | spawn fd interest refused start next ihstart ih =>
    have henrol := h.enrol fd interest start
    rw [Scheduler.grant] at hrun
    split at hrun
    · rename_i enrolled error heq
      rw [heq] at henrol
      exact ih (henrol.recordNotes refused) hrun
    · rename_i enrolled child heq
      rw [heq] at henrol
      obtain ⟨performed, hperform, hrun⟩ := exists_of_bind_eq_ok hrun
      obtain ⟨granted, hgrant, hnext⟩ := exists_of_bind_eq_ok hrun
      have hgranted := ihstart child (henrol.perform hperform) hgrant
      exact ih (hgranted.settle b child) hnext

theorem drive {b : Behaviour σ ν} {id : TaskId} {run : Run σ ν} (h : s.Registered)
    (hrun : s.drive b id run = .ok s') : s'.Registered := by
  obtain ⟨performed, hperform, hrun⟩ := exists_of_bind_eq_ok hrun
  obtain ⟨granted, hgrant, rfl⟩ := exists_of_map_eq_ok hrun
  exact ((h.perform hperform).grant hgrant).settle b id

theorem spawn {b : Behaviour σ ν} {fd : Int} {interest : Ready} {refused : List ν}
    {start : TaskId → Run σ ν} {result : Except IoError TaskId} (h : s.Registered)
    (hspawn : s.spawn b fd interest refused start = .ok (s', result)) : s'.Registered := by
  have henrol := h.enrol fd interest start
  rw [Scheduler.spawn] at hspawn
  split at hspawn
  · rename_i enrolled error heq
    rw [heq] at henrol
    cases hspawn
    exact henrol.recordNotes refused
  · rename_i enrolled id heq
    rw [heq] at henrol
    obtain ⟨driven, hdrive, hs⟩ := exists_of_map_eq_ok hspawn
    cases hs
    exact henrol.drive hdrive

/-! Turns. -/

theorem wake {b : Behaviour σ ν} {id : TaskId} {wake : Wake} (h : s.Registered)
    (hwake : s.wake b id wake = .ok s') : s'.Registered := by
  rw [Scheduler.wake] at hwake
  split at hwake
  · cases hwake
    exact h
  · split at hwake
    · cases hwake
      exact h
    · refine drive ?_ hwake
      exact (h.record (.woken id _) rfl trivial).modifyTask id _ fun _ => rfl

theorem dispatch {b : Behaviour σ ν} {event : Int × Ready} (h : s.Registered)
    (hdispatch : s.dispatch b event = .ok s') : s'.Registered := by
  obtain rfl | ⟨id, task, errors, ready, -, hwake⟩ := dispatch_cases hdispatch
  · exact h
  · exact wake (h.modifyTask id (fun task => { task with errors, ready }) fun _ => rfl) hwake

theorem expire {b : Behaviour σ ν} {timer : TimerId} {expired : List TaskId} (h : s.Registered)
    (hexpire : s.expire b timer expired = .ok s') : s'.Registered := by
  refine foldlM_invariant (P := fun _ s => s.Registered) ?_ h hexpire
  intro s s' id rest h hstep
  split_ifs at hstep
  · exact h.wake hstep
  · cases hstep
    exact h

/-- A sweep arms nobody. -/
theorem sweepWheel (h : s.Registered) {index : ℕ} {wheel : TimerWheel TaskId}
    (hwheel : s.wheels[index]? = some wheel) (now : Int) :
    ({ s with wheels := s.wheels.set index (wheel.sweep now).wheel } :
      Scheduler σ ν).Registered := by
  refine h.setWheel fun id hid => ?_
  rw [TimerWheel.contains_eq_isSome, TimerWheel.insertion?,
    (wheel.fires_sweep now).lookup_eq] at hid
  split_ifs at hid
  · exact absurd hid Bool.false_ne_true
  · exact h.live_of_armed wheel (List.mem_of_getElem? hwheel) id hid

theorem sweepTimer {b : Behaviour σ ν} {now : Int} {index : ℕ} (h : s.Registered)
    (hsweep : Scheduler.sweepTimer b now s index = .ok s') : s'.Registered := by
  obtain rfl | ⟨wheel, hwheel, -, hexpire⟩ := sweepTimer_cases hsweep
  · exact h
  · exact (h.sweepWheel hwheel now).expire hexpire

theorem sweepTimers {b : Behaviour σ ν} (h : s.Registered) (hsweep : s.sweepTimers b = .ok s') :
    s'.Registered :=
  foldlM_invariant (P := fun _ s => s.Registered) (fun h hstep => h.sweepTimer hstep) h hsweep

theorem turn {b : Behaviour σ ν} {poll : Poll} {result : Except IoError Unit} (h : s.Registered)
    (hturn : s.turn b poll = .ok (s', result)) : s'.Registered := by
  obtain ⟨polled, helapse, hturn⟩ := exists_of_bind_eq_ok hturn
  have hpolled := (h.record (.polled _ _) rfl trivial).elapse helapse
  split at hturn
  · obtain ⟨dispatched, hdispatch, hturn⟩ := exists_of_bind_eq_ok hturn
    obtain ⟨swept, hsweep, hs⟩ := exists_of_map_eq_ok hturn
    cases hs
    have hdispatched : dispatched.Registered :=
      foldlM_invariant (P := fun _ s => s.Registered) (fun h hstep => h.dispatch hstep) hpolled
        hdispatch
    exact hdispatched.sweepTimers hsweep
  · obtain ⟨swept, hsweep, hs⟩ := exists_of_map_eq_ok hturn
    cases hs
    exact hpolled.sweepTimers hsweep
  · cases hturn
    exact hpolled

end Registered

end Scheduler

end CoopHttp
