import CoopHttp.Proofs.Connection.Scene

/-!
# Under the deadline of the phase

Wakes keep every task under the deadline of the phase that it waits in, and so does every other step
of a scheduler of connections. From this follows what holds wherever such a scheduler has got to.
-/
namespace CoopHttp.Connection.Scene

open Relation

variable {η : Type} {service : Service η} {x y : Scene η}

/-! Wakes. -/

variable {s s' : Host η} {id : TaskId} {task : Task (Connection η)} {wanted : Ready}
  {c : Connection η}

/-- The scheduler that carries out the stretch of a task that has been woken. -/
def woken (service : Service η) (s : Host η) (id : TaskId) (task : Task (Connection η))
    (wake : Wake) (c : Connection η) : Host η :=
  (s.record (.woken id wake)).modifyTask id
    (·.after (resume service ⟨id, task.fd, task.ready, task.errors⟩ wake c).outcome)

theorem wake_eq (hget : s.tasks.get? id = some task) (houtcome : task.outcome = .blocked wanted c)
    (wake : Wake) :
    s.wake (behaviour service) id wake = (woken service s id task wake c).drive (behaviour service)
      id (resume service ⟨id, task.fd, task.ready, task.errors⟩ wake c) := by
  simp only [Scheduler.wake, hget, houtcome, Outcome.suspended?]
  rfl

theorem get?_woken (hget : s.tasks.get? id = some task) (wake : Wake) :
    (woken service s id task wake c).tasks.get? id =
      some (task.after (resume service ⟨id, task.fd, task.ready, task.errors⟩ wake c).outcome) := by
  have hmodify := s.tasks.get?_modify id id
    (·.after (resume service ⟨id, task.fd, task.ready, task.errors⟩ wake c).outcome)
  rw [if_pos rfl, hget] at hmodify
  exact hmodify

theorem registered_woken (h : s.Registered) (wake : Wake) :
    (woken service s id task wake c).Registered :=
  (h.record (.woken id wake) rfl trivial).modifyTask id _ fun _ => rfl

theorem frames_woken (wake : Wake) : Scheduler.Frames id s (woken service s id task wake c) :=
  (Scheduler.Frames.of_eq rfl rfl : Scheduler.Frames id s (s.record (.woken id wake))).trans
    (Scheduler.frames_modifyTask _ id _)

/-- A task that is woken because its descriptor is ready. -/
theorem wake_io {ready : Ready} (h : s.Registered) (hget : s.tasks.get? id = some task)
    (houtcome : task.outcome = .blocked wanted c)
    (hwithin : service.deadlines.Within s.wheels.length)
    (hunder : s.Under id (c.deadline service.deadlines))
    (hwake : s.wake (behaviour service) id (.io ready) = .ok s') :
    Scheduler.Frames id s s' ∧ ∀ task', s'.tasks.get? id = some task' → ∃ wanted d,
      task'.outcome = .blocked wanted d ∧ s'.Under id (d.deadline service.deadlines) ∧
        c.stage ≤ d.stage ∧ (d.stage = c.stage → ∀ i, s'.insertion? i id = s.insertion? i id) := by
  rw [wake_eq hget houtcome] at hwake
  obtain ⟨hframes, htask⟩ := drive_spec (obeys_proceed service id task.fd c)
    (follows_proceed service task.fd c) (registered_woken h _) (get?_woken hget _) rfl hwithin
    hunder hwake
  exact ⟨(frames_woken _).trans hframes, htask⟩

theorem perform_ending (service : Service η) (s : Host η) (fd : Int) (c : Connection η)
    (result : Except HttpError Unit) : Scheduler.perform (ending service fd c result) s =
      .ok ((s.record (.note (fd, .closed))).record (.note (fd, .ended result))) := by
  rw [ending]
  cases c.deadline service.deadlines <;> rfl

theorem exists_grant_ending (service : Service η) (s : Host η) (id : TaskId) (fd : Int)
    (c : Connection η) (result : Except HttpError Unit) :
    ∃ s' : Host η, Scheduler.grant (behaviour service) id (ending service fd c result) s = .ok s' ∧
      Scheduler.Frames id s s' ∧ s'.tasks = s.tasks ∧ s'.history = s.history := by
  rw [ending]
  cases c.deadline service.deadlines with
  | none => exact ⟨s, rfl, .of_eq rfl rfl, rfl, rfl⟩
  | some d =>
    refine ⟨(s.clearTimer d.timer id).1, rfl, Scheduler.frames_clearTimer s d.timer id,
      Scheduler.tasks_clearTimer s d.timer id, ?_⟩
    obtain heq | ⟨wheel, -, heq⟩ := s.clearTimer_cases d.timer id <;> rw [heq]

/-- A task that is woken because its deadline has expired: the connection ends with that. -/
theorem wake_timer (h : s.Registered) (hget : s.tasks.get? id = some task)
    (houtcome : task.outcome = .blocked wanted c) (timer : TimerId) :
    ∃ s' failure, s.wake (behaviour service) id (.timer timer) = .ok s' ∧
      Scheduler.Frames id s s' ∧ s'.tasks.get? id = none ∧
      s'.history = .deleted task.fd failure ::
        .note (task.fd, .ended (.error (c.failure (.timeout timer)))) ::
        .note (task.fd, .closed) :: .woken id (.timer timer) :: s.history := by
  have hwoken : (woken service s id task (.timer timer) c).Registered := registered_woken h _
  have hperform := perform_ending service (woken service s id task (.timer timer) c) task.fd c
    (.error (c.failure (.timeout timer)))
  obtain ⟨granted, hgrant, hframes, htasks, hhistory⟩ :=
    exists_grant_ending service _ id task.fd c (.error (c.failure (.timeout timer)))
  have hgranted := (hwoken.perform hperform).grant hgrant
  have hget' : granted.tasks.get? id = some (task.after .completed) := by
    rw [htasks, ← outcome_ending c (.error (c.failure (.timeout timer)))]
    exact get?_woken hget (.timer timer)
  have hsettle : granted.settle (behaviour service) id =
      granted.terminate (behaviour service) id := by
    simp only [Scheduler.settle, hget', Task.after, Outcome.suspended?]
  obtain ⟨hnone, -⟩ | ⟨ended, refusals, failure, hended, heq⟩ :=
    Scheduler.terminate_cases (behaviour service) granted (hgranted.owner?_of_get? id)
  · rw [hget'] at hnone
    cases hnone
  · cases hget'.symm.trans hended
    refine ⟨granted.settle (behaviour service) id, failure, ?_, ?_, ?_, ?_⟩
    · rw [wake_eq hget houtcome]
      refine (congrArg (Except.bind · _) hperform).trans ?_
      exact congrArg (Except.map _) hgrant
    · rw [hsettle]
      obtain ⟨htasks', hwheels'⟩ := Scheduler.perform_eq hperform
      exact (((frames_woken (.timer timer)).trans (.of_eq htasks' hwheels')).trans hframes).trans
        (Scheduler.frames_terminate hgranted _ id)
    · rw [hsettle]
      exact Scheduler.get?_terminate hgranted _ id
    · rw [hsettle, heq]
      exact congrArg (Event.deleted task.fd failure :: ·) hhistory

/-! Every step. -/

theorem Guarded.fresh (service : Service η) (settings : Settings)
    (refusals : List Poller.Refusal) (clock : Int) :
    Guarded service ⟨{ settings, refusals, clock }, []⟩ where
  registered := .fresh settings refusals clock
  nodup_fired := List.nodup_nil
  waits := by simp [Arena.contains, Arena.get?, Arena.slot?]
  guard := by simp [Waits, Arena.get?, Arena.slot?]

/-- A connection that is taken up waits for its first head, if it can be taken up at all. -/
theorem Guarded.spawn {result : Except IoError TaskId} (h : Guarded service ⟨s, []⟩) {fd : Int}
    {interest : Ready} {refused : List (Int × Note)} {c : Connection η}
    (hwithin : service.deadlines.Within s.wheels.length)
    (hspawn : s.spawn (behaviour service) fd interest refused (fun _ => start service fd c) =
      .ok (s', result)) :
    Guarded service ⟨s', []⟩ ∧ Holds (⟨s, []⟩ : Scene η) ⟨s', []⟩ := by
  have hregistered := h.registered.spawn hspawn
  cases result with
  | error error =>
    obtain ⟨htasks, -, hwheels⟩ := Scheduler.sameTasks_of_spawn hspawn
    exact h.of_same hregistered htasks (by rw [hwheels])
      (Scheduler.insertion?_eq_of_wheels hwheels)
  | ok id =>
    have henrolled := h.registered.enrol fd interest fun _ => start service fd c
    rw [Scheduler.spawn] at hspawn
    split at hspawn
    · cases hspawn
    · rename_i enrolled made henrol
      rw [henrol] at henrolled
      obtain ⟨driven, hdrive, hs⟩ := exists_of_map_eq_ok hspawn
      cases hs
      obtain ⟨hnone, hframes₁, hwheels, hget⟩ := Scheduler.enrol_spec h.registered henrol
      -- The handle is new, so nothing is armed under it yet.
      have hunder : enrolled.Under id none := fun i => by
        rw [Scheduler.insertion?_eq_of_wheels hwheels]
        exact h.registered.under_none hnone i
      obtain ⟨hframes₂, htask⟩ := drive_spec (obeys_start service id fd c)
        (follows_start service fd c) henrolled hget rfl (hwheels ▸ hwithin) hunder hdrive
      have hframes := hframes₁.trans hframes₂
      refine h.of_frames hregistered hframes (fun _ _ _ => Iff.rfl) (List.Sublist.refl _)
        (fun _ => List.not_mem_nil) fun task' htask' => ?_
      obtain ⟨wanted, d, houtcome, hunder', -, -⟩ := htask task' htask'
      refine ⟨wanted, d, houtcome, hunder', ?_, ?_⟩
      · rw [hframes.length_wheels]
        exact hwithin
      · rintro c' ⟨task, wanted, hget', -⟩
        cases hnone.symm.trans hget'

theorem Guarded.dispatch {event : Int × Ready} (h : Guarded service ⟨s, []⟩)
    (hdispatch : s.dispatch (behaviour service) event = .ok s') :
    Guarded service ⟨s', []⟩ ∧ Holds (⟨s, []⟩ : Scene η) ⟨s', []⟩ := by
  have hregistered := h.registered.dispatch hdispatch
  obtain rfl | ⟨id, task, errors, ready, hget, hwake⟩ := Scheduler.dispatch_cases hdispatch
  · exact h.of_same hregistered rfl (Nat.le_refl _) fun _ _ => rfl
  · obtain ⟨c, found, wanted, hfound, houtcome⟩ := h.waits id (Arena.contains_iff.2 ⟨task, hget⟩)
    cases hget.symm.trans hfound
    have hc : (⟨s, []⟩ : Scene η).Waits id c := ⟨task, wanted, hget, houtcome⟩
    have hguard := h.guard id c hc
    -- The task learns of its readiness before the wake, and still waits in the same state.
    have hmodified := h.registered.modifyTask id (fun task => { task with errors, ready })
      fun _ => rfl
    have hget' : (s.modifyTask id fun task => { task with errors, ready }).tasks.get? id =
        some { task with errors, ready } := by
      rw [Scheduler.modifyTask, Arena.get?_modify, if_pos rfl, hget, Option.map_some]
    obtain ⟨hframes, htask⟩ := wake_io hmodified hget' houtcome hguard.within
      (hguard.under fun _ => List.not_mem_nil) hwake
    refine h.of_frames hregistered ((Scheduler.frames_modifyTask s id _).trans hframes)
      (fun _ _ _ => Iff.rfl) (List.Sublist.refl _) (fun _ => List.not_mem_nil) ?_
    intro task' htask'
    obtain ⟨wanted', d, houtcome', hunder, hstage, hsame⟩ := htask task' htask'
    refine ⟨wanted', d, houtcome', hunder, ?_, fun c' hc' => ?_⟩
    · rw [hframes.length_wheels]
      exact hguard.within
    · obtain rfl := hc.unique hc'
      exact ⟨hstage, fun heq i n hn => (hsame heq i).symm.trans hn⟩

/-- A task whose deadline has expired is gone behind its wake, if it has not gone before. -/
theorem Guarded.expire {timer : TimerId} {fired : List (TaskId × TimerId)}
    (h : Guarded service ⟨s, (id, timer) :: fired⟩)
    (hexpire : (if s.tasks.contains id then s.wake (behaviour service) id (.timer timer)
      else .ok s) = .ok s') :
    Guarded service ⟨s', fired⟩ ∧ Holds (⟨s, (id, timer) :: fired⟩ : Scene η) ⟨s', fired⟩ := by
  have hfirst := List.nodup_cons.1 h.nodup_fired
  have hgone : s'.tasks.get? id = none ∧ s'.Registered ∧ Scheduler.Frames id s s' := by
    split_ifs at hexpire with hlive
    · obtain ⟨c, task, wanted, hget, houtcome⟩ := h.waits id hlive
      obtain ⟨ended, failure, hwake, hframes, hnone, -⟩ :=
        wake_timer h.registered hget houtcome timer
      cases hexpire.symm.trans hwake
      exact ⟨hnone, h.registered.wake hexpire, hframes⟩
    · cases hexpire
      exact ⟨by simpa [Arena.contains] using hlive, h.registered, .of_eq rfl rfl⟩
  obtain ⟨hnone, hregistered, hframes⟩ := hgone
  refine h.of_frames hregistered hframes (fun other hne wheel => ?_) (List.sublist_cons_self _ _)
    (fun wheel hmem => hfirst.1 (List.mem_map.2 ⟨(id, wheel), hmem, rfl⟩)) fun task htask => ?_
  · rw [List.mem_cons, or_iff_right fun heq => hne (Prod.mk.inj heq).1]
  · cases hnone.symm.trans htask

theorem Step.guarded (hstep : Step service x y) (h : Guarded service x) :
    Guarded service y ∧ Holds x y := by
  cases hstep with
  | elapse span helapse =>
    have hregistered := h.registered.elapse helapse
    obtain ⟨clock, rfl⟩ := Scheduler.elapse_eq helapse
    exact h.of_same hregistered rfl (Nat.le_refl _) fun _ _ => rfl
  | addTimer horizon granularity hadd =>
    have hregistered := h.registered.addTimer hadd
    have hinsertion := Scheduler.insertion?_addTimer hadd
    obtain ⟨wheel, -, rfl⟩ := Scheduler.addTimer_eq hadd
    exact h.of_same hregistered rfl (by simp) hinsertion
  | spawn fd interest refused socket state hwithin hspawn => exact h.spawn hwithin hspawn
  | poll maxEvents timeout =>
    exact h.of_same (h.registered.record _ rfl trivial) rfl (Nat.le_refl _) fun _ _ => rfl
  | dispatch event hdispatch => exact h.dispatch hdispatch
  | sweep now hwheel => exact h.sweep hwheel now
  | expire hexpire => exact h.expire hexpire

/-! Whole runs. -/

theorem Guarded.of_reaches {settings : Settings} {refusals : List Poller.Refusal} {clock : Int}
    (h : ReflTransGen (Step service) ⟨{ settings, refusals, clock }, []⟩ x) :
    Guarded service x := by
  induction h with
  | refl => exact .fresh service settings refusals clock
  | tail _ hstep ih => exact (hstep.guarded ih).1

/-- The task is there all the way from one scene to another. -/
def Stays (service : Service η) (id : TaskId) : Scene η → Scene η → Prop :=
  ReflTransGen fun x y => Step service x y ∧ y.host.tasks.contains id

theorem Onward.trans {z : Scene η} {d e : Connection η} (h : Onward x y id c d)
    (h' : Onward y z id d e) : Onward x z id c e := by
  refine ⟨h.1.trans h'.1, fun hstage i n hn => ?_⟩
  have hd : d.stage = c.stage := Nat.le_antisymm (hstage ▸ h'.1) h.1
  exact h.2 hd i n (h'.2 (hstage.trans hd.symm) i n hn)

theorem Guarded.follow (h : Guarded service x) (hc : x.Waits id c)
    (hstays : Stays service id x y) :
    Guarded service y ∧ ∃ d, y.Waits id d ∧ Onward x y id c d := by
  induction hstays with
  | refl => exact ⟨h, c, hc, Nat.le_refl _, fun _ _ _ hn => hn⟩
  | tail _ hstep ih =>
    obtain ⟨hguarded, d, hd, honward⟩ := ih
    obtain ⟨hnext, hholds⟩ := hstep.1.guarded hguarded
    obtain ⟨e, he⟩ := hnext.waits id hstep.2
    exact ⟨hnext, e, he, honward.trans (hholds id d e hd he)⟩

/-- The deadline that is due in the state `c`: one for the first head, one for every later head, one
for a body, and one for whatever is written. -/
structure Due (deadlines : Deadlines) (c : Connection η) (deadline : Option Deadline) : Prop where
  first : c.phase.kind = .readHead → c.served = 0 → deadline = deadlines.headerRead
  later : c.phase.kind = .readHead → c.served ≠ 0 → deadline = deadlines.keepAlive
  body : c.phase.kind = .readBody → deadline = deadlines.bodyRead
  write : ¬ c.phase.Reads → deadline = deadlines.write

theorem due_deadline (deadlines : Deadlines) (c : Connection η) :
    Due deadlines c (c.deadline deadlines) := by
  rw [deadline]
  cases hphase : c.phase <;> constructor <;> simp_all [Phase.Reads, Phase.kind]

/-- What a connection that waited in `c` ends with when its deadline on `timer` has expired. While
it answers a request that it could not read, it ends with the reason for that anyway. -/
structure Expired (c : Connection η) (timer : TimerId) (error : HttpError) : Prop where
  reading : c.phase.Reads → error = .request (.task (.timeout timer))
  writing : c.phase.kind = .sendContinue ∨ c.phase.kind = .respond →
    error = .response (.task (.timeout timer))
  timeout_eq : c.phase.kind ≠ .reject → error.timeout? = some timer
  rejecting : ∀ rest reason, c.phase = .reject rest reason → error = .request reason

theorem failure_of_reads (h : c.phase.Reads) (error : TaskError) :
    c.failure error = .request (.task error) := by
  rw [failure]
  cases hphase : c.phase with
  | readHead | readBody => rfl
  | sendContinue | respond | reject =>
    rw [hphase] at h
    obtain hkind | hkind := h <;> cases hkind

theorem failure_of_writes (h : c.phase.kind = .sendContinue ∨ c.phase.kind = .respond)
    (error : TaskError) : c.failure error = .response (.task error) := by
  rw [failure]
  cases hphase : c.phase with
  | sendContinue | respond => rfl
  | readHead | readBody | reject =>
    rw [hphase] at h
    obtain hkind | hkind := h <;> cases hkind

theorem expired_failure (c : Connection η) (timer : TimerId) :
    Expired c timer (c.failure (.timeout timer)) := by
  constructor
  case reading => exact fun hkind => failure_of_reads hkind _
  case writing => exact fun hkind => failure_of_writes hkind _
  case timeout_eq =>
    intro hreject
    cases hkind : c.phase.kind with
    | readHead | readBody =>
      rw [failure_of_reads (by simp [Phase.Reads, hkind])]
      rfl
    | sendContinue | respond =>
      rw [failure_of_writes (by simp [hkind])]
      rfl
    | reject => exact absurd hkind hreject
  case rejecting =>
    intro rest reason hphase
    rw [failure, hphase]

/-- Wherever a scheduler of connections has got to, each of its tasks waits, and is armed on the
wheel of the phase that it waits in and nowhere else, unless that deadline has just expired. As long
as the phase lasts the insertion stays the same: deadlines are set when phases are entered, once for
each, and at no other time. A deadline that has expired was that of the phase, and the connection
ends with an error that says so. -/
theorem under_deadline_of_reaches {settings : Settings} {refusals : List Poller.Refusal}
    {clock : Int} (h : ReflTransGen (Step service) ⟨{ settings, refusals, clock }, []⟩ x) :
    (∀ poll s' result, x.fired = [] → x.host.turn (behaviour service) poll = .ok (s', result) →
      ReflTransGen (Step service) x ⟨s', []⟩) ∧
    (∀ fd c, ∃ path, Enters service c path (proceed service fd c) ∧
      armings (start service fd c) =
        (c :: path).flatMap fun d => (d.deadline service.deadlines).toList) ∧
    ∀ id, x.host.tasks.contains id → ∃ c deadline, x.Waits id c ∧
      Due service.deadlines c deadline ∧
      (∀ i, (x.host.insertion? i id).isSome ↔
        (∃ delay, deadline = some ⟨⟨i⟩, delay⟩) ∧ (id, ⟨i⟩) ∉ x.fired) ∧
      (∀ y d, Stays service id x y → y.Waits id d → d.served = c.served →
        d.phase.kind = c.phase.kind →
        ∀ i n, y.host.insertion? i id = some n → x.host.insertion? i id = some n) ∧
      ∀ timer rest, x.fired = (id, timer) :: rest →
        (∃ delay, deadline = some ⟨timer, delay⟩) ∧
        ∃ s' fd error failure, x.host.wake (behaviour service) id (.timer timer) = .ok s' ∧
          s'.history = .deleted fd failure :: .note (fd, .ended (.error error)) ::
            .note (fd, .closed) :: .woken id (.timer timer) :: x.host.history ∧
          Expired c timer error := by
  have hguarded := Guarded.of_reaches h
  refine ⟨fun poll s' result hfired hturn => ?_, fun fd c => ?_, fun id hlive => ?_⟩
  · obtain ⟨host, fired⟩ := x
    cases hfired
    exact reaches_turn hturn
  · obtain ⟨path, hpath⟩ := exists_enters_proceed service fd c
    refine ⟨path, hpath, ?_⟩
    rw [start, armings_arm, hpath.armings_eq]
    rfl
  · obtain ⟨c, hc⟩ := hguarded.waits id hlive
    have hguard := hguarded.guard id c hc
    refine ⟨c, _, hc, due_deadline service.deadlines c, hguard.armed_iff, ?_,
      fun timer rest hfired => ?_⟩
    · intro y d hstays hd hserved hkind
      obtain ⟨-, e, he, honward⟩ := hguarded.follow hc hstays
      obtain rfl := he.unique hd
      exact honward.2 (stage_eq_of_eq hserved hkind)
    · have hdeadline := hguard.deadline_of_fired timer (hfired ▸ List.mem_cons_self)
      obtain ⟨task, wanted, hget, houtcome⟩ := hc
      obtain ⟨s', failure, hwake, -, -, hhistory⟩ :=
        wake_timer hguarded.registered hget houtcome timer
      exact ⟨hdeadline, s', task.fd, _, failure, hwake, hhistory, expired_failure c timer⟩

/-- A service with all its deadlines on one wheel. -/
def oneWheel : Service Unit where
  handler := ⟨fun _ _ => ((), .error "")⟩
  deadlines := {
    headerRead := some ⟨⟨0⟩, 30⟩
    keepAlive := some ⟨⟨0⟩, 60⟩
    bodyRead := some ⟨⟨0⟩, 40⟩
    write := some ⟨⟨0⟩, 20⟩ }

/-- The first stretch for a client that sends nothing. -/
def silence : Stretch Unit :=
  .setTimer ⟨0⟩ 30 (.stop (.blocked .readable { socket := ⟨[], []⟩, handler := () }))

theorem start_oneWheel :
    start oneWheel 3 { socket := ⟨[.failure .wouldBlock], []⟩, handler := () } = silence := by
  rw [start, proceed]
  split <;> rename_i heq <;> cases heq
  rfl

/-- A client is taken up and is silent for longer than it may be. -/
def overdue : Except Crash (Host Unit) :=
  (({} : Host Unit).addTimer 100 10).bind fun (s, _) =>
    (s.spawn (behaviour oneWheel) 3 .readable [] fun _ => silence).bind fun (s, _) => s.elapse 50

theorem exists_expired_silence :
    ∃ (x : Scene Unit) (id : TaskId) (fd : Int) (s' : Host Unit) (failure : Option IoError),
      ReflTransGen (Step oneWheel) ⟨{}, []⟩ x ∧ x.fired = [(id, ⟨0⟩)] ∧
      x.host.wake (behaviour oneWheel) id (.timer ⟨0⟩) = .ok s' ∧
      s'.history = .deleted fd failure ::
        .note (fd, .ended (.error (.request (.task (.timeout ⟨0⟩))))) ::
        .note (fd, .closed) :: .woken id (.timer ⟨0⟩) :: x.host.history := by
  obtain ⟨s, hs, hview⟩ := exists_of_map_eq_ok (show overdue.map (fun s =>
    (s.wheels.map fun wheel => (wheel.sweep s.clock).fired,
      ((s.tasks.get? ⟨0, 0⟩).bind (·.outcome.suspended?)).map (·.phase))) =
    .ok ([[⟨0, 0⟩]], some .readHead) by decide +kernel)
  obtain ⟨hfired, hphase⟩ := Prod.mk.inj hview
  obtain ⟨⟨timed, timer⟩, htimed, hs⟩ := exists_of_bind_eq_ok hs
  obtain ⟨⟨spawned, result⟩, hspawned, helapse⟩ := exists_of_bind_eq_ok hs
  obtain ⟨wheel, hwheel, hswept⟩ := List.map_eq_singleton_iff.1 hfired
  have hwithin : oneWheel.deadlines.Within timed.wheels.length := by
    obtain ⟨made, -, rfl⟩ := Scheduler.addTimer_eq htimed
    rintro d (hd | hd | hd | hd) <;> cases hd <;> exact Nat.one_pos
  have htimed' : Step oneWheel ⟨{}, []⟩ ⟨timed, []⟩ := .addTimer 100 10 htimed
  have hspawned' : Step oneWheel ⟨timed, []⟩ ⟨spawned, []⟩ :=
    .spawn 3 .readable [] ⟨[.failure .wouldBlock], []⟩ () hwithin
      ((congrArg (timed.spawn (behaviour oneWheel) 3 .readable [] fun _ => ·)
        start_oneWheel).trans hspawned)
  have hindex : s.wheels[0]? = some wheel := by rw [hwheel]; rfl
  have helapsed := ((ReflTransGen.single htimed').tail hspawned').tail (.elapse 50 helapse)
  have hreach := helapsed.tail (.sweep s.clock hindex)
  obtain ⟨c, hsuspended, hkind⟩ := Option.map_eq_some_iff.1 hphase
  obtain ⟨task, hget, houtcome⟩ := Option.bind_eq_some_iff.1 hsuspended
  obtain ⟨-, -, hall⟩ := under_deadline_of_reaches hreach
  obtain ⟨d, deadline, ⟨task', wanted, hget', houtcome'⟩, -, -, -, hexpired⟩ :=
    hall ⟨0, 0⟩ (Arena.contains_iff.2 ⟨task, hget⟩)
  cases hget.symm.trans hget'
  rw [houtcome'] at houtcome
  cases houtcome
  have hfired' := congrArg (List.map fun id : TaskId => (id, (⟨0⟩ : TimerId))) hswept
  obtain ⟨-, s', fd, error, failure, hwake, hhistory, herror⟩ := hexpired ⟨0⟩ [] hfired'
  have hreading : c.phase.Reads := .inl (by rw [hkind]; rfl)
  rw [herror.reading hreading] at hhistory
  exact ⟨_, _, fd, s', failure, hreach, hfired', hwake, hhistory⟩

end CoopHttp.Connection.Scene
