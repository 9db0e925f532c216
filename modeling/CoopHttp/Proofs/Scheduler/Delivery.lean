import CoopHttp.Proofs.Scheduler.Resumption

/-!
# Events reach their owners

A batch of events, or of expired deadlines, wakes one task after the other. A stretch spares the
tasks whose turn is still to come, whatever it does, so each of them is met as it was when the batch
came in.
-/
namespace CoopHttp.Scheduler

variable {σ ν : Type} {b : Behaviour σ ν} {s s' t : Scheduler σ ν} {id : TaskId} {task : Task σ}

/-- No stretch is under way, and no task is about to be started. -/
structure Calm (s : Scheduler σ ν) : Prop where
  registered : s.Registered
  atRest : s.AtRest
  not_opens : ¬ Event.Opens s.history

theorem Resting.calm (h : Resting b s) : s.Calm :=
  ⟨h.registered, h.atRest, (invariant_not_opens b).of_resting h⟩

/-- One task has been resumed, and all others have been spared. -/
structure Resumes (id : TaskId) (wake : Wake) (s s' : Scheduler σ ν) : Prop where
  calm : s'.Calm
  spares : Spares id s s'
  resumptions_eq : s'.resumptions = s.resumptions ++ [(id, wake)]

theorem Calm.resumes_drive (h : s.Calm) {task' : Task σ} {wake : Wake} {run : Run σ ν}
    (hget : s.tasks.get? id = some task) (hroused : Roused task wake task')
    (hdrive : (s.rouse id wake task').drive b id run = .ok s') : Resumes id wake s s' := by
  have hspares := spares_rouse h.registered hget (h.atRest id task hget) hroused hdrive
  have hrouse := registered_rouse h.registered hget wake hroused.fd_eq
  obtain ⟨new, hnew, hquiet⟩ := quietly_drive h.registered hget hroused hdrive
  refine ⟨⟨hrouse.drive hdrive, hspares.atRest_of h.atRest, ?_⟩, hspares,
    resumptions_drive h.registered h.not_opens hget hroused hdrive⟩
  rw [hnew]
  exact hquiet.not_opens_append fun hopens => hopens

/-- A step that resumes a task, from wherever that task is as it was. -/
def Summons (f : Scheduler σ ν → Except Crash (Scheduler σ ν)) (id : TaskId) (task : Task σ)
    (wake : Wake) : Prop :=
  ∀ s s', Calm s → s.tasks.get? id = some task → f s = .ok s' → Resumes id wake s s'

/-- An event resumes the owner of its descriptor. -/
theorem summons_dispatch (b : Behaviour σ ν) {event : Int × Ready} (hfd : task.fd = event.1)
    (id : TaskId) :
    Summons (fun s => s.dispatch b event) id task (.io (event.2 ||| task.errors)) := by
  intro s s' h hget hdispatch
  obtain ⟨state, hstate⟩ := Option.isSome_iff_exists.1 (h.atRest id task hget).suspended
  have howner : s.owner? event.1 = some id := hfd ▸ h.registered.owner?_of_get? id task hget
  change s.dispatch b (event.1, event.2) = .ok s' at hdispatch
  rw [dispatch_eq_drive b howner hget hstate] at hdispatch
  rw [← Ready.or_or_and_errors]
  exact h.resumes_drive hget (.io event.2 _) hdispatch

/-- An expired deadline resumes its task. -/
theorem summons_wake (b : Behaviour σ ν) (id : TaskId) (task : Task σ) (timer : TimerId) :
    Summons (fun s => s.wake b id (.timer timer)) id task (.timer timer) := by
  intro s s' h hget hwake
  obtain ⟨state, hstate⟩ := Option.isSome_iff_exists.1 (h.atRest id task hget).suspended
  dsimp only at hwake
  rw [wake_eq_drive b hget hstate] at hwake
  exact h.resumes_drive hget (.timer timer _) hwake

/-- A round of steps resumes the tasks that they summon, in order, and spares all others. -/
theorem Calm.round {α : Type} {f : Scheduler σ ν → α → Except Crash (Scheduler σ ν)}
    {calls : List (TaskId × Wake)} {items : List α} (h : s.Calm)
    (hcalls : List.Forall₂ (fun call item => ∃ task, s.tasks.get? call.1 = some task ∧
      Summons (f · item) call.1 task call.2) calls items)
    (hdistinct : (calls.map (·.1)).Nodup) (hround : items.foldlM f s = .ok s') :
    s'.Calm ∧ s'.resumptions = s.resumptions ++ calls ∧
      ∀ id task, id ∉ calls.map (·.1) → s.tasks.get? id = some task →
        s'.tasks.get? id = some task := by
  induction calls generalizing s items with
  | nil =>
    cases hcalls
    cases hround
    exact ⟨h, (List.append_nil _).symm, fun _ _ _ hget => hget⟩
  | cons call calls ih =>
    obtain _ | ⟨⟨task, hget, hsummons⟩, hcalls⟩ := hcalls
    obtain ⟨hfirst, hdistinct⟩ := List.nodup_cons.1 hdistinct
    rw [List.foldlM_cons] at hround
    obtain ⟨next, hstep, hround⟩ := exists_of_bind_eq_ok hround
    obtain ⟨hcalm, hspares, hresumptions⟩ := hsummons s next h hget hstep
    -- Those whose turn is still to come are met as they were.
    have hne : ∀ later ∈ calls, later.1 ≠ call.1 :=
      fun later hmem heq => hfirst (List.mem_map.2 ⟨later, hmem, heq⟩)
    have hlater := ((List.forall₂_and_left _ _).2 ⟨hne, hcalls⟩).imp
      fun later item ⟨hne, task, hget, hsummons⟩ =>
        (⟨task, hspares.get?_eq later.1 task hne hget, hsummons⟩ :
          ∃ task, next.tasks.get? later.1 = some task ∧ Summons (f · item) later.1 task later.2)
    obtain ⟨hcalm', hresumptions', hothers⟩ := ih hcalm hlater hdistinct hround
    refine ⟨hcalm', ?_, fun other task hother hget => ?_⟩
    · rw [hresumptions', hresumptions, List.append_assoc]
      rfl
    · obtain ⟨hne, hother⟩ := List.ne_and_not_mem_of_not_mem_cons hother
      exact hothers other task hother (hspares.get?_eq other task hne hget)

/-! Batches of events. -/

/-- The event resumes the owner of its descriptor with its readiness and the error conditions that
the owner has heard of before. -/
def Delivers (s : Scheduler σ ν) (resumption : TaskId × Wake) (event : Int × Ready) : Prop :=
  ∃ task, s.owner? event.1 = some resumption.1 ∧ s.tasks.get? resumption.1 = some task ∧
    resumption.2 = .io (event.2 ||| task.errors)

theorem Registered.exists_delivers (h : s.Registered) {batch : List (Int × Ready)}
    (howned : ∀ event ∈ batch, (s.owner? event.1).isSome) :
    ∃ woken, List.Forall₂ s.Delivers woken batch := by
  induction batch with
  | nil => exact ⟨[], .nil⟩
  | cons event batch ih =>
    obtain ⟨hfirst, hlater⟩ := List.forall_mem_cons.1 howned
    obtain ⟨woken, hwoken⟩ := ih hlater
    obtain ⟨id, howner⟩ := Option.isSome_iff_exists.1 hfirst
    obtain ⟨task, hget, -⟩ := h.owner?_eq_some_iff.1 howner
    exact ⟨(id, .io (event.2 ||| task.errors)) :: woken, .cons ⟨task, howner, hget, rfl⟩ hwoken⟩

/-- Events on different descriptors resume different tasks. -/
theorem Registered.nodup_of_delivers (h : s.Registered) {batch : List (Int × Ready)}
    {woken : List (TaskId × Wake)} (hwoken : List.Forall₂ s.Delivers woken batch)
    (hdistinct : (batch.map (·.1)).Nodup) : (woken.map (·.1)).Nodup := by
  have howners : (batch.map (·.1)).map s.owner? = (woken.map (·.1)).map some := by
    induction hwoken with
    | nil => rfl
    | cons hfirst _ ih =>
      obtain ⟨task, howner, -⟩ := hfirst
      simp only [List.map_cons, howner, ih (List.nodup_cons.1 hdistinct).2]
  refine List.Nodup.of_map some (howners ▸ hdistinct.map_on fun fd hfd fd' _ heq => ?_)
  have hmem : s.owner? fd ∈ (woken.map (·.1)).map some := howners ▸ List.mem_map_of_mem hfd
  obtain ⟨id, -, howner⟩ := List.mem_map.1 hmem
  obtain ⟨task, hget, rfl⟩ := h.owner?_eq_some_iff.1 howner.symm
  obtain ⟨task', hget', rfl⟩ := h.owner?_eq_some_iff.1 (heq.symm.trans howner.symm)
  cases hget.symm.trans hget'
  rfl

/-- Every event of a batch on different descriptors resumes the task that owned its descriptor when
the batch came in. -/
theorem Calm.dispatches (h : s.Calm) {batch : List (Int × Ready)} {woken : List (TaskId × Wake)}
    (hwoken : List.Forall₂ s.Delivers woken batch) (hdistinct : (batch.map (·.1)).Nodup)
    (hdispatch : batch.foldlM (dispatch b) s = .ok s') :
    s'.Calm ∧ s'.resumptions = s.resumptions ++ woken ∧
      ∀ id task, id ∉ woken.map (·.1) → s.tasks.get? id = some task →
        s'.tasks.get? id = some task := by
  refine h.round (hwoken.imp fun call event hdelivers => ?_)
    (h.registered.nodup_of_delivers hwoken hdistinct) hdispatch
  obtain ⟨task, howner, hget, hwake⟩ := hdelivers
  obtain ⟨task', hget', hfd⟩ := h.registered.owner?_eq_some_iff.1 howner
  cases hget.symm.trans hget'
  exact ⟨task, hget, hwake ▸ summons_dispatch b hfd call.1⟩

/-! Behind the batch. -/

theorem Calm.sweepWheel (h : s.Calm) {index : ℕ} {wheel : TimerWheel TaskId}
    (hwheel : s.wheels[index]? = some wheel) (now : Int) :
    ({ s with wheels := s.wheels.set index (wheel.sweep now).wheel } : Scheduler σ ν).Calm :=
  ⟨h.registered.sweepWheel hwheel now, h.atRest, h.not_opens⟩

/-- What sweeps and wakes by deadlines keep holds after any number of sweeps. -/
theorem Calm.sweeps_induction {P : Scheduler σ ν → Prop} (h : s.Calm) (hs : P s) {now : Int}
    {indices : List ℕ}
    (hwake : ∀ u u' id task timer, Calm u → u.tasks.get? id = some task →
      u.wake b id (.timer timer) = .ok u' → P u → P u')
    (hsweep : ∀ u index wheel, Calm u → u.wheels[index]? = some wheel →
      (wheel.sweep now).crash = none → P u →
      P { u with wheels := u.wheels.set index (wheel.sweep now).wheel })
    (hsweeps : indices.foldlM (Scheduler.sweepTimer b now) s = .ok s') : P s' := by
  have hboth : s'.Calm ∧ P s' := by
    refine foldlM_invariant (P := fun _ t => t.Calm ∧ P t) ?_ ⟨h, hs⟩ hsweeps
    intro t t' index rest ht hstep
    obtain rfl | ⟨wheel, hwheel, hcrash, hexpire⟩ := sweepTimer_cases hstep
    · exact ht
    · have hswept := And.intro (ht.1.sweepWheel hwheel now)
        (hsweep t index wheel ht.1 hwheel hcrash ht.2)
      refine foldlM_invariant (P := fun _ u => u.Calm ∧ P u) ?_ hswept hexpire
      intro u u' id rest hu hstep
      split_ifs at hstep with hlive
      · obtain ⟨task, hget⟩ := Arena.contains_iff.1 hlive
        exact ⟨(summons_wake b id task ⟨index⟩ u u' hu.1 hget hstep).calm,
          hwake u u' id task ⟨index⟩ hu.1 hget hstep hu.2⟩
      · cases hstep
        exact hu
  exact hboth.2

/-- From `s` to `s'` tasks have been resumed by deadlines only. -/
def Expires (s s' : Scheduler σ ν) : Prop :=
  ∃ expired, s'.resumptions = s.resumptions ++ expired ∧
    ∀ resumption ∈ expired, ∃ timer, resumption.2 = .timer timer

theorem Expires.refl (s : Scheduler σ ν) : Expires s s := ⟨[], by simp, by simp⟩

theorem Expires.trans (h : Expires s t) (h' : Expires t s') : Expires s s' := by
  obtain ⟨expired, hexpired, htimers⟩ := h
  obtain ⟨later, hlater, htimers'⟩ := h'
  refine ⟨expired ++ later, by rw [hlater, hexpired, List.append_assoc], fun resumption hmem => ?_⟩
  exact (List.mem_append.1 hmem).elim (htimers resumption) (htimers' resumption)

theorem Resumes.expires {timer : TimerId} (h : Resumes id (.timer timer) s s') : Expires s s' :=
  ⟨_, h.resumptions_eq, by simp⟩

theorem Calm.expires_sweeps (h : s.Calm) {now : Int} {indices : List ℕ}
    (hsweep : indices.foldlM (Scheduler.sweepTimer b now) s = .ok s') : Expires s s' := by
  refine h.sweeps_induction (.refl s) (fun u u' id task timer hu hget hwake hexpires => ?_)
    (fun u index wheel hu hwheel hcrash hexpires => hexpires) hsweep
  exact hexpires.trans (summons_wake b id task timer u u' hu hget hwake).expires

/-- A poll changes neither the tasks nor who owns what. -/
theorem Resting.polled (h : Resting b s) {span : ℕ}
    (helapse : (s.record (.polled s.settings.maxEvents s.settings.pollTimeout)).elapse span =
      .ok t) :
    t.Calm ∧ SameTasks s t ∧ t.settings = s.settings ∧ t.resumptions = s.resumptions := by
  have hcalm := (h.poll.elapse span helapse).calm
  obtain ⟨clock, rfl⟩ := elapse_eq helapse
  exact ⟨hcalm, ⟨rfl, rfl, rfl⟩, rfl, rfl⟩

theorem SameTasks.delivers_eq (h : SameTasks s t) : t.Delivers = s.Delivers := by
  obtain ⟨htasks, howners, -⟩ := h
  funext resumption event
  simp only [Delivers, owner?, htasks, howners]

/-- A turn whose poll comes back with a batch of events on different descriptors, all of them
owned, resumes the owner of each descriptor at that time, in the order of the batch and by its event,
and nobody else before the wheels are swept. Whatever the stretches of a part of the batch did, the
owner of the next event is still live and as it was, and is the only one that its event resumes. -/
theorem delivered_of_turn (h : Reachable b s) {poll : Poll} {batch : List (Int × Ready)}
    (hfailure : poll.failure = none) (hbatch : poll.events.take s.settings.maxEvents = batch)
    (hdistinct : (batch.map (·.1)).Nodup)
    (howned : ∀ event ∈ batch, (s.owner? event.1).isSome) :
    ∃ woken, List.Forall₂ s.Delivers woken batch ∧
      (∀ s' result, s.turn b poll = .ok (s', result) → result = .ok () ∧
        ∃ expired, s'.resumptions = s.resumptions ++ woken ++ expired ∧
          ∀ resumption ∈ expired, ∃ timer, resumption.2 = .timer timer) ∧
      ∀ polled front event rest t,
        (s.record (.polled s.settings.maxEvents s.settings.pollTimeout)).elapse poll.elapsed =
          .ok polled →
        batch = front ++ event :: rest → front.foldlM (dispatch b) polled = .ok t →
        ∃ id task, s.owner? event.1 = some id ∧ s.tasks.get? id = some task ∧
          t.owner? event.1 = some id ∧ t.tasks.get? id = some task ∧
          t.resumptions = s.resumptions ++ woken.take front.length ∧
          ∀ t', t.dispatch b event = .ok t' → Resumes id (.io (event.2 ||| task.errors)) t t' := by
  obtain ⟨woken, hwoken⟩ := h.registered.exists_delivers howned
  refine ⟨woken, hwoken, fun s' result hturn => ?_,
    fun polled front event rest t helapse hsplit hfront => ?_⟩
  · obtain ⟨polled, helapse, hturn⟩ := exists_of_bind_eq_ok hturn
    obtain ⟨hcalm, hsame, hsettings, hresumptions⟩ := h.resting.polled helapse
    rw [hfailure, hsettings, hbatch] at hturn
    obtain ⟨dispatched, hdispatch, hturn⟩ := exists_of_bind_eq_ok hturn
    obtain ⟨swept, hsweep, hs⟩ := exists_of_map_eq_ok hturn
    cases hs
    obtain ⟨hdispatched, hwoken', -⟩ :=
      hcalm.dispatches (hsame.delivers_eq ▸ hwoken) hdistinct hdispatch
    obtain ⟨expired, hexpired, htimers⟩ := hdispatched.expires_sweeps hsweep
    exact ⟨rfl, expired, by rw [hexpired, hwoken', hresumptions], htimers⟩
  · obtain ⟨hcalm, hsame, -, hresumptions⟩ := h.resting.polled helapse
    subst hsplit
    have hnodup := h.registered.nodup_of_delivers hwoken hdistinct
    have hfirst := List.forall₂_take_append _ _ _ hwoken
    have hlater := List.forall₂_drop_append _ _ _ hwoken
    rw [← List.take_append_drop front.length woken, List.map_append] at hnodup
    generalize woken.drop front.length = later at hlater hnodup
    obtain _ | @⟨call, event, later, rest, ⟨task, howner, hget, hwake⟩, -⟩ := hlater
    have hdistinct' : (front.map (·.1)).Nodup := by
      rw [List.map_append] at hdistinct
      exact hdistinct.of_append_left
    have hnot : call.1 ∉ (woken.take front.length).map (·.1) := by
      intro hmem
      exact List.disjoint_of_nodup_append hnodup hmem (List.mem_map_of_mem List.mem_cons_self)
    obtain ⟨ht, hfront', hothers⟩ :=
      hcalm.dispatches (hsame.delivers_eq ▸ hfirst) hdistinct' hfront
    have hget' := hothers call.1 task hnot (hsame.1 ▸ hget)
    obtain ⟨task', hfound, hfd⟩ := h.registered.owner?_eq_some_iff.1 howner
    cases hget.symm.trans hfound
    refine ⟨call.1, task, howner, hget, hfd ▸ ht.registered.owner?_of_get? call.1 task hget', hget',
      hfront'.trans (by rw [hresumptions]), fun t' hdispatch => ?_⟩
    exact summons_dispatch b hfd call.1 t t' ht hget' hdispatch

/-- Tasks that wait, apart from the one on descriptor 3: it tries to start a task on descriptor 4,
starts one on descriptor 5 and returns. -/
def rivals : Behaviour Unit Unit :=
  ⟨fun context _ _ =>
    if context.fd = 3 then
      .spawn 4 .writable [] (fun _ => .stop (.parked ()))
        (.spawn 5 .writable [] (fun _ => .stop (.parked ())) (.stop .completed))
    else .stop (.parked ()), fun _ _ => []⟩

/-- One event for each of two tasks, the first of which goes for the descriptor of the second. -/
def rivalEvents : Poll := { events := [(3, .readable), (4, .readable ||| .hangup)] }

/-- The scheduler of the two tasks before and after their turn. -/
def rivalry : Except Crash (Scheduler Unit Unit × Scheduler Unit Unit) :=
  (({} : Scheduler Unit Unit).spawn rivals 3 .readable [] fun _ => .stop (.parked ())).bind
    fun (s, _) => (s.spawn rivals 4 .readable [] fun _ => .stop (.parked ())).bind fun (s, _) =>
    (s.turn rivals rivalEvents).map fun (s', _) => (s, s')

theorem exists_delivered_rivalry :
    ∃ (s s' : Scheduler Unit Unit) (result : Except IoError Unit) (woken expired : _),
      Reachable rivals s ∧ s.turn rivals rivalEvents = .ok (s', result) ∧ result = .ok () ∧
      s'.resumptions = s.resumptions ++ woken ++ expired ∧
      woken.map (·.1) = [⟨0, 0⟩, ⟨1, 0⟩] ∧ s'.owner? 4 = some ⟨1, 0⟩ := by
  obtain ⟨⟨s, s'⟩, hs, hview⟩ := exists_of_map_eq_ok (show rivalry.map (fun (s, s') =>
    (s.settings.maxEvents, s.owner? 3, s.owner? 4, s'.owner? 4)) =
    .ok (8192, some ⟨0, 0⟩, some ⟨1, 0⟩, some ⟨1, 0⟩) by decide)
  simp only [Prod.mk.injEq] at hview
  obtain ⟨hmax, hfirst, hsecond, hafter⟩ := hview
  obtain ⟨⟨one, _⟩, hone, hs⟩ := exists_of_bind_eq_ok hs
  obtain ⟨⟨two, _⟩, htwo, hs⟩ := exists_of_bind_eq_ok hs
  obtain ⟨⟨turned, result⟩, hturn, hs⟩ := exists_of_map_eq_ok hs
  cases hs
  have hreach : Reachable rivals s :=
    ((Reachable.fresh {} [] 0).spawn 3 .readable [] _ hone).spawn 4 .readable [] _ htwo
  have hbatch : rivalEvents.events.take s.settings.maxEvents =
      [(3, .readable), (4, .readable ||| .hangup)] := by
    rw [hmax]
    rfl
  have howned : ∀ event ∈ [((3 : Int), Ready.readable), (4, .readable ||| .hangup)],
      (s.owner? event.1).isSome := by
    simp [hfirst, hsecond]
  obtain ⟨woken, hwoken, hall, -⟩ :=
    delivered_of_turn hreach rfl hbatch (by decide) howned
  obtain ⟨hresult, expired, hexpired, -⟩ := hall s' result hturn
  refine ⟨s, s', result, woken, expired, hreach, hturn, hresult, hexpired, ?_, hafter⟩
  obtain _ | ⟨⟨_, howner, -⟩, _ | ⟨⟨_, howner', -⟩, _ | _⟩⟩ := hwoken
  simp [Option.some.inj (howner.symm.trans hfirst), Option.some.inj (howner'.symm.trans hsecond)]

end CoopHttp.Scheduler
