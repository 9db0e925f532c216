import CoopHttp.Proofs.Scheduler.Arming
import CoopHttp.Proofs.Scheduler.Delivery

/-!
# Deadlines expire exactly

A sweep collects the tasks whose deadline is due and wakes them afterwards, one by one. What the
stretches in between do to wheels and tasks concerns none of those that still wait for their turn.
-/
namespace CoopHttp.Scheduler

open Relation

variable {σ ν : Type} {b : Behaviour σ ν} {s s' t : Scheduler σ ν} {id : TaskId} {timer : TimerId}
  {now : Int}

/-! Moves. -/

theorem moves_of_drive {task task' : Task σ} {wake : Wake} {run : Run σ ν}
    (hget : s.tasks.get? id = some task) (hroused : Roused task wake task')
    (hdrive : (s.rouse id wake task').drive b id run = .ok s') : ReflTransGen (Move b) s s' :=
  .head (.rouse hget hroused)
    (ReflTransGen.mono (fun _ _ => .change) _ _ (changes_drive hdrive))

theorem Calm.moves_dispatch (h : s.Calm) {event : Int × Ready}
    (hdispatch : s.dispatch b event = .ok s') : ReflTransGen (Move b) s s' := by
  obtain rfl | ⟨id, task, task', wake, run, hget, hroused, hdrive⟩ :=
    h.atRest.dispatch_cases hdispatch
  · exact .refl
  · exact moves_of_drive hget hroused hdrive

theorem Calm.moves_sweeps (h : s.Calm) {indices : List ℕ}
    (hsweep : indices.foldlM (Scheduler.sweepTimer b now) s = .ok s') :
    ReflTransGen (Move b) s s' := by
  refine h.sweeps_induction .refl (fun u u' id task timer hu hget hwake hmoves => ?_)
    (fun u index wheel hu hwheel hcrash hmoves => hmoves.tail (.change (.sweep hwheel hcrash))) hsweep
  obtain rfl | ⟨task, task', run, hget, hroused, hdrive⟩ := hu.atRest.wake_timer_cases hwake
  · exact hmoves
  · exact hmoves.trans (moves_of_drive hget hroused hdrive)

/-! Waking what has expired. -/

/-- Within a pass, an expired deadline resumes its task. -/
theorem summons_expire (b : Behaviour σ ν) (id : TaskId) (task : Task σ) (timer : TimerId) :
    Summons (fun s => if s.tasks.contains id then s.wake b id (.timer timer) else .ok s) id task
      (.timer timer) := by
  intro s s' h hget hwake
  dsimp only at hwake
  rw [if_pos (Arena.contains_iff.2 ⟨task, hget⟩)] at hwake
  exact summons_wake b id task timer s s' h hget hwake

/-- A pass over live tasks resumes each of them, in order. -/
theorem Calm.expires (h : s.Calm) {keys : List TaskId} (hlive : ∀ id ∈ keys, s.tasks.contains id)
    (hdistinct : keys.Nodup) (hexpire : expire b timer s keys = .ok s') :
    s'.Calm ∧ s'.resumptions = s.resumptions ++ keys.map (·, .timer timer) ∧
      ∀ id task, id ∉ keys → s.tasks.get? id = some task → s'.tasks.get? id = some task := by
  have hkeys : (keys.map fun id => (id, Wake.timer timer)).map (·.1) = keys := by
    rw [List.map_map]
    exact List.map_id keys
  have hcalls : List.Forall₂ (fun id id' => ∃ task, s.tasks.get? id = some task ∧
      Summons (fun s => if s.tasks.contains id' then s.wake b id' (.timer timer) else .ok s) id task
        (.timer timer)) keys keys := by
    refine List.forall₂_same.2 fun id hid => ?_
    obtain ⟨task, hget⟩ := Arena.contains_iff.1 (hlive id hid)
    exact ⟨task, hget, summons_expire b id task timer⟩
  have hround := h.round (List.forall₂_map_left_iff.2 hcalls) (hkeys.symm ▸ hdistinct) hexpire
  rwa [hkeys] at hround

/-- What a sweep of one wheel comes to: `due` are the tasks armed on it whose bucket has been
reached, by the time of the bucket and then by the order of arming. Each of them is met as it was and
resumed once, whatever the others did. Nothing but the end of the clock can break off the sweep
itself. -/
structure Expiry (b : Behaviour σ ν) (now : Int) (timer : TimerId) (s : Scheduler σ ν)
    (due : List (TaskId × TimerPlace)) : Prop where
  mem_iff : ∀ id place, (id, place) ∈ due ↔ s.Armed timer id place ∧ place.time ≤ now
  nodup : (due.map (·.1)).Nodup
  sorted : due.Pairwise (·.2 ≤ ·.2)
  pass :
    (sweepTimer b now s timer.index = .error .clockOverflow ∧
      ∃ wheel, s.wheels[timer.index]? = some wheel ∧ Instant.last < now + wheel.granularity) ∨
    ∃ wheels, sweepTimer b now s timer.index = expire b timer { s with wheels } (due.map (·.1)) ∧
      ∀ front id rest t, due.map (·.1) = front ++ id :: rest →
        expire b timer { s with wheels } front = .ok t →
        t.resumptions = s.resumptions ++ front.map (·, .timer timer) ∧
          ∃ task, s.tasks.get? id = some task ∧ t.tasks.get? id = some task ∧
            ∀ t', t.wake b id (.timer timer) = .ok t' → Resumes id (.timer timer) t t'
  resumed : ∀ s', sweepTimer b now s timer.index = .ok s' →
    s'.resumptions = s.resumptions ++ due.map fun e => (e.1, .timer timer)

/-- The sweep of a wheel has come to its end, and the pass over its due tasks is to follow. -/
theorem Calm.expiry_of_pass (h : s.Calm) {due : List (TaskId × TimerPlace)}
    (hmem : ∀ id place, (id, place) ∈ due ↔ s.Armed timer id place ∧ place.time ≤ now)
    (hdistinct : (due.map (·.1)).Nodup) (hsorted : due.Pairwise (·.2 ≤ ·.2))
    {wheels : List (TimerWheel TaskId)} (hswept : ({ s with wheels } : Scheduler σ ν).Calm)
    (hpass : sweepTimer b now s timer.index = expire b timer { s with wheels } (due.map (·.1))) :
    Expiry b now timer s due := by
  have hlive : ∀ id ∈ due.map (·.1), s.tasks.contains id := by
    intro id hid
    obtain ⟨⟨_, place⟩, he, rfl⟩ := List.mem_map.1 hid
    by_contra hdead
    exact h.registered.not_armed hdead ((hmem _ place).1 he).1
  refine ⟨hmem, hdistinct, hsorted, .inr ⟨wheels, hpass, fun front id rest t hsplit hfront => ?_⟩,
    fun s' hsweep => ?_⟩
  · rw [hsplit] at hlive hdistinct
    obtain ⟨hfirst, -, hdisjoint⟩ := List.nodup_append.1 hdistinct
    have hnot : id ∉ front := fun hid => hdisjoint id hid id List.mem_cons_self rfl
    obtain ⟨task, hget⟩ := Arena.contains_iff.1 (hlive id (by simp))
    obtain ⟨ht, hresumptions, hothers⟩ := hswept.expires
      (fun other hother => hlive other (List.mem_append_left _ hother)) hfirst hfront
    exact ⟨hresumptions, task, hget, hothers id task hnot hget,
      fun t' => summons_wake b id task timer t t' ht (hothers id task hnot hget)⟩
  · obtain ⟨-, hresumptions, -⟩ := hswept.expires hlive hdistinct (hpass.symm.trans hsweep)
    rw [List.map_map] at hresumptions
    exact hresumptions

theorem Calm.exists_expiry (h : s.Calm) (hsound : s.SoundWheels) (now : Int) (timer : TimerId) :
    ∃ due, Expiry b now timer s due := by
  cases hwheel : s.wheels[timer.index]? with
  | none =>
    have hmem : ∀ id place, (id, place) ∈ ([] : List (TaskId × TimerPlace)) ↔
        s.Armed timer id place ∧ place.time ≤ now := by
      simp [Armed, hwheel]
    exact ⟨[], h.expiry_of_pass hmem List.nodup_nil .nil h (by rw [sweepTimer, hwheel]; rfl)⟩
  | some wheel =>
    obtain ⟨due, hholds, hdistinct, hsorted, hsweep⟩ := (hsound.sound hwheel).exists_due now
    have hmem : ∀ id place, (id, place) ∈ due ↔ s.Armed timer id place ∧ place.time ≤ now := by
      simp [Armed, hwheel, hholds]
    refine ⟨due, ?_⟩
    obtain ⟨hcrash, hfired⟩ | ⟨hcrash, hlast⟩ := hsweep
    · refine h.expiry_of_pass hmem hdistinct hsorted (h.sweepWheel hwheel now) ?_
      simp only [sweepTimer, hwheel, hcrash, hfired]
    · have herror : sweepTimer b now s timer.index = .error .clockOverflow := by
        simp only [sweepTimer, hwheel, hcrash]
      refine ⟨hmem, hdistinct, hsorted, .inl ⟨herror, wheel, hwheel, hlast⟩, fun s' hs' => ?_⟩
      cases herror.symm.trans hs'

/-- Whatever the wheels before it have led to, a wheel resumes exactly the tasks that are armed on it
when it is swept and whose bucket has been reached. From one point of a run to another a scheduler
goes by moves. Once a deadline is cleared, its task is not armed on the wheel; a deadline that is set
is the only one of its task there; a task that has ended is armed nowhere; and no move but the
setting of a deadline arms a task. -/
theorem expiry_of_resting (h : Resting b s) {index : ℕ}
    (hearlier : (List.range index).foldlM (sweepTimer b now) s = .ok t) :
    (∃ due, Expiry b now ⟨index⟩ t due) ∧
      ReflTransGen (Move b) s t ∧
      (∀ event s', s.dispatch b event = .ok s' → ReflTransGen (Move b) s s') ∧
      ∀ u timer id, ReflTransGen (Move b) s u →
        (∀ place, ¬ (u.clearTimer timer id).1.Armed timer id place) ∧
        (∀ delay u', u.setTimer timer id delay = .ok (u', true) → ∀ place,
          u'.Armed timer id place ↔ ∃ wheel, u.wheels[timer.index]? = some wheel ∧
            place = wheel.nextPlace u.clock delay) ∧
        (¬ u.tasks.contains id → ∀ place, ¬ u.Armed timer id place) ∧
        ∀ u', ReflTransGen (Leaves b timer id) u u' → ∀ place,
          u'.Armed timer id place → u.Armed timer id place := by
  have hsound := (invariant_soundWheels b).of_resting h
  have hmoves := h.calm.moves_sweeps hearlier
  have ht := ((invariant_soundWheels b).moves h.registered hsound hmoves).2
  refine ⟨(h.sweeps hearlier).calm.exists_expiry ht now ⟨index⟩, hmoves,
    fun event s' => h.calm.moves_dispatch, fun u timer id hmoves => ?_⟩
  obtain ⟨hregistered, hu⟩ := (invariant_soundWheels b).moves h.registered hsound hmoves
  exact ⟨fun place => hu.not_armed_clearTimer, fun delay u' hset place => hu.armed_setTimer hset,
    fun hdead place => hregistered.not_armed hdead,
    fun u' hleaves place => hu.armed_of_leaves hregistered hleaves⟩

/-- Tasks that, when the first wheel wakes them, clear their deadline on the second one and set one
for at once on the first. -/
def fickle : Behaviour Unit Unit :=
  ⟨fun _ wake _ =>
    if wake = .timer ⟨0⟩ then .clearTimer ⟨1⟩ (.setTimer ⟨0⟩ 0 (.stop (.parked ())))
    else .stop (.parked ()), fun _ _ => []⟩

/-- A task on both of two wheels and one on the second, when their deadlines have passed. -/
def twoWheels : Except Crash (Scheduler Unit Unit) :=
  (({} : Scheduler Unit Unit).addTimer 100 10).bind fun (s, _) =>
    (s.addTimer 100 10).bind fun (s, _) =>
    (s.spawn fickle 3 .readable [] fun _ =>
      .setTimer ⟨0⟩ 5 (.setTimer ⟨1⟩ 5 (.stop (.parked ())))).bind fun (s, _) =>
    (s.spawn fickle 4 .readable [] fun _ => .setTimer ⟨1⟩ 5 (.stop (.parked ()))).bind fun (s, _) =>
    s.elapse 50

theorem exists_expiry_twoWheels :
    ∃ (s t t' : Scheduler Unit Unit) (due : List (TaskId × TimerPlace)), Resting fickle s ∧
      (List.range 1).foldlM (sweepTimer fickle 50) s = .ok t ∧
      t.resumptions = [(⟨0, 0⟩, .timer ⟨0⟩)] ∧ Expiry fickle 50 ⟨1⟩ t due ∧
      sweepTimer fickle 50 t 1 = .ok t' ∧ due.map (·.1) = [⟨1, 0⟩] := by
  obtain ⟨⟨resumptions, t'⟩, hrun, hview⟩ := exists_of_map_eq_ok (show
    (twoWheels.bind fun s => ((List.range 1).foldlM (sweepTimer fickle 50) s).bind fun t =>
      (sweepTimer fickle 50 t 1).map fun t' => (t.resumptions, t')).map
        (fun (resumptions, t') => (resumptions, t'.resumptions)) =
      .ok ([(⟨0, 0⟩, .timer ⟨0⟩)], [(⟨0, 0⟩, .timer ⟨0⟩), (⟨1, 0⟩, .timer ⟨1⟩)]) by decide +kernel)
  obtain ⟨rfl, hlater⟩ := Prod.mk.inj hview
  obtain ⟨s, hs, hsweeps⟩ := exists_of_bind_eq_ok hrun
  obtain ⟨t, hearlier, hpass⟩ := exists_of_bind_eq_ok hsweeps
  obtain ⟨swept, hsweep, heq⟩ := exists_of_map_eq_ok hpass
  obtain ⟨hfirst, rfl⟩ := Prod.mk.inj heq
  obtain ⟨⟨one, _⟩, hone, hs⟩ := exists_of_bind_eq_ok hs
  obtain ⟨⟨two, _⟩, htwo, hs⟩ := exists_of_bind_eq_ok hs
  obtain ⟨⟨three, _⟩, hthree, hs⟩ := exists_of_bind_eq_ok hs
  obtain ⟨⟨four, _⟩, hfour, hs⟩ := exists_of_bind_eq_ok hs
  have hresting : Resting fickle s :=
    (((((Resting.fresh {} [] 0).addTimer 100 10 hone).addTimer 100 10 htwo).spawn 3 .readable [] _
      hthree).spawn 4 .readable [] _ hfour).elapse 50 hs
  obtain ⟨due, hexpiry⟩ := (expiry_of_resting hresting hearlier).1
  have hdue := hexpiry.resumed swept hsweep
  rw [hfirst] at hdue
  refine ⟨s, t, swept, due, hresting, hearlier, hfirst, hexpiry, hsweep, ?_⟩
  have hkeys := List.append_cancel_left (hdue.symm.trans hlater : [_] ++ _ = [_] ++ [_])
  simpa using congrArg (List.map Prod.fst) hkeys

end CoopHttp.Scheduler
