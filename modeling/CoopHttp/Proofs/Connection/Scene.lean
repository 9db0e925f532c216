import CoopHttp.Proofs.Connection.Deadlines
import CoopHttp.Proofs.Scheduler.Reachable
import Mathlib.Logic.Relation

/-!
# A scheduler of connections, step by step

A scheduler serves connections: it starts their tasks, wakes them when their descriptors are ready,
and sweeps its wheels. `Guarded` is what holds between any two of its steps: each task waits, and is
armed on the wheel of the phase that it waits in and on no other, unless that deadline has expired
and the task is about to be woken for it.
-/
namespace CoopHttp.Connection

open Relation

variable {η : Type}

/-- A scheduler of connections, and what a sweep has fired and has still to wake, with the wheel. -/
structure Scene (η : Type) where
  host : Host η
  fired : List (TaskId × TimerId) := []

namespace Scene

def Waits (x : Scene η) (id : TaskId) (c : Connection η) : Prop :=
  ∃ task wanted, x.host.tasks.get? id = some task ∧ task.outcome = .blocked wanted c

theorem Waits.unique {x : Scene η} {id : TaskId} {c d : Connection η} (h : x.Waits id c)
    (h' : x.Waits id d) : d = c := by
  obtain ⟨task, wanted, htask, houtcome⟩ := h
  obtain ⟨task', wanted', htask', houtcome'⟩ := h'
  cases htask.symm.trans htask'
  cases houtcome.symm.trans houtcome'
  rfl

/-- Behind the sweep of a wheel: whom it has fired is still to be woken. -/
def swept (s : Host η) (index : ℕ) (wheel : TimerWheel TaskId) (now : Int) : Scene η where
  host := { s with wheels := s.wheels.set index (wheel.sweep now).wheel }
  fired := (wheel.sweep now).fired.map fun id => (id, ⟨index⟩)

/-- What a scheduler of connections does, step by step. A sweep is one step, and each wake behind it
is one. -/
inductive Step (service : Service η) : Scene η → Scene η → Prop
  | elapse {s s' : Host η} (span : ℕ) :
    s.elapse span = .ok s' → Step service ⟨s, []⟩ ⟨s', []⟩
  | addTimer {s s' : Host η} {timer : TimerId} (horizon granularity : ℕ) :
    s.addTimer horizon granularity = .ok (s', timer) → Step service ⟨s, []⟩ ⟨s', []⟩
  /-- A connection is taken up, when all the wheels of its deadlines are there. -/
  | spawn {s s' : Host η} {result : Except IoError TaskId} (fd : Int) (interest : Ready)
      (refused : List (Int × Note)) (socket : Socket) (state : η) :
    service.deadlines.Within s.wheels.length →
    s.spawn (behaviour service) fd interest refused
      (fun _ => start service fd { socket, handler := state }) = .ok (s', result) →
    Step service ⟨s, []⟩ ⟨s', []⟩
  | poll {s : Host η} (maxEvents timeout : ℕ) :
    Step service ⟨s, []⟩ ⟨s.record (.polled maxEvents timeout), []⟩
  | dispatch {s s' : Host η} (event : Int × Ready) :
    s.dispatch (behaviour service) event = .ok s' → Step service ⟨s, []⟩ ⟨s', []⟩
  | sweep {s : Host η} {index : ℕ} {wheel : TimerWheel TaskId} (now : Int) :
    s.wheels[index]? = some wheel → Step service ⟨s, []⟩ (swept s index wheel now)
  | expire {s s' : Host η} {id : TaskId} {timer : TimerId} {fired : List (TaskId × TimerId)} :
    (if s.tasks.contains id then s.wake (behaviour service) id (.timer timer) else .ok s) = .ok s' →
    Step service ⟨s, (id, timer) :: fired⟩ ⟨s', fired⟩

/-- A turn is made of such steps. -/
theorem reaches_turn {service : Service η} {s s' : Host η} {poll : Poll}
    {result : Except IoError Unit} (h : s.turn (behaviour service) poll = .ok (s', result)) :
    ReflTransGen (Step service) ⟨s, []⟩ ⟨s', []⟩ := by
  have hexpire : ∀ {s s' : Host η} {timer : TimerId} {ids : List TaskId},
      s.expire (behaviour service) timer ids = .ok s' →
      ReflTransGen (Step service) ⟨s, ids.map fun id => (id, timer)⟩ ⟨s', []⟩ := by
    intro s s' timer ids h
    exact foldlM_invariant
      (P := fun rest s' => ReflTransGen (Step service) ⟨s, ids.map fun id => (id, timer)⟩
        ⟨s', rest.map fun id => (id, timer)⟩)
      (fun hreach hstep => hreach.tail (.expire hstep)) .refl h
  have hsweep : ∀ {s s' : Host η}, s.sweepTimers (behaviour service) = .ok s' →
      ReflTransGen (Step service) ⟨s, []⟩ ⟨s', []⟩ := by
    intro s s' h
    refine foldlM_invariant (P := fun _ s' => ReflTransGen (Step service) ⟨s, []⟩ ⟨s', []⟩)
      (fun hreach hstep => ?_) .refl h
    obtain rfl | ⟨wheel, hwheel, -, hrest⟩ := Scheduler.sweepTimer_cases hstep
    · exact hreach
    · exact (hreach.tail (.sweep _ hwheel)).trans (hexpire hrest)
  obtain ⟨polled, helapse, h⟩ := exists_of_bind_eq_ok h
  have hpolled : ReflTransGen (Step service) ⟨s, []⟩ ⟨polled, []⟩ :=
    (ReflTransGen.single (.poll _ _)).tail (.elapse _ helapse)
  split at h
  · obtain ⟨dispatched, hdispatch, h⟩ := exists_of_bind_eq_ok h
    obtain ⟨swept, hswept, hs⟩ := exists_of_map_eq_ok h
    cases hs
    have hdispatched : ReflTransGen (Step service) ⟨polled, []⟩ ⟨dispatched, []⟩ :=
      foldlM_invariant (P := fun _ s' => ReflTransGen (Step service) ⟨polled, []⟩ ⟨s', []⟩)
        (fun hreach hstep => hreach.tail (.dispatch _ hstep)) .refl hdispatch
    exact (hpolled.trans hdispatched).trans (hsweep hswept)
  · obtain ⟨swept, hswept, hs⟩ := exists_of_map_eq_ok h
    cases hs
    exact hpolled.trans (hsweep hswept)
  · cases h
    exact hpolled

/-! The invariant. -/

/-- A task that waits in the state `c` is under the deadline of its phase, or is about to be woken
because that has expired. -/
structure Guard (service : Service η) (x : Scene η) (id : TaskId) (c : Connection η) : Prop where
  within : service.deadlines.Within x.host.wheels.length
  armed_iff : ∀ i, (x.host.insertion? i id).isSome ↔
    (∃ delay, c.deadline service.deadlines = some ⟨⟨i⟩, delay⟩) ∧ (id, ⟨i⟩) ∉ x.fired
  deadline_of_fired : ∀ timer, (id, timer) ∈ x.fired →
    ∃ delay, c.deadline service.deadlines = some ⟨timer, delay⟩

/-- Every task waits, and is under the deadline of its phase. -/
structure Guarded (service : Service η) (x : Scene η) : Prop where
  registered : x.host.Registered
  nodup_fired : (x.fired.map (·.1)).Nodup
  waits : ∀ id, x.host.tasks.contains id → ∃ c, x.Waits id c
  guard : ∀ id c, x.Waits id c → Guard service x id c

/-- From `c` to `d` no phase is entered again, and within one phase nothing is armed anew. -/
def Onward (x y : Scene η) (id : TaskId) (c d : Connection η) : Prop :=
  c.stage ≤ d.stage ∧ (d.stage = c.stage →
    ∀ i n, y.host.insertion? i id = some n → x.host.insertion? i id = some n)

/-- What a step does to each task that waits before it and behind it. -/
def Holds (x y : Scene η) : Prop := ∀ id c d, x.Waits id c → y.Waits id d → Onward x y id c d

variable {service : Service η} {x y : Scene η}

theorem Guard.under {id : TaskId} {c : Connection η} (h : Guard service x id c)
    (hfired : ∀ timer, (id, timer) ∉ x.fired) : x.host.Under id (c.deadline service.deadlines) := by
  intro i
  rw [h.armed_iff i]
  exact and_iff_left (hfired ⟨i⟩)

/-- A step that changes neither the tasks nor how they are armed. -/
theorem Guarded.of_same {s s' : Host η} (h : Guarded service ⟨s, []⟩) (hregistered : s'.Registered)
    (htasks : s'.tasks = s.tasks) (hlength : s.wheels.length ≤ s'.wheels.length)
    (hinsertion : ∀ i id, s'.insertion? i id = s.insertion? i id) :
    Guarded service ⟨s', []⟩ ∧ Holds (⟨s, []⟩ : Scene η) ⟨s', []⟩ := by
  have hwaits : ∀ id c, (⟨s', []⟩ : Scene η).Waits id c ↔ (⟨s, []⟩ : Scene η).Waits id c := by
    intro id c
    rw [Waits, Waits, htasks]
  refine ⟨?_, fun id c d hc hd => ?_⟩
  · constructor
    case registered => exact hregistered
    case nodup_fired => exact List.nodup_nil
    case waits =>
      intro id hlive
      obtain ⟨c, hc⟩ := h.waits id (htasks ▸ hlive)
      exact ⟨c, (hwaits id c).2 hc⟩
    case guard =>
      intro id c hc
      have hguard := h.guard id c ((hwaits id c).1 hc)
      refine ⟨fun d hd => Nat.lt_of_lt_of_le (hguard.within d hd) hlength, fun i => ?_,
        fun timer hmem => nomatch hmem⟩
      rw [hinsertion]
      exact hguard.armed_iff i
  · obtain rfl := hc.unique ((hwaits id d).1 hd)
    exact ⟨Nat.le_refl _, fun _ i n hn => hinsertion i id ▸ hn⟩

/-- A step that concerns one task, which is not fired any more behind it. -/
theorem Guarded.of_frames {s s' : Host η} {id : TaskId} {fired rest : List (TaskId × TimerId)}
    (h : Guarded service ⟨s, fired⟩) (hregistered : s'.Registered)
    (hframes : Scheduler.Frames id s s')
    (hfired : ∀ other, other ≠ id → ∀ timer, (other, timer) ∈ rest ↔ (other, timer) ∈ fired)
    (hrest : rest.Sublist fired) (hout : ∀ timer, (id, timer) ∉ rest)
    (htask : ∀ task', s'.tasks.get? id = some task' → ∃ wanted d,
      task'.outcome = .blocked wanted d ∧ s'.Under id (d.deadline service.deadlines) ∧
        service.deadlines.Within s'.wheels.length ∧
        ∀ c, (⟨s, fired⟩ : Scene η).Waits id c → Onward ⟨s, fired⟩ ⟨s', rest⟩ id c d) :
    Guarded service ⟨s', rest⟩ ∧ Holds (⟨s, fired⟩ : Scene η) ⟨s', rest⟩ := by
  have hothers : ∀ other, other ≠ id → ∀ c, (⟨s', rest⟩ : Scene η).Waits other c ↔
      (⟨s, fired⟩ : Scene η).Waits other c := by
    intro other hne c
    rw [Waits, Waits, hframes.get?_eq other hne]
  have hself : ∀ d, (⟨s', rest⟩ : Scene η).Waits id d → Guard service ⟨s', rest⟩ id d ∧
      ∀ c, (⟨s, fired⟩ : Scene η).Waits id c → Onward ⟨s, fired⟩ ⟨s', rest⟩ id c d := by
    rintro d ⟨task', wanted', hget, houtcome⟩
    obtain ⟨wanted, d', houtcome', hunder, hwithin, honward⟩ := htask task' hget
    cases houtcome.symm.trans houtcome'
    refine ⟨⟨hwithin, fun i => ?_, fun timer hmem => absurd hmem (hout timer)⟩, honward⟩
    exact (hunder i).trans (and_iff_left (hout ⟨i⟩)).symm
  refine ⟨?_, fun other c d hc hd => ?_⟩
  · constructor
    case registered => exact hregistered
    case nodup_fired => exact h.nodup_fired.sublist (hrest.map _)
    case waits =>
      intro other hlive
      by_cases hother : other = id
      · subst hother
        obtain ⟨task, hget⟩ := Arena.contains_iff.1 hlive
        obtain ⟨wanted, d, houtcome, -⟩ := htask task hget
        exact ⟨d, task, wanted, hget, houtcome⟩
      · rw [Arena.contains, hframes.get?_eq other hother] at hlive
        obtain ⟨c, hc⟩ := h.waits other hlive
        exact ⟨c, (hothers other hother c).2 hc⟩
    case guard =>
      intro other c hc
      by_cases hother : other = id
      · subst hother
        exact (hself c hc).1
      · have hguard := h.guard other c ((hothers other hother c).1 hc)
        refine ⟨hframes.length_wheels ▸ hguard.within, fun i => ?_,
          fun timer hmem => hguard.deadline_of_fired timer (hrest.subset hmem)⟩
        rw [hframes.insertion?_eq other hother, hfired other hother]
        exact hguard.armed_iff i
  · by_cases hother : other = id
    · subst hother
      exact (hself d hd).2 c hc
    · obtain rfl := hc.unique ((hothers other hother d).1 hd)
      exact ⟨Nat.le_refl _, fun _ i n hn => hframes.insertion?_eq other hother i ▸ hn⟩

theorem mem_fired_swept {s : Host η} {index i : ℕ} {wheel : TimerWheel TaskId} {now : Int}
    {id : TaskId} : (id, ⟨i⟩) ∈ (swept s index wheel now).fired ↔
      i = index ∧ id ∈ (wheel.sweep now).fired := by
  simp [swept, eq_comm, and_comm]

/-- What a sweep fires is exactly what is not armed any more. -/
theorem Guarded.sweep {s : Host η} (h : Guarded service ⟨s, []⟩) {index : ℕ}
    {wheel : TimerWheel TaskId} (hwheel : s.wheels[index]? = some wheel) (now : Int) :
    Guarded service (swept s index wheel now) ∧
      Holds (⟨s, []⟩ : Scene η) (swept s index wheel now) := by
  have hfires := wheel.fires_sweep now
  have hinsertion := Scheduler.insertion?_sweep hwheel now
  refine ⟨?_, fun id c d hc hd => ?_⟩
  · constructor
    case registered => exact h.registered.sweepWheel hwheel now
    case nodup_fired =>
      rw [swept, List.map_map]
      exact (List.map_id _).symm ▸ hfires.nodup
    case waits => exact h.waits
    case guard =>
      intro id c hc
      have hguard := h.guard id c hc
      have hunder := hguard.under fun _ => List.not_mem_nil
      refine ⟨?_, fun i => ?_, ?_⟩
      · rw [swept, List.length_set]
        exact hguard.within
      · rw [mem_fired_swept, swept, hinsertion]
        split_ifs with hfired
        · exact iff_of_false Bool.false_ne_true fun h => h.2 hfired
        · exact (hunder i).trans (and_iff_left hfired).symm
      · rintro ⟨i⟩ hmem
        obtain ⟨rfl, hfired⟩ := mem_fired_swept.1 hmem
        refine (hunder i).1 ?_
        rw [Scheduler.insertion?_of_getElem? hwheel]
        exact hfires.isSome_lookup id hfired
  · obtain rfl := hc.unique hd
    refine ⟨Nat.le_refl _, fun _ i n hn => ?_⟩
    rw [swept, hinsertion] at hn
    split_ifs at hn
    exact hn

end Scene

end CoopHttp.Connection
