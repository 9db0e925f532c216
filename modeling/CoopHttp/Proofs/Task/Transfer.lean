import CoopHttp.Socket
import CoopHttp.Task
import Mathlib.Tactic.Common

/-!
# Transfers

What becomes of octets that a task writes, attempt by attempt: the pieces that the socket accepts,
the waits in between, and how it ends. However the attempts turn out and whatever wakes the task in
between, no octet is lost or repeated.
-/
namespace CoopHttp

/-- What wakes a task, and what its context shows then. -/
structure Waking where
  wake : Wake
  ready : Ready
  errors : Ready
  deriving DecidableEq

/-- What can be seen of a transfer under way. -/
inductive Transit
  | accepted (bytes : Bytes)
  | suspended
  deriving DecidableEq

/-- What becomes of a transfer: how it goes, how it ends, and which attempts and wakes are left
then. There is no result if nobody wakes the task any more. -/
structure Delivery where
  transits : List Transit
  result : Option (Except TaskError Unit)
  writes : List Acceptance
  wakings : List Waking

namespace Delivery

/-- What comes behind one more piece, or one more wait. -/
def behind (d : Delivery) (transit : Transit) : Delivery :=
  { d with transits := transit :: d.transits }

def octets (d : Delivery) : Bytes :=
  d.transits.flatMap fun
    | .accepted bytes => bytes
    | .suspended => []

def waits (d : Delivery) : ℕ := d.transits.count .suspended

theorem octets_behind (d : Delivery) (transit : Transit) :
    (d.behind transit).octets = (match transit with
      | .accepted bytes => bytes
      | .suspended => []) ++ d.octets := List.flatMap_cons

theorem waits_behind_accepted (d : Delivery) (bytes : Bytes) :
    (d.behind (.accepted bytes)).waits = d.waits := List.count_cons_of_ne (by simp)

theorem waits_behind_suspended (d : Delivery) : (d.behind .suspended).waits = d.waits + 1 :=
  List.count_cons_self

end Delivery

/-- Writes octets, one attempt after the other. A wake by the descriptor is followed by another
attempt, a deadline ends the transfer. -/
def deliver (data : Bytes) (writes : List Acceptance) (wakings : List Waking) : Delivery :=
  if data = [] then ⟨[], some (.ok ()), writes, wakings⟩
  else match writes with
    | [] => ⟨[.accepted data], some (.ok ()), [], wakings⟩
    | .upTo n :: writes =>
      if n = 0 then ⟨[.accepted []], some (.error (.io .writeZero)), writes, wakings⟩
      else (deliver (data.drop n) writes wakings).behind (.accepted (data.take n))
    | .failure .interrupted :: writes => deliver data writes wakings
    | .failure .wouldBlock :: writes =>
      match wakings with
      | [] => ⟨[.suspended], none, writes, []⟩
      | ⟨.timer wheel, _, _⟩ :: wakings =>
        ⟨[.suspended], some (.error (.timeout wheel)), writes, wakings⟩
      | ⟨.io _, _, _⟩ :: wakings => (deliver data writes wakings).behind .suspended
    | .failure error :: writes => ⟨[], some (.error (.io error)), writes, wakings⟩

/-- What stops a transfer that is long enough to come to it: how many octets are accepted before,
and the error that it ends with. Without an error it waits, and nobody wakes the task. -/
def obstacle? : List Acceptance → List Waking → Option (ℕ × Option TaskError)
  | [], _ => none
  | .upTo n :: writes, wakings =>
    if n = 0 then some (0, some (.io .writeZero))
    else (obstacle? writes wakings).map fun (room, error) => (n + room, error)
  | .failure .interrupted :: writes, wakings => obstacle? writes wakings
  | .failure .wouldBlock :: _, [] => some (0, none)
  | .failure .wouldBlock :: _, ⟨.timer wheel, _, _⟩ :: _ => some (0, some (.timeout wheel))
  | .failure .wouldBlock :: writes, ⟨.io _, _, _⟩ :: wakings => obstacle? writes wakings
  | .failure error :: _, _ => some (0, some (.io error))

theorem obstacle?_failure {error : IoError} (hinterrupted : error ≠ .interrupted)
    (hblock : error ≠ .wouldBlock) (writes : List Acceptance) (wakings : List Waking) :
    obstacle? (.failure error :: writes) wakings = some (0, some (.io error)) := by
  cases error <;> first | rfl | contradiction

/-- What has been accepted is a beginning of the octets, and all of them exactly if the transfer has
succeeded. -/
theorem exists_octets_append_eq (data : Bytes) (writes : List Acceptance) (wakings : List Waking) :
    ∃ rest, (deliver data writes wakings).octets ++ rest = data ∧
      ((deliver data writes wakings).result = some (.ok ()) ↔ rest = []) := by
  fun_induction deliver data writes wakings with
  | case1 writes wakings => exact ⟨[], by simp [Delivery.octets], by simp⟩
  | case2 data wakings hdata => exact ⟨[], by simp [Delivery.octets], by simp⟩
  | case3 data wakings hdata writes => exact ⟨data, by simp [Delivery.octets], by simp [hdata]⟩
  | case4 data wakings hdata n writes hn ih =>
    obtain ⟨rest, hoctets, hresult⟩ := ih
    refine ⟨rest, ?_, hresult⟩
    rw [Delivery.octets_behind, List.append_assoc, hoctets, List.take_append_drop]
  | case5 data wakings hdata writes ih => exact ih
  | case6 data hdata writes => exact ⟨data, by simp [Delivery.octets], by simp [hdata]⟩
  | case7 data hdata writes wheel ready errors wakings =>
    exact ⟨data, by simp [Delivery.octets], by simp [hdata]⟩
  | case8 data hdata writes ready seen errors wakings ih =>
    obtain ⟨rest, hoctets, hresult⟩ := ih
    exact ⟨rest, by rw [Delivery.octets_behind, List.nil_append, hoctets], hresult⟩
  | case9 data wakings hdata error writes =>
    exact ⟨data, by simp [Delivery.octets], by simp [hdata]⟩

/-- A transfer that comes to an obstacle ends with its error, and any other one succeeds. -/
theorem deliver_eq_of_obstacle (data : Bytes) (writes : List Acceptance) (wakings : List Waking) :
    ((deliver data writes wakings).octets, (deliver data writes wakings).result) =
      match obstacle? writes wakings with
      | none => (data, some (.ok ()))
      | some (room, error) =>
        if data.length ≤ room then (data, some (.ok ()))
        else (data.take room, error.map .error) := by
  fun_induction deliver data writes wakings with
  | case1 writes wakings =>
    rcases obstacle? writes wakings with _ | ⟨room, error⟩ <;> simp [Delivery.octets]
  | case2 data wakings hdata => simp [Delivery.octets, obstacle?]
  | case3 data wakings hdata writes => simp [Delivery.octets, obstacle?, hdata]
  | case4 data wakings hdata n writes hn ih =>
    rw [Delivery.octets_behind, obstacle?, if_neg hn]
    cases hobstacle : obstacle? writes wakings with
    | none =>
      rw [hobstacle] at ih
      obtain ⟨hoctets, hresult⟩ := Prod.mk.inj ih
      rw [hoctets]
      exact Prod.ext (List.take_append_drop n data) hresult
    | some obstacle =>
      obtain ⟨room, error⟩ := obstacle
      rw [hobstacle] at ih
      have hlength : (data.drop n).length ≤ room ↔ data.length ≤ n + room := by
        rw [List.length_drop]
        omega
      simp only [hlength] at ih
      simp only [Option.map_some]
      split_ifs at ih ⊢ with hroom
      · obtain ⟨hoctets, hresult⟩ := Prod.mk.inj ih
        rw [hoctets]
        exact Prod.ext (List.take_append_drop n data) hresult
      · obtain ⟨hoctets, hresult⟩ := Prod.mk.inj ih
        rw [hoctets, List.take_add]
        exact Prod.ext rfl hresult
  | case5 data wakings hdata writes ih => exact ih
  | case6 data hdata writes => simp [Delivery.octets, obstacle?, hdata]
  | case7 data hdata writes wheel ready errors wakings =>
    simp [Delivery.octets, obstacle?, hdata]
  | case8 data hdata writes ready seen errors wakings ih =>
    rw [Delivery.octets_behind, obstacle?, ← ih]
    rfl
  | case9 data wakings hdata error writes hinterrupted hblock =>
    simp [Delivery.octets, obstacle?_failure hinterrupted hblock, hdata]

/-- Each wait uses up one attempt that would block and one wake, and there are no others. -/
theorem exists_waits_eq (data : Bytes) (writes : List Acceptance) (wakings : List Waking) :
    ∃ used, writes = used ++ (deliver data writes wakings).writes ∧
      (deliver data writes wakings).waits = used.count (.failure .wouldBlock) ∧
      (deliver data writes wakings).wakings = wakings.drop (deliver data writes wakings).waits := by
  fun_induction deliver data writes wakings with
  | case1 writes wakings => exact ⟨[], by simp [Delivery.waits]⟩
  | case2 data wakings hdata => exact ⟨[], by simp [Delivery.waits]⟩
  | case3 data wakings hdata writes => exact ⟨[.upTo 0], by simp [Delivery.waits]⟩
  | case4 data wakings hdata n writes hn ih =>
    obtain ⟨used, hwrites, hwaits, hwakings⟩ := ih
    refine ⟨.upTo n :: used, congrArg (_ :: ·) hwrites, ?_, ?_⟩
    · rw [Delivery.waits_behind_accepted, hwaits, List.count_cons_of_ne (by simp)]
    · rw [Delivery.waits_behind_accepted]
      exact hwakings
  | case5 data wakings hdata writes ih =>
    obtain ⟨used, hwrites, hwaits, hwakings⟩ := ih
    refine ⟨.failure .interrupted :: used, congrArg (_ :: ·) hwrites, ?_, hwakings⟩
    rw [hwaits, List.count_cons_of_ne (by simp)]
  | case6 data hdata writes => exact ⟨[.failure .wouldBlock], by simp [Delivery.waits]⟩
  | case7 data hdata writes wheel ready errors wakings =>
    exact ⟨[.failure .wouldBlock], by simp [Delivery.waits]⟩
  | case8 data hdata writes ready seen errors wakings ih =>
    obtain ⟨used, hwrites, hwaits, hwakings⟩ := ih
    refine ⟨.failure .wouldBlock :: used, congrArg (_ :: ·) hwrites, ?_, ?_⟩
    · rw [Delivery.waits_behind_suspended, hwaits, List.count_cons_self]
    · rw [Delivery.waits_behind_suspended, List.drop_succ_cons]
      exact hwakings
  | case9 data wakings hdata error writes hinterrupted hblock =>
    have hne : Acceptance.failure error ≠ .failure .wouldBlock :=
      fun heq => hblock (Acceptance.failure.inj heq)
    refine ⟨[.failure error], rfl, ?_, rfl⟩
    rw [List.count_cons_of_ne hne]
    rfl

/-- A transfer loses no octet and repeats none: what has been accepted is a beginning of the octets,
and all of them exactly if it succeeds. Otherwise it ends with the first thing that stops it. It
waits once for each attempt that would block, and for nothing else. -/
structure Delivery.Faithful (data : Bytes) (writes : List Acceptance) (wakings : List Waking)
    (d : Delivery) : Prop where
  begins : d.octets <+: data
  ok_iff : d.result = some (.ok ()) ↔ d.octets = data
  result_eq : (d.octets, d.result) =
    match obstacle? writes wakings with
    | none => (data, some (.ok ()))
    | some (room, error) =>
      if data.length ≤ room then (data, some (.ok ())) else (data.take room, error.map .error)
  waits_eq : ∃ used, writes = used ++ d.writes ∧ d.waits = used.count (.failure .wouldBlock) ∧
    d.wakings = wakings.drop d.waits

theorem faithful_deliver (data : Bytes) (writes : List Acceptance) (wakings : List Waking) :
    (deliver data writes wakings).Faithful data writes wakings := by
  obtain ⟨rest, hoctets, hresult⟩ := exists_octets_append_eq data writes wakings
  refine ⟨⟨rest, hoctets⟩, ?_, deliver_eq_of_obstacle data writes wakings,
    exists_waits_eq data writes wakings⟩
  rw [hresult]
  constructor
  · rintro rfl
    exact (List.append_nil _).symm.trans hoctets
  · intro hall
    rw [hall] at hoctets
    exact List.append_cancel_left (hoctets.trans (List.append_nil data).symm)

end CoopHttp
