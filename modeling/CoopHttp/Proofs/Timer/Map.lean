import CoopHttp.Proofs.Table
import CoopHttp.TimerWheel
import Mathlib.Tactic.Linarith
import Mathlib.Tactic.Ring

/-!
# Timer maps

What a timer wheel is meant to be: a finite map from the armed keys to their places, without
buckets and without stale entries. A place is the time at which the key is due, a point of the grid
that the epoch and the granularity span, and the number of the insertion. A sweep fires the keys
that are due, by their places.
-/
namespace CoopHttp

structure TimerPlace where
  time : Int
  number : ℕ
  deriving DecidableEq

namespace TimerPlace

/-- Places in order of time, and of insertion at the same time. -/
instance : LE TimerPlace := ⟨fun a b => a.time < b.time ∨ a.time = b.time ∧ a.number ≤ b.number⟩

theorem le_iff {a b : TimerPlace} : a ≤ b ↔ a.time < b.time ∨ a.time = b.time ∧ a.number ≤ b.number :=
  Iff.rfl

instance : DecidableLE TimerPlace := fun a b =>
  inferInstanceAs (Decidable (a.time < b.time ∨ a.time = b.time ∧ a.number ≤ b.number))

theorem le_trans {a b c : TimerPlace} (hab : a ≤ b) (hbc : b ≤ c) : a ≤ c := by
  rw [le_iff] at *
  omega

theorem le_total (a b : TimerPlace) : a ≤ b ∨ b ≤ a := by
  rw [le_iff, le_iff]
  omega

theorem le_antisymm {a b : TimerPlace} (hab : a ≤ b) (hba : b ≤ a) : a = b := by
  rw [le_iff] at *
  cases a
  cases b
  simp only [mk.injEq] at *
  omega

end TimerPlace

/-- A finite map from keys to places, and what new places are made from. -/
structure TimerMap (κ : Type) where
  epoch : Int
  granularity : ℕ
  /-- The number of grid points from the epoch on that a key can be armed for. -/
  reach : ℕ
  insertions : ℕ
  armed : List (κ × TimerPlace)
  distinct_armed : Table.Distinct armed

namespace TimerMap

variable {κ : Type}

/-- A map without armed keys. -/
def fresh (epoch : Int) (granularity reach : ℕ) : TimerMap κ where
  epoch := epoch
  granularity := granularity
  reach := reach
  insertions := 0
  armed := []
  distinct_armed := Table.distinct_nil

def size (m : TimerMap κ) : ℕ := m.armed.length

def isEmpty (m : TimerMap κ) : Bool := m.armed.isEmpty

/-- The entries that are due at `now`, by their places. -/
def due (m : TimerMap κ) (now : Int) : List (κ × TimerPlace) :=
  (m.armed.filter (·.2.time ≤ now)).insertionSort (·.2 ≤ ·.2)

/-- The first point of the grid after `now`; the epoch itself if that is later. -/
def epochAfter (m : TimerMap κ) (now : Int) : Int :=
  if m.epoch ≤ now then m.epoch + ((now - m.epoch) / m.granularity + 1) * m.granularity else m.epoch

/-- Takes out the entries that are due at `now`. -/
def advance (m : TimerMap κ) (now : Int) : TimerMap κ :=
  { m with
    epoch := m.epochAfter now
    armed := m.armed.filter (now < ·.2.time)
    distinct_armed := m.distinct_armed.filter _ }

/-- Fires the keys that are due at `now`; crashes if the clock does not reach the new epoch. -/
def sweep (m : TimerMap κ) (now : Int) : Except Crash (TimerMap κ × List κ) :=
  if m.epoch ≤ now ∧ Instant.last < m.epochAfter now then .error .clockOverflow
  else .ok (m.advance now, (m.due now).map (·.1))

/-! What is due, step by step. -/

theorem pairwise_due (m : TimerMap κ) (now : Int) :
    (m.due now).Pairwise (·.2 ≤ ·.2) :=
  have : IsTrans (κ × TimerPlace) (·.2 ≤ ·.2) := ⟨fun _ _ _ => TimerPlace.le_trans⟩
  have : Std.Total (α := κ × TimerPlace) (·.2 ≤ ·.2) := ⟨fun a b => TimerPlace.le_total a.2 b.2⟩
  List.pairwise_insertionSort _ _

theorem mem_due_iff {m : TimerMap κ} {now : Int} {e : κ × TimerPlace} :
    e ∈ m.due now ↔ e ∈ m.armed ∧ e.2.time ≤ now := by
  simp [due]

/-- A list of the due entries that is in the order of their places is the only one. -/
theorem due_eq_of_perm {m : TimerMap κ} {now : Int} {entries : List (κ × TimerPlace)}
    (hplaces : ∀ a ∈ m.armed, ∀ b ∈ m.armed, a.2 = b.2 → a = b)
    (hperm : entries.Perm (m.armed.filter (·.2.time ≤ now)))
    (hsorted : entries.Pairwise (·.2 ≤ ·.2)) : m.due now = entries := by
  have hdue : (m.due now).Perm (m.armed.filter (·.2.time ≤ now)) := List.perm_insertionSort _ _
  refine (hdue.trans hperm.symm).eq_of_pairwise ?_ (m.pairwise_due now) hsorted
  intro a b ha hb hab hba
  have ha' : a ∈ m.armed := (mem_due_iff.1 ha).1
  have hb' : b ∈ m.armed := List.mem_of_mem_filter (hperm.mem_iff.1 hb)
  exact hplaces a ha' b hb' (TimerPlace.le_antisymm hab hba)

/-- What is due at the epoch comes before what is due later. -/
theorem due_eq_append {m : TimerMap κ} {now : Int}
    (hplaces : ∀ a ∈ m.armed, ∀ b ∈ m.armed, a.2 = b.2 → a = b) (hle : m.epoch ≤ now) :
    m.due now = m.due m.epoch ++ (m.advance m.epoch).due now := by
  refine due_eq_of_perm hplaces ?_ ?_
  · have hfirst : (m.armed.filter (·.2.time ≤ now)).filter (·.2.time ≤ m.epoch) =
        m.armed.filter (·.2.time ≤ m.epoch) := by
      rw [List.filter_filter]
      refine List.filter_congr fun e _ => ?_
      rw [Bool.eq_iff_iff, Bool.and_eq_true, decide_eq_true_eq, decide_eq_true_eq]
      omega
    have hlater : (m.armed.filter (·.2.time ≤ now)).filter (fun e => !decide (e.2.time ≤ m.epoch)) =
        (m.advance m.epoch).armed.filter (·.2.time ≤ now) := by
      show _ = (m.armed.filter (m.epoch < ·.2.time)).filter (·.2.time ≤ now)
      rw [List.filter_filter, List.filter_filter]
      refine List.filter_congr fun e _ => ?_
      rw [Bool.eq_iff_iff, Bool.and_eq_true, Bool.and_eq_true, Bool.not_eq_true']
      simp only [decide_eq_true_eq, decide_eq_false_iff_not]
      omega
    have hsplit := List.filter_append_perm (fun e : κ × TimerPlace => decide (e.2.time ≤ m.epoch))
      (m.armed.filter (·.2.time ≤ now))
    rw [hfirst, hlater] at hsplit
    exact ((List.perm_insertionSort _ _).append (List.perm_insertionSort _ _)).trans hsplit
  · refine List.pairwise_append.2 ⟨pairwise_due _ _, pairwise_due _ _, ?_⟩
    intro a ha b hb
    have hfirst := (mem_due_iff.1 ha).2
    have hlater : m.epoch < b.2.time := by
      simpa [advance] using (List.mem_filter.1 (mem_due_iff.1 hb).1).2
    exact TimerPlace.le_iff.2 (.inl (by omega))

theorem epochAfter_epoch (m : TimerMap κ) : m.epochAfter m.epoch = m.epoch + m.granularity := by
  simp [epochAfter]

theorem epochAfter_of_lt {m : TimerMap κ} {now : Int} (h : now < m.epoch) :
    m.epochAfter now = m.epoch := if_neg (Int.not_le.2 h)

/-- Advancing by one step of the grid leaves the way to `now` as it is. -/
theorem epochAfter_advance {m : TimerMap κ} (hpos : 0 < m.granularity) {now : Int}
    (hle : m.epoch ≤ now) : (m.advance m.epoch).epochAfter now = m.epochAfter now := by
  have hepoch : (m.advance m.epoch).epoch = m.epoch + m.granularity := m.epochAfter_epoch
  have hgranularity : (0 : Int) < m.granularity := Int.natCast_pos.2 hpos
  rw [epochAfter, epochAfter, hepoch, if_pos hle]
  show (if m.epoch + m.granularity ≤ now then m.epoch + m.granularity +
    ((now - (m.epoch + m.granularity)) / m.granularity + 1) * m.granularity else _) = _
  split_ifs with hnext
  · have hquot : (now - (m.epoch + m.granularity)) / (m.granularity : Int) =
        (now - m.epoch) / m.granularity - 1 := by
      have hsub : now - (m.epoch + m.granularity) = (now - m.epoch) + -1 * m.granularity := by ring
      rw [hsub, Int.add_mul_ediv_right _ _ hgranularity.ne']
      rfl
    rw [hquot]
    ring
  · have hquot : (now - m.epoch) / (m.granularity : Int) = 0 :=
      Int.ediv_eq_zero_of_lt (by omega) (by omega)
    rw [hquot]
    ring

theorem le_epochAfter {m : TimerMap κ} (hpos : 0 < m.granularity) {now : Int}
    (hle : m.epoch ≤ now) : m.epoch + m.granularity ≤ m.epochAfter now := by
  have hquot : 0 ≤ (now - m.epoch) / (m.granularity : Int) :=
    Int.ediv_nonneg (by omega) (by omega)
  rw [epochAfter, if_pos hle]
  nlinarith

theorem epochAfter_le {m : TimerMap κ} (hpos : 0 < m.granularity) {now : Int}
    (hle : m.epoch ≤ now) : m.epochAfter now ≤ now + m.granularity := by
  have hquot := Int.ediv_mul_le (now - m.epoch) (Int.natCast_pos.2 hpos).ne'
  rw [epochAfter, if_pos hle, Int.add_mul]
  omega

/-- A sweep that reaches no grid point changes nothing. -/
theorem sweep_of_lt {m : TimerMap κ} {now : Int} (hlt : now < m.epoch)
    (harmed : ∀ e ∈ m.armed, m.epoch ≤ e.2.time) : m.sweep now = .ok (m, []) := by
  have hdue : m.due now = [] := by
    refine List.eq_nil_iff_forall_not_mem.2 fun e he => ?_
    obtain ⟨hmem, htime⟩ := mem_due_iff.1 he
    have := harmed e hmem
    omega
  have hadvance : m.advance now = m := by
    have hall : m.armed.filter (now < ·.2.time) = m.armed := by
      refine List.filter_eq_self.2 fun e he => ?_
      have := harmed e he
      simp only [decide_eq_true_eq]
      omega
    simp only [advance, epochAfter_of_lt hlt, hall]
  rw [sweep, if_neg (by omega), hdue, hadvance]
  rfl

theorem sweep_of_overflow {m : TimerMap κ} (hpos : 0 < m.granularity) {now : Int}
    (hle : m.epoch ≤ now) (hlast : Instant.last < m.epoch + m.granularity) :
    m.sweep now = .error .clockOverflow :=
  if_pos ⟨hle, lt_of_lt_of_le hlast (le_epochAfter hpos hle)⟩

/-- A sweep goes on from the next point of the grid. -/
theorem sweep_eq_advance {m : TimerMap κ} (hpos : 0 < m.granularity)
    (hplaces : ∀ a ∈ m.armed, ∀ b ∈ m.armed, a.2 = b.2 → a = b) {now : Int} (hle : m.epoch ≤ now)
    (hlast : m.epoch + m.granularity ≤ Instant.last) :
    m.sweep now = ((m.advance m.epoch).sweep now).map fun (m', keys) =>
      (m', (m.due m.epoch).map (·.1) ++ keys) := by
  have hepoch : (m.advance m.epoch).epoch = m.epoch + m.granularity := m.epochAfter_epoch
  have hcrash : ((m.advance m.epoch).epoch ≤ now ∧
      Instant.last < (m.advance m.epoch).epochAfter now) ↔
      m.epoch ≤ now ∧ Instant.last < m.epochAfter now := by
    refine ⟨fun h => ⟨hle, epochAfter_advance hpos hle ▸ h.2⟩, fun h => ⟨?_, ?_⟩⟩
    · by_contra hnot
      have hafter := epochAfter_of_lt (Int.not_le.1 hnot)
      rw [epochAfter_advance hpos hle, hepoch] at hafter
      omega
    · rw [epochAfter_advance hpos hle]
      exact h.2
  have hstate : (m.advance m.epoch).advance now = m.advance now := by
    have harmed : (m.armed.filter (m.epoch < ·.2.time)).filter (now < ·.2.time) =
        m.armed.filter (now < ·.2.time) := by
      rw [List.filter_filter]
      refine List.filter_congr fun e _ => ?_
      rw [Bool.eq_iff_iff, Bool.and_eq_true, decide_eq_true_eq, decide_eq_true_eq]
      omega
    rw [advance, epochAfter_advance hpos hle]
    simp only [advance, harmed]
  rw [sweep, sweep]
  simp only [hcrash]
  split_ifs
  · rfl
  · rw [due_eq_append hplaces hle, List.map_append, hstate]
    rfl

variable [DecidableEq κ]

def contains (m : TimerMap κ) (key : κ) : Bool := (m.armed.lookup key).isSome

/-- Takes a key out; the second component says whether it was armed. -/
def remove (m : TimerMap κ) (key : κ) : TimerMap κ × Bool :=
  ({ m with
    armed := m.armed.filter (·.1 ≠ key)
    distinct_armed := m.distinct_armed.filter _ }, m.contains key)

/-- How long after the epoch a key is due that is armed at `now` for `delay`. -/
def elapsed (m : TimerMap κ) (now : Int) (delay : ℕ) : ℕ := (max 0 (now - m.epoch)).toNat + delay

/-- The place of the next insertion: the last point of the grid that is not later than the deadline,
or the last one in reach. -/
def nextPlace (m : TimerMap κ) (now : Int) (delay : ℕ) : TimerPlace :=
  ⟨m.epoch + (min (m.elapsed now delay / m.granularity) (m.reach - 1) * m.granularity : ℕ),
    m.insertions⟩

/-- Gives a key a place, in place of the one it had. -/
def put (m : TimerMap κ) (key : κ) (place : TimerPlace) : TimerMap κ :=
  { m with
    insertions := m.insertions + 1
    armed := (key, place) :: m.armed.filter (·.1 ≠ key)
    distinct_armed := m.distinct_armed.cons_filter _ _ }

/-- Arms a key; crashes if no duration can hold how long after the epoch it is due. -/
def insertAt (m : TimerMap κ) (now : Int) (delay : ℕ) (key : κ) : Except Crash (TimerMap κ) :=
  if m.elapsed now delay ≤ Duration.max then .ok (m.put key (m.nextPlace now delay))
  else .error .durationOverflow

end TimerMap

end CoopHttp
