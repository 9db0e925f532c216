import CoopHttp.Proofs.Timer.Map

/-!
# A timer wheel is a timer map

The wheel keeps each key in one bucket of the ring and leaves entries behind that are no longer
live. Seen through the table of live insertions it is a timer map: the live entry of a key stands in
exactly the bucket of its time, and the entries of a bucket stand in the order of their insertions.
Inserting, removing and turning the head by one bucket keep this, so every history of requests gets
the answers that the map gives.
-/
namespace CoopHttp.TimerWheel

variable {κ : Type}

/-! The ring, seen from the head. -/

/-- The place in the array of the bucket `i` steps from the head. -/
def place (w : TimerWheel κ) (i : ℕ) : ℕ := (w.head + i) % w.buckets.size

/-- The entries of the bucket `i` steps from the head, in the order of insertion. -/
def ring (w : TimerWheel κ) (i : ℕ) : List (κ × ℕ) := (w.buckets[w.place i]?.getD []).reverse

theorem size_pos (w : TimerWheel κ) : 0 < w.buckets.size := Nat.zero_lt_of_lt w.head_lt

theorem place_lt (w : TimerWheel κ) (i : ℕ) : w.place i < w.buckets.size :=
  Nat.mod_lt _ w.size_pos

theorem place_eq (w : TimerWheel κ) {i : ℕ} (hi : i < w.buckets.size) :
    w.place i = if w.head + i < w.buckets.size then w.head + i else w.head + i - w.buckets.size := by
  have hhead := w.head_lt
  rw [place]
  split_ifs with h
  · exact Nat.mod_eq_of_lt h
  · rw [Nat.mod_eq_sub_mod (by omega), Nat.mod_eq_of_lt (by omega)]

theorem place_inj (w : TimerWheel κ) {i j : ℕ} (hi : i < w.buckets.size) (hj : j < w.buckets.size) :
    w.place i = w.place j ↔ i = j := by
  have hhead := w.head_lt
  rw [w.place_eq hi, w.place_eq hj]
  split_ifs <;> omega

theorem ring_zero (w : TimerWheel κ) (hhead : w.head < w.buckets.size) :
    w.ring 0 = w.buckets[w.head].reverse := by
  have hplace : w.place 0 = w.head := Nat.mod_eq_of_lt hhead
  rw [ring, hplace, Array.getElem?_eq_getElem hhead, Option.getD_some]

/-- A turn of the head empties the bucket under it, which comes last then. -/
theorem ring_turnHead [DecidableEq κ] (w : TimerWheel κ) {i : ℕ} (hi : i < w.buckets.size) :
    w.turnHead.1.ring i = if i + 1 < w.buckets.size then w.ring (i + 1) else [] := by
  have hhead := w.head_lt
  have hsize : w.turnHead.1.buckets.size = w.buckets.size := by simp [turnHead]
  have hplace : w.turnHead.1.place i = (w.head + 1 + i) % w.buckets.size := by
    rw [place, hsize, turnHead, Nat.mod_add_mod]
  have hget : w.turnHead.1.buckets[w.turnHead.1.place i]? =
      if w.head = w.turnHead.1.place i then some [] else w.buckets[w.turnHead.1.place i]? := by
    rw [← Array.getElem?_set w.head_lt]
    rfl
  have hself : w.place 0 = w.head := Nat.mod_eq_of_lt w.head_lt
  have hnext : w.turnHead.1.place i = w.place (i + 1) := by
    rw [hplace, place]
    congr 1
    omega
  rw [ring, hget, hnext]
  split_ifs with hfirst hlast hlast
  · rw [← hself, w.place_inj w.size_pos hlast] at hfirst
    omega
  · rfl
  · rfl
  · have hround : i + 1 = w.buckets.size := by omega
    rw [hround, place, Nat.add_mod_right, Nat.mod_eq_of_lt hhead] at hfirst
    exact absurd rfl hfirst

/-- The wheel with a new live entry in the bucket `i` steps from the head. -/
def push [DecidableEq κ] (w : TimerWheel κ) (i : ℕ) (key : κ) : TimerWheel κ :=
  { w with
    buckets := w.buckets.modify (w.place i) ((key, w.insertions) :: ·)
    armed := (key, w.insertions) :: w.armed.filter (·.1 ≠ key)
    insertions := w.insertions + 1
    head_lt := by simpa using w.head_lt }

theorem insertAt_eq [DecidableEq κ] (w : TimerWheel κ) (now : Int) (delay : ℕ) (key : κ) :
    w.insertAt now delay key =
      if Instant.since now w.epoch + delay ≤ Duration.max then
        .ok (w.push (w.bucketOf (Instant.since now w.epoch + delay)) key)
      else .error .durationOverflow := by
  rw [insertAt, Duration.add?]
  split_ifs <;> rfl

/-- An insertion comes last in its bucket and changes no other. -/
theorem ring_push [DecidableEq κ] (w : TimerWheel κ) {i j : ℕ} (key : κ) (hi : i < w.buckets.size)
    (hj : j < w.buckets.size) :
    (w.push i key).ring j = if j = i then w.ring j ++ [(key, w.insertions)] else w.ring j := by
  have hplace : (w.push i key).place j = w.place j := by simp [place, push]
  rw [ring, hplace, push, Array.getElem?_modify, ring]
  by_cases hij : j = i
  · subst hij
    rw [if_pos rfl, if_pos rfl, Array.getElem?_eq_getElem (w.place_lt j)]
    simp
  · rw [if_neg hij, if_neg fun heq => hij ((w.place_inj hi hj).1 heq).symm]

/-! Expiring the entries of a bucket. -/

variable [DecidableEq κ]

/-- The live ones among the entries of a bucket are fired in order, and no others lose their place. -/
theorem expire_eq {armed : List (κ × ℕ)} (hdistinct : Table.Distinct armed) {entries : List (κ × ℕ)}
    (hsorted : entries.Pairwise (·.2 < ·.2)) :
    expire armed entries =
      (armed.filter (· ∉ entries), (entries.filter (· ∈ armed)).map (·.1)) := by
  induction entries generalizing armed with
  | nil => simp [expire]
  | cons entry rest ih =>
    obtain ⟨key, seq⟩ := entry
    obtain ⟨hseq, hrest⟩ := List.pairwise_cons.1 hsorted
    rw [expire]
    by_cases hlive : armed.lookup key = some seq
    · have hmem : (key, seq) ∈ armed := hdistinct.lookup_eq_some_iff.1 hlive
      have hkey : ∀ e ∈ armed, e.1 = key ↔ e = (key, seq) := by
        rintro ⟨key', seq'⟩ he
        refine ⟨?_, fun heq => congrArg Prod.fst heq⟩
        rintro rfl
        rw [hdistinct.eq_of_mem he hmem]
      have harmed : (armed.filter (·.1 ≠ key)).filter (· ∉ rest) =
          armed.filter (· ∉ (key, seq) :: rest) := by
        rw [List.filter_filter]
        refine List.filter_congr fun e he => ?_
        simp [hkey e he, and_comm]
      have hfired : rest.filter (· ∈ armed.filter (·.1 ≠ key)) = rest.filter (· ∈ armed) := by
        refine List.filter_congr fun e he => ?_
        have hlt := hseq e he
        have hne : e ∈ armed → e.1 ≠ key := by
          intro hearmed heq
          rw [(hkey e hearmed).1 heq] at hlt
          exact lt_irrefl _ hlt
        simpa using hne
      rw [if_pos hlive, ih (hdistinct.filter _) hrest, harmed, hfired,
        List.filter_cons_of_pos (by simpa using hmem)]
      rfl
    · have hmem : (key, seq) ∉ armed := fun h => hlive (hdistinct.lookup_eq_some_iff.2 h)
      have harmed : armed.filter (· ∉ rest) = armed.filter (· ∉ (key, seq) :: rest) := by
        refine List.filter_congr fun e he => ?_
        have hne : e ≠ (key, seq) := fun heq => hmem (heq ▸ he)
        simp [hne]
      rw [if_neg hlive, ih hdistinct hrest, harmed, List.filter_cons_of_neg (by simpa using hmem)]

/-! What a wheel stands for. -/

omit [DecidableEq κ] in
/-- The wheel stands for the map: the live entry of an armed key is in the bucket of its time and in
no other, and each bucket is in the order of insertion. -/
structure Represents (w : TimerWheel κ) (m : TimerMap κ) : Prop where
  epoch_eq : w.epoch = m.epoch
  granularity_eq : w.granularity = m.granularity
  size_eq : w.buckets.size = m.reach
  insertions_eq : w.insertions = m.insertions
  armed_eq : w.armed = m.armed.map fun e => (e.1, e.2.number)
  number_lt : ∀ i < m.reach, ∀ e ∈ w.ring i, e.2 < w.insertions
  sorted_ring : ∀ i < m.reach, (w.ring i).Pairwise (·.2 < ·.2)
  placed : ∀ e ∈ m.armed, ∃ i < m.reach, (e.1, e.2.number) ∈ w.ring i
  time_eq : ∀ e ∈ m.armed, ∀ i < m.reach, (e.1, e.2.number) ∈ w.ring i →
    e.2.time = m.epoch + (i * m.granularity : ℕ)

namespace Represents

variable {w : TimerWheel κ} {m : TimerMap κ}

omit [DecidableEq κ] in
theorem distinct_armed (h : Represents w m) : Table.Distinct w.armed := by
  have hkeys : w.armed.map (·.1) = m.armed.map (·.1) := by rw [h.armed_eq, List.map_map]; rfl
  rw [Table.Distinct, hkeys]
  exact m.distinct_armed

omit [DecidableEq κ] in
theorem granularity_pos (h : Represents w m) : 0 < m.granularity :=
  h.granularity_eq ▸ w.granularity_pos

omit [DecidableEq κ] in
theorem reach_pos (h : Represents w m) : 0 < m.reach := h.size_eq ▸ w.size_pos

omit [DecidableEq κ] in
/-- No armed key is due before the epoch. -/
theorem epoch_le (h : Represents w m) {e : κ × TimerPlace} (he : e ∈ m.armed) :
    m.epoch ≤ e.2.time := by
  obtain ⟨i, hi, hmem⟩ := h.placed e he
  rw [h.time_eq e he i hi hmem]
  omega

theorem contains_eq (h : Represents w m) (key : κ) : w.contains key = m.contains key := by
  rw [Bool.eq_iff_iff, contains, TimerMap.contains, Table.isSome_lookup_iff, Table.isSome_lookup_iff,
    h.armed_eq, List.map_map]
  rfl

omit [DecidableEq κ] in
/-- Two armed keys in the same place are the same key. -/
theorem eq_of_place_eq (h : Represents w m) {a b : κ × TimerPlace} (ha : a ∈ m.armed)
    (hb : b ∈ m.armed) (heq : a.2 = b.2) : a = b := by
  obtain ⟨i, hi, hai⟩ := h.placed a ha
  obtain ⟨j, hj, hbj⟩ := h.placed b hb
  have htime := h.time_eq b hb j hj hbj
  rw [← heq, h.time_eq a ha i hi hai] at htime
  have hij : i = j := by
    have hpos := h.granularity_pos
    have hmul : i * m.granularity = j * m.granularity := by omega
    exact Nat.eq_of_mul_eq_mul_right hpos hmul
  subst hij
  have hnodup : ((w.ring i).map (·.2)).Nodup :=
    List.pairwise_map.2 ((h.sorted_ring i hi).imp fun hlt => Nat.ne_of_lt hlt)
  have hkey := List.inj_on_of_nodup_map hnodup hai hbj (congrArg TimerPlace.number heq)
  exact Prod.ext (Prod.mk.inj hkey).1 heq

/-- Taking a key out of the table takes it out of the map; its entry stays behind in its bucket. -/
theorem remove (h : Represents w m) (key : κ) : Represents (w.remove key).1 (m.remove key).1 where
  epoch_eq := h.epoch_eq
  granularity_eq := h.granularity_eq
  size_eq := h.size_eq
  insertions_eq := h.insertions_eq
  armed_eq := by
    show w.armed.filter _ = (m.armed.filter _).map _
    rw [h.armed_eq, List.filter_map]
    rfl
  number_lt := h.number_lt
  sorted_ring := h.sorted_ring
  placed := fun e he => h.placed e (List.mem_of_mem_filter he)
  time_eq := fun e he => h.time_eq e (List.mem_of_mem_filter he)

/-- An armed key has the time of the bucket that its entry is put in. -/
theorem push (h : Represents w m) {i : ℕ} (hi : i < m.reach) (key : κ) :
    Represents (w.push i key) (m.put key ⟨m.epoch + (i * m.granularity : ℕ), m.insertions⟩) := by
  have hring : ∀ j < m.reach, (w.push i key).ring j =
      if j = i then w.ring j ++ [(key, w.insertions)] else w.ring j :=
    fun j hj => w.ring_push key (h.size_eq ▸ hi) (h.size_eq ▸ hj)
  constructor
  case epoch_eq => exact h.epoch_eq
  case granularity_eq => exact h.granularity_eq
  case size_eq => exact (Array.size_modify ..).trans h.size_eq
  case insertions_eq => exact congrArg (· + 1) h.insertions_eq
  case armed_eq =>
    show (key, w.insertions) :: w.armed.filter _ = _
    rw [h.armed_eq, List.filter_map, h.insertions_eq]
    rfl
  case number_lt =>
    intro j hj e he
    show e.2 < w.insertions + 1
    rw [hring j hj] at he
    split_ifs at he with hij
    · obtain he | he := List.mem_append.1 he
      · exact Nat.lt_succ_of_lt (h.number_lt j hj e he)
      · rw [List.mem_singleton.1 he]
        exact Nat.lt_succ_self _
    · exact Nat.lt_succ_of_lt (h.number_lt j hj e he)
  case sorted_ring =>
    intro j hj
    rw [hring j hj]
    split_ifs with hij
    · refine List.pairwise_append.2 ⟨h.sorted_ring j hj, List.pairwise_singleton _ _, ?_⟩
      intro a ha b hb
      rw [List.mem_singleton.1 hb]
      exact h.number_lt j hj a ha
    · exact h.sorted_ring j hj
  case placed =>
    intro e he
    obtain rfl | he := List.mem_cons.1 he
    · refine ⟨i, hi, ?_⟩
      rw [hring i hi, if_pos rfl, ← h.insertions_eq]
      exact List.mem_append_right _ (List.mem_singleton_self _)
    · obtain ⟨j, hj, hmem⟩ := h.placed e (List.mem_of_mem_filter he)
      refine ⟨j, hj, ?_⟩
      rw [hring j hj]
      split_ifs
      · exact List.mem_append_left _ hmem
      · exact hmem
  case time_eq =>
    intro e he j hj hmem
    rw [hring j hj] at hmem
    obtain rfl | he := List.mem_cons.1 he
    · -- The number of the insertion is new, so the entry is in no other bucket.
      split_ifs at hmem with hij
      · rw [hij]
        rfl
      · have hlt := h.number_lt j hj _ hmem
        rw [h.insertions_eq] at hlt
        exact absurd hlt (Nat.lt_irrefl _)
    · have hold := h.time_eq e (List.mem_of_mem_filter he) j hj
      split_ifs at hmem with hij
      · obtain hmem | hmem := List.mem_append.1 hmem
        · exact hold hmem
        · have hkey : e.1 ≠ key := by simpa using (List.mem_filter.1 he).2
          exact absurd (Prod.mk.inj (List.mem_singleton.1 hmem)).1 hkey
      · exact hold hmem

omit [DecidableEq κ] in
theorem elapsed_eq (h : Represents w m) (now : Int) (delay : ℕ) :
    Instant.since now w.epoch + delay = m.elapsed now delay := by
  rw [TimerMap.elapsed, Instant.since, h.epoch_eq]
  omega

omit [DecidableEq κ] in
theorem bucketOf_eq (h : Represents w m) (elapsed : ℕ) :
    w.bucketOf elapsed = min (elapsed / m.granularity) (m.reach - 1) := by
  rw [bucketOf, h.granularity_eq, h.size_eq]

/-- Arming a key crashes as in the map, or puts the key in its place. -/
theorem insertAt (h : Represents w m) (now : Int) (delay : ℕ) (key : κ) :
    (∃ w' m', w.insertAt now delay key = .ok w' ∧ m.insertAt now delay key = .ok m' ∧
        Represents w' m') ∨
      ∃ cause, w.insertAt now delay key = .error cause ∧ m.insertAt now delay key = .error cause := by
  rw [insertAt_eq, TimerMap.insertAt, h.elapsed_eq]
  split_ifs
  · have hlt : min (m.elapsed now delay / m.granularity) (m.reach - 1) < m.reach := by
      have hpos := h.reach_pos
      omega
    rw [h.bucketOf_eq]
    exact .inl ⟨_, _, rfl, rfl, h.push hlt key⟩
  · exact .inr ⟨_, rfl, rfl⟩

/-! Turning the head. -/

omit [DecidableEq κ] in
/-- What is due at the epoch has its entry under the head. -/
theorem time_le_epoch_iff (h : Represents w m) {e : κ × TimerPlace} (he : e ∈ m.armed) :
    e.2.time ≤ m.epoch ↔ (e.1, e.2.number) ∈ w.ring 0 := by
  refine ⟨fun hle => ?_, fun hmem => ?_⟩
  · obtain ⟨i, hi, hmem⟩ := h.placed e he
    have htime := h.time_eq e he i hi hmem
    have hzero : i * m.granularity = 0 := by omega
    have hpos := h.granularity_pos
    obtain rfl : i = 0 := by simpa [hpos.ne'] using hzero
    exact hmem
  · have htime := h.time_eq e he 0 h.reach_pos hmem
    omega

theorem armed_turnHead (h : Represents w m) :
    w.turnHead.1.armed = (m.advance m.epoch).armed.map fun e => (e.1, e.2.number) := by
  have hturn : w.turnHead.1.armed = (expire w.armed (w.ring 0)).1 := by
    rw [w.ring_zero w.head_lt]
    rfl
  rw [hturn, expire_eq h.distinct_armed (h.sorted_ring 0 h.reach_pos), h.armed_eq, List.filter_map]
  refine congrArg (List.map _) (List.filter_congr fun e he => ?_)
  rw [Function.comp_apply, Bool.eq_iff_iff, decide_eq_true_eq, decide_eq_true_eq,
    ← h.time_le_epoch_iff he, Int.not_le]

theorem fired_turnHead (h : Represents w m) : w.turnHead.2 = (m.due m.epoch).map (·.1) := by
  have hsorted := h.sorted_ring 0 h.reach_pos
  have hturn : w.turnHead.2 = (expire w.armed (w.ring 0)).2 := by
    rw [w.ring_zero w.head_lt]
    rfl
  have hfiltered : ((w.ring 0).filter (· ∈ w.armed)).Pairwise (·.2 < ·.2) := hsorted.filter _
  have hdue : m.due m.epoch = ((w.ring 0).filter (· ∈ w.armed)).map
      fun e => (e.1, ⟨m.epoch, e.2⟩) := by
    refine TimerMap.due_eq_of_perm (fun a ha b hb => h.eq_of_place_eq ha hb) ?_ ?_
    · refine (List.perm_ext_iff_of_nodup ?_ ?_).2 fun e => ?_
      · refine List.pairwise_map.2 (hfiltered.imp fun {a b} hlt heq => ?_)
        exact Nat.ne_of_lt hlt (congrArg (·.2.number) heq)
      · exact (List.Nodup.of_map _ m.distinct_armed).filter _
      · simp only [List.mem_map, List.mem_filter, decide_eq_true_eq, h.armed_eq]
        constructor
        · rintro ⟨x, ⟨hx, a, ha, rfl⟩, rfl⟩
          have htime := h.time_eq a ha 0 h.reach_pos hx
          have hplace : a.2 = ⟨m.epoch, a.2.number⟩ := by
            rw [Nat.zero_mul, Int.natCast_zero, Int.add_zero] at htime
            rw [← htime]
          rw [← hplace]
          exact ⟨ha, htime.trans_le (by omega)⟩
        · rintro ⟨he, htime⟩
          have hplace : (⟨m.epoch, e.2.number⟩ : TimerPlace) = e.2 := by
            rw [← Int.le_antisymm htime (h.epoch_le he)]
          refine ⟨(e.1, e.2.number), ⟨(h.time_le_epoch_iff he).1 htime, e, he, rfl⟩, ?_⟩
          rw [hplace]
    · refine List.pairwise_map.2 (hfiltered.imp fun {a b} hlt => ?_)
      exact TimerPlace.le_iff.2 (.inr ⟨rfl, Nat.le_of_lt hlt⟩)
  rw [hturn, expire_eq h.distinct_armed hsorted, hdue, List.map_map]
  rfl

/-- A turn of the head advances the map by one point of the grid. -/
theorem turnHead (h : Represents w m) {epoch : Int} (hepoch : epoch = m.epoch + m.granularity) :
    Represents { w.turnHead.1 with epoch } (m.advance m.epoch) := by
  have hring : ∀ i < m.reach, ({ w.turnHead.1 with epoch } : TimerWheel κ).ring i =
      if i + 1 < m.reach then w.ring (i + 1) else [] := by
    intro i hi
    rw [← h.size_eq]
    exact w.ring_turnHead (h.size_eq ▸ hi)
  constructor
  case epoch_eq => exact hepoch.trans m.epochAfter_epoch.symm
  case granularity_eq => exact h.granularity_eq
  case size_eq => exact (Array.size_set w.head_lt).trans h.size_eq
  case insertions_eq => exact h.insertions_eq
  case armed_eq => exact h.armed_turnHead
  case number_lt =>
    intro i hi e he
    rw [hring i hi] at he
    split_ifs at he with hnext
    · exact h.number_lt (i + 1) hnext e he
    · simp at he
  case sorted_ring =>
    intro i hi
    rw [hring i hi]
    split_ifs with hnext
    · exact h.sorted_ring (i + 1) hnext
    · exact List.Pairwise.nil
  case placed =>
    intro e he
    obtain ⟨he, hlater⟩ := List.mem_filter.1 he
    obtain ⟨i, hi, hmem⟩ := h.placed e he
    have hpos : i ≠ 0 := by
      rintro rfl
      have hle := (h.time_le_epoch_iff he).2 hmem
      simp only [decide_eq_true_eq] at hlater
      omega
    obtain ⟨j, rfl⟩ := Nat.exists_eq_succ_of_ne_zero hpos
    have hj : j < m.reach := Nat.lt_of_succ_lt hi
    refine ⟨j, hj, ?_⟩
    rw [hring j hj, if_pos hi]
    exact hmem
  case time_eq =>
    intro e he i hi hmem
    rw [hring i hi] at hmem
    split_ifs at hmem with hnext
    · rw [h.time_eq e (List.mem_of_mem_filter he) (i + 1) hnext hmem]
      show _ = m.epochAfter m.epoch + (i * m.granularity : ℕ)
      rw [m.epochAfter_epoch]
      push_cast
      ring
    · simp at hmem

/-- A sweep answers as in the map, behind what it has fired before; both crash, or neither. -/
theorem sweepFrom (h : Represents w m) (now : Int) (fired : List κ) :
    (∃ w' m' keys, w.sweepFrom now fired = ⟨w', fired.reverse ++ keys, none⟩ ∧
        m.sweep now = .ok (m', keys) ∧ Represents w' m') ∨
      ∃ cause, (w.sweepFrom now fired).crash = some cause ∧ m.sweep now = .error cause := by
  fun_induction TimerWheel.sweepFrom w now fired generalizing m with
  | case1 w fired hle hnext turned keys hturn =>
    rw [h.epoch_eq] at hle hnext
    have hlast : Instant.last < m.epoch + m.granularity := by
      rw [h.granularity_eq, Instant.add?] at hnext
      split_ifs at hnext
      omega
    exact .inr ⟨_, rfl, TimerMap.sweep_of_overflow h.granularity_pos hle hlast⟩
  | case2 w fired hle epoch hnext turned keys hturn ih =>
    have hepoch : epoch = m.epoch + m.granularity := by
      rw [← h.epoch_eq, ← h.granularity_eq]
      exact Instant.eq_of_add? hnext
    have hlast : m.epoch + m.granularity ≤ Instant.last := by
      rw [h.granularity_eq, h.epoch_eq, Instant.add?] at hnext
      split_ifs at hnext
      assumption
    rw [h.epoch_eq] at hle
    have hkeys : keys = (m.due m.epoch).map (·.1) := by rw [← h.fired_turnHead, hturn]
    have hturned := h.turnHead hepoch
    rw [hturn] at hturned
    rw [TimerMap.sweep_eq_advance h.granularity_pos (fun a ha b hb => h.eq_of_place_eq ha hb) hle
      hlast]
    obtain ⟨w', m', later, hsweep, hmap, hw'⟩ | ⟨cause, hcrash, hmap⟩ := ih hturned
    · refine .inl ⟨w', m', keys ++ later, ?_, ?_, hw'⟩
      · rw [hsweep, List.reverse_append, List.reverse_reverse, List.append_assoc]
      · rw [hmap, hkeys]
        rfl
    · refine .inr ⟨cause, hcrash, ?_⟩
      rw [hmap]
      rfl
  | case3 w fired hlt =>
    rw [h.epoch_eq] at hlt
    refine .inl ⟨w, m, [], ?_, TimerMap.sweep_of_lt (Int.not_le.1 hlt) fun e he => h.epoch_le he, h⟩
    rw [List.append_nil]

omit [DecidableEq κ] in
/-- A wheel without entries stands for the map without keys. -/
theorem fresh {horizon granularity : ℕ} (epoch : Int) (hpos : 0 < granularity)
    (hfits : horizon / granularity < maxBuckets) :
    ∃ w : TimerWheel κ, withEpoch horizon granularity epoch = .ok w ∧
      Represents w (.fresh epoch granularity (horizon / granularity + 1)) := by
  obtain ⟨w, hw, hbuckets, harmed, hepoch, hgranularity, hinsertions⟩ :
      ∃ w : TimerWheel κ, withEpoch horizon granularity epoch = .ok w ∧
        w.buckets = Array.replicate (horizon / granularity + 1) [] ∧ w.armed = [] ∧
        w.epoch = epoch ∧ w.granularity = granularity ∧ w.insertions = 0 := by
    rw [withEpoch, dif_neg hpos.ne', if_pos hfits]
    exact ⟨_, rfl, rfl, rfl, rfl, rfl, rfl⟩
  have hring : ∀ i, w.ring i = [] := by
    intro i
    have hlt := w.place_lt i
    rw [hbuckets, Array.size_replicate] at hlt
    simp [ring, hbuckets, hlt]
  refine ⟨w, hw, ?_⟩
  constructor
  case epoch_eq => exact hepoch
  case granularity_eq => exact hgranularity
  case size_eq => rw [hbuckets, Array.size_replicate]; rfl
  case insertions_eq => exact hinsertions
  case armed_eq => exact harmed
  case number_lt => simp [hring]
  case sorted_ring => simp [hring]
  case placed => simp [TimerMap.fresh]
  case time_eq => simp [TimerMap.fresh]

end Represents

end CoopHttp.TimerWheel
