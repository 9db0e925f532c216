import CoopHttp.Proofs.Table
import CoopHttp.TimerWheel

/-!
# Armed keys

What each operation of a timer wheel does to the live insertions, whatever its buckets hold: arming
and disarming touch one key, and a sweep takes out the keys it fires, which were armed, once each.
-/
namespace CoopHttp.TimerWheel

variable {κ : Type} [DecidableEq κ]

/-- The number of the live insertion of a key. -/
def insertion? (w : TimerWheel κ) (key : κ) : Option ℕ := w.armed.lookup key

theorem contains_eq_isSome (w : TimerWheel κ) (key : κ) :
    w.contains key = (w.insertion? key).isSome := rfl

theorem insertion?_insertAt {w w' : TimerWheel κ} {now : Int} {delay : ℕ} {key : κ}
    (h : w.insertAt now delay key = .ok w') (other : κ) :
    w'.insertion? other = if other = key then some w.insertions else w.insertion? other := by
  rw [insertAt] at h
  split at h
  · cases h
  · cases h
    rw [insertion?]
    split_ifs with hkey
    · rw [hkey, Table.lookup_cons_self]
    · rw [Table.lookup_cons_ne _ _ hkey, Table.lookup_filter_ne _ hkey, insertion?]

theorem insertion?_remove (w : TimerWheel κ) (key other : κ) :
    (w.remove key).1.insertion? other = if other = key then none else w.insertion? other := by
  rw [insertion?, remove]
  split_ifs with hkey
  · rw [hkey, Table.lookup_filter_self]
  · rw [Table.lookup_filter_ne _ hkey, insertion?]

theorem insertion?_withEpoch {w : TimerWheel κ} {horizon granularity : ℕ} {epoch : Int}
    (h : withEpoch horizon granularity epoch = .ok w) (key : κ) : w.insertion? key = none := by
  rw [withEpoch] at h
  split_ifs at h
  cases h
  rfl

/-- What has been fired was armed, once for each key, and is not armed any more. -/
structure Fires (armed : List (κ × ℕ)) (keys : List κ) (armed' : List (κ × ℕ)) : Prop where
  nodup : keys.Nodup
  isSome_lookup : ∀ key ∈ keys, (armed.lookup key).isSome
  lookup_eq : ∀ key, armed'.lookup key = if key ∈ keys then none else armed.lookup key

namespace Fires

variable {armed armed' armed'' : List (κ × ℕ)} {keys later : List κ}

theorem nil (armed : List (κ × ℕ)) : Fires armed [] armed where
  nodup := List.nodup_nil
  isSome_lookup := by simp
  lookup_eq := by simp

theorem append (h : Fires armed keys armed') (h' : Fires armed' later armed'') :
    Fires armed (keys ++ later) armed'' where
  nodup := by
    refine h.nodup.append h'.nodup fun key hkey hlater => ?_
    have hsome := h'.isSome_lookup key hlater
    rw [h.lookup_eq, if_pos hkey] at hsome
    exact absurd hsome Bool.false_ne_true
  isSome_lookup := by
    intro key hkey
    obtain hkey | hkey := List.mem_append.1 hkey
    · exact h.isSome_lookup key hkey
    · have hsome := h'.isSome_lookup key hkey
      rw [h.lookup_eq] at hsome
      split_ifs at hsome
      · exact absurd hsome Bool.false_ne_true
      · exact hsome
  lookup_eq := by
    intro key
    rw [h'.lookup_eq, h.lookup_eq]
    by_cases hkey : key ∈ keys <;> simp [hkey]

theorem singleton {key : κ} {seq : ℕ} (h : armed.lookup key = some seq) :
    Fires armed [key] (armed.filter (·.1 ≠ key)) where
  nodup := List.nodup_singleton key
  isSome_lookup := by
    intro other hother
    rw [List.mem_singleton.1 hother, h]
    rfl
  lookup_eq := by
    intro other
    by_cases hother : other = key
    · rw [hother, Table.lookup_filter_self, if_pos (List.mem_singleton_self key)]
    · rw [Table.lookup_filter_ne _ hother, if_neg (by simpa using hother)]

end Fires

theorem fires_expire (armed entries : List (κ × ℕ)) :
    Fires armed (expire armed entries).2 (expire armed entries).1 := by
  induction entries generalizing armed with
  | nil => exact .nil armed
  | cons entry rest ih =>
    obtain ⟨key, seq⟩ := entry
    rw [expire]
    split_ifs with hlive
    · exact (Fires.singleton hlive).append (ih _)
    · exact ih armed

theorem fires_turnHead (w : TimerWheel κ) : Fires w.armed w.turnHead.2 w.turnHead.1.armed :=
  fires_expire w.armed _

/-- A sweep goes on firing behind what it has fired before. -/
theorem fires_sweepFrom (w : TimerWheel κ) (now : Int) (fired : List κ) :
    ∃ keys, (w.sweepFrom now fired).fired = fired.reverse ++ keys ∧
      Fires w.armed keys (w.sweepFrom now fired).wheel.armed := by
  fun_induction sweepFrom w now fired with
  | case1 w fired hle hnext turned keys hturn =>
    have hfires := w.fires_turnHead
    rw [hturn] at hfires
    exact ⟨keys, by simp, hfires⟩
  | case2 w fired hle epoch hnext turned keys hturn ih =>
    have hfires := w.fires_turnHead
    rw [hturn] at hfires
    obtain ⟨later, hfired, hlater⟩ := ih
    exact ⟨keys ++ later, by simp [hfired], hfires.append hlater⟩
  | case3 w fired hlt => exact ⟨[], by simp, .nil w.armed⟩

theorem fires_sweep (w : TimerWheel κ) (now : Int) :
    Fires w.armed (w.sweep now).fired (w.sweep now).wheel.armed := by
  obtain ⟨keys, hfired, hfires⟩ := w.fires_sweepFrom now []
  rw [sweep, hfired]
  exact hfires

end CoopHttp.TimerWheel
