import CoopHttp.Proofs.Interest
import Mathlib.Data.List.Destutter

/-!
# Interest as two sets

What is wanted is stored only as the bits that differ from what the poller was told, and that moves
whenever the poller is told again. Whatever is done to an interest, it stands for two plain sets all
the same: the kinds that the poller holds, and the kinds that are wanted. The poller is told what is
wanted at a sync, and nothing at a sync that finds it up to date.
-/
namespace CoopHttp

namespace Interest

variable (i : Interest)

/-! What the stored bits stand for. -/

/-- To want what is wanted already changes nothing. -/
theorem set_current : i.set i.current = i := by
  rw [set, current]
  refine congrArg (mk i.applied) (congrArg Ready.mk ?_)
  rw [Ready.bits_xor, UInt32.xor_comm, ← UInt32.xor_assoc, UInt32.xor_self, UInt32.zero_xor]

theorem isEmpty_changes : i.changes.isEmpty = decide (i.applied = i.current) := by
  conv_lhs => rw [← set_current i]
  exact Ready.isEmpty_xor _ _

/-- The stored bits are those in which the told and the wanted differ. -/
theorem changes_eq : i.changes = i.current ^^^ i.applied := congrArg changes (set_current i).symm

/-- A sync tells what is wanted, unless the poller was told that. -/
theorem sync_eq :
    i.sync = (.ofApplied i.current, if i.applied = i.current then none else some i.current) := by
  conv_lhs => rw [← set_current i, sync_set]

/-! Calls, on an interest and on a plain set. -/

inductive Call
  | set (ready : Ready)
  | enable (ready : Ready)
  | disable (ready : Ready)
  | sync
  deriving DecidableEq, Repr

/-- The interest behind a call, and what the poller is told by it. -/
def call (i : Interest) : Call → Interest × Option Ready
  | .set ready => (i.set ready, none)
  | .enable ready => (i.enable ready, none)
  | .disable ready => (i.disable ready, none)
  | .sync => i.sync

/-- What a call makes of a plain set of kinds. A sync leaves it as it is. -/
def Call.change (wanted : Finset (Fin 32)) : Call → Finset (Fin 32)
  | .set ready => ready.kinds
  | .enable ready => wanted ∪ ready.kinds
  | .disable ready => wanted \ ready.kinds
  | .sync => wanted

/-- A call changes what is wanted as it changes a plain set. -/
theorem kinds_current_call (c : Call) :
    (i.call c).1.current.kinds = c.change i.current.kinds := by
  cases c with
  | set ready => rw [call, current_set, Call.change]
  | enable ready => rw [call, enable, current_set, Ready.kinds_or, Call.change]
  | disable ready =>
    rw [call, disable, current_set, Ready.kinds_and, Ready.kinds_not, Call.change,
      Finset.sdiff_eq_inter_compl]
  | sync => rw [call, sync_eq, current_ofApplied, Call.change]

/-- What the poller was told before, it holds until it is told something else. -/
theorem applied_call (c : Call) : (i.call c).1.applied = (i.call c).2.getD i.applied := by
  cases c with
  | set _ | enable _ | disable _ => rfl
  | sync =>
    rw [call, sync_eq, applied_ofApplied]
    split_ifs with h
    · exact h.symm
    · rfl

/-! An interest beside the poller. -/

/-- An interest, and what the poller holds that is told by it. -/
structure Wired where
  interest : Interest
  held : Ready

namespace Wired

/-- The poller holds what it is told. -/
def call (w : Wired) (c : Call) : Wired :=
  ⟨(w.interest.call c).1, (w.interest.call c).2.getD w.held⟩

/-- A new interest, of which the poller was told. -/
def new (ready : Ready) : Wired := ⟨ofApplied ready, ready⟩

/-- The interest stands for two sets: what the poller holds, and what is wanted. Where they are the
same, no bit is to be changed and a sync tells nothing. Where they differ, a sync tells what is
wanted, and the poller holds it then. -/
structure Mirrors (w : Wired) (wanted : Finset (Fin 32)) : Prop where
  applied_eq : w.interest.applied = w.held
  kinds_current : w.interest.current.kinds = wanted
  kinds_changes : w.interest.changes.kinds = symmDiff w.held.kinds wanted
  isEmpty_changes_iff : w.interest.changes.isEmpty = true ↔ w.held.kinds = wanted
  sync_eq : w.interest.sync.2 = if w.held.kinds = wanted then none else some w.interest.current
  kinds_held_sync : (w.call .sync).held.kinds = wanted

variable {w : Wired} {wanted : Finset (Fin 32)}

/-- All that the two sets are told by is what the poller holds and what is wanted. -/
theorem mirrors_of_eq (happlied : w.interest.applied = w.held)
    (hcurrent : w.interest.current.kinds = wanted) : w.Mirrors wanted := by
  have hsame : w.interest.applied = w.interest.current ↔ w.held.kinds = wanted := by
    rw [happlied, ← hcurrent, Ready.kinds_inj]
  constructor
  case applied_eq => exact happlied
  case kinds_current => exact hcurrent
  case kinds_changes =>
    rw [changes_eq, Ready.kinds_xor, hcurrent, happlied, symmDiff_comm]
  case isEmpty_changes_iff => rw [isEmpty_changes, decide_eq_true_iff, hsame]
  case sync_eq => simp only [Interest.sync_eq, hsame]
  case kinds_held_sync =>
    rw [call, ← happlied, ← applied_call, Interest.call, Interest.sync_eq, applied_ofApplied,
      hcurrent]

theorem Mirrors.call (h : w.Mirrors wanted) (c : Call) : (w.call c).Mirrors (c.change wanted) := by
  refine mirrors_of_eq ?_ ?_
  · rw [Wired.call, applied_call, h.applied_eq]
  · rw [Wired.call, kinds_current_call, h.kinds_current]

theorem Mirrors.calls (h : w.Mirrors wanted) (calls : List Call) :
    (calls.foldl Wired.call w).Mirrors (calls.foldl Call.change wanted) := by
  induction calls generalizing w wanted with
  | nil => exact h
  | cons c calls ih => exact ih (h.call c)

end Wired

/-! What the poller is told in the course of a run. -/

/-- All that the poller is told, in order. -/
def told (i : Interest) : List Call → List Ready
  | [] => []
  | c :: calls => (i.call c).2.toList ++ (i.call c).1.told calls

/-- What a plain set comes to be by each of the syncs. -/
def Call.atSyncs (wanted : Finset (Fin 32)) : List Call → List (Finset (Fin 32))
  | [] => []
  | .sync :: calls => wanted :: atSyncs wanted calls
  | c :: calls => atSyncs (c.change wanted) calls

/-- The poller is told what is wanted at the syncs, one by one, but for what it holds already. -/
theorem destutter_atSyncs (calls : List Call) :
    (Call.atSyncs i.current.kinds calls).destutter' (· ≠ ·) i.applied.kinds =
      i.applied.kinds :: (i.told calls).map Ready.kinds := by
  induction calls generalizing i with
  | nil => rfl
  | cons c calls ih =>
    have hlater := ih (i.call c).1
    rw [kinds_current_call, applied_call] at hlater
    cases c with
    | set _ | enable _ | disable _ => exact hlater
    | sync =>
      rw [told, Call.atSyncs, List.destutter'_cons]
      simp only [call, sync_eq, Call.change] at hlater ⊢
      by_cases h : i.applied = i.current
      · rw [if_neg (by simp [h])]
        simpa [h] using hlater
      · rw [if_pos (by simpa [Ready.kinds_inj] using h)]
        simpa [h] using hlater

/-- Whatever is done to a new interest, it stands for what the poller holds and for what the wishes
make of a plain set; and what the poller is told is what is wanted at the syncs, repetitions left
out. So wishes that cancel each other tell it nothing, and no wish is lost. -/
theorem mirrors_of_calls (start : Ready) (calls : List Call) :
    (calls.foldl Wired.call (.new start)).Mirrors (calls.foldl Call.change start.kinds) ∧
      start.kinds :: ((ofApplied start).told calls).map Ready.kinds =
        (Call.atSyncs start.kinds calls).destutter' (· ≠ ·) start.kinds := by
  have hnew : (Wired.new start).Mirrors start.kinds :=
    Wired.mirrors_of_eq rfl (congrArg Ready.kinds (current_ofApplied start))
  have htold := destutter_atSyncs (ofApplied start) calls
  rw [current_ofApplied, applied_ofApplied] at htold
  exact ⟨hnew.calls calls, htold.symm⟩

example : (ofApplied .readable).told
    [.enable .writable, .disable .writable, .sync, .set .writable, .sync, .sync] = [.writable] := by
  decide

end Interest

end CoopHttp
