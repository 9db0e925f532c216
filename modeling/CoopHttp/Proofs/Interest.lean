import CoopHttp.Interest
import Mathlib.Data.Finset.SymmDiff
import Mathlib.Data.Fintype.Basic
import Mathlib.Tactic.Tauto

/-!
# Interest

What is kept of a wish is what the poller was told and the bits that differ from it. However the
wish came about, telling the poller makes the two the same, and the poller is told exactly when they
were not.
-/
namespace CoopHttp

namespace Ready

/-- The kinds in the set, each by the place of its bit. -/
def kinds (a : Ready) : Finset (Fin 32) := Finset.univ.filter fun k => a.bits.toBitVec.getLsbD k

theorem mem_kinds {a : Ready} {k : Fin 32} : k ∈ a.kinds ↔ a.bits.toBitVec.getLsbD k = true := by
  simp [kinds]

/-- Two sets with the same kinds are the same. -/
theorem kinds_inj {a b : Ready} : a.kinds = b.kinds ↔ a = b := by
  refine ⟨fun h => ?_, congrArg kinds⟩
  refine congrArg mk (UInt32.eq_of_toBitVec_eq (BitVec.eq_of_getLsbD_eq fun i hi => ?_))
  have hmem := Finset.ext_iff.1 h ⟨i, hi⟩
  rwa [mem_kinds, mem_kinds, ← Bool.eq_iff_iff] at hmem

@[simp]
theorem kinds_or (a b : Ready) : (a ||| b).kinds = a.kinds ∪ b.kinds := by
  ext k
  simp [mem_kinds]

@[simp]
theorem kinds_and (a b : Ready) : (a &&& b).kinds = a.kinds ∩ b.kinds := by
  ext k
  simp [mem_kinds]

@[simp]
theorem kinds_not (a : Ready) : (~~~a).kinds = a.kindsᶜ := by
  ext k
  simp [mem_kinds, k.isLt]

@[simp]
theorem kinds_xor (a b : Ready) : (a ^^^ b).kinds = symmDiff a.kinds b.kinds := by
  ext k
  simp only [Finset.mem_symmDiff, mem_kinds, bits_xor, UInt32.toBitVec_xor, BitVec.getLsbD_xor]
  cases a.bits.toBitVec.getLsbD k <;> simp

theorem xor_self (a : Ready) : a ^^^ a = empty := congrArg mk UInt32.xor_self

theorem xor_xor_self (a b : Ready) : a ^^^ (b ^^^ a) = b := by
  rw [← kinds_inj, kinds_xor, kinds_xor, symmDiff_comm b.kinds, symmDiff_symmDiff_cancel_left]

theorem isEmpty_xor (a b : Ready) : (b ^^^ a).isEmpty = decide (a = b) := by
  rw [isEmpty, bits_xor, Bool.eq_iff_iff, beq_iff_eq, UInt32.xor_eq_zero_iff, decide_eq_true_eq]
  exact ⟨fun h => congrArg mk h.symm, fun h => congrArg bits h.symm⟩

/-- Two sets are the same if each kind is in both or in neither. -/
theorem eq_of_mem {a b : Ready} (h : ∀ k, k ∈ a.kinds ↔ k ∈ b.kinds) : a = b :=
  kinds_inj.1 (Finset.ext h)

/-- Error conditions that have been seen are not wanted, whether or not the wish left them out. -/
theorem or_errors_and_not (wanted seen : Ready) :
    (wanted ||| (errors &&& ~~~seen)) &&& ~~~seen = (wanted ||| errors) &&& ~~~seen := by
  refine eq_of_mem fun k => ?_
  simp only [kinds_and, kinds_or, kinds_not, Finset.mem_inter, Finset.mem_union]
  tauto

/-- What has been left out once is left out again when there is more to leave out. -/
theorem and_not_and_not_or (wanted seen more : Ready) :
    (wanted &&& ~~~seen) &&& ~~~(seen ||| more) = wanted &&& ~~~(seen ||| more) := by
  refine eq_of_mem fun k => ?_
  simp only [kinds_and, kinds_or, kinds_not, Finset.mem_inter, Finset.mem_compl, Finset.mem_union]
  tauto

/-- A wake repeats the error conditions seen before the event, which adds none to them. -/
theorem and_errors_or (ready seen : Ready) :
    ((ready ||| (seen ||| (ready &&& errors))) &&& errors) ||| seen =
      seen ||| (ready &&& errors) := by
  refine eq_of_mem fun k => ?_
  simp only [kinds_and, kinds_or, Finset.mem_inter, Finset.mem_union]
  tauto

/-- The error conditions of an event are among its readiness. -/
theorem or_or_and_errors (ready seen : Ready) :
    ready ||| (seen ||| (ready &&& errors)) = ready ||| seen := by
  refine eq_of_mem fun k => ?_
  simp only [kinds_and, kinds_or, Finset.mem_inter, Finset.mem_union]
  tauto

end Ready

namespace Interest

variable (i : Interest)

@[simp]
theorem applied_ofApplied (ready : Ready) : (ofApplied ready).applied = ready := rfl

@[simp]
theorem current_ofApplied (ready : Ready) : (ofApplied ready).current = ready :=
  congrArg Ready.mk UInt32.xor_zero

theorem current_set (wish : Ready) : (i.set wish).current = wish := Ready.xor_xor_self _ _

/-- The poller is told a wish exactly if it was told something else before. -/
theorem sync_set (wish : Ready) :
    (i.set wish).sync = (.ofApplied wish, if i.applied = wish then none else some wish) := by
  have hempty : (i.set wish).changes.isEmpty = decide (i.applied = wish) := Ready.isEmpty_xor _ _
  rw [sync, hempty, current_set]
  by_cases h : i.applied = wish
  · rw [if_pos (decide_eq_true h), if_pos h, set, ← h, Ready.xor_self]
    rfl
  · rw [if_neg (by simpa using h), if_neg h]

/-- What is wanted without the error conditions seen. -/
theorem sync_disable_set (wish seen : Ready) :
    ((i.set wish).disable seen).sync =
      (.ofApplied (wish &&& ~~~seen),
        if i.applied = wish &&& ~~~seen then none else some (wish &&& ~~~seen)) := by
  rw [disable, current_set]
  exact sync_set (i.set wish) (wish &&& ~~~seen)

end Interest

end CoopHttp
