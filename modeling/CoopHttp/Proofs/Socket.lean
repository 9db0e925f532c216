import CoopHttp.Socket
import Mathlib.Tactic.Common

/-!
# Writing everything

What a socket has accepted of some octets and what is left of them are the octets, however the
attempts turn out, and nothing is left exactly if the socket has taken everything.
-/
namespace CoopHttp.Socket

/-- A transfer that is done has nothing left; any other has something left. -/
def Settles (data : Bytes) (transfer : Transfer) (attempt : Attempt Unit) : Prop :=
  transfer.accepted.flatten ++ transfer.rest = data ∧ (attempt = .done () ↔ transfer.rest = [])

theorem settles_writeAllTo (data : Bytes) (writes : List Acceptance) :
    Settles data (writeAllTo data writes).1 (writeAllTo data writes).2.2 := by
  fun_induction writeAllTo data writes with
  | case1 => exact ⟨rfl, by simp⟩
  | case2 data hdata => exact ⟨by simp, by simp⟩
  | case3 data hdata => exact ⟨by simp, by simpa using hdata⟩
  | case4 data hdata n writes hn transfer writes' attempt heq ih =>
    rw [heq] at ih
    obtain ⟨hjoin, hdone⟩ := ih
    refine ⟨?_, hdone⟩
    show (data.take n ++ transfer.accepted.flatten) ++ transfer.rest = data
    rw [List.append_assoc, hjoin, List.take_append_drop]
  | case5 data hdata writes ih => exact ih
  | case6 data hdata writes => exact ⟨rfl, by simpa using hdata⟩
  | case7 data hdata error writes => exact ⟨rfl, by simpa using hdata⟩

end CoopHttp.Socket
