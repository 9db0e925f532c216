/-!
# Time

A duration is a number of nanoseconds (`Nat`), an instant a number of nanoseconds after an agreed
start, or before it (`Int`). Both are bounded: a sum beyond `Duration.max` or `Instant.last` does
not exist.
-/
namespace CoopHttp

namespace Duration

/-- The longest duration: one nanosecond less than 2^64 seconds. -/
def max : Nat := UInt64.size * 1000000000 - 1

/-- The sum of two durations, if there is one. -/
def add? (a b : Nat) : Option Nat := if a + b ≤ max then some (a + b) else none

def ofSeconds (n : Nat) : Nat := n * 1000000000

def ofMilliseconds (n : Nat) : Nat := n * 1000000

end Duration

namespace Instant

/-- The last instant: one nanosecond before 2^63 seconds. -/
def last : Int := 1 <<< 63 * 1000000000 - 1

/-- The instant `d` after `t`, if there is one. -/
def add? (t : Int) (d : Nat) : Option Int := if t + d ≤ last then some (t + d) else none

theorem eq_of_add? {t u : Int} {d : Nat} (h : add? t d = some u) : u = t + d := by
  unfold add? at h
  split at h <;> simp_all

/-- The duration from `earlier` to `t`, zero if `t` comes first. -/
def since (t earlier : Int) : Nat := (t - earlier).toNat

end Instant

end CoopHttp
