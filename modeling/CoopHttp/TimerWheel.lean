import CoopHttp.Crash
import CoopHttp.Time

/-!
# Timer wheel

A ring of buckets, one for each step of the granularity, the bucket under the head standing for the
wheel's epoch. Arming a key appends it to the bucket its deadline falls into; disarming or moving
it only changes the table of live insertions, and an entry that is no longer live is passed over
when its bucket is reached. A sweep walks bucket by bucket, so a late sweep fires in the same order
as punctual ones.
-/
namespace CoopHttp

/-- A timer wheel over keys of type `κ`. A bucket entry is a key and the number of its insertion. -/
structure TimerWheel (κ : Type) where
  /-- The buckets, the last entry of each first. -/
  buckets : Array (List (κ × Nat))
  /-- Index of the bucket that stands for the epoch. -/
  head : Nat
  epoch : Int
  granularity : Nat
  /-- The live insertion of every armed key. -/
  armed : List (κ × Nat)
  /-- The number of the next insertion. -/
  insertions : Nat
  head_lt : head < buckets.size
  granularity_pos : 0 < granularity

namespace TimerWheel

variable {κ : Type}

/-- The most buckets an address space can hold, three machine words each. -/
def maxBuckets : Nat := (1 <<< 63 - 1) / 24

/-- A wheel that covers `horizon` from `epoch` on. -/
def withEpoch (horizon granularity : Nat) (epoch : Int) : Except Crash (TimerWheel κ) :=
  if h : granularity = 0 then .error .zeroGranularity
  else if horizon / granularity < maxBuckets then
    .ok {
      buckets := Array.replicate (horizon / granularity + 1) []
      head := 0
      epoch, granularity
      armed := []
      insertions := 0
      head_lt := by simp
      granularity_pos := Nat.pos_of_ne_zero h }
  else .error .tooManyBuckets

def size (w : TimerWheel κ) : Nat := w.armed.length

def isEmpty (w : TimerWheel κ) : Bool := w.armed.isEmpty

/-- The bucket, counted from the epoch, of a deadline that lies `elapsed` after the epoch.
Deadlines beyond the horizon share the last bucket. -/
def bucketOf (w : TimerWheel κ) (elapsed : Nat) : Nat :=
  min (elapsed / w.granularity) (w.buckets.size - 1)

variable [DecidableEq κ]

def contains (w : TimerWheel κ) (key : κ) : Bool := (w.armed.lookup key).isSome

/-- Disarms the key; the second component says whether it was armed. -/
def remove (w : TimerWheel κ) (key : κ) : TimerWheel κ × Bool :=
  ({ w with armed := w.armed.filter (·.1 ≠ key) }, w.contains key)

/-- Arms the key for `delay` after `now`. A key that is armed already moves. -/
def insertAt (w : TimerWheel κ) (now : Int) (delay : Nat) (key : κ) :
    Except Crash (TimerWheel κ) :=
  match Duration.add? (Instant.since now w.epoch) delay with
  | none => .error .durationOverflow
  | some elapsed =>
    let slot := (w.head + w.bucketOf elapsed) % w.buckets.size
    .ok { w with
      buckets := w.buckets.modify slot ((key, w.insertions) :: ·)
      armed := (key, w.insertions) :: w.armed.filter (·.1 ≠ key)
      insertions := w.insertions + 1
      head_lt := by simpa using w.head_lt }

/-- Takes the live ones among some entries out of the table, and lists their keys in order. -/
def expire (armed : List (κ × Nat)) : List (κ × Nat) → List (κ × Nat) × List κ
  | [] => (armed, [])
  | (key, seq) :: rest =>
    if armed.lookup key = some seq then
      let (armed, keys) := expire (armed.filter (·.1 ≠ key)) rest
      (armed, key :: keys)
    else expire armed rest

/-- Empties the bucket under the head and turns the ring by one; the epoch stays. The second
component lists the keys fired. -/
def turnHead (w : TimerWheel κ) : TimerWheel κ × List κ :=
  have := w.head_lt
  let head := (w.head + 1) % w.buckets.size
  let (armed, keys) := expire w.armed w.buckets[w.head].reverse
  ({ w with
      buckets := w.buckets.set w.head [] w.head_lt
      head
      armed
      head_lt := by simpa using Nat.mod_lt _ (Nat.zero_lt_of_lt w.head_lt) }, keys)

/-- The outcome of a sweep: a sweep that crashes has still fired what it reached. -/
structure Swept (κ : Type) where
  wheel : TimerWheel κ
  fired : List κ
  crash : Option Crash

/-- Goes on with a sweep; the keys that it has fired so far are in reverse. -/
def sweepFrom (w : TimerWheel κ) (now : Int) (fired : List κ) : Swept κ :=
  if _hle : w.epoch ≤ now then
    match _hnext : Instant.add? w.epoch w.granularity with
    | none =>
      let (turned, keys) := w.turnHead
      ⟨turned, (keys.reverse ++ fired).reverse, some .clockOverflow⟩
    | some epoch =>
      let (turned, keys) := w.turnHead
      sweepFrom { turned with epoch } now (keys.reverse ++ fired)
  else ⟨w, fired.reverse, none⟩
termination_by (now + 1 - w.epoch).toNat
decreasing_by
  have hpos := w.granularity_pos
  have hepoch := Instant.eq_of_add? _hnext
  show (now + 1 - epoch).toNat < (now + 1 - w.epoch).toNat
  omega

/-- Fires every key whose bucket has been reached by `now`: earlier buckets first, and in one
bucket in the order of insertion. -/
def sweep (w : TimerWheel κ) (now : Int) : Swept κ := w.sweepFrom now []

end TimerWheel

end CoopHttp
