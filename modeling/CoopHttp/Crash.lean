/-!
# Crashes

A crash ends the computation it happens in: no answer is made and no state is kept. It is not an
error a caller can handle. Naming each cause makes "this never crashes" a statement.
-/
namespace CoopHttp

inductive Crash
  /-- A cut or an advance beyond the end of a buffer. -/
  | beyondBuffer
  /-- A timer wheel with a granularity of zero. -/
  | zeroGranularity
  /-- A timer wheel with more buckets than memory can address. -/
  | tooManyBuckets
  /-- A sum of durations that no duration can hold. -/
  | durationOverflow
  /-- A point in time beyond the end of the clock. -/
  | clockOverflow
  /-- A client that found no host to connect to. -/
  | unreachableHost
  deriving DecidableEq, Repr

end CoopHttp
