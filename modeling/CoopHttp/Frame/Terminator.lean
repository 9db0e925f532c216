import CoopHttp.Bytes

/-!
# The end of a head

A head ends with two line breaks in a row, CR LF twice or LF twice. The matcher reads one octet at
a time and remembers how much of a terminator it is in.
-/
namespace CoopHttp

structure HeadEnd where
  offset : Nat
  length : Nat
  deriving DecidableEq, Repr

def HeadEnd.bodyStart (e : HeadEnd) : Nat := e.offset + e.length

/-- The part of a terminator that has been read. -/
inductive Terminator
  | start
  /-- CR -/
  | cr1
  /-- CR LF -/
  | lf1
  /-- CR LF CR -/
  | cr2
  /-- LF alone -/
  | lf
  deriving DecidableEq, Repr

namespace Terminator

/-- Reads one octet; the second component is the length of the terminator it completes. -/
def step (t : Terminator) (b : UInt8) : Terminator × Option Nat :=
  if b = Bytes.lf then
    match t with
    | start => (lf, none)
    | cr1 => (lf1, none)
    | lf1 | lf => (start, some 2)
    | cr2 => (start, some 4)
  else if b = Bytes.cr then
    match t with
    | lf1 => (cr2, none)
    | _ => (cr1, none)
  else (start, none)

/-- Reads octets until a terminator is complete: the state behind them, how many were read, and the
length of the terminator. -/
def run (t : Terminator) : Bytes → Terminator × Nat × Option Nat
  | [] => (t, 0, none)
  | b :: rest =>
    match t.step b with
    | (t, some length) => (t, 1, some length)
    | (t, none) =>
      let (t, n, found) := run t rest
      (t, n + 1, found)

end Terminator

end CoopHttp
