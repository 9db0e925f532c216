import CoopHttp.Bytes

/-!
# Literal streams

The plainest deflate streams: one block in the fixed codes, in which every octet is written as its
own code word, and no octet as a copy of another. An octet of the stream holds eight bits, the least
significant first.
-/
namespace CoopHttp

/-- The octet of at most eight bits, the least significant first. -/
def octetOfBits : List Bool → UInt8
  | [] => 0
  | bit :: bits => 2 * octetOfBits bits + if bit then 1 else 0

/-- A writer of bits: the whole octets, and the bits of the octet that is not whole yet, the last one
first. -/
structure BitWriter where
  output : Array UInt8 := #[]
  pending : List Bool := []
  deriving DecidableEq, Repr

namespace BitWriter

def writeBit (w : BitWriter) (bit : Bool) : BitWriter :=
  let pending := bit :: w.pending
  if pending.length = 8 then ⟨w.output.push (octetOfBits pending.reverse), []⟩
  else { w with pending }

def write (w : BitWriter) (bits : List Bool) : BitWriter := bits.foldl writeBit w

/-- Completes the last octet with zeros. -/
def close (w : BitWriter) : Array UInt8 :=
  if w.pending = [] then w.output else w.output.push (octetOfBits w.pending.reverse)

end BitWriter

namespace Literal

/-- The lowest bits of a number, the most significant first, and `rest` behind them. -/
def bitsBefore : (size n : Nat) → (rest : List Bool) → List Bool
  | 0, _, rest => rest
  | size + 1, n, rest => bitsBefore size (n / 2) ((n % 2 == 1) :: rest)

/-- The lowest bits of a number, the most significant first. -/
def bits (size n : Nat) : List Bool := bitsBefore size n []

/-- The code word of an octet. -/
def word (b : UInt8) : List Bool :=
  if b < 144 then bits 8 (0x30 + b.toNat) else bits 9 (0x100 + b.toNat)

/-- The bits that announce the only block: it is the last one and has the fixed codes. -/
def blockHead : List Bool := [true, true, false]

def blockEnd : List Bool := bits 7 0

/-- A writer that has begun a stream behind `head`. -/
def openStream (head : Bytes) : BitWriter := { output := head.toArray : BitWriter }.write blockHead

def writeAll (writer : BitWriter) (data : Bytes) : BitWriter :=
  data.foldl (fun writer b => writer.write (word b)) writer

/-- Ends a stream and puts `trailer` behind it. -/
def closeStream (writer : BitWriter) (trailer : Bytes) : Array UInt8 :=
  (writer.write blockEnd).close ++ trailer.toArray

end Literal

end CoopHttp
