import CoopHttp.Bytes
import CoopHttp.Compression.Huffman

/-!
# Inflating

A decoder of deflate streams that is fed octet by octet. A stream is a series of blocks. A stored
block holds its octets as they are; any other holds code words for octets and for copies of octets
that came before. Numbers are read least significant bit first.

Output comes window by window. A window begins with each piece of input and where the last window
overflows, and it ends at the next multiple of `Inflater.windowSize`. As soon as it overflows, what
is left of the octet being read is held back until there is another octet or the input has ended, so
a fault in it is found no sooner.
-/
namespace CoopHttp

structure BlockCodes where
  literals : HuffmanCode
  distances : HuffmanCode
  deriving DecidableEq, Repr

namespace BlockCodes

/-- The codes of a block that brings none. -/
def fixed : BlockCodes where
  literals := .ofLengths
    (List.replicate 144 8 ++ List.replicate 112 9 ++ List.replicate 24 7 ++ List.replicate 8 8)
  distances := .ofLengths (List.replicate 32 5)

end BlockCodes

structure CodeCounts where
  literals : Nat
  distances : Nat
  deriving DecidableEq, Repr

structure Repetition where
  length : Nat
  least : Nat
  deriving DecidableEq, Repr

/-- What a number in the stream is for. -/
inductive NumberUse
  | blockHeader
  | codeCounts
  /-- A code length of the code for code lengths; so many are still to come, those read are in
  reverse. -/
  | metaLength (counts : CodeCounts) (left : Nat) (read : List Nat)
  /-- How often a code length is repeated; those read are in reverse. -/
  | repetition (counts : CodeCounts) (code : HuffmanCode) (read : List Nat) (what : Repetition)
  /-- What is added to a copy length. -/
  | copyLength (codes : BlockCodes) (base : Nat)
  /-- What is added to a copy distance. -/
  | copyDistance (codes : BlockCodes) (length base : Nat)
  deriving DecidableEq, Repr

/-- What a code word in the stream is for. -/
inductive WordUse
  /-- A code length; those read are in reverse. -/
  | codeLength (counts : CodeCounts) (code : HuffmanCode) (read : List Nat)
  | literal (codes : BlockCodes)
  | distance (codes : BlockCodes) (length : Nat)
  deriving DecidableEq, Repr

namespace WordUse

/-- The code that the word belongs to. -/
def code : WordUse → HuffmanCode
  | codeLength _ code _ => code
  | literal codes => codes.literals
  | distance codes _ => codes.distances

end WordUse

inductive InflatePhase
  /-- In a number: the bits still to come, the number so far, and the weight of the next bit. -/
  | number (left value weight : Nat) (use : NumberUse)
  | word (walk : HuffmanCode.Walk) (use : WordUse)
  /-- In the length of a stored block; those octets of it that have been read. -/
  | storedLength (read : Bytes)
  /-- In a stored block, before so many octets. -/
  | stored (left : Nat)
  | done
  deriving DecidableEq, Repr

def Inflater.windowSize : Nat := 32768

/-- A decoder, with all that it has produced. -/
structure Inflater where
  phase : InflatePhase := .number 3 0 1 .blockHeader
  /-- The block is the last one. -/
  last : Bool := false
  output : Array UInt8 := #[]
  /-- The size of the output when the window is full. -/
  windowEnd : Nat := Inflater.windowSize
  /-- The bits of the last octet that are held back. -/
  held : List Bool := []
  deriving DecidableEq, Repr

namespace Inflater

/-- The least copy length of each length symbol, and the number of bits that are added to it. -/
def copyLengths : Array (Nat × Nat) :=
  #[(3, 0), (4, 0), (5, 0), (6, 0), (7, 0), (8, 0), (9, 0), (10, 0), (11, 1), (13, 1), (15, 1),
    (17, 1), (19, 2), (23, 2), (27, 2), (31, 2), (35, 3), (43, 3), (51, 3), (59, 3), (67, 4),
    (83, 4), (99, 4), (115, 4), (131, 5), (163, 5), (195, 5), (227, 5), (258, 0)]

/-- The least distance of each distance symbol, and the number of bits that are added to it. -/
def copyDistances : Array (Nat × Nat) :=
  #[(1, 0), (2, 0), (3, 0), (4, 0), (5, 1), (7, 1), (9, 2), (13, 2), (17, 3), (25, 3), (33, 4),
    (49, 4), (65, 5), (97, 5), (129, 6), (193, 6), (257, 7), (385, 7), (513, 8), (769, 8),
    (1025, 9), (1537, 9), (2049, 10), (3073, 10), (4097, 11), (6145, 11), (8193, 12), (12289, 12),
    (16385, 13), (24577, 13)]

/-- The symbols of the code for code lengths, in the order in which their lengths are announced. -/
def metaOrder : List Nat := [16, 17, 18, 0, 8, 7, 9, 6, 10, 5, 11, 4, 12, 3, 13, 2, 14, 1, 15]

/-- The octet `distance` before the end of what has been produced; zero before its beginning. -/
def lookBack (output : Array UInt8) (distance : Nat) : UInt8 :=
  if distance ≤ output.size then output.getD (output.size - distance) 0 else 0

/-- Repeats octets from `distance` back; the copy may run into itself. -/
def copy (output : Array UInt8) (distance : Nat) : Nat → Array UInt8
  | 0 => output
  | length + 1 => copy (output.push (lookBack output distance)) distance length

/-- A window begins where the output ends. -/
def openWindow (s : Inflater) : Inflater :=
  { s with windowEnd := (s.output.size / windowSize + 1) * windowSize }

/-- More has been produced than the window holds. -/
def overflows (s : Inflater) : Bool := s.windowEnd < s.output.size

def awaitWord (s : Inflater) (use : WordUse) : Inflater :=
  { s with phase := .word use.code.start use }

def awaitNumber (s : Inflater) (bits : Nat) (use : NumberUse) : Inflater :=
  { s with phase := .number bits 0 1 use }

def endBlock (s : Inflater) : Inflater :=
  if s.last then { s with phase := .done } else s.awaitNumber 3 .blockHeader

/-- Behind a code length; `none` if there are too many, or if they make no code. -/
def behindLengths (s : Inflater) (counts : CodeCounts) (code : HuffmanCode) (read : List Nat) :
    Option Inflater :=
  let total := counts.literals + counts.distances
  if read.length < total then some (s.awaitWord (.codeLength counts code read))
  else if read.length = total then
    let lengths := read.reverse
    let codes : BlockCodes :=
      ⟨.ofLengths (lengths.take counts.literals), .ofLengths (lengths.drop counts.literals)⟩
    if codes.literals.isUsable && codes.distances.isUsable then
      some (s.awaitWord (.literal codes))
    else none
  else none

def behindDistance (s : Inflater) (codes : BlockCodes) (length distance : Nat) : Inflater :=
  { s with output := copy s.output distance length }.awaitWord (.literal codes)

/-- Uses a number that has been read; `none` if the stream is broken. -/
def useNumber (s : Inflater) (value : Nat) : NumberUse → Option Inflater
  | .blockHeader =>
    let s := { s with last := value % 2 = 1 }
    match value / 2 with
    | 0 => some { s with phase := .storedLength [] }
    | 1 => some (s.awaitWord (.literal .fixed))
    | 2 => some (s.awaitNumber 14 .codeCounts)
    | _ => none
  | .codeCounts =>
    let counts : CodeCounts := ⟨value % 32 + 257, value / 32 % 32 + 1⟩
    if counts.literals ≤ 286 ∧ counts.distances ≤ 30 then
      some (s.awaitNumber 3 (.metaLength counts (value / 1024 + 3) []))
    else none
  | .metaLength counts left read =>
    let read := value :: read
    match left with
    | left + 1 => some (s.awaitNumber 3 (.metaLength counts left read))
    | 0 =>
      let announced := metaOrder.zip read.reverse
      let code := HuffmanCode.ofLengths ((List.range 19).map fun i => (announced.lookup i).getD 0)
      if code.isComplete then some (s.awaitWord (.codeLength counts code [])) else none
  | .repetition counts code read what =>
    s.behindLengths counts code (List.replicate (what.least + value) what.length ++ read)
  | .copyLength codes base => some (s.awaitWord (.distance codes (base + value)))
  | .copyDistance codes length base => some (s.behindDistance codes length (base + value))

/-- Uses a symbol that has been read; `none` if the stream is broken. -/
def useSymbol (s : Inflater) (symbol : Nat) : WordUse → Option Inflater
  | .codeLength counts code read =>
    let repeated (bits : Nat) (what : Repetition) : Option Inflater :=
      some (s.awaitNumber bits (.repetition counts code read what))
    match symbol with
    | 16 => match read with
      | [] => none
      | length :: _ => repeated 2 ⟨length, 3⟩
    | 17 => repeated 3 ⟨0, 3⟩
    | 18 => repeated 7 ⟨0, 11⟩
    | length => s.behindLengths counts code (length :: read)
  | .literal codes =>
    if symbol < 256 then
      some ({ s with output := s.output.push (UInt8.ofNat symbol) }.awaitWord (.literal codes))
    else if symbol = 256 then some s.endBlock
    else match copyLengths[symbol - 257]? with
      | none => none
      | some (length, 0) => some (s.awaitWord (.distance codes length))
      | some (length, bits) => some (s.awaitNumber bits (.copyLength codes length))
  | .distance codes length =>
    match copyDistances[symbol]? with
    | none => none
    | some (distance, 0) => some (s.behindDistance codes length distance)
    | some (distance, bits) => some (s.awaitNumber bits (.copyDistance codes length distance))

/-- Reads one bit. In a stored block, and behind the last one, what is left of an octet means
nothing. -/
def readBit (s : Inflater) (bit : Bool) : Option Inflater :=
  match s.phase with
  | .number left value weight use =>
    let value := value + weight * bit.toNat
    if left ≤ 1 then s.useNumber value use
    else some { s with phase := .number (left - 1) value (2 * weight) use }
  | .word walk use =>
    match use.code.read walk bit with
    | .symbol symbol => s.useSymbol symbol use
    | .more walk => some { s with phase := .word walk use }
    | .unassigned => none
  | .storedLength _ | .stored _ | .done => some s

/-- Reads bits, and holds back what is left of them when the window overflows. -/
def readBits (s : Inflater) : List Bool → Option Inflater
  | [] => some s
  | bit :: bits =>
    match s.readBit bit with
    | none => none
    | some s => if s.overflows then some { s.openWindow with held := bits } else s.readBits bits

/-- Reads the bits held back. They are fewer than an octet and produce less than a window. -/
def release (s : Inflater) : Option Inflater := s.held.foldlM readBit { s with held := [] }

/-- The bits of an octet, least significant first. -/
def bitsOf (b : UInt8) : List Bool :=
  [b &&& 1 != 0, b &&& 2 != 0, b &&& 4 != 0, b &&& 8 != 0, b &&& 16 != 0, b &&& 32 != 0,
    b &&& 64 != 0, b &&& 128 != 0]

/-- Reads one octet, when nothing is held back; `none` if the stream is broken. -/
def readByte (s : Inflater) (b : UInt8) : Option Inflater :=
  match s.phase with
  | .storedLength read =>
    match read ++ [b] with
    | [low, high, notLow, notHigh] =>
      if notLow = ~~~low ∧ notHigh = ~~~high then
        let length := low.toNat + 256 * high.toNat
        some (if length = 0 then s.endBlock else { s with phase := .stored length })
      else none
    | read => some { s with phase := .storedLength read }
  | .stored left =>
    let s := { s with output := s.output.push b }
    let s := if s.overflows then s.openWindow else s
    some (if left ≤ 1 then s.endBlock else { s with phase := .stored (left - 1) })
  | .done => some s
  | .number .. | .word .. => s.readBits (bitsOf b)

def isDone (s : Inflater) : Bool := s.phase = .done

end Inflater

end CoopHttp
