import CoopHttp.Compression.Inflate
import CoopHttp.Compression.Literal
import CoopHttp.Message.Error

/-!
# Framed streams

A deflate stream stands between a head and a trailer. A framing says what these are and how they are
read. What lies between them is written and read in the same way, whatever the framing is.
-/
namespace CoopHttp

/-- Where the decoder of a framed stream stands; `χ` is what it knows of a head that goes on. -/
inductive FramePhase (χ : Type)
  | head (known : χ)
  | body
  | trailer (read : Bytes)
  deriving DecidableEq, Repr

structure Framing (χ : Type) where
  /-- The octets that are written before a stream. -/
  head : Bytes
  /-- The octets that are written behind the stream of some octets. -/
  trailer : Array UInt8 → Bytes
  /-- What is known of a head before its first octet. -/
  start : χ
  /-- Reads one octet of the head, which goes on if something is to be known of it. -/
  readHead : χ → UInt8 → Except IoError (Option χ)
  /-- Reads one octet behind the stream of some octets. -/
  readTrailer : Array UInt8 → Bytes → UInt8 → Except IoError Bytes
  /-- The input ends here. -/
  checkEnd : FramePhase χ → Array UInt8 → Except IoError Unit

structure FramedDecoder (χ : Type) where
  phase : FramePhase χ
  inflater : Inflater := {}
  deriving DecidableEq, Repr

namespace FramedDecoder

variable {χ : Type}

/-- Goes on in the body, or behind it when the stream has come to its end. -/
def inBody (inflater : Inflater) : FramedDecoder χ :=
  { phase := if inflater.isDone then .trailer [] else .body, inflater }

/-- Reads what is held back of the last octet. -/
def release (d : FramedDecoder χ) : Option (FramedDecoder χ) :=
  if d.inflater.held.isEmpty then some d else d.inflater.release.map inBody

/-- Reads one octet, when nothing is held back. -/
def step (F : Framing χ) (d : FramedDecoder χ) (b : UInt8) : Except IoError (FramedDecoder χ) :=
  match d.phase with
  | .head known => (F.readHead known b).map fun
    | none => { d with phase := .body }
    | some known => { d with phase := .head known }
  | .body =>
    match d.inflater.readByte b with
    | none => .error .corruptDeflate
    | some inflater => .ok (inBody inflater)
  | .trailer read =>
    (F.readTrailer d.inflater.output read b).map fun read => { d with phase := .trailer read }

def readByte (F : Framing χ) (d : FramedDecoder χ) (b : UInt8) :
    Except IoError (FramedDecoder χ) :=
  match d.release with
  | none => .error .corruptDeflate
  | some d => d.step F b

def feed (F : Framing χ) (d : FramedDecoder χ) (piece : Bytes) :
    Except IoError (FramedDecoder χ) :=
  if piece.isEmpty then .ok d
  else piece.foldlM (readByte F) { d with inflater := d.inflater.openWindow }

/-- The input ends here. There may be a fault in what is held back. -/
def finish (F : Framing χ) (d : FramedDecoder χ) : Except IoError (Array UInt8) :=
  match d.release with
  | none => .error .brokenDeflate
  | some d => (F.checkEnd d.phase d.inflater.output).map fun _ => d.inflater.output

end FramedDecoder

/-- A framed stream that is written or read. The writer keeps its input. -/
inductive FramedStream (χ : Type)
  | packing (input : Array UInt8) (writer : BitWriter)
  | unpacking (decoder : FramedDecoder χ)
  deriving DecidableEq, Repr

namespace FramedStream

variable {χ : Type}

def pack (F : Framing χ) : FramedStream χ := packing #[] (Literal.openStream F.head)

def unpack (F : Framing χ) : FramedStream χ := unpacking { phase := .head F.start }

def output : FramedStream χ → Array UInt8
  | packing _ writer => writer.output
  | unpacking decoder => decoder.inflater.output

def feed (F : Framing χ) : FramedStream χ → Bytes → Except IoError (FramedStream χ)
  | packing input writer, data =>
    .ok (packing (input ++ data.toArray) (Literal.writeAll writer data))
  | unpacking decoder, data => (decoder.feed F data).map unpacking

/-- Everything produced, at the end of the input. -/
def finish (F : Framing χ) : FramedStream χ → Except IoError (Array UInt8)
  | packing input writer => .ok (Literal.closeStream writer (F.trailer input))
  | unpacking decoder => decoder.finish F

end FramedStream

end CoopHttp
