import CoopHttp.Compression.Gzip
import CoopHttp.Compression.Zlib

/-!
# Codecs

A codec is fed piece by piece in one of four modes. What it has produced so far can be taken at any
time; `finish` ends the stream and hands out the rest. How octets are packed is up to a library,
which writes to the codec when it likes.
-/
namespace CoopHttp

inductive CodecMode
  /-- Compresses in zlib framing. -/
  | compress
  /-- Decodes zlib framing. -/
  | decompress
  /-- Compresses in gzip framing. -/
  | gzip
  /-- Decodes gzip framing. -/
  | gunzip
  deriving DecidableEq, Repr

namespace CodecMode

def name : CodecMode → String
  | compress => "Compress"
  | decompress => "Decompress"
  | gzip => "Gzip"
  | gunzip => "Gunzip"

end CodecMode

/-- A library that packs and unpacks streams. -/
structure DeflateLibrary where
  Stream : Type
  start : CodecMode → Stream
  /-- Reads a piece of the input; the second component is what is written meanwhile. -/
  feed : Stream → Bytes → Except IoError (Stream × Bytes)
  /-- The input ends; what is still to be written comes out. -/
  finish : Stream → Except IoError Bytes

/-- A stream of the library that packs nothing: it writes literal streams only. -/
inductive CodecState
  | zlib (stream : FramedStream (Option UInt8))
  | gzip (stream : FramedStream GzipHead)
  deriving DecidableEq, Repr

namespace CodecState

def start : CodecMode → CodecState
  | .compress => zlib (.pack Zlib.framing)
  | .decompress => zlib (.unpack Zlib.framing)
  | .gzip => gzip (.pack Gzip.framing)
  | .gunzip => gzip (.unpack Gzip.framing)

def output : CodecState → Array UInt8
  | zlib stream => stream.output
  | gzip stream => stream.output

def feed : CodecState → Bytes → Except IoError CodecState
  | zlib stream, data => (stream.feed Zlib.framing data).map zlib
  | gzip stream, data => (stream.feed Gzip.framing data).map gzip

/-- Everything produced, at the end of the input. -/
def finish : CodecState → Except IoError (Array UInt8)
  | zlib stream => stream.finish Zlib.framing
  | gzip stream => stream.finish Gzip.framing

end CodecState

namespace DeflateLibrary

/-- The library that packs nothing. With a stream goes how much of its output has been written. -/
def literal : DeflateLibrary where
  Stream := CodecState × Nat
  start mode := (.start mode, 0)
  feed
    | (state, written), data => (state.feed data).map fun state =>
      let size := state.output.size
      let out := (state.output.extract written size).toList
      ((state, size), out)
  finish
    | (state, written) => state.finish.map fun output =>
      (output.extract written output.size).toList

end DeflateLibrary

structure Codec (L : DeflateLibrary := .literal) where
  mode : CodecMode
  stream : L.Stream
  /-- The number of octets read. -/
  totalIn : Nat := 0
  /-- The output that has not been taken. -/
  held : Bytes := []

namespace Codec

variable {L : DeflateLibrary}

def start (mode : CodecMode) : Codec L := { mode, stream := L.start mode }

def write (c : Codec L) (data : Bytes) : Except IoError (Codec L) :=
  match c with
  | { mode, stream, totalIn, held } => (L.feed stream data).map fun (stream, out) =>
    { mode, stream, totalIn := totalIn + data.length, held := held ++ out }

/-- Hands out the output that has not been taken yet. -/
def take (c : Codec L) : Codec L × Bytes := ({ c with held := [] }, c.held)

/-- Ends the stream and hands out the rest of the output. -/
def finish (c : Codec L) : Except IoError Bytes := (L.finish c.stream).map (c.held ++ ·)

def render (c : Codec L) : String :=
  "Zlib \x7b mode: " ++ c.mode.name ++ ", total_in: " ++ toString c.totalIn ++ ", .. \x7d"

/-- Feeds pieces to a codec and collects its output. -/
def run (c : Codec L) (pieces : List Bytes) : Except IoError Bytes :=
  match pieces with
  | [] => c.finish
  | piece :: pieces =>
    match c.write piece with
    | .error error => .error error
    | .ok c =>
      let (c, out) := c.take
      (c.run pieces).map (out ++ ·)

end Codec

def maxPiece : Nat := 16384

/-- Cuts octets into pieces of `size` octets, the last one perhaps shorter. -/
def piecesOf (size : Nat) (size_pos : 0 < size) (data : Bytes) : List Bytes :=
  if _h : data = [] then []
  else data.take size :: piecesOf size size_pos (data.drop size)
termination_by data.length
decreasing_by
  have := List.length_pos_iff.2 _h
  simp only [List.length_drop]
  omega

/-- What a codec produces from a whole input. -/
def transcode (mode : CodecMode) (input : Bytes) (L : DeflateLibrary := .literal) :
    Except IoError Bytes :=
  (Codec.start mode : Codec L).run (piecesOf maxPiece (by decide) input)

end CoopHttp
