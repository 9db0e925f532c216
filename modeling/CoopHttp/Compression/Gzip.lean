import CoopHttp.Compression.Checksum
import CoopHttp.Compression.Framed

/-!
# Gzip framing

A head with optional parts before a deflate stream, and the CRC-32 checksum and the length of the
plain octets behind it. A stream that is cut short is an error.
-/
namespace CoopHttp

/-- The optional parts of a head, as its flags announce them. -/
structure GzipParts where
  extra : Bool
  name : Bool
  comment : Bool
  checksum : Bool
  deriving DecidableEq, Repr

inductive GzipPlace
  /-- In the first ten octets. -/
  | fixed (read : Bytes)
  /-- In the length of the extra part. -/
  | extraLength (parts : GzipParts) (read : Bytes)
  /-- In the extra part, before so many octets. -/
  | extra (parts : GzipParts) (left : Nat)
  /-- In the name, behind so many octets. -/
  | name (parts : GzipParts) (length : Nat)
  /-- In the comment, behind so many octets. -/
  | comment (parts : GzipParts) (length : Nat)
  /-- In the checksum of the head. -/
  | checksum (read : Bytes)
  deriving DecidableEq, Repr

structure GzipHead where
  place : GzipPlace
  /-- The checksum of the head so far. -/
  sum : Crc32 := {}
  deriving DecidableEq, Repr

namespace GzipPlace

/-- Behind the comment; there may be nothing more. -/
def afterComment (parts : GzipParts) : Option GzipPlace :=
  if parts.checksum then some (checksum []) else none

def afterName (parts : GzipParts) : Option GzipPlace :=
  if parts.comment then some (comment parts 0) else afterComment parts

def afterExtra (parts : GzipParts) : Option GzipPlace :=
  if parts.name then some (name parts 0) else afterName parts

end GzipPlace

namespace Gzip

/-- The longest name and the longest comment. -/
def maxText : Nat := 65535

/-- The checksum and the length of octets. -/
def trailer (data : Array UInt8) : Bytes :=
  littleEndian 4 (data.foldl Crc32.step {}).value ++ littleEndian 4 data.size

/-- Behind the first ten octets, if they may begin a stream. -/
def afterFixed (read : Bytes) : Except IoError (Option GzipPlace) :=
  match read with
  | 0x1f :: 0x8b :: 8 :: flags :: _ =>
    if flags &&& 0xe0 = 0 then
      let flag (mask : UInt8) : Bool := flags &&& mask != 0
      let parts : GzipParts := ⟨flag 4, flag 8, flag 16, flag 2⟩
      .ok (if parts.extra then some (.extraLength parts []) else GzipPlace.afterExtra parts)
    else .error .invalidGzipHeader
  | _ => .error .invalidGzipHeader

/-- Reads one octet of the name or the comment, which a zero ends. -/
def readText (b : UInt8) (length : Nat) (again : Nat → GzipPlace) (next : Option GzipPlace) :
    Except IoError (Option GzipPlace) :=
  if b = 0 then .ok next
  else if length < maxText then .ok (some (again (length + 1)))
  else .error .gzipFieldTooLong

/-- Reads one octet of a head whose checksum is `sum`. -/
def readPlace (sum : Crc32) (place : GzipPlace) (b : UInt8) : Except IoError (Option GzipPlace) :=
  match place with
  | .fixed read =>
    let read := read ++ [b]
    if read.length < 10 then .ok (some (.fixed read)) else afterFixed read
  | .extraLength parts [] => .ok (some (.extraLength parts [b]))
  | .extraLength parts (low :: _) =>
    let left := low.toNat + 256 * b.toNat
    .ok (if left = 0 then GzipPlace.afterExtra parts else some (.extra parts left))
  | .extra parts left =>
    .ok (if left ≤ 1 then GzipPlace.afterExtra parts else some (.extra parts (left - 1)))
  | .name parts length => readText b length (.name parts) (GzipPlace.afterName parts)
  | .comment parts length => readText b length (.comment parts) (GzipPlace.afterComment parts)
  | .checksum [] => .ok (some (.checksum [b]))
  | .checksum (low :: _) =>
    if [low, b] = littleEndian 2 sum.value then .ok none else .error .corruptGzip

/-- Reads one octet of the head. The checksum in it does not count in itself. -/
def readHead (head : GzipHead) (b : UInt8) : Except IoError (Option GzipHead) :=
  let sum := match head.place with
    | .checksum _ => head.sum
    | _ => head.sum.step b
  (readPlace head.sum head.place b).map fun place => place.map (⟨·, sum⟩)

/-- Reads the checksum and the length, which are looked at when the input ends. -/
def readTrailer (read : Bytes) (b : UInt8) : Except IoError Bytes :=
  if read.length < 8 then .ok (read ++ [b]) else .error .afterEnd

/-- All of the stream must have come, with the right checksum and length. -/
def checkEnd (phase : FramePhase GzipHead) (output : Array UInt8) : Except IoError Unit :=
  match phase with
  | .trailer read => if read = trailer output then .ok () else .error .corruptGzip
  | _ => .error .corruptGzip

/-- The head that is written has no optional part and no time, and names the fastest compression and
an unknown system. -/
def framing : Framing GzipHead where
  head := [0x1f, 0x8b, 8, 0, 0, 0, 0, 0, 4, 255]
  trailer := trailer
  start := { place := .fixed [] }
  readHead := readHead
  readTrailer _ := readTrailer
  checkEnd := checkEnd

end Gzip

end CoopHttp
