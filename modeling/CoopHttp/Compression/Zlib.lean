import CoopHttp.Compression.Checksum
import CoopHttp.Compression.Framed

/-!
# Zlib framing

Two octets before a deflate stream, and the Adler-32 checksum of the plain octets behind it. A
stream that is cut short is no error: what could be decoded is what there is.
-/
namespace CoopHttp.Zlib

/-- The first two octets may begin a stream: they are a multiple of 31, no dictionary is preset, and
the method is deflate with a window of at most 32 KiB. -/
def validHead (method flags : UInt8) : Bool :=
  (256 * method.toNat + flags.toNat) % 31 == 0 && flags &&& 32 == 0 && method &&& 15 == 8 &&
    method >>> 4 ≤ 7

def checksum (data : Array UInt8) : Bytes :=
  bigEndian 4 (data.foldl Adler32.step {}).value

/-- Reads the first two octets; the first of them is to be known. -/
def readHead (method : Option UInt8) (b : UInt8) : Except IoError (Option (Option UInt8)) :=
  match method with
  | none => .ok (some (some b))
  | some method => if validHead method b then .ok none else .error .corruptDeflate

/-- Reads the checksum, which is looked at as soon as it is whole. -/
def readTrailer (output : Array UInt8) (read : Bytes) (b : UInt8) : Except IoError Bytes :=
  let read := read ++ [b]
  if read.length < 4 then .ok read
  else if read.length = 4 then
    if read = checksum output then .ok read else .error .corruptDeflate
  else .error .afterEnd

def framing : Framing (Option UInt8) where
  head := [0x78, 0x01]
  trailer := checksum
  start := none
  readHead := readHead
  readTrailer := readTrailer
  checkEnd _ _ := .ok ()

end CoopHttp.Zlib
