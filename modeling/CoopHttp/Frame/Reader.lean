import CoopHttp.Crash
import CoopHttp.Frame.Terminator
import CoopHttp.Head.Decode
import CoopHttp.Payload.Decoder
import CoopHttp.Payload.Gathered

/-!
# Frame reader

Collects the octets of a connection and cuts requests out of them: first the end of the head is
searched for, then the head is read, then the payload is decoded into a body of bounded size. What
follows a request stays in the buffer for the next one.

The reader never fetches octets itself. An operation that needs more says so, and is taken up again
after the buffer has been extended.
-/
namespace CoopHttp

structure FrameReader where
  /-- Octets that belong to no head or body yet. -/
  buffer : Bytes := []
  /-- The octets of the buffer that the matcher has read. -/
  scanned : Nat := 0
  matcher : Terminator := .start
  ending : Option HeadEnd := none
  head : Option RequestHead := none
  payload : Option PayloadSize := none
  /-- What has been decoded of the payload. -/
  gathered : Gathered := {}
  /-- The payload has been decoded to its end. -/
  bodyDone : Bool := false
  trailers : Fields := .empty
  /-- The longest body. -/
  maxBody : Nat
  deriving DecidableEq

namespace FrameReader

def defaultMaxBody : Nat := 8 * 1024 * 1024

/-- A reader for bodies of at most `maxBody` octets. -/
def withMaxBody (maxBody : Nat) : FrameReader := { maxBody }

/-- A reader with the usual limit. -/
def fresh : FrameReader := withMaxBody defaultMaxBody

/-- The body as far as it has been decoded. -/
def body (r : FrameReader) : Bytes := r.gathered.bytes

def extend (r : FrameReader) (bytes : Bytes) : FrameReader := { r with buffer := r.buffer ++ bytes }

/-- Searches for the end of the head in the octets not yet read; an end once found stays. -/
def findEnd (r : FrameReader) : FrameReader × Option HeadEnd :=
  match r.ending with
  | some e => (r, some e)
  | none =>
    let (matcher, n, found) := r.matcher.run (r.buffer.drop r.scanned)
    let scanned := r.scanned + n
    let ending := found.map fun length => ⟨scanned - length, length⟩
    ({ r with matcher, scanned, ending }, ending)

theorem buffer_findEnd (r : FrameReader) : r.findEnd.1.buffer = r.buffer := by
  unfold findEnd; split <;> rfl

theorem payload_findEnd (r : FrameReader) : r.findEnd.1.payload = r.payload := by
  unfold findEnd; split <;> rfl

/-- What an operation that may need more octets comes to. -/
inductive Progress (α : Type)
  | done (value : α)
  | starved
  deriving DecidableEq

/-- Looks for a complete head: found, refused because the buffer is full without one, or starved. -/
def seekHead (r : FrameReader) : FrameReader × Progress (Except ParseError Bool) :=
  match r.findEnd with
  | (r, some _) => (r, .done (.ok true))
  | (r, none) =>
    if r.buffer.length < maxHeadBytes then (r, .starved)
    else (r, .done (.error (.tooLargeHeader r.buffer.length maxHeadBytes)))

theorem seekHead_fst (r : FrameReader) : r.seekHead.1 = r.findEnd.1 := by
  unfold seekHead
  split
  · simp_all
  · split <;> simp_all

/-- What a search for a head comes to when no more octets will come: nothing to read if none did,
an error if a head was begun. -/
def headAtEnd (r : FrameReader) : Except ParseError Bool :=
  if r.buffer = [] then .ok false else .error .closed

/-- Cuts `n` octets off the front of the buffer, which must hold them. -/
def cut (r : FrameReader) (n : Nat) : Except Crash (Bytes × FrameReader) :=
  if n ≤ r.buffer.length then .ok (r.buffer.take n, { r with buffer := r.buffer.drop n })
  else .error .beyondBuffer

/-- Reads a head that has been cut off. -/
def readHead (r : FrameReader) (bytes : Bytes) : FrameReader × Except ParseError Nat :=
  match (RequestHead.decode bytes).result with
  | .error error => (r, .error error)
  | .ok none => (r, .error (.invalidHeader .incompleteHead))
  | .ok (some (head, size)) =>
    ({ r with head := some head, payload := some size }, .ok size.contentLength)

theorem buffer_readHead (r : FrameReader) (bytes : Bytes) :
    (r.readHead bytes).1.buffer = r.buffer := by
  unfold readHead; split <;> rfl

/-- Reads the head and answers the declared length; asked again, it answers the same. -/
def parseHead (r : FrameReader) : Except Crash (FrameReader × Except ParseError Nat) :=
  match r.payload with
  | some size => .ok (r, .ok size.contentLength)
  | none =>
    match r.findEnd with
    | (r, none) => .ok (r, .error (.invalidHeader .unterminated))
    | (r, some e) => (r.cut e.bodyStart).map fun (bytes, r) => r.readHead bytes

/-- Refuses a body longer than the limit. -/
def checkSize (r : FrameReader) (size : Nat) : Except ParseError Unit :=
  if size ≤ r.maxBody then .ok () else .error (.tooLargeBody size r.maxBody)

/-- Reads a trailer section: field lines, closed here by the empty line that the payload decoder
has taken away. -/
def readTrailers (raw : Bytes) : Except ParseError Fields :=
  match Grammar.fieldLines Grammar.maxFields (raw ++ Bytes.crlf) with
  | .bad error => .error error
  | .more => .error (.invalidHeader .incompleteTrailers)
  | .done lines _ => Fields.ofLines lines

/-- Closes a body that has been decoded to its end. -/
def finishBody (r : FrameReader) (trailer : Bytes) : FrameReader × Except ParseError Unit :=
  if trailer = [] then ({ r with bodyDone := true }, .ok ())
  else match readTrailers trailer with
    | .error error => (r, .error error)
    | .ok trailers => ({ r with bodyDone := true, trailers }, .ok ())

/-- Decodes what the buffer holds of the body. -/
def drain (d : PayloadDecoder) (r : FrameReader) :
    PayloadDecoder × FrameReader × Progress (Except ParseError Unit) :=
  match _h : d.decode r.buffer with
  | (d', buffer, .error error) => (d', { r with buffer }, .done (.error error))
  | (d', buffer, .ok none) => (d', { r with buffer }, .starved)
  | (d', buffer, .ok (some .eof)) =>
    let (r, result) := finishBody { r with buffer } d'.trailer
    (d', r, .done result)
  | (d', buffer, .ok (some (.chunk piece))) =>
    let gathered := r.gathered.add piece
    match r.checkSize gathered.size with
    | .error error => (d', { r with buffer }, .done (.error error))
    | .ok () => drain d' { r with buffer, gathered }
termination_by r.buffer.length
decreasing_by exact PayloadDecoder.decode_rest_lt _h

theorem buffer_finishBody (r : FrameReader) (trailer : Bytes) :
    (r.finishBody trailer).1.buffer = r.buffer := by
  unfold finishBody
  split
  · rfl
  · split <;> rfl

/-- Decoding takes octets off the buffer and puts none there. -/
theorem length_buffer_drain (d : PayloadDecoder) (r : FrameReader) :
    (drain d r).2.1.buffer.length ≤ r.buffer.length := by
  fun_induction drain d r with
  | case1 d r d' buffer error h | case2 d r d' buffer h | case4 d r d' buffer piece h gathered error =>
    have hle := PayloadDecoder.decode_rest_le d r.buffer
    rwa [h] at hle
  | case3 d r d' buffer h s result hfinish =>
    have hle := PayloadDecoder.decode_rest_le d r.buffer
    have hs := buffer_finishBody { r with buffer } d'.trailer
    rw [h] at hle
    rw [hfinish] at hs
    exact hs ▸ hle
  | case5 d r d' buffer piece h gathered hsize ih =>
    exact Nat.le_trans ih (Nat.le_of_lt (PayloadDecoder.decode_rest_lt h))

/-- What decoding a body comes to when no more octets will come. -/
def bodyAtEnd : Except ParseError Unit := .error (.invalidBody .closed)

def takeHead (r : FrameReader) : FrameReader × Option RequestHead := ({ r with head := none }, r.head)

def takeBody (r : FrameReader) : FrameReader × Bytes := ({ r with gathered := {} }, r.body)

def takeTrailers (r : FrameReader) : FrameReader × Fields :=
  ({ r with trailers := .empty }, r.trailers)

/-- Forgets the current request; the buffer and the limit stay. -/
def clear (r : FrameReader) : FrameReader :=
  { r with
    scanned := 0
    matcher := .start
    ending := none
    head := none
    payload := none
    gathered := {}
    bodyDone := false
    trailers := .empty }

/-- Forgets the current request and discards every octet. -/
def reset (r : FrameReader) : FrameReader := { r.clear with buffer := [] }

/-- Goes on to the next request. A head that was found but not read is skipped; a payload that was
announced but not decoded has no known end, and everything goes with it. -/
def nextFrame (r : FrameReader) : Except Crash FrameReader :=
  match r.payload, r.ending with
  | none, some e => (r.cut e.bodyStart).map fun (_, r) => r.clear
  | none, none => .ok r.reset
  | some size, _ => .ok (if !r.bodyDone && !size.isEmpty then r.reset else r.clear)

end FrameReader

end CoopHttp
