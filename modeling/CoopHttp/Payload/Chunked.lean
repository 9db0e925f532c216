import CoopHttp.Message.Error
import CoopHttp.Payload.Size

/-!
# Chunked payloads

A chunked payload is a series of size lines, each followed by that many octets and a line break,
closed by a size line of zero, trailer lines and an empty line. A line break is CR LF or LF alone.
The decoder remembers how much of a pending line it has searched, so an octet of a line that
arrives in pieces is looked at once.
-/
namespace CoopHttp

inductive ChunkPhase
  /-- Before a size line. -/
  | size
  /-- In the octets of a chunk, so many still to come. -/
  | data (remaining : Nat) (remaining_pos : 0 < remaining)
  /-- Before the line break that closes a chunk. -/
  | dataEnd
  /-- In the trailer lines. -/
  | trailer
  | done
  deriving DecidableEq, Repr

structure ChunkedDecoder where
  phase : ChunkPhase := .size
  /-- The octets of the pending line that are known to hold no line feed. -/
  scanned : Nat := 0
  /-- The trailer lines read so far, line breaks included. -/
  trailer : Bytes := []
  deriving DecidableEq, Repr

namespace ChunkedDecoder

/-- The longest size line, extensions and line break included. -/
def maxSizeLine : Nat := 1024

def maxTrailer : Nat := 8192

/-- The length of the pending line if its line feed has arrived. -/
def lineEnd? (d : ChunkedDecoder) (src : Bytes) : Option Nat :=
  (Bytes.lineLength? (src.drop d.scanned)).map (d.scanned + ·)

/-- A size line without its line break and its extension, blanks at the end removed. -/
def sizeDigits (line : Bytes) : Bytes :=
  let line := if line.getLast? = some Bytes.lf then line.dropLast else line
  let line := if line.getLast? = some Bytes.cr then line.dropLast else line
  Bytes.trimEnd (line.takeWhile (· != 59))

/-- The value of hexadecimal digits, if it is below 2^64. -/
def hexValue? (digits : Bytes) : Option Nat :=
  digits.foldl (fun value b =>
    value.bind fun v => (Bytes.hexValue? b).bind fun d =>
      if v * 16 + d < UInt64.size then some (v * 16 + d) else none) (some 0)

def parseSize (line : Bytes) : Except ParseError Nat :=
  let digits := sizeDigits line
  if digits = [] then .error (.invalidBody .missingSize)
  else match hexValue? digits with
    | none => .error (.invalidBody .invalidSize)
    | some n => .ok n

def afterSize (size : Nat) : ChunkPhase :=
  if h : 0 < size then .data size h else .trailer

def afterData (remaining : Nat) : ChunkPhase :=
  if h : 0 < remaining then .data remaining h else .dataEnd

/-- What one step of the decoder comes to: it moved on, it has a piece or the end to hand out, it
waits for more, or the payload is broken. -/
inductive Step
  | moved
  | item (item : PayloadItem)
  | waits
  | bad (error : ParseError)
  deriving DecidableEq, Repr

/-- Notes that no line feed has arrived. The line is refused once it cannot end within `limit`
octets, those `held` from earlier lines included. -/
def waitForLine (d : ChunkedDecoder) (src : Bytes) (held limit : Nat) (error : Nat → ParseError) :
    ChunkedDecoder × Bytes × Step :=
  ({ d with scanned := src.length }, src,
    if held + src.length ≤ limit then .waits else .bad (error (held + src.length)))

def stepSize (d : ChunkedDecoder) (src : Bytes) : ChunkedDecoder × Bytes × Step :=
  match d.lineEnd? src with
  | none => d.waitForLine src 0 maxSizeLine fun _ => .invalidBody .sizeLineTooLong
  | some n =>
    if n ≤ maxSizeLine then
      match parseSize (src.take n) with
      | .error error => ({ d with scanned := 0 }, src.drop n, .bad error)
      | .ok size => ({ d with scanned := 0, phase := afterSize size }, src.drop n, .moved)
    else ({ d with scanned := 0 }, src.drop n, .bad (.invalidBody .sizeLineTooLong))

/-- Takes what the buffer holds of a chunk. -/
def stepData (d : ChunkedDecoder) (remaining : Nat) (src : Bytes) :
    ChunkedDecoder × Bytes × Step :=
  if src = [] then (d, src, .waits)
  else
    let piece := src.take remaining
    ({ d with phase := afterData (remaining - piece.length) }, src.drop remaining,
      .item (.chunk piece))

/-- Reads the line break that closes a chunk. -/
def stepDataEnd (d : ChunkedDecoder) (src : Bytes) : ChunkedDecoder × Bytes × Step :=
  match src with
  | [] => (d, src, .waits)
  | b :: rest =>
    if b = Bytes.lf then ({ d with phase := .size }, rest, .moved)
    else if b = Bytes.cr then
      match rest with
      | [] => (d, src, .waits)
      | c :: rest =>
        if c = Bytes.lf then ({ d with phase := .size }, rest, .moved)
        else (d, src, .bad (.invalidBody .missingLineBreak))
    else (d, src, .bad (.invalidBody .missingLineBreak))

/-- Reads a trailer line, or the empty line that ends the payload. -/
def stepTrailer (d : ChunkedDecoder) (src : Bytes) : ChunkedDecoder × Bytes × Step :=
  match d.lineEnd? src with
  | none =>
    d.waitForLine src d.trailer.length maxTrailer fun size => .tooLargeHeader size maxTrailer
  | some n =>
    if src.take n = [Bytes.lf] ∨ src.take n = Bytes.crlf then
      ({ d with scanned := 0, phase := .done }, src.drop n, .moved)
    else if d.trailer.length + n ≤ maxTrailer then
      ({ d with scanned := 0, trailer := d.trailer ++ src.take n }, src.drop n, .moved)
    else
      ({ d with scanned := 0 }, src.drop n,
        .bad (.tooLargeHeader (d.trailer.length + n) maxTrailer))

def step (d : ChunkedDecoder) (src : Bytes) : ChunkedDecoder × Bytes × Step :=
  match d.phase with
  | .size => d.stepSize src
  | .data remaining _ => d.stepData remaining src
  | .dataEnd => d.stepDataEnd src
  | .trailer => d.stepTrailer src
  | .done => (d, src, .item .eof)

theorem lineLength?_pos {s : Bytes} {n : Nat} (h : Bytes.lineLength? s = some n) :
    0 < n ∧ n ≤ s.length := by
  induction s generalizing n with
  | nil => simp [Bytes.lineLength?] at h
  | cons b rest ih =>
    unfold Bytes.lineLength? at h
    split at h
    · simp only [Option.some.injEq] at h
      subst h
      simp
    · simp only [Option.map_eq_some_iff] at h
      obtain ⟨m, hm, rfl⟩ := h
      have := ih hm
      simp only [List.length_cons]
      omega

theorem lineEnd?_pos {d : ChunkedDecoder} {src : Bytes} {n : Nat} (h : d.lineEnd? src = some n) :
    0 < n ∧ n ≤ src.length := by
  simp only [lineEnd?, Option.map_eq_some_iff] at h
  obtain ⟨m, hm, rfl⟩ := h
  have := lineLength?_pos hm
  simp only [List.length_drop] at this
  omega

/-- The step got on: it moved to another line or handed out a piece. -/
def Step.progresses : Step → Bool
  | .moved | .item (.chunk _) => true
  | _ => false

theorem stepSize_rest_lt (d : ChunkedDecoder) (src : Bytes)
    (h : (d.stepSize src).2.2.progresses = true) : (d.stepSize src).2.1.length < src.length := by
  unfold stepSize waitForLine at *
  cases hn : d.lineEnd? src with
  | none => simp only [hn] at h; split at h <;> simp [Step.progresses] at h
  | some n =>
    have := lineEnd?_pos hn
    simp only [hn] at h ⊢
    split at h
    · split at h
      · simp [Step.progresses] at h
      · simp_all; omega
    · simp [Step.progresses] at h

theorem stepData_rest_lt (d : ChunkedDecoder) (remaining : Nat) (hpos : 0 < remaining) (src : Bytes)
    (h : (d.stepData remaining src).2.2.progresses = true) :
    (d.stepData remaining src).2.1.length < src.length := by
  unfold stepData at *
  split at h
  · simp [Step.progresses] at h
  · rename_i hs
    have := List.length_pos_iff.2 hs
    simp only [hs, ↓reduceIte, List.length_drop]
    omega

theorem stepDataEnd_rest_lt (d : ChunkedDecoder) (src : Bytes)
    (h : (d.stepDataEnd src).2.2.progresses = true) :
    (d.stepDataEnd src).2.1.length < src.length := by
  unfold stepDataEnd at *
  repeat' split at h
  all_goals simp_all [Step.progresses, Nat.add_assoc]

theorem stepTrailer_rest_lt (d : ChunkedDecoder) (src : Bytes)
    (h : (d.stepTrailer src).2.2.progresses = true) :
    (d.stepTrailer src).2.1.length < src.length := by
  unfold stepTrailer waitForLine at *
  cases hn : d.lineEnd? src with
  | none => simp only [hn] at h; split at h <;> simp [Step.progresses] at h
  | some n =>
    have := lineEnd?_pos hn
    simp only [hn] at h ⊢
    split at h
    · simp_all; omega
    · split at h
      · simp_all; omega
      · simp [Step.progresses] at h

/-- A step that gets on takes octets off the buffer. -/
theorem step_rest_lt (d : ChunkedDecoder) (src : Bytes)
    (h : (d.step src).2.2.progresses = true) : (d.step src).2.1.length < src.length := by
  unfold step at *
  split at h
  · exact stepSize_rest_lt d src h
  · exact stepData_rest_lt d _ (by assumption) src h
  · exact stepDataEnd_rest_lt d src h
  · exact stepTrailer_rest_lt d src h
  · simp [Step.progresses] at h

/-- Takes the next piece or the end off the front of a buffer; `none` while nothing more can be
told from what the buffer holds. -/
def decode (d : ChunkedDecoder) (src : Bytes) :
    ChunkedDecoder × Bytes × Except ParseError (Option PayloadItem) :=
  match _h : d.step src with
  | (d', rest, .moved) => decode d' rest
  | (d, rest, .item item) => (d, rest, .ok (some item))
  | (d, rest, .waits) => (d, rest, .ok none)
  | (d, rest, .bad error) => (d, rest, .error error)
termination_by src.length
decreasing_by
  have h := step_rest_lt d src (by rw [_h]; rfl)
  rwa [_h] at h

/-- A piece that is handed out was taken off the buffer. -/
theorem decode_rest_lt {d d' : ChunkedDecoder} {src rest piece : Bytes}
    (h : d.decode src = (d', rest, .ok (some (.chunk piece)))) : rest.length < src.length := by
  induction hn : src.length using Nat.strongRecOn generalizing d src with
  | ind n ih =>
    subst hn
    rw [decode] at h
    split at h
    · rename_i hstep
      have hlt := step_rest_lt d src (by rw [hstep]; rfl)
      rw [hstep] at hlt
      exact Nat.lt_trans (ih _ hlt h rfl) hlt
    · rename_i hstep
      simp only [Prod.mk.injEq, Except.ok.injEq, Option.some.injEq] at h
      obtain ⟨rfl, rfl, rfl⟩ := h
      have hlt := step_rest_lt d src (by rw [hstep]; rfl)
      rwa [hstep] at hlt
    · simp at h
    · simp at h

theorem step_rest_le (d : ChunkedDecoder) (src : Bytes) :
    (d.step src).2.1.length ≤ src.length := by
  unfold step
  split
  · unfold stepSize waitForLine; repeat' split
    all_goals simp
  · unfold stepData; split <;> simp
  · unfold stepDataEnd; repeat' split
    all_goals simp
    all_goals omega
  · unfold stepTrailer waitForLine; repeat' split
    all_goals simp
  · simp

theorem decode_rest_le (d : ChunkedDecoder) (src : Bytes) :
    (d.decode src).2.1.length ≤ src.length := by
  fun_induction decode d src with
  | case1 d src d' rest h ih =>
    have hle := step_rest_le d src
    rw [h] at hle
    exact Nat.le_trans ih hle
  | case2 d src d' rest item h | case3 d src d' rest h | case4 d src d' rest error h =>
    have hle := step_rest_le d src
    rwa [h] at hle

end ChunkedDecoder

end CoopHttp
