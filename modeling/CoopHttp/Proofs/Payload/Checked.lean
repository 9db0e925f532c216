import CoopHttp.Payload.Decoder
import CoopHttp.Proofs.Except

/-!
# Payload decoders that check every cut

A payload decoder takes octets off a buffer by operations that cannot fail. What it asks for is a cut
at a position, and a position might lie behind the end. Here every cut is checked, and every
subtraction. No check ever fails, whatever the decoder has come to and whatever the buffer holds.
-/
namespace CoopHttp

/-- What must not happen while a connection is served. -/
inductive Breach
  /-- A cut behind the end of a buffer. -/
  | beyondBuffer
  /-- More is taken from a number than there is. -/
  | belowZero
  /-- A head is to be read, and its end has not been found. -/
  | headNotFound
  /-- A payload is to be read, and its head has not been. -/
  | headNotRead
  /-- The next request is turned to before the payload of the last one has been read to its end. -/
  | payloadNotRead
  /-- A response goes to the encoder with a version other than 1.0 and 1.1. -/
  | unwrittenVersion
  /-- The encoder refuses a response. -/
  | notEncoded
  deriving DecidableEq, Repr

/-- A computation that the first breach stops. -/
abbrev Checked (α : Type) := Except Breach α

/-- Cuts a string in two. -/
def Bytes.cutAt (s : Bytes) (n : ℕ) : Checked (Bytes × Bytes) :=
  if n ≤ s.length then .ok (s.take n, s.drop n) else .error .beyondBuffer

theorem Bytes.cutAt_of_le {s : Bytes} {n : ℕ} (h : n ≤ s.length) :
    s.cutAt n = .ok (s.take n, s.drop n) :=
  if_pos h

theorem Bytes.cutAt_min (s : Bytes) (n : ℕ) :
    s.cutAt (min n s.length) = .ok (s.take n, s.drop n) := by
  rw [cutAt_of_le (Nat.min_le_right _ _)]
  obtain hle | hle := Nat.le_total n s.length
  · rw [Nat.min_eq_left hle]
  · rw [Nat.min_eq_right hle, List.take_length, List.drop_length, List.take_of_length_le hle,
      List.drop_of_length_le hle]

/-- Takes one number from another. -/
def Checked.sub (a b : ℕ) : Checked ℕ := if b ≤ a then .ok (a - b) else .error .belowZero

/-- Takes so many octets off the front, or all there are; the number is how many are missing. -/
def Checked.takeUpTo (n : ℕ) (src : Bytes) : Checked (Bytes × Bytes × ℕ) := do
  let (piece, rest) ← src.cutAt (min n src.length)
  let missing ← sub n piece.length
  return (piece, rest, missing)

theorem Checked.takeUpTo_eq (n : ℕ) (src : Bytes) :
    takeUpTo n src = .ok (src.take n, src.drop n, n - (src.take n).length) := by
  have hsub : sub n (src.take n).length = .ok (n - (src.take n).length) :=
    if_pos (List.length_take_le n src)
  rw [takeUpTo, Bytes.cutAt_min]
  dsimp only [bind, Except.bind]
  rw [hsub]
  rfl

namespace LengthDecoder

def checkedDecode (d : LengthDecoder) (src : Bytes) :
    Checked (LengthDecoder × Bytes × Option PayloadItem) :=
  if d.remaining = 0 then .ok (d, src, some .eof)
  else if src = [] then .ok (d, src, none)
  else (Checked.takeUpTo d.remaining src).map fun (piece, rest, remaining) =>
    (⟨remaining⟩, rest, some (.chunk piece))

theorem checkedDecode_eq (d : LengthDecoder) (src : Bytes) :
    d.checkedDecode src = .ok (d.decode src) := by
  rw [checkedDecode, decode]
  split_ifs
  · rfl
  · rfl
  · rw [Checked.takeUpTo_eq]
    rfl

end LengthDecoder

namespace ChunkedDecoder

/-! Lines. -/

/-- Cuts the next line off, if it has arrived. -/
def nextLine? (d : ChunkedDecoder) (src : Bytes) : Checked (Option (Bytes × Bytes)) :=
  match d.lineEnd? src with
  | none => .ok none
  | some n => (src.cutAt n).map some

theorem nextLine?_of_none {d : ChunkedDecoder} {src : Bytes} (h : d.lineEnd? src = none) :
    d.nextLine? src = .ok none := by
  rw [nextLine?, h]

theorem nextLine?_of_some {d : ChunkedDecoder} {src : Bytes} {n : ℕ} (h : d.lineEnd? src = some n) :
    d.nextLine? src = .ok (some (src.take n, src.drop n)) := by
  rw [nextLine?, h]
  exact congrArg (Except.map some) (Bytes.cutAt_of_le (lineEnd?_pos h).2)

/-- A line without its line break. -/
def unbroken (line : Bytes) : Bytes :=
  let line := if line.getLast? = some Bytes.lf then line.dropLast else line
  if line.getLast? = some Bytes.cr then line.dropLast else line

/-- `sizeDigits`, the cut in front of an extension checked. -/
def checkedDigits (line : Bytes) : Checked Bytes :=
  match (unbroken line).findIdx? (· == 59) with
  | none => .ok (Bytes.trimEnd (unbroken line))
  | some i => ((unbroken line).cutAt i).map fun (front, _) => Bytes.trimEnd front

theorem checkedDigits_eq (line : Bytes) : checkedDigits line = .ok (sizeDigits line) := by
  have hdigits : sizeDigits line = Bytes.trimEnd ((unbroken line).takeWhile fun b => !(b == 59)) :=
    rfl
  have htake := @List.takeWhile_eq_take_findIdx_not _ (unbroken line) fun b => !(b == 59)
  simp only [Bool.not_not] at htake
  rw [checkedDigits, hdigits, htake]
  cases hfind : (unbroken line).findIdx? (· == 59) with
  | none =>
    rw [List.findIdx?_eq_none_iff_findIdx_eq.1 hfind, List.take_length]
  | some i =>
    obtain ⟨hlt, hindex⟩ := List.findIdx?_eq_some_iff_findIdx_eq.1 hfind
    rw [hindex]
    dsimp only
    rw [Bytes.cutAt_of_le (Nat.le_of_lt hlt)]
    rfl

def checkedParseSize (line : Bytes) : Checked (Except ParseError ℕ) :=
  (checkedDigits line).map fun digits =>
    if digits = [] then .error (.invalidBody .missingSize)
    else match hexValue? digits with
      | none => .error (.invalidBody .invalidSize)
      | some n => .ok n

theorem checkedParseSize_eq (line : Bytes) : checkedParseSize line = .ok (parseSize line) := by
  rw [checkedParseSize, checkedDigits_eq]
  rfl

/-! Steps. -/

def checkedStepSize (d : ChunkedDecoder) (src : Bytes) :
    Checked (ChunkedDecoder × Bytes × Step) := do
  match ← d.nextLine? src with
  | none => return d.waitForLine src 0 maxSizeLine fun _ => .invalidBody .sizeLineTooLong
  | some (line, rest) =>
    if line.length ≤ maxSizeLine then
      match ← checkedParseSize line with
      | .error error => return ({ d with scanned := 0 }, rest, .bad error)
      | .ok size => return ({ d with scanned := 0, phase := afterSize size }, rest, .moved)
    else return ({ d with scanned := 0 }, rest, .bad (.invalidBody .sizeLineTooLong))

def checkedStepData (d : ChunkedDecoder) (remaining : ℕ) (src : Bytes) :
    Checked (ChunkedDecoder × Bytes × Step) :=
  if src = [] then .ok (d, src, .waits)
  else (Checked.takeUpTo remaining src).map fun (piece, rest, remaining) =>
    ({ d with phase := afterData remaining }, rest, .item (.chunk piece))

def checkedStepDataEnd (d : ChunkedDecoder) (src : Bytes) :
    Checked (ChunkedDecoder × Bytes × Step) :=
  let skip (n : ℕ) : Checked (ChunkedDecoder × Bytes × Step) :=
    (src.cutAt n).map fun (_, rest) => ({ d with phase := .size }, rest, .moved)
  match src with
  | [] => .ok (d, src, .waits)
  | b :: rest =>
    if b = Bytes.lf then skip 1
    else if b = Bytes.cr then
      match rest with
      | [] => .ok (d, src, .waits)
      | c :: _ =>
        if c = Bytes.lf then skip 2 else .ok (d, src, .bad (.invalidBody .missingLineBreak))
    else .ok (d, src, .bad (.invalidBody .missingLineBreak))

def checkedStepTrailer (d : ChunkedDecoder) (src : Bytes) :
    Checked (ChunkedDecoder × Bytes × Step) := do
  match ← d.nextLine? src with
  | none =>
    return d.waitForLine src d.trailer.length maxTrailer fun size => .tooLargeHeader size maxTrailer
  | some (line, rest) =>
    if line = [Bytes.lf] ∨ line = Bytes.crlf then
      return ({ d with scanned := 0, phase := .done }, rest, .moved)
    else if d.trailer.length + line.length ≤ maxTrailer then
      return ({ d with scanned := 0, trailer := d.trailer ++ line }, rest, .moved)
    else
      return ({ d with scanned := 0 }, rest,
        .bad (.tooLargeHeader (d.trailer.length + line.length) maxTrailer))

def checkedStep (d : ChunkedDecoder) (src : Bytes) : Checked (ChunkedDecoder × Bytes × Step) :=
  match d.phase with
  | .size => d.checkedStepSize src
  | .data remaining _ => d.checkedStepData remaining src
  | .dataEnd => d.checkedStepDataEnd src
  | .trailer => d.checkedStepTrailer src
  | .done => .ok (d, src, .item .eof)

theorem checkedStepSize_eq (d : ChunkedDecoder) (src : Bytes) :
    d.checkedStepSize src = .ok (d.stepSize src) := by
  rw [checkedStepSize, stepSize]
  cases hline : d.lineEnd? src with
  | none =>
    rw [nextLine?_of_none hline]
    rfl
  | some n =>
    have hlength : (src.take n).length = n := List.length_take_of_le (lineEnd?_pos hline).2
    rw [nextLine?_of_some hline]
    dsimp only [bind, Except.bind]
    rw [hlength, checkedParseSize_eq]
    split_ifs
    · cases hsize : parseSize (src.take n) <;> rfl
    · rfl

theorem checkedStepData_eq (d : ChunkedDecoder) (remaining : ℕ) (src : Bytes) :
    d.checkedStepData remaining src = .ok (d.stepData remaining src) := by
  rw [checkedStepData, stepData]
  split_ifs
  · rfl
  · rw [Checked.takeUpTo_eq]
    rfl

theorem checkedStepDataEnd_eq (d : ChunkedDecoder) (src : Bytes) :
    d.checkedStepDataEnd src = .ok (d.stepDataEnd src) := by
  unfold checkedStepDataEnd stepDataEnd
  match src with
  | [] => rfl
  | [b] =>
    dsimp only
    split_ifs <;> rfl
  | b :: c :: rest =>
    have hskip {n : ℕ} (hn : n ≤ 2) : Bytes.cutAt (b :: c :: rest) n =
        .ok ((b :: c :: rest).take n, (b :: c :: rest).drop n) :=
      Bytes.cutAt_of_le (Nat.le_trans hn (by simp))
    dsimp only
    rw [hskip (Nat.le_refl 2), hskip (by decide)]
    split_ifs <;> rfl

theorem checkedStepTrailer_eq (d : ChunkedDecoder) (src : Bytes) :
    d.checkedStepTrailer src = .ok (d.stepTrailer src) := by
  rw [checkedStepTrailer, stepTrailer]
  cases hline : d.lineEnd? src with
  | none =>
    rw [nextLine?_of_none hline]
    rfl
  | some n =>
    have hlength : (src.take n).length = n := List.length_take_of_le (lineEnd?_pos hline).2
    rw [nextLine?_of_some hline]
    dsimp only [bind, Except.bind]
    rw [hlength]
    split_ifs <;> rfl

theorem checkedStep_eq (d : ChunkedDecoder) (src : Bytes) :
    d.checkedStep src = .ok (d.step src) := by
  obtain ⟨phase, scanned, trailer⟩ := d
  cases phase with
  | size => exact checkedStepSize_eq _ src
  | data remaining hpos => exact checkedStepData_eq _ remaining src
  | dataEnd => exact checkedStepDataEnd_eq _ src
  | trailer => exact checkedStepTrailer_eq _ src
  | done => rfl

def checkedDecode (d : ChunkedDecoder) (src : Bytes) :
    Checked (ChunkedDecoder × Bytes × Except ParseError (Option PayloadItem)) :=
  match _h : d.checkedStep src with
  | .error breach => .error breach
  | .ok (d', rest, .moved) => checkedDecode d' rest
  | .ok (d, rest, .item item) => .ok (d, rest, .ok (some item))
  | .ok (d, rest, .waits) => .ok (d, rest, .ok none)
  | .ok (d, rest, .bad error) => .ok (d, rest, .error error)
termination_by src.length
decreasing_by
  have hstep := Except.ok.inj ((d.checkedStep_eq src).symm.trans _h)
  have hlt := step_rest_lt d src (by rw [hstep]; rfl)
  rwa [hstep] at hlt

theorem checkedDecode_eq (d : ChunkedDecoder) (src : Bytes) :
    d.checkedDecode src = .ok (d.decode src) := by
  fun_induction decode d src with
  | case1 d src d' rest hstep ih =>
    rw [checkedDecode, checkedStep_eq, hstep]
    exact ih
  | case2 d src d' rest item hstep =>
    rw [checkedDecode, checkedStep_eq, hstep]
  | case3 d src d' rest hstep =>
    rw [checkedDecode, checkedStep_eq, hstep]
  | case4 d src d' rest error hstep =>
    rw [checkedDecode, checkedStep_eq, hstep]

end ChunkedDecoder

namespace PayloadDecoder

def checkedDecode (d : PayloadDecoder) (src : Bytes) :
    Checked (PayloadDecoder × Bytes × Except ParseError (Option PayloadItem)) :=
  match d with
  | length d => (d.checkedDecode src).map fun (d, rest, item) => (length d, rest, .ok item)
  | chunked d => (d.checkedDecode src).map fun (d, rest, result) => (chunked d, rest, result)
  | empty => .ok (empty, src, .ok (some .eof))

/-- No decoder cuts behind the end of its buffer. -/
theorem checkedDecode_eq (d : PayloadDecoder) (src : Bytes) :
    d.checkedDecode src = .ok (d.decode src) := by
  cases d with
  | length d =>
    rw [checkedDecode, LengthDecoder.checkedDecode_eq]
    rfl
  | chunked d =>
    rw [checkedDecode, ChunkedDecoder.checkedDecode_eq]
    rfl
  | empty => rfl

end PayloadDecoder

end CoopHttp
