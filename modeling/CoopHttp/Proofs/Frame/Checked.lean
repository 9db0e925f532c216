import CoopHttp.Proofs.Frame.Renewal
import CoopHttp.Proofs.Frame.Search
import CoopHttp.Proofs.Payload.Checked

/-!
# A reader that checks what it is asked

The operations of a reader rely on being called in the right order: a head is cut off where its end
has been found, and the next request is turned to when the payload of the last one has been read.
Here they check it. A reader that awaits a head passes the checks as soon as the end is found.
-/
namespace CoopHttp.FrameReader

variable {r s : FrameReader}

/-- `findEnd`, the subtraction checked. -/
def checkedFindEnd (r : FrameReader) : Checked (FrameReader × Option HeadEnd) :=
  match r.ending with
  | some e => .ok (r, some e)
  | none =>
    let (matcher, n, found) := r.matcher.run (r.buffer.drop r.scanned)
    let scanned := r.scanned + n
    match found with
    | none => .ok ({ r with matcher, scanned, ending := none }, none)
    | some length => (Checked.sub scanned length).map fun offset =>
      ({ r with matcher, scanned, ending := some ⟨offset, length⟩ }, some ⟨offset, length⟩)

def checkedSeekHead (r : FrameReader) : Checked (FrameReader × Progress (Except ParseError Bool)) :=
  r.checkedFindEnd.map fun
    | (r, some _) => (r, .done (.ok true))
    | (r, none) =>
      if r.buffer.length < maxHeadBytes then (r, .starved)
      else (r, .done (.error (.tooLargeHeader r.buffer.length maxHeadBytes)))

/-- Reads a head whose end has been found. -/
def checkedParseHead (r : FrameReader) : Checked (FrameReader × Except ParseError ℕ) :=
  match r.ending with
  | none => .error .headNotFound
  | some e => (r.buffer.cutAt e.bodyStart).map fun (head, buffer) =>
    ({ r with buffer } : FrameReader).readHead head

/-- Goes on to the next request behind a payload that has been read. -/
def checkedNextFrame (r : FrameReader) : Checked FrameReader :=
  if r.payload.isSome ∧ r.bodyDone = true then
    match r.nextFrame with
    | .error _ => .error .beyondBuffer
    | .ok s => .ok s
  else .error .payloadNotRead

/-- `drain`, every cut checked. -/
def checkedDrain (d : PayloadDecoder) (r : FrameReader) :
    Checked (PayloadDecoder × FrameReader × Progress (Except ParseError Unit)) :=
  match _h : d.checkedDecode r.buffer with
  | .error breach => .error breach
  | .ok (d', buffer, .error error) => .ok (d', { r with buffer }, .done (.error error))
  | .ok (d', buffer, .ok none) => .ok (d', { r with buffer }, .starved)
  | .ok (d', buffer, .ok (some .eof)) =>
    let (r, result) := finishBody { r with buffer } d'.trailer
    .ok (d', r, .done result)
  | .ok (d', buffer, .ok (some (.chunk piece))) =>
    let gathered := r.gathered.add piece
    match r.checkSize gathered.size with
    | .error error => .ok (d', { r with buffer }, .done (.error error))
    | .ok () => checkedDrain d' { r with buffer, gathered }
termination_by r.buffer.length
decreasing_by
  exact PayloadDecoder.decode_rest_lt (Except.ok.inj ((d.checkedDecode_eq r.buffer).symm.trans _h))

theorem checkedDrain_eq (d : PayloadDecoder) (r : FrameReader) :
    checkedDrain d r = .ok (drain d r) := by
  fun_induction drain d r with
  | case1 d r d' buffer error h =>
    rw [checkedDrain, PayloadDecoder.checkedDecode_eq, h]
  | case2 d r d' buffer h =>
    rw [checkedDrain, PayloadDecoder.checkedDecode_eq, h]
  | case3 d r d' buffer h s result hfinish =>
    rw [checkedDrain, PayloadDecoder.checkedDecode_eq, h]
    dsimp only
    rw [hfinish]
  | case4 d r d' buffer piece h gathered error hsize =>
    rw [checkedDrain, PayloadDecoder.checkedDecode_eq, h]
    dsimp only
    rw [hsize]
  | case5 d r d' buffer piece h gathered hsize ih =>
    rw [checkedDrain, PayloadDecoder.checkedDecode_eq, h]
    dsimp only
    rw [hsize]
    exact ih

theorem checkedNextFrame_of_bodyDone (hpayload : r.payload.isSome) (hbodyDone : r.bodyDone = true) :
    r.checkedNextFrame = .ok ((withMaxBody r.maxBody).extend r.buffer) := by
  rw [checkedNextFrame, if_pos ⟨hpayload, hbodyDone⟩, nextFrame_of_bodyDone hpayload hbodyDone]

/-- The reader has found no end of a head, and has read nothing else of the request. -/
structure AwaitsHead (r : FrameReader) : Prop where
  payload_eq : r.payload = none
  ending_eq : r.ending = none
  searching : Searching r r.buffer

theorem awaitsHead_extend_withMaxBody (maxBody : ℕ) (buffer : Bytes) :
    AwaitsHead ((withMaxBody maxBody).extend buffer) :=
  ⟨rfl, rfl, (searching_withMaxBody maxBody).extend buffer⟩

theorem AwaitsHead.extend (h : AwaitsHead r) (bytes : Bytes) : AwaitsHead (r.extend bytes) :=
  ⟨h.payload_eq, h.ending_eq, h.searching.extend bytes⟩

/-- A terminator that is found is among the octets that have been read. -/
theorem AwaitsHead.checkedFindEnd_eq (h : AwaitsHead r) : r.checkedFindEnd = .ok r.findEnd := by
  obtain ⟨read, hseeking, unread, hbuffer⟩ := h.searching.pending h.ending_eq
  have hdrop : r.buffer.drop r.scanned = unread := by
    rw [← hbuffer, hseeking.scanned_eq, List.drop_left]
  rw [checkedFindEnd, findEnd, h.ending_eq, hdrop]
  rcases hlater : r.matcher.run unread with ⟨t, n, _ | length⟩
  · rfl
  · have hrun := hseeking.passes.run_append unread
    rw [hlater, ← hseeking.scanned_eq] at hrun
    have hle : length ≤ r.scanned + n := by
      simpa [Terminator.held] using (Terminator.bounds_of_run hrun).2.2
    dsimp only
    rw [Checked.sub, if_pos hle]
    rfl

theorem AwaitsHead.checkedSeekHead_eq (h : AwaitsHead r) : r.checkedSeekHead = .ok r.seekHead := by
  rw [checkedSeekHead, h.checkedFindEnd_eq, seekHead]
  rcases r.findEnd with ⟨s, _ | e⟩ <;> rfl

/-- The reader has found the end of a head among the octets that it holds, and has not read it. -/
structure HoldsHead (r : FrameReader) (e : HeadEnd) : Prop where
  payload_eq : r.payload = none
  ending_eq : r.ending = some e
  bodyStart_le : e.bodyStart ≤ r.buffer.length

/-- A reader that awaits a head goes on to await it, or refuses what it holds, or holds a head. -/
theorem AwaitsHead.seekHead_cases (h : AwaitsHead r) :
    (∃ s, r.seekHead = (s, .starved) ∧ AwaitsHead s) ∨
      (∃ s error, r.seekHead = (s, .done (.error error))) ∨
      ∃ s e, r.seekHead = (s, .done (.ok true)) ∧ HoldsHead s e := by
  obtain ⟨hsearching, hending, -⟩ := h.searching.findEnd
  have hpayload := (payload_findEnd r).trans h.payload_eq
  rcases hfind : r.findEnd with ⟨s, _ | e⟩
  · rw [hfind] at hsearching hending hpayload
    rw [seekHead, hfind]
    dsimp only
    split_ifs
    · refine .inl ⟨s, rfl, hpayload, hending, ?_⟩
      rw [hsearching.buffer_eq]
      exact hsearching
    · exact .inr (.inl ⟨s, _, rfl⟩)
  · rw [hfind] at hsearching hending hpayload
    have hfirst := (hsearching.found e hending).1
    refine .inr (.inr ⟨s, e, by rw [seekHead, hfind], hpayload, hending, ?_⟩)
    rw [hsearching.buffer_eq]
    exact hfirst.bodyStart_le

theorem HoldsHead.parseHead_eq {e : HeadEnd} (h : HoldsHead r e) :
    ∃ outcome, r.parseHead = .ok outcome ∧ r.checkedParseHead = .ok outcome := by
  refine ⟨_, parseHead_of_findEnd h.payload_eq (findEnd_of_ending h.ending_eq) h.bodyStart_le, ?_⟩
  rw [checkedParseHead, h.ending_eq]
  dsimp only
  rw [Bytes.cutAt_of_le h.bodyStart_le]
  rfl

end CoopHttp.FrameReader
