import CoopHttp.Proofs.Connection.Responses
import CoopHttp.Proofs.Frame.AtHand

/-!
# Telling the client to go on

A client of version 1.1 that expects it is told to go on before the payload of its request is read,
and no other client is. What is on the wire is followed here with the head of the request at hand.
The length that a head declares is looked at only behind the interim response, so a client is told
to go on even if its payload is refused then.
-/
namespace CoopHttp

/-- The client waits to be told to send the payload that the head declares. -/
structure RequestHead.Awaits (head : RequestHead) (size : PayloadSize) : Prop where
  version_eq : head.version = .http11
  expects : head.expectsContinue = true
  size_ne : size ≠ .empty

instance (head : RequestHead) (size : PayloadSize) : Decidable (head.Awaits size) :=
  decidable_of_iff (head.version = .http11 ∧ head.expectsContinue = true ∧ size ≠ .empty)
    ⟨fun h => ⟨h.1, h.2.1, h.2.2⟩, fun h => ⟨h.version_eq, h.expects, h.size_ne⟩⟩

namespace Connection

variable {η : Type}

/-! How the parts of a step come out. -/

def refusalBytes : Bytes := (badRequest.encode.toOption).getD []

theorem encode_badRequest : badRequest.encode = .ok refusalBytes := by
  obtain ⟨bytes, hbytes⟩ : ∃ bytes, badRequest.encode = .ok bytes :=
    Response.exists_encode_prepare _ _ _
  rw [refusalBytes, hbytes]
  rfl

theorem refuse_cases (c : Connection η) (error : ParseError) :
    c.refuse error = .enter { c with phase := .reject refusalBytes error } ∨
      c.refuse error = .finish (.error (.request error)) := by
  rw [refuse, encode_badRequest]
  split
  · exact .inl rfl
  · exact .inr rfl

theorem fetch_cases (c : Connection η) (atEnd : Move η) :
    c.fetch atEnd = atEnd ∨
      (∃ socket bytes, c.fetch atEnd = .stay { c with socket, reader := c.reader.extend bytes }) ∨
      (∃ socket, c.fetch atEnd = .wait .readable { c with socket }) ∨
      ∃ error, c.fetch atEnd = .finish (.error error) := by
  rw [fetch]
  split
  · exact .inl rfl
  · exact .inr (.inl ⟨_, _, rfl⟩)
  · exact .inr (.inr (.inl ⟨_, rfl⟩))
  · exact .inr (.inr (.inr ⟨_, rfl⟩))

/-- A transmission has written everything, or waits with what is left, or has failed. -/
theorem transmit_cases (c : Connection η) (data : Bytes) (again : Bytes → Phase)
    (next : Connection η → Move η) :
    ∃ (pieces : List Bytes) (left : Bytes) (socket : Socket),
      (c.transmit data again next).1 = pieces.map .accepted ∧ pieces.flatten ++ left = data ∧
      ((left = [] ∧ (c.transmit data again next).2 = next { c with socket }) ∨
        (c.transmit data again next).2 = .wait .writable { c with socket, phase := again left } ∨
        ∃ error, (c.transmit data again next).2 = .finish (.error error)) := by
  have hsettles := Socket.settles_writeAllTo data c.socket.writes
  rw [transmit, Socket.writeAll]
  generalize Socket.writeAllTo data c.socket.writes = outcome at hsettles
  obtain ⟨transfer, writes, attempt⟩ := outcome
  refine ⟨transfer.accepted, transfer.rest, { c.socket with writes }, rfl, hsettles.1, ?_⟩
  cases attempt with
  | done u => exact .inl ⟨hsettles.2.1 rfl, rfl⟩
  | blocked => exact .inr (.inl rfl)
  | failed error => exact .inr (.inr ⟨_, rfl⟩)

/-- The request that is taken out of a reader has the head at hand, and takes it away. -/
theorem head_of_takeRequest? {r s : FrameReader} {request : Request}
    (h : takeRequest? r = some (request, s)) :
    r.head = some request.head ∧ s.head = none ∧ s.maxBody = r.maxBody := by
  unfold takeRequest? FrameReader.takeHead FrameReader.takeBody FrameReader.takeTrailers at h
  split at h
  · cases h
  · rename_i heq
    obtain ⟨rfl, hhead⟩ := Prod.mk.inj heq
    obtain ⟨rfl, rfl⟩ := Prod.mk.inj (Option.some.inj h)
    exact ⟨hhead, rfl, rfl⟩

/-- A complete request is handed over, and its response is there to be written. -/
theorem dispatch_cases (handler : Handler η) (c : Connection η) :
    (∃ error, c.dispatch handler = ([], .finish (.error error))) ∨
      ∃ request reader bytes, takeRequest? c.reader = some (request, reader) ∧
        (answer handler c.handler request).2.1.encode = .ok bytes ∧
        c.dispatch handler = ([.called request], .enter { c with
          reader
          handler := (answer handler c.handler request).1
          phase := .respond bytes (answer handler c.handler request).2.2 }) := by
  rw [dispatch]
  split
  · exact .inl ⟨_, rfl⟩
  · rename_i request reader htake
    obtain ⟨bytes, hbytes⟩ : ∃ bytes, (answer handler c.handler request).2.1.encode = .ok bytes :=
      Response.exists_encode_prepare _ _ _
    refine .inr ⟨request, reader, bytes, htake, hbytes, ?_⟩
    dsimp only
    rw [hbytes]

/-- The body is read if it is declared to be within the limit, and refused if not. -/
theorem openBody_eq {c : Connection η} {head : RequestHead} {size : PayloadSize}
    (hhand : c.reader.AtHand head size) :
    c.openBody = if size.contentLength ≤ c.reader.maxBody
      then .stay { c with phase := .readBody (some (.ofSize size)) }
      else .enter { c with
        phase := .reject refusalBytes (.tooLargeBody size.contentLength c.reader.maxBody) } := by
  rw [openBody, hhand.payload_eq]
  dsimp only [Option.getD_some]
  rw [FrameReader.checkSize]
  split_ifs with hle
  · rfl
  · dsimp only
    rw [refuse, encode_badRequest]
    rfl

/-! What is on the wire. -/

/-- What the client of a request is told before its payload is read. -/
def interim (head : RequestHead) (size : PayloadSize) : Bytes :=
  if head.Awaits size then continueBytes else []

/-- The octets are the responses to the requests in order, each behind an interim response if the
client awaits one; and no request declares a longer payload than may be read. -/
inductive Replies (maxBody : ℕ) (handler : Handler η) (state : η) : List Request → Bytes → Prop
  | nil : Replies maxBody handler state [] []
  | snoc {requests : List Request} {request : Request} {size : PayloadSize} {wire bytes : Bytes}
      (before : Replies maxBody handler state requests wire)
      (declared : PayloadSize.ofFields request.head.fields = .ok size)
      (fits : size.contentLength ≤ maxBody)
      (encoded :
        (answer handler (stateAfter handler state requests) request).2.1.encode = .ok bytes) :
      Replies maxBody handler state (requests ++ [request])
        (wire ++ interim request.head size ++ bytes)

/-- What the client of the request at hand is told, if there is one. -/
def Tells (reader : FrameReader) (told : Bytes) : Prop :=
  (reader.Vacant ∧ told = []) ∨
    ∃ head size, reader.AtHand head size ∧ told = interim head size

theorem Tells.of_sameHead {r s : FrameReader} {told : Bytes} (h : Tells r told)
    (hsame : r.SameHead s) : Tells s told := by
  obtain ⟨hvacant, htold⟩ | ⟨head, size, hhand, htold⟩ := h
  · exact .inl ⟨hvacant.of_sameHead hsame, htold⟩
  · exact .inr ⟨head, size, hhand.of_sameHead hsame, htold⟩

/-- What has been written, and what the phase has still to write, for the requests answered and for
the one at hand. -/
def Due (maxBody : ℕ) (handler : Handler η) (state : η) (requests : List Request) (bytes : Bytes)
    (reader : FrameReader) : Phase → Prop
  | .readHead => reader.Vacant ∧ Replies maxBody handler state requests bytes
  | .sendContinue rest => ∃ wire head size, Replies maxBody handler state requests wire ∧
      reader.AtHand head size ∧ head.Awaits size ∧ bytes ++ rest = wire ++ continueBytes
  | .readBody decoder => ∃ wire head size, Replies maxBody handler state requests wire ∧
      reader.AtHand head size ∧ bytes = wire ++ interim head size ∧
      (decoder.isSome → size.contentLength ≤ maxBody)
  | .respond rest _ => reader.head = none ∧ Replies maxBody handler state requests (bytes ++ rest)
  | .reject rest _ => ∃ wire told, Replies maxBody handler state requests wire ∧ Tells reader told ∧
      bytes ++ rest = wire ++ told ++ refusalBytes

/-- What is due does not depend on what else a reader holds. -/
theorem Due.of_sameHead {maxBody : ℕ} {handler : Handler η} {state : η}
    {requests : List Request} {bytes : Bytes}
    {r s : FrameReader} {phase : Phase} (h : Due maxBody handler state requests bytes r phase)
    (hsame : r.SameHead s) : Due maxBody handler state requests bytes s phase := by
  cases phase with
  | readHead => exact ⟨h.1.of_sameHead hsame, h.2⟩
  | sendContinue rest =>
    obtain ⟨wire, head, size, hwire, hhand, hrest⟩ := h
    exact ⟨wire, head, size, hwire, hhand.of_sameHead hsame, hrest⟩
  | readBody decoder =>
    obtain ⟨wire, head, size, hwire, hhand, hrest⟩ := h
    exact ⟨wire, head, size, hwire, hhand.of_sameHead hsame, hrest⟩
  | respond rest keepAlive => exact ⟨hsame.head_eq.trans h.1, h.2⟩
  | reject rest error =>
    obtain ⟨wire, told, hwire, htells, hrest⟩ := h
    exact ⟨wire, told, hwire, htells.of_sameHead hsame, hrest⟩

/-- A connection that has not come to its end, with what has been written so far. -/
structure Telling (maxBody : ℕ) (handler : Handler η) (state : η) (notes : List Note)
    (c : Connection η) : Prop where
  state_eq : stateAfter handler state (calls notes) = c.handler
  maxBody_eq : c.reader.maxBody = maxBody
  due : Due maxBody handler state (calls notes) (written notes) c.reader c.phase

namespace Telling

variable {maxBody : ℕ} {handler : Handler η} {state : η} {notes : List Note} {c d : Connection η}

theorem begin (maxBody : ℕ) (handler : Handler η) (socket : Socket) (state : η) :
    Telling maxBody handler state [] { socket, handler := state, reader := .withMaxBody maxBody } :=
  ⟨rfl, rfl, ⟨rfl, rfl⟩, .nil⟩

/-- Octets that arrive change nothing. -/
theorem of_sameHead {reader : FrameReader} (h : Telling maxBody handler state notes c)
    (hsame : c.reader.SameHead reader) (socket : Socket) :
    Telling maxBody handler state notes { c with socket, reader } :=
  ⟨h.state_eq, hsame.maxBody_eq.trans h.maxBody_eq, h.due.of_sameHead hsame⟩

/-- While a request is read, its client has been told what it is to be told. -/
theorem exists_told (h : Telling maxBody handler state notes c) (hreads : c.phase.Reads) :
    ∃ wire told, Replies maxBody handler state (calls notes) wire ∧ Tells c.reader told ∧
      written notes = wire ++ told := by
  have hdue := h.due
  cases hphase : c.phase with
  | readHead =>
    rw [hphase] at hdue
    exact ⟨_, [], hdue.2, .inl ⟨hdue.1, rfl⟩, (List.append_nil _).symm⟩
  | readBody decoder =>
    rw [hphase] at hdue
    obtain ⟨wire, head, size, hwire, hhand, hwritten, -⟩ := hdue
    exact ⟨wire, _, hwire, .inr ⟨head, size, hhand, rfl⟩, hwritten⟩
  | sendContinue | respond | reject =>
    rw [hphase] at hreads
    obtain hkind | hkind := hreads <;> cases hkind

/-- A refusal comes behind what the client has been told. -/
theorem refuse {error : ParseError} (h : Telling maxBody handler state notes c)
    (hreads : c.phase.Reads)
    (hnext : (c.refuse error).next? = some d) : Telling maxBody handler state notes d := by
  obtain ⟨wire, told, hwire, htells, hwritten⟩ := h.exists_told hreads
  obtain hrefuse | hrefuse := c.refuse_cases error <;> rw [hrefuse] at hnext <;> cases hnext
  exact ⟨h.state_eq, h.maxBody_eq, wire, told, hwire, htells, by rw [hwritten]⟩

theorem fetch {atEnd : Move η} (h : Telling maxBody handler state notes c)
    (hatEnd : atEnd.next? = some d → Telling maxBody handler state notes d)
    (hnext : (c.fetch atEnd).next? = some d) : Telling maxBody handler state notes d := by
  obtain hfetch | ⟨socket, bytes, hfetch⟩ | ⟨socket, hfetch⟩ | ⟨error, hfetch⟩ :=
    c.fetch_cases atEnd <;> rw [hfetch] at hnext
  · exact hatEnd hnext
  · cases hnext
    exact h.of_sameHead (FrameReader.sameHead_extend _ bytes) socket
  · cases hnext
    exact h.of_sameHead ⟨rfl, rfl, rfl⟩ socket
  · cases hnext

/-- As long as no head has been read, nothing else of a reader matters. -/
theorem withVacant {reader : FrameReader} (h : Telling maxBody handler state notes c)
    (hphase : c.phase = .readHead) (hvacant : reader.Vacant)
    (hmaxBody : reader.maxBody = maxBody) :
    Telling maxBody handler state notes { c with reader } := by
  have hdue := h.due
  rw [hphase] at hdue
  refine ⟨h.state_eq, hmaxBody, ?_⟩
  rw [hphase]
  exact ⟨hvacant, hdue.2⟩

/-- Behind its head, the client is told to go on if it waits for that. -/
theorem behindHead {head : RequestHead} {size : PayloadSize}
    (h : Telling maxBody handler state notes c)
    (hphase : c.phase = .readHead) {reader : FrameReader} (hhand : reader.AtHand head size)
    (hmaxBody : reader.maxBody = maxBody)
    (hnext : ({ c with reader } : Connection η).behindHead.next? = some d) :
    Telling maxBody handler state notes d := by
  have hdue := h.due
  rw [hphase] at hdue
  have hawaits : ((head.version = .http11 ∧ head.expectsContinue = true) ∧
      (some size).any (fun size => !size.isEmpty) = true) ↔ head.Awaits size := by
    have hsize : (some size).any (fun size => !size.isEmpty) = true ↔ size ≠ .empty := by
      cases size <;> simp [PayloadSize.isEmpty]
    rw [hsize]
    exact ⟨fun h => ⟨h.1.1, h.1.2, h.2⟩, fun h => ⟨⟨h.version_eq, h.expects⟩, h.size_ne⟩⟩
  rw [Connection.behindHead] at hnext
  simp only [hhand.head_eq, hhand.payload_eq, hawaits] at hnext
  split_ifs at hnext with hwaits <;> cases hnext
  · exact ⟨h.state_eq, hmaxBody, _, head, size, hdue.2, hhand, hwaits, rfl⟩
  · refine ⟨h.state_eq, hmaxBody, _, head, size, hdue.2, hhand, ?_, fun hp => by cases hp⟩
    rw [interim, if_neg hwaits, List.append_nil]

theorem stepHead (h : Telling maxBody handler state notes c) (hphase : c.phase = .readHead)
    (hnext : c.stepHead.next? = some d) : Telling maxBody handler state notes d := by
  have hreads : c.phase.Reads := .inl (congrArg _ hphase)
  have hseek := FrameReader.sameHead_seekHead c.reader
  rw [Connection.stepHead] at hnext
  split at hnext <;> rename_i heq <;> rw [heq] at hseek
  · refine (h.of_sameHead hseek c.socket).fetch (fun hatEnd => ?_) hnext
    split at hatEnd
    · cases hatEnd
    · exact (h.of_sameHead hseek c.socket).refuse hreads hatEnd
  · exact (h.of_sameHead hseek c.socket).refuse hreads hnext
  · rename_i reader found
    have hvacant : reader.Vacant := by
      have hdue := h.due
      rw [hphase] at hdue
      exact hdue.1.of_sameHead hseek
    have hmaxBody : reader.maxBody = maxBody := hseek.maxBody_eq.trans h.maxBody_eq
    split at hnext
    · cases hnext
    · rename_i s error hparse
      have hmaxBody := (FrameReader.carries_parseHead hparse).maxBody_eq.trans hmaxBody
      obtain ⟨hs, -⟩ | ⟨head, size, -, hok⟩ := FrameReader.parseHead_cases hvacant hparse
      · exact (h.withVacant hphase hs hmaxBody).refuse hreads hnext
      · cases hok
    · rename_i s n hparse
      have hmaxBody := (FrameReader.carries_parseHead hparse).maxBody_eq.trans hmaxBody
      obtain ⟨-, error, herror⟩ | ⟨head, size, hhand, -⟩ :=
        FrameReader.parseHead_cases hvacant hparse
      · cases herror
      · exact h.behindHead hphase hhand hmaxBody hnext

/-! The body. -/

theorem openBody (h : Telling maxBody handler state notes c) (hphase : c.phase = .readBody none)
    (hnext : c.openBody.next? = some d) : Telling maxBody handler state notes d := by
  have hdue := h.due
  rw [hphase] at hdue
  obtain ⟨wire, head, size, hwire, hhand, hwritten, -⟩ := hdue
  rw [openBody_eq hhand, h.maxBody_eq] at hnext
  split_ifs at hnext with hle <;> cases hnext
  · exact ⟨h.state_eq, h.maxBody_eq, wire, head, size, hwire, hhand, hwritten, fun _ => hle⟩
  · exact ⟨h.state_eq, h.maxBody_eq, wire, _, hwire, .inr ⟨head, size, hhand, rfl⟩,
      by rw [hwritten]⟩

/-- The request that is handed over is the one at hand, so the reply is its own. -/
theorem dispatch {more : List Note} {decoder : PayloadDecoder} {move : Move η}
    (h : Telling maxBody handler state notes c) (hphase : c.phase = .readBody (some decoder))
    (hstep : c.dispatch handler = (more, move)) (hnext : move.next? = some d) :
    Telling maxBody handler state (notes ++ more) d := by
  have hdue := h.due
  rw [hphase] at hdue
  obtain ⟨wire, head, size, hwire, hhand, hwritten, hfits⟩ := hdue
  obtain ⟨error, hdispatch⟩ | ⟨request, reader, bytes, htake, hencode, hdispatch⟩ :=
    dispatch_cases handler c
  · cases hdispatch.symm.trans hstep
    cases hnext
  · cases hdispatch.symm.trans hstep
    cases hnext
    obtain ⟨hhead, htaken, hmaxBody⟩ := head_of_takeRequest? htake
    cases hhand.head_eq.symm.trans hhead
    have hrequests : calls (notes ++ [.called request]) = calls notes ++ [request] :=
      calls_append _ _
    have hbytes : written (notes ++ [.called request]) = written notes :=
      (written_append _ _).trans (List.append_nil _)
    rw [← h.state_eq] at hencode
    refine ⟨?_, hmaxBody.trans h.maxBody_eq, ?_⟩
    · rw [hrequests, stateAfter_concat, h.state_eq]
    · rw [hrequests, hbytes, hwritten]
      exact ⟨htaken, .snoc hwire hhand.declared (hfits rfl) hencode⟩

theorem stepBody {more : List Note} {decoder : PayloadDecoder} {move : Move η}
    (h : Telling maxBody handler state notes c) (hphase : c.phase = .readBody (some decoder))
    (hstep : c.stepBody handler decoder = (more, move)) (hnext : move.next? = some d) :
    Telling maxBody handler state (notes ++ more) d := by
  have hreads : c.phase.Reads := .inr (congrArg _ hphase)
  have hdrain := FrameReader.sameHead_drain decoder c.reader
  rw [Connection.stepBody] at hstep
  split at hstep <;> rename_i heq <;> rw [heq] at hdrain
  · exact (h.of_sameHead hdrain c.socket).dispatch hphase hstep hnext
  · cases hstep
    rw [List.append_nil]
    exact (h.of_sameHead hdrain c.socket).refuse hreads hnext
  · rename_i decoder' reader
    cases hstep
    rw [List.append_nil]
    have hwaits : Telling maxBody handler state notes
        { c with reader, phase := .readBody (some decoder') } := by
      have hdue := h.due
      rw [hphase] at hdue
      exact ⟨h.state_eq, hdrain.maxBody_eq.trans h.maxBody_eq, hdue.of_sameHead hdrain⟩
    refine hwaits.fetch (fun hatEnd => ?_) hnext
    split at hatEnd
    · cases hatEnd
    · exact hwaits.refuse (.inr rfl) hatEnd

/-! What is written. -/

/-- Octets that have been accepted go from what is to be written to what has been. -/
theorem wrote (h : Telling maxBody handler state notes c) (pieces : List Bytes)
    (hhandler : d.handler = c.handler) (hmaxBody : d.reader.maxBody = maxBody)
    (hdue : Due maxBody handler state (calls notes) (written notes ++ pieces.flatten) d.reader
      d.phase) :
    Telling maxBody handler state (notes ++ pieces.map .accepted) d := by
  refine ⟨?_, hmaxBody, ?_⟩
  · rw [calls_append_pieces, h.state_eq, hhandler]
  · rw [calls_append_pieces, written_append_pieces]
    exact hdue

/-- A transmission keeps the account if it does so where it waits and where it is done. -/
theorem transmit {data : Bytes} {again : Bytes → Phase} {next : Connection η → Move η}
    {more : List Note} {move : Move η} (hstep : c.transmit data again next = (more, move))
    (hnext : move.next? = some d)
    (hwait : ∀ socket (pieces : List Bytes) left, pieces.flatten ++ left = data →
      Telling maxBody handler state (notes ++ pieces.map .accepted)
        { c with socket, phase := again left })
    (hdone : ∀ socket (pieces : List Bytes), pieces.flatten = data →
      (next { c with socket }).next? = some d →
      Telling maxBody handler state (notes ++ pieces.map .accepted) d) :
    Telling maxBody handler state (notes ++ more) d := by
  obtain ⟨pieces, left, socket, hmore, hjoin, hmove⟩ := c.transmit_cases data again next
  rw [hstep] at hmore hmove
  dsimp only at hmore hmove
  subst hmore
  obtain ⟨rfl, rfl⟩ | rfl | ⟨error, rfl⟩ := hmove
  · rw [List.append_nil] at hjoin
    exact hdone socket pieces hjoin hnext
  · cases hnext
    exact hwait socket pieces left hjoin
  · cases hnext

theorem sendContinue {rest : Bytes} {more : List Note} {move : Move η}
    (h : Telling maxBody handler state notes c) (hphase : c.phase = .sendContinue rest)
    (hstep : c.step handler = (more, move)) (hnext : move.next? = some d) :
    Telling maxBody handler state (notes ++ more) d := by
  have hdue := h.due
  rw [hphase] at hdue
  obtain ⟨wire, head, size, hwire, hhand, hawaits, hwritten⟩ := hdue
  rw [step, hphase] at hstep
  refine transmit hstep hnext ?_ ?_
  · rintro socket pieces left rfl
    exact h.wrote pieces rfl h.maxBody_eq
      ⟨wire, head, size, hwire, hhand, hawaits, by rw [List.append_assoc, hwritten]⟩
  · rintro socket pieces rfl hdone
    cases hdone
    exact h.wrote pieces rfl h.maxBody_eq
      ⟨wire, head, size, hwire, hhand, by rw [hwritten, interim, if_pos hawaits],
        fun hp => by cases hp⟩

theorem respond {rest : Bytes} {keepAlive : Bool} {more : List Note} {move : Move η}
    (h : Telling maxBody handler state notes c) (hphase : c.phase = .respond rest keepAlive)
    (hstep : c.step handler = (more, move)) (hnext : move.next? = some d) :
    Telling maxBody handler state (notes ++ more) d := by
  have hdue := h.due
  rw [hphase] at hdue
  obtain ⟨htaken, hwire⟩ := hdue
  rw [step, hphase] at hstep
  refine transmit hstep hnext ?_ ?_
  · rintro socket pieces left rfl
    exact h.wrote pieces rfl h.maxBody_eq ⟨htaken, by rwa [List.append_assoc]⟩
  · rintro socket pieces rfl hdone
    rw [behindResponse] at hdone
    split at hdone
    · split at hdone
      · cases hdone
      · rename_i reader hreader
        cases hdone
        obtain ⟨hvacant, hmaxBody⟩ := FrameReader.vacant_nextFrame hreader
        exact h.wrote pieces rfl (hmaxBody.trans h.maxBody_eq) ⟨hvacant, hwire⟩
    · cases hdone

theorem reject {rest : Bytes} {error : ParseError} {more : List Note} {move : Move η}
    (h : Telling maxBody handler state notes c) (hphase : c.phase = .reject rest error)
    (hstep : c.step handler = (more, move)) (hnext : move.next? = some d) :
    Telling maxBody handler state (notes ++ more) d := by
  have hdue := h.due
  rw [hphase] at hdue
  obtain ⟨wire, told, hwire, htells, hwritten⟩ := hdue
  rw [step, hphase] at hstep
  refine transmit hstep hnext ?_ ?_
  · rintro socket pieces left rfl
    exact h.wrote pieces rfl h.maxBody_eq
      ⟨wire, told, hwire, htells, by rw [List.append_assoc, hwritten]⟩
  · rintro socket pieces rfl hdone
    cases hdone

/-- Every step that goes on, or waits, keeps the account. -/
theorem next {more : List Note} {move : Move η} (h : Telling maxBody handler state notes c)
    (hstep : c.step handler = (more, move)) (hnext : move.next? = some d) :
    Telling maxBody handler state (notes ++ more) d := by
  cases hphase : c.phase with
  | readHead =>
    rw [step, hphase] at hstep
    cases hstep
    rw [List.append_nil]
    exact h.stepHead hphase hnext
  | sendContinue rest => exact h.sendContinue hphase hstep hnext
  | readBody decoder =>
    rw [step, hphase] at hstep
    cases decoder with
    | none =>
      cases hstep
      rw [List.append_nil]
      exact h.openBody hphase hnext
    | some decoder => exact h.stepBody hphase hstep hnext
  | respond rest keepAlive => exact h.respond hphase hstep hnext
  | reject rest error => exact h.reject hphase hstep hnext

/-- The account is kept at every point of a course. -/
theorem walk {p q : Point η} (h : ∀ c, p.connection? = some c → Telling maxBody handler state [] c)
    (hwalk : Walk handler p notes q) :
    ∀ c, q.connection? = some c → Telling maxBody handler state notes c := by
  induction hwalk with
  | refl => exact h
  | tail hwalk hadvance ih =>
    intro d hd
    cases hadvance with
    | @goes c _ _ move step_eq onward =>
      cases hd
      refine (ih c rfl).next step_eq ?_
      cases move <;> cases onward <;> rfl
    | @waits c _ _ _ step_eq =>
      cases hd
      exact (ih c rfl).next step_eq rfl
    | wakes c =>
      cases hd
      rw [List.append_nil]
      exact ih _ rfl
    | ends | crashes | expires => cases hd

theorem of_walk {socket : Socket} {p : Point η}
    (hwalk : Walk handler
      (.serving { socket, handler := state, reader := .withMaxBody maxBody }) notes p) :
    ∀ c, p.connection? = some c → Telling maxBody handler state notes c := by
  refine walk (fun c hc => ?_) hwalk
  cases hc
  exact begin maxBody handler socket state

end Telling

/-! The statement. -/

/-- A step writes some of what its phase has still to write, and nothing else. -/
theorem Passage.isPrefix_written {handler : Handler η} {c : Connection η} {more : List Note}
    {move : Move η} (h : Passage handler c more move) : written more <+: c.phase.rest?.getD [] := by
  cases h with
  | stayed | starved | closed | failed | crashed | refused | headRead | called =>
    exact List.nil_prefix
  | wrote data_eq join_eq | broken data_eq join_eq =>
    rw [written_pieces, data_eq, ← join_eq]
    exact List.prefix_append _ _
  | continued phase_eq | answered phase_eq | lost phase_eq | parted phase_eq | rejected phase_eq =>
    rw [written_pieces, phase_eq]
    exact List.prefix_rfl

theorem Advance.isPrefix_written {handler : Handler η} {p q : Point η} {c : Connection η}
    {more : List Note} (h : Advance handler p more q) (hc : p.connection? = some c) :
    written more <+: c.phase.rest?.getD [] := by
  cases h with
  | goes step_eq | waits step_eq | crashes step_eq =>
    cases hc
    exact (passage_of_step step_eq).isPrefix_written
  | ends step_eq =>
    cases hc
    rw [written_append]
    exact (List.append_nil _).symm ▸ (passage_of_step step_eq).isPrefix_written
  | wakes | expires => exact List.nil_prefix

theorem Replies.unique {maxBody : ℕ} {handler : Handler η} {state : η} {requests : List Request}
    {wire wire' : Bytes} (h : Replies maxBody handler state requests wire)
    (h' : Replies maxBody handler state requests wire') : wire' = wire := by
  induction h generalizing wire' with
  | nil =>
    generalize hrequests : ([] : List Request) = requests at h'
    cases h' with
    | nil => rfl
    | snoc => simp at hrequests
  | @snoc requests request size wire bytes before declared fits encoded ih =>
    generalize hrequests : requests ++ [request] = requests' at h'
    cases h' with
    | nil => simp at hrequests
    | snoc before' declared' fits' encoded' =>
      obtain ⟨rfl, hsingle⟩ := List.append_inj' hrequests rfl
      cases hsingle
      cases declared.symm.trans declared'
      cases encoded.symm.trans encoded'
      rw [ih before']

/-- The octets of the answer that a phase gives to a request that cannot be read. -/
def refusalOf : Phase → Bytes
  | .reject _ _ => refusalBytes
  | .readHead | .sendContinue _ | .readBody _ | .respond _ _ => []

/-- What the client of the request at hand has been told, or is being told: the octets that stand
behind the replies to earlier requests, and before a refusal. -/
def Told (maxBody : ℕ) (handler : Handler η) (state : η) (notes : List Note) (c : Connection η)
    (told : Bytes) : Prop :=
  ∃ wire, Replies maxBody handler state (calls notes) wire ∧
    written notes ++ c.phase.rest?.getD [] = wire ++ told ++ refusalOf c.phase

/-- The client of the request at hand is told to go on only if it waits for that and its payload
will be read; a request whose declared length is refused gets its refusal and nothing before it. -/
structure RightlyTold (maxBody : ℕ) (handler : Handler η) (state : η) (notes : List Note)
    (c : Connection η) (head : RequestHead) (size : PayloadSize) : Prop where
  to_be_read : ∀ told, Told maxBody handler state notes c told → told ≠ [] →
    told = continueBytes ∧ head.Awaits size ∧ size.contentLength ≤ maxBody
  refused : maxBody < size.contentLength →
    ∀ told, Told maxBody handler state notes c told → told = []

/-- The client of the request at hand is told to go on just if it waits for that. -/
theorem Telling.told_iff {maxBody : ℕ} {handler : Handler η} {state : η} {notes : List Note}
    {c : Connection η} {head : RequestHead} {size : PayloadSize} {told : Bytes}
    (h : Telling maxBody handler state notes c) (hhand : c.reader.AtHand head size) :
    Told maxBody handler state notes c told ↔ told = interim head size := by
  obtain ⟨wire, hwire, htotal⟩ : Told maxBody handler state notes c (interim head size) := by
    have hdue := h.due
    rw [Told]
    cases hcase : c.phase with
    | readHead =>
      rw [hcase] at hdue
      exact absurd hdue.1 hhand.not_vacant
    | sendContinue rest =>
      rw [hcase] at hdue
      obtain ⟨wire, head', size', hwire, hhand', hawaits, hwritten⟩ := hdue
      obtain ⟨rfl, rfl⟩ := hhand.unique hhand'
      exact ⟨wire, hwire, by simp [Phase.rest?, refusalOf, interim, hawaits, hwritten]⟩
    | readBody decoder =>
      rw [hcase] at hdue
      obtain ⟨wire, head', size', hwire, hhand', hwritten, -⟩ := hdue
      obtain ⟨rfl, rfl⟩ := hhand.unique hhand'
      exact ⟨wire, hwire, by simp [Phase.rest?, refusalOf, hwritten]⟩
    | respond rest keepAlive =>
      rw [hcase] at hdue
      cases hhand.head_eq.symm.trans hdue.1
    | reject rest error =>
      rw [hcase] at hdue
      obtain ⟨wire, told, hwire, ⟨hvacant, -⟩ | ⟨head', size', hhand', rfl⟩, hwritten⟩ := hdue
      · exact absurd hvacant hhand.not_vacant
      · obtain ⟨rfl, rfl⟩ := hhand.unique hhand'
        exact ⟨wire, hwire, hwritten⟩
  constructor
  · rintro ⟨wire', hwire', htotal'⟩
    cases hwire.unique hwire'
    rw [htotal, List.append_left_inj] at htotal'
    exact (List.append_cancel_left htotal').symm
  · rintro rfl
    exact ⟨wire, hwire, htotal⟩

/-- What a course has come to: what has been written and what is to be written add up at every
point, every advance writes of that, and where a body begins it is read just if it is declared to be
within the limit. -/
structure Accounted (maxBody : ℕ) (handler : Handler η) (state : η) (notes : List Note)
    (p : Point η) : Prop where
  due : ∀ c, p.connection? = some c →
    Due maxBody handler state (calls notes) (written notes) c.reader c.phase
  writes : ∀ c more q, p.connection? = some c → Advance handler p more q →
    written more <+: c.phase.rest?.getD []
  opens : ∀ c head size more q, p = .serving c → c.phase = .readBody none →
    c.reader.AtHand head size → Advance handler p more q →
      more = [] ∧ ∃ d, q = .serving d ∧ d.reader.AtHand head size ∧
        d.phase = if size.contentLength ≤ maxBody then .readBody (some (.ofSize size))
          else .reject refusalBytes (.tooLargeBody size.contentLength maxBody)

theorem Telling.opens {maxBody : ℕ} {handler : Handler η} {state : η} {notes more : List Note}
    {c : Connection η} {q : Point η} {head : RequestHead} {size : PayloadSize}
    (h : Telling maxBody handler state notes c) (hphase : c.phase = .readBody none)
    (hhand : c.reader.AtHand head size) (hadvance : Advance handler (.serving c) more q) :
    more = [] ∧ ∃ d, q = .serving d ∧ d.reader.AtHand head size ∧
      d.phase = if size.contentLength ≤ maxBody then .readBody (some (.ofSize size))
        else .reject refusalBytes (.tooLargeBody size.contentLength maxBody) := by
  have hopen := openBody_eq hhand
  rw [h.maxBody_eq] at hopen
  cases hadvance with
  | goes step_eq onward | waits step_eq | ends step_eq | crashes step_eq =>
    rw [step, hphase] at step_eq
    dsimp only at step_eq
    rw [hopen] at step_eq
    split_ifs at step_eq ⊢ <;> cases step_eq
    all_goals
      cases onward
      exact ⟨rfl, _, rfl, hhand, rfl⟩

/-- On every course the interim response stands before the replies to just those requests whose
client awaits it. The request at hand is rightly told to go on, or not, unless its client awaits it
and its declared length is above the limit, and only then not. -/
theorem rightlyTold_iff (maxBody : ℕ) (handler : Handler η) (socket : Socket) (state : η)
    {notes : List Note} {p : Point η}
    (hwalk : Walk handler
      (.serving { socket, handler := state, reader := .withMaxBody maxBody }) notes p) :
    Accounted maxBody handler state notes p ∧
      ∀ c head size, p.connection? = some c → c.reader.AtHand head size →
        (RightlyTold maxBody handler state notes c head size ↔
          ¬ (head.Awaits size ∧ maxBody < size.contentLength)) := by
  have htelling := Telling.of_walk hwalk
  refine ⟨⟨fun c hc => (htelling c hc).due,
    fun c more q hc hadvance => hadvance.isPrefix_written hc,
    ?_⟩, ?_⟩
  · rintro c head size more q rfl hphase hhand hadvance
    exact (htelling c rfl).opens hphase hhand hadvance
  · intro c head size hc hhand
    have htold (told : Bytes) :
        Told maxBody handler state notes c told ↔ told = interim head size :=
      (htelling c hc).told_iff hhand
    constructor
    · rintro hrightly ⟨hawaits, hlong⟩
      have hnone := hrightly.refused hlong _ ((htold _).2 rfl)
      rw [interim, if_pos hawaits] at hnone
      exact absurd hnone (by decide)
    · intro hnot
      constructor
      · intro told htold' hne
        rw [(htold told).1 htold', interim] at hne ⊢
        split_ifs at hne ⊢ with hawaits
        · exact ⟨rfl, hawaits, Nat.le_of_not_lt fun hlong => hnot ⟨hawaits, hlong⟩⟩
        · exact absurd rfl hne
      · intro hlong told htold'
        rw [(htold told).1 htold', interim, if_neg fun hawaits => hnot ⟨hawaits, hlong⟩]

/-! Two courses. -/

/-- Where the first stretch of a task is suspended with a head at hand, a walk waits with it. -/
theorem exists_walk_atHand (service : Service η) (c : Connection η) (kind : Phase.Kind)
    {head : RequestHead} {size : PayloadSize}
    (hdeclared : PayloadSize.ofFields head.fields = .ok size)
    (hstands : (start service 0 c).outcome.suspended?.map
      (fun d => (d.phase.kind, d.reader.head, d.reader.payload)) =
        some (kind, some head, some size)) :
    ∃ d, Walk service.handler (.serving c) ((start service 0 c).notes.map Prod.snd) (.waiting d) ∧
      d.phase.kind = kind ∧ d.reader.AtHand head size := by
  obtain ⟨d, hd, hsame⟩ := Option.map_eq_some_iff.1 hstands
  obtain ⟨hkind, hreader⟩ := Prod.mk.inj hsame
  obtain ⟨p, hwalk, hp⟩ := exists_walk_start service c
  rw [hp d hd] at hwalk
  exact ⟨d, hwalk, hkind, (Prod.mk.inj hreader).1, (Prod.mk.inj hreader).2, hdeclared⟩

/-- The head of a client that waits to be told to send a payload of this length. -/
def putHead (length : FieldValue) : RequestHead where
  method := ⟨ascii "PUT", by decide⟩
  uri := ⟨none, [], ascii "/", none⟩
  version := .http11
  fields := .ofList [(.contentLength, length), (.expect, ⟨ascii "100-continue", by decide⟩)]

/-- A connection to a client that has sent a head, and then sends nothing; the first thing that is
written to it is accepted, and the next one has to wait. -/
def pausing (head : String) : Connection Unit where
  socket := ⟨[.bytes (ascii head), .failure .wouldBlock], [.upTo 100, .failure .wouldBlock]⟩
  handler := ()
  reader := .withMaxBody FrameReader.defaultMaxBody

/-- A client that declares three octets. -/
def modestClient : Connection Unit :=
  pausing "PUT / HTTP/1.1\r\nContent-Length: 3\r\nExpect: 100-continue\r\n\r\n"

theorem ofFields_three :
    PayloadSize.ofFields (putHead ⟨ascii "3", by decide⟩).fields = .ok (.length 3) := by decide

/-- It is told to go on, and its payload will be read. -/
theorem exists_rightlyTold_modestClient :
    ∃ notes c, Walk plainService.handler (.serving modestClient) notes (.waiting c) ∧
      written notes = continueBytes ∧ c.phase.kind = .readBody ∧
      RightlyTold FrameReader.defaultMaxBody plainService.handler () notes c
        (putHead ⟨ascii "3", by decide⟩) (.length 3) := by
  obtain ⟨c, hwalk, hkind, hhand⟩ :=
    exists_walk_atHand plainService modestClient .readBody ofFields_three (by decide +kernel)
  refine ⟨_, c, hwalk, by decide +kernel, hkind, ?_⟩
  exact ((rightlyTold_iff FrameReader.defaultMaxBody plainService.handler modestClient.socket ()
    hwalk).2 c _ _ rfl hhand).2 fun hlong => absurd hlong.2 (by decide)

/-- A client that declares nine million octets. -/
def greedyClient : Connection Unit :=
  pausing "PUT / HTTP/1.1\r\nContent-Length: 9000000\r\nExpect: 100-continue\r\n\r\n"

theorem ofFields_nineMillion :
    PayloadSize.ofFields (putHead ⟨ascii "9000000", by decide⟩).fields =
      .ok (.length 9000000) := by decide

/-- It is told to go on, and refused. -/
theorem exists_not_rightlyTold_greedyClient :
    ∃ notes c, Walk plainService.handler (.serving greedyClient) notes (.waiting c) ∧
      written notes = continueBytes ∧ c.phase.kind = .reject ∧
      ¬ RightlyTold FrameReader.defaultMaxBody plainService.handler () notes c
        (putHead ⟨ascii "9000000", by decide⟩) (.length 9000000) := by
  obtain ⟨c, hwalk, hkind, hhand⟩ :=
    exists_walk_atHand plainService greedyClient .reject ofFields_nineMillion (by decide +kernel)
  refine ⟨_, c, hwalk, by decide +kernel, hkind, fun hrightly => ?_⟩
  have htelling : Telling FrameReader.defaultMaxBody plainService.handler ()
      ((start plainService 0 greedyClient).notes.map Prod.snd) c := Telling.of_walk hwalk c rfl
  have hnone := hrightly.refused (by decide) _ ((htelling.told_iff hhand).2 rfl)
  exact absurd hnone (by decide +kernel)

end Connection

end CoopHttp
