import CoopHttp.Proofs.Connection.Responses
import CoopHttp.Proofs.Frame.Checked

/-!
# A connection never crashes

The steps of a connection are repeated here with every cut and subtraction checked, with the room that
a socket is offered for its octets, and with what the operations of the reader and the encoder rely
on. At every point that a connection comes to, its reader stands where the phase needs it; so no check
fails there, and the checked step comes to what the step comes to.
-/
namespace CoopHttp

/-- A socket reads no more than it is asked for. -/
theorem Socket.length_le_of_readFrom {size : ℕ} {reads rest : Source} {bytes : Bytes}
    (h : readFrom size reads = (rest, .done bytes)) : bytes.length ≤ size := by
  fun_induction readFrom size reads with
  | case1 =>
    cases h
    exact Nat.zero_le _
  | case2 bytes' reads hle =>
    cases h
    exact List.drop_eq_nil_iff.1 hle
  | case3 bytes' reads hlt =>
    cases h
    exact List.length_take_le _ _
  | case4 reads ih => exact ih h
  | case5 | case6 => cases h

namespace Connection

variable {η : Type}

/-! Checked steps. -/

/-- Offers a socket room behind what a buffer holds, and gives the rest of it back. -/
def checkedFill (buffer : Bytes) (reads : Source) : Checked (Bytes × Source × Attempt ℕ) := do
  let room := buffer ++ List.replicate readChunk 0
  let (held, offered) ← room.cutAt buffer.length
  match Socket.readFrom offered.length reads with
  | (reads, .done bytes) =>
    -- The octets take the front of what was offered.
    let (_, unused) ← offered.cutAt bytes.length
    let (filled, _) ← (held ++ bytes ++ unused).cutAt (buffer.length + bytes.length)
    return (filled, reads, .done bytes.length)
  | (reads, .blocked) => return (held, reads, .blocked)
  | (reads, .failed error) =>
    let (held, _) ← room.cutAt buffer.length
    return (held, reads, .failed error)

/-- `fetch`, every cut checked. -/
def checkedFetch (c : Connection η) (atEnd : Checked (Move η)) : Checked (Move η) := do
  let (buffer, reads, attempt) ← checkedFill c.reader.buffer c.socket.reads
  let socket := { c.socket with reads }
  match attempt with
  | .done 0 => atEnd
  | .done _ => return .stay { c with socket, reader := { c.reader with buffer } }
  | .blocked => return .wait .readable { c with socket }
  | .failed error => return .finish (.error (c.failure (.io error)))

/-- Encodes a response, which must have a version that can be written. -/
def checkedEncode (response : Response) : Checked Bytes :=
  if response.head.version ∈ [Version.http10, Version.http11] then
    match response.encode with
    | .ok bytes => .ok bytes
    | .error _ => .error .notEncoded
  else .error .unwrittenVersion

/-- `refuse`, the encoder checked. -/
def checkedRefuse (c : Connection η) (error : ParseError) : Checked (Move η) :=
  if error.isMalformed then
    (checkedEncode badRequest).map fun bytes => .enter { c with phase := .reject bytes error }
  else .ok (.finish (.error (.request error)))

def checkedBehindHead (c : Connection η) : Checked (Move η) :=
  match c.reader.head with
  | none => c.checkedRefuse (.invalidHeader .missingAfterParse)
  | some _ => .ok c.behindHead

def checkedStepHead (c : Connection η) : Checked (Move η) := do
  match ← c.reader.checkedSeekHead with
  | (reader, .starved) =>
    ({ c with reader } : Connection η).checkedFetch <|
      match reader.headAtEnd with
      | .ok _ => .ok (.finish (.ok ()))
      | .error error => ({ c with reader } : Connection η).checkedRefuse error
  | (reader, .done (.error error)) => ({ c with reader } : Connection η).checkedRefuse error
  | (reader, .done (.ok _)) =>
    match ← reader.checkedParseHead with
    | (reader, .error error) => ({ c with reader } : Connection η).checkedRefuse error
    | (reader, .ok _) => ({ c with reader } : Connection η).checkedBehindHead

/-- `openBody`, checked: the head has been read, and asked for it again the reader answers at once. -/
def checkedOpenBody (c : Connection η) : Checked (Move η) :=
  match c.reader.payload with
  | none => .error .headNotRead
  | some size =>
    match c.reader.checkSize size.contentLength with
    | .error error => c.checkedRefuse error
    | .ok () => .ok (.stay { c with phase := .readBody (some (.ofSize size)) })

/-- `dispatch`, the encoder checked. -/
def checkedDispatch (handler : Handler η) (c : Connection η) : Checked (List Note × Move η) :=
  match takeRequest? c.reader with
  | none => .ok ([], .finish (.error (.request (.invalidHeader .missingAfterBody))))
  | some (request, reader) =>
    let (state, response, keepAlive) := answer handler c.handler request
    (checkedEncode response).map fun bytes =>
      ([.called request],
        .enter { c with reader, handler := state, phase := .respond bytes keepAlive })

def checkedStepBody (handler : Handler η) (c : Connection η) (decoder : PayloadDecoder) :
    Checked (List Note × Move η) := do
  match ← FrameReader.checkedDrain decoder c.reader with
  | (_, reader, .done (.ok ())) => ({ c with reader } : Connection η).checkedDispatch handler
  | (_, reader, .done (.error error)) =>
    (({ c with reader } : Connection η).checkedRefuse error).map fun move => ([], move)
  | (decoder, reader, .starved) =>
    let c := { c with reader, phase := .readBody (some decoder) }
    (c.checkedFetch (match FrameReader.bodyAtEnd with
      | .ok () => .ok (.finish (.ok ()))
      | .error error => c.checkedRefuse error)).map fun move => ([], move)

/-- `transmit`, where what follows is checked. -/
def checkedTransmit (c : Connection η) (data : Bytes) (again : Bytes → Phase)
    (next : Connection η → Checked (Move η)) : Checked (List Note × Move η) :=
  let (transfer, socket, attempt) := c.socket.writeAll data
  let move := match attempt with
    | .done () => next { c with socket }
    | .blocked => .ok (.wait .writable { c with socket, phase := again transfer.rest })
    | .failed error => .ok (.finish (.error (c.failure (.io error))))
  move.map fun move => (transfer.accepted.map .accepted, move)

def checkedBehindResponse (keepAlive : Bool) (c : Connection η) : Checked (Move η) :=
  if keepAlive then
    c.reader.checkedNextFrame.map fun reader =>
      .enter { c with reader, served := c.served + 1, phase := .readHead }
  else .ok (.finish (.ok ()))

def checkedStep (handler : Handler η) (c : Connection η) : Checked (List Note × Move η) :=
  match c.phase with
  | .readHead => c.checkedStepHead.map fun move => ([], move)
  | .sendContinue rest =>
    c.checkedTransmit rest .sendContinue fun c => .ok (.enter { c with phase := .readBody none })
  | .readBody none => c.checkedOpenBody.map fun move => ([], move)
  | .readBody (some decoder) => c.checkedStepBody handler decoder
  | .respond rest keepAlive =>
    c.checkedTransmit rest (.respond · keepAlive) (checkedBehindResponse keepAlive)
  | .reject rest error =>
    c.checkedTransmit rest (.reject · error) fun _ => .ok (.finish (.error (.request error)))

/-! What never fails. -/

/-- The room is as large as what the socket is asked for, and holds what it reads. -/
theorem checkedFill_eq (buffer : Bytes) (reads : Source) :
    checkedFill buffer reads = .ok (match Socket.readFrom readChunk reads with
      | (reads, .done bytes) => (buffer ++ bytes, reads, .done bytes.length)
      | (reads, .blocked) => (buffer, reads, .blocked)
      | (reads, .failed error) => (buffer, reads, .failed error)) := by
  have hroom : (buffer ++ List.replicate readChunk 0).cutAt buffer.length =
      .ok (buffer, List.replicate readChunk 0) := by
    rw [Bytes.cutAt_of_le (by simp), List.take_left, List.drop_left]
  rw [checkedFill, hroom]
  dsimp only [bind, Except.bind]
  rw [List.length_replicate]
  rcases hread : Socket.readFrom readChunk reads with ⟨rest, bytes | _ | error⟩
  · have hle := Socket.length_le_of_readFrom hread
    dsimp only
    rw [Bytes.cutAt_of_le (by rwa [List.length_replicate])]
    dsimp only
    rw [Bytes.cutAt_of_le (by simp), List.take_left' (List.length_append)]
    rfl
  · rfl
  · rfl

theorem checkedFetch_eq (c : Connection η) (atEnd : Move η) :
    c.checkedFetch (.ok atEnd) = .ok (c.fetch atEnd) := by
  rw [checkedFetch, checkedFill_eq, fetch, Socket.read]
  rcases Socket.readFrom readChunk c.socket.reads with ⟨reads, (_ | ⟨b, bytes⟩) | _ | error⟩ <;> rfl

/-- A prepared response has one of the two versions, whatever version it had. -/
theorem version_prepare (response : Response) (version : Version) (keepAlive : Bool) :
    (response.prepare version keepAlive).head.version ∈ [Version.http10, Version.http11] := by
  rw [Response.prepare]
  dsimp only
  split_ifs <;> decide

theorem checkedEncode_prepare (response : Response) (version : Version) (keepAlive : Bool) :
    ∃ bytes, (response.prepare version keepAlive).encode = .ok bytes ∧
      checkedEncode (response.prepare version keepAlive) = .ok bytes := by
  obtain ⟨bytes, hbytes⟩ := response.exists_encode_prepare version keepAlive
  exact ⟨bytes, hbytes, by rw [checkedEncode, if_pos (version_prepare _ _ _), hbytes]⟩

theorem checkedRefuse_eq (c : Connection η) (error : ParseError) :
    c.checkedRefuse error = .ok (c.refuse error) := by
  obtain ⟨bytes, hbytes, hchecked⟩ :=
    checkedEncode_prepare (.ofStatus .badRequest .http11) .http11 false
  rw [checkedRefuse, refuse]
  split_ifs
  · rw [show checkedEncode badRequest = .ok bytes from hchecked,
      show badRequest.encode = .ok bytes from hbytes]
    rfl
  · rfl

theorem checkedBehindHead_eq (c : Connection η) : c.checkedBehindHead = .ok c.behindHead := by
  rw [checkedBehindHead]
  cases hhead : c.reader.head with
  | none =>
    rw [behindHead, hhead]
    exact c.checkedRefuse_eq _
  | some head => rfl

theorem checkedDispatch_eq (handler : Handler η) (c : Connection η) :
    c.checkedDispatch handler = .ok (c.dispatch handler) := by
  rw [checkedDispatch, dispatch]
  cases takeRequest? c.reader with
  | none => rfl
  | some taken =>
    obtain ⟨request, reader⟩ := taken
    obtain ⟨bytes, hbytes, hchecked⟩ : ∃ bytes,
        (answer handler c.handler request).2.1.encode = .ok bytes ∧
          checkedEncode (answer handler c.handler request).2.1 = .ok bytes :=
      checkedEncode_prepare _ _ _
    dsimp only
    rw [hbytes, hchecked]
    rfl

theorem checkedStepBody_eq (handler : Handler η) (c : Connection η) (decoder : PayloadDecoder) :
    c.checkedStepBody handler decoder = .ok (c.stepBody handler decoder) := by
  rw [checkedStepBody, FrameReader.checkedDrain_eq, stepBody]
  dsimp only [bind, Except.bind]
  rcases FrameReader.drain decoder c.reader with ⟨decoder', reader, (error | _) | _⟩
  · dsimp only
    rw [checkedRefuse_eq]
    rfl
  · exact checkedDispatch_eq handler _
  · dsimp only [FrameReader.bodyAtEnd]
    rw [checkedRefuse_eq, checkedFetch_eq]
    rfl

theorem checkedTransmit_eq (c : Connection η) (data : Bytes) (again : Bytes → Phase)
    {next : Connection η → Move η} {checkedNext : Connection η → Checked (Move η)}
    (hnext : ∀ socket, checkedNext { c with socket } = .ok (next { c with socket })) :
    c.checkedTransmit data again checkedNext = .ok (c.transmit data again next) := by
  rw [checkedTransmit, transmit]
  rcases c.socket.writeAll data with ⟨transfer, socket, _ | _ | error⟩
  · dsimp only
    rw [hnext]
    rfl
  · rfl
  · rfl

/-! Where the reader stands. -/

/-- The reader stands where the phase needs it. -/
def InOrder (c : Connection η) : Prop :=
  match c.phase with
  | .readHead => c.reader.AwaitsHead
  | .sendContinue _ | .readBody _ => c.reader.payload.isSome
  | .respond _ _ => c.reader.payload.isSome ∧ c.reader.bodyDone = true
  | .reject _ _ => True

/-- The move leads to a connection whose reader stands where it should, or to the end. -/
def Move.Orderly : Move η → Prop
  | .stay d | .enter d | .wait _ d => d.InOrder
  | .finish _ => True
  | .crash _ => False

theorem inOrder_begin (socket : Socket) (state : η) :
    InOrder ({ socket, handler := state } : Connection η) :=
  FrameReader.awaitsHead_extend_withMaxBody _ []

variable {handler : Handler η} {c : Connection η}

theorem orderly_refuse (c : Connection η) (error : ParseError) : (c.refuse error).Orderly := by
  rw [refuse]
  split
  · split <;> exact trivial
  · exact trivial

theorem orderly_fetch {atEnd : Move η} (hwait : ∀ socket, InOrder { c with socket })
    (hstay : ∀ socket bytes, InOrder { c with socket, reader := c.reader.extend bytes })
    (hatEnd : atEnd.Orderly) : (c.fetch atEnd).Orderly := by
  rw [fetch]
  split
  · exact hatEnd
  · exact hstay _ _
  · exact hwait _
  · exact trivial

theorem orderly_behindHead (hpayload : c.reader.payload.isSome) : c.behindHead.Orderly := by
  rw [behindHead]
  split
  · exact orderly_refuse c _
  · dsimp only
    split_ifs <;> exact hpayload

/-- The head is read where it has been found, and then the payload is known. -/
theorem spec_stepHead (hphase : c.phase = .readHead) (h : c.InOrder) :
    c.stepHead.Orderly ∧ c.checkedStepHead = .ok c.stepHead := by
  have hawaits : c.reader.AwaitsHead := by rwa [InOrder, hphase] at h
  rw [stepHead, checkedStepHead, hawaits.checkedSeekHead_eq]
  obtain ⟨s, hseek, hs⟩ | ⟨s, error, hseek⟩ | ⟨s, e, hseek, hholds⟩ := hawaits.seekHead_cases
  · -- Whether it waits or has fetched octets, the reader goes on to await a head.
    have hwait (d : Connection η) (hreader : d.reader.AwaitsHead) (hd : d.phase = c.phase) :
        d.InOrder := by rwa [InOrder, hd, hphase]
    have hfetch {atEnd : Move η} (hatEnd : atEnd.Orderly) :
        (({ c with reader := s } : Connection η).fetch atEnd).Orderly :=
      orderly_fetch (fun _ => hwait _ hs rfl) (fun _ bytes => hwait _ (hs.extend bytes) rfl) hatEnd
    rw [hseek]
    dsimp only [bind, Except.bind]
    cases s.headAtEnd with
    | error error =>
      dsimp only
      rw [checkedRefuse_eq, checkedFetch_eq]
      exact ⟨hfetch (orderly_refuse _ _), rfl⟩
    | ok found =>
      dsimp only
      rw [checkedFetch_eq]
      exact ⟨hfetch trivial, rfl⟩
  · rw [hseek]
    exact ⟨orderly_refuse _ error, checkedRefuse_eq _ error⟩
  · obtain ⟨⟨t, result⟩, hparse, hchecked⟩ := hholds.parseHead_eq
    rw [hseek]
    dsimp only [bind, Except.bind]
    rw [hparse, hchecked]
    cases result with
    | error error => exact ⟨orderly_refuse _ error, checkedRefuse_eq _ error⟩
    | ok n =>
      exact ⟨orderly_behindHead (FrameReader.payload_parseHead hparse), checkedBehindHead_eq _⟩

theorem spec_openBody (hpayload : c.reader.payload.isSome) :
    c.openBody.Orderly ∧ c.checkedOpenBody = .ok c.openBody := by
  obtain ⟨size, hsize⟩ := Option.isSome_iff_exists.1 hpayload
  rw [openBody, checkedOpenBody, hsize]
  dsimp only [Option.getD_some]
  cases c.reader.checkSize size.contentLength with
  | error error => exact ⟨orderly_refuse c error, checkedRefuse_eq c error⟩
  | ok => exact ⟨hpayload, rfl⟩

/-- A request goes to the handler when its payload has been read to the end. -/
theorem orderly_dispatch (hpayload : c.reader.payload.isSome) (hdone : c.reader.bodyDone = true) :
    (c.dispatch handler).2.Orderly := by
  rw [dispatch]
  split
  · exact trivial
  · rename_i request reader htake
    obtain ⟨hsame, hended⟩ := takeRequest?_keeps htake
    dsimp only
    split
    · exact trivial
    · refine ⟨?_, hended.trans hdone⟩
      rwa [hsame]

theorem orderly_stepBody {decoder : PayloadDecoder} (hpayload : c.reader.payload.isSome) :
    (c.stepBody handler decoder).2.Orderly := by
  have hdrain := FrameReader.carries_drain decoder hpayload
  have hsome := hdrain.isSome_payload (.inl hpayload)
  rw [stepBody]
  split <;> rename_i heq <;> rw [heq] at hdrain hsome
  · refine orderly_dispatch hsome ?_
    rw [hdrain.bodyDone_eq]
    exact Bool.or_true _
  · exact orderly_refuse _ _
  · exact orderly_fetch (fun _ => hsome) (fun _ _ => hsome) (orderly_refuse _ _)

theorem orderly_transmit {data : Bytes} {again : Bytes → Phase} {next : Connection η → Move η}
    (hagain : ∀ socket rest, InOrder { c with socket, phase := again rest })
    (hnext : ∀ socket, (next { c with socket }).Orderly) :
    (c.transmit data again next).2.Orderly := by
  rw [transmit]
  rcases c.socket.writeAll data with ⟨transfer, socket, _ | _ | error⟩
  · exact hnext socket
  · exact hagain socket _
  · exact trivial

/-- Behind a payload that has been read, the reader goes on to the next request. -/
theorem spec_behindResponse (keepAlive : Bool) (hpayload : c.reader.payload.isSome)
    (hdone : c.reader.bodyDone = true) :
    (c.behindResponse keepAlive).Orderly ∧
      c.checkedBehindResponse keepAlive = .ok (c.behindResponse keepAlive) := by
  rw [behindResponse, checkedBehindResponse]
  split_ifs
  · rw [FrameReader.nextFrame_of_bodyDone hpayload hdone,
      FrameReader.checkedNextFrame_of_bodyDone hpayload hdone]
    exact ⟨FrameReader.awaitsHead_extend_withMaxBody _ _, rfl⟩
  · exact ⟨trivial, rfl⟩

/-- A step from a point where the reader stands as it should leads to such a point, and all that it
relies on is so. -/
theorem spec_step (handler : Handler η) (h : c.InOrder) :
    (c.step handler).2.Orderly ∧ c.checkedStep handler = .ok (c.step handler) := by
  obtain ⟨socket, state, reader, served, phase⟩ := c
  cases phase with
  | readHead =>
    obtain ⟨horderly, hchecked⟩ := spec_stepHead rfl h
    exact ⟨horderly, congrArg (Except.map _) hchecked⟩
  | sendContinue rest =>
    refine ⟨orderly_transmit (fun _ _ => h) fun _ => h, ?_⟩
    dsimp only [step, checkedStep]
    exact checkedTransmit_eq _ _ _ fun _ => rfl
  | readBody decoder =>
    cases decoder with
    | none =>
      obtain ⟨horderly, hchecked⟩ := spec_openBody h
      exact ⟨horderly, congrArg (Except.map _) hchecked⟩
    | some decoder => exact ⟨orderly_stepBody h, checkedStepBody_eq handler _ decoder⟩
  | respond rest keepAlive =>
    -- The payload was read before the response was begun, and writing does not touch the reader.
    obtain ⟨hpayload, hdone⟩ := h
    have hnext (socket : Socket) := spec_behindResponse
      (c := (⟨socket, state, reader, served, .respond rest keepAlive⟩ : Connection η))
      keepAlive hpayload hdone
    refine ⟨orderly_transmit (fun _ _ => ⟨hpayload, hdone⟩) fun socket => (hnext socket).1, ?_⟩
    dsimp only [step, checkedStep]
    exact checkedTransmit_eq _ _ _ fun socket => (hnext socket).2
  | reject rest error =>
    refine ⟨orderly_transmit (fun _ _ => trivial) fun _ => trivial, ?_⟩
    dsimp only [step, checkedStep]
    exact checkedTransmit_eq _ _ _ fun _ => rfl

/-! Whole courses. -/

/-- The connection is not lost, and its reader stands where it should. -/
def Point.InOrder : Point η → Prop
  | serving c | waiting c => c.InOrder
  | closed _ => True
  | crashed _ => False

theorem Point.InOrder.advance {p q : Point η} {notes : List Note} (h : p.InOrder)
    (hadvance : Advance handler p notes q) : q.InOrder := by
  cases hadvance with
  | @goes c d notes move hstep honward =>
    have horderly := (spec_step handler h).1
    rw [hstep] at horderly
    cases move <;> cases honward <;> exact horderly
  | waits hstep =>
    have horderly := (spec_step handler h).1
    rwa [hstep] at horderly
  | ends | expires => exact trivial
  | crashes hstep =>
    have horderly := (spec_step handler h).1
    rwa [hstep] at horderly
  | wakes c => exact h

theorem Point.InOrder.walk {p q : Point η} {notes : List Note} (h : p.InOrder)
    (hwalk : Walk handler p notes q) : q.InOrder := by
  induction hwalk with
  | refl => exact h
  | tail _ hadvance ih => exact ih.advance hadvance

structure Safe (handler : Handler η) (c : Connection η) : Prop where
  /-- No check fails, and nothing changes by checking. -/
  checked : c.checkedStep handler = .ok (c.step handler)
  /-- When a head is read, its end is among the octets that the reader holds. -/
  head : c.phase = .readHead → ∀ s found, c.reader.seekHead = (s, .done (.ok found)) →
    ∃ e, s.HoldsHead e
  /-- While a response is written, behind which the next request is turned to, the payload of the last
  one has been read to its end. -/
  payload : ∀ rest keepAlive, c.phase = .respond rest keepAlive →
    c.reader.payload.isSome ∧ c.reader.bodyDone = true
  /-- Whatever the handler answers, the response is encoded, and with version 1.0 or 1.1. -/
  encoded : ∀ request, ∃ bytes, (answer handler c.handler request).2.1.encode = .ok bytes ∧
    (answer handler c.handler request).2.1.head.version ∈ [Version.http10, Version.http11]

theorem InOrder.safe (h : c.InOrder) (handler : Handler η) : Safe handler c where
  checked := (spec_step handler h).2
  head hphase s found hseek := by
    have hawaits : c.reader.AwaitsHead := by rwa [InOrder, hphase] at h
    obtain ⟨t, ht, -⟩ | ⟨t, error, ht⟩ | ⟨t, e, ht, hholds⟩ := hawaits.seekHead_cases
    · cases ht.symm.trans hseek
    · cases ht.symm.trans hseek
    · cases ht.symm.trans hseek
      exact ⟨e, hholds⟩
  payload rest keepAlive hphase := by rwa [InOrder, hphase] at h
  encoded request := by
    obtain ⟨bytes, hbytes, -⟩ := checkedEncode_prepare _ _ _
    exact ⟨bytes, hbytes, version_prepare _ _ _⟩

/-- Whatever the socket does, whatever the handler answers and whatever wakes the task, a connection
is never lost, and at every point of its course it is safe. -/
theorem safe_of_walk (handler : Handler η) (socket : Socket) (state : η) :
    ∀ notes p, Walk handler (.serving { socket, handler := state }) notes p →
      (∀ cause, p ≠ .crashed cause) ∧ ∀ c, p.connection? = some c → Safe handler c := by
  intro notes p hwalk
  have hbegin : (Point.serving { socket, handler := state } : Point η).InOrder :=
    inOrder_begin socket state
  have horder := hbegin.walk hwalk
  refine ⟨?_, fun c hc => ?_⟩
  · rintro cause rfl
    exact horder
  · cases p with
    | serving d | waiting d =>
      cases hc
      exact InOrder.safe horder handler
    | closed | crashed => cases hc

/-- A service that answers in version 2. -/
def newerVersion : Service Unit where
  handler := ⟨fun _ _ => ((), .ok ⟨⟨.ok, .http2, .empty⟩, []⟩)⟩

/-- A request of version 1.0 that arrives in two pieces, with a pause between them. -/
def pausedRequest : Socket where
  reads := [.bytes (ascii "GET / HT"), .failure .interrupted, .failure .wouldBlock,
    .bytes (ascii "TP/1.0\r\n\r\n")]
  writes := []

/-- It is answered, and in its own version, and nothing is lost. -/
theorem exists_safe_newerVersion :
    ∃ notes p, Walk newerVersion.handler (.serving { socket := pausedRequest, handler := () })
        notes p ∧
      written notes = ascii "HTTP/1.0 200 OK\r\nconnection: close\r\ncontent-length: 0\r\n\r\n" ∧
      ∀ cause, p ≠ .crashed cause := by
  let context : TaskContext := ⟨⟨0, 0⟩, 3, .readable, .empty⟩
  obtain ⟨notes, p, hwalk, -, hhistory⟩ := exists_walk_history context [.io .readable]
    (follows_start newerVersion 3 { socket := pausedRequest, handler := () })
  have hwritten := congrArg (fun entries => written (entries.map Prod.snd)) hhistory
  have hnotes : (notes.map fun note => (context.fd, note)).map Prod.snd = notes := by
    rw [List.map_map]
    exact List.map_id notes
  refine ⟨notes, p, hwalk, ?_, (safe_of_walk newerVersion.handler pausedRequest () notes p hwalk).1⟩
  rw [← hnotes, ← hwritten]
  decide +kernel

end Connection

end CoopHttp
