import CoopHttp.Connection.Progress
import CoopHttp.Proofs.Frame.Operations
import CoopHttp.Proofs.Head.Response
import CoopHttp.Proofs.Socket

/-!
# What a step of a connection can come to

`Passage` lists everything that one step can do: which phases follow which, what the step notes, and
what stays as it was. The phases, what is written and the deadlines are followed along a run by
these cases alone.
-/
namespace CoopHttp

namespace Phase

/-- A phase without what it keeps. -/
inductive Kind
  | readHead
  | sendContinue
  | readBody
  | respond
  | reject
  deriving DecidableEq, Repr

def kind : Phase → Kind
  | readHead => .readHead
  | sendContinue _ => .sendContinue
  | readBody _ => .readBody
  | respond _ _ => .respond
  | reject _ _ => .reject

def Reads (phase : Phase) : Prop := phase.kind = .readHead ∨ phase.kind = .readBody

/-- The octets that a phase has still to write. -/
def rest? : Phase → Option Bytes
  | readHead | readBody _ => none
  | sendContinue rest | respond rest _ | reject rest _ => some rest

def withRest (rest : Bytes) : Phase → Phase
  | sendContinue _ => sendContinue rest
  | respond _ keepAlive => respond rest keepAlive
  | reject _ error => reject rest error
  | phase => phase

theorem kind_withRest (rest : Bytes) (phase : Phase) : (phase.withRest rest).kind = phase.kind := by
  cases phase <;> rfl

end Phase

namespace Connection

variable {η : Type}

/-- The handler's state, the number of requests answered and the declared payload are the same. -/
structure Alike (c d : Connection η) : Prop where
  handler_eq : d.handler = c.handler
  served_eq : d.served = c.served
  payload_eq : d.reader.payload = c.reader.payload

inductive Passage (handler : Handler η) (c : Connection η) : List Note → Move η → Prop
  /-- Octets have been read, or the decoder of a body has been chosen. -/
  | stayed {d : Connection η} (reads : c.phase.Reads) (kind_eq : d.phase.kind = c.phase.kind)
      (alike : Alike c d) : Passage handler c [] (.stay d)
  | starved {d : Connection η} (reads : c.phase.Reads) (kind_eq : d.phase.kind = c.phase.kind)
      (alike : Alike c d) : Passage handler c [] (.wait .readable d)
  /-- The other side has closed between two requests. -/
  | closed (phase_eq : c.phase = .readHead) : Passage handler c [] (.finish (.ok ()))
  | failed (reads : c.phase.Reads) (error : HttpError) :
      Passage handler c [] (.finish (.error error))
  | crashed (phase_eq : c.phase = .readHead) (cause : Crash) : Passage handler c [] (.crash cause)
  | refused {d : Connection η} {bytes : Bytes} {error : ParseError} (reads : c.phase.Reads)
      (malformed : error.isMalformed) (encoded : badRequest.encode = .ok bytes)
      (phase_eq : d.phase = .reject bytes error) (handler_eq : d.handler = c.handler)
      (served_eq : d.served = c.served) : Passage handler c [] (.enter d)
  | headRead {d : Connection η} (phase_eq : c.phase = .readHead)
      (next_eq : d.phase = .sendContinue continueBytes ∨ d.phase = .readBody none)
      (handler_eq : d.handler = c.handler) (served_eq : d.served = c.served)
      (payload : d.reader.payload.isSome) : Passage handler c [] (.enter d)
  | called {d : Connection η} {request : Request} {response : Response} {keepAlive : Bool}
      {bytes : Bytes} (kind_eq : c.phase.kind = .readBody)
      (answered : answer handler c.handler request = (d.handler, response, keepAlive))
      (encoded : response.encode = .ok bytes) (phase_eq : d.phase = .respond bytes keepAlive)
      (served_eq : d.served = c.served) (payload_eq : d.reader.payload = c.reader.payload) :
      Passage handler c [.called request] (.enter d)
  /-- Some of the octets have been written. -/
  | wrote {d : Connection η} {data rest : Bytes} {pieces : List Bytes}
      (data_eq : c.phase.rest? = some data) (join_eq : pieces.flatten ++ rest = data)
      (rest_ne : rest ≠ []) (phase_eq : d.phase = c.phase.withRest rest) (alike : Alike c d) :
      Passage handler c (pieces.map .accepted) (.wait .writable d)
  | broken {data rest : Bytes} {pieces : List Bytes} (data_eq : c.phase.rest? = some data)
      (join_eq : pieces.flatten ++ rest = data) (rest_ne : rest ≠ []) (error : IoError) :
      Passage handler c (pieces.map .accepted) (.finish (.error (c.failure (.io error))))
  | continued {d : Connection η} {pieces : List Bytes}
      (phase_eq : c.phase = .sendContinue pieces.flatten) (next_eq : d.phase = .readBody none)
      (alike : Alike c d) : Passage handler c (pieces.map .accepted) (.enter d)
  /-- A response has been written, and the connection stays open. -/
  | answered {d : Connection η} {pieces : List Bytes}
      (phase_eq : c.phase = .respond pieces.flatten true) (next_eq : d.phase = .readHead)
      (handler_eq : d.handler = c.handler) (served_eq : d.served = c.served + 1) :
      Passage handler c (pieces.map .accepted) (.enter d)
  | lost {pieces : List Bytes} (phase_eq : c.phase = .respond pieces.flatten true)
      (payload_eq : c.reader.payload = none) (cause : Crash) :
      Passage handler c (pieces.map .accepted) (.crash cause)
  | parted {pieces : List Bytes} (phase_eq : c.phase = .respond pieces.flatten false) :
      Passage handler c (pieces.map .accepted) (.finish (.ok ()))
  | rejected {pieces : List Bytes} {error : ParseError}
      (phase_eq : c.phase = .reject pieces.flatten error) :
      Passage handler c (pieces.map .accepted) (.finish (.error (.request error)))

variable {handler : Handler η} {c d : Connection η}

/-! Reading. -/

theorem passage_refuse (hreads : c.phase.Reads) (hhandler : d.handler = c.handler)
    (hserved : d.served = c.served) (error : ParseError) :
    Passage handler c [] (d.refuse error) := by
  obtain ⟨bytes, hbytes⟩ : ∃ bytes, badRequest.encode = .ok bytes :=
    Response.exists_encode_prepare _ _ _
  rw [refuse]
  split_ifs with hmalformed
  · rw [hbytes]
    exact .refused hreads hmalformed hbytes rfl hhandler hserved
  · exact .failed hreads _

theorem passage_fetch (hreads : c.phase.Reads) (hkind : d.phase.kind = c.phase.kind)
    (halike : Alike c d) {atEnd : Move η} (hatEnd : Passage handler c [] atEnd) :
    Passage handler c [] (d.fetch atEnd) := by
  rw [fetch]
  split
  · exact hatEnd
  · exact .stayed hreads hkind ⟨halike.handler_eq, halike.served_eq, halike.payload_eq⟩
  · exact .starved hreads hkind ⟨halike.handler_eq, halike.served_eq, halike.payload_eq⟩
  · exact .failed hreads _

theorem passage_behindHead (hphase : c.phase = .readHead) (hhandler : d.handler = c.handler)
    (hserved : d.served = c.served) (hpayload : d.reader.payload.isSome) :
    Passage handler c [] d.behindHead := by
  have hreads : c.phase.Reads := .inl (congrArg _ hphase)
  rw [behindHead]
  split
  · exact passage_refuse hreads hhandler hserved _
  · dsimp only
    split_ifs
    · exact .headRead hphase (.inl rfl) hhandler hserved hpayload
    · exact .headRead hphase (.inr rfl) hhandler hserved hpayload

theorem passage_stepHead (hphase : c.phase = .readHead) : Passage handler c [] c.stepHead := by
  have hreads : c.phase.Reads := .inl (congrArg _ hphase)
  have hpayload := FrameReader.payload_findEnd c.reader
  rw [← FrameReader.seekHead_fst] at hpayload
  rw [stepHead]
  split
  · rename_i reader heq
    rw [heq] at hpayload
    refine passage_fetch hreads ?_ ⟨?_, ?_, hpayload⟩ ?_ <;> try rfl
    split
    · exact .closed hphase
    · refine passage_refuse hreads ?_ ?_ _ <;> rfl
  · refine passage_refuse hreads ?_ ?_ _ <;> rfl
  · split
    · exact .crashed hphase _
    · refine passage_refuse hreads ?_ ?_ _ <;> rfl
    · rename_i hparse
      refine passage_behindHead hphase ?_ ?_ (FrameReader.payload_parseHead hparse) <;> rfl

theorem passage_openBody (hphase : c.phase = .readBody none) : Passage handler c [] c.openBody := by
  have hreads : c.phase.Reads := .inr (congrArg _ hphase)
  rw [openBody]
  split
  · exact passage_refuse hreads rfl rfl _
  · refine .stayed hreads ?_ ⟨rfl, rfl, rfl⟩
    rw [hphase]
    rfl

/-- A request is taken out of a reader without a change to what it has been told of the payload. -/
theorem takeRequest?_keeps {r s : FrameReader} {request : Request}
    (h : takeRequest? r = some (request, s)) : s.payload = r.payload ∧ s.bodyDone = r.bodyDone := by
  unfold takeRequest? FrameReader.takeHead FrameReader.takeBody FrameReader.takeTrailers at h
  split at h
  · cases h
  · rename_i heq
    obtain ⟨rfl, -⟩ := Prod.mk.inj heq
    obtain ⟨-, rfl⟩ := Prod.mk.inj (Option.some.inj h)
    exact ⟨rfl, rfl⟩

theorem passage_dispatch (hkind : c.phase.kind = .readBody) (halike : Alike c d) :
    Passage handler c (d.dispatch handler).1 (d.dispatch handler).2 := by
  rw [dispatch]
  split
  · exact .failed (.inr hkind) _
  · rename_i request reader htake
    have hpayload := (takeRequest?_keeps htake).1.trans halike.payload_eq
    obtain ⟨bytes, hbytes⟩ : ∃ bytes, (answer handler d.handler request).2.1.encode = .ok bytes :=
      Response.exists_encode_prepare _ _ _
    have hanswer : answer handler c.handler request = answer handler d.handler request := by
      rw [halike.handler_eq]
    dsimp only
    rw [hbytes]
    exact .called hkind hanswer hbytes rfl halike.served_eq hpayload

theorem passage_stepBody {decoder : PayloadDecoder} (hphase : c.phase = .readBody (some decoder)) :
    Passage handler c (c.stepBody handler decoder).1 (c.stepBody handler decoder).2 := by
  have hkind : c.phase.kind = .readBody := congrArg _ hphase
  have hreads : c.phase.Reads := .inr hkind
  have hpayload := FrameReader.payload_drain decoder c.reader
  rw [stepBody]
  split <;> rename_i heq <;> rw [heq] at hpayload
  · exact passage_dispatch hkind ⟨rfl, rfl, hpayload⟩
  · refine passage_refuse hreads ?_ ?_ _ <;> rfl
  · refine passage_fetch hreads ?_ ⟨?_, ?_, hpayload⟩ ?_ <;> try rfl
    · exact hkind.symm
    · refine passage_refuse hreads ?_ ?_ _ <;> rfl

/-! Writing. -/

/-- A transmission that is not done waits or fails in the phase it was in. -/
theorem passage_transmit {data : Bytes} (hdata : c.phase.rest? = some data)
    {again : Bytes → Phase} (hagain : ∀ rest, again rest = c.phase.withRest rest)
    {next : Connection η → Move η}
    (hnext : ∀ (d : Connection η) (pieces : List Bytes), pieces.flatten = data → Alike c d →
      d.reader = c.reader → Passage handler c (pieces.map .accepted) (next d)) :
    Passage handler c (c.transmit data again next).1 (c.transmit data again next).2 := by
  have hsettles := Socket.settles_writeAllTo data c.socket.writes
  rw [transmit, Socket.writeAll]
  cases hwrite : Socket.writeAllTo data c.socket.writes with
  | mk transfer rest =>
    obtain ⟨writes, attempt⟩ := rest
    rw [hwrite] at hsettles
    obtain ⟨hjoin, hdone⟩ := hsettles
    cases attempt with
    | done u =>
      have hflatten : transfer.accepted.flatten = data := by
        rw [← hjoin, hdone.1 rfl, List.append_nil]
      exact hnext _ _ hflatten ⟨rfl, rfl, rfl⟩ rfl
    | blocked =>
      have hrest : transfer.rest ≠ [] := fun h => by cases hdone.2 h
      exact .wrote hdata hjoin hrest (hagain _) ⟨rfl, rfl, rfl⟩
    | failed error =>
      have hrest : transfer.rest ≠ [] := fun h => by cases hdone.2 h
      exact .broken hdata hjoin hrest error

/-- A frame whose payload is known ends there. -/
theorem exists_nextFrame {r : FrameReader} (h : r.payload.isSome) :
    ∃ s, r.nextFrame = .ok s := by
  obtain ⟨size, hsize⟩ := Option.isSome_iff_exists.1 h
  exact ⟨_, by rw [FrameReader.nextFrame, hsize]⟩

theorem passage_step (handler : Handler η) (c : Connection η) :
    Passage handler c (c.step handler).1 (c.step handler).2 := by
  rw [step]
  split <;> rename_i hphase
  · exact passage_stepHead hphase
  · refine passage_transmit (congrArg Phase.rest? hphase) (fun rest => ?_) ?_
    · rw [hphase]
      rfl
    · rintro d pieces rfl halike -
      exact .continued hphase rfl ⟨halike.handler_eq, halike.served_eq, halike.payload_eq⟩
  · exact passage_openBody hphase
  · exact passage_stepBody hphase
  · rename_i rest keepAlive
    refine passage_transmit (congrArg Phase.rest? hphase) (fun rest => ?_) ?_
    · rw [hphase]
      rfl
    · rintro d pieces rfl halike hreader
      rw [behindResponse]
      split_ifs with hkeep
      · subst hkeep
        split
        · rename_i cause hcrash
          refine .lost hphase ?_ cause
          by_contra hpayload
          obtain ⟨s, hs⟩ := exists_nextFrame (Option.isSome_iff_ne_none.2 hpayload)
          rw [hreader, hs] at hcrash
          cases hcrash
        · exact .answered hphase rfl halike.handler_eq (congrArg (· + 1) halike.served_eq)
      · obtain rfl := Bool.eq_false_iff.2 hkeep
        exact .parted hphase
  · refine passage_transmit (congrArg Phase.rest? hphase) (fun rest => ?_) ?_
    · rw [hphase]
      rfl
    · rintro d pieces rfl halike -
      exact .rejected hphase

theorem passage_of_step {notes : List Note} {move : Move η} (h : c.step handler = (notes, move)) :
    Passage handler c notes move := by
  have hpassage := passage_step handler c
  rwa [h] at hpassage

end Connection

end CoopHttp
