import CoopHttp.Proofs.Connection.Responses
import CoopHttp.Proofs.Head.Members

/-!
# Connections that are asked to close

A `close` among the members of a `Connection` field, of the request or of the handler's response,
makes the answer the last thing on the connection. There is one exception: in version 1.0 a request
that lists `keep-alive` as well keeps its connection, unless the response asks to close.
-/
namespace CoopHttp

/-- Behind what the phase writes, the connection ends. -/
def Phase.IsLast : Phase → Prop
  | respond _ keepAlive => keepAlive = false
  | reject _ _ => True
  | readHead | sendContinue _ | readBody _ => False

theorem Phase.isLast_withRest {phase : Phase} (h : phase.IsLast) (rest : Bytes) :
    (phase.withRest rest).IsLast := by
  cases phase <;> exact h

theorem Phase.rest?_withRest {phase : Phase} (h : phase.IsLast) (rest : Bytes) :
    (phase.withRest rest).rest? = some rest := by
  cases phase with
  | readHead | sendContinue | readBody => exact h.elim
  | respond | reject => rfl

namespace Connection

variable {η : Type}

/-! What an answer decides. -/

/-- The request, or the handler's response to it, asks to close the connection. -/
def AsksToClose (handler : Handler η) (state : η) (request : Request) : Prop :=
  request.head.fields.Lists .connection (ascii "close") ∨
    ∃ response, (handler.call state request).2 = .ok response ∧
      response.head.fields.Lists .connection (ascii "close")

/-- The request is of version 1.0 and lists `keep-alive`, and the response does not ask to close. -/
structure Insists (handler : Handler η) (state : η) (request : Request) : Prop where
  version_eq : request.head.version = .http10
  lists : request.head.fields.Lists .connection (ascii "keep-alive")
  silent : ∀ response, (handler.call state request).2 = .ok response →
    ¬ response.head.fields.Lists .connection (ascii "close")

theorem hasToken_close_iff (fields : Fields) :
    fields.hasToken .connection (ascii "close") = true ↔
      fields.Lists .connection (ascii "close") :=
  Fields.hasToken_iff (by decide) (by decide +kernel)

theorem hasToken_keepAlive_iff (fields : Fields) :
    fields.hasToken .connection (ascii "keep-alive") = true ↔
      fields.Lists .connection (ascii "keep-alive") :=
  Fields.hasToken_iff (by decide) (by decide +kernel)

/-- The answer keeps the connection if the request does and the response does not ask to close; the
answer to a failure of the handler does not ask. -/
theorem keepAlive_answer_iff (handler : Handler η) (state : η) (request : Request) :
    (answer handler state request).2.2 = true ↔ request.head.keepsAlive = true ∧
      ∀ response, (handler.call state request).2 = .ok response →
        ¬ response.head.fields.Lists .connection (ascii "close") := by
  rw [answer]
  rcases handler.call state request with ⟨state', error | response⟩
  · have hsilent :
        (Response.ofStatus .internalServerError request.head.version).wantsClose = false := by
      rfl
    simp [hsilent]
  · simp [Response.wantsClose, ← hasToken_close_iff]

/-- The response says whether the answer keeps the connection. -/
theorem getAll_connection_answer (handler : Handler η) (state : η) (request : Request) :
    (answer handler state request).2.1.writtenFields.getAll .connection =
      [if (answer handler state request).2.2 then .keepAlive else .close] :=
  Response.getAll_connection_prepare _ _ _

/-- Of the requests that are to close the connection, an answer keeps just those that insist. -/
theorem AsksToClose.keepAlive_answer_iff {handler : Handler η} {state : η} {request : Request}
    (h : AsksToClose handler state request) :
    (answer handler state request).2.2 = true ↔ Insists handler state request := by
  rw [Connection.keepAlive_answer_iff, RequestHead.keepsAlive]
  constructor
  · rintro ⟨hkeeps, hsilent⟩
    split at hkeeps
    · -- Version 1.1 looks for the very word that the request or the response lists.
      obtain hlists | ⟨response, hresponse, hlists⟩ := h
      · rw [(hasToken_close_iff _).2 hlists] at hkeeps
        cases hkeeps
      · exact absurd hlists (hsilent response hresponse)
    · rename_i hversion
      exact ⟨hversion, (hasToken_keepAlive_iff _).1 hkeeps, hsilent⟩
    · cases hkeeps
  · rintro ⟨hversion, hlists, hsilent⟩
    rw [hversion]
    exact ⟨(hasToken_keepAlive_iff _).2 hlists, hsilent⟩

/-! The last octets of a connection. -/

/-- What is written in these notes, up to this point, are the last octets of a connection, or the
beginning of them; nothing is read meanwhile, and the handler is not called. -/
structure Concludes (bytes : Bytes) (notes : List Note) (p : Point η) : Prop where
  uncalled : calls notes = []
  begun : written notes <+: bytes
  sending : ∀ c, p.connection? = some c →
    c.phase.IsLast ∧ ∃ rest, c.phase.rest? = some rest ∧ written notes ++ rest = bytes
  complete : p = .closed (.ok ()) → written notes = bytes
  not_crashed : ∀ cause, p ≠ .crashed cause

variable {handler : Handler η} {c : Connection η} {more : List Note} {move : Move η}

/-- A step of a last phase writes some of its octets, and goes on with the others or ends. -/
theorem Passage.of_isLast {rest : Bytes} (h : Passage handler c more move) (hlast : c.phase.IsLast)
    (hrest : c.phase.rest? = some rest) :
    ∃ (pieces : List Bytes) (left : Bytes),
      more = pieces.map .accepted ∧ pieces.flatten ++ left = rest ∧
      ((∃ d, move = .wait .writable d ∧ d.phase = c.phase.withRest left) ∨
        (∃ error, move = .finish (.error error)) ∨ (move = .finish (.ok ()) ∧ left = [])) := by
  have hreads : ¬ c.phase.Reads := by
    rintro (hkind | hkind) <;> cases hphase : c.phase <;> rw [hphase] at hlast hkind <;>
      first | exact hlast | cases hkind
  cases h with
  | stayed reads | starved reads | failed reads | refused reads => exact absurd reads hreads
  | closed phase_eq | crashed phase_eq | headRead phase_eq =>
    exact absurd (.inl (congrArg Phase.kind phase_eq)) hreads
  | called kind_eq => exact absurd (.inr kind_eq) hreads
  | @wrote d _ left pieces data_eq join_eq rest_ne phase_eq =>
    cases hrest.symm.trans data_eq
    exact ⟨pieces, left, rfl, join_eq, .inl ⟨d, rfl, phase_eq⟩⟩
  | @broken _ left pieces data_eq join_eq rest_ne error =>
    cases hrest.symm.trans data_eq
    exact ⟨pieces, left, rfl, join_eq, .inr (.inl ⟨_, rfl⟩)⟩
  | continued phase_eq =>
    rw [phase_eq] at hlast
    exact hlast.elim
  | answered phase_eq | lost phase_eq =>
    rw [phase_eq] at hlast
    cases hlast
  | @parted pieces phase_eq =>
    rw [phase_eq] at hrest
    exact ⟨pieces, [], rfl, (List.append_nil _).trans (Option.some.inj hrest),
      .inr (.inr ⟨rfl, rfl⟩)⟩
  | @rejected pieces error phase_eq =>
    rw [phase_eq] at hrest
    exact ⟨pieces, [], rfl, (List.append_nil _).trans (Option.some.inj hrest), .inr (.inl ⟨_, rfl⟩)⟩

namespace Concludes

variable {bytes : Bytes} {notes : List Note} {p q : Point η}

theorem begin {rest : Bytes} (hlast : c.phase.IsLast) (hrest : c.phase.rest? = some rest)
    (hc : p.connection? = some c) : Concludes rest [] p where
  uncalled := rfl
  begun := List.nil_prefix
  sending d hd := by
    cases hc.symm.trans hd
    exact ⟨hlast, rest, hrest, rfl⟩
  complete hp := by
    subst hp
    cases hc
  not_crashed cause hp := by
    subst hp
    cases hc

theorem advance (h : Concludes bytes notes p) (hadvance : Advance handler p more q) :
    Concludes bytes (notes ++ more) q := by
  cases hadvance with
  | goes step_eq onward =>
    obtain ⟨hlast, rest, hrest, -⟩ := h.sending _ rfl
    obtain ⟨pieces, left, -, -, hmove⟩ := (passage_of_step step_eq).of_isLast hlast hrest
    obtain ⟨d, rfl, -⟩ | ⟨error, rfl⟩ | ⟨rfl, -⟩ := hmove <;> cases onward
  | waits step_eq =>
    obtain ⟨hlast, rest, hrest, hjoin⟩ := h.sending _ rfl
    obtain ⟨pieces, left, rfl, rfl, hmove⟩ := (passage_of_step step_eq).of_isLast hlast hrest
    obtain ⟨d, hwait, hphase⟩ | ⟨error, hwait⟩ | ⟨hwait, -⟩ := hmove <;> cases hwait
    have htotal : written (notes ++ pieces.map .accepted) ++ left = bytes := by
      rw [written_append_pieces, List.append_assoc, hjoin]
    refine ⟨(calls_append_pieces _ _).trans h.uncalled, ⟨left, htotal⟩, fun e he => ?_,
      fun hp => (by cases hp), fun cause hp => by cases hp⟩
    cases he
    rw [hphase]
    exact ⟨Phase.isLast_withRest hlast left, left, Phase.rest?_withRest hlast left, htotal⟩
  | @ends _ notes' result step_eq =>
    obtain ⟨hlast, rest, hrest, hjoin⟩ := h.sending _ rfl
    obtain ⟨pieces, left, rfl, rfl, hmove⟩ := (passage_of_step step_eq).of_isLast hlast hrest
    have hcalls : calls (notes ++ (pieces.map .accepted ++ parting result)) = [] := by
      rw [calls_append, calls_append, calls_pieces, h.uncalled]
      rfl
    have hwritten :
        written (notes ++ (pieces.map .accepted ++ parting result)) ++ left = bytes := by
      rw [written_append, written_append, written_pieces, ← hjoin]
      simp [parting, written]
    refine ⟨hcalls, ⟨left, hwritten⟩, fun e he => (by cases he), fun hok => ?_,
      fun cause hp => by cases hp⟩
    obtain ⟨d, hfinish, -⟩ | ⟨error, hfinish⟩ | ⟨hfinish, hleft⟩ := hmove
    · cases hfinish
    · cases hfinish
      cases hok
    · rwa [hleft, List.append_nil] at hwritten
  | crashes step_eq =>
    obtain ⟨hlast, rest, hrest, -⟩ := h.sending _ rfl
    obtain ⟨pieces, left, -, -, hmove⟩ := (passage_of_step step_eq).of_isLast hlast hrest
    obtain ⟨d, hcrash, -⟩ | ⟨error, hcrash⟩ | ⟨hcrash, -⟩ := hmove <;> cases hcrash
  | wakes d =>
    rw [List.append_nil]
    exact ⟨h.uncalled, h.begun, fun e he => h.sending e he, fun hp => (by cases hp),
      fun cause hp => by cases hp⟩
  | expires d timer =>
    refine ⟨?_, ?_, fun e he => (by cases he), fun hp => (by cases hp), fun cause hp => by cases hp⟩
    · rw [calls_append, h.uncalled]
      rfl
    · rw [written_append]
      exact (List.append_nil _).symm ▸ h.begun

theorem walk {later : List Note} (h : Concludes bytes notes p) (hwalk : Walk handler p later q) :
    Concludes bytes (notes ++ later) q := by
  induction hwalk with
  | refl => rwa [List.append_nil]
  | tail _ hadvance ih =>
    rw [← List.append_assoc]
    exact ih.advance hadvance

end Concludes

/-! The statement. -/

/-- A response that says `close` is sent, as far as the socket takes it, and is the last thing that
happens on the connection. -/
structure EndsBehind (response : Response) (after : List Note) (p : Point η) : Prop where
  announced : response.writtenFields.getAll .connection = [.close]
  concludes : ∃ bytes, response.encode = .ok bytes ∧ Concludes bytes after p

/-- A request that asks to close, or whose response does, is the last one of its connection, unless
it is of version 1.0 and insists on `keep-alive`. What is refused is the last thing in any case. -/
theorem endsBehind_iff_not_insists (handler : Handler η) (socket : Socket) (state : η)
    {notes : List Note} {p : Point η}
    (hwalk : Walk handler (.serving { socket, handler := state }) notes p) :
    (∀ before request after, notes = before ++ .called request :: after →
      AsksToClose handler (stateAfter handler state (calls before)) request →
      (EndsBehind (answer handler (stateAfter handler state (calls before)) request).2.1 after p ↔
        ¬ Insists handler (stateAfter handler state (calls before)) request)) ∧
    ∀ c bytes error, p.connection? = some c → c.phase = .reject bytes error →
      badRequest.writtenFields.getAll .connection = [.close] ∧
        ∀ after q, Walk handler p after q → Concludes bytes after q := by
  constructor
  · rintro before request after rfl hasks
    have hkept : Kept handler state [] (.serving { socket, handler := state }) :=
      Account.begin handler socket state
    obtain ⟨c, d, hbefore, -, ⟨bytes, hencode, hphase⟩, hafter⟩ := hwalk.exists_of_called rfl
    have haccount : Account handler state before c := hkept.walk hbefore
    have hannounced := getAll_connection_answer handler c.handler request
    rw [haccount.state_eq] at hasks ⊢
    rw [← hasks.keepAlive_answer_iff, Bool.not_eq_true]
    constructor
    · intro h
      have hclose := hannounced.symm.trans h.announced
      by_contra hkeep
      rw [if_pos (Bool.not_eq_false _ ▸ hkeep)] at hclose
      cases hclose
    · intro hclose
      rw [hclose] at hannounced hphase
      refine ⟨hannounced, bytes, hencode, ?_⟩
      exact (Concludes.begin (by rw [hphase]; rfl) (by rw [hphase]; rfl) rfl).walk hafter
  · intro c bytes error hc hphase
    refine ⟨Response.getAll_connection_prepare _ _ _, fun after q hafter => ?_⟩
    exact (Concludes.begin (by rw [hphase]; trivial) (by rw [hphase]; rfl) hc).walk hafter

/-! Two courses. -/

/-- A call divides the notes as it divides the calls. -/
theorem exists_of_calls_eq {notes : List Note} {requests later : List Request} {request : Request}
    (h : calls notes = requests ++ request :: later) :
    ∃ before after, notes = before ++ .called request :: after ∧ calls before = requests ∧
      calls after = later := by
  induction notes generalizing requests with
  | nil => simp [calls] at h
  | cons note notes ih =>
    have hskip (heq : calls (note :: notes) = calls notes) : ∃ before after,
        note :: notes = before ++ .called request :: after ∧ calls before = requests ∧
          calls after = later := by
      obtain ⟨before, after, rfl, rfl, rfl⟩ := ih (heq.symm.trans h)
      refine ⟨note :: before, after, rfl, ?_, rfl⟩
      cases note with
      | called first => simp [calls] at heq
      | accepted | closed | ended => rfl
    cases note with
    | accepted | closed | ended => exact hskip rfl
    | called first =>
      cases requests with
      | nil =>
        cases h
        exact ⟨[], notes, rfl, rfl, rfl⟩
      | cons _ requests =>
        obtain ⟨rfl, hrest⟩ := List.cons.inj h
        obtain ⟨before, after, rfl, rfl, rfl⟩ := ih hrest
        exact ⟨.called first :: before, after, rfl, rfl, rfl⟩

/-- A request for a path, with one `Connection` field or none. -/
def getRequest (path : Bytes) (version : Version) (connection : Option FieldValue) : Request where
  head := ⟨.get, ⟨none, [], path, none⟩, version,
    .ofList (connection.toList.map fun value => (.connection, value))⟩
  body := []
  trailers := none

/-- A client that asks to close in a list, and sends another request. -/
def hastyClient : Socket where
  reads := [.bytes (ascii
    "GET /a HTTP/1.1\r\nConnection: upgrade,\tCLOSE \r\n\r\nGET /b HTTP/1.1\r\n\r\n")]
  writes := []

def hastyRequest : Request :=
  getRequest (ascii "/a") .http11 (some ⟨ascii "upgrade,\tCLOSE", by decide⟩)

/-- Its second request is not read. -/
theorem exists_endsBehind_hastyClient :
    ∃ before request after p,
      Walk plainService.handler (.serving { socket := hastyClient, handler := () })
        (before ++ .called request :: after) p ∧
      AsksToClose plainService.handler (stateAfter plainService.handler () (calls before)) request ∧
      EndsBehind (answer plainService.handler
        (stateAfter plainService.handler () (calls before)) request).2.1 after p := by
  obtain ⟨p, hwalk, -⟩ := exists_walk_start plainService { socket := hastyClient, handler := () }
  have hone : calls ((start plainService 0 { socket := hastyClient, handler := () }).notes.map
      Prod.snd) = [] ++ hastyRequest :: [] := by
    decide +kernel
  obtain ⟨before, after, hnotes, -, -⟩ := exists_of_calls_eq hone
  rw [hnotes] at hwalk
  have hasks : AsksToClose plainService.handler
      (stateAfter plainService.handler () (calls before)) hastyRequest :=
    .inl ((hasToken_close_iff _).1 (by decide +kernel))
  refine ⟨before, hastyRequest, after, p, hwalk, hasks, ?_⟩
  refine ((endsBehind_iff_not_insists plainService.handler hastyClient () hwalk).1
    before hastyRequest after rfl hasks).2 fun hinsists => ?_
  exact absurd hinsists.version_eq (by decide)

/-- A client of version 1.0 that asks for both, and sends another request. -/
def undecidedClient : Socket where
  reads := [.bytes (ascii
    "GET /a HTTP/1.0\r\nConnection: keep-alive, close\r\n\r\nGET /b HTTP/1.0\r\n\r\n")]
  writes := []

def undecidedRequest : Request :=
  getRequest (ascii "/a") .http10 (some ⟨ascii "keep-alive, close", by decide⟩)

/-- Its second request is read and answered. -/
theorem exists_not_endsBehind_undecidedClient :
    ∃ before request after p,
      Walk plainService.handler (.serving { socket := undecidedClient, handler := () })
        (before ++ .called request :: after) p ∧
      AsksToClose plainService.handler (stateAfter plainService.handler () (calls before)) request ∧
      calls after = [getRequest (ascii "/b") .http10 none] ∧
      ¬ EndsBehind (answer plainService.handler
        (stateAfter plainService.handler () (calls before)) request).2.1 after p := by
  obtain ⟨p, hwalk, -⟩ :=
    exists_walk_start plainService { socket := undecidedClient, handler := () }
  have htwo : calls ((start plainService 0 { socket := undecidedClient, handler := () }).notes.map
      Prod.snd) = [] ++ undecidedRequest :: [getRequest (ascii "/b") .http10 none] := by
    decide +kernel
  obtain ⟨before, after, hnotes, -, hafter⟩ := exists_of_calls_eq htwo
  rw [hnotes] at hwalk
  have hasks : AsksToClose plainService.handler
      (stateAfter plainService.handler () (calls before)) undecidedRequest :=
    .inl ((hasToken_close_iff _).1 (by decide +kernel))
  refine ⟨before, undecidedRequest, after, p, hwalk, hasks, hafter, fun hends => ?_⟩
  obtain ⟨bytes, -, hconcludes⟩ := hends.concludes
  cases hafter.symm.trans hconcludes.uncalled

end Connection

end CoopHttp
