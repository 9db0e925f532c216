import CoopHttp.Proofs.Connection.Walk

/-!
# One response for each request

What the socket of a connection has accepted is accounted for at every point of its course: the
responses to the requests the handler was called with, in order, each behind at most one interim
response, and then at most one interim response and one refusal for a request that could not be
read. The account is kept by the phase: what is written already and what the phase has still to
write are together complete responses.
-/
namespace CoopHttp.Connection

variable {η : Type}

/-! What is noted. -/

/-- The octets that the socket accepted. -/
def written : List Note → Bytes
  | [] => []
  | .accepted bytes :: notes => bytes ++ written notes
  | _ :: notes => written notes

/-- The requests that the handler was called with. -/
def calls : List Note → List Request
  | [] => []
  | .called request :: notes => request :: calls notes
  | _ :: notes => calls notes

theorem written_append (notes more : List Note) :
    written (notes ++ more) = written notes ++ written more := by
  induction notes with
  | nil => rfl
  | cons note notes ih => cases note <;> simp [written, ih]

theorem calls_append (notes more : List Note) :
    calls (notes ++ more) = calls notes ++ calls more := by
  induction notes with
  | nil => rfl
  | cons note notes ih => cases note <;> simp [calls, ih]

theorem written_pieces (pieces : List Bytes) : written (pieces.map .accepted) = pieces.flatten := by
  induction pieces with
  | nil => rfl
  | cons piece pieces ih => simp [written, ih]

theorem calls_pieces (pieces : List Bytes) : calls (pieces.map .accepted) = [] := by
  induction pieces with
  | nil => rfl
  | cons piece pieces ih => simp [calls, ih]

theorem calls_append_pieces (notes : List Note) (pieces : List Bytes) :
    calls (notes ++ pieces.map .accepted) = calls notes := by
  rw [calls_append, calls_pieces, List.append_nil]

theorem written_append_pieces (notes : List Note) (pieces : List Bytes) :
    written (notes ++ pieces.map .accepted) = written notes ++ pieces.flatten := by
  rw [written_append, written_pieces]

/-! What is answered. -/

structure Answer where
  response : Response
  keepAlive : Bool

/-- The answers to requests in order, each to the handler's state of its time. -/
def answers (handler : Handler η) : η → List Request → List Answer
  | _, [] => []
  | state, request :: requests =>
    let (state, response, keepAlive) := answer handler state request
    ⟨response, keepAlive⟩ :: answers handler state requests

def stateAfter (handler : Handler η) : η → List Request → η
  | state, [] => state
  | state, request :: requests => stateAfter handler (answer handler state request).1 requests

theorem answers_concat (handler : Handler η) (state : η) (requests : List Request)
    (request : Request) :
    answers handler state (requests ++ [request]) = answers handler state requests ++
      [⟨(answer handler (stateAfter handler state requests) request).2.1,
        (answer handler (stateAfter handler state requests) request).2.2⟩] := by
  induction requests generalizing state with
  | nil => rfl
  | cons first requests ih => exact congrArg _ (ih _)

theorem stateAfter_concat (handler : Handler η) (state : η) (requests : List Request)
    (request : Request) :
    stateAfter handler state (requests ++ [request]) =
      (answer handler (stateAfter handler state requests) request).1 := by
  induction requests generalizing state with
  | nil => rfl
  | cons first requests ih => exact ih _

/-- At most one interim response. -/
def Interim (bytes : Bytes) : Prop := bytes = [] ∨ bytes = continueBytes

/-- The octets are the responses of the answers in order, each behind at most one interim
response. -/
inductive Wire : List Answer → Bytes → Prop
  | nil : Wire [] []
  | snoc {given : List Answer} {answer : Answer} {wire interim bytes : Bytes}
      (before : Wire given wire) (interim_spec : Interim interim)
      (encoded : answer.response.encode = .ok bytes) :
      Wire (given ++ [answer]) (wire ++ interim ++ bytes)

/-- What may be written for a request that cannot be read: at most one interim response and at most
one refusal. -/
def Unread (tail : Bytes) : Prop :=
  ∃ interim refusal, Interim interim ∧ (refusal = [] ∨ badRequest.encode = .ok refusal) ∧
    tail = interim ++ refusal

theorem Interim.unread {interim : Bytes} (h : Interim interim) : Unread interim :=
  ⟨interim, [], h, .inl rfl, (List.append_nil _).symm⟩

/-- The octets are the beginning of what the answers, and a request that cannot be read, may put on
the wire. -/
def Covered (given : List Answer) (bytes : Bytes) : Prop :=
  ∃ wire tail, Wire given wire ∧ Unread tail ∧ bytes <+: wire ++ tail

def AllOpen (given : List Answer) : Prop := ∀ answer ∈ given, answer.keepAlive = true

/-- What has been written, and what the phase has still to write, add up. -/
def Owed (given : List Answer) (bytes : Bytes) : Phase → Prop
  | .readHead => Wire given bytes ∧ AllOpen given
  | .sendContinue rest => ∃ wire, Wire given wire ∧ AllOpen given ∧
      bytes ++ rest = wire ++ continueBytes
  | .readBody _ => ∃ wire interim, Wire given wire ∧ AllOpen given ∧ Interim interim ∧
      bytes = wire ++ interim
  | .respond rest keepAlive => Wire given (bytes ++ rest) ∧
      ∃ before response, given = before ++ [⟨response, keepAlive⟩] ∧ AllOpen before
  | .reject rest error => ∃ wire interim refusal, Wire given wire ∧ AllOpen given ∧
      Interim interim ∧ badRequest.encode = .ok refusal ∧ error.isMalformed ∧
      bytes ++ rest = wire ++ interim ++ refusal

/-- Some of what a phase has still to write may be written without the account going wrong. -/
theorem Owed.covered {given : List Answer} {bytes : Bytes} {phase : Phase}
    (h : Owed given bytes phase) (sent rest : Bytes) (hrest : sent ++ rest = phase.rest?.getD []) :
    Covered given (bytes ++ sent) := by
  obtain ⟨wire, tail, hwire, htail, htotal⟩ : ∃ wire tail, Wire given wire ∧ Unread tail ∧
      bytes ++ phase.rest?.getD [] = wire ++ tail := by
    cases phase with
    | readHead => exact ⟨bytes, [], h.1, Interim.unread (.inl rfl), rfl⟩
    | sendContinue rest =>
      obtain ⟨wire, hwire, -, heq⟩ := h
      exact ⟨wire, _, hwire, Interim.unread (.inr rfl), heq⟩
    | readBody decoder =>
      obtain ⟨wire, interim, hwire, -, hinterim, rfl⟩ := h
      exact ⟨wire, interim, hwire, hinterim.unread, List.append_nil _⟩
    | respond rest keepAlive =>
      exact ⟨_, [], h.1, Interim.unread (.inl rfl), (List.append_nil _).symm⟩
    | reject rest error =>
      obtain ⟨wire, interim, refusal, hwire, -, hinterim, hrefusal, -, heq⟩ := h
      exact ⟨wire, interim ++ refusal, hwire, ⟨interim, refusal, hinterim, .inr hrefusal, rfl⟩,
        heq.trans (List.append_assoc _ _ _)⟩
  refine ⟨wire, tail, hwire, htail, rest, ?_⟩
  rw [List.append_assoc, hrest, htotal]

/-! The account of a connection. -/

structure Account (handler : Handler η) (state : η) (notes : List Note) (c : Connection η) :
    Prop where
  state_eq : stateAfter handler state (calls notes) = c.handler
  owed : Owed (answers handler state (calls notes)) (written notes) c.phase
  /-- A frame of unknown end would take what follows with it. -/
  payload : c.phase.kind ≠ .readHead → c.phase.kind ≠ .reject → c.reader.payload.isSome

/-- The connection that a step goes on with, or waits with. -/
def Move.next? : Move η → Option (Connection η)
  | .stay next | .enter next | .wait _ next => some next
  | .finish _ | .crash _ => none

namespace Account

variable {handler : Handler η} {state : η} {notes more : List Note} {c d : Connection η}
  {move : Move η}

theorem begin (handler : Handler η) (socket : Socket) (state : η) :
    Account handler state [] { socket, handler := state } where
  state_eq := rfl
  owed := ⟨.nil, fun _ h => nomatch h⟩
  payload := fun h => absurd rfl h

/-- Nothing is owed to a request while it is read, but for an interim response. -/
theorem owed_of_reads (h : Account handler state notes c) (hreads : c.phase.Reads) :
    ∃ wire interim, Wire (answers handler state (calls notes)) wire ∧
      AllOpen (answers handler state (calls notes)) ∧ Interim interim ∧
      written notes = wire ++ interim := by
  have howed := h.owed
  cases hphase : c.phase with
  | readHead =>
    rw [hphase] at howed
    exact ⟨_, [], howed.1, howed.2, .inl rfl, (List.append_nil _).symm⟩
  | readBody decoder =>
    rw [hphase] at howed
    exact howed
  | sendContinue | respond | reject =>
    rw [hphase] at hreads
    obtain hkind | hkind := hreads <;> cases hkind

/-- A phase of the same kind that reads owes the same. -/
theorem owed_of_kind_eq {given : List Answer} {bytes : Bytes} {phase next : Phase}
    (h : Owed given bytes phase) (hreads : phase.Reads) (hkind : next.kind = phase.kind) :
    Owed given bytes next := by
  obtain hphase | hphase := hreads
  · cases phase <;> cases hphase
    cases next <;> cases hkind
    exact h
  · cases phase <;> cases hphase
    cases next <;> cases hkind
    exact h

/-- What a phase that writes owes when it has written some of its octets. -/
theorem owed_withRest {given : List Answer} {bytes sent rest data : Bytes} {phase : Phase}
    (h : Owed given bytes phase) (hdata : phase.rest? = some data) (hjoin : sent ++ rest = data) :
    Owed given (bytes ++ sent) (phase.withRest rest) := by
  subst hjoin
  cases phase with
  | readHead | readBody => cases hdata
  | sendContinue | respond | reject =>
    cases hdata
    rw [Phase.withRest]
    simpa only [Owed, List.append_assoc] using h

/-- A call adds the answer to its request, and owes all of that. -/
theorem call (h : Account handler state notes c) {request : Request} {response : Response}
    {keepAlive : Bool} {bytes : Bytes} (hkind : c.phase.kind = .readBody)
    (hanswer : answer handler c.handler request = (d.handler, response, keepAlive))
    (hencode : response.encode = .ok bytes) (hphase : d.phase = .respond bytes keepAlive)
    (hpayload : d.reader.payload = c.reader.payload) :
    Account handler state (notes ++ [.called request]) d := by
  obtain ⟨wire, interim, hwire, hopen, hinterim, heq⟩ := h.owed_of_reads (.inr hkind)
  have hrequests : calls (notes ++ [.called request]) = calls notes ++ [request] :=
    calls_append _ _
  have hbytes : written (notes ++ [.called request]) = written notes :=
    (written_append _ _).trans (List.append_nil _)
  refine ⟨?_, ?_, fun _ _ => ?_⟩
  · rw [hrequests, stateAfter_concat, h.state_eq, hanswer]
  · rw [hrequests, answers_concat, h.state_eq, hanswer, hbytes, heq, hphase]
    exact ⟨.snoc hwire hinterim hencode, _, _, rfl, hopen⟩
  · rw [hpayload]
    exact h.payload (by simp [hkind]) (by simp [hkind])

/-- Every step that goes on, or waits, keeps the account. -/
theorem next (h : Account handler state notes c) (hpassage : Passage handler c more move)
    (hnext : move.next? = some d) : Account handler state (notes ++ more) d := by
  have howed := h.owed
  cases hpassage with
  | stayed reads kind_eq alike | starved reads kind_eq alike =>
    cases hnext
    rw [List.append_nil]
    exact ⟨h.state_eq.trans alike.handler_eq.symm, owed_of_kind_eq howed reads kind_eq,
      fun hhead hreject => alike.payload_eq ▸ h.payload (kind_eq ▸ hhead) (kind_eq ▸ hreject)⟩
  | closed | failed | crashed | broken | lost | parted | rejected => cases hnext
  | refused reads malformed encoded phase_eq handler_eq served_eq =>
    cases hnext
    obtain ⟨wire, interim, hwire, hopen, hinterim, heq⟩ := h.owed_of_reads reads
    rw [List.append_nil]
    refine ⟨h.state_eq.trans handler_eq.symm, ?_, fun _ hreject => ?_⟩
    · rw [phase_eq]
      exact ⟨wire, interim, _, hwire, hopen, hinterim, encoded, malformed, by rw [heq]⟩
    · exact absurd (congrArg Phase.kind phase_eq) hreject
  | headRead phase_eq next_eq handler_eq served_eq payload =>
    cases hnext
    rw [phase_eq] at howed
    rw [List.append_nil]
    refine ⟨h.state_eq.trans handler_eq.symm, ?_, fun _ _ => payload⟩
    obtain heq | heq := next_eq
    · rw [heq]
      exact ⟨_, howed.1, howed.2, rfl⟩
    · rw [heq]
      exact ⟨_, [], howed.1, howed.2, .inl rfl, (List.append_nil _).symm⟩
  | called kind_eq answered encoded phase_eq served_eq payload_eq =>
    cases hnext
    exact h.call kind_eq answered encoded phase_eq payload_eq
  | wrote data_eq join_eq rest_ne phase_eq alike =>
    cases hnext
    refine ⟨?_, ?_, fun hhead hreject => ?_⟩
    · rw [calls_append_pieces]
      exact h.state_eq.trans alike.handler_eq.symm
    · rw [calls_append_pieces, written_append_pieces, phase_eq]
      exact owed_withRest howed data_eq join_eq
    · rw [phase_eq, Phase.kind_withRest] at hhead hreject
      exact alike.payload_eq ▸ h.payload hhead hreject
  | continued phase_eq next_eq alike =>
    cases hnext
    rw [phase_eq] at howed
    obtain ⟨wire, hwire, hopen, heq⟩ := howed
    refine ⟨?_, ?_, fun _ _ => ?_⟩
    · rw [calls_append_pieces]
      exact h.state_eq.trans alike.handler_eq.symm
    · rw [calls_append_pieces, written_append_pieces, next_eq]
      exact ⟨wire, _, hwire, hopen, .inr rfl, heq⟩
    · rw [alike.payload_eq]
      exact h.payload (by simp [phase_eq, Phase.kind]) (by simp [phase_eq, Phase.kind])
  | answered phase_eq next_eq handler_eq served_eq =>
    cases hnext
    rw [phase_eq] at howed
    obtain ⟨hwire, before, response, hgiven, hopen⟩ := howed
    refine ⟨?_, ?_, fun hhead _ => ?_⟩
    · rw [calls_append_pieces]
      exact h.state_eq.trans handler_eq.symm
    · rw [calls_append_pieces, written_append_pieces, next_eq]
      refine ⟨hwire, fun given hmem => ?_⟩
      rw [hgiven] at hmem
      obtain hmem | hmem := List.mem_append.1 hmem
      · exact hopen given hmem
      · rw [List.mem_singleton.1 hmem]
    · exact absurd (congrArg Phase.kind next_eq) hhead

/-- A step that ends the connection well has written everything. -/
theorem finish {result : Except HttpError Unit} (h : Account handler state notes c)
    (hpassage : Passage handler c more (.finish result)) :
    Covered (answers handler state (calls (notes ++ more))) (written (notes ++ more)) ∧
      (result = .ok () →
        Wire (answers handler state (calls (notes ++ more))) (written (notes ++ more))) := by
  have howed := h.owed
  cases hpassage with
  | closed phase_eq =>
    rw [List.append_nil]
    refine ⟨?_, fun _ => ?_⟩
    · simpa using howed.covered [] _ rfl
    · rw [phase_eq] at howed
      exact howed.1
  | failed reads error =>
    rw [List.append_nil]
    refine ⟨?_, fun hok => nomatch hok⟩
    simpa using howed.covered [] _ rfl
  | broken data_eq join_eq rest_ne error =>
    rw [calls_append_pieces, written_append_pieces]
    refine ⟨howed.covered _ _ (join_eq.trans ?_), fun hok => nomatch hok⟩
    rw [data_eq]
    rfl
  | parted phase_eq =>
    rw [calls_append_pieces, written_append_pieces]
    refine ⟨howed.covered _ [] ?_, fun _ => ?_⟩
    · rw [phase_eq, List.append_nil]
      rfl
    · rw [phase_eq] at howed
      exact howed.1
  | rejected phase_eq =>
    rw [calls_append_pieces, written_append_pieces]
    refine ⟨howed.covered _ [] ?_, fun hok => nomatch hok⟩
    rw [phase_eq, List.append_nil]
    rfl

theorem crash {cause : Crash} (h : Account handler state notes c)
    (hpassage : Passage handler c more (.crash cause)) :
    Covered (answers handler state (calls (notes ++ more))) (written (notes ++ more)) := by
  have howed := h.owed
  cases hpassage with
  | crashed phase_eq =>
    rw [List.append_nil]
    simpa using howed.covered [] _ rfl
  | lost phase_eq payload_eq =>
    rw [calls_append_pieces, written_append_pieces]
    refine howed.covered _ [] ?_
    rw [phase_eq, List.append_nil]
    rfl

theorem covered (h : Account handler state notes c) :
    Covered (answers handler state (calls notes)) (written notes) := by
  simpa using h.owed.covered [] _ rfl

end Account

/-! The account at every point. -/

/-- The account of a connection, or what is left of it at the end. -/
def Kept (handler : Handler η) (state : η) (notes : List Note) : Point η → Prop
  | .serving c | .waiting c => Account handler state notes c
  | .closed result =>
    Covered (answers handler state (calls notes)) (written notes) ∧
      (result = .ok () → Wire (answers handler state (calls notes)) (written notes))
  | .crashed _ => Covered (answers handler state (calls notes)) (written notes)

section

variable {handler : Handler η} {state : η} {notes more : List Note} {p q : Point η}

theorem Kept.covered (h : Kept handler state notes p) :
    Covered (answers handler state (calls notes)) (written notes) := by
  cases p with
  | serving c | waiting c => exact Account.covered h
  | closed result => exact h.1
  | crashed cause => exact h

theorem Kept.advance (h : Kept handler state notes p) (hadvance : Advance handler p more q) :
    Kept handler state (notes ++ more) q := by
  cases hadvance with
  | @goes c _ _ move step_eq onward =>
    refine Account.next h (passage_of_step step_eq) ?_
    cases move <;> cases onward <;> rfl
  | @waits c _ _ _ step_eq =>
    exact Account.next h (passage_of_step step_eq) rfl
  | @ends c notes' result step_eq =>
    have hwritten : written (notes' ++ parting result) = written notes' :=
      (written_append _ _).trans (List.append_nil _)
    have hcalls : calls (notes' ++ parting result) = calls notes' :=
      (calls_append _ _).trans (List.append_nil _)
    have hfinish := Account.finish h (passage_of_step step_eq)
    rwa [written_append, calls_append, ← hwritten, ← hcalls, ← written_append, ← calls_append]
      at hfinish
  | @crashes c _ _ step_eq =>
    exact Account.crash h (passage_of_step step_eq)
  | wakes =>
    rw [List.append_nil]
    exact h
  | expires =>
    have hcovered := Account.covered h
    refine ⟨?_, fun hok => nomatch hok⟩
    rw [written_append, calls_append]
    simpa [parting, written, calls] using hcovered

theorem Kept.walk (h : Kept handler state [] p) (hwalk : Walk handler p notes q) :
    Kept handler state notes q := by
  induction hwalk with
  | refl => exact h
  | tail _ hadvance ih => exact ih.advance hadvance

/-- The connection `d` has the response to write that `c` gets from its handler. -/
def Responds (handler : Handler η) (c : Connection η) (request : Request) (d : Connection η) :
    Prop :=
  ∃ bytes, (answer handler c.handler request).2.1.encode = .ok bytes ∧
    d.phase = .respond bytes (answer handler c.handler request).2.2

/-- The handler is called by a step of its own, from the phase that reads a body. -/
theorem Passage.of_called_mem {c : Connection η} {move : Move η} {request : Request}
    (h : Passage handler c more move) (hmem : .called request ∈ more) :
    c.phase.Reads ∧ more = [.called request] ∧
      ∃ d, move = .enter d ∧ Responds handler c request d := by
  have hpieces : ∀ pieces : List Bytes, Note.called request ∉ pieces.map .accepted := by
    intro pieces hmem
    obtain ⟨piece, -, heq⟩ := List.mem_map.1 hmem
    cases heq
  cases h with
  | stayed | starved | closed | failed | crashed | refused | headRead => cases hmem
  | wrote | broken | continued | answered | lost | parted | rejected =>
    exact absurd hmem (hpieces _)
  | @called d _ _ _ bytes kind_eq answered encoded phase_eq =>
    cases List.mem_singleton.1 hmem
    refine ⟨.inr kind_eq, rfl, d, rfl, bytes, ?_, ?_⟩
    · rwa [answered]
    · rwa [answered]

theorem Advance.of_called_mem {request : Request} (hadvance : Advance handler p more q)
    (hmem : .called request ∈ more) :
    ∃ c d, p = .serving c ∧ q = .serving d ∧ more = [.called request] ∧ c.phase.Reads ∧
      Responds handler c request d := by
  cases hadvance with
  | @goes c d _ _ step_eq onward =>
    obtain ⟨hreads, hmore, d', rfl, hresponds⟩ := (passage_of_step step_eq).of_called_mem hmem
    cases onward
    exact ⟨c, d, rfl, rfl, hmore, hreads, hresponds⟩
  | waits step_eq | crashes step_eq =>
    obtain ⟨-, -, d, hmove, -⟩ := (passage_of_step step_eq).of_called_mem hmem
    cases hmove
  | @ends c notes' result step_eq =>
    have hmem : Note.called request ∈ notes' := by simpa [parting] using hmem
    obtain ⟨-, -, d, hmove, -⟩ := (passage_of_step step_eq).of_called_mem hmem
    cases hmove
  | wakes => cases hmem
  | expires => simp [parting] at hmem

/-- A call is an advance of its own, and divides a walk into what leads to it and what follows. -/
theorem Walk.exists_of_called {before after : List Note} {request : Request}
    (hwalk : Walk handler p notes q) (hnotes : notes = before ++ .called request :: after) :
    ∃ c d, Walk handler p before (.serving c) ∧ c.phase.Reads ∧ Responds handler c request d ∧
      Walk handler (.serving d) after q := by
  induction hwalk generalizing after with
  | refl => simp at hnotes
  | @tail notes more q r hwalk hadvance ih =>
    -- The call is noted by the last advance, which notes nothing else, or before it.
    obtain ⟨later, rfl, hmore⟩ | ⟨later, hbefore, hlater⟩ := List.append_eq_append_iff.1 hnotes
    · have hmem : .called request ∈ more := by simp [hmore]
      obtain ⟨c, d, rfl, rfl, hsingle, hreads, hresponds⟩ := hadvance.of_called_mem hmem
      rw [hsingle] at hmore
      cases later with
      | nil =>
        cases hmore
        rw [List.append_nil]
        exact ⟨c, d, hwalk, hreads, hresponds, .refl⟩
      | cons first later => simp at hmore
    · cases later with
      | nil =>
        rw [List.append_nil] at hbefore
        subst hbefore
        have hmore : more = .called request :: after := hlater.symm
        have hmem : .called request ∈ more := by simp [hmore]
        obtain ⟨c, d, rfl, rfl, hsingle, hreads, hresponds⟩ := hadvance.of_called_mem hmem
        cases hmore.symm.trans hsingle
        exact ⟨c, d, hwalk, hreads, hresponds, .refl⟩
      | cons first later =>
        cases hlater
        obtain ⟨c, d, hbegin, hreads, hresponds, hrest⟩ := ih hbefore
        exact ⟨c, d, hbegin, hreads, hresponds, hrest.tail hadvance⟩

end

/-! The statement. -/

end CoopHttp.Connection
