import CoopHttp.Proofs.Frame.Operations

/-!
# Nothing survives a request

What can be told of a reader from outside is what its operations answer and how it looks after each
of them. A reader that goes on to the next request, the payload of the last one having been read to
its end, cannot be told from a fresh one that holds the octets left in the buffer.
-/
namespace CoopHttp

/-- What can be asked of a reader of requests. An operation that fetches octets comes with what its
source has to hand out. -/
inductive FrameOperation
  | extend (bytes : Bytes)
  | findEnd
  | pullHead (source : Source)
  | parseHead
  | pullLength (n : ℕ) (source : Source)
  | pullChunked (source : Source)
  | pullDeclared (source : Source)
  | takeHead
  | takeBody
  | takeTrailers
  | nextFrame
  | reset
  deriving DecidableEq

/-- The operation turns to another request. -/
def FrameOperation.renews : FrameOperation → Bool
  | nextFrame | reset => true
  | _ => false

inductive FrameAnswer
  | done
  | ending (ending : Option HeadEnd)
  | ready (result : Except ParseError Bool) (rest : Source)
  | length (result : Except ParseError ℕ)
  | payload (result : Except ParseError Unit) (rest : Source)
  | head (head : Option RequestHead)
  | body (body : Bytes)
  | trailers (trailers : Fields)
  deriving DecidableEq

/-- A payload has been read to its end. -/
def FrameAnswer.ends : FrameAnswer → Bool
  | payload result _ => result.isOk
  | _ => false

structure FrameView where
  buffer : Bytes
  scanned : ℕ
  head : Option RequestHead
  payload : Option PayloadSize
  body : Bytes
  trailers : Fields
  deriving DecidableEq

namespace FrameReader

def apply (r : FrameReader) : FrameOperation → Except Crash (FrameReader × FrameAnswer)
  | .extend bytes => .ok (r.extend bytes, .done)
  | .findEnd => .ok (r.findEnd.1, .ending r.findEnd.2)
  | .pullHead source =>
    let (r, rest, result) := r.pullHead source
    .ok (r, .ready result rest)
  | .parseHead => r.parseHead.map fun (r, result) => (r, .length result)
  | .pullLength n source =>
    (r.pullLength n source).map fun (r, rest, result) => (r, .payload result rest)
  | .pullChunked source =>
    (r.pullChunked source).map fun (r, rest, result) => (r, .payload result rest)
  | .pullDeclared source =>
    (r.pullDeclared source).map fun (r, rest, result) => (r, .payload result rest)
  | .takeHead => .ok (r.takeHead.1, .head r.takeHead.2)
  | .takeBody => .ok (r.takeBody.1, .body r.takeBody.2)
  | .takeTrailers => .ok (r.takeTrailers.1, .trailers r.takeTrailers.2)
  | .nextFrame => r.nextFrame.map (·, .done)
  | .reset => .ok (r.reset, .done)

def view (r : FrameReader) : FrameView := ⟨r.buffer, r.scanned, r.head, r.payload, r.body, r.trailers⟩

/-- The answers to some operations, each with the view after it. -/
def answers (r : FrameReader) :
    List FrameOperation → Except Crash (List (FrameAnswer × FrameView))
  | [] => .ok []
  | operation :: operations =>
    (r.apply operation).bind fun (r, answer) => (r.answers operations).map ((answer, r.view) :: ·)

/-- No operations tell the two readers apart. -/
def Indistinguishable (r s : FrameReader) : Prop :=
  r.view = s.view ∧ ∀ operations, r.answers operations = s.answers operations

theorem Indistinguishable.of_eq {r s : FrameReader} (h : r = s) : Indistinguishable r s :=
  h ▸ ⟨rfl, fun _ => rfl⟩

/-- The reader comes of a fresh one by operations; `ended` says that the payload of the request at
hand has been read to its end. -/
inductive Serves (maxBody : ℕ) : FrameReader → Bool → Prop
  | fresh : Serves maxBody (withMaxBody maxBody) false
  | apply {r s : FrameReader} {ended : Bool} {operation : FrameOperation} {answer : FrameAnswer} :
    Serves maxBody r ended → r.apply operation = .ok (s, answer) →
    Serves maxBody s (!operation.renews && (ended || answer.ends))

variable {r s : FrameReader} {maxBody : ℕ} {ended : Bool}

/-! Turning to another request. -/

theorem reset_eq (r : FrameReader) : r.reset = withMaxBody r.maxBody := rfl

theorem clear_eq (r : FrameReader) : r.clear = (withMaxBody r.maxBody).extend r.buffer := rfl

/-- Whatever was read of a request, a reader that goes on to the next one is a fresh one. -/
theorem exists_of_nextFrame (h : r.nextFrame = .ok s) :
    ∃ buffer, s = (withMaxBody r.maxBody).extend buffer := by
  rw [nextFrame] at h
  split at h
  · obtain ⟨⟨bytes, t⟩, hcut, hclear⟩ := exists_of_map_eq_ok h
    refine ⟨t.buffer, ?_⟩
    rw [← (carries_cut hcut).maxBody_eq]
    exact hclear.symm
  · cases h
    exact ⟨[], r.reset_eq⟩
  · split at h <;> cases h
    · exact ⟨[], r.reset_eq⟩
    · exact ⟨r.buffer, r.clear_eq⟩

/-- Behind a payload that has been read to its end, the next request begins. -/
theorem nextFrame_of_bodyDone (hpayload : r.payload.isSome) (hbodyDone : r.bodyDone = true) :
    r.nextFrame = .ok ((withMaxBody r.maxBody).extend r.buffer) := by
  obtain ⟨size, hsize⟩ := Option.isSome_iff_exists.1 hpayload
  rw [nextFrame, hsize]
  simp only [hbodyDone, Bool.not_true, Bool.false_and, Bool.false_eq_true, if_false, clear_eq]

/-! Runs. -/

/-- An operation goes on with the request at hand, or turns to another one. -/
theorem apply_cases {operation : FrameOperation} {answer : FrameAnswer}
    (h : r.apply operation = .ok (s, answer)) :
    operation.renews = false ∧ Carries r s answer.ends ∨
      operation.renews = true ∧ s.maxBody = r.maxBody ∧ s.bodyDone = false := by
  cases operation with
  | extend bytes =>
    cases h
    exact .inl ⟨rfl, carries_extend r bytes⟩
  | findEnd =>
    cases h
    exact .inl ⟨rfl, carries_findEnd r⟩
  | pullHead source =>
    cases h
    exact .inl ⟨rfl, carries_pullHead r source⟩
  | parseHead =>
    obtain ⟨⟨t, result⟩, hparse, hs⟩ := exists_of_map_eq_ok h
    cases hs
    exact .inl ⟨rfl, carries_parseHead hparse⟩
  | pullLength n source =>
    obtain ⟨⟨t, rest, result⟩, hpull, hs⟩ := exists_of_map_eq_ok h
    cases hs
    exact .inl ⟨rfl, carries_pullLength hpull⟩
  | pullChunked source =>
    obtain ⟨⟨t, rest, result⟩, hpull, hs⟩ := exists_of_map_eq_ok h
    cases hs
    exact .inl ⟨rfl, carries_pullBehindHead hpull⟩
  | pullDeclared source =>
    obtain ⟨⟨t, rest, result⟩, hpull, hs⟩ := exists_of_map_eq_ok h
    cases hs
    exact .inl ⟨rfl, carries_pullDeclared hpull⟩
  | takeHead | takeBody | takeTrailers =>
    cases h
    exact .inl ⟨rfl, .of_eq rfl rfl rfl⟩
  | nextFrame =>
    obtain ⟨t, hnext, hs⟩ := exists_of_map_eq_ok h
    cases hs
    obtain ⟨buffer, rfl⟩ := exists_of_nextFrame hnext
    exact .inr ⟨rfl, rfl, rfl⟩
  | reset =>
    cases h
    exact .inr ⟨rfl, rfl, rfl⟩

theorem Serves.spec (h : Serves maxBody r ended) :
    r.maxBody = maxBody ∧ r.bodyDone = ended ∧ (ended = true → r.payload.isSome) := by
  induction h with
  | fresh => exact ⟨rfl, rfl, fun h => absurd h Bool.false_ne_true⟩
  | @apply r s ended operation answer _ happly ih =>
    obtain ⟨hmaxBody, hbodyDone, hpayload⟩ := ih
    obtain ⟨hrenews, hcarries⟩ | ⟨hrenews, hsame, hundone⟩ := apply_cases happly
    · rw [hrenews, Bool.not_false, Bool.true_and]
      refine ⟨hcarries.maxBody_eq.trans hmaxBody, by rw [hcarries.bodyDone_eq, hbodyDone],
        fun hended => ?_⟩
      exact hcarries.isSome_payload ((Bool.or_eq_true_iff.1 hended).imp_left hpayload)
    · rw [hrenews]
      exact ⟨hsame.trans hmaxBody, hundone, fun h => absurd h Bool.false_ne_true⟩

/-- A reader that goes on to the next request behind a payload that has been read to its end cannot
be told from a fresh one with the same octets in its buffer, and so not from any other reader that
does so with these octets left, whatever the requests before were. A reader that is reset cannot be
told from a fresh one. -/
theorem indistinguishable_of_serves (h : Serves maxBody r ended) :
    Indistinguishable r.reset (withMaxBody maxBody) ∧
      (ended = true → ∃ s, r.nextFrame = .ok s ∧
        Indistinguishable s ((withMaxBody maxBody).extend r.buffer) ∧
        ∀ r', Serves maxBody r' true → r'.buffer = r.buffer →
          ∃ s', r'.nextFrame = .ok s' ∧ Indistinguishable s' s) := by
  obtain ⟨hmaxBody, hbodyDone, hpayload⟩ := h.spec
  refine ⟨.of_eq (hmaxBody ▸ r.reset_eq), ?_⟩
  rintro rfl
  refine ⟨_, hmaxBody ▸ nextFrame_of_bodyDone (hpayload rfl) hbodyDone, .of_eq rfl,
    fun r' h' hbuffer => ?_⟩
  obtain ⟨hmaxBody', hbodyDone', hpayload'⟩ := h'.spec
  exact ⟨_, hmaxBody' ▸ nextFrame_of_bodyDone (hpayload' rfl) hbodyDone', .of_eq (by rw [hbuffer])⟩

/-- A head, and then a chunked payload with a trailer and a piece of the next request. -/
def readChunks : Except Crash (FrameReader × FrameAnswer) :=
  ((withMaxBody 2).apply (.extend (ascii "POST / HTTP/1.1\r\nTransfer-Encoding: chunked\r\n\r\n"))).bind
    fun (r, _) => r.apply (.pullDeclared [.bytes (ascii "2\r\nok\r\n0\r\na: b\r\n\r\nGET /b")])

/-- A request without payload and the same piece of the next one. -/
def readPlain : Except Crash (FrameReader × FrameAnswer) :=
  ((withMaxBody 2).apply (.pullHead [.bytes (ascii "GET /a HTTP/1.0\r\n\r\nGET /b")])).bind
    fun (r, _) => r.apply (.pullDeclared [])

theorem exists_indistinguishable_leftovers :
    ∃ r r' : FrameReader, Serves 2 r true ∧ Serves 2 r' true ∧ r.body = ascii "ok" ∧
      r'.body = [] ∧ ∃ s s', r.nextFrame = .ok s ∧ r'.nextFrame = .ok s' ∧ Indistinguishable s' s := by
  obtain ⟨⟨r, answer⟩, hr, hview⟩ := exists_of_map_eq_ok (show
    readChunks.map (fun (r, answer) => (r.body, r.buffer, answer.ends)) =
      .ok (ascii "ok", ascii "GET /b", true) by decide +kernel)
  obtain ⟨⟨r', answer'⟩, hr', hview'⟩ := exists_of_map_eq_ok (show
    readPlain.map (fun (r, answer) => (r.body, r.buffer, answer.ends)) =
      .ok ([], ascii "GET /b", true) by decide +kernel)
  simp only [Prod.mk.injEq] at hview hview'
  obtain ⟨⟨t, _⟩, ht, hr⟩ := exists_of_bind_eq_ok hr
  obtain ⟨⟨t', _⟩, ht', hr'⟩ := exists_of_bind_eq_ok hr'
  have hserves := (Serves.fresh.apply ht).apply hr
  have hserves' := (Serves.fresh.apply ht').apply hr'
  rw [hview.2.2] at hserves
  rw [hview'.2.2] at hserves'
  have hended : Serves 2 r true := by simpa [FrameOperation.renews] using hserves
  have hended' : Serves 2 r' true := by simpa [FrameOperation.renews] using hserves'
  obtain ⟨s, hs, -, hothers⟩ := (indistinguishable_of_serves hended).2 rfl
  obtain ⟨s', hs', hsame⟩ := hothers r' hended' (hview'.2.1.trans hview.2.1.symm)
  exact ⟨r, r', hended, hended', hview.1, hview'.1, s, s', hs, hs', hsame⟩

end FrameReader

end CoopHttp
