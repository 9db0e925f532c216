import CoopHttp.Proofs.Chunked.Fragmentation
import CoopHttp.Proofs.Frame.HeadEnd
import CoopHttp.Proofs.Frame.Payload
import CoopHttp.Proofs.Frame.RequestText
import CoopHttp.Proofs.Frame.Seek

/-!
# Reading requests one after the other

Requests that are written one behind the other are read one after the other, however the octets are
cut into fills: every request gives what it says, and what follows it is kept for the next one. A
reader between two requests is a fresh reader with octets in its buffer, and this is what each round
comes back to.
-/
namespace CoopHttp

/-- What is taken from a reader for one request. -/
structure Received where
  head : Option RequestHead
  body : Bytes
  trailers : Fields
  deriving DecidableEq

namespace FrameReader

/-- Reads a request, takes it from the reader and goes on to the next one; `none` if the other side
closed before it sent anything. -/
def readRequest (r : FrameReader) (source : Source) :
    Except Crash (FrameReader × Source × Except ParseError (Option Received)) :=
  match r.pullHead source with
  | (r, source, .error error) => .ok (r, source, .error error)
  | (r, source, .ok false) => .ok (r, source, .ok none)
  | (r, source, .ok true) =>
    (r.pullDeclared source).bind fun
      | (r, source, .error error) => .ok (r, source, .error error)
      | (r, source, .ok ()) =>
        let (r, head) := r.takeHead
        let (r, body) := r.takeBody
        let (r, trailers) := r.takeTrailers
        r.nextFrame.map fun r => (r, source, .ok (some ⟨head, body, trailers⟩))

/-- What comes of reading a request `n` times. -/
def readRequests (r : FrameReader) (source : Source) :
    ℕ → Except Crash (List (Except ParseError (Option Received)))
  | 0 => .ok []
  | n + 1 =>
    (r.readRequest source).bind fun (r, source, result) =>
      (readRequests r source n).map (result :: ·)

end FrameReader

def RequestText.received (t : RequestText) : Received :=
  ⟨some t.requestHead, t.body.data, Fields.ofList t.body.trailers⟩

/-! The end of a head with ordinary line breaks. -/

theorem Terminator.lastEnding_eq_crlf {fields : List FieldText} (h : ∀ f ∈ fields, f.ending = .crlf) :
    Terminator.lastEnding .crlf fields = .crlf := by
  induction fields with
  | nil => rfl
  | cons f fields ih =>
    rw [Terminator.lastEnding, h f (by simp)]
    exact ih fun g hg => h g (by simp [hg])

theorem RequestText.exists_run_head (t : RequestText) (rest : Bytes) :
    ∃ m length, Terminator.start.run (t.head.bytes ++ rest) =
      (m, t.head.bytes.length, some length) := by
  rw [Terminator.run_head_iff, t.skipped_eq_nil, t.ending_eq,
    Terminator.lastEnding_eq_crlf t.field_ending_eq]
  simp [Terminator.harmless]

namespace FrameReader

/-! One request. -/

/-- The body that a head announced is read however it arrives. -/
theorem pullsPayload_body {segments : List Bytes} (hne : ∀ s ∈ segments, s ≠ []) {r : FrameReader}
    {body : BodyText} {later : Bytes} (hbytes : r.buffer ++ segments.flatten = body.bytes ++ later)
    (hr : r.trailers = .empty) (hbody : r.body = []) (hfits : body.data.length ≤ r.maxBody) :
    r.PullsPayload (.ofSize body.size) segments body.data later (Fields.ofList body.trailers) := by
  cases body with
  | absent =>
    have hempty := pullsPayload_empty r segments hr
    rw [hbytes] at hempty
    exact hempty
  | sized data =>
    by_cases hnil : data = []
    · have hempty := pullsPayload_empty r segments hr
      rw [hbytes] at hempty
      subst hnil
      exact hempty
    · have hsize : BodyText.size (.sized data) = .length data.length := by
        simp [BodyText.size, PayloadSize.ofLength, hnil]
      rw [hsize]
      exact pullsPayload_length hne hbytes hr (by rw [hbody]; exact hfits)
  | chunked body =>
    have htrailer : body.text.trailer = fieldBytes body.fields :=
      trailerBytes_trailerLine body.fields
    have htrailers : readTrailers body.text.trailer = .ok (Fields.ofList body.trailers) := by
      rw [htrailer]
      exact readTrailers_eq body.length_fields_le body.spells
    have hverdict : ChunkedDecoder.verdict (r.buffer :: segments) =
        .complete body.text.data body.text.trailer later := by
      refine ChunkedDecoder.verdict_of_flatten_eq hbytes ?_
      rw [htrailer]
      exact body.length_le
    have hbuffer : r.buffer = [] ++ r.buffer := rfl
    refine pullsPayload_chunked hne hbuffer ?_ htrailers hr ?_
    · rw [hbody]
      exact hverdict
    · rw [hbody]
      exact hfits

/-- The head of a request is found however it arrives, and nothing behind it is lost. -/
theorem pullHead_request (t : RequestText) (maxBody : ℕ) {segments : List Bytes}
    (hne : ∀ s ∈ segments, s ≠ []) {pending later : Bytes}
    (hbytes : pending ++ segments.flatten = t.head.bytes ++ later) :
    ∃ rest segments' m e, segments' <:+ segments ∧ rest ++ segments'.flatten = later ∧
      e.bodyStart = t.head.bytes.length ∧
      pullHead { buffer := pending, maxBody } (segments.map Fill.bytes) =
        ({ buffer := t.head.bytes ++ rest, maxBody, matcher := m,
           scanned := t.head.bytes.length, ending := some e },
          segments'.map Fill.bytes, .ok true) := by
  obtain ⟨m, length, hrun⟩ := t.exists_run_head later
  have hseeking : Seeking { buffer := pending, maxBody } [] := ⟨rfl, Terminator.passes_nil _, rfl⟩
  obtain ⟨arrived, unread, rfl, harrived, hpull⟩ :=
    hseeking.pullHead_eq hne rfl (by rw [hbytes]; exact hrun) t.length_head_le
  rw [List.flatten_append, ← List.append_assoc] at hbytes
  obtain ⟨rest, hbuffer, hlater⟩ | ⟨missing, hmissing, hhead, -⟩ := arrived_cases hbytes
  · refine ⟨rest, unread, m, ⟨t.head.bytes.length - length, length⟩, List.suffix_append _ _, hlater,
      bodyStart_of_run hrun, ?_⟩
    rw [hpull, ← hbuffer]
  · have hlength := congrArg List.length hhead
    have hpos := List.length_pos_iff.2 hmissing
    simp only [List.length_append] at hlength harrived
    omega

/-- The head that was found is read, and the payload it announces as well. -/
theorem pullDeclared_request (t : RequestText) {r : FrameReader} (hpayload : r.payload = none)
    (htrailers : r.trailers = .empty) (hbody : r.body = []) {e : HeadEnd}
    (hending : r.ending = some e) (hstart : e.bodyStart = t.head.bytes.length) {rest : Bytes}
    (hbuffer : r.buffer = t.head.bytes ++ rest) (hfits : t.body.data.length ≤ r.maxBody)
    {segments : List Bytes} (hne : ∀ s ∈ segments, s ≠ []) {later : Bytes}
    (hbytes : rest ++ segments.flatten = t.body.bytes ++ later) :
    ∃ rest' segments' gathered, segments' <:+ segments ∧ rest' ++ segments'.flatten = later ∧
      gathered.bytes = t.body.data ∧
      r.pullDeclared (segments.map Fill.bytes) =
        .ok ({ r with
            buffer := rest', head := some t.requestHead, payload := some t.body.size, gathered,
            bodyDone := true, trailers := Fields.ofList t.body.trailers },
          segments'.map Fill.bytes, .ok ()) := by
  have hfind : r.findEnd = (r, some e) := by simp [findEnd, hending]
  have hparse := parseHead_of_findEnd hpayload hfind (by simp [hstart, hbuffer])
  rw [hstart, hbuffer, List.take_left, List.drop_left, readHead, t.decode_head] at hparse
  have hcheck : t.body.size.contentLength ≤ r.maxBody := t.body.contentLength_size_le.trans hfits
  obtain ⟨rest', segments', gathered, hsuffix, hlater, hgathered, hpull⟩ :=
    pullsPayload_body hne (r := { r with
      buffer := rest, head := some t.requestHead, payload := some t.body.size }) hbytes htrailers
      hbody hfits
  refine ⟨rest', segments', gathered, hsuffix, hlater, ?_, ?_⟩
  · rw [hgathered]
    show r.body ++ t.body.data = t.body.data
    rw [hbody, List.nil_append]
  · rw [pullDeclared, hparse]
    simp only [Except.map, Option.getD_some, checkSize, if_pos hcheck, hpull]

/-- A request that is written is read, and the reader is then as it was, in front of what follows. -/
theorem readRequest_eq (t : RequestText) {maxBody : ℕ} (hfits : t.body.data.length ≤ maxBody)
    {segments : List Bytes} (hne : ∀ s ∈ segments, s ≠ []) {pending later : Bytes}
    (hbytes : pending ++ segments.flatten = t.bytes ++ later) :
    ∃ pending' segments', segments' <:+ segments ∧ pending' ++ segments'.flatten = later ∧
      readRequest { buffer := pending, maxBody } (segments.map Fill.bytes) =
        .ok ({ buffer := pending', maxBody }, segments'.map Fill.bytes, .ok (some t.received)) := by
  rw [RequestText.bytes, List.append_assoc] at hbytes
  obtain ⟨rest, segments', m, e, hsuffix, hlater, hstart, hhead⟩ :=
    pullHead_request t maxBody hne hbytes
  obtain ⟨rest', segments'', gathered, hsuffix', hlater', hgathered, hdeclared⟩ :=
    pullDeclared_request t
      (r := {
        buffer := t.head.bytes ++ rest, maxBody, matcher := m, scanned := t.head.bytes.length,
        ending := some e })
      rfl rfl rfl rfl hstart rfl hfits (fun s hs => hne s (hsuffix.mem hs)) hlater
  refine ⟨rest', segments'', hsuffix'.trans hsuffix, hlater', ?_⟩
  rw [readRequest, hhead]
  simp only [hdeclared, Except.bind, takeHead, takeBody, takeTrailers, nextFrame, clear, body,
    hgathered, Bool.not_true, Bool.false_and, RequestText.received]
  rfl

/-- Requests are read one after the other from any reader that is between two requests. -/
theorem readRequests_eq (texts : List RequestText) {maxBody : ℕ}
    (hfits : ∀ t ∈ texts, t.body.data.length ≤ maxBody) {segments : List Bytes}
    (hne : ∀ s ∈ segments, s ≠ []) {pending : Bytes}
    (hbytes : pending ++ segments.flatten = (texts.map RequestText.bytes).flatten) :
    readRequests { buffer := pending, maxBody } (segments.map Fill.bytes) (texts.length + 1) =
      .ok (texts.map (fun t => .ok (some t.received)) ++ [.ok none]) := by
  induction texts generalizing segments pending with
  | nil =>
    obtain ⟨rfl, hflatten⟩ := List.append_eq_nil_iff.1 hbytes
    have hsegments : segments = [] := by
      by_contra hsome
      obtain ⟨s, segments', rfl⟩ := List.exists_cons_of_ne_nil hsome
      exact hne s (by simp) (List.flatten_eq_nil_iff.1 hflatten s (by simp))
    subst hsegments
    rfl
  | cons t texts ih =>
    obtain ⟨pending', segments', hsuffix, hlater, hread⟩ :=
      readRequest_eq t (hfits t (by simp)) hne hbytes
    have hrest := ih (fun t ht => hfits t (by simp [ht])) (fun s hs => hne s (hsuffix.mem hs)) hlater
    rw [List.length_cons, readRequests, hread]
    simp only [Except.bind, hrest, Except.map]
    rfl

/-- Every name has its values in the order in which they were written. -/
theorem getAll_requestHead (t : RequestText) (name : FieldName) :
    t.requestHead.fields.getAll name = (t.fields.filter (·.1 = name)).map (·.2) :=
  Fields.getAll_ofList t.fields name

/-- Written requests, one behind the other and cut in any way, are read one after the other, and
then nothing is left. Of each request come the head, with the values of every name in the order in
which they were written, the body and the trailer fields. -/
theorem readRequests_pipelined (texts : List RequestText) {maxBody : ℕ}
    (hfits : ∀ t ∈ texts, t.body.data.length ≤ maxBody) {segments : List Bytes}
    (hne : ∀ s ∈ segments, s ≠ [])
    (hbytes : segments.flatten = (texts.map RequestText.bytes).flatten) :
    (withMaxBody maxBody).readRequests (segments.map Fill.bytes) (texts.length + 1) =
        .ok (texts.map (fun t => .ok (some t.received)) ++ [.ok none]) ∧
      ∀ t ∈ texts, ∀ name,
        t.requestHead.fields.getAll name = (t.fields.filter (·.1 = name)).map (·.2) :=
  ⟨readRequests_eq texts hfits hne hbytes, fun t _ => getAll_requestHead t⟩

/-- A request for a resource, without fields and without a body. -/
def plainGet : RequestText where
  head := {
    skipped := [], method := Method.get.bytes, target := ascii "/a?b", version := .http10
    ending := .crlf, fields := [], closing := .crlf
    isToken_method := Method.get.isToken_bytes
    target_ne_nil := by decide
    isTargetByte_target := List.all_eq_true.1 (by decide)
    isValid_target := by decide
    version_eq := .inl rfl
    length_fields_le := by decide }
  method := .get
  uri := ⟨none, [], ascii "/a", some (ascii "b")⟩
  fields := []
  body := .absent
  skipped_eq_nil := rfl
  ending_eq := rfl
  field_ending_eq := by simp
  closing_eq := rfl
  method_eq := rfl
  parse_target := by decide +kernel
  spells := .nil
  announces := .nothing rfl rfl
  length_head_le := by decide +kernel

/-- A request with a body in one chunk and a trailer field. -/
def chunkedPost : RequestText where
  head := {
    skipped := [], method := ascii "POST", target := ascii "/", version := .http11
    ending := .crlf, closing := .crlf
    fields := [{
      name := ascii "Transfer-Encoding", before := ascii " ", value := ascii "chunked", after := []
      ending := .crlf
      isToken_name := by decide
      isBlank_before := List.all_eq_true.1 (by decide)
      isValueByte_value := List.all_eq_true.1 (by decide)
      head_value := by rintro b ⟨⟩; rfl
      getLast_value := by rintro b ⟨⟩; rfl
      isBlank_after := List.all_eq_true.1 (by decide) }]
    isToken_method := by decide
    target_ne_nil := by decide
    isTargetByte_target := List.all_eq_true.1 (by decide)
    isValid_target := by decide
    version_eq := .inr rfl
    length_fields_le := by decide }
  method := ⟨ascii "POST", by decide⟩
  uri := ⟨none, [], ascii "/", none⟩
  fields := [(.transferEncoding, .chunked)]
  body := .chunked {
    chunks := [{
      line := { ChunkedDecoder.zeroLine with
        digits := ascii "2", extension := some (ascii "x"), size := 2
        digits_ne_nil := by decide
        value_digits := by decide
        size_lt := by decide
        lf_notMem_extension := by decide
        length_le := by decide }
      data := ascii "ok"
      ending := .crlf
      size_line := rfl
      data_ne_nil := by decide }]
    last := ChunkedDecoder.zeroLine
    fields := [{
      name := ascii "Sum", before := [], value := ascii "1", after := ascii " "
      ending := .lf
      isToken_name := by decide
      isBlank_before := List.all_eq_true.1 (by decide)
      isValueByte_value := List.all_eq_true.1 (by decide)
      head_value := by rintro b ⟨⟩; rfl
      getLast_value := by rintro b ⟨⟩; rfl
      isBlank_after := List.all_eq_true.1 (by decide) }]
    ending := .crlf
    trailers := [(⟨ascii "sum", by decide⟩, ⟨ascii "1", by decide⟩)]
    size_last := ChunkedDecoder.size_zeroLine
    length_le := by decide
    length_fields_le := by decide
    spells := .cons ⟨by decide, rfl⟩ .nil }
  skipped_eq_nil := rfl
  ending_eq := rfl
  field_ending_eq := by simp
  closing_eq := rfl
  method_eq := rfl
  parse_target := by decide +kernel
  spells := .cons ⟨by decide, rfl⟩ .nil
  announces := .chunked (by decide)
    (show HasOnly [(.transferEncoding, .chunked)] .transferEncoding .chunked by decide) (by decide)
  length_head_le := by decide +kernel

/-- Both requests, cut inside of line breaks. -/
def cutRequests : List Bytes :=
  [ascii "GET /a?b HTTP/1.0\r\n\r",
    ascii "\nPOST / HTTP/1.1\r\nTransfer-Encoding: chunked\r\n\r\n2;x\nok\r",
    ascii "\n0\nSum:1 \n\r", ascii "\n"]

theorem readRequests_cutRequests :
    (∀ t ∈ [plainGet, chunkedPost], t.body.data.length ≤ 2) ∧ (∀ s ∈ cutRequests, s ≠ []) ∧
      cutRequests.flatten = ([plainGet, chunkedPost].map RequestText.bytes).flatten ∧
      (withMaxBody 2).readRequests (cutRequests.map Fill.bytes) 3 =
        .ok [
          .ok (some ⟨some plainGet.requestHead, [], .empty⟩),
          .ok (some ⟨some chunkedPost.requestHead, ascii "ok",
            .ofList [(⟨ascii "sum", by decide⟩, ⟨ascii "1", by decide⟩)]⟩),
          .ok none] := by
  have hfits : ∀ t ∈ [plainGet, chunkedPost], t.body.data.length ≤ 2 := by
    simp only [List.mem_cons, List.not_mem_nil, or_false, forall_eq_or_imp, forall_eq]
    decide
  have hne : ∀ s ∈ cutRequests, s ≠ [] := by decide
  have hbytes : cutRequests.flatten = ([plainGet, chunkedPost].map RequestText.bytes).flatten := by
    decide +kernel
  exact ⟨hfits, hne, hbytes, (readRequests_pipelined _ hfits hne hbytes).1⟩

end FrameReader

end CoopHttp
