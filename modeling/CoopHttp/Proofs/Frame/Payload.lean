import CoopHttp.Frame.Source
import CoopHttp.Proofs.Chunked.Verdict
import CoopHttp.Proofs.Head.Fields
import CoopHttp.Proofs.Head.Grammar

/-!
# Reading a payload from a source

A reader decodes what its buffer holds of a payload and fetches more when that runs out. Whatever the
fills are, it ends up with the data of the payload and with exactly the octets behind it.
-/
namespace CoopHttp.FrameReader

/-- The reader reads a payload, some fills being left over: it has gathered `data`, it has the trailer
fields, and what was not read, in the buffer and in the fills, is `later`. -/
def PullsPayload (r : FrameReader) (d : PayloadDecoder) (segments : List Bytes)
    (data later : Bytes) (trailers : Fields) : Prop :=
  ∃ (rest : Bytes) (segments' : List Bytes) (gathered : Gathered),
    segments' <:+ segments ∧ rest ++ segments'.flatten = later ∧ gathered.bytes = r.body ++ data ∧
      r.pullPayload d (segments.map Fill.bytes) =
        ({ r with buffer := rest, gathered, bodyDone := true, trailers },
          segments'.map Fill.bytes, .ok ())

/-! Trailers. -/

theorem readTrailers_eq {fields : List FieldText} (hcount : fields.length ≤ Grammar.maxFields)
    {trailers : List (FieldName × FieldValue)}
    (h : List.Forall₂ FieldText.Spells fields trailers) :
    readTrailers (fieldBytes fields) = .ok (Fields.ofList trailers) := by
  have hlines : Grammar.fieldLines Grammar.maxFields (fieldBytes fields ++ Bytes.crlf) =
      .done (fields.map FieldText.line) [] := by
    rw [Grammar.fieldLines_eq_done_iff]
    exact ⟨fields, .crlf, rfl, hcount, by simp [LineBreak.bytes]⟩
  rw [readTrailers, hlines]
  exact Fields.ofLines_eq_ofList h

/-- A body without trailer lines has no trailer fields, so it may be closed like any other. -/
theorem finishBody_eq {trailer : Bytes} {trailers : Fields} (h : readTrailers trailer = .ok trailers)
    (r : FrameReader) (hr : r.trailers = .empty) :
    r.finishBody trailer = ({ r with bodyDone := true, trailers }, .ok ()) := by
  by_cases hnil : trailer = []
  · have hempty : readTrailers [] = .ok Fields.empty := rfl
    rw [hnil, hempty] at h
    cases h
    rw [finishBody, if_pos hnil, ← hr]
  · rw [finishBody, if_neg hnil, h]

/-! The steps of a reader that drains its buffer. -/

theorem drain_of_none {d d' : PayloadDecoder} {r : FrameReader} {rest : Bytes}
    (h : d.decode r.buffer = (d', rest, .ok none)) :
    drain d r = (d', { r with buffer := rest }, .starved) := by
  rw [drain, h]

theorem drain_of_eof {d d' : PayloadDecoder} {r : FrameReader} {rest : Bytes}
    (h : d.decode r.buffer = (d', rest, .ok (some .eof))) {trailers : Fields}
    (htrailers : readTrailers d'.trailer = .ok trailers) (hr : r.trailers = .empty) :
    drain d r = (d', { r with buffer := rest, bodyDone := true, trailers }, .done (.ok ())) := by
  rw [drain, h]
  simp only [finishBody_eq htrailers { r with buffer := rest } hr]

theorem drain_of_chunk {d d' : PayloadDecoder} {r : FrameReader} {rest piece : Bytes}
    (h : d.decode r.buffer = (d', rest, .ok (some (.chunk piece))))
    (hfits : (r.body ++ piece).length ≤ r.maxBody) :
    drain d r = drain d' { r with buffer := rest, gathered := r.gathered.add piece } := by
  have hsize : (r.gathered.add piece).size ≤ r.maxBody := by
    rw [← Gathered.length_bytes, Gathered.bytes_add]
    exact hfits
  have hcheck : r.checkSize (r.gathered.add piece).size = .ok () := by
    rw [checkSize, if_pos hsize]
  rw [drain, h]
  simp only [hcheck]

theorem pullPayload_of_done {d d' : PayloadDecoder} {r r' : FrameReader}
    {result : Except ParseError Unit} (h : drain d r = (d', r', .done result)) (source : Source) :
    r.pullPayload d source = (r', source, result) := by
  cases source with
  | nil => rw [pullPayload, h]
  | cons fill source => rw [pullPayload, h]

theorem pullPayload_of_starved {d d' : PayloadDecoder} {r r' : FrameReader}
    (h : drain d r = (d', r', .starved)) {s : Bytes} (hs : s ≠ []) (source : Source) :
    r.pullPayload d (.bytes s :: source) = (r'.extend s).pullPayload d' source := by
  obtain ⟨b, s, rfl⟩ := List.exists_cons_of_ne_nil hs
  rw [pullPayload, h]

/-! A payload of known length. -/

theorem drain_length_zero (r : FrameReader) (hr : r.trailers = .empty) :
    drain (.length ⟨0⟩) r = (.length ⟨0⟩, { r with bodyDone := true }, .done (.ok ())) := by
  have hdecode : (PayloadDecoder.length ⟨0⟩).decode r.buffer =
      (.length ⟨0⟩, r.buffer, .ok (some .eof)) := by
    simp [PayloadDecoder.decode, LengthDecoder.decode]
  rw [drain_of_eof hdecode rfl hr, ← hr]

theorem drain_length_nil {n : ℕ} (hn : n ≠ 0) {r : FrameReader} (hbuffer : r.buffer = []) :
    drain (.length ⟨n⟩) r = (.length ⟨n⟩, r, .starved) := by
  have hdecode : (PayloadDecoder.length ⟨n⟩).decode r.buffer =
      (.length ⟨n⟩, r.buffer, .ok none) := by
    simp [PayloadDecoder.decode, LengthDecoder.decode, hn, hbuffer]
  rw [drain_of_none hdecode]

/-- Draining takes what has arrived of the payload. -/
theorem drain_length (n : ℕ) (r : FrameReader) (hr : r.trailers = .empty)
    (hfits : r.body.length + n ≤ r.maxBody) :
    ∃ gathered : Gathered, gathered.bytes = r.body ++ r.buffer.take n ∧
      drain (.length ⟨n⟩) r =
        if n ≤ r.buffer.length then
          (.length ⟨0⟩, { r with buffer := r.buffer.drop n, gathered, bodyDone := true },
            .done (.ok ()))
        else
          (.length ⟨n - r.buffer.length⟩, { r with buffer := [], gathered }, .starved) := by
  by_cases hn : n = 0
  · subst hn
    refine ⟨r.gathered, by simp [body], ?_⟩
    rw [drain_length_zero r hr, if_pos (Nat.zero_le _), List.drop_zero]
  · by_cases hbuffer : r.buffer = []
    · refine ⟨r.gathered, by simp [body, hbuffer], ?_⟩
      have hgt : ¬ n ≤ r.buffer.length := by
        simpa [hbuffer] using hn
      have hempty : ({ r with buffer := [] } : FrameReader) = r := by rw [← hbuffer]
      rw [drain_length_nil hn hbuffer, if_neg hgt, hempty, hbuffer, List.length_nil, Nat.sub_zero]
    · have hdecode : (PayloadDecoder.length ⟨n⟩).decode r.buffer =
          (.length ⟨n - (r.buffer.take n).length⟩, r.buffer.drop n,
            .ok (some (.chunk (r.buffer.take n)))) := by
        simp [PayloadDecoder.decode, LengthDecoder.decode, hn, hbuffer]
      have hpiece : (r.body ++ r.buffer.take n).length ≤ r.maxBody := by
        rw [List.length_append, List.length_take]
        omega
      refine ⟨r.gathered.add (r.buffer.take n), Gathered.bytes_add _ _, ?_⟩
      rw [drain_of_chunk hdecode hpiece, List.length_take]
      by_cases hle : n ≤ r.buffer.length
      · rw [if_pos hle, Nat.min_eq_left hle, Nat.sub_self]
        exact drain_length_zero _ hr
      · have hrest : n - r.buffer.length ≠ 0 := by omega
        have hdrop : r.buffer.drop n = [] := List.drop_of_length_le (by omega)
        rw [if_neg hle, Nat.min_eq_right (by omega), hdrop]
        exact drain_length_nil hrest rfl

/-- All of the data is in the buffer, or some of it is still to come. -/
theorem arrived_cases {buffer unread data later : Bytes} (h : buffer ++ unread = data ++ later) :
    (∃ rest, buffer = data ++ rest ∧ rest ++ unread = later) ∨
      ∃ missing, missing ≠ [] ∧ data = buffer ++ missing ∧ unread = missing ++ later := by
  obtain ⟨missing, hdata, hunread⟩ | ⟨rest, hbuffer, hlater⟩ := List.append_eq_append_iff.1 h
  · by_cases hmissing : missing = []
    · subst hmissing
      exact .inl ⟨[], by simp [hdata], by simp [hunread]⟩
    · exact .inr ⟨missing, hmissing, hdata, hunread⟩
  · exact .inl ⟨rest, hbuffer, hlater.symm⟩

/-- A payload of known length is read however it arrives. -/
theorem pullsPayload_length {segments : List Bytes} (hne : ∀ s ∈ segments, s ≠ []) {r : FrameReader}
    {data later : Bytes} (hbytes : r.buffer ++ segments.flatten = data ++ later)
    (hr : r.trailers = .empty) (hfits : (r.body ++ data).length ≤ r.maxBody) :
    r.PullsPayload (.length ⟨data.length⟩) segments data later .empty := by
  have hlength : r.body.length + data.length ≤ r.maxBody := by
    simpa using hfits
  obtain ⟨gathered, hgathered, hdrain⟩ := drain_length data.length r hr hlength
  obtain ⟨rest, hbuffer, hlater⟩ | ⟨missing, hmissing, hdata, hunread⟩ := arrived_cases hbytes
  · refine ⟨rest, segments, gathered, List.suffix_rfl, hlater, ?_, ?_⟩
    · rw [hgathered, hbuffer, List.take_left]
    · rw [if_pos (by simp [hbuffer]), hbuffer, List.drop_left] at hdrain
      rw [pullPayload_of_done hdrain, ← hr]
  · have hshort : ¬ data.length ≤ r.buffer.length := by
      have hpos := List.length_pos_iff.2 hmissing
      simp only [hdata, List.length_append]
      omega
    have htake : r.buffer.take data.length = r.buffer := List.take_of_length_le (by omega)
    have hleft : data.length - r.buffer.length = missing.length := by simp [hdata]
    rw [if_neg hshort, hleft] at hdrain
    rw [htake] at hgathered
    cases segments with
    | nil => simp [hmissing] at hunread
    | cons s segments =>
      have hbody : gathered.bytes ++ missing = r.body ++ data := by
        rw [hgathered, hdata, List.append_assoc]
      have hfits' : (gathered.bytes ++ missing).length ≤ r.maxBody := by
        rw [hbody]
        exact hfits
      have hlater' : ∀ s ∈ segments, s ≠ [] := fun s hs => hne s (by simp [hs])
      have hunread' : (({ r with buffer := [], gathered } : FrameReader).extend s).buffer ++
          segments.flatten = missing ++ later := by
        simpa [extend] using hunread
      obtain ⟨rest, segments', gathered', hsuffix, hlater, hgathered', hpull⟩ :=
        pullsPayload_length hlater' hunread' hr hfits'
      refine ⟨rest, segments', gathered', hsuffix.trans (List.suffix_cons s segments), hlater, ?_, ?_⟩
      · rw [hgathered', ← hbody]
        rfl
      · rw [List.map_cons, pullPayload_of_starved hdrain (hne s (by simp)), hpull]
        rfl
termination_by segments

/-! A payload of chunks. -/

/-- The answer of the decoder at which repeated decoding stops. -/
def lastAnswer : ChunkedDecoder.Stop → Except ParseError (Option PayloadItem)
  | .ended => .ok (some .eof)
  | .waits => .ok none
  | .failed error => .error error

/-- Draining goes along with repeated decoding up to its last step, as long as the body is not too
large. -/
theorem exists_drain_chunked {d : ChunkedDecoder} {r : FrameReader} {halt : ChunkedDecoder.Halt}
    (h : d.decodeAll r.buffer r.body = halt) (hfits : halt.data.length ≤ r.maxBody) :
    ∃ (d1 : ChunkedDecoder) (src : Bytes) (gathered : Gathered), gathered.bytes = halt.data ∧
      drain (.chunked d) r = drain (.chunked d1) { r with buffer := src, gathered } ∧
      (PayloadDecoder.chunked d1).decode src =
        (.chunked halt.decoder, halt.rest, lastAnswer halt.stop) := by
  rcases hdecode : d.decode r.buffer with ⟨d1, rest, answer⟩
  have hpayload : (PayloadDecoder.chunked d).decode r.buffer = (.chunked d1, rest, answer) := by
    simp [PayloadDecoder.decode, hdecode]
  rw [ChunkedDecoder.decodeAll, hdecode] at h
  rcases answer with error | _ | piece | _
  case error =>
    subst h
    exact ⟨d, r.buffer, r.gathered, rfl, rfl, hpayload⟩
  case ok.none =>
    subst h
    exact ⟨d, r.buffer, r.gathered, rfl, rfl, hpayload⟩
  case ok.some.chunk =>
    simp only at h
    have hlt := ChunkedDecoder.decode_rest_lt hdecode
    have hgrown := ChunkedDecoder.data_prefix_decodeAll d1 rest (r.body ++ piece)
    rw [h] at hgrown
    have hbody : ({ r with buffer := rest, gathered := r.gathered.add piece } : FrameReader).body =
        r.body ++ piece := Gathered.bytes_add r.gathered piece
    obtain ⟨d2, src, gathered, hgathered, hdrain, hlast⟩ := exists_drain_chunked
      (r := { r with buffer := rest, gathered := r.gathered.add piece }) (by rw [hbody]; exact h)
      hfits
    refine ⟨d2, src, gathered, hgathered, ?_, hlast⟩
    rw [drain_of_chunk hpayload (hgrown.length_le.trans hfits), hdrain]
  case ok.some.eof =>
    subst h
    exact ⟨d, r.buffer, r.gathered, rfl, rfl, hpayload⟩
termination_by r.buffer.length

/-- A chunked payload is read to its end if the decoder comes to its end on the same segments. -/
theorem pullsPayload_chunked {segments : List Bytes} (hne : ∀ s ∈ segments, s ≠ [])
    {r : FrameReader} {d : ChunkedDecoder} {pending s data trailer later : Bytes}
    {trailers : Fields} (hbuffer : r.buffer = pending ++ s)
    (hverdict : d.verdictFrom pending r.body (s :: segments) =
      .complete (r.body ++ data) trailer later)
    (htrailers : readTrailers trailer = .ok trailers) (hr : r.trailers = .empty)
    (hfits : (r.body ++ data).length ≤ r.maxBody) :
    r.PullsPayload (.chunked d) segments data later trailers := by
  rw [ChunkedDecoder.verdictFrom, ← hbuffer] at hverdict
  rcases hhalt : d.decodeAll r.buffer r.body with ⟨d', rest, data', stop⟩
  rw [hhalt] at hverdict
  cases stop with
  | ended =>
    simp only [ChunkedDecoder.Verdict.complete.injEq] at hverdict
    obtain ⟨rfl, rfl, rfl⟩ := hverdict
    obtain ⟨d1, src, gathered, hgathered, hdrain, hlast⟩ := exists_drain_chunked hhalt hfits
    have heof := drain_of_eof (r := { r with buffer := src, gathered }) hlast htrailers hr
    refine ⟨rest, segments, gathered, List.suffix_rfl, rfl, hgathered, ?_⟩
    rw [pullPayload_of_done (hdrain.trans heof)]
  | waits =>
    simp only at hverdict
    have hgrown := ChunkedDecoder.data_prefix_of_complete segments hverdict
    obtain ⟨d1, src, gathered, hgathered, hdrain, hlast⟩ :=
      exists_drain_chunked hhalt (hgrown.length_le.trans hfits)
    have hstarved := hdrain.trans (drain_of_none (r := { r with buffer := src, gathered }) hlast)
    obtain ⟨missing, hmissing⟩ := hgrown
    cases segments with
    | nil => simp [ChunkedDecoder.verdictFrom] at hverdict
    | cons s' segments =>
      have hbody : (({ r with buffer := rest, gathered } : FrameReader).extend s').body = data' :=
        hgathered
      have hlater' : ∀ s ∈ segments, s ≠ [] := fun s hs => hne s (by simp [hs])
      rw [← hmissing, ← hbody] at hverdict hfits
      obtain ⟨rest', segments', gathered', hsuffix, hlater, hgathered', hpull⟩ :=
        pullsPayload_chunked hlater' rfl hverdict htrailers hr hfits
      refine ⟨rest', segments', gathered', hsuffix.trans (List.suffix_cons s' segments), hlater, ?_, ?_⟩
      · rw [hgathered', hbody, hmissing]
      · rw [List.map_cons, pullPayload_of_starved hstarved (hne s' (by simp)), hpull]
        rfl
  | failed error => simp at hverdict
termination_by segments

/-- No payload is read without a look at what follows. -/
theorem pullsPayload_empty (r : FrameReader) (segments : List Bytes) (hr : r.trailers = .empty) :
    r.PullsPayload .empty segments [] (r.buffer ++ segments.flatten) .empty := by
  have hdecode : PayloadDecoder.empty.decode r.buffer = (.empty, r.buffer, .ok (some .eof)) := rfl
  refine ⟨r.buffer, segments, r.gathered, List.suffix_rfl, rfl, by simp [body], ?_⟩
  rw [pullPayload_of_done (drain_of_eof hdecode rfl hr)]

end CoopHttp.FrameReader
