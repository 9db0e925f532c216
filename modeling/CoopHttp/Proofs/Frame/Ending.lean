import CoopHttp.Proofs.Chunked.Acceptance
import CoopHttp.Proofs.Chunked.Fragmentation
import CoopHttp.Proofs.Frame.Bounds
import CoopHttp.Proofs.Frame.Payload
import CoopHttp.Proofs.Payload.Progress

/-!
# Reading comes to an end

A source delivers some octets, and then it ends or fails. Reading a head or a payload from it takes
no more fills than there are octets and one that says that there are none, and a payload is handed out
in no more pieces than there are octets and its end. A payload that has not arrived in full when the
source ends is an error.
-/
namespace CoopHttp

/-- The octets that a source delivers before it ends or fails. -/
def Source.delivered : Source → Bytes
  | [] => []
  | .failure _ :: _ => []
  | .bytes [] :: _ => []
  | .bytes (b :: bytes) :: rest => b :: bytes ++ delivered rest

theorem Source.delivered_bytes {bytes : Bytes} (h : bytes ≠ []) (rest : Source) :
    Source.delivered (.bytes bytes :: rest) = bytes ++ rest.delivered := by
  obtain ⟨b, bytes, rfl⟩ := List.exists_cons_of_ne_nil h
  rfl

/-- Every fetch but the last one delivers something. -/
theorem Fetcher.length_drive_le {σ ρ : Type} (m : Fetcher σ ρ) (s : σ) (source : Source) :
    (m.drive s source).1.length ≤ source.delivered.length + 1 := by
  induction source generalizing s with
  | nil =>
    rw [drive]
    split <;> simp
  | cons fill source ih =>
    rw [drive]
    split <;> rename_i s' _
    · simp
    · split
      · simp
      · simp
      · rename_i bytes hne
        have hne : bytes ≠ [] := fun hnil => hne (by rw [hnil])
        have hlater := ih (m.feed s' bytes)
        have hpos := List.length_pos_iff.2 hne
        rw [Source.delivered_bytes hne, List.length_append, List.length_cons]
        omega

namespace FrameReader

/-- The loop that reads a payload, turn by turn: the items that the decoder hands out, the number of
fills, and what the loop ends with. -/
inductive Pulls : PayloadDecoder → FrameReader → Source → List PayloadItem → ℕ →
    FrameReader → Source → Except ParseError Unit → Prop
  | refused {d d' : PayloadDecoder} {r : FrameReader} {buffer : Bytes} {error : ParseError}
    (h : d.decode r.buffer = (d', buffer, .error error)) (source : Source) :
    Pulls d r source [] 0 { r with buffer } source (.error error)
  | tooLarge {d d' : PayloadDecoder} {r : FrameReader} {buffer piece : Bytes} {error : ParseError}
    (h : d.decode r.buffer = (d', buffer, .ok (some (.chunk piece))))
    (hsize : r.checkSize (r.gathered.add piece).size = .error error) (source : Source) :
    Pulls d r source [.chunk piece] 0 { r with buffer } source (.error error)
  | chunk {d d' : PayloadDecoder} {r s : FrameReader} {buffer piece : Bytes} {source rest : Source}
    {items : List PayloadItem} {fills : ℕ} {result : Except ParseError Unit}
    (h : d.decode r.buffer = (d', buffer, .ok (some (.chunk piece))))
    (hsize : r.checkSize (r.gathered.add piece).size = .ok ())
    (later : Pulls d' { r with buffer, gathered := r.gathered.add piece } source items fills s rest
      result) :
    Pulls d r source (.chunk piece :: items) fills s rest result
  | eof {d d' : PayloadDecoder} {r s : FrameReader} {buffer : Bytes} {result : Except ParseError Unit}
    (h : d.decode r.buffer = (d', buffer, .ok (some .eof)))
    (hfinish : finishBody { r with buffer } d'.trailer = (s, result)) (source : Source) :
    Pulls d r source [.eof] 0 s source result
  | exhausted {d d' : PayloadDecoder} {r : FrameReader} {buffer : Bytes}
    (h : d.decode r.buffer = (d', buffer, .ok none)) :
    Pulls d r [] [] 1 { r with buffer } [] bodyAtEnd
  | closed {d d' : PayloadDecoder} {r : FrameReader} {buffer : Bytes}
    (h : d.decode r.buffer = (d', buffer, .ok none)) (source : Source) :
    Pulls d r (.bytes [] :: source) [] 1 { r with buffer } source bodyAtEnd
  | failed {d d' : PayloadDecoder} {r : FrameReader} {buffer : Bytes}
    (h : d.decode r.buffer = (d', buffer, .ok none)) (error : IoError) (source : Source) :
    Pulls d r (.failure error :: source) [] 1 { r with buffer } source (.error (.io error))
  | fill {d d' : PayloadDecoder} {r s : FrameReader} {buffer bytes : Bytes} {source rest : Source}
    {items : List PayloadItem} {fills : ℕ} {result : Except ParseError Unit}
    (h : d.decode r.buffer = (d', buffer, .ok none)) (hbytes : bytes ≠ [])
    (later : Pulls d' ({ r with buffer }.extend bytes) source items fills s rest result) :
    Pulls d r (.bytes bytes :: source) items (fills + 1) s rest result

theorem pullPayload_congr {d d' : PayloadDecoder} {r r' : FrameReader} (h : drain d r = drain d' r')
    (source : Source) : r.pullPayload d source = r'.pullPayload d' source := by
  cases source with
  | nil => rw [pullPayload, pullPayload, h]
  | cons fill source => rw [pullPayload, pullPayload, h]

/-- The loop has a run with this source. -/
def HasRun (d : PayloadDecoder) (r : FrameReader) (source : Source) : Prop :=
  ∃ items fills, Pulls d r source items fills (r.pullPayload d source).1
    (r.pullPayload d source).2.1 (r.pullPayload d source).2.2

/-- Between two fills the loop gets on by itself. -/
theorem hasRun_of_waiting {source : Source}
    (hwaiting : ∀ {d d' : PayloadDecoder} {r : FrameReader} {buffer : Bytes},
      d.decode r.buffer = (d', buffer, .ok none) → HasRun d r source)
    (d : PayloadDecoder) (r : FrameReader) : HasRun d r source := by
  fun_induction drain d r with
  | case1 d r d' buffer error h =>
    have hdrain : drain d r = (d', { r with buffer }, .done (.error error)) := by rw [drain, h]
    rw [HasRun, pullPayload_of_done hdrain]
    exact ⟨[], 0, .refused h source⟩
  | case2 d r d' buffer h => exact hwaiting h
  | case3 d r d' buffer h s result hfinish =>
    have hdrain : drain d r = (d', s, .done result) := by rw [drain, h]; simp only [hfinish]
    rw [HasRun, pullPayload_of_done hdrain]
    exact ⟨[.eof], 0, .eof h hfinish source⟩
  | case4 d r d' buffer piece h gathered error hsize =>
    have hdrain : drain d r = (d', { r with buffer }, .done (.error error)) := by
      rw [drain, h]
      simp only [gathered, hsize]
    rw [HasRun, pullPayload_of_done hdrain]
    exact ⟨[.chunk piece], 0, .tooLarge h hsize source⟩
  | case5 d r d' buffer piece h gathered hsize ih =>
    have hdrain : drain d r = drain d' { r with buffer, gathered } := by
      rw [drain, h]
      simp only [gathered, hsize]
    obtain ⟨items, fills, hrun⟩ := ih
    rw [HasRun, pullPayload_congr hdrain]
    exact ⟨.chunk piece :: items, fills, .chunk h hsize hrun⟩

/-- Reading a payload is a run of the loop. -/
theorem hasRun (d : PayloadDecoder) (r : FrameReader) (source : Source) : HasRun d r source := by
  induction source generalizing d r with
  | nil =>
    refine hasRun_of_waiting (fun {d d' r buffer} h => ?_) d r
    rw [HasRun, pullPayload, drain_of_none h]
    exact ⟨[], 1, .exhausted h⟩
  | cons fill source ih =>
    refine hasRun_of_waiting (fun {d d' r buffer} h => ?_) d r
    cases fill with
    | failure error =>
      rw [HasRun, pullPayload, drain_of_none h]
      exact ⟨[], 1, .failed h error source⟩
    | bytes octets =>
      obtain _ | ⟨b, octets⟩ := octets
      · rw [HasRun, pullPayload, drain_of_none h]
        exact ⟨[], 1, .closed h source⟩
      · obtain ⟨items, fills, hrun⟩ := ih d' ({ r with buffer }.extend (b :: octets))
        rw [HasRun, pullPayload_of_starved (drain_of_none h) (List.cons_ne_nil b octets)]
        exact ⟨items, fills + 1, .fill h (List.cons_ne_nil b octets) hrun⟩

/-- Every piece takes some octets, and so does every fill bring some, the last one apart. -/
theorem Pulls.length_le {d : PayloadDecoder} {r s : FrameReader} {source rest : Source}
    {items : List PayloadItem} {fills : ℕ} {result : Except ParseError Unit}
    (h : Pulls d r source items fills s rest result) :
    items.length ≤ r.buffer.length + source.delivered.length + 1 ∧
      fills ≤ source.delivered.length + 1 := by
  induction h with
  | refused | tooLarge | eof | exhausted | closed | failed => simp
  | chunk h hsize later ih =>
    have hlt := PayloadDecoder.decode_rest_lt h
    dsimp only at ih
    rw [List.length_cons]
    omega
  | @fill d d' r _ buffer bytes source _ _ _ _ h hbytes later ih =>
    have hle := PayloadDecoder.decode_rest_le d r.buffer
    have hpos := List.length_pos_iff.2 hbytes
    rw [h] at hle
    simp only [extend, List.length_append] at ih
    rw [Source.delivered_bytes hbytes, List.length_append]
    dsimp only at hle
    omega

/-! Payloads that arrive in full. -/

end FrameReader

/-- The octets begin with a payload of this size. -/
def PayloadSize.Arrived : PayloadSize → Bytes → Prop
  | .length n, octets => n ≤ octets.length
  | .chunked, octets => ∃ t : ChunkedText, t.bytes <+: octets
  | .empty, _ => True

namespace ChunkedDecoder

/-- What repeated decoding comes to behind an answer. -/
def decodeBehind (d : ChunkedDecoder) (rest data : Bytes) : Option PayloadItem → Halt
  | none => d.decodeAll rest data
  | some (.chunk piece) => d.decodeAll rest (data ++ piece)
  | some .eof => ⟨d, rest, data, .ended⟩

/-- An answer on a buffer is the first one on a longer buffer, as far as repeated decoding goes. -/
theorem decodeAll_append_of_decode {d d' : ChunkedDecoder} {src rest : Bytes}
    {item : Option PayloadItem} (h : Poised d src) (hd : d.decode src = (d', rest, .ok item))
    (s data : Bytes) : d.decodeAll (src ++ s) data = d'.decodeBehind (rest ++ s) data item := by
  induction d, src using ChunkedDecoder.decode.induct with
  | case1 d src d₁ rest₁ hstep ih =>
    rw [ChunkedDecoder.decode, hstep] at hd
    rw [decodeAll_of_moved (step_append_of_moved h hstep s)]
    exact ih (h.step hstep) hd
  | case2 d src d₁ rest₁ out hstep =>
    rw [ChunkedDecoder.decode, hstep] at hd
    cases hd
    cases out with
    | chunk piece => exact decodeAll_append_of_chunk hstep s data
    | eof => exact decodeAll_of_eof (step_append_of_eof hstep s) data
  | case3 d src d₁ rest₁ hstep =>
    rw [ChunkedDecoder.decode, hstep] at hd
    cases hd
    exact decodeAll_append_of_waits h hstep s data
  | case4 d src d₁ rest₁ error hstep =>
    rw [ChunkedDecoder.decode, hstep] at hd
    cases hd

end ChunkedDecoder

namespace FrameReader

/-- A payload of known length is read to its end only if so many octets arrive. -/
theorem Pulls.le_length {d : PayloadDecoder} {r s : FrameReader} {source rest : Source}
    {items : List PayloadItem} {fills : ℕ} {result : Except ParseError Unit}
    (h : Pulls d r source items fills s rest result) {n : ℕ} (hd : d = .length ⟨n⟩)
    (hresult : result = .ok ()) : n ≤ r.buffer.length + source.delivered.length := by
  induction h generalizing n with
  | refused | tooLarge | exhausted | closed | failed => cases hresult
  | eof h hfinish source =>
    subst hd
    rw [PayloadDecoder.decode, LengthDecoder.decode] at h
    split_ifs at h with hzero <;> cases h
    rw [show n = 0 from hzero]
    exact Nat.zero_le _
  | chunk h hsize later ih =>
    subst hd
    rw [PayloadDecoder.decode, LengthDecoder.decode] at h
    split_ifs at h with hzero hbuffer <;> cases h
    have hle := ih rfl hresult
    simp only [List.length_take, List.length_drop] at hle
    omega
  | fill h hbytes later ih =>
    subst hd
    rw [PayloadDecoder.decode, LengthDecoder.decode] at h
    split_ifs at h with hzero hbuffer <;> cases h
    have hle := ih rfl hresult
    rw [Source.delivered_bytes hbytes]
    simpa [extend, hbuffer] using hle

/-- A chunked payload is read to its end only if decoding everything that arrives comes to an end. -/
theorem Pulls.ended {d : PayloadDecoder} {r s : FrameReader} {source rest : Source}
    {items : List PayloadItem} {fills : ℕ} {result : Except ParseError Unit}
    (h : Pulls d r source items fills s rest result) {c : ChunkedDecoder} (hd : d = .chunked c)
    (hresult : result = .ok ()) (hpoised : c.Poised r.buffer) (data : Bytes) :
    (c.decodeAll (r.buffer ++ source.delivered) data).stop = .ended := by
  have hinv {c : ChunkedDecoder} {src buffer : Bytes} {d' : PayloadDecoder}
      {answer : Except ParseError (Option PayloadItem)}
      (h : (PayloadDecoder.chunked c).decode src = (d', buffer, answer)) :
      ∃ c', d' = .chunked c' ∧ c.decode src = (c', buffer, answer) := by
    rw [PayloadDecoder.decode] at h
    cases h
    exact ⟨_, rfl, rfl⟩
  induction h generalizing c data with
  | refused | tooLarge | exhausted | closed | failed => cases hresult
  | eof h hfinish source =>
    subst hd
    obtain ⟨c', rfl, hdecode⟩ := hinv h
    rw [ChunkedDecoder.decodeAll_append_of_decode hpoised hdecode, ChunkedDecoder.decodeBehind]
  | chunk h hsize later ih =>
    subst hd
    obtain ⟨c', rfl, hdecode⟩ := hinv h
    rw [ChunkedDecoder.decodeAll_append_of_decode hpoised hdecode]
    exact ih rfl hresult (hpoised.decode hdecode).1 _
  | fill h hbytes later ih =>
    subst hd
    obtain ⟨c', rfl, hdecode⟩ := hinv h
    rw [ChunkedDecoder.decodeAll_append_of_decode hpoised hdecode, Source.delivered_bytes hbytes]
    have hended := ih rfl hresult ((hpoised.decode hdecode).1.append _) data
    rwa [extend, List.append_assoc] at hended

theorem Pulls.arrived {size : PayloadSize} {r s : FrameReader} {source rest : Source}
    {items : List PayloadItem} {fills : ℕ}
    (h : Pulls (.ofSize size) r source items fills s rest (.ok ())) :
    size.Arrived (r.buffer ++ source.delivered) := by
  cases size with
  | length n => simpa [PayloadSize.Arrived] using h.le_length rfl rfl
  | chunked =>
    have hended := h.ended rfl rfl (ChunkedDecoder.poised_fresh _) []
    obtain ⟨t, heq, -⟩ := ChunkedDecoder.exists_of_ended rfl hended
    exact ⟨t, _, heq.symm⟩
  | empty => trivial

/-! The operations. -/

/-- Reads a payload of a given size behind a head that has been read. -/
def pullSized (r : FrameReader) (size : PayloadSize) (source : Source) :
    FrameReader × Source × Except ParseError Unit :=
  match r.checkSize size.contentLength with
  | .error error => (r, source, .error error)
  | .ok () => r.pullPayload (.ofSize size) source

theorem pulls_behind_head {r : FrameReader} {declared : PayloadSize}
    (h : r.payload = some declared) (source : Source) :
    (∀ n, r.pullLength n source = .ok (r.pullSized (.length n) source)) ∧
      r.pullChunked source = .ok (r.pullSized .chunked source) ∧
      r.pullDeclared source = .ok (r.pullSized declared source) := by
  have hparse : r.parseHead = .ok (r, .ok declared.contentLength) := by rw [parseHead, h]
  have hbehind (d : PayloadDecoder) :
      r.pullBehindHead d source = .ok (r.pullPayload d source) := by
    rw [pullBehindHead, hparse]
    rfl
  refine ⟨fun n => ?_, ?_, ?_⟩
  · rw [pullLength, pullSized, PayloadSize.contentLength]
    rcases r.checkSize n with error | ⟨⟩
    · rfl
    · exact hbehind _
  · have hcheck : r.checkSize PayloadSize.chunked.contentLength = .ok () := if_pos (Nat.zero_le _)
    rw [pullChunked, pullSized, hcheck]
    exact hbehind _
  · rw [pullDeclared, hparse, pullSized]
    rcases hsize : r.checkSize declared.contentLength with error | ⟨⟩ <;>
      simp only [Except.map, h, Option.getD_some, hsize]

/-- What reading a payload of a given size comes to. -/
structure Ends (r : FrameReader) (size : PayloadSize) (source : Source)
    (outcome : FrameReader × Source × Except ParseError Unit) : Prop where
  /-- The size is refused, or the loop has a run of bounded length. -/
  refused_or_exists_pulls :
    (∃ error, r.checkSize size.contentLength = .error error ∧ outcome = (r, source, .error error)) ∨
    ∃ items fills,
      Pulls (.ofSize size) r source items fills outcome.1 outcome.2.1 outcome.2.2 ∧
        items.length ≤ r.buffer.length + source.delivered.length + 1 ∧
        fills ≤ source.delivered.length + 1
  error_of_not_arrived : ¬ size.Arrived (r.buffer ++ source.delivered) →
    ∃ error, outcome.2.2 = .error error

theorem ends_pullSized (r : FrameReader) (size : PayloadSize) (source : Source) :
    r.Ends size source (r.pullSized size source) := by
  rw [pullSized]
  split
  · rename_i error hcheck
    exact ⟨.inl ⟨error, hcheck, rfl⟩, fun _ => ⟨error, rfl⟩⟩
  · obtain ⟨items, fills, hrun⟩ := hasRun (.ofSize size) r source
    refine ⟨.inr ⟨items, fills, hrun, hrun.length_le⟩, fun hmissing => ?_⟩
    rcases hresult : (r.pullPayload (.ofSize size) source).2.2 with error | ⟨⟩
    · exact ⟨error, rfl⟩
    · rw [hresult] at hrun
      exact absurd hrun.arrived hmissing

/-- Reading comes to an end. Decoders get on in every state and on every buffer; a head is read with
at most one fill for each octet that the source delivers, and one more; and every way of reading a
payload behind a head that has been read answers, after a bounded run of its loop, and it answers with
an error if the payload has not arrived in full. -/
theorem reading_ends (r : FrameReader) (source : Source) :
    (∀ (d : PayloadDecoder) (src : Bytes), d.GetsOn src) ∧
    (r.pullHead source = (headFetcher.drive r source).2 ∧
      (headFetcher.drive r source).1.length ≤ source.delivered.length + 1) ∧
    ∀ declared, r.payload = some declared →
      (∀ n, ∃ outcome, r.pullLength n source = .ok outcome ∧ r.Ends (.length n) source outcome) ∧
      (∃ outcome, r.pullChunked source = .ok outcome ∧ r.Ends .chunked source outcome) ∧
      ∃ outcome, r.pullDeclared source = .ok outcome ∧ r.Ends declared source outcome := by
  refine ⟨PayloadDecoder.getsOn, ⟨pullHead_eq_drive r source, headFetcher.length_drive_le r source⟩,
    fun declared h => ?_⟩
  obtain ⟨hlength, hchunked, hdeclared⟩ := pulls_behind_head h source
  exact ⟨fun n => ⟨_, hlength n, ends_pullSized r _ source⟩, ⟨_, hchunked, ends_pullSized r _ source⟩,
    ⟨_, hdeclared, ends_pullSized r _ source⟩⟩

/-- Three octets are announced, and the source ends behind the second. -/
theorem exists_ends_cutBody : ∃ (r : FrameReader) (source : Source) (outcome : _),
    r.payload = some (.length 3) ∧ source.delivered = [98] ∧
      ¬ (PayloadSize.length 3).Arrived (r.buffer ++ source.delivered) ∧
      r.pullDeclared source = .ok outcome ∧ r.Ends (.length 3) source outcome ∧
      ∃ error, outcome.2.2 = .error error := by
  let r : FrameReader := { buffer := [97], payload := some (.length 3), maxBody := 10 }
  have hmissing : ¬ (PayloadSize.length 3).Arrived (r.buffer ++ Source.delivered [.bytes [98]]) := by
    simp [PayloadSize.Arrived, Source.delivered, r]
  obtain ⟨-, -, outcome, hpull, hends⟩ := (reading_ends r [.bytes [98]]).2.2 (.length 3) rfl
  exact ⟨r, [.bytes [98]], outcome, rfl, rfl, hmissing, hpull, hends,
    hends.error_of_not_arrived hmissing⟩

end FrameReader

end CoopHttp
