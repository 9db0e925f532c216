import CoopHttp.Proofs.Chunked.SizeLine
import CoopHttp.Proofs.Chunked.Verdict

/-!
# What the chunk decoder accepts

The decoder comes to the end of a buffer's payload just if the buffer begins with a payload of the
grammar, and then it hands out the data and the trailer lines of that payload and leaves what
follows it. One direction reads a written payload part by part; the other takes the accepting run
apart, one part of the grammar for each line or piece that the decoder took.
-/
namespace CoopHttp.ChunkedDecoder

/-! Reading what has been written. -/

theorem decodeAll_sizeLine (l : SizeLine) (rest data : Bytes) :
    ({} : ChunkedDecoder).decodeAll (l.bytes ++ rest) data =
      ({ phase := afterSize l.size } : ChunkedDecoder).decodeAll rest data := by
  apply decodeAll_of_moved
  have hlen := l.length_bytes_le
  simp only [SizeLine.bytes, List.length_append, List.length_singleton] at hlen
  have hparse := l.parseSize_bytes
  rw [SizeLine.bytes] at hparse ⊢
  rw [← List.append_cons]
  show stepSize {} _ = _
  rw [stepSize_line (poised_fresh _) l.lf_notMem_front]
  simp only [hlen, if_true, hparse]

theorem decodeAll_lineBreak (e : LineBreak) (rest data : Bytes) :
    ({ phase := .dataEnd } : ChunkedDecoder).decodeAll (e.bytes ++ rest) data =
      ({} : ChunkedDecoder).decodeAll rest data := by
  apply decodeAll_of_moved
  cases e <;> rfl

theorem decodeAll_chunk (c : Chunk) (rest data : Bytes) :
    ({} : ChunkedDecoder).decodeAll (c.bytes ++ rest) data =
      ({} : ChunkedDecoder).decodeAll rest (data ++ c.data) := by
  have hpos : 0 < c.data.length := List.length_pos_iff.2 c.data_ne_nil
  have hphase : afterSize c.line.size = .data c.data.length hpos := by
    simp [afterSize, c.size_line, hpos]
  have hstep : ({ phase := .data c.data.length hpos } : ChunkedDecoder).step
      (c.data ++ (c.ending.bytes ++ rest)) =
        ({ phase := .dataEnd }, c.ending.bytes ++ rest, .item (.chunk c.data)) := by
    show stepData _ _ _ = _
    simp [stepData, afterData, c.data_ne_nil]
  rw [Chunk.bytes, List.append_assoc, List.append_assoc, decodeAll_sizeLine, hphase,
    decodeAll_of_chunk hstep, decodeAll_lineBreak]

theorem decodeAll_chunks (chunks : List Chunk) (rest data : Bytes) :
    ({} : ChunkedDecoder).decodeAll ((chunks.map Chunk.bytes).flatten ++ rest) data =
      ({} : ChunkedDecoder).decodeAll rest (data ++ (chunks.map Chunk.data).flatten) := by
  induction chunks generalizing data with
  | nil => simp
  | cons c chunks ih =>
    simp only [List.map_cons, List.flatten_cons, List.append_assoc, decodeAll_chunk, ih]

theorem decodeAll_trailerLine (l : TrailerLine) (trailer rest data : Bytes)
    (hfits : trailer.length + l.bytes.length ≤ maxTrailer) :
    ({ phase := .trailer, trailer } : ChunkedDecoder).decodeAll (l.bytes ++ rest) data =
      ({ phase := .trailer, trailer := trailer ++ l.bytes } : ChunkedDecoder).decodeAll rest data := by
  apply decodeAll_of_moved
  simp only [TrailerLine.bytes, List.length_append, List.length_singleton] at hfits ⊢
  have hpoised := poised_trailer (Nat.le_of_add_right_le hfits)
  rw [← List.append_cons]
  show stepTrailer _ _ = _
  rw [stepTrailer_line (hpoised _) l.lf_notMem]
  simp only [l.ne_nil, l.ne_cr, or_self, if_false, hfits, if_true]

theorem decodeAll_trailerLines (lines : List TrailerLine) (trailer rest data : Bytes)
    (hfits : trailer.length + (trailerBytes lines).length ≤ maxTrailer) :
    ({ phase := .trailer, trailer } : ChunkedDecoder).decodeAll (trailerBytes lines ++ rest) data =
      ({ phase := .trailer, trailer := trailer ++ trailerBytes lines } : ChunkedDecoder).decodeAll
        rest data := by
  induction lines generalizing trailer with
  | nil => simp [trailerBytes]
  | cons l lines ih =>
    have hcons : trailerBytes (l :: lines) = l.bytes ++ trailerBytes lines := rfl
    rw [hcons, List.length_append] at hfits
    rw [hcons, List.append_assoc, decodeAll_trailerLine l _ _ _ (by omega),
      ih _ (by simp only [List.length_append]; omega), List.append_assoc]

theorem decodeAll_closing (e : LineBreak) (trailer rest data : Bytes)
    (hfits : trailer.length ≤ maxTrailer) :
    ({ phase := .trailer, trailer } : ChunkedDecoder).decodeAll (e.bytes ++ rest) data =
      ⟨{ phase := .done, trailer }, rest, data, .ended⟩ := by
  have hpoised := poised_trailer hfits
  have hstep : ({ phase := .trailer, trailer } : ChunkedDecoder).step (e.bytes ++ rest) =
      ({ phase := .done, trailer }, rest, .moved) := by
    rw [LineBreak.bytes_eq, ← List.append_cons]
    show stepTrailer _ _ = _
    rw [stepTrailer_line (hpoised _) e.lf_notMem_lead]
    cases e <;> rfl
  rw [decodeAll_of_moved hstep]
  exact decodeAll_of_eof rfl data

/-- A payload is read up to its closing line break. -/
theorem decodeAll_body (t : ChunkedText) (rest data : Bytes) :
    ({} : ChunkedDecoder).decodeAll (t.body ++ rest) data =
      ({ phase := .trailer, trailer := t.trailer } : ChunkedDecoder).decodeAll rest
        (data ++ t.data) := by
  have hfits : ([] : Bytes).length + (trailerBytes t.lines).length ≤ maxTrailer := by
    simpa using t.length_lines_le
  rw [ChunkedText.body, List.append_assoc, List.append_assoc, decodeAll_chunks,
    decodeAll_sizeLine, t.size_last]
  exact decodeAll_trailerLines t.lines [] rest _ hfits

/-- A payload that has arrived is read to its end. -/
theorem decodeAll_bytes (t : ChunkedText) (rest data : Bytes) :
    ({} : ChunkedDecoder).decodeAll (t.bytes ++ rest) data =
      ⟨{ phase := .done, trailer := t.trailer }, rest, data ++ t.data, .ended⟩ := by
  rw [ChunkedText.bytes, List.append_assoc, decodeAll_body]
  exact decodeAll_closing t.ending t.trailer rest _ t.length_lines_le

/-! Taking an accepting run apart. -/

/-- A run that ends has not stopped at a step that waits or fails. -/
theorem step_of_ended {d : ChunkedDecoder} {src data rest : Bytes} {d' : ChunkedDecoder}
    {outcome : Step} (h : (d.decodeAll src data).stop = .ended)
    (hs : d.step src = (d', rest, outcome)) : outcome ≠ .waits ∧ ∀ error, outcome ≠ .bad error := by
  constructor
  · rintro rfl
    rw [decodeAll_of_waits hs] at h
    simp at h
  · rintro error rfl
    rw [decodeAll_of_bad hs] at h
    simp at h

/-- In the trailer, a run that ends has read trailer lines and a closing line break. -/
theorem exists_of_ended_trailer {trailer src data : Bytes} {halt : Halt}
    (hfits : trailer.length ≤ maxTrailer)
    (h : ({ phase := .trailer, trailer } : ChunkedDecoder).decodeAll src data = halt)
    (hended : halt.stop = .ended) :
    ∃ (lines : List TrailerLine) (e : LineBreak),
      src = trailerBytes lines ++ e.bytes ++ halt.rest ∧ halt.data = data ∧
        halt.decoder.trailer = trailer ++ trailerBytes lines ∧
        halt.decoder.trailer.length ≤ maxTrailer := by
  have hpoised := poised_trailer hfits
  obtain hlf | ⟨a, rest, ha, rfl⟩ := line_cases src
  · subst h
    have hstep := stepTrailer_of_pending (hpoised src) hlf
    have hnot := step_of_ended hended hstep
    split_ifs at hnot <;> simp at hnot
  · have hstep := stepTrailer_line (hpoised (a ++ Bytes.lf :: rest)) ha
    by_cases hclose : a = [] ∨ a = [Bytes.cr]
    · obtain ⟨e, rfl⟩ : ∃ e : LineBreak, a = e.lead :=
        hclose.elim (fun h => ⟨.lf, h⟩) fun h => ⟨.crlf, h⟩
      have hread := decodeAll_closing e trailer rest data hfits
      rw [LineBreak.bytes_eq, ← List.append_cons] at hread
      rw [hread] at h
      subst h
      exact ⟨[], e, by simp [trailerBytes, LineBreak.bytes_eq], rfl, by simp [trailerBytes], hfits⟩
    · simp only [hclose, if_false] at hstep
      split_ifs at hstep with hlen
      · have hread := decodeAll_of_moved (d := { phase := .trailer, trailer }) hstep data
        rw [hread] at h
        obtain ⟨lines, e, rfl, hdata, htrailer, hle⟩ :=
          exists_of_ended_trailer (by simpa using hlen) h hended
        have hline : ∃ l : TrailerLine, l.front = a :=
          ⟨⟨a, ha, fun h => hclose (.inl h), fun h => hclose (.inr h)⟩, rfl⟩
        obtain ⟨l, rfl⟩ := hline
        refine ⟨l :: lines, e, ?_, hdata, ?_, hle⟩
        · simp [trailerBytes, TrailerLine.bytes]
        · simp [htrailer, trailerBytes, TrailerLine.bytes]
      · subst h
        exact absurd rfl ((step_of_ended hended hstep).2 _)
termination_by src.length

/-- In a chunk, a run that ends has read the octets still to come and a line break. -/
theorem exists_of_ended_data {n : ℕ} {hn : 0 < n} {src data : Bytes} {halt : Halt}
    (h : ({ phase := .data n hn } : ChunkedDecoder).decodeAll src data = halt)
    (hended : halt.stop = .ended) :
    ∃ (piece rest : Bytes) (e : LineBreak), piece.length = n ∧ src = piece ++ e.bytes ++ rest ∧
      ({} : ChunkedDecoder).decodeAll rest (data ++ piece) = halt := by
  by_cases hlen : n ≤ src.length
  · have hne : src ≠ [] := by
      rintro rfl
      simp at hlen
      omega
    have hstep : ({ phase := .data n hn } : ChunkedDecoder).step src =
        ({ phase := .dataEnd }, src.drop n, .item (.chunk (src.take n))) := by
      show stepData _ _ _ = _
      simp [stepData, hne, afterData, hlen]
    rw [decodeAll_of_chunk hstep] at h
    obtain ⟨hwaits, -⟩ | ⟨e, rest, hrest, -⟩ | ⟨hbad, -⟩ :=
      stepDataEnd_cases { phase := .dataEnd } (src.drop n)
    · change ({ phase := .dataEnd } : ChunkedDecoder).step _ = _ at hwaits
      exact absurd rfl (step_of_ended (by rw [h]; exact hended) hwaits).1
    · rw [hrest, decodeAll_lineBreak] at h
      refine ⟨src.take n, rest, e, by simp [hlen], ?_, h⟩
      rw [List.append_assoc, ← hrest, List.take_append_drop]
    · change ({ phase := .dataEnd } : ChunkedDecoder).step _ = _ at hbad
      exact absurd rfl ((step_of_ended (by rw [h]; exact hended) hbad).2 _)
  · obtain ⟨d', out, hwaits⟩ : ∃ (d' : ChunkedDecoder) (out : Bytes),
        (({ phase := .data n hn } : ChunkedDecoder).decodeAll src data) = ⟨d', out, data ++ src, .waits⟩ := by
      by_cases hsrc : src = []
      · subst hsrc
        exact ⟨_, _, by rw [decodeAll_of_waits rfl, List.append_nil]⟩
      · have hpos : 0 < n - src.length := by omega
        have hstep : ({ phase := .data n hn } : ChunkedDecoder).step src =
            ({ phase := .data (n - src.length) hpos }, [], .item (.chunk src)) := by
          show stepData _ _ _ = _
          have htake : src.take n = src := List.take_of_length_le (by omega)
          have hdrop : src.drop n = [] := List.drop_of_length_le (by omega)
          simp only [stepData, hsrc, if_false, htake, hdrop, afterData, hpos, dite_true]
        rw [decodeAll_of_chunk hstep]
        exact ⟨_, _, decodeAll_of_waits rfl _⟩
    rw [← h, hwaits] at hended
    simp at hended

/-- A run of a fresh decoder that ends has read a payload of the grammar. -/
theorem exists_of_ended {src data : Bytes} {halt : Halt}
    (h : ({} : ChunkedDecoder).decodeAll src data = halt) (hended : halt.stop = .ended) :
    ∃ t : ChunkedText, src = t.bytes ++ halt.rest ∧ halt.data = data ++ t.data ∧
      halt.decoder.trailer = t.trailer := by
  obtain hlf | ⟨a, rest, ha, rfl⟩ := line_cases src
  · subst h
    have hstep := stepSize_of_pending (poised_fresh src) hlf
    have hnot := step_of_ended hended hstep
    split_ifs at hnot <;> simp at hnot
  · have hstep := stepSize_line (poised_fresh (a ++ Bytes.lf :: rest)) ha
    split_ifs at hstep with hlen
    · cases hparse : parseSize (a ++ [Bytes.lf]) with
      | error error =>
        subst h
        rw [hparse] at hstep
        exact absurd rfl ((step_of_ended hended hstep).2 error)
      | ok size =>
        obtain ⟨line, hline, rfl⟩ := SizeLine.exists_of_parseSize ha hlen hparse
        have hread := decodeAll_sizeLine line rest data
        rw [hline, ← List.append_cons] at hread
        rw [hread] at h
        rw [List.append_cons, ← hline]
        by_cases hzero : line.size = 0
        · rw [hzero] at h
          obtain ⟨lines, e, rfl, hdata, htrailer, hfits⟩ :=
            exists_of_ended_trailer (Nat.zero_le _) h hended
          refine ⟨⟨[], line, lines, e, hzero, by simpa [htrailer] using hfits⟩, ?_, ?_, htrailer⟩
          · simp [ChunkedText.bytes, ChunkedText.body, ChunkedText.trailer]
          · simp [ChunkedText.data, hdata]
        · have hpos : 0 < line.size := by omega
          rw [show afterSize line.size = .data line.size hpos by simp [afterSize, hpos]] at h
          obtain ⟨piece, rest, e, hpiece, rfl, hrest⟩ := exists_of_ended_data h hended
          obtain ⟨t, rfl, hdata, htrailer⟩ := exists_of_ended hrest hended
          have hne : piece ≠ [] := List.length_pos_iff.1 (by omega)
          refine ⟨{ t with chunks := ⟨line, piece, e, hpiece.symm, hne⟩ :: t.chunks }, ?_, ?_, htrailer⟩
          · simp [ChunkedText.bytes, ChunkedText.body, ChunkedText.trailer, Chunk.bytes]
          · simp [ChunkedText.data, hdata]
    · subst h
      exact absurd rfl ((step_of_ended hended hstep).2 _)
termination_by src.length

/-- The verdict on a payload that arrives whole: it is complete, with this data, these trailer lines
and this rest, just if it is a payload of the grammar, which carries that data and those trailer
lines, followed by that rest. -/
theorem verdict_eq_complete_iff (b data trailer rest : Bytes) :
    verdict [b] = .complete data trailer rest ↔
      ∃ t : ChunkedText, b = t.bytes ++ rest ∧ data = t.data ∧ trailer = t.trailer := by
  constructor
  · intro h
    simp only [verdict, verdictFrom, List.nil_append, List.flatten_nil, List.append_nil] at h
    split at h
    · rename_i hstop
      obtain ⟨rfl, rfl, rfl⟩ := h
      obtain ⟨t, hb, hdata, htrailer⟩ := exists_of_ended rfl hstop
      exact ⟨t, hb, hdata, htrailer⟩
    · simp at h
    · simp at h
  · rintro ⟨t, rfl, rfl, rfl⟩
    simp [verdict, verdictFrom, decodeAll_bytes]

end CoopHttp.ChunkedDecoder
