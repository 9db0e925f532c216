import CoopHttp.Proofs.Chunked.Acceptance

/-!
# How a chunked payload is cut into segments

The decoder was to come to the same verdict however a payload is cut. It does, with one exception.
While the closing line break is pending, its CR is counted as if it were the beginning of one more
trailer line; so a trailer section of exactly the longest length is refused if a segment ends
between the CR and the LF that close the payload, and accepted otherwise.
-/
namespace CoopHttp.ChunkedDecoder

/-! What a step on a buffer says of the step on a longer one. -/

/-- The remembered position only saves work. -/
theorem step_rewind {d : ChunkedDecoder} {src : Bytes} (h : Poised d src) :
    ({ d with scanned := 0 } : ChunkedDecoder).step src = d.step src := by
  have hline : ({ d with scanned := 0 } : ChunkedDecoder).lineEnd? src = d.lineEnd? src := by
    rw [h.lineEnd?_eq]
    simp [lineEnd?]
  obtain ⟨phase, scanned, trailer⟩ := d
  cases phase with
  | size =>
    show stepSize _ _ = stepSize _ _
    rw [stepSize, stepSize, hline]
    rfl
  | trailer =>
    show stepTrailer _ _ = stepTrailer _ _
    rw [stepTrailer, stepTrailer, hline]
    rfl
  | data n hn => rw [show scanned = 0 from h.scanned_eq_zero (by simp) (by simp)]
  | dataEnd => rw [show scanned = 0 from h.scanned_eq_zero (by simp) (by simp)]
  | done => rw [show scanned = 0 from h.scanned_eq_zero (by simp) (by simp)]

/-- A step that moves on moves on in the same way when there are more octets. -/
theorem step_append_of_moved {d d' : ChunkedDecoder} {src rest : Bytes} (h : Poised d src)
    (hs : d.step src = (d', rest, .moved)) (s : Bytes) :
    d.step (src ++ s) = (d', rest ++ s, .moved) := by
  unfold step at hs ⊢
  split at hs
  · obtain hlf | ⟨a, line, ha, rfl⟩ := line_cases src
    · rw [stepSize_of_pending h hlf] at hs
      split_ifs at hs <;> simp at hs
    · have happend := h.append s
      rw [List.append_assoc, List.cons_append] at happend ⊢
      rw [stepSize_line h ha] at hs
      rw [stepSize_line happend ha]
      split_ifs at hs ⊢
      · cases hsize : parseSize (a ++ [Bytes.lf]) with
        | error error => simp [hsize] at hs
        | ok size =>
          simp only [hsize, Prod.mk.injEq, and_true] at hs ⊢
          exact ⟨hs.1, by rw [hs.2]⟩
      · simp at hs
  · unfold stepData at hs
    split_ifs at hs <;> simp at hs
  · obtain ⟨hstep, -⟩ | ⟨e, line, rfl, hstep, hlonger⟩ | ⟨hstep, -⟩ := stepDataEnd_cases d src
    · simp [hstep] at hs
    · cases hstep.symm.trans hs
      exact hlonger s
    · simp [hstep] at hs
  · obtain hlf | ⟨a, line, ha, rfl⟩ := line_cases src
    · rw [stepTrailer_of_pending h hlf] at hs
      split_ifs at hs <;> simp at hs
    · have happend := h.append s
      rw [List.append_assoc, List.cons_append] at happend ⊢
      rw [stepTrailer_line h ha] at hs
      rw [stepTrailer_line happend ha]
      split_ifs at hs ⊢ <;> simp only [Prod.mk.injEq, and_true] at hs ⊢
      · exact ⟨hs.1, by rw [hs.2]⟩
      · exact ⟨hs.1, by rw [hs.2]⟩
      · simp at hs
  · simp at hs

/-- A step hands out a piece inside a chunk and the end when the payload is done, and nothing
elsewhere. -/
theorem step_item_cases {d d' : ChunkedDecoder} {src rest : Bytes} {item : PayloadItem}
    (hs : d.step src = (d', rest, .item item)) :
    (∃ (n : ℕ) (hn : 0 < n) (piece : Bytes), d.phase = .data n hn ∧ item = .chunk piece) ∨
      d.phase = .done ∧ item = .eof ∧ d' = d ∧ rest = src := by
  unfold step at hs
  split at hs
  · unfold stepSize waitForLine at hs
    repeat' split at hs
    all_goals simp at hs
  · rename_i n hn hphase
    unfold stepData at hs
    split_ifs at hs
    · simp at hs
    · cases hs
      exact .inl ⟨n, hn, _, hphase, rfl⟩
  · obtain ⟨hstep, -⟩ | ⟨e, line, rfl, hstep, -⟩ | ⟨hstep, -⟩ := stepDataEnd_cases d src <;>
      simp [hstep] at hs
  · unfold stepTrailer waitForLine at hs
    repeat' split at hs
    all_goals simp at hs
  · rename_i hphase
    cases hs
    exact .inr ⟨hphase, rfl, rfl, rfl⟩

/-- A piece of a chunk may be handed out at once or in two parts. -/
theorem decodeAll_append_of_chunk {d d' : ChunkedDecoder} {src rest piece : Bytes}
    (hs : d.step src = (d', rest, .item (.chunk piece))) (s data : Bytes) :
    d.decodeAll (src ++ s) data = d'.decodeAll (rest ++ s) (data ++ piece) := by
  obtain ⟨n, hn, -, hphase, -⟩ | ⟨-, heof, -⟩ := step_item_cases hs
  case inr => simp at heof
  obtain ⟨phase, scanned, trailer⟩ := d
  obtain rfl : phase = .data n hn := hphase
  have hdata (m : ℕ) (hm : 0 < m) (t : Bytes) (ht : t ≠ []) :
      (⟨.data m hm, scanned, trailer⟩ : ChunkedDecoder).step t =
        (⟨afterData (m - (t.take m).length), scanned, trailer⟩, t.drop m,
          .item (.chunk (t.take m))) := by
    show stepData _ _ _ = _
    simp only [stepData, ht, if_false]
  have hsrc : src ≠ [] := by
    rintro rfl
    simp [step, stepData] at hs
  rw [hdata n hn src hsrc] at hs
  cases hs
  have hlong := hdata n hn (src ++ s) (by simp [hsrc])
  by_cases hlen : n ≤ src.length
  · rw [List.take_append_of_le_length hlen, List.drop_append_of_le_length hlen] at hlong
    exact decodeAll_of_chunk hlong data
  · have htake : src.take n = src := List.take_of_length_le (by omega)
    have hdrop : src.drop n = [] := List.drop_of_length_le (by omega)
    by_cases hnil : s = []
    · subst hnil
      rw [List.append_nil, List.append_nil]
      exact decodeAll_of_chunk (hdata n hn src hsrc) data
    · have hpos : 0 < n - src.length := by omega
      rw [htake, hdrop, List.nil_append, afterData, dif_pos hpos]
      rw [List.take_append, List.drop_append, htake, hdrop, List.nil_append] at hlong
      rw [decodeAll_of_chunk hlong, decodeAll_of_chunk (hdata _ hpos s hnil), List.append_assoc,
        List.length_append, Nat.sub_add_eq]

/-- A step that waits takes nothing and changes at most the remembered position. -/
theorem step_of_waits {d d' : ChunkedDecoder} {src rest : Bytes} (h : Poised d src)
    (hs : d.step src = (d', rest, .waits)) :
    rest = src ∧ ({ d' with scanned := 0 } : ChunkedDecoder) = { d with scanned := 0 } := by
  unfold step at hs
  split at hs
  · obtain hlf | ⟨a, line, ha, rfl⟩ := line_cases src
    · rw [stepSize_of_pending h hlf] at hs
      simp only [Prod.mk.injEq] at hs
      obtain ⟨rfl, rfl, -⟩ := hs
      exact ⟨rfl, rfl⟩
    · rw [stepSize_line h ha] at hs
      split_ifs at hs
      · split at hs <;> simp at hs
      · simp at hs
  · unfold stepData at hs
    split_ifs at hs
    · cases hs
      exact ⟨rfl, rfl⟩
    · simp at hs
  · obtain ⟨hstep, -⟩ | ⟨e, line, rfl, hstep, -⟩ | ⟨hstep, -⟩ := stepDataEnd_cases d src
    · cases hstep.symm.trans hs
      exact ⟨rfl, rfl⟩
    · simp [hstep] at hs
    · simp [hstep] at hs
  · obtain hlf | ⟨a, line, ha, rfl⟩ := line_cases src
    · rw [stepTrailer_of_pending h hlf] at hs
      simp only [Prod.mk.injEq] at hs
      obtain ⟨rfl, rfl, -⟩ := hs
      exact ⟨rfl, rfl⟩
    · rw [stepTrailer_line h ha] at hs
      split_ifs at hs <;> simp at hs
  · simp at hs

/-- Having waited, the decoder does what it would have done had it not been asked. -/
theorem decodeAll_append_of_waits {d d' : ChunkedDecoder} {src rest : Bytes} (h : Poised d src)
    (hs : d.step src = (d', rest, .waits)) (s data : Bytes) :
    d.decodeAll (src ++ s) data = d'.decodeAll (rest ++ s) data := by
  obtain ⟨rfl, hd⟩ := step_of_waits h hs
  have hstep : d.step (rest ++ s) = d'.step (rest ++ s) := by
    rw [← step_rewind (h.append s), ← step_rewind ((h.step hs).append s), hd]
  apply decodeAll_congr
  rw [decode, decode, hstep]

/-- A size line that is refused would have been refused with more octets behind it, too. -/
theorem stepSize_append_of_bad {d d' : ChunkedDecoder} {src rest : Bytes} {error : ParseError}
    (h : Poised d src) (hs : d.stepSize src = (d', rest, .bad error)) (s : Bytes) :
    ∃ d'' rest' error', d.stepSize (src ++ s) = (d'', rest', .bad error') := by
  have happend := h.append s
  obtain hlf | ⟨a, line, ha, rfl⟩ := line_cases src
  · have hlong : ¬ src.length ≤ maxSizeLine := by
      intro hle
      simp [stepSize_of_pending h hlf, hle] at hs
    obtain hlf' | ⟨a, line, ha, hsrc⟩ := line_cases (src ++ s)
    · have hlong' : ¬ (src ++ s).length ≤ maxSizeLine := by
        rw [List.length_append]
        omega
      rw [stepSize_of_pending happend hlf', if_neg hlong']
      exact ⟨_, _, _, rfl⟩
    · obtain ⟨a', rfl, rfl⟩ := Bytes.exists_of_append_eq_line hlf hsrc
      have hlong' : ¬ (src ++ a').length + 1 ≤ maxSizeLine := by
        rw [List.length_append]
        omega
      rw [hsrc] at happend ⊢
      rw [stepSize_line happend ha, if_neg hlong']
      exact ⟨_, _, _, rfl⟩
  · rw [List.append_assoc, List.cons_append] at happend ⊢
    rw [stepSize_line h ha] at hs
    rw [stepSize_line happend ha]
    split_ifs at hs ⊢
    · cases hsize : parseSize (a ++ [Bytes.lf]) with
      | error error => exact ⟨_, _, _, rfl⟩
      | ok size => simp [hsize] at hs
    · exact ⟨_, _, _, rfl⟩

/-- A trailer line that is refused would have been refused with more octets behind it, too, unless
it is the CR of the closing line break and the trailer section has the longest length. -/
theorem stepTrailer_append_of_bad {d d' : ChunkedDecoder} {src rest : Bytes} {error : ParseError}
    (h : Poised d src) (hs : d.stepTrailer src = (d', rest, .bad error)) (s : Bytes) :
    (∃ d'' rest' error', d.stepTrailer (src ++ s) = (d'', rest', .bad error')) ∨
      ∃ d'' rest', d.stepTrailer (src ++ s) = (d'', rest', .moved) ∧ d''.phase = .done ∧
        s = Bytes.lf :: rest' := by
  have happend := h.append s
  obtain hlf | ⟨a, line, ha, rfl⟩ := line_cases src
  · have hlong : ¬ d.trailer.length + src.length ≤ maxTrailer := by
      intro hle
      simp [stepTrailer_of_pending h hlf, hle] at hs
    obtain hlf' | ⟨a, line, ha, hsrc⟩ := line_cases (src ++ s)
    · have hlong' : ¬ d.trailer.length + (src ++ s).length ≤ maxTrailer := by
        rw [List.length_append]
        omega
      rw [stepTrailer_of_pending happend hlf', if_neg hlong']
      exact .inl ⟨_, _, _, rfl⟩
    · obtain ⟨a', rfl, rfl⟩ := Bytes.exists_of_append_eq_line hlf hsrc
      have hlong' : ¬ d.trailer.length + ((src ++ a').length + 1) ≤ maxTrailer := by
        rw [List.length_append]
        omega
      have hheld := h.length_trailer_le
      rw [hsrc] at happend ⊢
      by_cases hclose : src ++ a' = [] ∨ src ++ a' = [Bytes.cr]
      · -- The trailer section fits, so what did not fit is the CR.
        have hne : src ≠ [] := by
          rintro rfl
          simp only [List.length_nil] at hlong
          omega
        obtain ⟨rfl, rfl⟩ : src = [Bytes.cr] ∧ a' = [] := by
          simpa [List.append_eq_singleton_iff, hne] using hclose
        rw [stepTrailer_line happend ha, if_pos hclose]
        exact .inr ⟨_, _, rfl, rfl, rfl⟩
      · rw [stepTrailer_line happend ha, if_neg hclose, if_neg hlong']
        exact .inl ⟨_, _, _, rfl⟩
  · rw [List.append_assoc, List.cons_append] at happend ⊢
    rw [stepTrailer_line h ha] at hs
    rw [stepTrailer_line happend ha]
    split_ifs at hs ⊢
    · simp at hs
    · simp at hs
    · exact .inl ⟨_, _, _, rfl⟩

/-- A step that fails would have failed with more octets, too, unless it failed at the CR of the
closing line break behind a trailer section of the longest length. -/
theorem step_append_of_bad {d d' : ChunkedDecoder} {src rest : Bytes} {error : ParseError}
    (h : Poised d src) (hs : d.step src = (d', rest, .bad error)) (s : Bytes) :
    (∃ d'' rest' error', d.step (src ++ s) = (d'', rest', .bad error')) ∨
      ∃ d'' rest', d.step (src ++ s) = (d'', rest', .moved) ∧ d''.phase = .done ∧
        s = Bytes.lf :: rest' := by
  unfold step at hs ⊢
  split at hs
  · exact .inl (stepSize_append_of_bad h hs s)
  · unfold stepData at hs
    split_ifs at hs <;> simp at hs
  · obtain ⟨hstep, -⟩ | ⟨e, line, rfl, hstep, -⟩ | ⟨-, hlonger⟩ := stepDataEnd_cases d src
    · simp [hstep] at hs
    · simp [hstep] at hs
    · exact .inl ⟨_, _, _, hlonger s⟩
  · exact stepTrailer_append_of_bad h hs s
  · simp at hs

theorem step_append_of_eof {d d' : ChunkedDecoder} {src rest : Bytes}
    (hs : d.step src = (d', rest, .item .eof)) (s : Bytes) :
    d.step (src ++ s) = (d', rest ++ s, .item .eof) := by
  obtain ⟨n, hn, piece, -, hchunk⟩ | ⟨hphase, -, rfl, rfl⟩ := step_item_cases hs
  · simp at hchunk
  · simp only [step, hphase]

/-! What a run on a buffer says of the run on a longer one. -/

/-- How the run on a longer buffer compares with the run on its beginning, `s` being what follows
the beginning. -/
inductive Resumes (s : Bytes) : Halt → Halt → Prop
  /-- The end has been seen; what follows is not read. -/
  | ended (d : ChunkedDecoder) (rest data : Bytes) :
    Resumes s ⟨d, rest, data, .ended⟩ ⟨d, rest ++ s, data, .ended⟩
  /-- The longer run goes on from where the other waits. -/
  | waits {d : ChunkedDecoder} {rest : Bytes} (data : Bytes) (h : Poised d rest) :
    Resumes s ⟨d, rest, data, .waits⟩ (d.decodeAll (rest ++ s) data)
  | failed {halt longer : Halt} {error error' : ParseError} (h : halt.stop = .failed error)
    (h' : longer.stop = .failed error') : Resumes s halt longer
  /-- The beginning is refused, although a line feed closes the payload. -/
  | closed {halt longer : Halt} {error : ParseError} (h : halt.stop = .failed error)
    (h' : longer.stop = .ended) (hs : s = Bytes.lf :: longer.rest) : Resumes s halt longer

theorem decodeAll_append {d : ChunkedDecoder} {src : Bytes} (h : Poised d src) (s data : Bytes) :
    Resumes s (d.decodeAll src data) (d.decodeAll (src ++ s) data) := by
  rcases hstep : d.step src with ⟨d', rest, outcome⟩
  have hrest := step_rest_lt d src
  have hpoised := h.step hstep
  rw [hstep] at hrest
  cases outcome with
  | moved =>
    have hlt : rest.length < src.length := hrest rfl
    rw [decodeAll_of_moved hstep, decodeAll_of_moved (step_append_of_moved h hstep s)]
    exact decodeAll_append hpoised s data
  | item item =>
    cases item with
    | chunk piece =>
      have hlt : rest.length < src.length := hrest rfl
      rw [decodeAll_of_chunk hstep, decodeAll_append_of_chunk hstep]
      exact decodeAll_append hpoised s _
    | eof =>
      rw [decodeAll_of_eof hstep, decodeAll_of_eof (step_append_of_eof hstep s)]
      exact .ended d' rest data
  | waits =>
    rw [decodeAll_of_waits hstep, decodeAll_append_of_waits h hstep]
    exact .waits data hpoised
  | bad error =>
    rw [decodeAll_of_bad hstep]
    obtain ⟨d'', rest', error', hbad⟩ | ⟨d'', rest', hclosed, hdone, hs⟩ :=
      step_append_of_bad h hstep s
    · rw [decodeAll_of_bad hbad]
      exact .failed rfl rfl
    · have heof : d''.step rest' = (d'', rest', .item .eof) := by
        simp only [step, hdone]
      rw [decodeAll_of_moved hclosed, decodeAll_of_eof heof]
      exact .closed rfl rfl hs
termination_by src.length

/-- What comes after a run that waits is decoded as if nothing had been decoded before. -/
theorem decodeAll_append_of_stop {d : ChunkedDecoder} {src data : Bytes} (h : Poised d src)
    {halt : Halt} (hhalt : d.decodeAll src data = halt) (hstop : halt.stop = .waits) (s : Bytes) :
    Poised halt.decoder halt.rest ∧
      d.decodeAll (src ++ s) data = halt.decoder.decodeAll (halt.rest ++ s) halt.data := by
  have hresumes := decodeAll_append h s data
  rw [hhalt] at hresumes
  generalize d.decodeAll (src ++ s) data = longer at hresumes
  cases hresumes with
  | ended => simp at hstop
  | waits _ hpoised => exact ⟨hpoised, rfl⟩
  | failed hfailed => simp [hstop] at hfailed
  | closed hfailed => simp [hstop] at hfailed

/-! Segments. -/

/-- What can be told of a run on everything there is. -/
def Halt.verdict (halt : Halt) : Verdict :=
  match halt.stop with
  | .ended => .complete halt.data halt.decoder.trailer halt.rest
  | .waits => .waiting halt.data
  | .failed _ => .refused

theorem verdictFrom_singleton (d : ChunkedDecoder) (pending data s : Bytes) :
    verdictFrom d pending data [s] = (d.decodeAll (pending ++ s) data).verdict := by
  rw [verdictFrom, Halt.verdict]
  cases (d.decodeAll (pending ++ s) data).stop with
  | ended => simp
  | waits => rfl
  | failed => rfl

/-- The run on the first few segments fails, and then comes the line feed that would have closed the
payload. -/
def FailsEarly (d : ChunkedDecoder) (pending data : Bytes) (segments : List Bytes) : Prop :=
  ∃ front back error, segments = front ++ back ∧
    (d.decodeAll (pending ++ front.flatten) data).stop = .failed error ∧
    (d.decodeAll (pending ++ segments.flatten) data).stop = .ended ∧
    back.flatten = Bytes.lf :: (d.decodeAll (pending ++ segments.flatten) data).rest

/-- From any point at which the decoder waits, the segments to come may be joined, or the decoder
fails early. -/
theorem verdictFrom_flatten (segments : List Bytes) {d : ChunkedDecoder} {pending data : Bytes}
    (h : Poised d pending) (hwaits : d.decodeAll pending data = ⟨d, pending, data, .waits⟩) :
    verdictFrom d pending data segments = verdictFrom d pending data [segments.flatten] ∨
      verdictFrom d pending data segments = .refused ∧ FailsEarly d pending data segments := by
  induction segments generalizing d pending data with
  | nil =>
    left
    simp [verdictFrom, hwaits]
  | cons segment segments ih =>
    have hsrc := h.append segment
    have hresumes := decodeAll_append hsrc segments.flatten data
    have hwhole (later : List Bytes) :
        pending ++ (segment :: later).flatten = pending ++ segment ++ later.flatten := by
      simp
    rcases hhalt : d.decodeAll (pending ++ segment) data with ⟨d', rest, data', stop⟩
    rw [hhalt] at hresumes
    rw [verdictFrom_singleton, hwhole]
    cases stop with
    | ended =>
      left
      have hlonger : d.decodeAll (pending ++ segment ++ segments.flatten) data =
          ⟨d', rest ++ segments.flatten, data', .ended⟩ := by
        generalize d.decodeAll (pending ++ segment ++ segments.flatten) data = longer at hresumes
        cases hresumes with
        | ended => rfl
        | failed hfailed => simp at hfailed
        | closed hfailed => simp at hfailed
      simp only [verdictFrom, hhalt, hlonger, Halt.verdict]
    | waits =>
      have hlater := decodeAll_append_of_stop hsrc hhalt rfl
      have hverdict : verdictFrom d pending data (segment :: segments) =
          verdictFrom d' rest data' segments := by
        simp only [verdictFrom, hhalt]
      have hwaits' : d'.decodeAll rest data' = ⟨d', rest, data', .waits⟩ := by
        have hnil := (hlater []).2
        simp only [List.append_nil] at hnil
        rw [← hnil, hhalt]
      obtain heq | ⟨hrefused, front, back, error, rfl, hfailed, hended, hback⟩ :=
        ih (hlater []).1 hwaits'
      · left
        rw [hverdict, heq, verdictFrom_singleton, (hlater _).2]
      · refine .inr ⟨hverdict.trans hrefused, segment :: front, back, error, rfl, ?_, ?_, ?_⟩
        · rw [hwhole, (hlater _).2]
          exact hfailed
        · rw [hwhole, (hlater _).2]
          exact hended
        · rw [hwhole, (hlater _).2]
          exact hback
    | failed error =>
      have hverdict : verdictFrom d pending data (segment :: segments) = .refused := by
        simp only [verdictFrom, hhalt]
      cases hresumes with
      | failed hfailed hlonger =>
        left
        rw [hverdict, Halt.verdict, hlonger]
      | closed hfailed hended hs =>
        refine .inr ⟨hverdict, [segment], segments, error, rfl, ?_, ?_, ?_⟩
        · simp [hhalt]
        · rw [hwhole]
          exact hended
        · rw [hwhole]
          exact hs

/-- The segments cut the closing line break of a payload whose trailer section has the longest
length: one of them ends with its CR, or is empty and stands behind it. -/
def CutsFullTrailer (segments : List Bytes) : Prop :=
  ∃ (front back : List Bytes) (t : ChunkedText) (rest : Bytes), segments = front ++ back ∧
    front.flatten = t.body ++ [Bytes.cr] ∧ back.flatten = Bytes.lf :: rest ∧
    t.trailer.length = maxTrailer

theorem step_closing_cr (trailer : Bytes) (hfits : trailer.length ≤ maxTrailer) :
    ({ phase := .trailer, trailer } : ChunkedDecoder).step [Bytes.cr] =
      ({ phase := .trailer, scanned := 1, trailer }, [Bytes.cr],
        if trailer.length < maxTrailer then .waits
        else .bad (.tooLargeHeader (trailer.length + 1) maxTrailer)) := by
  exact stepTrailer_of_pending (poised_trailer hfits [Bytes.cr]) (by decide)

/-- A decoder that fails early fails at the CR behind the longest trailer section. -/
theorem cutsFullTrailer_of_failsEarly {segments : List Bytes} (h : FailsEarly {} [] [] segments) :
    CutsFullTrailer segments := by
  obtain ⟨front, back, error, rfl, hfailed, hended, hback⟩ := h
  simp only [List.nil_append, List.flatten_append] at hfailed hended hback
  obtain ⟨t, ht, -, -⟩ := exists_of_ended rfl hended
  generalize (decodeAll {} (front.flatten ++ back.flatten) []).rest = rest at ht hback
  have hfront : front.flatten = t.body ++ t.ending.lead := by
    rw [hback, List.append_cons, List.append_left_inj, ChunkedText.bytes, LineBreak.bytes_eq,
      ← List.append_assoc, List.append_left_inj] at ht
    exact ht
  have hfits : t.trailer.length ≤ maxTrailer := t.length_lines_le
  rw [hfront, decodeAll_body] at hfailed
  cases hending : t.ending with
  | lf =>
    have hstep : ({ phase := .trailer, trailer := t.trailer } : ChunkedDecoder).step [] =
        ({ phase := .trailer, trailer := t.trailer }, [], .waits) := by
      refine (stepTrailer_of_pending (poised_trailer hfits []) (by simp)).trans ?_
      simp [hfits]
    rw [hending] at hfailed
    simp [LineBreak.lead, decodeAll_of_waits hstep] at hfailed
  | crlf =>
    rw [hending] at hfailed hfront
    by_cases hroom : t.trailer.length < maxTrailer
    · have hstep := step_closing_cr t.trailer hfits
      rw [if_pos hroom] at hstep
      simp [LineBreak.lead, decodeAll_of_waits hstep] at hfailed
    · exact ⟨front, back, t, rest, rfl, hfront, hback, by omega⟩

/-- A run that is refused stays refused. -/
theorem verdictFrom_append_of_refused (front back : List Bytes) {d : ChunkedDecoder}
    {pending data : Bytes} (h : verdictFrom d pending data front = .refused) :
    verdictFrom d pending data (front ++ back) = .refused := by
  induction front generalizing d pending data with
  | nil => simp [verdictFrom] at h
  | cons segment segments ih =>
    rw [List.cons_append, verdictFrom]
    rw [verdictFrom] at h
    split at h
    · simp at h
    · exact ih h
    · rfl

theorem verdict_flatten (segments : List Bytes) :
    verdict segments = verdict [segments.flatten] ∨
      verdict segments = .refused ∧ CutsFullTrailer segments := by
  have hwaits : ({} : ChunkedDecoder).decodeAll [] [] = ⟨{}, [], [], .waits⟩ :=
    decodeAll_of_waits rfl []
  obtain heq | ⟨hrefused, hearly⟩ := verdictFrom_flatten segments (poised_fresh []) hwaits
  · exact .inl heq
  · exact .inr ⟨hrefused, cutsFullTrailer_of_failsEarly hearly⟩

/-- The longest trailer section, cut in its closing line break, is refused, and joined it is
accepted. -/
theorem verdict_of_cutsFullTrailer {segments : List Bytes} (h : CutsFullTrailer segments) :
    verdict segments = .refused ∧ verdict [segments.flatten] ≠ .refused := by
  obtain ⟨front, back, t, rest, rfl, hfront, hback, hfull⟩ := h
  constructor
  · have hjoined : verdict [front.flatten] = .refused := by
      have hstep := step_closing_cr t.trailer hfull.le
      rw [if_neg (by omega)] at hstep
      rw [verdict, verdictFrom_singleton, List.nil_append, hfront, decodeAll_body,
        decodeAll_of_bad hstep, Halt.verdict]
    apply verdictFrom_append_of_refused
    obtain heq | ⟨hrefused, -⟩ := verdict_flatten front
    · exact heq.trans hjoined
    · exact hrefused
  · have hclosed : t.body ++ [Bytes.cr] ++ Bytes.lf :: rest =
        t.body ++ (LineBreak.crlf.bytes ++ rest) := by
      simp [LineBreak.bytes, Bytes.crlf]
    rw [verdict, verdictFrom_singleton, List.nil_append, List.flatten_append, hfront, hback, hclosed,
      decodeAll_body, decodeAll_closing _ _ _ _ hfull.le, Halt.verdict]
    simp

theorem verdict_ne_verdict_flatten_iff (segments : List Bytes) :
    verdict segments ≠ verdict [segments.flatten] ↔ CutsFullTrailer segments := by
  constructor
  · intro hne
    obtain heq | ⟨-, hcuts⟩ := verdict_flatten segments
    · exact absurd heq hne
    · exact hcuts
  · intro hcuts
    obtain ⟨hrefused, hjoined⟩ := verdict_of_cutsFullTrailer hcuts
    rw [hrefused]
    exact hjoined.symm

/-- Only a payload longer than the longest trailer section is cut there. -/
theorem length_of_cutsFullTrailer {segments : List Bytes} (h : CutsFullTrailer segments) :
    maxTrailer < segments.flatten.length := by
  obtain ⟨front, back, t, rest, rfl, hfront, -, hfull⟩ := h
  have hbody : t.trailer.length ≤ t.body.length := by
    rw [ChunkedText.body, List.length_append]
    omega
  rw [List.flatten_append, hfront]
  simp only [List.length_append, List.length_singleton]
  omega

/-- Two ways of cutting one payload come to the same verdict exactly if both or neither of them cut
the closing line break behind a trailer section of the longest length. -/
theorem verdict_eq_verdict_iff {segments segments' : List Bytes}
    (h : segments.flatten = segments'.flatten) :
    verdict segments = verdict segments' ↔
      (CutsFullTrailer segments ↔ CutsFullTrailer segments') := by
  constructor
  · intro heq
    rw [← verdict_ne_verdict_flatten_iff, ← verdict_ne_verdict_flatten_iff, heq, h]
  · intro hiff
    by_cases hcuts : CutsFullTrailer segments
    · rw [(verdict_of_cutsFullTrailer hcuts).1, (verdict_of_cutsFullTrailer (hiff.1 hcuts)).1]
    · have heq := not_ne_iff.1 ((verdict_ne_verdict_flatten_iff segments).not.2 hcuts)
      have heq' := not_ne_iff.1 ((verdict_ne_verdict_flatten_iff segments').not.2 (hiff.not.1 hcuts))
      rw [heq, heq', h]

theorem verdict_small_cuts :
    [ascii "0\r", ascii "\n\r", ascii "\n"].flatten = [ascii "0\r\n\r\n"].flatten ∧
      verdict [ascii "0\r", ascii "\n\r", ascii "\n"] = verdict [ascii "0\r\n\r\n"] := by
  have hjoined : [ascii "0\r", ascii "\n\r", ascii "\n"].flatten = [ascii "0\r\n\r\n"].flatten := by
    decide
  have hsmall : [ascii "0\r\n\r\n"].flatten.length ≤ maxTrailer := by
    decide
  refine ⟨hjoined, (verdict_eq_verdict_iff hjoined).2 (iff_of_false ?_ ?_)⟩
  · intro hcuts
    have hlong := length_of_cutsFullTrailer hcuts
    rw [hjoined] at hlong
    omega
  · intro hcuts
    have hlong := length_of_cutsFullTrailer hcuts
    omega

/-- A payload is read to its end however it is cut, if its trailer section and the CR behind it do
not exceed the limit together. -/
theorem verdict_of_flatten_eq {segments : List Bytes} {t : ChunkedText} {rest : Bytes}
    (h : segments.flatten = t.bytes ++ rest)
    (hroom : t.trailer.length + t.ending.lead.length ≤ maxTrailer) :
    verdict segments = .complete t.data t.trailer rest := by
  obtain heq | ⟨-, front, back, t', rest', rfl, hfront, hback, hfull⟩ := verdict_flatten segments
  · rw [heq, h, verdict, verdictFrom_singleton, List.nil_append, decodeAll_bytes]
    rfl
  · have hread := decodeAll_bytes t rest []
    have hread' := decodeAll_bytes { t' with ending := .crlf } rest' []
    have hbytes' : ({ t' with ending := .crlf } : ChunkedText).bytes =
        t'.body ++ ([Bytes.cr] ++ [Bytes.lf]) := rfl
    have hsame : ({ t' with ending := .crlf } : ChunkedText).bytes ++ rest' = t.bytes ++ rest := by
      rw [← h, List.flatten_append, hfront, hback, hbytes']
      simp
    rw [hsame, hread, Halt.mk.injEq] at hread'
    obtain ⟨hdecoder, rfl, -, -⟩ := hread'
    have htrailer : t.trailer = t'.trailer := congrArg ChunkedDecoder.trailer hdecoder
    have hlead : t.ending.lead = [] := by
      rw [htrailer, hfull] at hroom
      exact List.eq_nil_of_length_eq_zero (by omega)
    -- What closes the payload is LF alone, behind a line, and not CR LF.
    obtain ⟨s, hs⟩ := t.exists_body_eq
    have hbytes : t'.body ++ [Bytes.cr] ++ [Bytes.lf] = s ++ [Bytes.lf] ++ [Bytes.lf] := by
      have hcancel := List.append_cancel_right hsame
      rw [t.bytes_eq, hlead, hs, hbytes'] at hcancel
      simpa using hcancel
    have hlast := (List.append_inj' (List.append_cancel_right hbytes) rfl).2
    exact absurd hlast (by decide)

/-- A trailer line of `n + 2` octets. -/
def longLine (n : ℕ) : TrailerLine where
  front := List.replicate (n + 1) 120
  lf_notMem := fun h => absurd (List.eq_of_mem_replicate h) (by decide)
  ne_nil := by simp
  ne_cr := fun h => absurd (List.cons.inj h).1 (by decide)

theorem length_longLine (n : ℕ) : (longLine n).bytes.length = n + 2 := by
  simp [TrailerLine.bytes, longLine]

def zeroLine : SizeLine where
  digits := ascii "0"
  blanks := []
  extension := none
  ending := .lf
  size := 0
  digits_ne_nil := by decide
  value_digits := by decide
  size_lt := by decide
  isSpace_blanks := by simp
  lf_notMem_blanks := by decide
  lf_notMem_extension := by decide
  length_le := by decide

theorem size_zeroLine : zeroLine.size = 0 := rfl

/-- A payload of no chunks whose trailer section is one line of the longest length. -/
def longestTrailer : ChunkedText where
  chunks := []
  last := zeroLine
  lines := [longLine 8190]
  ending := .crlf
  size_last := size_zeroLine
  length_lines_le := by simp [trailerBytes, length_longLine, maxTrailer]

/-- Cut between the CR and the LF at its end, the payload is refused; in one piece it is accepted. -/
theorem verdict_longestTrailer :
    verdict [longestTrailer.body ++ [Bytes.cr], [Bytes.lf]] = .refused ∧
      verdict [longestTrailer.bytes] = .complete [] longestTrailer.trailer [] := by
  constructor
  · have hcuts : CutsFullTrailer [longestTrailer.body ++ [Bytes.cr], [Bytes.lf]] := by
      refine ⟨[longestTrailer.body ++ [Bytes.cr]], [[Bytes.lf]], longestTrailer, [], rfl, ?_, rfl, ?_⟩
      · rw [List.flatten_singleton]
      · simp [longestTrailer, ChunkedText.trailer, trailerBytes, length_longLine, maxTrailer]
    exact (verdict_of_cutsFullTrailer hcuts).1
  · have hread := decodeAll_bytes longestTrailer [] []
    rw [List.append_nil] at hread
    rw [verdict, verdictFrom_singleton, List.nil_append, hread]
    rfl

end CoopHttp.ChunkedDecoder
