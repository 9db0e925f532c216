import CoopHttp.Proofs.Line
import CoopHttp.Payload.Chunked
import Mathlib.Tactic.Common

/-!
# Decoding a chunked payload that arrives in segments

A decoder is called again and again until it waits, ends or fails, then the next segment is put
behind what it left. The verdict is what can be told of such a run from outside. The decoder keeps
one thing beside its place in the payload, how much of a pending line it has searched; what it keeps
is right as long as the buffer is only added to, and then a search from the beginning would find the
same lines.
-/
namespace CoopHttp.ChunkedDecoder

inductive Stop
  | ended
  | waits
  | failed (error : ParseError)
  deriving DecidableEq

/-- Where repeated decoding stops: the decoder, what it left of the buffer, and the data it has
handed out. -/
structure Halt where
  decoder : ChunkedDecoder
  rest : Bytes
  data : Bytes
  stop : Stop

/-- Decodes until the decoder waits, ends or fails; `data` has been handed out before. -/
def decodeAll (d : ChunkedDecoder) (src data : Bytes) : Halt :=
  match _h : d.decode src with
  | (d', rest, .ok (some (.chunk piece))) => decodeAll d' rest (data ++ piece)
  | (d', rest, .ok (some .eof)) => ⟨d', rest, data, .ended⟩
  | (d', rest, .ok none) => ⟨d', rest, data, .waits⟩
  | (d', rest, .error error) => ⟨d', rest, data, .failed error⟩
termination_by src.length
decreasing_by exact decode_rest_lt _h

/-- What can be told of a run: the payload ended, with its data, its trailer lines and what was not
read; more is awaited, with the data so far; or the payload was refused. -/
inductive Verdict
  | complete (data trailer rest : Bytes)
  | waiting (data : Bytes)
  | refused
  deriving DecidableEq

/-- Goes on with the segments still to come, behind the octets that are pending. -/
def verdictFrom (d : ChunkedDecoder) (pending data : Bytes) : List Bytes → Verdict
  | [] => .waiting data
  | segment :: segments =>
    let halt := d.decodeAll (pending ++ segment) data
    match halt.stop with
    | .ended => .complete halt.data halt.decoder.trailer (halt.rest ++ segments.flatten)
    | .waits => verdictFrom halt.decoder halt.rest halt.data segments
    | .failed _ => .refused

/-- The verdict of a fresh decoder on a payload that arrives in segments. -/
def verdict (segments : List Bytes) : Verdict := verdictFrom {} [] [] segments

/-! The steps of a decoder, seen through repeated decoding. -/

theorem decodeAll_congr {d d' : ChunkedDecoder} {src src' : Bytes} (h : d.decode src = d'.decode src')
    (data : Bytes) : d.decodeAll src data = d'.decodeAll src' data := by
  rw [decodeAll, decodeAll, h]

theorem decodeAll_of_moved {d d' : ChunkedDecoder} {src rest : Bytes}
    (h : d.step src = (d', rest, .moved)) (data : Bytes) :
    d.decodeAll src data = d'.decodeAll rest data := by
  apply decodeAll_congr
  rw [decode, h]

theorem decodeAll_of_chunk {d d' : ChunkedDecoder} {src rest piece : Bytes}
    (h : d.step src = (d', rest, .item (.chunk piece))) (data : Bytes) :
    d.decodeAll src data = d'.decodeAll rest (data ++ piece) := by
  have hdecode : d.decode src = (d', rest, .ok (some (.chunk piece))) := by rw [decode, h]
  rw [decodeAll, hdecode]

theorem decodeAll_of_eof {d d' : ChunkedDecoder} {src rest : Bytes}
    (h : d.step src = (d', rest, .item .eof)) (data : Bytes) :
    d.decodeAll src data = ⟨d', rest, data, .ended⟩ := by
  have hdecode : d.decode src = (d', rest, .ok (some .eof)) := by rw [decode, h]
  rw [decodeAll, hdecode]

theorem decodeAll_of_waits {d d' : ChunkedDecoder} {src rest : Bytes}
    (h : d.step src = (d', rest, .waits)) (data : Bytes) :
    d.decodeAll src data = ⟨d', rest, data, .waits⟩ := by
  have hdecode : d.decode src = (d', rest, .ok none) := by rw [decode, h]
  rw [decodeAll, hdecode]

theorem decodeAll_of_bad {d d' : ChunkedDecoder} {src rest : Bytes} {error : ParseError}
    (h : d.step src = (d', rest, .bad error)) (data : Bytes) :
    d.decodeAll src data = ⟨d', rest, data, .failed error⟩ := by
  have hdecode : d.decode src = (d', rest, .error error) := by rw [decode, h]
  rw [decodeAll, hdecode]

/-- Data once handed out stays in front of what is handed out later. -/
theorem data_prefix_decodeAll (d : ChunkedDecoder) (src data : Bytes) :
    data <+: (d.decodeAll src data).data := by
  fun_induction decodeAll d src data with
  | case1 d src data d' rest piece h ih => exact (List.prefix_append data piece).trans ih
  | case2 | case3 | case4 => exact List.prefix_rfl

theorem data_prefix_of_complete (segments : List Bytes) {d : ChunkedDecoder}
    {pending data data' trailer rest : Bytes}
    (h : verdictFrom d pending data segments = .complete data' trailer rest) : data <+: data' := by
  induction segments generalizing d pending data with
  | nil => simp [verdictFrom] at h
  | cons segment segments ih =>
    have hgrown := data_prefix_decodeAll d (pending ++ segment) data
    rw [verdictFrom] at h
    split at h
    · cases h
      exact hgrown
    · exact hgrown.trans (ih h)
    · simp at h

/-! What the decoder remembers of a pending line. -/

/-- The remembered position hides no line feed of the buffer, and outside of lines there is none. -/
structure Poised (d : ChunkedDecoder) (src : Bytes) : Prop where
  scanned_le : d.scanned ≤ src.length
  lf_notMem : Bytes.lf ∉ src.take d.scanned
  scanned_eq_zero : d.phase ≠ .size → d.phase ≠ .trailer → d.scanned = 0
  length_trailer_le : d.trailer.length ≤ maxTrailer

theorem poised_fresh (src : Bytes) : Poised {} src where
  scanned_le := Nat.zero_le _
  lf_notMem := by simp
  scanned_eq_zero := fun _ _ => rfl
  length_trailer_le := Nat.zero_le _

/-- At the beginning of a line, nothing has been searched. -/
theorem Poised.rewind {d : ChunkedDecoder} {src : Bytes} (h : Poised d src) (phase : ChunkPhase)
    (rest : Bytes) : Poised { d with scanned := 0, phase } rest where
  scanned_le := Nat.zero_le _
  lf_notMem := by simp
  scanned_eq_zero := fun _ _ => rfl
  length_trailer_le := h.length_trailer_le

theorem poised_trailer {trailer : Bytes} (hfits : trailer.length ≤ maxTrailer) (src : Bytes) :
    Poised { phase := .trailer, trailer } src where
  scanned_le := Nat.zero_le _
  lf_notMem := by simp
  scanned_eq_zero := fun _ _ => rfl
  length_trailer_le := hfits

/-- More octets behind the buffer do not matter to what has been searched. -/
theorem Poised.append {d : ChunkedDecoder} {src : Bytes} (h : Poised d src) (s : Bytes) :
    Poised d (src ++ s) where
  scanned_le := by
    have := h.scanned_le
    simp only [List.length_append]
    omega
  lf_notMem := by
    rw [List.take_append_of_le_length h.scanned_le]
    exact h.lf_notMem
  scanned_eq_zero := h.scanned_eq_zero
  length_trailer_le := h.length_trailer_le

theorem Poised.lineEnd?_eq {d : ChunkedDecoder} {src : Bytes} (h : Poised d src) :
    d.lineEnd? src = Bytes.lineLength? src :=
  Bytes.lineLength?_drop h.scanned_le h.lf_notMem

/-- The step on a pending line, for size lines and trailer lines alike. -/
theorem Poised.waitForLine {d : ChunkedDecoder} {src : Bytes} (h : Poised d src)
    (hphase : d.phase = .size ∨ d.phase = .trailer) (hlf : Bytes.lf ∉ src) :
    Poised { d with scanned := src.length } src where
  scanned_le := le_rfl
  lf_notMem := by simpa using hlf
  scanned_eq_zero := fun hsize htrailer => absurd hphase (by simp [hsize, htrailer])
  length_trailer_le := h.length_trailer_le

theorem stepSize_of_pending {d : ChunkedDecoder} {src : Bytes} (h : Poised d src)
    (hlf : Bytes.lf ∉ src) :
    d.stepSize src = ({ d with scanned := src.length }, src,
      if src.length ≤ maxSizeLine then .waits else .bad (.invalidBody .sizeLineTooLong)) := by
  rw [stepSize, h.lineEnd?_eq, (Bytes.lineLength?_eq_none_iff src).2 hlf]
  simp [ChunkedDecoder.waitForLine]

theorem stepSize_line {d : ChunkedDecoder} {a rest : Bytes} (h : Poised d (a ++ Bytes.lf :: rest))
    (ha : Bytes.lf ∉ a) :
    d.stepSize (a ++ Bytes.lf :: rest) =
      if a.length + 1 ≤ maxSizeLine then
        match parseSize (a ++ [Bytes.lf]) with
        | .error error => ({ d with scanned := 0 }, rest, .bad error)
        | .ok size => ({ d with scanned := 0, phase := afterSize size }, rest, .moved)
      else ({ d with scanned := 0 }, rest, .bad (.invalidBody .sizeLineTooLong)) := by
  rw [stepSize, h.lineEnd?_eq, Bytes.lineLength?_append_lf ha]
  cases hsize : parseSize (a ++ [Bytes.lf]) with
  | error error => simp [Bytes.take_line, hsize]
  | ok size => simp [Bytes.take_line, hsize]

theorem stepTrailer_of_pending {d : ChunkedDecoder} {src : Bytes} (h : Poised d src)
    (hlf : Bytes.lf ∉ src) :
    d.stepTrailer src = ({ d with scanned := src.length }, src,
      if d.trailer.length + src.length ≤ maxTrailer then .waits
      else .bad (.tooLargeHeader (d.trailer.length + src.length) maxTrailer)) := by
  rw [stepTrailer, h.lineEnd?_eq, (Bytes.lineLength?_eq_none_iff src).2 hlf]
  rfl

theorem stepTrailer_line {d : ChunkedDecoder} {a rest : Bytes} (h : Poised d (a ++ Bytes.lf :: rest))
    (ha : Bytes.lf ∉ a) :
    d.stepTrailer (a ++ Bytes.lf :: rest) =
      if a = [] ∨ a = [Bytes.cr] then ({ d with scanned := 0, phase := .done }, rest, .moved)
      else if d.trailer.length + (a.length + 1) ≤ maxTrailer then
        ({ d with scanned := 0, trailer := d.trailer ++ (a ++ [Bytes.lf]) }, rest, .moved)
      else
        ({ d with scanned := 0 }, rest,
          .bad (.tooLargeHeader (d.trailer.length + (a.length + 1)) maxTrailer)) := by
  have hlf : a ++ [Bytes.lf] = [Bytes.lf] ↔ a = [] := by
    simp
  have hcrlf : a ++ [Bytes.lf] = Bytes.crlf ↔ a = [Bytes.cr] := by
    rw [show Bytes.crlf = [Bytes.cr] ++ [Bytes.lf] from rfl, List.append_left_inj]
  rw [stepTrailer, h.lineEnd?_eq, Bytes.lineLength?_append_lf ha]
  simp only [Bytes.take_line, Bytes.drop_line, hlf, hcrlf]

/-- A buffer holds no line feed, or its first line has arrived. -/
theorem line_cases (src : Bytes) :
    Bytes.lf ∉ src ∨ ∃ a rest, Bytes.lf ∉ a ∧ src = a ++ Bytes.lf :: rest := by
  cases h : Bytes.lineLength? src with
  | none => exact .inl ((Bytes.lineLength?_eq_none_iff src).1 h)
  | some n =>
    obtain ⟨a, rest, ha, hsrc, -⟩ := Bytes.eq_of_lineLength? h
    exact .inr ⟨a, rest, ha, hsrc⟩

/-- Behind a chunk stands a line break, or not yet all of one, or something else, and then more
octets do not help. -/
theorem stepDataEnd_cases (d : ChunkedDecoder) (src : Bytes) :
    (d.stepDataEnd src = (d, src, .waits) ∧ (src = [] ∨ src = [Bytes.cr])) ∨
    (∃ (e : LineBreak) (rest : Bytes), src = e.bytes ++ rest ∧
      d.stepDataEnd src = ({ d with phase := .size }, rest, .moved) ∧
      ∀ s, d.stepDataEnd (src ++ s) = ({ d with phase := .size }, rest ++ s, .moved)) ∨
    d.stepDataEnd src = (d, src, .bad (.invalidBody .missingLineBreak)) ∧
      ∀ s, d.stepDataEnd (src ++ s) = (d, src ++ s, .bad (.invalidBody .missingLineBreak)) := by
  match src with
  | [] => exact .inl ⟨rfl, .inl rfl⟩
  | [b] =>
    by_cases hlf : b = Bytes.lf
    · subst hlf
      exact .inr (.inl ⟨.lf, [], rfl, rfl, fun s => rfl⟩)
    · by_cases hcr : b = Bytes.cr
      · subst hcr
        exact .inl ⟨rfl, .inr rfl⟩
      · refine .inr (.inr ⟨?_, fun s => ?_⟩)
        · simp only [stepDataEnd, hlf, hcr, if_false]
        · simp only [List.cons_append, stepDataEnd, hlf, hcr, if_false]
  | b :: c :: rest =>
    by_cases hlf : b = Bytes.lf
    · subst hlf
      exact .inr (.inl ⟨.lf, c :: rest, rfl, rfl, fun s => rfl⟩)
    · by_cases hcr : b = Bytes.cr
      · subst hcr
        by_cases hc : c = Bytes.lf
        · subst hc
          exact .inr (.inl ⟨.crlf, rest, rfl, rfl, fun s => rfl⟩)
        · refine .inr (.inr ⟨?_, fun s => ?_⟩)
          · simp only [stepDataEnd, Bytes.cr_ne_lf, hc, if_false, if_true]
          · simp only [List.cons_append, stepDataEnd, Bytes.cr_ne_lf, hc, if_false, if_true]
      · refine .inr (.inr ⟨?_, fun s => ?_⟩)
        · simp only [stepDataEnd, hlf, hcr, if_false]
        · simp only [List.cons_append, stepDataEnd, hlf, hcr, if_false]

/-- Every step keeps the remembered position right, also one that fails. -/
theorem Poised.step {d d' : ChunkedDecoder} {src rest : Bytes} {outcome : Step} (h : Poised d src)
    (hs : d.step src = (d', rest, outcome)) : Poised d' rest := by
  have hkeep : d = { d with scanned := 0 } → ∀ phase rest, Poised { d with phase } rest := by
    intro hd phase rest
    rw [hd]
    exact h.rewind phase rest
  unfold ChunkedDecoder.step at hs
  split at hs
  · rename_i hphase
    obtain hlf | ⟨a, line, ha, rfl⟩ := line_cases src
    · rw [stepSize_of_pending h hlf] at hs
      cases hs
      exact h.waitForLine (.inl hphase) hlf
    · rw [stepSize_line h ha] at hs
      split_ifs at hs
      · split at hs <;> (cases hs; exact h.rewind _ _)
      · cases hs
        exact h.rewind _ _
  · rename_i hphase
    have hd : d = { d with scanned := 0 } := by
      rw [← h.scanned_eq_zero (by simp [hphase]) (by simp [hphase])]
    unfold stepData at hs
    split_ifs at hs <;> cases hs
    · exact h
    · exact hkeep hd _ _
  · rename_i hphase
    have hd : d = { d with scanned := 0 } := by
      rw [← h.scanned_eq_zero (by simp [hphase]) (by simp [hphase])]
    obtain ⟨hstep, -⟩ | ⟨e, line, rfl, hstep, -⟩ | ⟨hstep, -⟩ := stepDataEnd_cases d src
    · cases hstep.symm.trans hs
      exact h
    · cases hstep.symm.trans hs
      exact hkeep hd _ _
    · cases hstep.symm.trans hs
      exact h
  · rename_i hphase
    obtain hlf | ⟨a, line, ha, rfl⟩ := line_cases src
    · rw [stepTrailer_of_pending h hlf] at hs
      cases hs
      exact h.waitForLine (.inr hphase) hlf
    · rw [stepTrailer_line h ha] at hs
      split_ifs at hs with hclose hfits <;> cases hs
      · exact h.rewind _ _
      · exact ⟨Nat.zero_le _, by simp, fun _ _ => rfl, by simpa using hfits⟩
      · exact h.rewind _ _
  · cases hs
    exact h

end CoopHttp.ChunkedDecoder
