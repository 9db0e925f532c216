import CoopHttp.Proofs.Frame.Bounds
import CoopHttp.Proofs.Frame.HeadEnd
import CoopHttp.Proofs.Frame.Search

/-!
# A head that has been refused

A head is cut off the buffer before it is decoded, and the reader remembers its end until it turns
to the next request. Behind a head that has been refused this end lies among the octets of the
requests to come, and they are cut once more: by another attempt to read the head, and by the turn
to the next request.
-/
namespace CoopHttp.FrameReader

variable {r s : FrameReader} {e : HeadEnd} {maxBody : ℕ} {ended : Bool}

/-! Ends that are remembered. -/

/-- The end of a head that the reader remembers, if any, has octets in front of it. -/
def MarksEnd (r : FrameReader) : Prop := ∀ e, r.ending = some e → 0 < e.bodyStart

theorem MarksEnd.congr (h : r.MarksEnd) (hending : s.ending = r.ending) : s.MarksEnd := by
  rw [MarksEnd, hending]
  exact h

theorem marksEnd_withMaxBody (maxBody : ℕ) (buffer : Bytes) :
    ((withMaxBody maxBody).extend buffer).MarksEnd := by
  intro e he
  cases he

/-- The reader remembers the end that it has found. -/
theorem ending_findEnd (r : FrameReader) : r.findEnd.1.ending = r.findEnd.2 := by
  rw [findEnd]
  split
  · assumption
  · rfl

theorem MarksEnd.findEnd (h : r.MarksEnd) : r.findEnd.1.MarksEnd := by
  rw [FrameReader.findEnd]
  split
  · exact h
  · rcases hrun : r.matcher.run (r.buffer.drop r.scanned) with ⟨t, n, _ | length⟩
    · intro e he
      cases he
    · have hpos := (Terminator.bounds_of_run hrun).1
      intro e he
      cases he
      simp only [HeadEnd.bodyStart]
      omega

theorem MarksEnd.seekHead (h : r.MarksEnd) : r.seekHead.1.MarksEnd := by
  rw [seekHead_fst]
  exact h.findEnd

theorem ending_readHead (r : FrameReader) (bytes : Bytes) :
    (r.readHead bytes).1.ending = r.ending := by
  rw [readHead]
  split <;> rfl

theorem ending_cut {n : ℕ} {bytes : Bytes} (h : r.cut n = .ok (bytes, s)) :
    s.ending = r.ending := by
  rw [cut] at h
  split_ifs at h
  cases h
  rfl

theorem MarksEnd.parseHead (h : r.MarksEnd) {result : Except ParseError ℕ}
    (hparse : r.parseHead = .ok (s, result)) : s.MarksEnd := by
  have hfind := h.findEnd
  rw [FrameReader.parseHead] at hparse
  split at hparse
  · cases hparse
    exact h
  · split at hparse <;> rename_i heq <;> rw [heq] at hfind
    · cases hparse
      exact hfind
    · obtain ⟨⟨bytes, t⟩, hcut, hread⟩ := exists_of_map_eq_ok hparse
      have hhead := ending_readHead t bytes
      rw [show t.readHead bytes = (s, result) from hread] at hhead
      exact hfind.congr (hhead.trans (ending_cut hcut))

theorem ending_drain (d : PayloadDecoder) (r : FrameReader) :
    (drain d r).2.1.ending = r.ending := by
  fun_induction drain d r with
  | case1 | case2 | case4 => rfl
  | case3 d r d' buffer hdecode s result hfinish =>
    have hbody : (finishBody { r with buffer } d'.trailer).1.ending = r.ending := by
      rw [finishBody]
      split
      · rfl
      · split <;> rfl
    rwa [hfinish] at hbody
  | case5 d r d' buffer piece hdecode gathered hsize ih => exact ih

theorem MarksEnd.pullHead (h : r.MarksEnd) (source : Source) :
    (r.pullHead source).1.MarksEnd := by
  rw [pullHead_eq_drive]
  refine (headFetcher.drive_invariant (P := MarksEnd) ?_ ?_ h source).1
  · intro s s' progress hs hattempt
    have hseek := hs.seekHead
    rwa [show s.seekHead = (s', progress) from hattempt] at hseek
  · exact fun bytes hs => hs.congr rfl

theorem MarksEnd.pullPayload (h : r.MarksEnd) (d : PayloadDecoder) (source : Source) :
    (r.pullPayload d source).1.MarksEnd := by
  rw [pullPayload_eq_drive]
  refine (payloadFetcher.drive_invariant (P := fun s => s.2.MarksEnd) ?_ ?_ h source).1
  · rintro ⟨d, s⟩ ⟨d', s'⟩ progress hs hattempt
    have hdrain := ending_drain d s
    rcases heq : drain d s with ⟨d₁, s₁, progress₁⟩
    simp only [payloadFetcher, heq] at hattempt hdrain
    cases hattempt
    exact MarksEnd.congr hs hdrain
  · exact fun bytes hs => MarksEnd.congr hs rfl

theorem MarksEnd.pullBehindHead (h : r.MarksEnd) {d : PayloadDecoder} {source rest : Source}
    {result : Except ParseError Unit}
    (hpull : r.pullBehindHead d source = .ok (s, rest, result)) : s.MarksEnd := by
  obtain ⟨⟨t, _ | n⟩, hparse, hpayload⟩ := exists_of_map_eq_ok hpull
  · cases hpayload
    exact h.parseHead hparse
  · have ht := (h.parseHead hparse).pullPayload d source
    rwa [show t.pullPayload d source = (s, rest, result) from hpayload] at ht

theorem MarksEnd.apply (h : r.MarksEnd) {operation : FrameOperation} {answer : FrameAnswer}
    (happly : r.apply operation = .ok (s, answer)) : s.MarksEnd := by
  cases operation with
  | extend | takeHead | takeBody | takeTrailers =>
    cases happly
    exact h.congr rfl
  | findEnd =>
    cases happly
    exact h.findEnd
  | pullHead source =>
    cases happly
    exact h.pullHead source
  | parseHead =>
    obtain ⟨_, hparse, hs⟩ := exists_of_map_eq_ok happly
    cases hs
    exact h.parseHead hparse
  | pullLength n source =>
    obtain ⟨_, hpull, hs⟩ := exists_of_map_eq_ok happly
    cases hs
    rw [pullLength] at hpull
    split at hpull
    · cases hpull
      exact h
    · exact h.pullBehindHead hpull
  | pullChunked source =>
    obtain ⟨_, hpull, hs⟩ := exists_of_map_eq_ok happly
    cases hs
    exact h.pullBehindHead hpull
  | pullDeclared source =>
    obtain ⟨_, hpull, hs⟩ := exists_of_map_eq_ok happly
    cases hs
    obtain ⟨⟨t, _ | n⟩, hparse, hpayload⟩ := exists_of_map_eq_ok hpull
    · cases hpayload
      exact h.parseHead hparse
    · dsimp only at hpayload
      split at hpayload
      · cases hpayload
        exact h.parseHead hparse
      · have ht := (h.parseHead hparse).pullPayload (.ofSize (t.payload.getD .empty)) source
        rwa [hpayload] at ht
  | nextFrame =>
    obtain ⟨_, hnext, hs⟩ := exists_of_map_eq_ok happly
    cases hs
    obtain ⟨buffer, rfl⟩ := exists_of_nextFrame hnext
    exact marksEnd_withMaxBody r.maxBody buffer
  | reset =>
    cases happly
    exact marksEnd_withMaxBody r.maxBody []

theorem Serves.marksEnd (h : Serves maxBody r ended) : r.MarksEnd := by
  induction h with
  | fresh => exact marksEnd_withMaxBody maxBody []
  | apply _ happly ih => exact ih.apply happly

/-! Cutting at an end that is remembered. -/

/-- An unread head is cut off where its end is found, and decoded. -/
theorem parseHead_eq_of_findEnd {t : FrameReader} (hpayload : r.payload = none)
    (hfind : r.findEnd = (t, some e)) :
    r.parseHead =
      if e.bodyStart ≤ t.buffer.length then
        .ok (({ t with buffer := t.buffer.drop e.bodyStart } : FrameReader).readHead
          (t.buffer.take e.bodyStart))
      else .error .beyondBuffer := by
  split_ifs with hle
  · exact parseHead_of_findEnd hpayload hfind hle
  · simp [parseHead, hpayload, hfind, cut, hle, Except.map]

/-- Turning to the next request skips an unread head up to the end that is remembered. -/
theorem nextFrame_eq_of_ending (hpayload : r.payload = none) (hending : r.ending = some e) :
    r.nextFrame =
      if e.bodyStart ≤ r.buffer.length then
        .ok ((withMaxBody r.maxBody).extend (r.buffer.drop e.bodyStart))
      else .error .beyondBuffer := by
  rw [nextFrame, hpayload, hending]
  dsimp only
  rw [cut]
  split_ifs <;> rfl

/-- Octets are refused exactly if the decoder reads no head at their front. -/
theorem exists_readHead_eq_error_iff (r : FrameReader) (bytes : Bytes) :
    (∃ s error, r.readHead bytes = (s, .error error)) ↔
      ∀ read, (RequestHead.decode bytes).result ≠ .ok (some read) := by
  rw [readHead]
  split <;> rename_i heq <;> simp [heq]

/-- An unread head whose end is remembered is refused exactly if the octets up to there have come
and the decoder reads no head at their front. -/
theorem exists_parseHead_eq_error_iff (hpayload : r.payload = none) (hending : r.ending = some e) :
    (∃ s error, r.parseHead = .ok (s, .error error)) ↔
      e.bodyStart ≤ r.buffer.length ∧
        ∀ read, (RequestHead.decode (r.buffer.take e.bodyStart)).result ≠ .ok (some read) := by
  rw [parseHead_eq_of_findEnd hpayload (findEnd_of_ending hending)]
  split_ifs with hle
  · rw [and_iff_right hle, ← exists_readHead_eq_error_iff]
    simp only [Except.ok.injEq]
    exact Iff.rfl
  · simp [hle]

theorem eq_of_readHead_eq_error {bytes : Bytes} {error : ParseError}
    (h : r.readHead bytes = (s, .error error)) : s = r := by
  rw [readHead] at h
  split at h <;> cases h <;> rfl

/-- A head that is refused is gone, and its end is still remembered. -/
theorem ending_of_refused {error : ParseError} (hend : r.findEnd.2 = some e)
    (hparse : r.parseHead = .ok (s, .error error)) :
    s.buffer = r.buffer.drop e.bodyStart ∧ s.payload = none ∧ s.ending = some e := by
  have hnone : r.payload = none := by
    refine Option.eq_none_iff_forall_ne_some.2 fun size hsize => ?_
    rw [parseHead, hsize] at hparse
    cases hparse
  have hbuffer := buffer_findEnd r
  have hpayload := payload_findEnd r
  have hending := ending_findEnd r
  rcases hfind : r.findEnd with ⟨t, found⟩
  rw [hfind] at hend hbuffer hpayload hending
  cases hend
  rw [parseHead_eq_of_findEnd hnone hfind] at hparse
  split_ifs at hparse
  have hs := eq_of_readHead_eq_error (Except.ok.inj hparse)
  rw [hs]
  exact ⟨by rw [← hbuffer], hpayload.trans hnone, hending⟩

/-- What becomes of a reader that has refused a head. The head is gone and its end still remembered,
so as many octets are cut off again. Another attempt is refused as well, without a crash, exactly if
there are so many octets and the decoder reads no head at their front. The turn to the next request
discards them, or crashes if there are fewer: never does it leave the octets that stood behind the
head. -/
theorem refused_head_of_serves (h : Serves maxBody r ended) {error : ParseError}
    (hend : r.findEnd.2 = some e) (hparse : r.parseHead = .ok (s, .error error)) :
    s.buffer = r.buffer.drop e.bodyStart ∧
      ((∃ t error', s.parseHead = .ok (t, .error error')) ↔
        e.bodyStart ≤ s.buffer.length ∧
          ∀ read, (RequestHead.decode (s.buffer.take e.bodyStart)).result ≠ .ok (some read)) ∧
      (s.buffer.length < e.bodyStart →
        s.parseHead = .error .beyondBuffer ∧ s.nextFrame = .error .beyondBuffer) ∧
      (e.bodyStart ≤ s.buffer.length →
        s.nextFrame = .ok ((withMaxBody maxBody).extend (s.buffer.drop e.bodyStart))) ∧
      ¬ ∃ t, s.nextFrame = .ok t ∧ t.buffer = r.buffer.drop e.bodyStart := by
  obtain ⟨hbuffer, hpayload, hending⟩ := ending_of_refused hend hparse
  have happly : r.apply .parseHead = .ok (s, .length (.error error)) := by rw [apply, hparse]; rfl
  have hserves := h.apply happly
  have hpos := hserves.marksEnd e hending
  have hagain := parseHead_eq_of_findEnd hpayload (findEnd_of_ending hending)
  have hnext := nextFrame_eq_of_ending hpayload hending
  rw [hserves.spec.1] at hnext
  refine ⟨hbuffer, exists_parseHead_eq_error_iff hpayload hending, fun hlt => ?_, fun hle => ?_, ?_⟩
  · rw [hagain, hnext, if_neg (by omega), if_neg (by omega)]
    exact ⟨rfl, rfl⟩
  · rw [hnext, if_pos hle]
  · rintro ⟨t, ht, hsame⟩
    rw [hnext] at ht
    split_ifs at ht with hle
    cases ht
    rw [← hbuffer] at hsame
    have hlength := congrArg List.length hsame
    rw [show ((withMaxBody maxBody).extend (s.buffer.drop e.bodyStart)).buffer =
      s.buffer.drop e.bodyStart from rfl, List.length_drop] at hlength
    omega

/-- A head at fault that is one octet longer than the request behind it, and a third request. -/
def faultyThenTwo : Bytes :=
  ascii "B@D /aaaaaaaaaa\r\n\r\nGET / HTTP/1.1\r\n\r\nGET /next HTTP/1.1\r\n\r\n"

/-- Another attempt reads the second request as if it were the first, so it is not refused. -/
theorem exists_refused_head_misread :
    ∃ r s e error, Serves 0 r false ∧ r.findEnd.2 = some e ∧ r.parseHead = .ok (s, .error error) ∧
      s.buffer = ascii "GET / HTTP/1.1\r\n\r\nGET /next HTTP/1.1\r\n\r\n" ∧
      (¬ ∃ t error', s.parseHead = .ok (t, .error error')) ∧
      s.nextFrame = .ok ((withMaxBody 0).extend (ascii "ET /next HTTP/1.1\r\n\r\n")) := by
  have hserves := serves_extend 0 faultyThenTwo
  have hend : ((withMaxBody 0).extend faultyThenTwo).findEnd.2 = some ⟨15, 4⟩ := by decide +kernel
  obtain ⟨⟨s, _ | n⟩, hparse, herror⟩ := exists_of_map_eq_ok (show
    ((withMaxBody 0).extend faultyThenTwo).parseHead.map (·.2.isOk) = .ok false by
      decide +kernel)
  · obtain ⟨hbuffer, hagain, -, hnext, -⟩ := refused_head_of_serves hserves hend hparse
    have hread : (RequestHead.decode ((faultyThenTwo.drop 19).take 19)).result =
        .ok (some (⟨.get, ⟨none, [], ascii "/", none⟩, .http11, .empty⟩, .empty)) := by
      decide +kernel
    have hlast : (faultyThenTwo.drop 19).drop 19 = ascii "ET /next HTTP/1.1\r\n\r\n" := by
      decide +kernel
    rw [hbuffer] at hagain hnext
    refine ⟨_, s, _, _, hserves, hend, hparse, hbuffer.trans (by decide +kernel), ?_, ?_⟩
    · rw [hagain]
      exact fun hrefused => hrefused.2 _ hread
    · rw [hnext (by decide +kernel), ← hlast]
      rfl
  · cases herror

/-- A head at fault and a request behind it. -/
def faultyThenOne : Bytes := ascii "BAD\r\n\r\nGET /next HTTP/1.1\r\n\r\n"

/-- The turn to the next request takes seven octets off that request; with nothing behind the head,
another attempt and the turn to the next request crash. -/
theorem refused_head_skips_next :
    Serves 0 ((withMaxBody 0).extend faultyThenOne) false ∧
      ((withMaxBody 0).extend faultyThenOne).findEnd.2 = some ⟨3, 4⟩ ∧
      (((withMaxBody 0).extend faultyThenOne).parseHead.bind fun (s, result) =>
        s.nextFrame.map fun t => (result.isOk, s.buffer, t.buffer)) =
          .ok (false, ascii "GET /next HTTP/1.1\r\n\r\n", ascii "xt HTTP/1.1\r\n\r\n") ∧
      (((withMaxBody 0).extend (ascii "BAD\r\n\r\n")).parseHead.map fun (s, result) =>
        (result.isOk, s.parseHead.isOk, s.nextFrame.isOk)) = .ok (false, false, false) := by
  refine ⟨serves_extend 0 faultyThenOne, ?_, ?_, ?_⟩ <;> decide +kernel

end CoopHttp.FrameReader
