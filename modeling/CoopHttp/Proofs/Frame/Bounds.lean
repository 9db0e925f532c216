import CoopHttp.Proofs.Chunked.Verdict
import CoopHttp.Proofs.Frame.Fetches

/-!
# What a client can make a reader hold

A reader fetches octets only while little is unread: less than a head may have, or less than a line or
a trailer section of a chunked payload may have. The body is checked before it grows, so it keeps to
its limit at all times, and a declared length is checked before the body is touched. Each bound is an
invariant of one attempt, and the driver of the attempts carries it through any source.
-/
namespace CoopHttp

namespace ChunkedDecoder

/-- A decoder that waits has before it a part of a line, or of the line break behind a chunk. -/
theorem length_rest_of_waits {d d' : ChunkedDecoder} {src rest : Bytes}
    (h : d.step src = (d', rest, .waits)) : rest.length ≤ maxTrailer := by
  unfold step at h
  split at h
  · unfold stepSize waitForLine at h
    split at h
    · split_ifs at h with hle
      · cases h
        simp only [maxSizeLine, maxTrailer] at hle ⊢
        omega
      · cases h
    · split_ifs at h
      · split at h <;> cases h
      · cases h
  · unfold stepData at h
    split_ifs at h with hsrc
    · cases h
      simp [hsrc]
    · cases h
  · obtain ⟨hstep, hsrc⟩ | ⟨e, line, rfl, hstep, -⟩ | ⟨hstep, -⟩ := stepDataEnd_cases d src
    · cases hstep.symm.trans h
      obtain rfl | rfl := hsrc <;> simp [maxTrailer]
    · cases hstep.symm.trans h
    · cases hstep.symm.trans h
  · unfold stepTrailer waitForLine at h
    split at h
    · split_ifs at h with hle
      · cases h
        omega
      · cases h
    · split_ifs at h <;> cases h
  · cases h

/-- Decoding keeps the remembered position right, and it waits with little before it. -/
theorem Poised.decode {d d' : ChunkedDecoder} {src rest : Bytes}
    {result : Except ParseError (Option PayloadItem)} (h : Poised d src)
    (hd : d.decode src = (d', rest, result)) :
    Poised d' rest ∧ (result = .ok none → rest.length ≤ maxTrailer) := by
  fun_induction ChunkedDecoder.decode d src with
  | case1 d src d₁ rest₁ hstep ih => exact ih (h.step hstep) hd
  | case2 d src d₁ rest₁ item hstep =>
    cases hd
    exact ⟨h.step hstep, fun hnone => by cases hnone⟩
  | case3 d src d₁ rest₁ hstep =>
    cases hd
    exact ⟨h.step hstep, fun _ => length_rest_of_waits hstep⟩
  | case4 d src d₁ rest₁ error hstep =>
    cases hd
    exact ⟨h.step hstep, fun hnone => by cases hnone⟩

end ChunkedDecoder

namespace PayloadDecoder

/-- What a decoder of chunks remembers is right. -/
def Poised : PayloadDecoder → Bytes → Prop
  | chunked d, src => d.Poised src
  | length _, _ | empty, _ => True

variable {d d' : PayloadDecoder} {src rest : Bytes}

theorem poised_ofSize (size : PayloadSize) (src : Bytes) : (ofSize size).Poised src := by
  cases size with
  | chunked => exact ChunkedDecoder.poised_fresh src
  | length n | empty => trivial

theorem Poised.append (h : d.Poised src) (s : Bytes) : d.Poised (src ++ s) := by
  cases d with
  | chunked d => exact ChunkedDecoder.Poised.append h s
  | length d | empty => trivial

theorem Poised.length_trailer_le (h : d.Poised src) : d.trailer.length ≤ 8192 := by
  cases d with
  | chunked d => exact ChunkedDecoder.Poised.length_trailer_le h
  | length d | empty => simp [trailer]

theorem Poised.decode {result : Except ParseError (Option PayloadItem)} (h : d.Poised src)
    (hd : d.decode src = (d', rest, result)) :
    d'.Poised rest ∧ (result = .ok none → rest.length ≤ 8192) := by
  cases d with
  | chunked d =>
    rcases hdecode : d.decode src with ⟨d₁, rest₁, result₁⟩
    rw [PayloadDecoder.decode, hdecode] at hd
    cases hd
    exact ChunkedDecoder.Poised.decode h hdecode
  | length d =>
    rw [PayloadDecoder.decode, LengthDecoder.decode] at hd
    split_ifs at hd with hzero hsrc <;> cases hd
    · exact ⟨trivial, fun hnone => by cases hnone⟩
    · exact ⟨trivial, fun _ => by simp [hsrc]⟩
    · exact ⟨trivial, fun hnone => by cases hnone⟩
  | empty =>
    cases hd
    exact ⟨trivial, fun hnone => by cases hnone⟩

end PayloadDecoder

/-- Little is held where octets are fetched. -/
structure Fetch.Bounded (fetch : Fetch) (maxBody : ℕ) : Prop where
  length_buffer_le : fetch.reader.buffer.length ≤ 8192
  length_trailer_le : ∀ d ∈ fetch.decoder, d.trailer.length ≤ 8192
  length_body_le : fetch.reader.body.length ≤ maxBody

namespace FrameReader

variable {r s : FrameReader} {maxBody : ℕ}

/-- The body keeps to the limit, which is `maxBody`. -/
structure Within (maxBody : ℕ) (r : FrameReader) : Prop where
  maxBody_eq : r.maxBody = maxBody
  length_body_le : r.body.length ≤ maxBody

theorem Within.congr (h : Within maxBody r) (hmaxBody : s.maxBody = r.maxBody)
    (hgathered : s.gathered = r.gathered) : Within maxBody s := by
  refine ⟨hmaxBody.trans h.maxBody_eq, ?_⟩
  rw [body, hgathered]
  exact h.length_body_le

theorem within_withMaxBody (maxBody : ℕ) (buffer : Bytes) :
    Within maxBody ((withMaxBody maxBody).extend buffer) :=
  ⟨rfl, Nat.zero_le _⟩

/-! Heads. -/

theorem gathered_findEnd (r : FrameReader) : r.findEnd.1.gathered = r.gathered := by
  rw [findEnd]
  split <;> rfl

theorem gathered_readHead (r : FrameReader) (bytes : Bytes) :
    (r.readHead bytes).1.gathered = r.gathered := by
  rw [readHead]
  split <;> rfl

/-- The octets in front of the buffer that belong to a head: all up to the end that is found, unless
the head has been read already. -/
def headLength (r : FrameReader) : ℕ :=
  match r.payload with
  | some _ => 0
  | none => (r.findEnd.2.map HeadEnd.bodyStart).getD 0

/-- From `r` to `s` the head is taken off the buffer, and nothing behind it is touched. -/
structure LeavesPayload (r s : FrameReader) : Prop where
  gathered_eq : s.gathered = r.gathered
  buffer_eq : s.buffer = r.buffer.drop r.headLength

theorem leavesPayload_parseHead {result : Except ParseError ℕ} (h : r.parseHead = .ok (s, result)) :
    LeavesPayload r s := by
  have hgathered := gathered_findEnd r
  have hbuffer := buffer_findEnd r
  rw [parseHead] at h
  split at h
  · rename_i size hsize
    cases h
    exact ⟨rfl, by simp [headLength, hsize]⟩
  · rename_i hnone
    split at h <;> rename_i heq
    · have hlength : r.headLength = 0 := by simp [headLength, hnone, heq]
      rw [heq] at hgathered hbuffer
      cases h
      exact ⟨hgathered, by rw [hbuffer, hlength, List.drop_zero]⟩
    · rename_i e
      have hlength : r.headLength = e.bodyStart := by simp [headLength, hnone, heq]
      obtain ⟨⟨bytes, u⟩, hcut, hread⟩ := exists_of_map_eq_ok h
      have hhead := gathered_readHead u bytes
      have hrest := buffer_readHead u bytes
      rw [show u.readHead bytes = (s, result) from hread] at hhead hrest
      rw [heq] at hgathered hbuffer
      rw [cut] at hcut
      split_ifs at hcut
      cases hcut
      refine ⟨hhead.trans hgathered, hrest.trans ?_⟩
      rw [hbuffer, hlength]

theorem Within.parseHead {result : Except ParseError ℕ} (h : Within maxBody r)
    (hparse : r.parseHead = .ok (s, result)) : Within maxBody s :=
  h.congr (carries_parseHead hparse).maxBody_eq (leavesPayload_parseHead hparse).gathered_eq

/-- A search for a head that is starved has not filled the buffer yet. -/
theorem length_buffer_of_starved (h : r.seekHead = (s, .starved)) :
    s.buffer.length < maxHeadBytes := by
  rw [seekHead] at h
  split at h
  · cases h
  · split_ifs at h with hlt
    · cases h
      exact hlt
    · cases h

theorem Within.seekHead (h : Within maxBody r) : Within maxBody r.seekHead.1 := by
  rw [seekHead_fst]
  exact h.congr (carries_findEnd r).maxBody_eq (gathered_findEnd r)

/-! Payloads. -/

/-- A state in which a payload is read: the body is within its limit, and what the decoder remembers
is right. -/
structure Gathering (maxBody : ℕ) (s : PayloadDecoder × FrameReader) : Prop where
  within : Within maxBody s.2
  poised : s.1.Poised s.2.buffer

theorem Within.finishBody (h : Within maxBody r) (trailer : Bytes) :
    Within maxBody (r.finishBody trailer).1 := by
  rw [FrameReader.finishBody]
  split
  · exact h.congr rfl rfl
  · split
    · exact h
    · exact h.congr rfl rfl

/-- One attempt to read a payload keeps the bounds, and where it is starved little is unread. -/
theorem Gathering.drain {d d' : PayloadDecoder} {progress : Progress (Except ParseError Unit)}
    (h : Gathering maxBody (d, r)) (hdrain : drain d r = (d', s, progress)) :
    Gathering maxBody (d', s) ∧ (progress = .starved → s.buffer.length ≤ 8192) := by
  fun_induction FrameReader.drain d r with
  | case1 d r d₁ buffer error hdecode =>
    cases hdrain
    exact ⟨⟨h.within.congr rfl rfl, (h.poised.decode hdecode).1⟩, fun hstarved => by cases hstarved⟩
  | case2 d r d₁ buffer hdecode =>
    cases hdrain
    exact ⟨⟨h.within.congr rfl rfl, (h.poised.decode hdecode).1⟩,
      fun _ => (h.poised.decode hdecode).2 rfl⟩
  | case3 d r d₁ buffer hdecode t result hfinish =>
    have hwithin := (h.within.congr (s := { r with buffer }) rfl rfl).finishBody d₁.trailer
    have hbuffer := buffer_finishBody { r with buffer } d₁.trailer
    rw [hfinish] at hwithin hbuffer
    cases hdrain
    refine ⟨⟨hwithin, ?_⟩, fun hstarved => by cases hstarved⟩
    exact hbuffer ▸ (h.poised.decode hdecode).1
  | case4 d r d₁ buffer piece hdecode gathered error hcheck =>
    cases hdrain
    exact ⟨⟨h.within.congr rfl rfl, (h.poised.decode hdecode).1⟩, fun hstarved => by cases hstarved⟩
  | case5 d r d₁ buffer piece hdecode gathered hcheck ih =>
    -- The body grows here only, behind the check.
    have hsize : gathered.size ≤ r.maxBody := by
      by_contra hlarge
      rw [checkSize, if_neg hlarge] at hcheck
      cases hcheck
    refine ih ⟨⟨h.within.maxBody_eq, ?_⟩, (h.poised.decode hdecode).1⟩ hdrain
    rw [body, Gathered.length_bytes, ← h.within.maxBody_eq]
    exact hsize

/-- Reading a payload keeps the bounds, whatever the source hands out. -/
theorem Gathering.watchPayload {d : PayloadDecoder} (h : Gathering maxBody (d, r))
    (source : Source) :
    Within maxBody (r.watchPayload d source).2.1 ∧
      ∀ fetch ∈ (r.watchPayload d source).1, fetch.Bounded maxBody := by
  have hattempt : ∀ {s s' progress}, Gathering maxBody s →
      payloadFetcher.attempt s = (s', progress) →
        Gathering maxBody s' ∧ (progress = .starved → s'.2.buffer.length ≤ 8192) := by
    rintro ⟨d, r⟩ ⟨d', s⟩ progress hs hattempt
    refine hs.drain ?_
    rcases hdrain : FrameReader.drain d r with ⟨d₁, s₁, progress₁⟩
    simp only [payloadFetcher, hdrain] at hattempt
    cases hattempt
    rfl
  have hfeed : ∀ {s} (bytes : Bytes), Gathering maxBody s →
      Gathering maxBody (payloadFetcher.feed s bytes) :=
    fun bytes hs => ⟨hs.within.congr rfl rfl, hs.poised.append bytes⟩
  obtain ⟨hend, hfetches⟩ :=
    Fetcher.drive_invariant (fun hs heq => (hattempt hs heq).1) hfeed h source
  refine ⟨hend.within, fun fetch hfetch => ?_⟩
  obtain ⟨s', hs', rfl⟩ := List.mem_map.1 hfetch
  obtain ⟨t, ht, hstarved⟩ := hfetches s' hs'
  obtain ⟨hgathering, hlength⟩ := hattempt ht hstarved
  refine ⟨hlength rfl, fun d hd => ?_, hgathering.within.length_body_le⟩
  cases hd
  exact hgathering.poised.length_trailer_le

/-! Operations. -/

theorem Within.watchHead (h : Within maxBody r) (source : Source) :
    Within maxBody (headFetcher.drive r source).2.1 ∧
      ∀ s ∈ (headFetcher.drive r source).1, (⟨s, none⟩ : Fetch).Bounded maxBody := by
  have hattempt : ∀ {s s' progress}, Within maxBody s → s.seekHead = (s', progress) →
      Within maxBody s' := by
    intro s s' progress hs heq
    have hkept := hs.seekHead
    rwa [heq] at hkept
  obtain ⟨hend, hfetches⟩ := Fetcher.drive_invariant (m := headFetcher) hattempt
    (fun bytes hs => hs.congr rfl rfl) h source
  refine ⟨hend, fun s hs => ?_⟩
  obtain ⟨t, ht, hstarved⟩ := hfetches s hs
  have hlt := length_buffer_of_starved hstarved
  refine ⟨?_, by simp, (hattempt ht hstarved).length_body_le⟩
  simp only [maxHeadBytes] at hlt
  exact hlt.le

theorem Within.watchBehindHead (d : PayloadDecoder) (hd : ∀ src, d.Poised src)
    (h : Within maxBody r) {source : Source} {fetches : List Fetch} {answer : FrameAnswer}
    (hwatch : r.watchBehindHead d source = .ok (fetches, s, answer)) :
    Within maxBody s ∧ ∀ fetch ∈ fetches, fetch.Bounded maxBody := by
  obtain ⟨⟨t, _ | n⟩, hparse, hpayload⟩ := exists_of_map_eq_ok hwatch
  · cases hpayload
    exact ⟨h.parseHead hparse, by simp⟩
  · have hbounded := Gathering.watchPayload ⟨h.parseHead hparse, hd _⟩ source
    rwa [show t.watchPayload d source = (fetches, s, answer) from hpayload] at hbounded

/-- Every operation keeps the body within its limit, and holds little wherever it fetches octets. -/
theorem Within.watch (h : Within maxBody r) {operation : FrameOperation} {fetches : List Fetch}
    {answer : FrameAnswer} (hwatch : r.watch operation = .ok (fetches, s, answer)) :
    Within maxBody s ∧ ∀ fetch ∈ fetches, fetch.Bounded maxBody := by
  cases operation with
  | pullHead source =>
    cases hwatch
    simpa using h.watchHead source
  | pullLength n source =>
    rw [FrameReader.watch] at hwatch
    split at hwatch
    · cases hwatch
      exact ⟨h, by simp⟩
    · exact h.watchBehindHead (.length ⟨n⟩) (fun _ => trivial) hwatch
  | pullChunked source => exact h.watchBehindHead (.chunked {}) ChunkedDecoder.poised_fresh hwatch
  | pullDeclared source =>
    obtain ⟨⟨t, _ | n⟩, hparse, hpayload⟩ := exists_of_map_eq_ok hwatch
    · cases hpayload
      exact ⟨h.parseHead hparse, by simp⟩
    · dsimp only at hpayload
      split at hpayload
      · cases hpayload
        exact ⟨h.parseHead hparse, by simp⟩
      · have hgathering : Gathering maxBody (.ofSize (t.payload.getD .empty), t) :=
          ⟨h.parseHead hparse, PayloadDecoder.poised_ofSize _ _⟩
        have hbounded := hgathering.watchPayload source
        rwa [hpayload] at hbounded
  | extend | takeHead | takeTrailers =>
    cases hwatch
    exact ⟨h.congr rfl rfl, by simp⟩
  | findEnd =>
    cases hwatch
    exact ⟨h.congr (carries_findEnd r).maxBody_eq (gathered_findEnd r), by simp⟩
  | takeBody | reset =>
    cases hwatch
    exact ⟨⟨h.maxBody_eq, Nat.zero_le _⟩, by simp⟩
  | parseHead =>
    obtain ⟨_, happly, hs⟩ := exists_of_map_eq_ok hwatch
    obtain ⟨_, hparse, hanswer⟩ := exists_of_map_eq_ok happly
    cases hanswer
    cases hs
    exact ⟨h.parseHead hparse, by simp⟩
  | nextFrame =>
    obtain ⟨_, happly, hs⟩ := exists_of_map_eq_ok hwatch
    obtain ⟨_, hnext, hanswer⟩ := exists_of_map_eq_ok happly
    obtain ⟨buffer, rfl⟩ := exists_of_nextFrame hnext
    cases hanswer
    cases hs
    exact ⟨h.maxBody_eq ▸ within_withMaxBody r.maxBody buffer, by simp⟩

theorem serves_extend (maxBody : ℕ) (bytes : Bytes) :
    Serves maxBody ((withMaxBody maxBody).extend bytes) false := by
  have happly : (withMaxBody maxBody).apply (.extend bytes) =
      .ok ((withMaxBody maxBody).extend bytes, .done) := rfl
  exact Serves.fresh.apply happly

theorem Serves.within {ended : Bool} (h : Serves maxBody r ended) : Within maxBody r := by
  induction h with
  | fresh => exact within_withMaxBody maxBody []
  | apply _ happly ih =>
    rw [apply_eq_watch] at happly
    obtain ⟨⟨fetches, _⟩, hwatch, hs⟩ := exists_of_map_eq_ok happly
    cases hs
    exact (ih.watch hwatch).1

/-! Declared lengths. -/

/-- A length above the limit is refused before anything else is done. -/
theorem watch_pullLength_of_lt {n : ℕ} (h : r.maxBody < n) (source : Source) :
    r.watch (.pullLength n source) =
      .ok ([], r, .payload (.error (.tooLargeBody n r.maxBody)) source) := by
  rw [watch, checkSize, if_neg (by omega)]

/-- A payload that is declared with a length above the limit is refused behind its head. -/
theorem watch_pullDeclared_of_lt {n : ℕ} (hparse : r.parseHead = .ok (s, .ok n))
    (h : s.maxBody < n) (source : Source) :
    r.watch (.pullDeclared source) =
      .ok ([], s, .payload (.error (.tooLargeBody n s.maxBody)) source) := by
  have hcheck : s.checkSize (s.payload.getD .empty).contentLength =
      .error (.tooLargeBody n s.maxBody) := by
    obtain ⟨size, hsize, rfl⟩ := exists_payload_of_parseHead hparse
    rw [hsize, Option.getD_some, checkSize, if_neg (by omega)]
  rw [watch, hparse]
  simp only [Except.map, hcheck]

/-- However octets reach a reader, it never holds a body above its limit, and wherever it fetches
octets it holds at most 8192 octets unread and at most 8192 octets of a trailer section. A payload of a
declared length above the limit is refused: nothing behind the head is touched, and nothing is
fetched. -/
theorem bounded_of_serves {ended : Bool} (h : Serves maxBody r ended) :
    r.body.length ≤ maxBody ∧
      (∀ operation, r.apply operation = (r.watch operation).map (·.2) ∧
        ∀ fetches s answer, r.watch operation = .ok (fetches, s, answer) →
          answer.rest = operation.source.drop fetches.length ∧
            ∀ fetch ∈ fetches, fetch.Bounded maxBody) ∧
      ∀ n source, maxBody < n →
        r.watch (.pullLength n source) =
            .ok ([], r, .payload (.error (.tooLargeBody n maxBody)) source) ∧
          ∀ s, r.parseHead = .ok (s, .ok n) →
            r.watch (.pullDeclared source) =
                .ok ([], s, .payload (.error (.tooLargeBody n maxBody)) source) ∧
              LeavesPayload r s := by
  have hwithin := h.within
  refine ⟨hwithin.length_body_le, fun operation => ⟨apply_eq_watch r operation, ?_⟩, ?_⟩
  · intro fetches s answer hwatch
    exact ⟨rest_watch hwatch, (hwithin.watch hwatch).2⟩
  · intro n source hlt
    have hlimit := hwithin.maxBody_eq
    refine ⟨?_, fun s hparse => ⟨?_, leavesPayload_parseHead hparse⟩⟩
    · have hrefused := watch_pullLength_of_lt (by omega : r.maxBody < n) source
      rwa [hlimit] at hrefused
    · have hlimit' := (hwithin.parseHead hparse).maxBody_eq
      have hrefused := watch_pullDeclared_of_lt hparse (by omega) source
      rwa [hlimit'] at hrefused

/-- A head with a declared length and the first octets of the payload. -/
def declaredEleven : Bytes := ascii "POST / HTTP/1.1\r\nContent-Length: 11\r\n\r\nhello"

def announcedChunks : Bytes := ascii "POST / HTTP/1.1\r\nTransfer-Encoding: chunked\r\n\r\n"

/-- The payload in two fills, cut within the trailer section. -/
def cutInTrailer : Source := [.bytes (ascii "3\r\nabc\r\n0\r\na: b\r\n"), .bytes (ascii "\r\n")]

theorem exists_bounded_readers :
    (∃ r s, Serves 10 r false ∧ r.parseHead = .ok (s, .ok 11) ∧
      r.watch (.pullDeclared [.bytes (ascii " world")]) =
        .ok ([], s, .payload (.error (.tooLargeBody 11 10)) [.bytes (ascii " world")]) ∧
      s.buffer = ascii "hello") ∧
    ∃ r fetches s answer, Serves 10 r false ∧
      r.watch (.pullDeclared cutInTrailer) = .ok (fetches, s, answer) ∧ fetches.length = 2 ∧
      s.body = ascii "abc" ∧ ∀ fetch ∈ fetches, fetch.Bounded 10 := by
  constructor
  · have hserves := serves_extend 10 declaredEleven
    obtain ⟨⟨s, result⟩, hparse, hs⟩ := exists_of_map_eq_ok (show
      ((withMaxBody 10).extend declaredEleven).parseHead.map (fun read => (read.1.buffer, read.2)) =
        .ok (ascii "hello", .ok 11) by decide +kernel)
    simp only [Prod.mk.injEq] at hs
    obtain ⟨hbuffer, rfl⟩ := hs
    have hrefused := (bounded_of_serves hserves).2.2 11 [.bytes (ascii " world")] (by omega)
    exact ⟨_, s, hserves, hparse, (hrefused.2 s hparse).1, hbuffer⟩
  · have hserves := serves_extend 10 announcedChunks
    obtain ⟨⟨fetches, s, answer⟩, hwatch, hs⟩ := exists_of_map_eq_ok (show
      (((withMaxBody 10).extend announcedChunks).watch (.pullDeclared cutInTrailer)).map
        (fun seen => (seen.1.length, seen.2.1.body)) = .ok (2, ascii "abc") by decide +kernel)
    simp only [Prod.mk.injEq] at hs
    have hbounded := ((bounded_of_serves hserves).2.1 _).2 _ _ _ hwatch
    exact ⟨_, fetches, s, answer, hserves, hwatch, hs.1, hs.2, hbounded.2⟩

end FrameReader

end CoopHttp
