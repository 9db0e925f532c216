import CoopHttp.Proofs.Frame.Renewal
import CoopHttp.Proofs.Frame.Search
import CoopHttp.Proofs.Head.Incremental
import CoopHttp.Proofs.Payload.Repeated

/-!
# The longest head

A head may be as long as the limit and not longer. Both the reader, which counts all the octets that
have arrived, and the decoder, which counts those of the head, have a say in this; neither refuses a
head that is within the limit, and a reader that has room for no head fetches nothing more.
-/
namespace CoopHttp

/-- The error does not tell of a head that is too long. -/
def ParseError.Fits (error : ParseError) : Prop := ∀ size limit, error ≠ .tooLargeHeader size limit

theorem Grammar.IsFault.fits {error : ParseError} (h : IsFault error) : error.Fits := by
  rintro size limit rfl
  obtain ⟨fault, h⟩ | h := h <;> cases h

/-! Octets within the limit. -/

theorem Fields.fits_of_ofLines {lines : List Grammar.FieldLine} {error : ParseError}
    (h : Fields.ofLines lines = .error error) : error.Fits := by
  refine foldlM_eq_error (fun fields line e hline => ?_) h
  have hfault : Grammar.IsFault e := by
    split at hline
    · cases hline
      exact Grammar.isFault_invalidHeader _
    · split at hline <;> cases hline
      exact Grammar.isFault_invalidHeader _
  exact hfault.fits

theorem PayloadSize.fits_of_ofFields {fields : Fields} {error : ParseError}
    (h : ofFields fields = .error error) : error.Fits := by
  obtain ⟨size, hsize⟩ | ⟨fault, hfault⟩ := ofFields_cases fields
  · rw [hsize] at h
    cases h
  · rw [hfault] at h
    cases h
    exact fun size limit heq => by cases heq

namespace RequestHead

theorem fits_of_readLine {raw : Grammar.RawHead} {error : ParseError}
    (h : readLine raw = .error error) : error.Fits := by
  rintro size limit rfl
  rw [readLine] at h
  split at h
  · cases h
  · split at h <;> cases h

theorem fits_of_readFields {raw : Grammar.RawHead} {method : Method} {uri : Uri} {error : ParseError}
    (h : readFields raw method uri = .error error) : error.Fits := by
  obtain hlines | ⟨fields, -, h⟩ := bind_eq_error h
  · exact Fields.fits_of_ofLines hlines
  · obtain hsize | ⟨size, -, h⟩ := bind_eq_error h
    · exact PayloadSize.fits_of_ofFields hsize
    · cases h

/-- Octets that are within the limit are not refused for being too many. -/
theorem fits_of_decode {src : Bytes} (hle : src.length ≤ maxHeadBytes) {error : ParseError}
    (h : (decode src).result = .error error) : error.Fits := by
  cases hhead : Grammar.head src with
  | bad error' =>
    simp only [decode, hhead, Except.error.injEq] at h
    exact h ▸ (Grammar.orderly_head.isFault src error' hhead).fits
  | more =>
    rw [decode_of_more hhead, if_pos hle] at h
    cases h
  | done raw rest =>
    have hsize : src.length - rest.length ≤ maxHeadBytes := (Nat.sub_le _ _).trans hle
    simp only [decode, hhead, if_pos hsize] at h
    split at h
    · rename_i error' hline
      cases h
      exact fits_of_readLine hline
    · rename_i method uri hline
      cases hfields : readFields raw method uri with
      | error error' =>
        rw [hfields] at h
        cases h
        exact fits_of_readFields hfields
      | ok head =>
        rw [hfields] at h
        cases h

end RequestHead

namespace FrameReader

variable {r : FrameReader}

/-- With the last of these segments, and not before, the octets reach the limit of a head. -/
structure FillsUp (buffer : Bytes) (segments : List Bytes) : Prop where
  full : maxHeadBytes ≤ (buffer ++ segments.flatten).length
  notBefore : ∀ fewer, fewer <+: segments → fewer ≠ segments →
    (buffer ++ fewer.flatten).length < maxHeadBytes

theorem fillsUp_nil {buffer : Bytes} (h : maxHeadBytes ≤ buffer.length) : FillsUp buffer [] where
  full := by simpa using h
  notBefore fewer hprefix hne := absurd (List.prefix_nil.1 hprefix) hne

theorem FillsUp.cons {buffer segment : Bytes} {segments : List Bytes}
    (hlt : buffer.length < maxHeadBytes) (h : FillsUp (buffer ++ segment) segments) :
    FillsUp buffer (segment :: segments) where
  full := by simpa using h.full
  notBefore fewer hprefix hne := by
    obtain rfl | ⟨fewer, rfl, hfewer⟩ := List.prefix_cons_iff.1 hprefix
    · simpa using hlt
    · simpa using h.notBefore fewer hfewer fun heq => hne (heq ▸ rfl)

theorem headAtEnd_ne_ok_true (r : FrameReader) : r.headAtEnd ≠ .ok true := by
  rw [headAtEnd]
  split_ifs <;> simp

/-- A head that is found leaves the source behind it as it is. -/
theorem pullHead_append {source rest : Source} {r s : FrameReader}
    (h : r.pullHead source = (s, rest, .ok true)) (later : Source) :
    r.pullHead (source ++ later) = (s, rest ++ later, .ok true) := by
  induction source generalizing r with
  | nil =>
    rw [pullHead] at h
    rcases hseek : r.seekHead with ⟨t, result | _⟩ <;> rw [hseek] at h
    · cases h
      exact pullHead_of_done hseek later
    · exact absurd (congrArg (·.2.2) h) t.headAtEnd_ne_ok_true
  | cons fill source ih =>
    rw [pullHead] at h
    rcases hseek : r.seekHead with ⟨t, result | _⟩ <;> rw [hseek] at h
    · cases h
      exact pullHead_of_done hseek (fill :: source ++ later)
    · rw [List.cons_append, pullHead, hseek]
      rcases fill with (_ | ⟨b, bytes⟩) | error
      · exact absurd (congrArg (·.2.2) h) t.headAtEnd_ne_ok_true
      · exact ih h
      · cases h

/-- Where no head ends, octets are fetched until the buffer is full, and no longer. -/
theorem Seeking.pullHead_refused {segments : List Bytes} (hne : ∀ s ∈ segments, s ≠ [])
    {r : FrameReader} {read unread : Bytes} (h : Seeking r read)
    (hbuffer : r.buffer = read ++ unread) {t : Terminator}
    (hpasses : Terminator.start.Passes (r.buffer ++ segments.flatten) t)
    (hfull : maxHeadBytes ≤ (r.buffer ++ segments.flatten).length) (later : Source) :
    ∃ front back s, segments = front ++ back ∧ FillsUp r.buffer front ∧
      r.pullHead (segments.map Fill.bytes ++ later) = (s, back.map Fill.bytes ++ later,
        .error (.tooLargeHeader (r.buffer ++ front.flatten).length maxHeadBytes)) := by
  induction segments generalizing r read unread with
  | nil =>
    rw [List.flatten_nil, List.append_nil] at hpasses hfull
    obtain ⟨s, hseek⟩ := h.seekHead_of_full hbuffer hpasses hfull
    refine ⟨[], [], s, rfl, fillsUp_nil hfull, ?_⟩
    rw [pullHead_of_done hseek, List.flatten_nil, List.append_nil]
  | cons segment segments ih =>
    -- No head ends in what has arrived so far either, so the length of the buffer decides.
    obtain ⟨m, hsofar⟩ := hpasses.exists_of_append
    by_cases hlt : r.buffer.length < maxHeadBytes
    · have hlater : ∀ s ∈ segments, s ≠ [] := fun s hs => hne s (by simp [hs])
      rw [List.flatten_cons, ← List.append_assoc] at hpasses hfull
      obtain ⟨_, hextended, rfl, hpull⟩ := h.pullHead_of_passes hbuffer hsofar hlt
        (hne segment (by simp)) (segments.map Fill.bytes ++ later)
      obtain ⟨front, back, s, rfl, hfills, hrefused⟩ := ih hlater hextended rfl hpasses hfull
      refine ⟨segment :: front, back, s, rfl, hfills.cons hlt, ?_⟩
      rw [List.map_cons, List.cons_append, hpull, hrefused]
      simp [extend]
    · obtain ⟨s, hseek⟩ := h.seekHead_of_full hbuffer hsofar (Nat.le_of_not_lt hlt)
      refine ⟨[], segment :: segments, s, rfl, fillsUp_nil (Nat.le_of_not_lt hlt), ?_⟩
      rw [pullHead_of_done hseek, List.flatten_nil, List.append_nil]

theorem fits_of_readHead {bytes : Bytes} (hle : bytes.length ≤ maxHeadBytes) {error : ParseError}
    (h : (r.readHead bytes).2 = .error error) : error.Fits := by
  rw [readHead] at h
  split at h
  · rename_i error' hdecode
    cases h
    exact RequestHead.fits_of_decode hle hdecode
  · cases h
    exact (Grammar.isFault_invalidHeader _).fits
  · cases h

/-- A head that has been found within the limit is not refused for being too long. -/
theorem fits_of_parseHead {e : HeadEnd} (hpayload : r.payload = none) (hending : r.ending = some e)
    (hbuffer : e.bodyStart ≤ r.buffer.length) (hle : e.bodyStart ≤ maxHeadBytes) :
    ∃ t result, r.parseHead = .ok (t, result) ∧ ∀ error, result = .error error → error.Fits := by
  have hparse := parseHead_of_findEnd hpayload (findEnd_of_ending hending) hbuffer
  have hlength : (r.buffer.take e.bodyStart).length ≤ maxHeadBytes := by
    rw [List.length_take]
    exact (Nat.min_le_left _ _).trans hle
  exact ⟨_, _, hparse, fun error => fits_of_readHead hlength⟩

/-- Nothing has been read of a request yet: the reader is a new one, or one that has gone on to its
next request, with what is left in its buffer. -/
def Begins (r : FrameReader) : Prop :=
  (∃ maxBody, r = withMaxBody maxBody) ∨ ∃ q : FrameReader, q.nextFrame = .ok r

theorem Begins.seeking (h : Begins r) : Seeking r [] ∧ r.payload = none := by
  have hfresh : ∃ maxBody buffer, r = (withMaxBody maxBody).extend buffer := by
    obtain ⟨maxBody, rfl⟩ | ⟨q, hq⟩ := h
    · exact ⟨maxBody, [], rfl⟩
    · exact ⟨q.maxBody, exists_of_nextFrame hq⟩
  obtain ⟨maxBody, buffer, rfl⟩ := hfresh
  exact ⟨⟨rfl, Terminator.passes_nil _, rfl⟩, rfl⟩

/-- However the octets are cut into fills and whatever the source does behind them, a reader that
begins a request finds a head that ends within the limit, counted from the octets that it holds, and
does not refuse it for its length. If no head ends in so many octets as the limit or more, it fetches
no fill behind the one that makes them so many, and refuses them. -/
theorem head_limit_of_begins (h : Begins r) {segments : List Bytes} (hne : ∀ s ∈ segments, s ≠ [])
    (later : Source) :
    (∀ e, FirstEnd (r.buffer ++ segments.flatten) e → e.bodyStart ≤ maxHeadBytes →
      ∃ s rest t result, r.pullHead (segments.map Fill.bytes ++ later) = (s, rest, .ok true) ∧
        s.parseHead = .ok (t, result) ∧
        ∀ size limit, result ≠ .error (.tooLargeHeader size limit)) ∧
      (NoEnd (r.buffer ++ segments.flatten) →
        maxHeadBytes ≤ (r.buffer ++ segments.flatten).length →
        ∃ front back s, segments = front ++ back ∧ FillsUp r.buffer front ∧
          r.pullHead (segments.map Fill.bytes ++ later) = (s, back.map Fill.bytes ++ later,
            .error (.tooLargeHeader (r.buffer ++ front.flatten).length maxHeadBytes))) := by
  obtain ⟨hseeking, hpayload⟩ := h.seeking
  refine ⟨fun e he hle => ?_, fun hnone hfull => ?_⟩
  · obtain ⟨t, hrun⟩ := (Terminator.exists_run_iff _ e).2 he
    obtain ⟨arrived, rest, -, hcovers, hpull⟩ := hseeking.pullHead_eq hne rfl hrun hle
    have hstart : e.bodyStart - e.length = e.offset := Nat.add_sub_cancel ..
    rw [hstart] at hpull
    obtain ⟨t', result, hparse, hfits⟩ := fits_of_parseHead
      (r := { r with buffer := r.buffer ++ arrived.flatten, matcher := t, scanned := e.bodyStart,
                     ending := some e }) hpayload rfl hcovers hle
    exact ⟨_, _, t', result, pullHead_append hpull later, hparse, fun size limit hresult =>
      hfits _ hresult size limit rfl⟩
  · obtain ⟨t, hpasses⟩ := (Terminator.exists_passes_iff _).2 hnone
    exact hseeking.pullHead_refused hne rfl hpasses hfull later

/-- The beginning of a head, behind a request. -/
def headBegun : Bytes := ascii "GET / HTTP/1.1\r\na:"

/-- A reader that has gone on from one request to the next. -/
def behindRequest : Except Crash FrameReader :=
  (fresh.extend (ascii "GET / HTTP/1.0\r\n\r\n" ++ headBegun)).parseHead.bind fun (r, _) =>
    (r.pullDeclared []).bind fun (r, _) => r.nextFrame

/-- Octets of no line break. -/
def filler (n : ℕ) : Bytes := List.replicate n 97

theorem length_filler (n : ℕ) : (filler n).length = n := List.length_replicate

theorem length_headBegun : headBegun.length = 18 := by decide +kernel

theorem passes_headBegun_filler {n : ℕ} (hn : n ≠ 0) :
    Terminator.start.Passes (headBegun ++ filler n) .start := by
  have hbegun : Terminator.start.run headBegun = (.start, 18, none) := by decide +kernel
  have hne : filler n ≠ [] := fun h => hn (by rw [← length_filler n, h, List.length_nil])
  refine Terminator.Passes.trans (hbegun.trans (by rw [length_headBegun]))
    (Terminator.passes_word hne (fun b hb => ?_) .start)
  rw [List.eq_of_mem_replicate hb]
  rfl

theorem length_headBegun_filler (n : ℕ) : (headBegun ++ filler n).length = 18 + n := by
  rw [List.length_append, length_headBegun, length_filler]

theorem firstEnd_headBegun_filler {n : ℕ} (hn : n ≠ 0) :
    FirstEnd (headBegun ++ filler n ++ (Bytes.crlf ++ Bytes.crlf)) ⟨18 + n, 4⟩ := by
  have hrun := (passes_headBegun_filler hn).run_append (Bytes.crlf ++ Bytes.crlf)
  have hclosing : Terminator.start.run (Bytes.crlf ++ Bytes.crlf) = (.start, 4, some 4) := by
    decide
  rw [hclosing, length_headBegun_filler] at hrun
  exact Terminator.firstEnd_of_run hrun

/-- Behind a request and the beginning of a head, a head that ends with octet 8192 is found and fits,
and 8192 octets without an end of a head are refused before more are fetched. -/
theorem exists_begins_longestHead :
    ∃ r : FrameReader, behindRequest = .ok r ∧ r.buffer = headBegun ∧
      ∀ later : Source,
        (∃ s rest t result,
          r.pullHead (.bytes (filler 8170) :: .bytes (Bytes.crlf ++ Bytes.crlf) :: later) =
            (s, rest, .ok true) ∧ s.parseHead = .ok (t, result) ∧
          ∀ size limit, result ≠ .error (.tooLargeHeader size limit)) ∧
        ∃ s, r.pullHead (.bytes (filler 8174) :: later) =
          (s, later, .error (.tooLargeHeader 8192 8192)) := by
  obtain ⟨r, hr, hbuffer⟩ := exists_of_map_eq_ok
    (show behindRequest.map buffer = .ok headBegun by decide +kernel)
  have hbegins : Begins r := by
    obtain ⟨⟨p, _⟩, -, hp⟩ := exists_of_bind_eq_ok hr
    obtain ⟨⟨q, _⟩, -, hq⟩ := exists_of_bind_eq_ok hp
    exact .inr ⟨q, hq⟩
  have hfiller {n : ℕ} (hn : n ≠ 0) : filler n ≠ [] := fun h =>
    hn (by rw [← length_filler n, h, List.length_nil])
  refine ⟨r, hr, hbuffer, fun later => ⟨?_, ?_⟩⟩
  · have hne : ∀ s ∈ [filler 8170, Bytes.crlf ++ Bytes.crlf], s ≠ [] := by
      rintro s (_ | ⟨_, _ | ⟨_, ⟨⟩⟩⟩)
      · exact hfiller (by decide)
      · exact List.cons_ne_nil _ _
    have hends : FirstEnd (r.buffer ++ [filler 8170, Bytes.crlf ++ Bytes.crlf].flatten)
        ⟨18 + 8170, 4⟩ := by
      rw [hbuffer, List.flatten_cons, List.flatten_singleton, ← List.append_assoc]
      exact firstEnd_headBegun_filler (by decide)
    exact (head_limit_of_begins hbegins hne later).1 _ hends le_rfl
  · have hne : ∀ s ∈ [filler 8174], s ≠ [] := by
      rintro s (_ | ⟨_, ⟨⟩⟩)
      exact hfiller (by decide)
    have hflatten : r.buffer ++ [filler 8174].flatten = headBegun ++ filler 8174 := by
      rw [hbuffer, List.flatten_singleton]
    have hlength : (headBegun ++ filler 8174).length = 8192 := length_headBegun_filler 8174
    obtain ⟨front, back, s, hsplit, hfills, hpull⟩ := (head_limit_of_begins hbegins hne later).2
      (hflatten ▸ Terminator.noEnd_of_passes (passes_headBegun_filler (by decide)))
      (hflatten ▸ hlength.ge)
    -- The beginning alone does not fill the buffer, so the fill is taken.
    cases front with
    | nil =>
      have hfull := hfills.full
      rw [hbuffer, List.flatten_nil, List.append_nil, length_headBegun] at hfull
      exact absurd hfull (by decide)
    | cons segment front =>
      obtain ⟨rfl, hnil⟩ := List.cons.inj hsplit
      obtain ⟨rfl, rfl⟩ := List.append_eq_nil_iff.1 hnil.symm
      rw [hflatten, hlength] at hpull
      exact ⟨s, hpull⟩

end FrameReader

end CoopHttp
