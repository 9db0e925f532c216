import CoopHttp.Proofs.Frame.Renewal

/-!
# Where octets are fetched

Heads and payloads are read in the same way: the reader tries, and where it is starved it fetches once
and tries again. Here this loop is written once for both, and it notes the states in which it fetches.
Without the notes it is what the operations of a reader do, and every note stands for one fill that was
taken from the source, or for the end of the source.
-/
namespace CoopHttp

variable {σ ρ : Type}

/-- What is read with the help of a source: one attempt, what a fill does to the state, and what the
end of the source and a failed fill come to. -/
structure Fetcher (σ ρ : Type) where
  attempt : σ → σ × FrameReader.Progress ρ
  feed : σ → Bytes → σ
  closed : σ → ρ
  failed : IoError → ρ

namespace Fetcher

/-- Tries and fetches until the attempt is done or the source gives no more. The states in which octets
were fetched come first. -/
def drive (m : Fetcher σ ρ) (s : σ) : Source → List σ × σ × Source × ρ
  | [] =>
    match m.attempt s with
    | (s, .done result) => ([], s, [], result)
    | (s, .starved) => ([s], s, [], m.closed s)
  | fill :: source =>
    match m.attempt s with
    | (s, .done result) => ([], s, fill :: source, result)
    | (s, .starved) =>
      match fill with
      | .failure error => ([s], s, source, m.failed error)
      | .bytes [] => ([s], s, source, m.closed s)
      | .bytes bytes =>
        let (fetches, outcome) := m.drive (m.feed s bytes) source
        (s :: fetches, outcome)

variable {m : Fetcher σ ρ} {s : σ}

/-- Every fetch takes one fill, as long as there is one. -/
theorem rest_drive (m : Fetcher σ ρ) (s : σ) (source : Source) :
    (m.drive s source).2.2.1 = source.drop (m.drive s source).1.length := by
  induction source generalizing s with
  | nil =>
    rw [drive]
    split <;> rfl
  | cons fill source ih =>
    rw [drive]
    split
    · rfl
    · split
      · rfl
      · rfl
      · exact ih _

/-- What every attempt and every fill keep holds at the end and wherever octets are fetched, and there
an attempt has just been starved. -/
theorem drive_invariant {P : σ → Prop}
    (hattempt : ∀ {s s' progress}, P s → m.attempt s = (s', progress) → P s')
    (hfeed : ∀ {s} (bytes : Bytes), P s → P (m.feed s bytes)) (hs : P s) (source : Source) :
    P (m.drive s source).2.1 ∧
      ∀ s' ∈ (m.drive s source).1, ∃ t, P t ∧ m.attempt t = (s', .starved) := by
  induction source generalizing s with
  | nil =>
    rw [drive]
    split <;> rename_i heq
    · exact ⟨hattempt hs heq, by simp⟩
    · refine ⟨hattempt hs heq, fun s' hs' => ?_⟩
      rw [List.mem_singleton.1 hs']
      exact ⟨s, hs, heq⟩
  | cons fill source ih =>
    rw [drive]
    split <;> rename_i s₁ heq
    · exact ⟨hattempt hs heq, by simp⟩
    · have hfetch : ∃ t, P t ∧ m.attempt t = (s₁, .starved) := ⟨s, hs, heq⟩
      split
      · exact ⟨hattempt hs heq, by simpa using hfetch⟩
      · exact ⟨hattempt hs heq, by simpa using hfetch⟩
      · obtain ⟨hend, hfetches⟩ := ih (hfeed _ (hattempt hs heq))
        exact ⟨hend, List.forall_mem_cons.2 ⟨hfetch, hfetches⟩⟩

end Fetcher

/-- A moment at which octets are fetched: the reader, and the decoder that waits for them where it is
a payload that is read. -/
structure Fetch where
  reader : FrameReader
  decoder : Option PayloadDecoder
  deriving DecidableEq

def FrameOperation.source : FrameOperation → Source
  | pullHead source | pullLength _ source | pullChunked source | pullDeclared source => source
  | _ => []

/-- What is left of the source behind an answer. -/
def FrameAnswer.rest : FrameAnswer → Source
  | ready _ rest | payload _ rest => rest
  | _ => []

namespace FrameReader

/-- Reading a head. -/
def headFetcher : Fetcher FrameReader (Except ParseError Bool) where
  attempt := seekHead
  feed := extend
  closed := headAtEnd
  failed error := .error (.io error)

/-- Reading a payload. -/
def payloadFetcher : Fetcher (PayloadDecoder × FrameReader) (Except ParseError Unit) where
  attempt s :=
    let (d, r, progress) := drain s.1 s.2
    ((d, r), progress)
  feed s bytes := (s.1, s.2.extend bytes)
  closed _ := bodyAtEnd
  failed error := .error (.io error)

theorem pullHead_eq_drive (r : FrameReader) (source : Source) :
    r.pullHead source = (headFetcher.drive r source).2 := by
  induction source generalizing r with
  | nil =>
    rcases hseek : r.seekHead with ⟨s, result | _⟩
    · simp only [pullHead, Fetcher.drive, headFetcher, hseek]
    · simp only [pullHead, Fetcher.drive, headFetcher, hseek]
  | cons fill source ih =>
    rcases hseek : r.seekHead with ⟨s, result | _⟩
    · simp only [pullHead, Fetcher.drive, headFetcher, hseek]
    · rcases fill with bytes | error
      · cases bytes with
        | nil => simp only [pullHead, Fetcher.drive, headFetcher, hseek]
        | cons b bytes =>
          simp only [pullHead, Fetcher.drive, headFetcher, hseek]
          exact ih _
      · simp only [pullHead, Fetcher.drive, headFetcher, hseek]

theorem pullPayload_eq_drive (d : PayloadDecoder) (r : FrameReader) (source : Source) :
    r.pullPayload d source =
      let outcome := (payloadFetcher.drive (d, r) source).2
      (outcome.1.2, outcome.2) := by
  induction source generalizing d r with
  | nil =>
    rcases hdrain : drain d r with ⟨d', s, result | _⟩
    · simp only [pullPayload, Fetcher.drive, payloadFetcher, hdrain]
    · simp only [pullPayload, Fetcher.drive, payloadFetcher, hdrain]
  | cons fill source ih =>
    rcases hdrain : drain d r with ⟨d', s, result | _⟩
    · simp only [pullPayload, Fetcher.drive, payloadFetcher, hdrain]
    · rcases fill with bytes | error
      · cases bytes with
        | nil => simp only [pullPayload, Fetcher.drive, payloadFetcher, hdrain]
        | cons b bytes =>
          simp only [pullPayload, Fetcher.drive, payloadFetcher, hdrain]
          exact ih _ _
      · simp only [pullPayload, Fetcher.drive, payloadFetcher, hdrain]

/-- Reads a payload and notes where octets are fetched. -/
def watchPayload (d : PayloadDecoder) (r : FrameReader) (source : Source) :
    List Fetch × FrameReader × FrameAnswer :=
  let (fetches, s, rest, result) := payloadFetcher.drive (d, r) source
  (fetches.map fun s => ⟨s.2, some s.1⟩, s.2, .payload result rest)

/-- Reads a payload behind its head and notes where octets are fetched. -/
def watchBehindHead (r : FrameReader) (d : PayloadDecoder) (source : Source) :
    Except Crash (List Fetch × FrameReader × FrameAnswer) :=
  r.parseHead.map fun
    | (r, .error error) => ([], r, .payload (.error error) source)
    | (r, .ok _) => r.watchPayload d source

/-- Carries out an operation and notes where octets are fetched. -/
def watch (r : FrameReader) :
    FrameOperation → Except Crash (List Fetch × FrameReader × FrameAnswer)
  | .pullHead source =>
    let (fetches, s, rest, result) := headFetcher.drive r source
    .ok (fetches.map fun r => ⟨r, none⟩, s, .ready result rest)
  | .pullLength n source =>
    match r.checkSize n with
    | .error error => .ok ([], r, .payload (.error error) source)
    | .ok () => r.watchBehindHead (.length ⟨n⟩) source
  | .pullChunked source => r.watchBehindHead (.chunked {}) source
  | .pullDeclared source =>
    r.parseHead.map fun
      | (r, .error error) => ([], r, .payload (.error error) source)
      | (r, .ok _) =>
        let size := r.payload.getD .empty
        match r.checkSize size.contentLength with
        | .error error => ([], r, .payload (.error error) source)
        | .ok () => r.watchPayload (.ofSize size) source
  | operation => (r.apply operation).map ([], ·)

theorem watchPayload_snd (d : PayloadDecoder) (r : FrameReader) (source : Source) :
    (r.watchPayload d source).2 =
      ((r.pullPayload d source).1, .payload (r.pullPayload d source).2.2 (r.pullPayload d source).2.1) := by
  rw [pullPayload_eq_drive]
  rfl

theorem watchBehindHead_snd (r : FrameReader) (d : PayloadDecoder) (source : Source) :
    (r.watchBehindHead d source).map (·.2) =
      (r.pullBehindHead d source).map fun (r, rest, result) => (r, .payload result rest) := by
  rw [watchBehindHead, pullBehindHead]
  rcases r.parseHead with _ | ⟨s, _ | _⟩
  · rfl
  · rfl
  · exact congrArg Except.ok (watchPayload_snd d s source)

/-- Without the notes, an operation that is watched is the operation. -/
theorem apply_eq_watch (r : FrameReader) (operation : FrameOperation) :
    r.apply operation = (r.watch operation).map (·.2) := by
  have hplain (x : Except Crash (FrameReader × FrameAnswer)) :
      x = (x.map (([] : List Fetch), ·)).map (·.2) := by
    cases x <;> rfl
  cases operation with
  | pullHead source =>
    rw [apply, pullHead_eq_drive]
    rfl
  | pullLength n source =>
    rw [apply, watch, pullLength]
    rcases r.checkSize n with _ | ⟨⟩
    · rfl
    · exact (watchBehindHead_snd r _ source).symm
  | pullChunked source => exact (watchBehindHead_snd r _ source).symm
  | pullDeclared source =>
    rw [apply, watch, pullDeclared]
    rcases r.parseHead with _ | ⟨s, _ | n⟩
    · rfl
    · rfl
    · simp only [Except.map]
      rcases s.checkSize (s.payload.getD .empty).contentLength with _ | ⟨⟩
      · rfl
      · exact congrArg Except.ok (watchPayload_snd _ s source).symm
  | extend | findEnd | parseHead | takeHead | takeBody | takeTrailers | nextFrame | reset =>
    exact hplain _

theorem rest_watchPayload (d : PayloadDecoder) (r : FrameReader) (source : Source) :
    (r.watchPayload d source).2.2.rest =
      source.drop (r.watchPayload d source).1.length := by
  have hrest := payloadFetcher.rest_drive (d, r) source
  simpa [watchPayload, FrameAnswer.rest] using hrest

theorem rest_watchBehindHead {r s : FrameReader} {d : PayloadDecoder} {source : Source}
    {fetches : List Fetch} {answer : FrameAnswer}
    (h : r.watchBehindHead d source = .ok (fetches, s, answer)) :
    answer.rest = source.drop fetches.length := by
  obtain ⟨⟨t, _ | n⟩, -, hwatch⟩ := exists_of_map_eq_ok h
  · cases hwatch
    rfl
  · have hrest := rest_watchPayload d t source
    rwa [show t.watchPayload d source = (fetches, s, answer) from hwatch] at hrest

/-- As many fills are gone from the source as there were fetches, those at the end of the source
apart. -/
theorem rest_watch {r s : FrameReader} {operation : FrameOperation} {fetches : List Fetch}
    {answer : FrameAnswer} (h : r.watch operation = .ok (fetches, s, answer)) :
    answer.rest = operation.source.drop fetches.length := by
  cases operation with
  | pullHead source =>
    cases h
    simpa [FrameAnswer.rest, FrameOperation.source] using headFetcher.rest_drive r source
  | pullLength n source =>
    rw [watch] at h
    rcases hcheck : r.checkSize n with _ | ⟨⟩
    · rw [hcheck] at h
      cases h
      rfl
    · rw [hcheck] at h
      exact rest_watchBehindHead h
  | pullChunked source => exact rest_watchBehindHead h
  | pullDeclared source =>
    obtain ⟨⟨t, _ | n⟩, -, hwatch⟩ := exists_of_map_eq_ok h
    · cases hwatch
      rfl
    · dsimp only at hwatch
      split at hwatch
      · cases hwatch
        rfl
      · have hrest := rest_watchPayload (.ofSize (t.payload.getD .empty)) t source
        rwa [hwatch] at hrest
  | extend | findEnd | takeHead | takeBody | takeTrailers | reset =>
    cases h
    rfl
  | parseHead | nextFrame =>
    obtain ⟨_, happly, hs⟩ := exists_of_map_eq_ok h
    obtain ⟨_, -, hanswer⟩ := exists_of_map_eq_ok happly
    cases hs
    cases hanswer
    rfl

end FrameReader

end CoopHttp
