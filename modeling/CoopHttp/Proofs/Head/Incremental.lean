import CoopHttp.Proofs.Except
import CoopHttp.Proofs.Head.Decode

/-!
# Heads that arrive bit by bit

What the reader of heads has come to, it comes to whatever follows: a part that it is done with stays
done, and an octet that it refuses is refused as soon as it is reached. So a head may be tried again
with every segment that arrives, and the outcome is that of one attempt on everything.
-/
namespace CoopHttp

namespace Grammar

variable {α β : Type}

/-- The outcome with more octets behind what is left. -/
def Scan.followedBy (t : Bytes) : Scan α → Scan α
  | done value rest => .done value (rest ++ t)
  | more => .more
  | bad error => .bad error

/-- The error tells of an octet out of place or of too many lines. -/
def IsFault (error : ParseError) : Prop :=
  (∃ fault, error = .invalidHeader fault) ∨ error = .tooManyHeaders maxFields

/-- A reader of a part of a head that does not go back on what it has come to when more octets follow,
and that refuses only what is against the grammar. -/
structure Orderly (read : Bytes → Scan α) : Prop where
  append : ∀ s t, read s ≠ .more → read (s ++ t) = (read s).followedBy t
  isFault : ∀ s error, read s = .bad error → IsFault error

namespace Orderly

theorem done (a : α) : Orderly fun rest => .done a rest where
  append _ _ _ := rfl
  isFault _ _ h := nomatch h

/-- One part is read behind another. -/
theorem bind {read : Bytes → Scan α} {next : α → Bytes → Scan β} (hread : Orderly read)
    (hnext : ∀ a, Orderly (next a)) : Orderly fun s => (read s).bind next where
  append s t h := by
    have happend := hread.append s t
    cases hfirst : read s with
    | done a mid =>
      simp only [hfirst, Scan.bind] at h happend ⊢
      rw [happend (by simp), Scan.followedBy]
      exact (hnext a).append mid t h
    | more =>
      rw [hfirst] at h
      exact absurd rfl h
    | bad error =>
      rw [hfirst] at happend
      simp only [happend (by simp), Scan.followedBy, Scan.bind]
  isFault s error h := by
    cases hfirst : read s with
    | done a mid =>
      rw [hfirst] at h
      exact (hnext a).isFault mid error h
    | more =>
      rw [hfirst] at h
      cases h
    | bad error' =>
      rw [hfirst] at h
      cases h
      exact hread.isFault s error hfirst

theorem map {read : Bytes → Scan α} (hread : Orderly read) (f : α → β) :
    Orderly fun s => (read s).map f :=
  hread.bind fun a => done (f a)

/-- A part that needs an octet to come to anything, and whose outcome is settled by it. -/
theorem of_cons {read : Bytes → Scan α} (hnil : read [] = .more)
    (happend : ∀ b s t, read (b :: s) ≠ .more → read (b :: (s ++ t)) = (read (b :: s)).followedBy t)
    (hfault : ∀ b s error, read (b :: s) = .bad error → IsFault error) : Orderly read where
  append s t h := by
    cases s with
    | nil => exact absurd hnil h
    | cons b s => exact happend b s t h
  isFault s error h := by
    cases s with
    | nil =>
      rw [hnil] at h
      cases h
    | cons b s => exact hfault b s error h

end Orderly

theorem isFault_invalidHeader (fault : HeadFault) : IsFault (.invalidHeader fault) :=
  .inl ⟨fault, rfl⟩

/-! Line breaks and fixed octets. -/

theorem orderly_lineFeed (fault : HeadFault) : Orderly (lineFeed fault) := by
  refine .of_cons rfl (fun b s t _ => ?_) fun b s error h => ?_
  · rw [lineFeed, lineFeed]
    split_ifs <;> rfl
  · rw [lineFeed] at h
    split_ifs at h
    cases h
    exact isFault_invalidHeader fault

theorem orderly_lineBreak (fault : HeadFault) : Orderly (lineBreak fault) := by
  refine .of_cons rfl (fun b s t h => ?_) fun b s error h => ?_
  · rw [lineBreak] at h ⊢
    rw [lineBreak]
    split_ifs at h ⊢
    · rfl
    · exact (orderly_lineFeed fault).append s t h
    · rfl
  · rw [lineBreak] at h
    split_ifs at h
    · exact (orderly_lineFeed fault).isFault s error h
    · cases h
      exact isFault_invalidHeader fault

theorem orderly_expected (fault : HeadFault) (es : Bytes) : Orderly (expected fault es) := by
  induction es with
  | nil => exact Orderly.done ()
  | cons e es ih =>
    refine .of_cons rfl (fun b s t h => ?_) fun b s error h => ?_
    · rw [expected] at h ⊢
      rw [expected]
      split_ifs at h ⊢
      · exact ih.append s t h
      · rfl
    · rw [expected] at h
      split_ifs at h
      · exact ih.isFault s error h
      · cases h
        exact isFault_invalidHeader fault

/-- The empty lines in front of a head; a CR alone is not settled by itself. -/
theorem append_skipEmptyLines (s t : Bytes) (h : skipEmptyLines s ≠ .more) :
    skipEmptyLines (s ++ t) = (skipEmptyLines s).followedBy t := by
  fun_induction skipEmptyLines s with
  | case1 | case3 => exact absurd rfl h
  | case2 s ih =>
    rw [← ih h]
    exact skipEmptyLines_lineBreak .lf (s ++ t)
  | case4 s hlf ih =>
    rw [← ih h]
    exact skipEmptyLines_lineBreak .crlf (s ++ t)
  | case5 c s hlf hc =>
    unfold skipEmptyLines
    simp only [List.cons_append, if_neg hlf, if_neg hc, if_true]
    rfl
  | case6 b s hlf hcr =>
    unfold skipEmptyLines
    simp only [List.cons_append, if_neg hlf, if_neg hcr]
    rfl

theorem orderly_skipEmptyLines : Orderly skipEmptyLines where
  append := append_skipEmptyLines
  isFault s error h := by
    fun_induction skipEmptyLines s with
    | case1 | case3 | case6 => cases h
    | case2 s ih => exact ih h
    | case4 s hlf ih => exact ih h
    | case5 =>
      cases h
      exact isFault_invalidHeader _

/-! Words. -/

/-- A word is settled as soon as an octet stands behind it. -/
theorem span_append {p : UInt8 → Bool} {s word rest : Bytes} {b : UInt8}
    (h : s.span p = (word, b :: rest)) (t : Bytes) :
    (s ++ t).span p = (word, b :: rest ++ t) := by
  have hb : p b = false := by
    have hdrop : s.dropWhile p = b :: rest := by
      rw [List.span_eq_takeWhile_dropWhile] at h
      exact (Prod.mk.inj h).2
    have hfirst := List.head?_dropWhile_not p s
    rw [hdrop] at hfirst
    exact hfirst
  obtain ⟨hword, rfl⟩ := (span_eq_iff hb).1 h
  rw [List.append_assoc]
  exact (span_eq_iff hb).2 ⟨hword, rfl⟩

/-- Reads a word and the octet behind it, and judges both. -/
theorem orderly_word (p : UInt8 → Bool) (accepts : Bytes → UInt8 → Prop)
    [∀ word b, Decidable (accepts word b)] (fault : HeadFault) {read : Bytes → Scan Bytes}
    (hnil : ∀ s word, s.span p = (word, []) → read s = .more)
    (hcons : ∀ s word b rest, s.span p = (word, b :: rest) → read s =
      if accepts word b then .done word rest else .bad (.invalidHeader fault)) : Orderly read where
  append s t h := by
    rcases hspan : s.span p with ⟨word, _ | ⟨b, rest⟩⟩
    · exact absurd (hnil s word hspan) h
    · rw [hcons s word b rest hspan, hcons (s ++ t) word b (rest ++ t) (span_append hspan t)]
      split_ifs <;> rfl
  isFault s error h := by
    rcases hspan : s.span p with ⟨word, _ | ⟨b, rest⟩⟩
    · rw [hnil s word hspan] at h
      cases h
    · rw [hcons s word b rest hspan] at h
      split_ifs at h
      cases h
      exact isFault_invalidHeader fault

theorem orderly_method : Orderly method := by
  refine orderly_word isWordByte (fun word b => b = Bytes.space ∧ word ≠ []) .invalidToken
    (fun s word hspan => ?_) fun s word b rest hspan => ?_
  · simp only [method, hspan]
  · simp only [method, hspan]

theorem orderly_target : Orderly target := by
  refine orderly_word isTargetByte
    (fun word b => b = Bytes.space ∧ word ≠ [] ∧ Utf8.isValid word) .invalidToken
    (fun s word hspan => ?_) fun s word b rest hspan => ?_
  · simp only [target, hspan]
  · simp only [target, hspan]

theorem orderly_fieldName : Orderly fieldName := by
  refine orderly_word isWordByte (fun word b => b = 58 ∧ word ≠ []) .invalidName
    (fun s word hspan => ?_) fun s word b rest hspan => ?_
  · simp only [fieldName, hspan]
  · simp only [fieldName, hspan]

/-! Whole heads. -/

theorem orderly_version : Orderly version := by
  refine (orderly_expected .invalidVersion _).bind fun _ => ?_
  refine .of_cons rfl (fun b s t _ => ?_) fun b s error h => ?_
  · dsimp only
    split_ifs <;> rfl
  · dsimp only at h
    split_ifs at h
    cases h
    exact isFault_invalidHeader _

/-- A value is settled as soon as the line break behind it is. -/
theorem orderly_fieldValue : Orderly fieldValue := by
  have hbreak := orderly_lineBreak .invalidValue
  constructor
  case append =>
    intro s t h
    cases hline : s.dropWhile Bytes.isBlank with
    | nil =>
      simp [fieldValue, hline, lineBreak, Scan.map, Scan.bind] at h
    | cons b line =>
      have hlonger : (s ++ t).dropWhile Bytes.isBlank = b :: line ++ t := by
        rw [List.dropWhile_append, hline]
        simp
      rcases hspan : (b :: line).span isTextByte with ⟨word, rest⟩
      simp only [fieldValue, hline, hlonger, hspan] at h ⊢
      cases rest with
      | nil => simp [lineBreak, Scan.map, Scan.bind] at h
      | cons c rest =>
        rw [span_append hspan t]
        exact (hbreak.map fun _ => _).append (c :: rest) t h
  case isFault =>
    intro s error h
    exact (hbreak.map fun _ => _).isFault _ error h

theorem orderly_fieldLine : Orderly fieldLine :=
  orderly_fieldName.bind fun _ => orderly_fieldValue.map _

/-- Field lines are read up to an empty line, whatever is done behind the first of them. -/
theorem orderly_fieldLines_of {room : ℕ} {next : FieldLine → Bytes → Scan (List FieldLine)}
    (hnext : ∀ line, Orderly (next line))
    (hline : ∀ b s, isBreakByte b = false →
      fieldLines room (b :: s) = (fieldLine (b :: s)).bind next) : Orderly (fieldLines room) := by
  have hempty : Orderly fun s => (lineBreak .invalidNewLine s).map fun _ => ([] : List FieldLine) :=
    (orderly_lineBreak _).map _
  have hlines : Orderly fun s => (fieldLine s).bind next := orderly_fieldLine.bind hnext
  refine .of_cons (by unfold fieldLines; rfl) (fun b s t h => ?_) fun b s error h => ?_
  · cases hb : isBreakByte b with
    | true =>
      rw [fieldLines_of_break hb] at h ⊢
      rw [fieldLines_of_break hb]
      exact hempty.append (b :: s) t h
    | false =>
      rw [hline b _ hb] at h ⊢
      rw [hline b _ hb]
      exact hlines.append (b :: s) t h
  · cases hb : isBreakByte b with
    | true =>
      rw [fieldLines_of_break hb] at h
      exact hempty.isFault (b :: s) error h
    | false =>
      rw [hline b _ hb] at h
      exact hlines.isFault (b :: s) error h

theorem orderly_fieldLines (room : ℕ) : Orderly (fieldLines room) := by
  induction room with
  | zero =>
    refine orderly_fieldLines_of (fun line => ?_) fun b s hb => fieldLines_of_not_break hb
    refine ⟨fun s t _ => rfl, fun s error h => ?_⟩
    cases h
    exact .inr rfl
  | succ room ih =>
    exact orderly_fieldLines_of (fun line => ih.map (line :: ·)) fun b s hb =>
      fieldLines_of_not_break hb

theorem orderly_head : Orderly head :=
  orderly_skipEmptyLines.bind fun _ => orderly_method.bind fun _ => orderly_target.bind fun _ =>
    orderly_version.bind fun _ => (orderly_lineBreak _).bind fun _ => (orderly_fieldLines _).map _

/-- A head that the octets so far leave open ends behind all of them. -/
theorem length_rest_le_of_more {s t rest : Bytes} {raw : RawHead} (hmore : head s = .more)
    (hdone : head (s ++ t) = .done raw rest) : rest.length ≤ t.length := by
  by_contra hlt
  obtain ⟨text, rfl, hsplit⟩ := head_eq_done_iff.1 hdone
  obtain ⟨left, hs, -⟩ | ⟨left, -, ht⟩ := List.append_eq_append_iff.1 hsplit.symm
  · have hhead : head s = .done text.raw left := head_eq_done_iff.2 ⟨text, rfl, hs⟩
    rw [hmore] at hhead
    cases hhead
  · have hlength := congrArg List.length ht
    simp only [List.length_append] at hlength
    omega

end Grammar

namespace RequestHead

/-- The outcome of an attempt with more octets behind what is left. -/
def Decoded.followedBy (t : Bytes) (d : Decoded) : Decoded := ⟨d.result, d.rest ++ t⟩

/-- An attempt that gets beyond the grammar of the head comes to the same whatever follows. -/
theorem decode_append {src : Bytes} (h : Grammar.head src ≠ .more) (t : Bytes) :
    decode (src ++ t) = (decode src).followedBy t := by
  have happend := Grammar.orderly_head.append src t h
  cases hhead : Grammar.head src with
  | done raw rest =>
    obtain ⟨text, -, rfl⟩ := Grammar.head_eq_done_iff.1 hhead
    rw [List.append_assoc, decode_bytes, decode_bytes]
    split_ifs
    · split
      · rw [Decoded.followedBy, List.append_assoc]
      · rfl
    · rw [Decoded.followedBy, List.append_assoc]
  | more => exact absurd hhead h
  | bad error =>
    rw [hhead, Grammar.Scan.followedBy] at happend
    rw [decode, decode, happend, hhead]
    rfl

/-- An attempt on a head that is left open: nothing yet, unless there are too many octets. -/
theorem decode_of_more {src : Bytes} (h : Grammar.head src = .more) :
    decode src = if src.length ≤ maxHeadBytes then ⟨.ok none, src⟩
      else ⟨.error (.tooLargeHeader src.length maxHeadBytes), src⟩ := by
  rw [decode, h]

/-- A head that is accepted is accepted with anything behind it, which is left as it is. -/
theorem decode_append_of_some {src rest : Bytes} {head : RequestHead × PayloadSize}
    (h : decode src = ⟨.ok (some head), rest⟩) (t : Bytes) :
    decode (src ++ t) = ⟨.ok (some head), rest ++ t⟩ := by
  have hhead : Grammar.head src ≠ .more := by
    intro hmore
    rw [decode_of_more hmore] at h
    split_ifs at h <;> cases h
  rw [decode_append hhead, h]
  rfl

/-- A head that is refused is refused with anything behind it. -/
theorem decode_append_of_error {src : Bytes} {error : ParseError}
    (h : (decode src).result = .error error) (t : Bytes) :
    ∃ error', (decode (src ++ t)).result = .error error' := by
  by_cases hmore : Grammar.head src = .more
  · -- There are too many octets already, and the head does not end among them.
    have hlong : ¬ src.length ≤ maxHeadBytes := by
      intro hle
      rw [decode_of_more hmore, if_pos hle] at h
      cases h
    have hlonger : ¬ (src ++ t).length ≤ maxHeadBytes := by
      rw [List.length_append]
      omega
    cases hhead : Grammar.head (src ++ t) with
    | done raw rest =>
      have hrest := Grammar.length_rest_le_of_more hmore hhead
      have hsize : ¬ (src ++ t).length - rest.length ≤ maxHeadBytes := by
        rw [List.length_append]
        omega
      exact ⟨_, by simp only [decode, hhead, if_neg hsize]; rfl⟩
    | more =>
      rw [decode_of_more hhead, if_neg hlonger]
      exact ⟨_, rfl⟩
    | bad error' => exact ⟨error', by simp only [decode, hhead]⟩
  · rw [decode_append hmore]
    exact ⟨error, h⟩

/-- An attempt that comes to nothing yet is at a head that is left open, and leaves the octets. -/
theorem eq_of_none {src : Bytes} (h : (decode src).result = .ok none) :
    decode src = ⟨.ok none, src⟩ := by
  have hmore : Grammar.head src = .more := by
    cases hhead : Grammar.head src with
    | more => rfl
    | bad error => simp [decode, hhead] at h
    | done raw rest =>
      exfalso
      simp only [decode, hhead] at h
      split_ifs at h
      split at h
      · cases h
      · obtain ⟨head, -, hsome⟩ := exists_of_map_eq_ok h
        cases hsome
  rw [decode_of_more hmore] at h ⊢
  split_ifs at h ⊢
  rfl

/-- What can be told of attempts on a head that arrives in segments: it was accepted, and so many
octets were taken for it; it was refused; or more is awaited. -/
inductive Verdict
  | accepted (head : RequestHead × PayloadSize) (consumed : ℕ)
  | refused
  | waiting

/-- Tries again with every segment, behind the octets that the last attempt has left. So many octets
have arrived before. -/
def verdictFrom (pending : Bytes) (arrived : ℕ) : List Bytes → Verdict
  | [] => .waiting
  | segment :: segments =>
    let decoded := decode (pending ++ segment)
    match decoded.result with
    | .ok (some head) => .accepted head (arrived + segment.length - decoded.rest.length)
    | .ok none => verdictFrom decoded.rest (arrived + segment.length) segments
    | .error _ => .refused

/-- The verdict on a head that arrives in segments. -/
def verdict (segments : List Bytes) : Verdict := verdictFrom [] 0 segments

/-- What one attempt comes to. -/
theorem verdict_singleton (src : Bytes) : verdict [src] =
    match decode src with
    | ⟨.ok (some head), rest⟩ => .accepted head (src.length - rest.length)
    | ⟨.ok none, _⟩ => .waiting
    | ⟨.error _, _⟩ => .refused := by
  simp only [verdict, verdictFrom, List.nil_append, Nat.zero_add]
  rcases decode src with ⟨⟨_⟩ | ⟨_ | _⟩, _⟩ <;> rfl

/-- Attempts that have come to nothing with the octets `src` come, with the segments that follow, to
what one attempt on everything comes to. -/
theorem verdictFrom_of_none {src : Bytes} (hnone : (decode src).result = .ok none)
    (segments : List Bytes) :
    verdictFrom src src.length segments = verdict [src ++ segments.flatten] := by
  induction segments generalizing src with
  | nil => rw [List.flatten_nil, List.append_nil, verdict_singleton, eq_of_none hnone, verdictFrom]
  | cons segment segments ih =>
    -- The next attempt settles the whole, or comes to nothing with one segment more behind it.
    rw [List.flatten_cons, ← List.append_assoc, verdictFrom, ← List.length_append]
    rcases hdecoded : decode (src ++ segment) with ⟨⟨error⟩ | ⟨_ | head⟩, rest⟩
    · obtain ⟨error', hwhole⟩ :=
        decode_append_of_error (congrArg Decoded.result hdecoded) segments.flatten
      rw [verdict_singleton]
      rcases hd : decode (src ++ segment ++ segments.flatten) with ⟨result, rest'⟩
      rw [hd] at hwhole
      cases hwhole
      rfl
    · have hagain : (decode (src ++ segment)).result = .ok none := congrArg Decoded.result hdecoded
      have hrest := congrArg Decoded.rest ((eq_of_none hagain).symm.trans hdecoded)
      dsimp only at hrest ⊢
      rw [← hrest]
      exact ih hagain
    · rw [verdict_singleton, decode_append_of_some hdecoded]
      simp only [List.length_append, Verdict.accepted.injEq, true_and]
      omega

/-- A head is decoded once and for all. If an attempt accepts it, so does an attempt with more octets
behind, and leaves these; if it refuses, so does the longer one; and if it comes to nothing, the
octets are left. So a head that arrives in segments, tried again with every one of them, gets the
verdict of one attempt on everything. -/
theorem decode_stable :
    (∀ src more : Bytes,
      (∀ head rest, decode src = ⟨.ok (some head), rest⟩ →
        decode (src ++ more) = ⟨.ok (some head), rest ++ more⟩) ∧
      (∀ error, (decode src).result = .error error →
        ∃ error', (decode (src ++ more)).result = .error error') ∧
      ((decode src).result = .ok none → (decode src).rest = src)) ∧
      ∀ segments, verdict segments = verdict [segments.flatten] := by
  refine ⟨fun src more => ⟨fun head rest h => decode_append_of_some h more,
    fun error h => decode_append_of_error h more, fun h => congrArg Decoded.rest (eq_of_none h)⟩,
    fun segments => ?_⟩
  have hnil : (decode []).result = .ok none := by
    rw [decode_of_more (by rfl)]
    rfl
  exact verdictFrom_of_none hnil segments

end RequestHead

end CoopHttp
