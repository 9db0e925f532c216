import CoopHttp.Frame.Reader
import CoopHttp.Proofs.Frame.Terminator
import CoopHttp.Proofs.Head.Decode

/-!
# Two recognizers of the end of a head

A frame reader finds the end of a head with the matcher, cuts the head off and has it decoded; what
the decoder leaves of the piece that was cut off is lost. The two were to agree on where a head ends.
They do not agree on every head that the decoder accepts: CR LF behind a line that ends in LF alone
is no terminator to the matcher, and two empty lines in front of a head are one. Here is the exact
class of heads on which they agree.
-/
namespace CoopHttp

/-- The head begins with at most one line break, or with LF and CR LF, and it ends in a terminator that
the matcher knows. -/
def IsDelimited (head : Bytes) : Prop :=
  head.takeWhile isBreakByte ∈ [[], [Bytes.lf], Bytes.crlf, Bytes.lf :: Bytes.crlf] ∧
    ([Bytes.lf, Bytes.lf] <:+ head ∨ Bytes.crlf ++ Bytes.crlf <:+ head)

instance (head : Bytes) : Decidable (IsDelimited head) :=
  inferInstanceAs (Decidable (_ ∧ _))

/-- The octets of the empty lines in front tell what these lines are, as far as it matters. -/
theorem breakBytes_mem_iff (breaks : List LineBreak) :
    breakBytes breaks ∈ [[], [Bytes.lf], Bytes.crlf, Bytes.lf :: Bytes.crlf] ↔
      breaks ∈ Terminator.harmless := by
  match breaks with
  | [] => decide
  | [.lf] => decide
  | [.crlf] => decide
  | [.lf, .crlf] => decide
  | .lf :: .lf :: breaks =>
    simp [breakBytes, LineBreak.bytes, Bytes.crlf, Terminator.harmless]
  | .crlf :: .lf :: breaks =>
    simp [breakBytes, LineBreak.bytes, Bytes.crlf, Terminator.harmless]
  | .crlf :: .crlf :: breaks =>
    simp [breakBytes, LineBreak.bytes, Bytes.crlf, Terminator.harmless]
  | .lf :: .crlf :: .lf :: breaks =>
    simp [breakBytes, LineBreak.bytes, Bytes.crlf, Terminator.harmless]
  | .lf :: .crlf :: .crlf :: breaks =>
    simp [breakBytes, LineBreak.bytes, Bytes.crlf, Terminator.harmless]

theorem isBreakByte_of_mem_breakBytes {breaks : List LineBreak} :
    ∀ b ∈ breakBytes breaks, isBreakByte b = true := by
  intro b hb
  obtain ⟨s, hs, hb⟩ := List.mem_flatten.1 hb
  obtain ⟨e, -, rfl⟩ := List.mem_map.1 hs
  cases e with
  | lf =>
    rw [List.mem_singleton.1 hb]
    rfl
  | crlf =>
    obtain rfl | rfl : b = Bytes.cr ∨ b = Bytes.lf := by simpa [LineBreak.bytes, Bytes.crlf] using hb
    · rfl
    · rfl

theorem takeWhile_isBreakByte_bytes (t : HeadText) :
    t.bytes.takeWhile isBreakByte = breakBytes t.skipped := by
  obtain ⟨b, s, hmethod, hb⟩ := Grammar.exists_of_isToken t.isToken_method
  have hcons : ∃ s', t.bytes = breakBytes t.skipped ++ b :: s' := by
    simp [HeadText.bytes, HeadText.requestLine, hmethod]
  obtain ⟨s', hcons⟩ := hcons
  rw [hcons, List.takeWhile_append_of_pos isBreakByte_of_mem_breakBytes,
    List.takeWhile_cons_of_neg (by simp [hb]), List.append_nil]

/-- In front of its last line break, a line has an octet of no line break. -/
theorem exists_last_line {word : Bytes} (hne : word ≠ []) (h : ∀ b ∈ word, isBreakByte b = false)
    (e : LineBreak) (fields : List FieldText) :
    ∃ front b, isBreakByte b = false ∧
      word ++ e.bytes ++ fieldBytes fields =
        front ++ b :: (Terminator.lastEnding e fields).bytes := by
  induction fields generalizing word e with
  | nil =>
    refine ⟨word.dropLast, word.getLast hne, h _ (List.getLast_mem hne), ?_⟩
    rw [List.append_cons, List.dropLast_append_getLast hne]
    simp [fieldBytes, Terminator.lastEnding]
  | cons f fields ih =>
    obtain ⟨front, b, hb, hfront⟩ := ih f.front_ne_nil f.not_break_of_mem_front f.ending
    refine ⟨word ++ e.bytes ++ front, b, hb, ?_⟩
    rw [List.append_assoc _ front, Terminator.lastEnding, ← hfront]
    simp [fieldBytes, FieldText.bytes]

theorem isDelimited_bytes_iff (t : HeadText) :
    IsDelimited t.bytes ↔ t.skipped ∈ Terminator.harmless ∧
      ¬ (Terminator.lastEnding t.ending t.fields = .lf ∧ t.closing = .crlf) := by
  obtain ⟨front, b, hb, hfront⟩ := exists_last_line t.requestLine_ne_nil
    t.not_break_of_mem_requestLine t.ending t.fields
  have hbytes : t.bytes = (breakBytes t.skipped ++ front ++ [b]) ++
      ((Terminator.lastEnding t.ending t.fields).bytes ++ t.closing.bytes) := by
    rw [HeadText.bytes, hfront]
    simp
  have hcr : b ≠ Bytes.cr := fun h => by simp [h, isBreakByte] at hb
  rw [IsDelimited, takeWhile_isBreakByte_bytes, breakBytes_mem_iff, hbytes]
  refine and_congr_right fun _ => ?_
  generalize breakBytes t.skipped ++ front = front
  cases Terminator.lastEnding t.ending t.fields with
  | lf =>
    cases t.closing with
    | lf =>
      refine iff_of_true (.inl ⟨front ++ [b], ?_⟩) (by simp)
      simp [LineBreak.bytes]
    | crlf =>
      refine iff_of_false ?_ (by simp)
      rintro (⟨u, hu⟩ | ⟨u, hu⟩)
      · have hreverse := congrArg List.reverse hu
        simp [LineBreak.bytes, Bytes.crlf] at hreverse
      · have hreverse := congrArg List.reverse hu
        simp [LineBreak.bytes, Bytes.crlf, hcr.symm] at hreverse
  | crlf =>
    refine iff_of_true ?_ (by simp)
    cases t.closing with
    | lf => exact .inl ⟨front ++ [b, Bytes.cr], by simp [LineBreak.bytes, Bytes.crlf]⟩
    | crlf => exact .inr ⟨front ++ [b], by simp [LineBreak.bytes]⟩

namespace FrameReader

/-- What a fresh reader comes to when it looks for the end of a head. -/
theorem findEnd_extend (maxBody : ℕ) {b : Bytes} {t : Terminator} {n : ℕ} {found : Option ℕ}
    (h : Terminator.start.run b = (t, n, found)) :
    ((withMaxBody maxBody).extend b).findEnd =
      ({ buffer := b, scanned := n, matcher := t, maxBody,
         ending := found.map fun length => ⟨n - length, length⟩ },
        found.map fun length => ⟨n - length, length⟩) := by
  simp [findEnd, extend, withMaxBody, h]

/-- The end that the matcher finds is where the matcher has come to. -/
theorem bodyStart_of_run {b : Bytes} {t : Terminator} {n length : ℕ}
    (h : Terminator.start.run b = (t, n, some length)) :
    (⟨n - length, length⟩ : HeadEnd).bodyStart = n := by
  have hle := (Terminator.bounds_of_run h).2.2
  simp only [HeadEnd.bodyStart, Terminator.held] at hle ⊢
  omega

theorem exists_findEnd_iff (maxBody : ℕ) (b : Bytes) (k : ℕ) :
    (∃ e, ((withMaxBody maxBody).extend b).findEnd.2 = some e ∧ e.bodyStart = k) ↔
      ∃ t length, Terminator.start.run b = (t, k, some length) := by
  rcases hrun : Terminator.start.run b with ⟨t, n, _ | length⟩
  · simp [findEnd_extend maxBody hrun]
  · simp [findEnd_extend maxBody hrun, bodyStart_of_run hrun]

/-- A reader that has found the end of a head cuts the head off and has it decoded. -/
theorem parseHead_of_findEnd {r r' : FrameReader} {e : HeadEnd} (hpayload : r.payload = none)
    (hfind : r.findEnd = (r', some e)) (hle : e.bodyStart ≤ r'.buffer.length) :
    r.parseHead = .ok (({ r' with buffer := r'.buffer.drop e.bodyStart } : FrameReader).readHead
      (r'.buffer.take e.bodyStart)) := by
  simp [parseHead, hpayload, hfind, cut, hle, Except.map]

/-- On a head that the decoder accepts, reading `k` octets, a fresh reader finds the end where the
decoder does and keeps exactly what follows it, if and only if the head is delimited. -/
theorem head_end_eq_iff_isDelimited (maxBody : ℕ) {b : Bytes} {k : ℕ}
    {head : RequestHead × PayloadSize} (hk : k ≤ b.length)
    (h : RequestHead.decode b = ⟨.ok (some head), b.drop k⟩) :
    ((∃ e, ((withMaxBody maxBody).extend b).findEnd.2 = some e ∧ e.bodyStart = k) ∧
      ∃ r n, ((withMaxBody maxBody).extend b).parseHead = .ok (r, .ok n) ∧ r.buffer = b.drop k) ↔
        IsDelimited (b.take k) := by
  obtain ⟨t, hb, hdecode⟩ := RequestHead.exists_of_decode h
  have htake : b.take k = t.bytes := by
    have hsplit : b.take k ++ b.drop k = t.bytes ++ b.drop k := by
      rw [List.take_append_drop]
      exact hb
    exact List.append_cancel_right hsplit
  have hlength : t.bytes.length = k := by
    rw [← htake, List.length_take, Nat.min_eq_left hk]
  have hrun := Terminator.run_head_iff t (b.drop k)
  rw [← hb, hlength, ← isDelimited_bytes_iff, ← htake] at hrun
  rw [exists_findEnd_iff, hrun, and_iff_left_iff_imp]
  intro hdelimited
  obtain ⟨t', length, hfound⟩ := hrun.2 hdelimited
  have hstart := bodyStart_of_run hfound
  have hparse := parseHead_of_findEnd (r := (withMaxBody maxBody).extend b) rfl
    (findEnd_extend maxBody hfound) (by rw [hstart]; exact hk)
  have hwhole := hdecode []
  rw [List.append_nil, ← htake] at hwhole
  rw [hparse, hstart]
  simp [readHead, hwhole]

/-- A request with ordinary line breaks, with an octet of the next one behind it. -/
def plainRequest : Bytes := ascii "GET / HTTP/1.1\r\n\r\nX"

theorem head_end_of_plainRequest :
    RequestHead.decode plainRequest =
        ⟨.ok (some (⟨.get, ⟨none, [], ascii "/", none⟩, .http11, .empty⟩, .empty)),
          plainRequest.drop 18⟩ ∧
      (∃ e, (fresh.extend plainRequest).findEnd.2 = some e ∧ e.bodyStart = 18) ∧
      ∃ r n, (fresh.extend plainRequest).parseHead = .ok (r, .ok n) ∧ r.buffer = ascii "X" := by
  have hdecode : RequestHead.decode plainRequest =
      ⟨.ok (some (⟨.get, ⟨none, [], ascii "/", none⟩, .http11, .empty⟩, .empty)),
        plainRequest.drop 18⟩ := by
    have hresult : (RequestHead.decode plainRequest).result =
        .ok (some (⟨.get, ⟨none, [], ascii "/", none⟩, .http11, .empty⟩, .empty)) := by
      decide +kernel
    have hrest : (RequestHead.decode plainRequest).rest = plainRequest.drop 18 := by
      decide +kernel
    rw [← hresult, ← hrest]
  have hlength : 18 ≤ plainRequest.length := by decide +kernel
  have hdelimited : IsDelimited (plainRequest.take 18) := by decide +kernel
  have hrest : plainRequest.drop 18 = ascii "X" := by decide +kernel
  have hend := (head_end_eq_iff_isDelimited defaultMaxBody hlength hdecode).2 hdelimited
  rw [hrest] at hend
  exact ⟨hdecode, hend⟩

/-- Two requests, CR LF standing behind LF at the end of the first. -/
def mixedRequests : Bytes := ascii "GET /a HTTP/1.1\n\r\nGET /b HTTP/1.1\r\n\r\n"

/-- The decoder reads the first request and leaves the second; the reader cuts off both, reads the
first and loses the second. -/
theorem mixedRequests_lost :
    (RequestHead.decode mixedRequests).rest = ascii "GET /b HTTP/1.1\r\n\r\n" ∧
      (RequestHead.decode mixedRequests).result =
        .ok (some (⟨.get, ⟨none, [], ascii "/a", none⟩, .http11, .empty⟩, .empty)) ∧
      (fresh.extend mixedRequests).findEnd.2 = some ⟨33, 4⟩ ∧
      ((fresh.extend mixedRequests).parseHead.map fun (r, result) => (r.buffer, result)) =
        .ok ([], .ok 0) := by
  refine ⟨?_, ?_, ?_, ?_⟩ <;> decide +kernel

end FrameReader

end CoopHttp
