import CoopHttp.Proofs.Chunked.Verdict
import CoopHttp.Proofs.Payload.Progress

/-!
# Searching for the end of a line

The decoder of chunks remembers how much of a pending line it has searched. Whatever was decoded
before, and however the octets arrived, a search that goes on from there finds the line that a search
from the beginning would find. An account of the places that were looked at shows what is won by it:
every octet of a line is looked at once.
-/
namespace CoopHttp

namespace Bytes

/-- How many octets a search for a line feed looks at: those up to the first one, or all. -/
def lookedAt : Bytes → ℕ
  | [] => 0
  | b :: rest => if b = lf then 1 else lookedAt rest + 1

theorem lookedAt_eq (s : Bytes) : lookedAt s = (lineLength? s).getD s.length := by
  induction s with
  | nil => rfl
  | cons b s ih =>
    by_cases hb : b = lf
    · simp [lookedAt, lineLength?, hb]
    · cases hs : lineLength? s <;> simp [lookedAt, lineLength?, hb, ih, hs]

/-- A search that goes on behind octets without a line feed looks at the others. -/
theorem add_lookedAt_drop {s : Bytes} {k : ℕ} (hk : k ≤ s.length) (h : lf ∉ s.take k) :
    k + lookedAt (s.drop k) = lookedAt s := by
  rw [lookedAt_eq, lookedAt_eq, ← lineLength?_drop hk h]
  cases lineLength? (s.drop k) with
  | none =>
    simp only [Option.map_none, Option.getD_none, List.length_drop]
    omega
  | some n => rfl

end Bytes

namespace ChunkedDecoder

def awaitsLine (d : ChunkedDecoder) : Bool :=
  match d.phase with
  | .size | .trailer => true
  | .data .. | .dataEnd | .done => false

/-- Splits the next line off, or notes how much of the buffer holds none. -/
def nextLine (d : ChunkedDecoder) (src : Bytes) : ChunkedDecoder × Bytes × Option Bytes :=
  match d.lineEnd? src with
  | some n => ({ d with scanned := 0 }, src.drop n, some (src.take n))
  | none => ({ d with scanned := src.length }, src, none)

/-- Where a line is to be read, the step leaves the buffer and the position that the search for the
line leaves. -/
theorem step_of_awaitsLine {d : ChunkedDecoder} (h : d.awaitsLine = true) (src : Bytes) :
    (d.step src).2.1 = (d.nextLine src).2.1 ∧
      (d.step src).1.scanned = (d.nextLine src).1.scanned := by
  unfold step nextLine
  unfold awaitsLine at h
  split
  · unfold stepSize waitForLine
    cases d.lineEnd? src with
    | none => exact ⟨rfl, rfl⟩
    | some n =>
      dsimp only
      split
      · split <;> exact ⟨rfl, rfl⟩
      · exact ⟨rfl, rfl⟩
  · simp_all
  · simp_all
  · unfold stepTrailer waitForLine
    cases d.lineEnd? src with
    | none => exact ⟨rfl, rfl⟩
    | some n =>
      dsimp only
      split_ifs <;> exact ⟨rfl, rfl⟩
  · simp_all

/-- Elsewhere the position stays as it is. -/
theorem scanned_step_of_not_awaitsLine {d : ChunkedDecoder} (h : d.awaitsLine = false)
    (src : Bytes) : (d.step src).1.scanned = d.scanned := by
  unfold step
  unfold awaitsLine at h
  split
  · simp_all
  · unfold stepData
    split <;> rfl
  · unfold stepDataEnd
    repeat' split
    all_goals rfl
  · simp_all
  · rfl

theorem Poised.scanned_eq_zero_of_not_awaitsLine {d : ChunkedDecoder} {src : Bytes}
    (h : Poised d src) (hd : d.awaitsLine = false) : d.scanned = 0 := by
  apply h.scanned_eq_zero
  · intro hphase
    simp [awaitsLine, hphase] at hd
  · intro hphase
    simp [awaitsLine, hphase] at hd

theorem Poised.nextLine_of_line {d : ChunkedDecoder} {line rest : Bytes}
    (h : Poised d (line ++ Bytes.lf :: rest)) (hline : Bytes.lf ∉ line) :
    d.nextLine (line ++ Bytes.lf :: rest) =
      ({ d with scanned := 0 }, rest, some (line ++ [Bytes.lf])) := by
  rw [nextLine, h.lineEnd?_eq, Bytes.lineLength?_append_lf hline]
  simp only [Bytes.take_line, Bytes.drop_line]

theorem Poised.nextLine_of_pending {d : ChunkedDecoder} {src : Bytes} (h : Poised d src)
    (hsrc : Bytes.lf ∉ src) : d.nextLine src = ({ d with scanned := src.length }, src, none) := by
  rw [nextLine, h.lineEnd?_eq, (Bytes.lineLength?_eq_none_iff src).2 hsrc]

/-! An account of the searches. -/

/-- What has been searched so far, by places in the stream of octets that the buffer received. -/
structure Survey where
  /-- How many octets were taken off the buffer. -/
  taken : ℕ := 0
  /-- The places that were looked at for a line feed, in order. -/
  looked : List ℕ := []
  /-- The places of the octets of the lines that were split off, in order. -/
  lines : List ℕ := []
  deriving DecidableEq, Repr

/-- The account after one more step of the decoder. -/
def Survey.after (t : Survey) (d : ChunkedDecoder) (src : Bytes) : Survey where
  taken := t.taken + (src.length - (d.step src).2.1.length)
  looked := t.looked ++ if d.awaitsLine then
    List.range' (t.taken + d.scanned) (Bytes.lookedAt (src.drop d.scanned)) else []
  lines := t.lines ++ if d.awaitsLine then
    List.range' t.taken ((d.nextLine src).2.2.elim 0 List.length) else []

/-- Decoders, the buffers before them and the accounts of their searches, from a fresh decoder on:
octets are put behind the buffer, and the decoder takes steps, a call of it being some of them, also
after it has failed. -/
inductive Surveyed : ChunkedDecoder → Bytes → Survey → Prop
  | fresh : Surveyed {} [] {}
  | extend {d : ChunkedDecoder} {src : Bytes} {t : Survey} (h : Surveyed d src t) (s : Bytes) :
    Surveyed d (src ++ s) t
  | step {d : ChunkedDecoder} {src : Bytes} {t : Survey} (h : Surveyed d src t) :
    Surveyed (d.step src).1 (d.step src).2.1 (t.after d src)

theorem Surveyed.poised {d : ChunkedDecoder} {src : Bytes} {t : Survey} (h : Surveyed d src t) :
    Poised d src := by
  induction h with
  | fresh => exact poised_fresh []
  | extend _ s ih => exact ih.append s
  | step _ ih => exact ih.step rfl

theorem Surveyed.moves {d d' : ChunkedDecoder} {src rest : Bytes} {t : Survey} {n : ℕ}
    (h : Surveyed d src t) (hmoves : Moves d src n d' rest) : ∃ t', Surveyed d' rest t' := by
  induction hmoves generalizing t with
  | refl => exact ⟨t, h⟩
  | step hstep _ ih =>
    have hnext := h.step
    rw [hstep] at hnext
    exact ih hnext

/-- A call of the decoder is some steps. -/
theorem Surveyed.decode {d : ChunkedDecoder} {src : Bytes} {t : Survey} (h : Surveyed d src t) :
    ∃ t', Surveyed (d.decode src).1 (d.decode src).2.1 t' := by
  obtain ⟨n, d₁, rest₁, d', rest, outcome, answer, hmoves, hlast, -, hdecode⟩ :=
    exists_moves_decode d src
  obtain ⟨t₁, h₁⟩ := h.moves hmoves
  have hnext := h₁.step
  rw [hlast] at hnext
  rw [hdecode]
  exact ⟨_, hnext⟩

/-- The account is that of lines of which every octet was looked at once, and of the searched part of
a pending line. -/
structure Survey.Covers (t : Survey) (d : ChunkedDecoder) : Prop where
  looked_eq : t.looked = t.lines ++ List.range' t.taken d.scanned
  pairwise_lines : t.lines.Pairwise (· < ·)
  lt_taken : ∀ place ∈ t.lines, place < t.taken

/-- A line that is split off is as long as the search for it was. -/
theorem Poised.lookedAt_eq {d : ChunkedDecoder} {src : Bytes} (h : Poised d src) :
    Bytes.lookedAt src = (d.nextLine src).2.2.elim 0 List.length + (d.nextLine src).1.scanned ∧
      src.length = (d.nextLine src).2.2.elim 0 List.length + (d.nextLine src).2.1.length := by
  rw [Bytes.lookedAt_eq]
  obtain hlf | ⟨line, rest, hline, rfl⟩ := line_cases src
  · rw [h.nextLine_of_pending hlf, (Bytes.lineLength?_eq_none_iff src).2 hlf]
    simp
  · rw [h.nextLine_of_line hline, Bytes.lineLength?_append_lf hline]
    simp
    omega

theorem Survey.Covers.after {t : Survey} {d : ChunkedDecoder} {src : Bytes} (h : t.Covers d)
    (hd : Poised d src) : (t.after d src).Covers (d.step src).1 := by
  cases hline : d.awaitsLine with
  | true =>
    obtain ⟨hbuffer, hscanned⟩ := step_of_awaitsLine hline src
    obtain ⟨hlooked, hlength⟩ := hd.lookedAt_eq
    have hdrop := Bytes.add_lookedAt_drop hd.scanned_le hd.lf_notMem
    have htaken : (t.after d src).taken =
        t.taken + (d.nextLine src).2.2.elim 0 List.length := by
      show t.taken + (src.length - (d.step src).2.1.length) = _
      rw [hbuffer]
      omega
    have hlines : (t.after d src).lines = t.lines ++
        List.range' t.taken ((d.nextLine src).2.2.elim 0 List.length) := by
      simp only [Survey.after, hline, if_true]
    generalize (d.nextLine src).2.2.elim 0 List.length = n at *
    refine ⟨?_, ?_, ?_⟩
    · have hafter : (t.after d src).looked = t.looked ++
          List.range' (t.taken + d.scanned) (Bytes.lookedAt (src.drop d.scanned)) := by
        simp only [Survey.after, hline, if_true]
      rw [hafter, hlines, htaken, hscanned, h.looked_eq, List.append_assoc, List.append_assoc,
        List.range'_append_1, List.range'_append_1, hdrop, hlooked]
    · rw [hlines, List.pairwise_append]
      refine ⟨h.pairwise_lines, List.pairwise_lt_range', fun a ha b hb => ?_⟩
      exact (h.lt_taken a ha).trans_le (List.mem_range'_1.1 hb).1
    · rw [hlines, htaken]
      intro place hplace
      obtain hplace | hplace := List.mem_append.1 hplace
      · exact (h.lt_taken place hplace).trans_le (Nat.le_add_right _ _)
      · exact (List.mem_range'_1.1 hplace).2
  | false =>
    have hzero := hd.scanned_eq_zero_of_not_awaitsLine hline
    have hscanned := scanned_step_of_not_awaitsLine hline src
    have hlooked := h.looked_eq
    refine ⟨?_, ?_, ?_⟩
    · simpa [Survey.after, hline, hscanned, hzero] using hlooked
    · simpa [Survey.after, hline] using h.pairwise_lines
    · simp only [Survey.after, hline, if_false, List.append_nil, Bool.false_eq_true]
      exact fun place hplace => (h.lt_taken place hplace).trans_le (Nat.le_add_right _ _)

theorem Surveyed.covers {d : ChunkedDecoder} {src : Bytes} {t : Survey} (h : Surveyed d src t) :
    t.Covers d := by
  induction h with
  | fresh => exact ⟨rfl, List.Pairwise.nil, by simp⟩
  | extend _ _ ih => exact ih
  | step h ih => exact ih.after h.poised

/-- The remembered position saves work and nothing else. -/
structure SearchesOn (d : ChunkedDecoder) (src : Bytes) (t : Survey) : Prop where
  scanned_le : d.scanned ≤ src.length
  lf_notMem : Bytes.lf ∉ src.take d.scanned
  scanned_eq_zero : (∃ n hn, d.phase = .data n hn) ∨ d.phase = .dataEnd ∨ d.phase = .done →
    d.scanned = 0
  /-- Where a line is to be read, the step searches for it first. -/
  step_eq : d.phase = .size ∨ d.phase = .trailer → (d.step src).2.1 = (d.nextLine src).2.1 ∧
    (d.step src).1.scanned = (d.nextLine src).1.scanned
  /-- The line found is everything up to the first line feed of the buffer. -/
  nextLine_of_line : ∀ line rest, Bytes.lf ∉ line → src = line ++ Bytes.lf :: rest →
    d.nextLine src = ({ d with scanned := 0 }, rest, some (line ++ [Bytes.lf]))
  nextLine_of_pending : Bytes.lf ∉ src →
    d.nextLine src = ({ d with scanned := src.length }, src, none)
  /-- What was looked at is the octets of the lines that were found, in order, and then the searched
  part of the pending one. -/
  looked_eq : t.looked = t.lines ++ List.range' t.taken d.scanned
  /-- No place was looked at twice. -/
  pairwise_looked : t.looked.Pairwise (· < ·)

/-- Whatever calls have been made of a decoder, on a buffer that is only added to between them, it
goes on searching where it stopped, finds what a search from the beginning would find, and looks at
every octet of a line once; and another call keeps this. -/
theorem searchesOn_of_surveyed {d : ChunkedDecoder} {src : Bytes} {t : Survey}
    (h : Surveyed d src t) :
    SearchesOn d src t ∧ ∃ t', Surveyed (d.decode src).1 (d.decode src).2.1 t' := by
  have hpoised := h.poised
  have hcovers := h.covers
  refine ⟨⟨hpoised.scanned_le, hpoised.lf_notMem, ?_, ?_, ?_, hpoised.nextLine_of_pending,
    hcovers.looked_eq, ?_⟩, h.decode⟩
  · rintro (⟨n, hn, hphase⟩ | hphase | hphase) <;>
      exact hpoised.scanned_eq_zero (by simp [hphase]) (by simp [hphase])
  · rintro (hphase | hphase) <;> exact step_of_awaitsLine (by simp [awaitsLine, hphase]) src
  · rintro line rest hline rfl
    exact hpoised.nextLine_of_line hline
  · rw [hcovers.looked_eq, List.pairwise_append]
    refine ⟨hcovers.pairwise_lines, List.pairwise_lt_range', fun a ha b hb => ?_⟩
    exact (hcovers.lt_taken a ha).trans_le (List.mem_range'_1.1 hb).1

/-- A size line and a trailer line have been read, and the next trailer line has begun. -/
theorem searchesOn_begunLine :
    Surveyed ⟨.trailer, 1, ascii "A: b\r\n"⟩ (ascii "C") ⟨9, List.range 10, List.range 9⟩ ∧
      SearchesOn ⟨.trailer, 1, ascii "A: b\r\n"⟩ (ascii "C") ⟨9, List.range 10, List.range 9⟩ := by
  have h : Surveyed ⟨.trailer, 1, ascii "A: b\r\n"⟩ (ascii "C") ⟨9, List.range 10, List.range 9⟩ :=
    ((Surveyed.fresh.extend (ascii "0\r\nA: b\r\nC")).step).step.step
  exact ⟨h, (searchesOn_of_surveyed h).1⟩

end ChunkedDecoder

end CoopHttp
