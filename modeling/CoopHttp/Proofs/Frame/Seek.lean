import CoopHttp.Frame.Source
import CoopHttp.Proofs.Frame.Terminator

/-!
# Reading a head from a source

A reader that looks for the end of a head keeps what the matcher has read and where it stands. As
long as the head is not complete, more octets are fetched; once it is, the end is where it would have
been found had everything been there at once.
-/
namespace CoopHttp

namespace Terminator

/-- The matcher comes to what it comes to on a longer string, if it gets that far. -/
theorem run_of_run_append {t t' : Terminator} {a b : Bytes} {k length : ℕ}
    (h : t.run (a ++ b) = (t', k, some length)) :
    (a.length < k ∧ ∃ m, t.Passes a m) ∨ (k ≤ a.length ∧ t.run a = (t', k, some length)) := by
  obtain ⟨m, hpasses⟩ | ⟨t1, n, length', hrun⟩ := t.run_cases a
  · exact .inl ⟨hpasses.length_lt_of_run h, m, hpasses⟩
  · have hle := (bounds_of_run hrun).2.1
    rw [run_append_of_some hrun] at h
    cases h
    exact .inr ⟨hle, hrun⟩

end Terminator

namespace FrameReader

/-- A reader that has found no end of a head in the octets it has read. -/
structure Seeking (r : FrameReader) (read : Bytes) : Prop where
  scanned_eq : r.scanned = read.length
  passes : Terminator.start.Passes read r.matcher
  ending_eq : r.ending = none

/-- The search goes on from where it stopped. -/
theorem Seeking.findEnd_eq {r : FrameReader} {read unread : Bytes} (h : Seeking r read)
    (hbuffer : r.buffer = read ++ unread) {t : Terminator} {n : ℕ} {found : Option ℕ}
    (hrun : Terminator.start.run r.buffer = (t, n, found)) :
    r.findEnd = ({ r with
      matcher := t, scanned := n, ending := found.map fun length => ⟨n - length, length⟩ },
        found.map fun length => ⟨n - length, length⟩) := by
  have hdrop : r.buffer.drop read.length = unread := by
    rw [hbuffer, List.drop_left]
  rw [hbuffer, h.passes.run_append] at hrun
  rcases hlater : r.matcher.run unread with ⟨t', n', found'⟩
  simp only [hlater, Prod.mk.injEq] at hrun
  obtain ⟨rfl, rfl, rfl⟩ := hrun
  simp [findEnd, h.ending_eq, hdrop, hlater, h.scanned_eq]

/-- A head that has arrived is found. -/
theorem Seeking.seekHead_of_some {r : FrameReader} {read unread : Bytes} (h : Seeking r read)
    (hbuffer : r.buffer = read ++ unread) {t : Terminator} {n length : ℕ}
    (hrun : Terminator.start.run r.buffer = (t, n, some length)) :
    r.seekHead = ({ r with matcher := t, scanned := n, ending := some ⟨n - length, length⟩ },
      .done (.ok true)) := by
  rw [seekHead, h.findEnd_eq hbuffer hrun]
  rfl

/-- A head that has not arrived, and may still fit, is waited for. -/
theorem Seeking.seekHead_of_passes {r : FrameReader} {read unread : Bytes} (h : Seeking r read)
    (hbuffer : r.buffer = read ++ unread) {t : Terminator}
    (hrun : Terminator.start.Passes r.buffer t) (hlt : r.buffer.length < maxHeadBytes) :
    r.seekHead = ({ r with matcher := t, scanned := r.buffer.length }, .starved) := by
  rw [seekHead, h.findEnd_eq hbuffer hrun]
  simp [hlt, h.ending_eq]

/-- A buffer that is full and holds no head is refused. -/
theorem Seeking.seekHead_of_full {r : FrameReader} {read unread : Bytes} (h : Seeking r read)
    (hbuffer : r.buffer = read ++ unread) {t : Terminator}
    (hpasses : Terminator.start.Passes r.buffer t) (hfull : maxHeadBytes ≤ r.buffer.length) :
    ∃ s, r.seekHead = (s, .done (.error (.tooLargeHeader r.buffer.length maxHeadBytes))) := by
  rw [seekHead, h.findEnd_eq hbuffer hpasses]
  simp [Nat.not_lt.2 hfull]

/-- An attempt that is done asks the source for nothing. -/
theorem pullHead_of_done {r s : FrameReader} {result : Except ParseError Bool}
    (h : r.seekHead = (s, .done result)) (source : Source) :
    r.pullHead source = (s, source, result) := by
  cases source <;> rw [pullHead, h]

/-- An attempt that is starved is made again with one more fill, and has read what was there. -/
theorem Seeking.pullHead_of_passes {r : FrameReader} {read unread : Bytes} (h : Seeking r read)
    (hbuffer : r.buffer = read ++ unread) {t : Terminator}
    (hpasses : Terminator.start.Passes r.buffer t) (hlt : r.buffer.length < maxHeadBytes)
    {bytes : Bytes} (hne : bytes ≠ []) (source : Source) :
    ∃ s, Seeking s r.buffer ∧
      s = ({ r with matcher := t, scanned := r.buffer.length } : FrameReader).extend bytes ∧
      r.pullHead (.bytes bytes :: source) = s.pullHead source := by
  obtain ⟨b, bytes, rfl⟩ := List.exists_cons_of_ne_nil hne
  refine ⟨({ r with matcher := t, scanned := r.buffer.length } : FrameReader).extend (b :: bytes),
    ⟨rfl, hpasses, h.ending_eq⟩, rfl, ?_⟩
  rw [pullHead, h.seekHead_of_passes hbuffer hpasses hlt]

/-- Octets are fetched until the end of the head is among them, and no longer. -/
theorem Seeking.pullHead_eq {segments : List Bytes} (hne : ∀ s ∈ segments, s ≠ [])
    {r : FrameReader} {read unread : Bytes} (h : Seeking r read)
    (hbuffer : r.buffer = read ++ unread) {t : Terminator} {k length : ℕ}
    (hrun : Terminator.start.run (r.buffer ++ segments.flatten) = (t, k, some length))
    (hk : k ≤ maxHeadBytes) :
    ∃ arrived later, segments = arrived ++ later ∧ k ≤ (r.buffer ++ arrived.flatten).length ∧
      r.pullHead (segments.map Fill.bytes) =
        ({ r with
            buffer := r.buffer ++ arrived.flatten, matcher := t, scanned := k,
            ending := some ⟨k - length, length⟩ }, later.map Fill.bytes, .ok true) := by
  induction segments generalizing r read unread with
  | nil =>
    simp only [List.flatten_nil, List.append_nil] at hrun
    have hle := (Terminator.bounds_of_run hrun).2.1
    refine ⟨[], [], rfl, by simpa using hle, ?_⟩
    simp [pullHead, h.seekHead_of_some hbuffer hrun]
  | cons s segments ih =>
    obtain ⟨hlt, m, hpasses⟩ | ⟨hle, hfound⟩ := Terminator.run_of_run_append hrun
    · have hlater : ∀ s ∈ segments, s ≠ [] := fun s hs => hne s (by simp [hs])
      obtain ⟨_, hextended, rfl, hpull⟩ := h.pullHead_of_passes hbuffer hpasses (by omega)
        (hne s (by simp)) (segments.map Fill.bytes)
      obtain ⟨arrived, later, rfl, hle, hfound⟩ := ih hlater hextended rfl (by
        simpa [extend] using hrun)
      refine ⟨s :: arrived, later, rfl, by simpa [extend] using hle, ?_⟩
      rw [List.map_cons, hpull, hfound]
      simp [extend]
    · refine ⟨[], s :: segments, rfl, by simpa using hle, ?_⟩
      simp [pullHead, h.seekHead_of_some hbuffer hfound]

end FrameReader

end CoopHttp
