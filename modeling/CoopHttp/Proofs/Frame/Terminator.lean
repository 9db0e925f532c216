import CoopHttp.Frame.Terminator
import CoopHttp.Proofs.Head.Grammar

/-!
# Where the matcher finds the end of a head

The matcher is run over the parts of a head one after the other. A line that is not empty brings it
into the state that belongs to the line break behind the line, wherever it was before. So the matcher
can go wrong in two places only: at the empty lines in front of a head, and at its end.
-/
namespace CoopHttp

namespace Terminator

theorem run_cons_of_none {t t' : Terminator} {b : UInt8} (h : t.step b = (t', none)) (s : Bytes) :
    t.run (b :: s) = ((t'.run s).1, (t'.run s).2.1 + 1, (t'.run s).2.2) := by
  rw [run, h]

theorem run_cons_of_some {t t' : Terminator} {b : UInt8} {length : ℕ}
    (h : t.step b = (t', some length)) (s : Bytes) : t.run (b :: s) = (t', 1, some length) := by
  rw [run, h]

/-- The matcher gets over `s` without completing a terminator. -/
def Passes (t : Terminator) (s : Bytes) (t' : Terminator) : Prop := t.run s = (t', s.length, none)

theorem passes_nil (t : Terminator) : t.Passes [] t := rfl

theorem passes_cons {t t' t'' : Terminator} {b : UInt8} {s : Bytes} (h : t.step b = (t', none))
    (h' : t'.Passes s t'') : t.Passes (b :: s) t'' := by
  rw [Passes, run_cons_of_none h, h', List.length_cons]

/-- The matcher gets over all of a string or completes a terminator in it. -/
theorem run_cases (t : Terminator) (s : Bytes) :
    (∃ t', t.Passes s t') ∨ ∃ t' n length, t.run s = (t', n, some length) := by
  induction s generalizing t with
  | nil => exact .inl ⟨t, t.passes_nil⟩
  | cons b s ih =>
    rcases hstep : t.step b with ⟨t1, _ | length⟩
    · obtain ⟨t', hpasses⟩ | ⟨t', n, length, hrun⟩ := ih t1
      · exact .inl ⟨t', passes_cons hstep hpasses⟩
      · refine .inr ⟨t', n + 1, length, ?_⟩
        rw [run_cons_of_none hstep, hrun]
    · exact .inr ⟨t1, 1, length, run_cons_of_some hstep s⟩

theorem Passes.run_append {t t' : Terminator} {a : Bytes} (h : t.Passes a t') (b : Bytes) :
    t.run (a ++ b) = ((t'.run b).1, a.length + (t'.run b).2.1, (t'.run b).2.2) := by
  induction a generalizing t with
  | nil =>
    cases h
    simp
  | cons c a ih =>
    rcases hstep : t.step c with ⟨t1, _ | length⟩
    · have hpasses : t1.Passes a t' := by
        rw [Passes, run_cons_of_none hstep] at h
        simp only [Prod.mk.injEq, List.length_cons, Nat.add_right_cancel_iff] at h
        exact Prod.ext h.1 (Prod.ext h.2.1 h.2.2)
      rw [List.cons_append, run_cons_of_none hstep, ih hpasses, List.length_cons]
      simp only [Nat.add_right_comm]
    · rw [Passes, run_cons_of_some hstep] at h
      simp at h

theorem Passes.trans {t t' t'' : Terminator} {a b : Bytes} (h : t.Passes a t')
    (h' : t'.Passes b t'') : t.Passes (a ++ b) t'' := by
  rw [Passes, h.run_append, h', List.length_append]

/-- A terminator that is complete stays complete. -/
theorem run_append_of_some {t t' : Terminator} {a : Bytes} {n length : ℕ}
    (h : t.run a = (t', n, some length)) (b : Bytes) : t.run (a ++ b) = (t', n, some length) := by
  induction a generalizing t n with
  | nil => simp [run] at h
  | cons c a ih =>
    rcases hstep : t.step c with ⟨t1, _ | found⟩
    · rcases hrun : t1.run a with ⟨t2, m, found⟩
      rw [run_cons_of_none hstep, hrun] at h
      cases h
      rw [List.cons_append, run_cons_of_none hstep, ih hrun]
    · rw [run_cons_of_some hstep] at h
      rw [List.cons_append, run_cons_of_some hstep, h]

/-- What is passed is passed from the beginning on. -/
theorem Passes.exists_of_append {t t' : Terminator} {a b : Bytes}
    (h : t.Passes (a ++ b) t') : ∃ m, t.Passes a m := by
  obtain hpasses | ⟨m, n, length, hrun⟩ := t.run_cases a
  · exact hpasses
  · have hwhole := (run_append_of_some hrun b).symm.trans h
    cases hwhole

/-- How many octets of a terminator have been read. -/
def held : Terminator → ℕ
  | start => 0
  | cr1 | lf => 1
  | lf1 => 2
  | cr2 => 3

theorem held_step (t : Terminator) (b : UInt8) :
    (t.step b).1.held ≤ t.held + 1 ∧ ∀ length ∈ (t.step b).2, length ≤ t.held + 1 := by
  unfold step
  split_ifs <;> cases t <;> simp [held]

/-- A terminator that is found has been read. -/
theorem bounds_of_run {t t' : Terminator} {s : Bytes} {n length : ℕ}
    (h : t.run s = (t', n, some length)) : 0 < n ∧ n ≤ s.length ∧ length ≤ t.held + n := by
  induction s generalizing t n with
  | nil => simp [run] at h
  | cons b s ih =>
    have hheld := held_step t b
    rcases hstep : t.step b with ⟨t1, _ | found⟩
    · rcases hrun : t1.run s with ⟨t2, m, found⟩
      rw [run_cons_of_none hstep, hrun, Prod.mk.injEq, Prod.mk.injEq] at h
      obtain ⟨rfl, rfl, rfl⟩ := h
      have hlater := ih hrun
      simp only [hstep] at hheld
      simp only [List.length_cons]
      omega
    · rw [run_cons_of_some hstep] at h
      cases h
      simp only [hstep] at hheld
      exact ⟨Nat.one_pos, by simp, hheld.2 length rfl⟩

/-- No end is found where the matcher has got over what stands in front. -/
theorem Passes.length_lt_of_run {t t' t'' : Terminator} {a : Bytes} (h : t.Passes a t') {b : Bytes}
    {n length : ℕ} (hrun : t.run (a ++ b) = (t'', n, some length)) : a.length < n := by
  rcases hlater : t'.run b with ⟨t1, m, found⟩
  rw [h.run_append, hlater] at hrun
  simp only [Prod.mk.injEq] at hrun
  obtain ⟨-, rfl, rfl⟩ := hrun
  have hpos := (bounds_of_run hlater).1
  omega

/-! Over the parts of a head. -/

/-- The state behind a line break. -/
def behind : LineBreak → Terminator
  | .lf => lf
  | .crlf => lf1

theorem step_of_not_break {b : UInt8} (h : isBreakByte b = false) (t : Terminator) :
    t.step b = (start, none) := by
  have hnot := isBreakByte_eq_false_iff.1 h
  rw [not_or] at hnot
  unfold step
  rw [if_neg hnot.1, if_neg hnot.2]

/-- Behind octets without line breaks the matcher starts anew. -/
theorem passes_word {s : Bytes} (hne : s ≠ []) (h : ∀ b ∈ s, isBreakByte b = false)
    (t : Terminator) : t.Passes s start := by
  induction s generalizing t with
  | nil => exact absurd rfl hne
  | cons b s ih =>
    have hstep := step_of_not_break (h b (by simp)) t
    by_cases hs : s = []
    · subst hs
      exact passes_cons hstep (passes_nil start)
    · exact passes_cons hstep (ih hs (fun c hc => h c (by simp [hc])) start)

theorem passes_line {s : Bytes} (hne : s ≠ []) (h : ∀ b ∈ s, isBreakByte b = false)
    (e : LineBreak) (t : Terminator) : t.Passes (s ++ e.bytes) (behind e) := by
  refine (passes_word hne h t).trans ?_
  cases e with
  | lf => rfl
  | crlf => rfl

/-- The line break of the last line, the first one being `e`. -/
def lastEnding (e : LineBreak) : List FieldText → LineBreak
  | [] => e
  | f :: fields => lastEnding f.ending fields

theorem passes_fieldBytes (fields : List FieldText) (e : LineBreak) :
    (behind e).Passes (fieldBytes fields) (behind (lastEnding e fields)) := by
  induction fields generalizing e with
  | nil => exact passes_nil _
  | cons f fields ih =>
    have hcons : fieldBytes (f :: fields) = f.bytes ++ fieldBytes fields := rfl
    rw [hcons]
    exact (passes_line f.front_ne_nil f.not_break_of_mem_front f.ending _).trans (ih f.ending)

/-- A line break completes a terminator behind the line break of a line, except CR LF behind LF. -/
theorem run_closing {e c : LineBreak} (h : ¬ (e = .lf ∧ c = .crlf)) (rest : Bytes) :
    ∃ length, (behind e).run (c.bytes ++ rest) = (start, c.bytes.length, some length) := by
  cases e with
  | lf =>
    cases c with
    | lf => exact ⟨2, rfl⟩
    | crlf => simp at h
  | crlf =>
    cases c with
    | lf => exact ⟨2, rfl⟩
    | crlf => exact ⟨4, rfl⟩

/-- The empty lines in front of a head that the matcher gets over. -/
def harmless : List (List LineBreak) := [[], [.lf], [.crlf], [.lf, .crlf]]

theorem exists_passes_of_harmless {breaks : List LineBreak} (h : breaks ∈ harmless) :
    ∃ t, start.Passes (breakBytes breaks) t := by
  simp only [harmless, List.mem_cons, List.not_mem_nil, or_false] at h
  obtain rfl | rfl | rfl | rfl := h
  · exact ⟨start, rfl⟩
  · exact ⟨lf, rfl⟩
  · exact ⟨lf1, rfl⟩
  · exact ⟨lf1, rfl⟩

/-- More empty lines than that look like a terminator. -/
theorem run_of_not_harmless {breaks : List LineBreak} (h : breaks ∉ harmless) :
    ∃ t n length, start.run (breakBytes breaks) = (t, n, some length) := by
  match breaks with
  | [] => simp [harmless] at h
  | [.lf] => simp [harmless] at h
  | [.crlf] => simp [harmless] at h
  | .lf :: .lf :: breaks => exact ⟨_, _, _, rfl⟩
  | .crlf :: .lf :: breaks => exact ⟨_, _, _, rfl⟩
  | .crlf :: .crlf :: breaks => exact ⟨_, _, _, rfl⟩
  | [.lf, .crlf] => simp [harmless] at h
  | .lf :: .crlf :: .lf :: breaks => exact ⟨_, _, _, rfl⟩
  | .lf :: .crlf :: .crlf :: breaks => exact ⟨_, _, _, rfl⟩

/-- The matcher finds the end of a head where the head ends, if the empty lines in front of it are
harmless and CR LF does not close it behind LF, and only then. -/
theorem run_head_iff (t : HeadText) (rest : Bytes) :
    (∃ t' length, start.run (t.bytes ++ rest) = (t', t.bytes.length, some length)) ↔
      t.skipped ∈ harmless ∧ ¬ (lastEnding t.ending t.fields = .lf ∧ t.closing = .crlf) := by
  have hlines (t' : Terminator) :
      t'.Passes (t.requestLine ++ t.ending.bytes ++ fieldBytes t.fields)
        (behind (lastEnding t.ending t.fields)) :=
    (passes_line t.requestLine_ne_nil t.not_break_of_mem_requestLine t.ending t').trans
      (passes_fieldBytes t.fields t.ending)
  have hbytes : t.bytes = breakBytes t.skipped ++
      (t.requestLine ++ t.ending.bytes ++ fieldBytes t.fields) ++ t.closing.bytes := by
    simp [HeadText.bytes]
  have hclosing : 0 < t.closing.bytes.length := by
    cases t.closing <;> simp [LineBreak.bytes, Bytes.crlf]
  by_cases hskipped : t.skipped ∈ harmless
  · obtain ⟨t1, hpasses⟩ := exists_passes_of_harmless hskipped
    have hall := hpasses.trans (hlines t1)
    by_cases hbad : lastEnding t.ending t.fields = .lf ∧ t.closing = .crlf
    · have hover : start.Passes t.bytes lf1 := by
        rw [hbytes, hbad.2]
        refine hall.trans ?_
        rw [hbad.1]
        rfl
      refine iff_of_false ?_ fun h => h.2 hbad
      rintro ⟨t', length, hrun⟩
      exact absurd (hover.length_lt_of_run hrun) (lt_irrefl _)
    · obtain ⟨length, hrun⟩ := run_closing hbad rest
      refine iff_of_true ⟨start, length, ?_⟩ ⟨hskipped, hbad⟩
      rw [hbytes, List.append_assoc, hall.run_append, hrun]
      simp only [List.length_append]
  · obtain ⟨t1, n, length, hrun⟩ := run_of_not_harmless hskipped
    refine iff_of_false ?_ fun h => hskipped h.1
    rintro ⟨t', length', hhead⟩
    have hfound := run_append_of_some hrun
      ((t.requestLine ++ t.ending.bytes ++ fieldBytes t.fields) ++ t.closing.bytes ++ rest)
    have hle := (bounds_of_run hrun).2.1
    rw [← List.append_assoc, ← List.append_assoc, ← hbytes, hhead, Prod.mk.injEq,
      Prod.mk.injEq] at hfound
    have hlength := congrArg List.length hbytes
    simp only [List.length_append] at hlength
    omega

end Terminator

end CoopHttp
