import CoopHttp.Proofs.Frame.Terminator

/-!
# The first end of a head

What the matcher has to know of the octets it has read is with which beginnings of a terminator they
end, and this is what its state tells. So an octet is judged by the state alone, and the matcher stops
at the first end there is.
-/
namespace CoopHttp

/-- The octets end in a terminator of this length. -/
def EndsHead (s : Bytes) (length : ℕ) : Prop :=
  length = 2 ∧ [Bytes.lf, Bytes.lf] <:+ s ∨ length = 4 ∧ Bytes.crlf ++ Bytes.crlf <:+ s

instance (s : Bytes) (length : ℕ) : Decidable (EndsHead s length) :=
  inferInstanceAs (Decidable (_ ∨ _))

structure FirstEnd (s : Bytes) (e : HeadEnd) : Prop where
  bodyStart_le : e.bodyStart ≤ s.length
  endsHead : EndsHead (s.take e.bodyStart) e.length
  first : ∀ k < e.bodyStart, ∀ length, ¬ EndsHead (s.take k) length

/-- No terminator ends anywhere in `s`. -/
def NoEnd (s : Bytes) : Prop := ∀ k length, ¬ EndsHead (s.take k) length

theorem concat_suffix_concat_iff {u s : Bytes} {c b : UInt8} :
    u ++ [c] <:+ s ++ [b] ↔ u <:+ s ∧ c = b := by
  rw [List.suffix_append_inj_of_length_eq (show [c].length = [b].length from rfl),
    List.singleton_inj]

theorem forall_not_endsHead_iff {s : Bytes} : (∀ length, ¬ EndsHead s length) ↔
    ¬ [Bytes.lf, Bytes.lf] <:+ s ∧ ¬ Bytes.crlf ++ Bytes.crlf <:+ s := by
  simp [EndsHead, forall_and]

theorem EndsHead.length_eq {s : Bytes} {length length' : ℕ} (h : EndsHead s length)
    (h' : EndsHead s length') : length = length' := by
  have hboth : ¬ ([Bytes.lf, Bytes.lf] <:+ s ∧ Bytes.crlf ++ Bytes.crlf <:+ s) := by
    rintro ⟨⟨u, rfl⟩, ⟨v, hv⟩⟩
    have hreverse := congrArg List.reverse hv
    simp [Bytes.crlf] at hreverse
  obtain ⟨rfl, hlf⟩ | ⟨rfl, hcrlf⟩ := h
  · obtain ⟨rfl, -⟩ | ⟨-, hcrlf⟩ := h'
    · rfl
    · exact absurd ⟨hlf, hcrlf⟩ hboth
  · obtain ⟨-, hlf⟩ | ⟨rfl, -⟩ := h'
    · exact absurd ⟨hlf, hcrlf⟩ hboth
    · rfl

theorem EndsHead.le_length {s : Bytes} {length : ℕ} (h : EndsHead s length) :
    length ≤ s.length := by
  obtain ⟨rfl, hsuffix⟩ | ⟨rfl, hsuffix⟩ := h
  · exact hsuffix.length_le
  · exact hsuffix.length_le

theorem FirstEnd.unique {s : Bytes} {e e' : HeadEnd} (h : FirstEnd s e) (h' : FirstEnd s e') :
    e = e' := by
  have hstart : e.bodyStart = e'.bodyStart := by
    refine Nat.le_antisymm (Nat.le_of_not_lt fun hlt => ?_) (Nat.le_of_not_lt fun hlt => ?_)
    · exact h.first _ hlt _ h'.endsHead
    · exact h'.first _ hlt _ h.endsHead
  have hlength := h.endsHead.length_eq (hstart ▸ h'.endsHead)
  obtain ⟨offset, length⟩ := e
  obtain ⟨offset', length'⟩ := e'
  simp only [HeadEnd.bodyStart] at hstart hlength
  simp only [HeadEnd.mk.injEq]
  omega

/-- A first end stays the first one when octets are added. -/
theorem FirstEnd.append {s : Bytes} {e : HeadEnd} (h : FirstEnd s e) (t : Bytes) :
    FirstEnd (s ++ t) e := by
  have htake : ∀ k ≤ e.bodyStart, (s ++ t).take k = s.take k := fun k hk =>
    List.take_append_of_le_length (hk.trans h.bodyStart_le)
  refine ⟨?_, ?_, fun k hk => ?_⟩
  · rw [List.length_append]
    exact h.bodyStart_le.trans (Nat.le_add_right _ _)
  · rw [htake _ le_rfl]
    exact h.endsHead
  · rw [htake k hk.le]
    exact h.first k hk

theorem NoEnd.not_firstEnd {s : Bytes} (h : NoEnd s) (e : HeadEnd) : ¬ FirstEnd s e :=
  fun he => h _ _ he.endsHead

namespace Terminator

/-- The beginning of a terminator that a state stands for. -/
def text : Terminator → Bytes
  | start => []
  | cr1 => [Bytes.cr]
  | lf1 => [Bytes.cr, Bytes.lf]
  | cr2 => [Bytes.cr, Bytes.lf, Bytes.cr]
  | lf => [Bytes.lf]

/-- What has been read ends with the same beginnings of a terminator as the text of the state. -/
def Remembers (t : Terminator) (read : Bytes) : Prop :=
  ∀ u : Terminator, u.text <:+ read ↔ u.text <:+ t.text

theorem remembers_nil : start.Remembers [] := fun _ => Iff.rfl

variable {t t' : Terminator} {read : Bytes} {b : UInt8}

/-- One octet longer, the octets that were read may be replaced by the text of the state. -/
theorem Remembers.concat_suffix_iff (h : t.Remembers read) (u : Terminator) (c b : UInt8) :
    u.text ++ [c] <:+ read ++ [b] ↔ u.text ++ [c] <:+ t.text ++ [b] := by
  rw [concat_suffix_concat_iff, concat_suffix_concat_iff, h u]

theorem Remembers.text_suffix_iff (h : t.Remembers read) (u : Terminator) (b : UInt8) :
    u.text <:+ read ++ [b] ↔ u.text <:+ t.text ++ [b] := by
  cases u with
  | start => simp [text]
  | cr1 => exact h.concat_suffix_iff start Bytes.cr b
  | lf1 => exact h.concat_suffix_iff cr1 Bytes.lf b
  | cr2 => exact h.concat_suffix_iff lf1 Bytes.cr b
  | lf => exact h.concat_suffix_iff start Bytes.lf b

theorem Remembers.endsHead_iff (h : t.Remembers read) (b : UInt8) (length : ℕ) :
    EndsHead (read ++ [b]) length ↔ EndsHead (t.text ++ [b]) length :=
  or_congr (and_congr_right fun _ => h.concat_suffix_iff lf Bytes.lf b)
    (and_congr_right fun _ => h.concat_suffix_iff cr2 Bytes.lf b)

/-- No beginning of a terminator, and no terminator, ends in an octet of no line break. -/
theorem not_suffix_concat {s : Bytes} (hb : isBreakByte b = false) :
    (∀ u : Terminator, u.text <:+ s ++ [b] ↔ u.text <:+ start.text) ∧
      ∀ length, ¬ EndsHead (s ++ [b]) length := by
  obtain ⟨hlf, hcr⟩ : b ≠ Bytes.lf ∧ b ≠ Bytes.cr := by
    simpa using isBreakByte_eq_false_iff.1 hb
  have hno : ∀ (u : Bytes) (c : UInt8), c ≠ b → ¬ u ++ [c] <:+ s ++ [b] := by
    exact fun u c hc hsuffix => hc (concat_suffix_concat_iff.1 hsuffix).2
  refine ⟨fun u => ?_, fun length hends => ?_⟩
  · cases u with
    | start => simp [text]
    | cr1 => exact iff_of_false (hno [] _ hcr.symm) (by decide)
    | lf1 => exact iff_of_false (hno [_] _ hlf.symm) (by decide)
    | cr2 => exact iff_of_false (hno [_, _] _ hcr.symm) (by decide)
    | lf => exact iff_of_false (hno [] _ hlf.symm) (by decide)
  · obtain ⟨-, hsuffix⟩ | ⟨-, hsuffix⟩ := hends
    · exact hno [_] _ hlf.symm hsuffix
    · exact hno [_, _, _] _ hlf.symm hsuffix

/-- An octet that completes nothing brings the matcher into the state that remembers it. -/
theorem Remembers.step_of_none (h : t.Remembers read) (hstep : t.step b = (t', none)) :
    t'.Remembers (read ++ [b]) ∧ ∀ length, ¬ EndsHead (read ++ [b]) length := by
  have hstate : (∀ u : Terminator, u.text <:+ t.text ++ [b] ↔ u.text <:+ t'.text) ∧
      ∀ length, ¬ EndsHead (t.text ++ [b]) length := by
    cases hb : isBreakByte b with
    | false =>
      rw [step_of_not_break hb] at hstep
      cases hstep
      exact not_suffix_concat hb
    | true =>
      obtain rfl | rfl : b = Bytes.cr ∨ b = Bytes.lf := by simpa [isBreakByte] using hb
      · cases t <;> cases hstep <;>
          exact ⟨fun u => by cases u <;> decide, forall_not_endsHead_iff.2 (by decide)⟩
      · cases t <;> cases hstep <;>
          exact ⟨fun u => by cases u <;> decide, forall_not_endsHead_iff.2 (by decide)⟩
  refine ⟨fun u => ?_, fun length => ?_⟩
  · rw [h.text_suffix_iff]
    exact hstate.1 u
  · rw [h.endsHead_iff]
    exact hstate.2 length

/-- An octet that completes a terminator does so behind what was read. -/
theorem Remembers.step_of_some (h : t.Remembers read) {length : ℕ}
    (hstep : t.step b = (t', some length)) : EndsHead (read ++ [b]) length := by
  rw [h.endsHead_iff]
  cases hb : isBreakByte b with
  | false =>
    rw [step_of_not_break hb] at hstep
    cases hstep
  | true =>
    obtain rfl | rfl : b = Bytes.cr ∨ b = Bytes.lf := by simpa [isBreakByte] using hb
    · cases t <;> cases hstep
    · cases t <;> cases hstep <;> decide

/-- What a run comes to: it stops at the first terminator that ends behind `read`, or there is
none. -/
theorem Remembers.run (h : t.Remembers read) {s : Bytes} {n : ℕ} {found : Option ℕ}
    (hrun : t.run s = (t', n, found)) :
    n ≤ s.length ∧ (∀ k < n, 0 < k → ∀ length, ¬ EndsHead (read ++ s.take k) length) ∧
      match found with
      | some length => EndsHead (read ++ s.take n) length
      | none => n = s.length ∧ (0 < n → ∀ length, ¬ EndsHead (read ++ s) length) := by
  induction s generalizing t read n with
  | nil =>
    cases hrun
    simp
  | cons b s ih =>
    -- The state remembers what was read before `b`, so it remembers `read ++ [b]` or has stopped.
    rcases hstep : t.step b with ⟨t1, _ | length⟩
    · obtain ⟨hremembers, hno⟩ := h.step_of_none hstep
      rcases hlater : t1.run s with ⟨t2, m, found⟩
      rw [run_cons_of_none hstep, hlater] at hrun
      simp only [Prod.mk.injEq] at hrun
      obtain ⟨rfl, rfl, rfl⟩ := hrun
      obtain ⟨hle, hfirst, hfound⟩ := ih hremembers hlater
      simp only [List.append_assoc, List.singleton_append] at hfirst hfound
      refine ⟨by simpa using hle, fun k hk hpos => ?_, ?_⟩
      · obtain ⟨k, rfl⟩ := Nat.exists_eq_add_one_of_ne_zero hpos.ne'
        rw [List.take_succ_cons]
        by_cases hzero : k = 0
        · subst hzero
          exact hno
        · exact hfirst k (by omega) (by omega)
      · cases found with
        | some length => exact hfound
        | none =>
          obtain ⟨rfl, hlast⟩ := hfound
          refine ⟨rfl, fun _ => ?_⟩
          by_cases hnil : s = []
          · subst hnil
            exact hno
          · exact hlast (List.length_pos_iff.2 hnil)
    · rw [run_cons_of_some hstep] at hrun
      cases hrun
      refine ⟨by simp, fun k hk hpos => by omega, ?_⟩
      exact h.step_of_some hstep

/-- There is no end before anything has been read. -/
theorem not_endsHead_nil (length : ℕ) : ¬ EndsHead [] length := by
  simp [EndsHead, Bytes.crlf]

theorem firstEnd_of_run {s : Bytes} {n length : ℕ} (hrun : start.run s = (t', n, some length)) :
    FirstEnd s ⟨n - length, length⟩ := by
  obtain ⟨hle, hfirst, hends⟩ := remembers_nil.run hrun
  have hlength := EndsHead.le_length hends
  simp only [List.nil_append, List.length_take] at hfirst hends hlength
  have hstart : (⟨n - length, length⟩ : HeadEnd).bodyStart = n := by
    simp only [HeadEnd.bodyStart]
    omega
  refine ⟨hstart.trans_le hle, by rwa [hstart], fun k hk => ?_⟩
  by_cases hzero : k = 0
  · subst hzero
    exact not_endsHead_nil
  · exact hfirst k (hstart ▸ hk) (by omega)

theorem noEnd_of_passes {s : Bytes} (hpasses : start.Passes s t') : NoEnd s := by
  obtain ⟨-, hfirst, -, hlast⟩ := remembers_nil.run hpasses
  simp only [List.nil_append] at hfirst hlast
  intro k
  by_cases hzero : s.take k = []
  · rw [hzero]
    exact not_endsHead_nil
  · have hpos : 0 < k ∧ 0 < s.length := by
      rw [List.take_eq_nil_iff, not_or] at hzero
      exact ⟨Nat.pos_of_ne_zero hzero.1, List.length_pos_iff.2 hzero.2⟩
    by_cases hk : k < s.length
    · exact hfirst k hk hpos.1
    · rw [List.take_of_length_le (by omega)]
      exact hlast hpos.2

/-- The matcher finds the first end. -/
theorem exists_run_iff (s : Bytes) (e : HeadEnd) :
    (∃ t, start.run s = (t, e.bodyStart, some e.length)) ↔ FirstEnd s e := by
  constructor
  · rintro ⟨t, hrun⟩
    simpa [HeadEnd.bodyStart] using firstEnd_of_run hrun
  · intro h
    obtain ⟨t, hpasses⟩ | ⟨t, n, length, hrun⟩ := start.run_cases s
    · exact absurd h ((noEnd_of_passes hpasses).not_firstEnd e)
    · obtain rfl := h.unique (firstEnd_of_run hrun)
      have hlength := (bounds_of_run hrun).2.2
      simp only [held, Nat.zero_add] at hlength
      refine ⟨t, ?_⟩
      rw [hrun]
      simp only [HeadEnd.bodyStart, Nat.sub_add_cancel hlength]

theorem exists_passes_iff (s : Bytes) : (∃ t, start.Passes s t) ↔ NoEnd s := by
  refine ⟨fun ⟨t, hpasses⟩ => noEnd_of_passes hpasses, fun h => ?_⟩
  obtain hpasses | ⟨t, n, length, hrun⟩ := start.run_cases s
  · exact hpasses
  · exact absurd (firstEnd_of_run hrun) (h.not_firstEnd _)

end Terminator

end CoopHttp
