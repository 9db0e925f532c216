import CoopHttp.Proofs.Compression.Writing

/-!
# Inflating window by window

What a decoder makes of a bit depends neither on its window nor on the bits it holds back. So reading
octets window by window comes to the same as reading their bits one after another: what is held back
where a window overflows is read later, and none of it is lost or read twice.
-/
namespace CoopHttp

namespace Inflater

/-- The same decoder in another window and with other bits held back. -/
def withWindow (windowEnd : ℕ) (held : List Bool) (s : Inflater) : Inflater :=
  { s with windowEnd, held }

section WithWindow

variable (s : Inflater) (windowEnd : ℕ) (held : List Bool)

theorem endBlock_withWindow :
    (s.withWindow windowEnd held).endBlock = s.endBlock.withWindow windowEnd held := by
  rw [endBlock, endBlock, apply_ite (withWindow windowEnd held)]
  rfl

theorem behindLengths_withWindow (counts : CodeCounts) (code : HuffmanCode) (read : List ℕ) :
    (s.withWindow windowEnd held).behindLengths counts code read =
      (s.behindLengths counts code read).map (withWindow windowEnd held) := by
  simp only [behindLengths, apply_ite (Option.map (withWindow windowEnd held)), Option.map_some,
    Option.map_none]
  rfl

theorem useNumber_withWindow (value : ℕ) (use : NumberUse) :
    (s.withWindow windowEnd held).useNumber value use =
      (s.useNumber value use).map (withWindow windowEnd held) := by
  cases use with
  | blockHeader => simp only [useNumber]; split <;> rfl
  | codeCounts => simp only [useNumber]; split <;> rfl
  | metaLength counts left read =>
    simp only [useNumber]
    split
    · rfl
    · split <;> rfl
  | repetition counts code read what => exact behindLengths_withWindow ..
  | copyLength codes base => rfl
  | copyDistance codes length base => rfl

theorem useSymbol_withWindow (symbol : ℕ) (use : WordUse) :
    (s.withWindow windowEnd held).useSymbol symbol use =
      (s.useSymbol symbol use).map (withWindow windowEnd held) := by
  cases use with
  | codeLength counts code read =>
    simp only [useSymbol]
    split
    · split <;> rfl
    · rfl
    · rfl
    · exact behindLengths_withWindow ..
  | literal codes =>
    simp only [useSymbol]
    split
    · rfl
    · split
      · rw [endBlock_withWindow]
        rfl
      · split <;> rfl
  | distance codes length =>
    simp only [useSymbol]
    split <;> rfl

theorem readBit_withWindow (bit : Bool) :
    (s.withWindow windowEnd held).readBit bit = (s.readBit bit).map (withWindow windowEnd held) := by
  obtain ⟨phase, last, output, windowEnd', held'⟩ := s
  cases phase with
  | number left value weight use =>
    simp only [readBit, withWindow]
    split
    · exact useNumber_withWindow ⟨.number left value weight use, last, output, windowEnd', held'⟩
        windowEnd held _ use
    · rfl
  | word walk use =>
    simp only [readBit, withWindow]
    split
    · exact useSymbol_withWindow ⟨.word walk use, last, output, windowEnd', held'⟩ windowEnd held _ use
    · rfl
    · rfl
  | storedLength | stored | done => rfl

/-- Reading bits commutes with a change of the window and of the bits held back. -/
theorem foldlM_readBit_withWindow (bits : List Bool) :
    bits.foldlM readBit (s.withWindow windowEnd held) =
      (bits.foldlM readBit s).map (withWindow windowEnd held) := by
  induction bits generalizing s with
  | nil => rfl
  | cons bit bits ih =>
    rw [List.foldlM_cons, List.foldlM_cons, readBit_withWindow]
    cases s.readBit bit with
    | none => rfl
    | some t => exact ih t

end WithWindow

variable {s t u : Inflater}

theorem withWindow_of_readBit {bit : Bool} (h : s.readBit bit = some t) :
    t.withWindow s.windowEnd s.held = t := by
  have hsame := readBit_withWindow s s.windowEnd s.held bit
  rw [h] at hsame
  exact (Option.some.inj ((h.symm.trans hsame))).symm

theorem withWindow_of_foldlM {bits : List Bool} (h : bits.foldlM readBit s = some t) :
    t.withWindow s.windowEnd s.held = t := by
  have hsame := foldlM_readBit_withWindow s s.windowEnd s.held bits
  rw [h] at hsame
  exact (Option.some.inj ((h.symm.trans hsame))).symm

/-- What the bits held back lead to, the window aside. -/
def settled (s : Inflater) : Option Inflater := s.release.map (withWindow 0 [])

theorem release_of_held (h : s.held = []) : s.release = some s := by
  obtain ⟨phase, last, output, windowEnd, held⟩ := s
  obtain rfl := h
  rfl

theorem held_of_release (h : s.release = some u) : u.held = [] :=
  (congrArg held (withWindow_of_foldlM h)).symm

theorem settled_eq (s : Inflater) :
    s.settled = s.held.foldlM readBit (s.withWindow 0 []) :=
  (foldlM_readBit_withWindow { s with held := [] } 0 [] s.held).symm

theorem settled_of_held (h : s.held = []) : s.settled = some (s.withWindow 0 []) := by
  rw [settled_eq, h]
  rfl

theorem settled_openWindow (s : Inflater) : s.openWindow.settled = s.settled := by
  rw [settled_eq, settled_eq]
  rfl

/-- No bit is lost where a window overflows. -/
theorem settled_readBits (h : s.held = []) (bits : List Bool) :
    (s.readBits bits).bind settled = (bits.foldlM readBit s).map (withWindow 0 []) := by
  induction bits generalizing s with
  | nil => exact settled_of_held h
  | cons bit bits ih =>
    rw [readBits, List.foldlM_cons]
    cases hread : s.readBit bit with
    | none => rfl
    | some t =>
      have hheld : t.held = [] := h ▸ (congrArg held (withWindow_of_readBit hread)).symm
      simp only
      split
      · -- the bits behind the overflow are read in the next window, which makes no difference
        rw [Option.bind_some, settled_eq]
        exact foldlM_readBit_withWindow t 0 [] bits
      · exact ih hheld

/-- The decoder takes octets bit by bit, since it is in a number or in a word. -/
def InBits (s : Inflater) : Prop :=
  match s.phase with
  | .number .. | .word .. => True
  | .storedLength _ | .stored _ | .done => False

theorem InBits.isDone_eq (h : s.InBits) : s.isDone = false := by
  cases hphase : s.phase with
  | done => simp [InBits, hphase] at h
  | _ => simp [isDone, hphase]

theorem InBits.readByte_eq (h : s.InBits) (b : UInt8) : s.readByte b = s.readBits (bitsOf b) := by
  cases hphase : s.phase with
  | number left value weight use => simp only [readByte, hphase]
  | word walk use => simp only [readByte, hphase]
  | _ => simp [InBits, hphase] at h

/-- Reading bits, all of them in numbers and words. -/
inductive Reads : Inflater → List Bool → Inflater → Prop
  | nil (s : Inflater) : Reads s [] s
  | cons {s t u : Inflater} {bit : Bool} {bits : List Bool} (inBits : s.InBits)
    (read : s.readBit bit = some t) (later : Reads t bits u) : Reads s (bit :: bits) u

theorem Reads.foldlM {bits : List Bool} (h : Reads s bits t) : bits.foldlM readBit s = some t := by
  induction h with
  | nil s => rfl
  | cons _ read _ ih => rw [List.foldlM_cons, read]; exact ih

theorem Reads.append {bits more : List Bool} (h : Reads s bits t) (hlater : Reads t more u) :
    Reads s (bits ++ more) u := by
  induction h with
  | nil s => exact hlater
  | cons inBits read _ ih => exact .cons inBits read (ih hlater)

theorem Reads.split {bits more : List Bool} (h : Reads s (bits ++ more) u) :
    ∃ t, Reads s bits t ∧ Reads t more u := by
  induction bits generalizing s with
  | nil => exact ⟨s, .nil s, h⟩
  | cons bit bits ih =>
    rw [List.cons_append] at h
    cases h with
    | cons inBits read later =>
      obtain ⟨t, hbits, hmore⟩ := ih later
      exact ⟨t, .cons inBits read hbits, hmore⟩

inductive ReadsOctets : Inflater → Bytes → Inflater → Prop
  | nil (s : Inflater) : ReadsOctets s [] s
  | cons {s t u : Inflater} {b : UInt8} {octets : Bytes} (inBits : s.InBits)
    (read : (bitsOf b).foldlM readBit s = some t) (later : ReadsOctets t octets u) :
    ReadsOctets s (b :: octets) u

theorem Reads.inBits {bits : List Bool} (h : Reads s bits t) (hne : bits ≠ []) : s.InBits := by
  cases h with
  | nil => exact absurd rfl hne
  | cons inBits _ _ => exact inBits

theorem foldlM_readBit_of_done (h : t.phase = .done) (bits : List Bool) :
    bits.foldlM readBit t = some t := by
  induction bits with
  | nil => rfl
  | cons bit bits ih =>
    have hbit : t.readBit bit = some t := by simp only [readBit, h]
    rw [List.foldlM_cons, hbit]
    exact ih

/-- A stream with less than an octet of anything behind it is read octet by octet to its end. -/
theorem Reads.octets {bits padding : List Bool} {octets : Bytes} (h : Reads s bits t)
    (hdone : t.phase = .done) (hpadding : padding.length < 8)
    (hoctets : octets.flatMap bitsOf = bits ++ padding) : ReadsOctets s octets t := by
  induction octets generalizing s bits with
  | nil =>
    obtain ⟨rfl, -⟩ := List.append_eq_nil_iff.1 hoctets.symm
    cases h
    exact .nil _
  | cons b octets ih =>
    rw [List.flatMap_cons] at hoctets
    obtain ⟨later, rfl, hlater⟩ | ⟨left, hoctet, hpad⟩ := List.append_eq_append_iff.1 hoctets
    · obtain ⟨u, hoctet, hrest⟩ := h.split
      exact .cons (hoctet.inBits (List.cons_ne_nil _ _)) hoctet.foldlM (ih hrest hlater)
    · -- the stream ends in this octet, and no other one follows
      have hlength := congrArg List.length hpad
      have hsize := congrArg List.length hoctet
      rw [List.length_append] at hlength hsize
      rw [length_bitsOf] at hsize
      have hbits : bits ≠ [] := fun hnil => by simp [hnil] at hsize; omega
      have hlast : octets = [] := by
        cases octets with
        | nil => rfl
        | cons b' octets =>
          rw [List.flatMap_cons, List.length_append, length_bitsOf] at hlength
          omega
      subst hlast
      refine .cons (h.inBits hbits) ?_ (.nil t)
      rw [hoctet, List.foldlM_append, h.foldlM]
      exact foldlM_readBit_of_done hdone left

/-- What is held back, and octets behind it, lead a decoder to `t`, windows aside. -/
def LeadsTo (s : Inflater) (octets : Bytes) (t : Inflater) : Prop :=
  ∃ u, s.release = some u ∧ ReadsOctets (u.withWindow 0 []) octets t

theorem LeadsTo.openWindow {octets : Bytes} (h : s.LeadsTo octets t) :
    s.openWindow.LeadsTo octets t := by
  obtain ⟨u, hrelease, hreads⟩ := h
  have hsettled := settled_openWindow s
  rw [settled, settled, hrelease, Option.map_some] at hsettled
  obtain ⟨v, hv, hsame⟩ := Option.map_eq_some_iff.1 hsettled
  exact ⟨v, hv, hsame ▸ hreads⟩

/-- One octet more is read, as soon as what is held back has been. -/
theorem LeadsTo.readByte {b : UInt8} {octets : Bytes} (h : s.LeadsTo (b :: octets) t) :
    ∃ u v, s.release = some u ∧ u.isDone = false ∧ u.readByte b = some v ∧ v.LeadsTo octets t := by
  obtain ⟨u, hrelease, hreads⟩ := h
  cases hreads with
  | cons inBits read later =>
    rename_i w
    have hin : u.InBits := inBits
    have hsettled := settled_readBits (held_of_release hrelease) (bitsOf b)
    rw [← foldlM_readBit_withWindow, read, ← hin.readByte_eq] at hsettled
    obtain ⟨v, hv, hvw⟩ := Option.bind_eq_some_iff.1 hsettled
    obtain ⟨x, hx, rfl⟩ := Option.map_eq_some_iff.1 hvw
    exact ⟨u, v, hrelease, hin.isDone_eq, hv, x, hx, later⟩

theorem LeadsTo.release_eq (h : s.LeadsTo [] t) :
    ∃ u, s.release = some u ∧ u.withWindow 0 [] = t := by
  obtain ⟨u, hrelease, hreads⟩ := h
  cases hreads with
  | nil => exact ⟨u, hrelease, rfl⟩

end Inflater

end CoopHttp
