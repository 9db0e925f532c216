import CoopHttp.Compression.Gzip
import CoopHttp.Compression.Zlib
import CoopHttp.Proofs.Compression.Windows
import CoopHttp.Proofs.Except

/-!
# Reading a framed stream

A decoder of a framed stream is at some place of it: in the head, in the octets of the stream, or in
what stands behind them. Every octet brings it on by one place, wherever the input is cut, and at the
end it has what the stream puts out. All that is asked of a framing is that it reads its own head and
its own trailers.
-/
namespace CoopHttp

@[simp] theorem length_littleEndian (size n : ℕ) : (littleEndian size n).length = size := by
  induction size generalizing n with
  | zero => rfl
  | succ size ih => rw [littleEndian, List.length_cons, ih]

namespace FramedDecoder

variable {χ : Type} {F : Framing χ} {d d' : FramedDecoder χ} {s u : Inflater}

theorem readByte_of_release (h : d.release = some d') (b : UInt8) :
    d.readByte F b = d'.step F b := by
  rw [readByte, h]

theorem release_of_held (h : d.inflater.held = []) : d.release = some d := by
  rw [release, if_pos (by rw [h]; rfl)]

theorem readByte_of_held (h : d.inflater.held = []) (b : UInt8) : d.readByte F b = d.step F b :=
  readByte_of_release (release_of_held h) b

theorem release_inBody (h : s.release = some u) :
    (inBody s : FramedDecoder χ).release = some (inBody u) := by
  rw [release]
  split
  · rename_i hheld
    rw [Inflater.release_of_held (s := s) (List.isEmpty_iff.1 hheld)] at h
    rw [Option.some.inj h]
  · exact congrArg (Option.map inBody) h

theorem inBody_of_done (h : s.isDone = true) : (inBody s : FramedDecoder χ) = ⟨.trailer [], s⟩ := by
  rw [inBody, if_pos h]

theorem inBody_of_not_done (h : s.isDone = false) : (inBody s : FramedDecoder χ) = ⟨.body, s⟩ := by
  simp only [inBody, h, Bool.false_eq_true, if_false]

end FramedDecoder

namespace Framing

open FramedDecoder

variable {χ : Type} {F : Framing χ} {t : Inflater} {rest : Bytes} {d : FramedDecoder χ}

/-- These octets are what is missing of a head. -/
def EndsHead (F : Framing χ) : χ → Bytes → Prop
  | _, [] => False
  | known, [b] => F.readHead known b = .ok none
  | known, b :: left => ∃ later, F.readHead known b = .ok (some later) ∧ F.EndsHead later left

/-- What is written in the framing can be read. -/
structure Sound (F : Framing χ) : Prop where
  endsHead : F.EndsHead F.start F.head
  trailer_ne_nil : ∀ output, F.trailer output ≠ []
  readTrailer : ∀ {output : Array UInt8} {read left : Bytes} {b : UInt8},
    read ++ b :: left = F.trailer output → F.readTrailer output read b = .ok (read ++ [b])
  checkEnd : ∀ output, F.checkEnd (.trailer (F.trailer output)) output = .ok ()

/-- The decoder has read a framed stream that leads to `t` up to what is left of it. -/
inductive Expects (F : Framing χ) (t : Inflater) : Bytes → FramedDecoder χ → Prop
  | head {known : χ} {left octets : Bytes} {s : Inflater} (hleft : F.EndsHead known left)
    (hheld : s.held = []) (hdone : s.isDone = false) (later : s.LeadsTo octets t) :
    Expects F t (left ++ (octets ++ F.trailer t.output)) ⟨.head known, s⟩
  | body {octets : Bytes} {s : Inflater} (later : s.LeadsTo octets t) :
    Expects F t (octets ++ F.trailer t.output) (inBody s)
  | trailer {read left : Bytes} {s : Inflater} (hread : read ++ left = F.trailer t.output)
    (hheld : s.held = []) (houtput : s.output = t.output) : Expects F t left ⟨.trailer read, s⟩

theorem Expects.openWindow (h : F.Expects t rest d) :
    F.Expects t rest { d with inflater := d.inflater.openWindow } := by
  cases h with
  | head hleft hheld hdone later => exact .head hleft hheld hdone later.openWindow
  | body later => exact .body later.openWindow
  | trailer hread hheld houtput => exact .trailer hread hheld houtput

/-- Behind the stream an octet of the trailer follows. -/
theorem Sound.readByte_trailer (hF : F.Sound) {read left : Bytes} {b : UInt8} {s : Inflater}
    (hread : read ++ b :: left = F.trailer t.output) (hheld : s.held = [])
    (houtput : s.output = t.output) :
    ∃ d', (⟨.trailer read, s⟩ : FramedDecoder χ).readByte F b = .ok d' ∧ F.Expects t left d' := by
  refine ⟨⟨.trailer (read ++ [b]), s⟩, ?_, .trailer (by simpa using hread) hheld houtput⟩
  rw [readByte_of_held hheld]
  simp only [step, houtput, hF.readTrailer hread]
  rfl

theorem Expects.readByte (hF : F.Sound) {b : UInt8} (ht : t.phase = .done)
    (h : F.Expects t (b :: rest) d) : ∃ d', d.readByte F b = .ok d' ∧ F.Expects t rest d' := by
  generalize hwhole : b :: rest = whole at h
  cases h with
  | @head known left octets s hleft hheld hdone later =>
    rw [readByte_of_held hheld]
    simp only [step]
    match left, hleft with
    | [c], hlast =>
      obtain ⟨rfl, rfl⟩ := List.cons.inj hwhole
      refine ⟨⟨.body, s⟩, by rw [show F.readHead known b = _ from hlast]; rfl, ?_⟩
      rw [← inBody_of_not_done hdone]
      exact .body later
    | c :: c' :: left, hleft =>
      obtain ⟨rfl, rfl⟩ := List.cons.inj hwhole
      obtain ⟨more, hread, hmore⟩ := hleft
      exact ⟨⟨.head more, s⟩, by rw [hread]; rfl, .head hmore hheld hdone later⟩
  | @body octets s later =>
    obtain _ | ⟨c, octets⟩ := octets
    · -- the stream has ended, if only in what was held back: this octet is behind it
      obtain ⟨u, hrelease, rfl⟩ := later.release_eq
      have hheld := Inflater.held_of_release hrelease
      have hdone : u.isDone = true := decide_eq_true ht
      have hread : [] ++ b :: rest = F.trailer u.output := hwhole
      obtain ⟨d', hd', hexpects⟩ := hF.readByte_trailer (t := u.withWindow 0 []) hread hheld rfl
      refine ⟨d', ?_, hexpects⟩
      rw [readByte_of_release (release_inBody hrelease), inBody_of_done hdone, ← hd']
      exact (readByte_of_held hheld b).symm
    · obtain ⟨rfl, rfl⟩ := List.cons.inj hwhole
      obtain ⟨u, v, hrelease, hdone, hread, hlater⟩ := later.readByte
      refine ⟨inBody v, ?_, .body hlater⟩
      rw [readByte_of_release (release_inBody hrelease), inBody_of_not_done hdone]
      simp only [step, hread]
  | trailer hread hheld houtput =>
    subst hwhole
    exact hF.readByte_trailer hread hheld houtput

/-- A piece of the stream is read, and nothing is wrong with it. -/
theorem Expects.feed (hF : F.Sound) (ht : t.phase = .done) {piece : Bytes}
    (h : F.Expects t (piece ++ rest) d) : ∃ d', d.feed F piece = .ok d' ∧ F.Expects t rest d' := by
  rw [FramedDecoder.feed]
  split
  · rename_i hempty
    obtain rfl := List.isEmpty_iff.1 hempty
    exact ⟨d, rfl, h⟩
  · exact exists_foldlM_eq_ok (Expects.readByte hF ht) h.openWindow

theorem Expects.finish (hF : F.Sound) (h : F.Expects t [] d) : d.finish F = .ok t.output := by
  generalize hwhole : ([] : Bytes) = whole at h
  cases h with
  | @head known left _ _ hleft =>
    obtain rfl := (List.append_eq_nil_iff.1 hwhole.symm).1
    exact hleft.elim
  | body later =>
    exact absurd (List.append_eq_nil_iff.1 hwhole.symm).2 (hF.trailer_ne_nil t.output)
  | @trailer read left s hread hheld houtput =>
    subst hwhole
    obtain rfl : read = F.trailer t.output := List.append_nil read ▸ hread
    have hrelease := release_of_held (d := (⟨.trailer (F.trailer t.output), s⟩ : FramedDecoder χ)) hheld
    simp only [FramedDecoder.finish, hrelease, houtput, hF.checkEnd]
    rfl

end Framing

namespace Zlib

@[simp] theorem length_checksum (data : Array UInt8) : (checksum data).length = 4 := by
  simp [checksum, bigEndian]

end Zlib

namespace Gzip

@[simp] theorem length_trailer (data : Array UInt8) : (trailer data).length = 8 := by
  simp [trailer]

end Gzip

end CoopHttp
