import CoopHttp.Compression.Codec
import CoopHttp.Proofs.Except
import Mathlib.Data.List.Basic

/-!
# What has been put out stays

No step of a codec takes back or changes an octet that it has put out, in any of the four modes and
whatever the input is: the output so far is the beginning of all later output, and of all that the
end of the stream hands out.
-/
namespace CoopHttp

theorem prefix_toList_push (output : Array UInt8) (b : UInt8) :
    output.toList <+: (output.push b).toList := by
  rw [Array.toList_push]
  exact List.prefix_append _ _

namespace BitWriter

theorem prefix_writeBit (w : BitWriter) (bit : Bool) :
    w.output.toList <+: (w.writeBit bit).output.toList := by
  rw [writeBit]
  split
  · exact prefix_toList_push _ _
  · exact List.prefix_rfl

theorem prefix_write (w : BitWriter) (bits : List Bool) :
    w.output.toList <+: (w.write bits).output.toList := by
  induction bits generalizing w with
  | nil => exact List.prefix_rfl
  | cons bit bits ih => exact (w.prefix_writeBit bit).trans (ih (w.writeBit bit))

theorem prefix_close (w : BitWriter) : w.output.toList <+: w.close.toList := by
  rw [close]
  split
  · exact List.prefix_rfl
  · exact prefix_toList_push _ _

end BitWriter

namespace Inflater

variable {s t : Inflater}

theorem prefix_of_output (h : t.output = s.output) : s.output.toList <+: t.output.toList :=
  h ▸ List.prefix_rfl

theorem prefix_copy (output : Array UInt8) (distance length : ℕ) :
    output.toList <+: (copy output distance length).toList := by
  induction length generalizing output with
  | zero => exact List.prefix_rfl
  | succ length ih => exact (prefix_toList_push output _).trans (ih _)

theorem output_endBlock (s : Inflater) : s.endBlock.output = s.output := by
  rw [endBlock]
  split <;> rfl

theorem output_behindLengths {counts : CodeCounts} {code : HuffmanCode} {read : List ℕ}
    (h : s.behindLengths counts code read = some t) : t.output = s.output := by
  simp only [behindLengths] at h
  split_ifs at h <;> exact (congrArg output (Option.some.inj h)).symm

theorem prefix_useNumber {value : ℕ} {use : NumberUse} (h : s.useNumber value use = some t) :
    s.output.toList <+: t.output.toList := by
  cases use with
  | blockHeader =>
    simp only [useNumber] at h
    split at h <;> cases h <;> exact List.prefix_rfl
  | codeCounts =>
    simp only [useNumber] at h
    split at h <;> cases h
    exact List.prefix_rfl
  | metaLength counts left read =>
    simp only [useNumber] at h
    split at h
    · cases h
      exact List.prefix_rfl
    · split at h <;> cases h
      exact List.prefix_rfl
  | repetition counts code read what => exact prefix_of_output (output_behindLengths h)
  | copyLength codes base =>
    cases h
    exact List.prefix_rfl
  | copyDistance codes length base =>
    cases h
    exact prefix_copy _ _ _

theorem prefix_useSymbol {symbol : ℕ} {use : WordUse} (h : s.useSymbol symbol use = some t) :
    s.output.toList <+: t.output.toList := by
  cases use with
  | codeLength counts code read =>
    simp only [useSymbol] at h
    split at h
    · split at h <;> cases h
      exact List.prefix_rfl
    · cases h
      exact List.prefix_rfl
    · cases h
      exact List.prefix_rfl
    · exact prefix_of_output (output_behindLengths h)
  | literal codes =>
    simp only [useSymbol] at h
    split_ifs at h
    · cases h
      exact prefix_toList_push _ _
    · cases h
      exact prefix_of_output s.output_endBlock
    · split at h <;> cases h <;> exact List.prefix_rfl
  | distance codes length =>
    simp only [useSymbol] at h
    split at h <;> cases h
    · exact prefix_copy _ _ _
    · exact List.prefix_rfl

theorem prefix_readBit {bit : Bool} (h : s.readBit bit = some t) :
    s.output.toList <+: t.output.toList := by
  simp only [readBit] at h
  split at h
  · split at h
    · exact prefix_useNumber h
    · cases h
      exact List.prefix_rfl
  · split at h
    · exact prefix_useSymbol h
    · cases h
      exact List.prefix_rfl
    · cases h
  all_goals
    cases h
    exact List.prefix_rfl

theorem prefix_foldlM_readBit {bits : List Bool} (h : bits.foldlM readBit s = some t) :
    s.output.toList <+: t.output.toList := by
  induction bits generalizing s with
  | nil =>
    cases h
    exact List.prefix_rfl
  | cons bit bits ih =>
    rw [List.foldlM_cons] at h
    obtain ⟨u, hbit, hbits⟩ := Option.bind_eq_some_iff.1 h
    exact (prefix_readBit hbit).trans (ih hbits)

theorem prefix_release (h : s.release = some t) : s.output.toList <+: t.output.toList :=
  prefix_foldlM_readBit (s := { s with held := [] }) h

theorem prefix_readBits {bits : List Bool} (h : s.readBits bits = some t) :
    s.output.toList <+: t.output.toList := by
  induction bits generalizing s with
  | nil =>
    cases h
    exact List.prefix_rfl
  | cons bit bits ih =>
    rw [readBits] at h
    split at h
    · cases h
    · rename_i u hbit
      have hfirst := prefix_readBit hbit
      split at h
      · cases h
        exact hfirst
      · exact hfirst.trans (ih h)

theorem prefix_readByte {b : UInt8} (h : s.readByte b = some t) :
    s.output.toList <+: t.output.toList := by
  simp only [readByte] at h
  split at h
  · split at h
    · split_ifs at h <;> cases h
      · exact prefix_of_output s.output_endBlock
      · exact List.prefix_rfl
    · cases h
      exact List.prefix_rfl
  · have hpush := prefix_toList_push s.output b
    split_ifs at h <;> cases h
    · rw [output_endBlock]
      exact hpush
    · rw [output_endBlock]
      exact hpush
    · exact hpush
    · exact hpush
  · cases h
    exact List.prefix_rfl
  · exact prefix_readBits h
  · exact prefix_readBits h

end Inflater

namespace FramedDecoder

variable {χ : Type} {F : Framing χ} {d d' : FramedDecoder χ}

theorem prefix_release (h : d.release = some d') :
    d.inflater.output.toList <+: d'.inflater.output.toList := by
  rw [release] at h
  split at h
  · cases h
    exact List.prefix_rfl
  · obtain ⟨s, hrelease, rfl⟩ := Option.map_eq_some_iff.1 h
    exact Inflater.prefix_release hrelease

theorem prefix_step {b : UInt8} (h : d.step F b = .ok d') :
    d.inflater.output.toList <+: d'.inflater.output.toList := by
  simp only [step] at h
  split at h
  · obtain ⟨_ | known, -, rfl⟩ := exists_of_map_eq_ok h <;> exact List.prefix_rfl
  · split at h
    · cases h
    · rename_i s hread
      cases h
      exact Inflater.prefix_readByte hread
  · obtain ⟨read, -, rfl⟩ := exists_of_map_eq_ok h
    exact List.prefix_rfl

theorem prefix_readByte {b : UInt8} (h : d.readByte F b = .ok d') :
    d.inflater.output.toList <+: d'.inflater.output.toList := by
  rw [readByte] at h
  split at h
  · cases h
  · rename_i hrelease
    exact (prefix_release hrelease).trans (prefix_step h)

theorem prefix_feed {piece : Bytes} (h : d.feed F piece = .ok d') :
    d.inflater.output.toList <+: d'.inflater.output.toList := by
  rw [feed] at h
  split at h
  · cases h
    exact List.prefix_rfl
  · exact foldlM_invariant
      (P := fun _ later => d.inflater.output.toList <+: later.inflater.output.toList)
      (fun hlater hread => hlater.trans (prefix_readByte hread))
      (show d.inflater.output.toList <+: d.inflater.openWindow.output.toList from List.prefix_rfl) h

theorem prefix_finish {output : Array UInt8} (h : d.finish F = .ok output) :
    d.inflater.output.toList <+: output.toList := by
  rw [finish] at h
  split at h
  · cases h
  · rename_i hrelease
    obtain ⟨-, -, rfl⟩ := exists_of_map_eq_ok h
    exact prefix_release hrelease

end FramedDecoder

namespace Literal

theorem prefix_writeAll (w : BitWriter) (data : Bytes) :
    w.output.toList <+: (writeAll w data).output.toList := by
  induction data generalizing w with
  | nil => exact List.prefix_rfl
  | cons b data ih => exact (w.prefix_write (word b)).trans (ih _)

theorem prefix_closeStream (w : BitWriter) (trailer : Bytes) :
    w.output.toList <+: (closeStream w trailer).toList := by
  rw [closeStream, Array.toList_append]
  exact ((w.prefix_write blockEnd).trans (BitWriter.prefix_close _)).trans
    (List.prefix_append _ _)

end Literal

namespace FramedStream

variable {χ : Type} {F : Framing χ} {s t : FramedStream χ}

theorem prefix_feed {piece : Bytes} (h : s.feed F piece = .ok t) :
    s.output.toList <+: t.output.toList := by
  cases s with
  | packing input writer =>
    cases h
    exact Literal.prefix_writeAll writer piece
  | unpacking decoder =>
    obtain ⟨d, hfeed, rfl⟩ := exists_of_map_eq_ok h
    exact FramedDecoder.prefix_feed hfeed

theorem prefix_finish {output : Array UInt8} (h : s.finish F = .ok output) :
    s.output.toList <+: output.toList := by
  cases s with
  | packing input writer =>
    have hclose : Literal.closeStream writer (F.trailer input) = output := Except.ok.inj h
    exact hclose ▸ Literal.prefix_closeStream writer _
  | unpacking decoder => exact FramedDecoder.prefix_finish h

end FramedStream

namespace CodecState

variable {s t : CodecState}

theorem prefix_feed {piece : Bytes} (h : s.feed piece = .ok t) :
    s.output.toList <+: t.output.toList := by
  cases s with
  | zlib stream | gzip stream =>
    obtain ⟨later, hfeed, rfl⟩ := exists_of_map_eq_ok h
    exact FramedStream.prefix_feed hfeed

theorem prefix_finish {output : Array UInt8} (h : s.finish = .ok output) :
    s.output.toList <+: output.toList := by
  cases s with
  | zlib stream | gzip stream => exact FramedStream.prefix_finish h

end CodecState

end CoopHttp
