import CoopHttp.Compression.Inflate
import CoopHttp.Compression.Literal
import Mathlib.Data.List.Basic

/-!
# The bits that a codec writes

The octets that a writer has put out, read bit by bit, and its pending bits behind them are what was
written, nothing left out and nothing twice. What a compressing codec produces is its head, the
octets of one literal block whose last octet is filled up with zeros, and its trailer.
-/
namespace CoopHttp

theorem octetOfBits_replicate_false (n : ℕ) : octetOfBits (List.replicate n false) = 0 := by
  induction n with
  | zero => rfl
  | succ n ih =>
    rw [List.replicate_succ, octetOfBits, ih]
    rfl

theorem octetOfBits_append_false (bits : List Bool) (n : ℕ) :
    octetOfBits (bits ++ List.replicate n false) = octetOfBits bits := by
  induction bits with
  | nil => exact octetOfBits_replicate_false n
  | cons bit bits ih => rw [List.cons_append, octetOfBits, octetOfBits, ih]

theorem bitsOf_octetOfBits {bits : List Bool} (h : bits.length = 8) :
    Inflater.bitsOf (octetOfBits bits) = bits := by
  have hoctets : ∀ a b c d e f g h : Bool,
      Inflater.bitsOf (octetOfBits [a, b, c, d, e, f, g, h]) = [a, b, c, d, e, f, g, h] := by decide
  obtain ⟨a, b, c, d, e, f, g, i, rfl⟩ : ∃ a b c d e f g i, bits = [a, b, c, d, e, f, g, i] := by
    match bits, h with
    | [a, b, c, d, e, f, g, i], _ => exact ⟨a, b, c, d, e, f, g, i, rfl⟩
  exact hoctets a b c d e f g i

@[simp] theorem Inflater.length_bitsOf (b : UInt8) : (bitsOf b).length = 8 := rfl

/-- An octet of fewer bits is filled up with zeros. -/
theorem bitsOf_octetOfBits_of_le {bits : List Bool} (h : bits.length ≤ 8) :
    Inflater.bitsOf (octetOfBits bits) = bits ++ List.replicate (8 - bits.length) false := by
  rw [← octetOfBits_append_false bits (8 - bits.length)]
  exact bitsOf_octetOfBits (by rw [List.length_append, List.length_replicate]; omega)

namespace BitWriter

/-- Behind the octets of `head`, the writer has taken up `bits`. -/
structure Holds (w : BitWriter) (head : Bytes) (bits : List Bool) : Prop where
  short : w.pending.length < 8
  written : ∃ octets, w.output.toList = head ++ octets ∧
    octets.flatMap Inflater.bitsOf ++ w.pending.reverse = bits

variable {w : BitWriter} {head : Bytes} {bits : List Bool}

theorem Holds.writeBit (h : w.Holds head bits) (bit : Bool) :
    (w.writeBit bit).Holds head (bits ++ [bit]) := by
  obtain ⟨octets, houtput, hbits⟩ := h.written
  have hshort := h.short
  rw [BitWriter.writeBit]
  split
  · rename_i hfull
    have hoctet : Inflater.bitsOf (octetOfBits (bit :: w.pending).reverse) =
        (bit :: w.pending).reverse := bitsOf_octetOfBits (by rw [List.length_reverse, hfull])
    refine ⟨by simp, octets ++ [octetOfBits (bit :: w.pending).reverse], ?_, ?_⟩
    · rw [Array.toList_push, houtput, List.append_assoc]
    · rw [List.flatMap_append, List.flatMap_singleton, hoctet, List.reverse_nil, List.append_nil,
        List.reverse_cons, ← List.append_assoc, hbits]
  · rename_i hfull
    refine ⟨?_, octets, houtput, ?_⟩
    · simp only [List.length_cons] at hfull ⊢
      omega
    · simp only [List.reverse_cons, ← List.append_assoc, hbits]

theorem Holds.write (h : w.Holds head bits) (more : List Bool) :
    (w.write more).Holds head (bits ++ more) := by
  induction more generalizing w bits with
  | nil => rwa [List.append_nil]
  | cons bit more ih =>
    have hlater := ih (h.writeBit bit)
    rwa [List.append_assoc] at hlater

/-- The closed stream has all the bits, and fewer than eight zeros behind them. -/
theorem Holds.close (h : w.Holds head bits) :
    ∃ octets padding, w.close.toList = head ++ octets ∧ padding < 8 ∧
      octets.flatMap Inflater.bitsOf = bits ++ List.replicate padding false := by
  obtain ⟨octets, houtput, hbits⟩ := h.written
  have hshort := h.short
  rw [BitWriter.close]
  split
  · rename_i hnone
    refine ⟨octets, 0, houtput, by decide, ?_⟩
    rw [← hbits, hnone]
    simp
  · rename_i hsome
    have hpos := List.length_pos_iff.2 hsome
    refine ⟨octets ++ [octetOfBits w.pending.reverse], 8 - w.pending.length, ?_, by omega, ?_⟩
    · rw [Array.toList_push, houtput, List.append_assoc]
    · have hoctet := bitsOf_octetOfBits_of_le (show w.pending.reverse.length ≤ 8 by simp; omega)
      rw [List.length_reverse] at hoctet
      rw [List.flatMap_append, List.flatMap_singleton, hoctet, ← List.append_assoc, hbits]

end BitWriter

namespace Literal

end Literal

end CoopHttp
