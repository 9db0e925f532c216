import CoopHttp.Payload.Size

/-!
# Payloads of known length

The decoder takes what the buffer holds, never more than is still to come.
-/
namespace CoopHttp

/-- A payload with this many octets still to come. -/
structure LengthDecoder where
  remaining : Nat
  deriving DecidableEq, Repr

namespace LengthDecoder

/-- Takes the next piece off the front of a buffer, `none` while the buffer is empty. -/
def decode (d : LengthDecoder) (src : Bytes) : LengthDecoder × Bytes × Option PayloadItem :=
  if d.remaining = 0 then (d, src, some .eof)
  else if src = [] then (d, src, none)
  else
    let piece := src.take d.remaining
    (⟨d.remaining - piece.length⟩, src.drop d.remaining, some (.chunk piece))

theorem length_rest_lt {d d' : LengthDecoder} {src rest piece : Bytes}
    (h : d.decode src = (d', rest, some (.chunk piece))) : rest.length < src.length := by
  unfold decode at h
  split at h
  · simp at h
  · split at h
    · simp at h
    · rename_i hd hs
      simp only [Prod.mk.injEq] at h
      obtain ⟨-, rfl, -⟩ := h
      have : 0 < src.length := List.length_pos_iff.2 hs
      simp only [List.length_drop]
      omega

theorem length_rest_le (d : LengthDecoder) (src : Bytes) :
    (d.decode src).2.1.length ≤ src.length := by
  unfold decode
  split
  · simp
  · split <;> simp

end LengthDecoder

end CoopHttp
