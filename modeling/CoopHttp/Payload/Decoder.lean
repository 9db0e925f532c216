import CoopHttp.Payload.Chunked
import CoopHttp.Payload.Length

/-!
# Payload decoders

One decoder for each kind of payload size, behind one `decode`.
-/
namespace CoopHttp

inductive PayloadDecoder
  | length (d : LengthDecoder)
  | chunked (d : ChunkedDecoder)
  | empty
  deriving DecidableEq, Repr

namespace PayloadDecoder

def ofSize : PayloadSize → PayloadDecoder
  | .length n => length ⟨n⟩
  | .chunked => chunked {}
  | .empty => empty

/-- Takes the next piece or the end off the front of a buffer; `none` while nothing more can be
told from what the buffer holds. -/
def decode (d : PayloadDecoder) (src : Bytes) :
    PayloadDecoder × Bytes × Except ParseError (Option PayloadItem) :=
  match d with
  | length d =>
    let (d, rest, item) := d.decode src
    (length d, rest, .ok item)
  | chunked d =>
    let (d, rest, result) := d.decode src
    (chunked d, rest, result)
  | empty => (empty, src, .ok (some .eof))

/-- The trailer lines of a chunked payload, empty for any other. -/
def trailer : PayloadDecoder → Bytes
  | chunked d => d.trailer
  | length _ | empty => []

/-- A piece that is handed out was taken off the buffer. -/
theorem decode_rest_lt {d d' : PayloadDecoder} {src rest piece : Bytes}
    (h : d.decode src = (d', rest, .ok (some (.chunk piece)))) : rest.length < src.length := by
  cases d with
  | length d =>
    simp only [decode, Prod.mk.injEq, Except.ok.injEq] at h
    exact LengthDecoder.length_rest_lt (Prod.ext rfl (Prod.ext h.2.1 h.2.2))
  | chunked d =>
    simp only [decode, Prod.mk.injEq] at h
    exact ChunkedDecoder.decode_rest_lt (Prod.ext rfl (Prod.ext h.2.1 h.2.2))
  | empty => simp [decode] at h

theorem decode_rest_le (d : PayloadDecoder) (src : Bytes) :
    (d.decode src).2.1.length ≤ src.length := by
  cases d with
  | length d => exact LengthDecoder.length_rest_le d src
  | chunked d => exact ChunkedDecoder.decode_rest_le d src
  | empty => simp [decode]

end PayloadDecoder

end CoopHttp
