import CoopHttp.Proofs.Chunked.Text
import CoopHttp.Proofs.Head.Decode
import CoopHttp.Proofs.Payload.Framing

/-!
# Requests as they are written

A request is a head and what the head announces: nothing, octets of the declared length, or chunks
with trailer fields behind them. The head has ordinary line breaks and no empty lines in front; it
may spell its fields as it likes, and so may the chunks. Of the limits that the reader has, the one on
the body is left to the reader.
-/
namespace CoopHttp

/-! A trailer field is written on a trailer line. -/

def FieldText.trailerLine (f : FieldText) : TrailerLine where
  front := f.front ++ f.ending.lead
  lf_notMem := by
    intro h
    obtain h | h := List.mem_append.1 h
    · exact absurd (f.not_break_of_mem_front _ h) (by decide)
    · exact f.ending.lf_notMem_lead h
  ne_nil := by simp [f.front_ne_nil]
  ne_cr := by
    intro h
    obtain ⟨b, s, hcons⟩ := List.exists_cons_of_ne_nil f.front_ne_nil
    have hb := f.not_break_of_mem_front b (by simp [hcons])
    rw [hcons, List.cons_append, List.cons.injEq] at h
    rw [h.1] at hb
    exact absurd hb (by decide)

theorem trailerBytes_trailerLine (fields : List FieldText) :
    trailerBytes (fields.map FieldText.trailerLine) = fieldBytes fields := by
  have hline (f : FieldText) : f.trailerLine.bytes = f.bytes := by
    simp [FieldText.trailerLine, TrailerLine.bytes, FieldText.bytes, LineBreak.bytes_eq]
  simp only [trailerBytes, fieldBytes, List.map_map]
  congr 2
  exact funext hline

/-- A body in chunks, with trailer fields. The trailer section has some room for the CR that may close
the body. -/
structure ChunkedBody where
  chunks : List Chunk
  last : SizeLine
  fields : List FieldText
  ending : LineBreak
  trailers : List (FieldName × FieldValue)
  size_last : last.size = 0
  length_le : (fieldBytes fields).length + ending.lead.length ≤ ChunkedDecoder.maxTrailer
  length_fields_le : fields.length ≤ Grammar.maxFields
  spells : List.Forall₂ FieldText.Spells fields trailers

def ChunkedBody.text (b : ChunkedBody) : ChunkedText where
  chunks := b.chunks
  last := b.last
  lines := b.fields.map FieldText.trailerLine
  ending := b.ending
  size_last := b.size_last
  length_lines_le := by
    rw [trailerBytes_trailerLine]
    exact Nat.le_of_add_right_le b.length_le

inductive BodyText
  | absent
  | sized (data : Bytes)
  | chunked (body : ChunkedBody)

namespace BodyText

def bytes : BodyText → Bytes
  | absent => []
  | sized data => data
  | chunked body => body.text.bytes

def data : BodyText → Bytes
  | absent => []
  | sized data => data
  | chunked body => body.text.data

def trailers : BodyText → List (FieldName × FieldValue)
  | absent | sized _ => []
  | chunked body => body.trailers

/-- The size to be announced. -/
def size : BodyText → PayloadSize
  | absent => .empty
  | sized data => .ofLength data.length
  | chunked _ => .chunked

/-- No more is announced than follows. -/
theorem contentLength_size_le (body : BodyText) : body.size.contentLength ≤ body.data.length := by
  cases body with
  | absent => exact Nat.zero_le _
  | sized data =>
    rw [size, PayloadSize.ofLength]
    split_ifs
    · exact Nat.zero_le _
    · exact le_rfl
  | chunked body => exact Nat.zero_le _

end BodyText

structure RequestText where
  head : HeadText
  method : Method
  uri : Uri
  fields : List (FieldName × FieldValue)
  body : BodyText
  skipped_eq_nil : head.skipped = []
  ending_eq : head.ending = .crlf
  field_ending_eq : ∀ f ∈ head.fields, f.ending = .crlf
  closing_eq : head.closing = .crlf
  method_eq : head.method = method.bytes
  parse_target : Uri.parse head.target = .ok uri
  spells : List.Forall₂ FieldText.Spells head.fields fields
  announces : Announces fields body.size
  length_head_le : head.bytes.length ≤ maxHeadBytes

namespace RequestText

variable (t : RequestText)

def bytes : Bytes := t.head.bytes ++ t.body.bytes

def requestHead : RequestHead := ⟨t.method, t.uri, t.head.version, Fields.ofList t.fields⟩

/-- The head is decoded to what it says, and to the size of the body. -/
theorem decode_head :
    RequestHead.decode t.head.bytes = ⟨.ok (some (t.requestHead, t.body.size)), []⟩ := by
  have hmethod : (⟨t.head.method, t.head.isToken_method⟩ : Method) = t.method :=
    (Method.mk.injEq _ _ _ _).mpr t.method_eq
  have hdecode := RequestHead.decode_of_spells t.length_head_le t.spells []
  rw [List.append_nil, t.parse_target, PayloadSize.ofFields_ofList t.announces, hmethod] at hdecode
  exact hdecode

end RequestText

end CoopHttp
