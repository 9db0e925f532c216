import CoopHttp.Proofs.Head.ResponseText

/-!
# How a written head frames its payload

A client finds the end of a payload by the framing fields of its head, whichever of the two names they
have. Writing a head puts in the framing field of the payload once, in place of all fields of its name.
The fields of the other name are left as they were, so the head frames the payload just if there was
none of them.
-/
namespace CoopHttp

/-- The field says where a payload ends. -/
def FieldName.isFraming (name : FieldName) : Bool :=
  name = .contentLength || name = .transferEncoding

namespace PayloadSize

def framingField : PayloadSize → FieldName × FieldValue
  | length n => (.contentLength, .ofNat n)
  | chunked => (.transferEncoding, .chunked)
  | empty => (.contentLength, .ofNat 0)

/-- The name of the fields that frame payloads of the other kind. -/
def rival : PayloadSize → FieldName
  | length _ | empty => .transferEncoding
  | chunked => .contentLength

theorem rival_ofLength (n : ℕ) : (ofLength n).rival = .transferEncoding := by
  rw [ofLength]
  split_ifs <;> rfl

theorem rival_ne (size : PayloadSize) : size.rival ≠ size.framingField.1 := by
  have hne : FieldName.contentLength ≠ .transferEncoding := by decide
  cases size with
  | length n | empty => exact hne.symm
  | chunked => exact hne

theorem isFraming_iff (size : PayloadSize) (name : FieldName) :
    name.isFraming = true ↔ name = size.framingField.1 ∨ name = size.rival := by
  cases size <;> simp [FieldName.isFraming, framingField, rival, or_comm]

/-- Among fields that have the framing field once, it is the only framing field if there is none of the
other name. -/
theorem filter_isFraming_eq_iff {size : PayloadSize} {entries : List (FieldName × FieldValue)}
    (h : entries.filter (·.1 = size.framingField.1) = [size.framingField]) :
    entries.filter (·.1.isFraming) = [size.framingField] ↔
      entries.filter (·.1 = size.rival) = [] := by
  constructor
  · intro honly
    have hrival : entries.filter (·.1 = size.rival) =
        (entries.filter (·.1.isFraming)).filter (·.1 = size.rival) := by
      rw [List.filter_filter]
      refine List.filter_congr fun entry _ => ?_
      by_cases hentry : entry.1 = size.rival
      · simp [hentry, (size.isFraming_iff _).2 (.inr rfl)]
      · simp [hentry]
    rw [hrival, honly]
    simp [size.rival_ne.symm]
  · intro hnone
    rw [← h]
    refine List.filter_congr fun entry hentry => ?_
    have hne : entry.1 ≠ size.rival := by simpa using List.filter_eq_nil_iff.1 hnone entry hentry
    rw [Bool.eq_iff_iff, size.isFraming_iff, decide_eq_true_eq, or_iff_left hne]

end PayloadSize

namespace ResponseHead

/-- The octets are a head with one framing field, the one of the payload. -/
def FramedBy (bytes : Bytes) (size : PayloadSize) : Prop :=
  ∃ head, read? bytes = some (head, []) ∧
    head.fields.entries.filter (·.1.isFraming) = [size.framingField]

theorem frame_eq (fields : Fields) (size : PayloadSize) :
    frame fields size = fields.insert size.framingField.1 size.framingField.2 := by
  cases size <;> rfl

/-- A head frames the payload it was written for if its fields had none of the other kind. -/
theorem framedBy_encode_iff {head : ResponseHead} {size : PayloadSize} {bytes : Bytes}
    (h : head.encode size = .ok bytes) :
    FramedBy bytes size ↔ head.fields.getAll size.rival = [] := by
  have hread := (found_of_encode h []).2
  rw [List.append_nil] at hread
  have hown : (frame head.fields size).entries.filter (·.1 = size.framingField.1) =
      [size.framingField] := by
    rw [frame_eq]
    exact Fields.filter_insertEntry_self _ _ _
  have hrival : (frame head.fields size).getAll size.rival = head.fields.getAll size.rival := by
    rw [frame_eq]
    exact Fields.getAll_insert_ne _ size.rival_ne _
  rw [← hrival, Fields.getAll, List.map_eq_nil_iff, ← PayloadSize.filter_isFraming_eq_iff hown]
  constructor
  · rintro ⟨written, hwritten, honly⟩
    cases hread.symm.trans hwritten
    exact honly
  · exact fun honly => ⟨_, hread, honly⟩

/-- Every head of version 1.0 or 1.1 is written, in front of any payload, and so is every response with
such a head. It has one framing field, the one of the payload, if the handler put in none of the other
kind, and only then. -/
theorem framedBy_write_iff (head : ResponseHead)
    (h : head.version = .http10 ∨ head.version = .http11) :
    (∀ size, ∃ bytes, (∀ buffer, head.write size buffer = (buffer ++ bytes, .ok ())) ∧
      (FramedBy bytes size ↔ head.fields.getAll size.rival = [])) ∧
    ∀ body, ∃ bytes,
      (∀ buffer, Response.write ⟨head, body⟩ buffer = (buffer ++ bytes ++ body, .ok ())) ∧
        (FramedBy bytes (.ofLength body.length) ↔ head.fields.getAll .transferEncoding = []) := by
  constructor
  · intro size
    obtain ⟨bytes, hencode⟩ := exists_encode h size
    exact ⟨bytes, fun buffer => by rw [write_eq, hencode], framedBy_encode_iff hencode⟩
  · intro body
    obtain ⟨bytes, hencode⟩ := exists_encode h (.ofLength body.length)
    refine ⟨bytes, fun buffer => ?_, PayloadSize.rival_ofLength body.length ▸ framedBy_encode_iff hencode⟩
    rw [Response.write_eq, Response.encode, hencode]
    simp [Except.map]

/-- A head without framing fields of its own. -/
def plainHead : ResponseHead := ⟨.ok, .http11, Fields.empty.insert .contentType .plainText⟩

theorem exists_framed_plainHead :
    (plainHead.version = .http10 ∨ plainHead.version = .http11) ∧
      ∃ bytes, (∀ buffer, Response.write ⟨plainHead, ascii "hello"⟩ buffer =
        (buffer ++ bytes ++ ascii "hello", .ok ())) ∧ FramedBy bytes (.length 5) := by
  obtain ⟨bytes, hwrite, hframed⟩ := (framedBy_write_iff plainHead (.inr rfl)).2 (ascii "hello")
  exact ⟨.inr rfl, bytes, hwrite, hframed.2 (by decide)⟩

/-- A response of a handler that names a transfer coding. -/
def codedGreeting : Response :=
  ⟨⟨.ok, .http11, Fields.empty.insert .transferEncoding .chunked⟩, ascii "hello"⟩

/-- The head of `codedGreeting` as it goes out. -/
def codedGreetingHead : Bytes :=
  ascii "HTTP/1.1 200 OK\r\ntransfer-encoding: chunked\r\ncontent-length: 5\r\n\r\n"

/-- The coding goes out beside the length, so a client that decides by it waits for chunks. -/
theorem codedGreeting_not_framed :
    codedGreeting.write [] = (codedGreetingHead ++ codedGreeting.body, .ok ()) ∧
      ¬ FramedBy codedGreetingHead (.length 5) := by
  have hencode : codedGreeting.head.encode (.length 5) = .ok codedGreetingHead := by decide +kernel
  refine ⟨?_, fun hframed => ?_⟩
  · have hwrite := write_eq codedGreeting.head (.length 5) []
    rw [hencode] at hwrite
    have hsize : PayloadSize.ofLength codedGreeting.body.length = .length 5 := by decide
    rw [Response.write, hsize, hwrite]
    rfl
  · exact absurd ((framedBy_encode_iff hencode).1 hframed) (by decide)

end ResponseHead

end CoopHttp
