import CoopHttp.Decimal
import CoopHttp.Message.Error
import CoopHttp.Message.Response
import CoopHttp.Payload.Size

/-!
# Response heads to octets

A status line, the fields in order, and an empty line. The framing field is set from the payload:
a length replaces a length that was there, chunks set the transfer encoding.
-/
namespace CoopHttp

theorem isValueByte_of_isDigit {b : UInt8} (h : Bytes.isDigit b = true) : isValueByte b = true := by
  simp only [Bytes.isDigit, Bool.and_eq_true, decide_eq_true_eq, UInt8.le_iff_toNat_le] at h
  simp only [isValueByte, Bool.or_eq_true, Bool.and_eq_true, decide_eq_true_eq, bne_iff_ne,
    UInt8.le_iff_toNat_le, ne_eq, ← UInt8.toNat_inj]
  simp at h ⊢
  omega

/-- The field value of a number. -/
def FieldValue.ofNat (n : Nat) : FieldValue :=
  ⟨Decimal.write n, List.all_eq_true.2 fun b hb =>
    isValueByte_of_isDigit (List.all_eq_true.1 (Decimal.write_all_isDigit n) b hb)⟩

namespace ResponseHead

/-- The version as a status line writes it; later and earlier versions have none. -/
def versionText? : Version → Option Bytes
  | .http10 => some (ascii "HTTP/1.0")
  | .http11 => some (ascii "HTTP/1.1")
  | _ => none

/-- The fields with the one that frames the payload. -/
def frame (fields : Fields) : PayloadSize → Fields
  | .length n => fields.insert .contentLength (.ofNat n)
  | .chunked => fields.insert .transferEncoding .chunked
  | .empty => fields.insert .contentLength (.ofNat 0)

def fieldLine (name : FieldName) (value : FieldValue) : Bytes :=
  name.bytes ++ ascii ": " ++ value.bytes ++ Bytes.crlf

def statusLine (version : Bytes) (status : Status) : Bytes :=
  version ++ ascii " " ++ Decimal.write status.code ++ ascii " " ++ ascii status.reason ++ Bytes.crlf

/-- The octets of a head before a payload of the given size. -/
def encode (head : ResponseHead) (size : PayloadSize) : Except SendError Bytes :=
  match versionText? head.version with
  | none => .error (.io .unsupported)
  | some version =>
    .ok (statusLine version head.status ++
      (frame head.fields size).entries.flatMap (fun entry => fieldLine entry.1 entry.2) ++
      Bytes.crlf)

/-- Writes a head behind what a buffer holds; a head that is refused leaves the buffer as it was. -/
def write (head : ResponseHead) (size : PayloadSize) (buffer : Bytes) :
    Bytes × Except SendError Unit :=
  match versionText? head.version with
  | none => (buffer, .error (.io .unsupported))
  | some version =>
    let buffer := buffer ++ statusLine version head.status
    let buffer := (frame head.fields size).entries.foldl
      (fun buffer entry => buffer ++ fieldLine entry.1 entry.2) buffer
    (buffer ++ Bytes.crlf, .ok ())

/-- Writing field after field comes to the octets of the whole head. -/
theorem write_eq (head : ResponseHead) (size : PayloadSize) (buffer : Bytes) :
    head.write size buffer =
      match head.encode size with
      | .ok bytes => (buffer ++ bytes, .ok ())
      | .error error => (buffer, .error error) := by
  unfold write encode
  cases versionText? head.version with
  | none => rfl
  | some version => simp [List.flatMap_def]

end ResponseHead

namespace Response

/-- The octets of a response, framed by the length of its body. -/
def encode (response : Response) : Except SendError Bytes :=
  (response.head.encode (.ofLength response.body.length)).map (· ++ response.body)

/-- Writes a response behind what a buffer holds. -/
def write (response : Response) (buffer : Bytes) : Bytes × Except SendError Unit :=
  match response.head.write (.ofLength response.body.length) buffer with
  | (buffer, .error error) => (buffer, .error error)
  | (buffer, .ok ()) => (buffer ++ response.body, .ok ())

theorem write_eq (response : Response) (buffer : Bytes) :
    response.write buffer =
      match response.encode with
      | .ok bytes => (buffer ++ bytes, .ok ())
      | .error error => (buffer, .error error) := by
  rw [write, ResponseHead.write_eq, encode]
  cases response.head.encode (.ofLength response.body.length) with
  | error error => rfl
  | ok bytes => simp [Except.map]

end Response

end CoopHttp
