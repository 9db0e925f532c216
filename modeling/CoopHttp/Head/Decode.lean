import CoopHttp.Head.Grammar
import CoopHttp.Message.Request
import CoopHttp.Payload.Framing

/-!
# Request heads from octets

Reads a head off the front of a buffer: the grammar first, then the size limit, then the target and
the fields, then the framing of the payload. A head that is refused for its fields or its framing
has left the buffer; one that is refused earlier has not.
-/
namespace CoopHttp

def maxHeadBytes : Nat := 8192

namespace Fields

/-- Checks the lines one by one and appends them. -/
def ofLines (lines : List Grammar.FieldLine) : Except ParseError Fields :=
  lines.foldlM (fun fields line =>
    match FieldName.ofBytes? line.name with
    | none => .error (.invalidHeader .refusedName)
    | some name =>
      match FieldValue.ofBytes? (Bytes.trim line.value) with
      | none => .error (.invalidHeader .refusedValue)
      | some value => .ok (fields.append name value)) empty

end Fields

namespace RequestHead

/-- The outcome of an attempt: a head with the size of its payload, nothing yet, or an error; and
what is left of the buffer. -/
structure Decoded where
  result : Except ParseError (Option (RequestHead × PayloadSize))
  rest : Bytes

/-- The method and the target of a head as it was written. -/
def readLine (raw : Grammar.RawHead) : Except ParseError (Method × Uri) :=
  match Method.ofBytes? raw.method with
  | none => .error .invalidMethod
  | some method =>
    match Uri.parse raw.target with
    | .error _ => .error .invalidUri
    | .ok uri => .ok (method, uri)

/-- The fields of a head and the payload they declare. -/
def readFields (raw : Grammar.RawHead) (method : Method) (uri : Uri) :
    Except ParseError (RequestHead × PayloadSize) := do
  let fields ← Fields.ofLines raw.lines
  let size ← PayloadSize.ofFields fields
  return (⟨method, uri, raw.version, fields⟩, size)

/-- Reads a head off the front of a buffer. -/
def decode (src : Bytes) : Decoded :=
  match Grammar.head src with
  | .bad error => ⟨.error error, src⟩
  | .more =>
    if src.length ≤ maxHeadBytes then ⟨.ok none, src⟩
    else ⟨.error (.tooLargeHeader src.length maxHeadBytes), src⟩
  | .done raw rest =>
    let size := src.length - rest.length
    if size ≤ maxHeadBytes then
      match readLine raw with
      | .error error => ⟨.error error, src⟩
      | .ok (method, uri) => ⟨(readFields raw method uri).map some, rest⟩
    else ⟨.error (.tooLargeHeader size maxHeadBytes), src⟩

end RequestHead

end CoopHttp
