import CoopHttp.Echo
import CoopHttp.Proofs.Compression.LiteralLibrary
import CoopHttp.Proofs.Numeral

/-!
# What the echo says

The echo of a request is its description, packed if the client accepts that: undoing the coding that
the response names gives the description, and the last line of it states how long the decoded body
of the request is. A request is refused just if its body cannot be decoded.
-/
namespace CoopHttp

def ContentCoding.name : ContentCoding → FieldValue
  | gzip => .gzip
  | deflate => .deflate

namespace Echo

variable {L : DeflateLibrary}

def decodedBody (request : Request) (L : DeflateLibrary := .literal) : Except IoError Bytes :=
  match requestCoding request.head.fields with
  | none => .ok request.body
  | some mode => transcode mode request.body L

def acceptedCoding (fields : Fields) : Option ContentCoding :=
  if lists fields .acceptEncoding (ascii "gzip") then some .gzip
  else if lists fields .acceptEncoding (ascii "deflate") then some .deflate
  else none

/-- The fields of a response that is packed in a coding. -/
def answerFields : Option ContentCoding → Fields
  | none => Fields.empty.insert .contentType .plainTextUtf8
  | some coding =>
    (Fields.empty.insert .contentType .plainTextUtf8).insert .contentEncoding coding.name

/-- A text as it stands in a response that is packed in a coding. -/
def pack (L : DeflateLibrary) : Option ContentCoding → Bytes → Except IoError Bytes
  | none, text => .ok text
  | some coding, text => transcode coding.encoder text L

/-- The response to a request whose decoded body is known. -/
def answer (L : DeflateLibrary) (request : Request) (body : Bytes) : Except EchoError Response :=
  let coding := acceptedCoding request.head.fields
  let text := describe request.head (request.trailers.getD .empty) body.length
  ((pack L coding text).mapError .encode).map fun packed =>
    ⟨⟨.ok, .http11, answerFields coding⟩, packed⟩

/-- The octets of a response without the coding that its fields name; `none` if there are several
codings, or one that is not known. -/
def undo (response : Response) (L : DeflateLibrary := .literal) : Option Bytes :=
  match response.head.fields.getAll .contentEncoding with
  | [] => some response.body
  | [value] =>
    if value = ContentCoding.gzip.name then (transcode .gunzip response.body L).toOption
    else if value = ContentCoding.deflate.name then
      (transcode .decompress response.body L).toOption
    else none
  | _ => none

def IsLastLine (text line : Bytes) : Prop :=
  Bytes.lf ∉ line ∧ ∃ before, text = before ++ [Bytes.lf] ++ line ++ [Bytes.lf]

/-- A response is the description of a request with this decoded body, packed only if the client
accepts that. -/
structure Describes (L : DeflateLibrary) (request : Request) (body : Bytes) (response : Response) :
    Prop where
  decoded : decodedBody request L = .ok body
  undone : undo response L =
    some (describe request.head (request.trailers.getD .empty) body.length)
  lastLine : ∃ number, Decimal.numeral? number = some body.length ∧
    IsLastLine (describe request.head (request.trailers.getD .empty) body.length)
      (ascii "body: " ++ number ++ ascii " bytes")
  plain_iff : response.head.fields.getAll .contentEncoding = [] ↔
    lists request.head.fields .acceptEncoding (ascii "gzip") = false ∧
      lists request.head.fields .acceptEncoding (ascii "deflate") = false

/-- The octets of a short text. -/
def note : Bytes := ascii "coop"

end Echo

end CoopHttp
