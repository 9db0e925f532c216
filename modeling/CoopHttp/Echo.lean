import CoopHttp.Compression.Codec
import CoopHttp.Connection.Basic
import CoopHttp.Text.Utf8

/-!
# Echo

A handler that describes each request in plain text: its first line, its fields, its trailer fields
and the length of its body. A compressed body is decoded first, and the description is compressed if
the client accepts that.
-/
namespace CoopHttp

inductive EchoError
  | decode (error : IoError)
  | encode (error : IoError)
  deriving DecidableEq, Repr

namespace EchoError

def message : EchoError → String
  | decode error => "can't decode request body: " ++ error.message
  | encode error => "can't encode response body: " ++ error.message

end EchoError

namespace Echo

/-- A field, read as a comma-separated list whose members may have parameters, lists `token`. Values
with octets above ASCII are passed over. -/
def lists (fields : Fields) (name : FieldName) (token : Bytes) : Bool :=
  ((fields.getAll name).filterMap FieldValue.visible?).any fun value =>
    (Bytes.splitOn 44 value).any fun member =>
      Bytes.equalsIgnoringCase (Bytes.trim (member.takeWhile (· != 59))) token

/-- How the body of a request is to be decoded. -/
def requestCoding (fields : Fields) : Option CodecMode :=
  if lists fields .contentEncoding (ascii "gzip") then some .gunzip
  else if lists fields .contentEncoding (ascii "deflate") then some .decompress
  else none

/-- How the client wants the body of the response, and the name of that coding. -/
def responseCoding (fields : Fields) : Option (CodecMode × FieldValue) :=
  if lists fields .acceptEncoding (ascii "gzip") then some (.gzip, .gzip)
  else if lists fields .acceptEncoding (ascii "deflate") then some (.compress, .deflate)
  else none

/-- One line for each field. Octets that are no UTF-8 are replaced. -/
def fieldLines (mark : Bytes) (fields : Fields) : Bytes :=
  fields.entries.flatMap fun (name, value) =>
    mark ++ name.bytes ++ ascii ": " ++ Utf8.repair value.bytes ++ [Bytes.lf]

/-- The description of a request whose decoded body has `size` octets. -/
def describe (head : RequestHead) (trailers : Fields) (size : Nat) : Bytes :=
  head.method.bytes ++ ascii " " ++ head.uri.render ++ ascii " " ++ ascii head.version.name ++
    [Bytes.lf] ++ fieldLines [] head.fields ++ fieldLines (ascii "trailer ") trailers ++
    [Bytes.lf] ++ ascii "body: " ++ Decimal.write size ++ ascii " bytes" ++ [Bytes.lf]

def respond (request : Request) (L : DeflateLibrary := .literal) : Except EchoError Response := do
  let fields := request.head.fields
  let body ← match requestCoding fields with
    | none => .ok request.body
    | some mode => (transcode mode request.body L).mapError .decode
  let text := describe request.head (request.trailers.getD .empty) body.length
  let responseFields := Fields.empty.insert .contentType .plainTextUtf8
  match responseCoding fields with
  | none => return ⟨⟨.ok, .http11, responseFields⟩, text⟩
  | some (mode, coding) =>
    let packed ← (transcode mode text L).mapError .encode
    return ⟨⟨.ok, .http11, responseFields.insert .contentEncoding coding⟩, packed⟩

/-- The handler. It keeps no state. -/
def handler : Handler Unit := ⟨fun _ request => ((), (respond request).mapError EchoError.message)⟩

end Echo

end CoopHttp
