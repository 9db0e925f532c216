import CoopHttp.Message.Fields
import CoopHttp.Message.Status
import CoopHttp.Message.Uri

/-!
# Requests
-/
namespace CoopHttp

structure RequestHead where
  method : Method
  uri : Uri
  version : Version
  fields : Fields
  deriving DecidableEq

namespace RequestHead

/-- The connection should stay open after this request. Version 1.1 stays open unless a `close`
token says otherwise, version 1.0 closes unless a `keep-alive` token says otherwise. -/
def keepsAlive (head : RequestHead) : Bool :=
  match head.version with
  | .http11 => !head.fields.hasToken .connection (ascii "close")
  | .http10 => head.fields.hasToken .connection (ascii "keep-alive")
  | _ => false

/-- The client waits to be told to send the body. -/
def expectsContinue (head : RequestHead) : Bool :=
  match head.fields.get? .expect with
  | some value => Bytes.equalsIgnoringCase (Bytes.trim value.bytes) (ascii "100-continue")
  | none => false

end RequestHead

/-- A request that has been read completely. Trailer fields are there only if there are any. -/
structure Request where
  head : RequestHead
  body : Bytes
  trailers : Option Fields
  deriving DecidableEq

end CoopHttp
