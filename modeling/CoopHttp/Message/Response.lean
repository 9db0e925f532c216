import CoopHttp.Message.Fields
import CoopHttp.Message.Status

/-!
# Responses
-/
namespace CoopHttp

structure ResponseHead where
  status : Status
  version : Version
  fields : Fields
  deriving DecidableEq

structure Response where
  head : ResponseHead
  body : Bytes
  deriving DecidableEq

namespace Response

/-- A response of the protocol itself: a status in plain text, without a body. -/
def ofStatus (status : Status) (version : Version) : Response :=
  ⟨⟨status, version, Fields.empty.insert .contentType .plainText⟩, []⟩

/-- Some `Connection` field of the response has the token `close`. -/
def wantsClose (response : Response) : Bool :=
  response.head.fields.hasToken .connection (ascii "close")

/-- The response as it goes out: in version 1.0 to a client of version 1.0 and in version 1.1 to
any other, with one `Connection` field that says what happens next. -/
def prepare (response : Response) (version : Version) (keepAlive : Bool) : Response :=
  { response with head := { response.head with
      version := if version = .http10 then .http10 else .http11
      fields := response.head.fields.insert .connection (if keepAlive then .keepAlive else .close) } }

end Response

end CoopHttp
