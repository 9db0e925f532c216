import CoopHttp.Bytes

/-!
# Errors

Each error is a cause; its wording is made by one function per type. A reason given by a caller is
the cause `other`.
-/
namespace CoopHttp

structure TimerId where
  index : Nat
  deriving DecidableEq, Repr

/-- The name of a timer wheel in messages. -/
def TimerId.render (timer : TimerId) : String := s!"timer#{timer.index}"

inductive IoError
  | connectionReset
  | brokenPipe
  | connectionAborted
  | notConnected
  | permissionDenied
  | timedOut
  | unexpectedEof
  | interrupted
  | wouldBlock
  | other
  /-- A sink accepted nothing. -/
  | writeZero
  /-- The protocol version cannot be written. -/
  | unsupported
  /-- A descriptor belongs to a task already. -/
  | descriptorTaken (fd : Int)
  /-- Bytes came after the end of a compressed stream. -/
  | afterEnd
  | corruptDeflate
  /-- A compressed stream turned out broken at the end of the input. -/
  | brokenDeflate
  | invalidGzipHeader
  | corruptGzip
  | gzipFieldTooLong
  | addressInUse
  | addressNotAvailable
  | invalidArgument
  | noSuchDevice
  deriving DecidableEq, Repr

namespace IoError

def message : IoError → String
  | connectionReset => "connection reset"
  | brokenPipe => "broken pipe"
  | connectionAborted => "connection aborted"
  | notConnected => "not connected"
  | permissionDenied => "permission denied"
  | timedOut => "timed out"
  | unexpectedEof => "unexpected end of file"
  | interrupted => "operation interrupted"
  | wouldBlock => "operation would block"
  | other => "scripted failure"
  | writeZero => "write zero"
  | unsupported => "unsupported"
  | descriptorTaken fd => s!"fd {fd} already belongs to a task"
  | afterEnd => "failed to write whole buffer"
  | corruptDeflate => "corrupt deflate stream"
  | brokenDeflate => "deflate decompression error"
  | invalidGzipHeader => "invalid gzip header"
  | corruptGzip => "corrupt gzip stream does not have a matching checksum"
  | gzipFieldTooLong => "gzip header field too long"
  | addressInUse => "Address already in use (os error 98)"
  | addressNotAvailable => "Cannot assign requested address (os error 99)"
  | invalidArgument => "Invalid argument (os error 22)"
  | noSuchDevice => "No such device (os error 19)"

end IoError

/-- What a task's operation ends with when it does not succeed. -/
inductive TaskError
  | timeout (timer : TimerId)
  | io (error : IoError)
  deriving DecidableEq, Repr

namespace TaskError

def message : TaskError → String
  | timeout timer => s!"deadline of {timer.render} expired"
  | io error => s!"io error: {error.message}"

/-- The timer whose deadline expired. -/
def timeout? : TaskError → Option TimerId
  | timeout timer => some timer
  | io _ => none

end TaskError

/-- What is wrong with a request head or a trailer section. -/
inductive HeadFault
  | invalidName
  | invalidValue
  | invalidNewLine
  | invalidToken
  | invalidVersion
  | unterminated
  | incompleteHead
  | incompleteTrailers
  | missingAfterParse
  | missingAfterBody
  | refusedName
  | refusedValue
  | other (reason : String)
  deriving DecidableEq, Repr

namespace HeadFault

def message : HeadFault → String
  | invalidName => "invalid header name"
  | invalidValue => "invalid header value"
  | invalidNewLine => "invalid new line"
  | invalidToken => "invalid token"
  | invalidVersion => "invalid HTTP version"
  | unterminated => "header terminator not received"
  | incompleteHead => "incomplete request head"
  | incompleteTrailers => "incomplete trailer section"
  | missingAfterParse => "request head missing after parse"
  | missingAfterBody => "request head missing after body"
  | refusedName => "invalid HTTP header name"
  | refusedValue => "failed to parse header value"
  | other reason => reason

end HeadFault

inductive LengthFault
  | notVisible
  | notNumber (text : Bytes)
  | alsoTransferEncoding
  | other (reason : String)
  deriving DecidableEq, Repr

namespace LengthFault

def message : LengthFault → String
  | notVisible => "value can't to_str"
  | notNumber text =>
    "value " ++ String.ofList (text.map fun b => Char.ofNat b.toNat) ++ " is not u64"
  | alsoTransferEncoding => "transfer_encoding and content_length both present in headers"
  | other reason => reason

end LengthFault

inductive BodyFault
  | sizeLineTooLong
  | missingSize
  | invalidSize
  | missingLineBreak
  | closed
  | other (reason : String)
  deriving DecidableEq, Repr

namespace BodyFault

def message : BodyFault → String
  | sizeLineTooLong => "chunk size line too long"
  | missingSize => "missing chunk size"
  | invalidSize => "invalid chunk size"
  | missingLineBreak => "missing line break after chunk data"
  | closed => "connection closed before the body was complete"
  | other reason => reason

end BodyFault

inductive ParseError
  | tooLargeHeader (size limit : Nat)
  | tooManyHeaders (limit : Nat)
  | invalidHeader (fault : HeadFault)
  | invalidVersion (version : Option UInt8)
  | invalidMethod
  | invalidUri
  | invalidContentLength (fault : LengthFault)
  | invalidBody (fault : BodyFault)
  | tooLargeBody (size limit : Nat)
  | closed
  | task (error : TaskError)
  | io (error : IoError)
  deriving DecidableEq, Repr

namespace ParseError

def message : ParseError → String
  | tooLargeHeader size limit =>
    s!"header size too large, current: {size} exceed the limit {limit}"
  | tooManyHeaders limit => s!"header number exceed the limit {limit}"
  | invalidHeader fault => s!"invalid header: {fault.message}"
  | invalidVersion none => "invalid http version: None"
  | invalidVersion (some version) => s!"invalid http version: Some({version.toNat})"
  | invalidMethod => "invalid http method"
  | invalidUri => "invalid http uri"
  | invalidContentLength fault => s!"invalid content-length header: {fault.message}"
  | invalidBody fault => s!"invalid body: {fault.message}"
  | tooLargeBody size limit => s!"body size too large, current: {size} exceed the limit {limit}"
  | closed => "connection closed before the request was complete"
  | task error => s!"task error: {error.message}"
  | io error => s!"io error: {error.message}"

def timeout? : ParseError → Option TimerId
  | task error => error.timeout?
  | _ => none

/-- The input is at fault, not a dead or stalled client. Only such errors are answered. -/
def isMalformed : ParseError → Bool
  | closed | task _ | io _ => false
  | _ => true

end ParseError

inductive SendError
  | invalidBody (fault : BodyFault)
  | task (error : TaskError)
  | io (error : IoError)
  deriving DecidableEq, Repr

namespace SendError

def message : SendError → String
  | invalidBody fault => s!"invalid body: {fault.message}"
  | task error => s!"task error: {error.message}"
  | io error => s!"io error: {error.message}"

def timeout? : SendError → Option TimerId
  | task error => error.timeout?
  | _ => none

end SendError

inductive HttpError
  | request (error : ParseError)
  | response (error : SendError)
  deriving DecidableEq, Repr

namespace HttpError

def message : HttpError → String
  | request error => s!"request error: {error.message}"
  | response error => s!"response error: {error.message}"

def timeout? : HttpError → Option TimerId
  | request error => error.timeout?
  | response error => error.timeout?

end HttpError

end CoopHttp
