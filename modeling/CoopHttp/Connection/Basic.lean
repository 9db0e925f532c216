import CoopHttp.Frame.Reader
import CoopHttp.Head.Encode
import CoopHttp.Ready
import CoopHttp.Socket

/-!
# Connections

A connection serves requests one after the other: it reads a head, sends an interim response if the
client waits for one, reads the body, calls the handler and writes the response. A request that
cannot be read is answered once, if the input is at fault, and ends the connection. Each phase has
a deadline of its own, or none.
-/
namespace CoopHttp

structure Deadline where
  timer : TimerId
  delay : Nat
  deriving DecidableEq, Repr

/-- The deadlines of the phases. A phase without one may last for ever. -/
structure Deadlines where
  /-- To receive the first head. -/
  headerRead : Option Deadline := none
  /-- To receive any later head. -/
  keepAlive : Option Deadline := none
  /-- To receive a body. -/
  bodyRead : Option Deadline := none
  /-- To write a response. -/
  write : Option Deadline := none
  deriving DecidableEq, Repr

/-- What answers requests. A handler may change its state, which is of type `η`, and may fail. -/
structure Handler (η : Type) where
  call : η → Request → η × Except String Response

/-- The phase a connection is in. A phase that writes keeps what is left to write. -/
inductive Phase
  | readHead
  /-- Tells the client to go on. -/
  | sendContinue (rest : Bytes)
  /-- Reads a body; the decoder is chosen when the phase begins. -/
  | readBody (decoder : Option PayloadDecoder)
  /-- Writes a response, after which another request is read or not. -/
  | respond (rest : Bytes) (keepAlive : Bool)
  /-- Writes the answer to a request that could not be read. -/
  | reject (rest : Bytes) (error : ParseError)
  deriving DecidableEq

/-- A connection; `η` is the type of the handler's states. -/
structure Connection (η : Type) where
  socket : Socket
  handler : η
  reader : FrameReader := .fresh
  /-- The number of requests answered. -/
  served : Nat := 0
  phase : Phase := .readHead

namespace Connection

inductive Note
  /-- The socket accepted octets. -/
  | accepted (bytes : Bytes)
  /-- The handler was called. -/
  | called (request : Request)
  /-- The socket was closed. -/
  | closed
  /-- The connection came to its end. -/
  | ended (result : Except HttpError Unit)

inductive Move (η : Type)
  /-- Goes on in the same phase. -/
  | stay (next : Connection η)
  /-- Goes on in another phase. -/
  | enter (next : Connection η)
  /-- Waits for readiness in the same phase. -/
  | wait (wanted : Ready) (next : Connection η)
  | finish (result : Except HttpError Unit)
  | crash (cause : Crash)

variable {η : Type}

def deadline (deadlines : Deadlines) (c : Connection η) : Option Deadline :=
  match c.phase with
  | .readHead => if c.served = 0 then deadlines.headerRead else deadlines.keepAlive
  | .readBody _ => deadlines.bodyRead
  | .sendContinue _ | .respond _ _ | .reject _ _ => deadlines.write

/-- What the connection ends with when its socket fails or its deadline expires. -/
def failure (c : Connection η) (error : TaskError) : HttpError :=
  match c.phase with
  | .readHead | .readBody _ => .request (.task error)
  | .sendContinue _ | .respond _ _ => .response (.task error)
  | .reject _ error => .request error

end Connection

end CoopHttp
