import CoopHttp.Connection.Basic

/-!
# Steps of a connection

A step reads or writes once, or goes on from one phase to the next.
-/
namespace CoopHttp.Connection

variable {η : Type}

/-- The most octets of one read. -/
def readChunk : Nat := 4096

/-- The interim response that tells a client to send the body. -/
def continueBytes : Bytes := ascii "HTTP/1.1 100 Continue\r\n\r\n"

/-- The answer to input at fault. -/
def badRequest : Response := (Response.ofStatus .badRequest .http11).prepare .http11 false

/-- Ends the connection for a request that could not be read; input at fault is answered first. -/
def refuse (c : Connection η) (error : ParseError) : Move η :=
  if error.isMalformed then
    match badRequest.encode with
    | .ok bytes => .enter { c with phase := .reject bytes error }
    | .error _ => .finish (.error (.request error))
  else .finish (.error (.request error))

/-- Reads once from the socket; `atEnd` is what the end of the input means. -/
def fetch (c : Connection η) (atEnd : Move η) : Move η :=
  match c.socket.read readChunk with
  | (_, .done []) => atEnd
  | (socket, .done bytes) => .stay { c with socket, reader := c.reader.extend bytes }
  | (socket, .blocked) => .wait .readable { c with socket }
  | (_, .failed error) => .finish (.error (c.failure (.io error)))

/-- Writes what is left of the phase's octets; `again` is the phase with less left, and `next` what
follows when nothing is left. -/
def transmit (c : Connection η) (data : Bytes) (again : Bytes → Phase)
    (next : Connection η → Move η) : List Note × Move η :=
  let (transfer, socket, attempt) := c.socket.writeAll data
  (transfer.accepted.map .accepted,
    match attempt with
    | .done () => next { c with socket }
    | .blocked => .wait .writable { c with socket, phase := again transfer.rest }
    | .failed error => .finish (.error (c.failure (.io error))))

/-- Goes on behind a head that has been read. -/
def behindHead (c : Connection η) : Move η :=
  match c.reader.head with
  | none => c.refuse (.invalidHeader .missingAfterParse)
  | some head =>
    let awaited := head.version = .http11 ∧ head.expectsContinue = true
    if awaited ∧ c.reader.payload.any (fun size => !size.isEmpty) = true then
      .enter { c with phase := .sendContinue continueBytes }
    else .enter { c with phase := .readBody none }

def stepHead (c : Connection η) : Move η :=
  match c.reader.seekHead with
  | (reader, .starved) =>
    { c with reader }.fetch <|
      match reader.headAtEnd with
      | .ok _ => .finish (.ok ())
      | .error error => { c with reader }.refuse error
  | (reader, .done (.error error)) => { c with reader }.refuse error
  | (reader, .done (.ok _)) =>
    match reader.parseHead with
    | .error cause => .crash cause
    | .ok (reader, .error error) => { c with reader }.refuse error
    | .ok (reader, .ok _) => { c with reader }.behindHead

/-- Begins to read the body that the head declares. -/
def openBody (c : Connection η) : Move η :=
  let size := c.reader.payload.getD .empty
  match c.reader.checkSize size.contentLength with
  | .error error => c.refuse error
  | .ok () => .stay { c with phase := .readBody (some (.ofSize size)) }

/-- Calls the handler and prepares its response, or the answer to its failure. The response says
whether the connection stays open. -/
def answer (handler : Handler η) (state : η) (request : Request) : η × Response × Bool :=
  let version := request.head.version
  let (state, result) := handler.call state request
  let response := match result with
    | .ok response => response
    | .error _ => .ofStatus .internalServerError version
  let keepAlive := request.head.keepsAlive && !response.wantsClose
  (state, response.prepare version keepAlive, keepAlive)

/-- Takes a complete request out of a reader. -/
def takeRequest? (reader : FrameReader) : Option (Request × FrameReader) :=
  match reader.takeHead with
  | (_, none) => none
  | (reader, some head) =>
    let (reader, body) := reader.takeBody
    let (reader, trailers) := reader.takeTrailers
    some (⟨head, body, if trailers.isEmpty then none else some trailers⟩, reader)

/-- Hands a complete request to the handler. -/
def dispatch (handler : Handler η) (c : Connection η) : List Note × Move η :=
  match takeRequest? c.reader with
  | none => ([], .finish (.error (.request (.invalidHeader .missingAfterBody))))
  | some (request, reader) =>
    let (state, response, keepAlive) := answer handler c.handler request
    ([.called request],
      match response.encode with
      | .error error => .finish (.error (.response error))
      | .ok bytes =>
        .enter { c with reader, handler := state, phase := .respond bytes keepAlive })

def stepBody (handler : Handler η) (c : Connection η) (decoder : PayloadDecoder) :
    List Note × Move η :=
  match FrameReader.drain decoder c.reader with
  | (_, reader, .done (.ok ())) => { c with reader }.dispatch handler
  | (_, reader, .done (.error error)) => ([], { c with reader }.refuse error)
  | (decoder, reader, .starved) =>
    let c := { c with reader, phase := .readBody (some decoder) }
    ([], c.fetch (match FrameReader.bodyAtEnd with
      | .ok () => .finish (.ok ())
      | .error error => c.refuse error))

/-- Goes on behind a response: to the next request, or to the end. -/
def behindResponse (keepAlive : Bool) (c : Connection η) : Move η :=
  if keepAlive then
    match c.reader.nextFrame with
    | .error cause => .crash cause
    | .ok reader => .enter { c with reader, served := c.served + 1, phase := .readHead }
  else .finish (.ok ())

def step (handler : Handler η) (c : Connection η) : List Note × Move η :=
  match c.phase with
  | .readHead => ([], c.stepHead)
  | .sendContinue rest =>
    c.transmit rest .sendContinue fun c => .enter { c with phase := .readBody none }
  | .readBody none => ([], c.openBody)
  | .readBody (some decoder) => c.stepBody handler decoder
  | .respond rest keepAlive => c.transmit rest (.respond · keepAlive) (behindResponse keepAlive)
  | .reject rest error =>
    c.transmit rest (.reject · error) fun _ => .finish (.error (.request error))

end CoopHttp.Connection
