import CoopHttp.Address.Host
import CoopHttp.Connection.Process
import CoopHttp.Echo
import CoopHttp.Scheduler.Turn
import CoopHttp.Server.Config

/-!
# The echo server

A server listens on the addresses of its configuration and serves every client by a task of its
own, under one timer wheel that covers the longest of its deadlines.
-/
namespace CoopHttp

/-- A server whose listening sockets are open. -/
structure Server where
  config : ServerConfig
  scheduler : Scheduler (Connection Unit) (Int × Connection.Note)
  timer : TimerId
  listeners : List SocketAddress

namespace Server

/-- Opens one more listening socket. Sockets may share an address only if all of them are meant
to. -/
def listen (host : Host) (config : ServerConfig) (listeners : List SocketAddress)
    (address : SocketAddress) : Except ListenError (List SocketAddress) :=
  match host.refusal? address with
  | some error => .error (.bind address error)
  | none =>
    if !config.reusePort && listeners.any address.overlaps then
      .error (.bind address .addressInUse)
    else .ok (listeners ++ [address])

/-- Opens the listening sockets of a configuration, in order; the first failure decides. -/
def listenAll (host : Host) (config : ServerConfig) : Except ListenError (List SocketAddress) :=
  config.addresses.foldlM (fun listeners text =>
    (SocketAddress.parse host.interfaces text config.port).bind (listen host config listeners)) []

def bind (host : Host) (config : ServerConfig) : Except Crash (Except ListenError Server) :=
  (({} : Scheduler _ _).addTimer config.maxTimeout config.timerGranularity).map
    fun (scheduler, timer) =>
      (listenAll host config).map fun listeners => { config, scheduler, timer, listeners }

def service (server : Server) : Service Unit where
  handler := Echo.handler
  deadlines := {
    headerRead := some ⟨server.timer, server.config.headerTimeout⟩
    keepAlive := some ⟨server.timer, server.config.keepAliveTimeout⟩
    bodyRead := some ⟨server.timer, server.config.bodyTimeout⟩
    write := some ⟨server.timer, server.config.writeTimeout⟩ }

structure Reply where
  received : Bytes := []
  /-- The server has closed the connection. -/
  closed : Bool := false
  deriving DecidableEq, Repr

/-- What the log says about one descriptor. -/
def replyOf (log : List (Event (Int × Connection.Note))) (fd : Int) : Reply :=
  log.foldl (fun reply event =>
    match event with
    | .note (subject, entry) =>
      if subject = fd then
        match entry with
        | .accepted bytes => { reply with received := reply.received ++ bytes }
        | .closed => { reply with closed := true }
        | .called _ | .ended _ => reply
      else reply
    | _ => reply) {}

/-- Starts the task of a client that sends octets and closes its side. -/
def welcome (server : Server) (fd : Int) (input : Bytes) : Except Crash Server :=
  (server.scheduler.spawn (Connection.behaviour server.service) fd .readable [(fd, .closed)]
    fun _ => Connection.start server.service fd
      { socket := ⟨[.bytes input], []⟩, handler := () }).map
    fun (scheduler, _) => { server with scheduler }

/-- Starts the tasks of clients, which have the descriptors from `fd` on. -/
def welcomeAll (server : Server) (fd : Int) : List Bytes → Except Crash Server
  | [] => .ok server
  | input :: inputs => (server.welcome fd input).bind fun server => server.welcomeAll (fd + 1) inputs

/-- Serves clients that connect one after the other, and says what each of them gets. -/
def serve (host : Host) (server : Server) (clients : List Bytes) : Except Crash (List Reply) :=
  match host.network, clients with
  | .isolated, _ :: _ => .error .unreachableHost
  | _, clients => (server.welcomeAll 0 clients).map fun server =>
    (List.range clients.length).map fun (i : Nat) => replyOf server.scheduler.log i

end Server

end CoopHttp
