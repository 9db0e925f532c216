import CoopHttp.Address.Ip
import CoopHttp.Decimal
import CoopHttp.Message.Error
import CoopHttp.Text.Quoted

/-!
# Socket addresses

An internet address and a port. An address of eight groups may name a scope behind a percent sign:
a number, or a network interface.
-/
namespace CoopHttp

/-- An address to listen on. A scope of zero is none. -/
inductive SocketAddress
  | v4 (ip : Ipv4) (port : Nat)
  | v6 (ip : Ipv6) (port scope : Nat)
  deriving DecidableEq, Repr

namespace SocketAddress

/-- The address without port and scope. -/
def renderIp : SocketAddress → String
  | v4 ip _ => ip.render
  | v6 ip _ _ => ip.render

def port : SocketAddress → Nat
  | v4 _ port | v6 _ port _ => port

/-- The scope, where the kind of address has one. -/
def scope? : SocketAddress → Option Nat
  | v4 _ _ => none
  | v6 _ _ scope => some scope

def render : SocketAddress → String
  | v4 ip port => ip.render ++ ":" ++ toString port
  | v6 ip port 0 => "[" ++ ip.render ++ "]:" ++ toString port
  | v6 ip port scope => "[" ++ ip.render ++ "%" ++ toString scope ++ "]:" ++ toString port

/-- The address with its four octets in plain form, if it stands for four octets. -/
def plain : SocketAddress → SocketAddress
  | v6 ip port scope =>
    match ip.mapped? with
    | some ip => v4 ip port
    | none => v6 ip port scope
  | a => a

/-- Listening on one address takes what listening on the other needs: a port of zero is never the
same port, and an unspecified address stands for every address of its kind. The one of eight groups
stands for those of four octets too. -/
def overlaps (a b : SocketAddress) : Bool :=
  let covers : SocketAddress → SocketAddress → Bool
    | v4 ip _, v4 other _ => ip = other || ip = .unspecified
    | v4 _ _, v6 _ _ _ => false
    | v6 ip _ _, v4 _ _ => ip = .unspecified
    | v6 ip _ scope, v6 other _ otherScope => (ip = other && scope = otherScope) || ip = .unspecified
  a.port == b.port && a.port != 0 && (covers a.plain b.plain || covers b.plain a.plain)

end SocketAddress

inductive AddressKind
  | v4
  | v6
  deriving DecidableEq, Repr

inductive ListenError
  | address (text : String) (kind : AddressKind)
  | interface (name : String)
  | bind (address : SocketAddress) (error : IoError)
  deriving DecidableEq, Repr

namespace ListenError

def message : ListenError → String
  | address text .v4 => "invalid address " ++ Quoted.quote text ++ ": invalid IPv4 address syntax"
  | address text .v6 => "invalid address " ++ Quoted.quote text ++ ": invalid IPv6 address syntax"
  | interface name => "unknown network interface " ++ Quoted.quote name
  | bind taken error => "bind to " ++ taken.render ++ " failed: " ++ error.message

end ListenError

/-- The network interfaces of a machine: names and indices. -/
abbrev Interfaces := List (String × Nat)

/-- The interface that every machine has. -/
def loopbackOnly : Interfaces := [("lo", 1)]

namespace SocketAddress

def scopeOf (interfaces : Interfaces) (zone : String) : Except ListenError Nat :=
  match Decimal.natural? UInt32.size (Bytes.ofText zone) with
  | some scope => .ok scope
  | none =>
    match interfaces.lookup zone with
    | some index => .ok index
    | none => .error (.interface zone)

/-- A text with a percent sign, cut at the last one. -/
def splitZone (text : List Char) : Option (List Char × List Char) :=
  let zone := (text.reverse.takeWhile (· != '%')).reverse
  if zone.length < text.length then
    some (text.take (text.length - zone.length - 1), zone)
  else none

/-- Reads an address. A text with a colon is taken as eight groups. -/
def parse (interfaces : Interfaces) (text : String) (port : Nat) :
    Except ListenError SocketAddress :=
  if text.toList.contains ':' then
    let (address, zone) := match splitZone text.toList with
      | some (address, zone) => (address, some zone)
      | none => (text.toList, none)
    match Ipv6.ofText? (String.ofList address), zone with
    | none, _ => .error (.address text .v6)
    | some ip, none => .ok (.v6 ip port 0)
    | some ip, some zone => (scopeOf interfaces (String.ofList zone)).map (.v6 ip port)
  else
    match Ipv4.ofText? text with
    | none => .error (.address text .v4)
    | some ip => .ok (.v4 ip port)

end SocketAddress

end CoopHttp
