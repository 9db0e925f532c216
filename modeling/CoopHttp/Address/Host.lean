import CoopHttp.Address.Socket

/-!
# Hosts

What a machine offers to those who listen on it: its network interfaces, and the addresses that are
its own.
-/
namespace CoopHttp

inductive Network
  | connected
  /-- No interface is up: no client finds its way to any host, and no interface has an address of
  eight groups. -/
  | isolated
  deriving DecidableEq, Repr

structure Host where
  interfaces : Interfaces := loopbackOnly
  network : Network
  deriving DecidableEq, Repr

namespace Host

/-- Why a machine cannot listen on an address, if it cannot. Four octets are taken as they come, in
either form, and so is the unspecified address. Nobody listens on the address of a group; a
link-local address is one of an interface, which must be named; and any other must be an address of
the machine. -/
def refusal? (host : Host) : SocketAddress → Option IoError
  | .v4 _ _ => none
  | .v6 ip _ scope =>
    if ip = .unspecified ∨ ip.mapped?.isSome then none
    else if ip.isMulticast ∨ (ip.isLinkLocal ∧ scope = 0) then some .invalidArgument
    else if ip.isLinkLocal ∧ host.interfaces.all (·.2 ≠ scope) then some .noSuchDevice
    else match host.network with
      | .connected => none
      | .isolated => some .addressNotAvailable

end Host

end CoopHttp
