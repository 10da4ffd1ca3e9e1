/-
# The network around a program

What the host's network does with a request to listen or to connect. The program
takes it as a parameter, so that a run on a host without a route is as
determined as one on an open host.
-/

import ChatHall.Net.Settings

namespace ChatHall.Net

/-- How the host answers requests to connect and to listen. -/
structure Network where
  /-- The answer to a connection to a port on which somebody listens, or nobody. -/
  dial : (listening : Bool) → Except IoError Unit
  /-- The answer to opening a port: the address that was opened. -/
  bind : Address → Except IoError Address

namespace Network

/-- The addresses on which a host lets ports be opened, apart from those that need an
interface. -/
structure Addresses where
  v4 : UInt8 × UInt8 × UInt8 × UInt8 → Bool
  v6 : List UInt16 → Bool

/-- The port that is opened if none is asked for. -/
def freePort : UInt16 := 49152

/-- The number of a host's only interface. -/
def onlyInterface : UInt32 := 1

/-- What stands against opening a port on an address. An IPv6 address that maps an IPv4
address counts as that one. A multicast address is no address of a port, and a link-local
one belongs to an interface, which has to be named and has none of them. -/
def objection? (own : Addresses) : Host → Option IoError
  | .v4 a b c d => if own.v4 (a, b, c, d) then none else some .addressNotAvailable
  | .v6 groups scope =>
    match Address.mapped? groups.toList with
    | some octets => if own.v4 octets then none else some .addressNotAvailable
    | none =>
      if groups[0] &&& 0xFF00 = 0xFF00 then some .invalidArgument
      else if groups[0] &&& 0xFFC0 = 0xFE80 then
        if scope = 0 then some .invalidArgument
        else if scope ≠ onlyInterface then some .noSuchDevice
        else some .addressNotAvailable
      else if own.v6 groups.toList then none
      else some .addressNotAvailable

/-- The host of an address on which a port has been opened: scopes matter to link-local
addresses only. -/
def unscoped : Host → Host
  | .v6 groups _ => .v6 groups 0
  | host => host

/-- Opens a port unless something stands against it; port 0 stands for a free one. -/
def bindAmong (own : Addresses) (a : Address) : Except IoError Address :=
  match objection? own a.host with
  | some e => .error e
  | none => .ok { host := unscoped a.host, port := if a.port = 0 then freePort else a.port }

/-- A host that reaches its own ports. Beside the addresses that mean the host itself it
takes those that mean many. -/
def loopback : Network where
  dial listening := if listening then .ok () else .error .connectionRefused
  bind := bindAmong {
    v4 := fun (a, b, c, d) => a = 127 || a &&& 0xF0 = 224 ||
      (a, b, c, d) = (0, 0, 0, 0) || (a, b, c, d) = (255, 255, 255, 255)
    v6 := fun groups => groups = [0, 0, 0, 0, 0, 0, 0, 0] || groups = [0, 0, 0, 0, 0, 0, 0, 1] }

/-- A host without any route, not even to itself: connections fail. Having no table that
says which IPv4 addresses are its own, it opens ports on all of them; of the IPv6
addresses it has only the one that means any. -/
def isolated : Network where
  dial _ := .error .networkUnreachable
  bind := bindAmong {
    v4 := fun _ => true
    v6 := fun groups => groups = [0, 0, 0, 0, 0, 0, 0, 0] }

/-- Opens a port with settings that sessions can work with. -/
def listen (n : Network) (address : Address) (settings : Settings) : Except Error Address := do
  settings.validate
  (n.bind address).mapError .io

end Network

end ChatHall.Net
