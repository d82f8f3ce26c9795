import RouteFleet.Reach
import Std.Async.DNS
import Std.Async.TCP
import Std.Async.Timer

/-! # The network

Which servers answer, and what the address of the host itself is.
-/

namespace RouteFleet.Network

open Std.Async Std.Net

/-- How long a server has to answer, in milliseconds. -/
def patience : Std.Time.Millisecond.Offset := 2000

/-- The byte of an address at a position, the first one being the highest. -/
def byteAt (address : UInt32) (position : UInt32) : UInt8 :=
  (address >>> (24 - 8 * position)).toUInt8

/-- The word of an address at a position. -/
def wordAt (words : List Nat) (position : Nat) : UInt16 := UInt16.ofNat (words.getD position 0)

/-- The addresses of a host. -/
def addressesOf : Host → Async (Array IPAddr)
  | .ipv4 a =>
    return #[.v4 (.ofParts (byteAt a 0) (byteAt a 1) (byteAt a 2) (byteAt a 3))]
  | .ipv6 w =>
    return #[.v6 (.ofParts (wordAt w 0) (wordAt w 1) (wordAt w 2) (wordAt w 3) (wordAt w 4)
      (wordAt w 5) (wordAt w 6) (wordAt w 7))]
  | .domain name => DNS.getAddrInfo name ""

/-- An address with a port. -/
def socketAddress (port : UInt16) : IPAddr → SocketAddress
  | .v4 addr => .v4 ⟨addr, port⟩
  | .v6 addr => .v6 ⟨addr, port⟩

/-- Whether one of some addresses lets itself be connected to. -/
def connects (port : UInt16) : List IPAddr → Async Bool
  | [] => return false
  | addr :: rest => do
    try
      let client ← TCP.Socket.Client.mk
      client.connect (socketAddress port addr)
      return true
    catch _ => connects port rest

/-- Whether a server answers in time. -/
def answers (address : Address) : Async Bool := do
  let tried : Async Bool := do connects address.port (← addressesOf address.host).toList
  let late : Async Bool := do
    sleep patience
    return false
  try Async.race tried late
  catch _ => return false

/-- Those of some servers that answer in time. They are all asked at once. -/
def answering (addresses : List Address) : IO (List Address) := do
  let found ← (Async.concurrentlyAll (addresses.map answers).toArray).block
  return ((addresses.zip found.toList).filter (·.2)).map (·.1)

/-- The first address of the host, in four bytes, under which others know it. -/
def hostIp : IO (Option String) := do
  let found ← interfaceAddresses
  return found.toList.findSome? fun i =>
    match i.address with
    | .v4 addr => if i.isLoopback then none else some (toString addr)
    | .v6 _ => none

end RouteFleet.Network
