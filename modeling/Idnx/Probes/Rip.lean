import Idnx.Probes.Octets

/-!
# RIPv2 responses

A response is a header and whole entries of twenty bytes, at most twenty-five of them. A message that is not one is
refused whole; an entry that is not a usable IPv4 route is dropped without the others.
-/

namespace Idnx

open Outcome

variable {ε : Type}

/-- One route a router advertised. -/
structure RipRoute where
  net : IpNet
  nextHop : Option IpAddr
  metric : UInt32
  tag : UInt16
  rawEntry : Bytes
  deriving DecidableEq, Repr

/-- Whether the entry advertises reachability rather than withdrawal. -/
def RipRoute.isReachable (route : RipRoute) : Bool := route.metric < 16

/-- Converts a netmask to a prefix length, rejecting anything not contiguous. -/
def contiguousPrefixLength (netmask : Ipv4Addr) : Option Nat :=
  let leading := leadingOnes netmask
  if leading = 32 then some 32
  else if netmask <<< leading = 0 then some leading
  else none

/-- The route of one entry, if it is a route. -/
def ripEntry (entry : Bytes) : Outcome ε (Option RipRoute) := do
  let family ← u16At entry 0
  -- Authentication entries use family 0xffff, and other families are not IPv4 routes.
  if family ≠ 2 then return none
  let address ← ipv4At entry 4
  let netmask ← ipv4At entry 8
  let nextHop ← ipv4At entry 12
  let metric ← u32At entry 16
  if ¬ (1 ≤ metric ∧ metric ≤ 16) then return none
  let tag ← u16At entry 2
  return do
    let prefixLength ← contiguousPrefixLength netmask
    let network ← Ipv4Net.new address prefixLength
    return { net := network.trunc.toNet, nextHop := if nextHop.isUnspecified then none else some (.v4 nextHop), metric,
             tag, rawEntry := entry }

/-- The whole entries from `offset` on. -/
def ripEntries (datagram : Bytes) : Nat × List RipRoute → Outcome ε (Turn (Nat × List RipRoute) (List RipRoute))
  | (offset, routes) =>
    if offset + 20 ≤ datagram.length then do
      let entry ← slice datagram offset (offset + 20)
      let route ← ripEntry entry
      return .next (offset + 20, routes ++ route.toList)
    else .ok (.done routes)

/-- Entries one RIPv2 datagram may carry. -/
def maxEntriesPerDatagram : Nat := 25

/-- Parses a RIPv2 response into the routes it advertises. -/
def parseResponse (datagram : Bytes) : Outcome Unit (List RipRoute) := do
  require (4 ≤ datagram.length) ()
  let command ← index datagram 0
  require (command = 2) ()
  let version ← index datagram 1
  require (version = 2) ()
  let reserved ← u16At datagram 2
  require (reserved = 0) ()
  require ((datagram.length - 4) % 20 = 0) ()
  require ((datagram.length - 4) / 20 ≤ maxEntriesPerDatagram) ()
  loop (ripEntries datagram) (datagram.length + 1) (4, [])

end Idnx
