import Idnx.Probes.Octets

/-!
# Router advertisements

An advertisement is read only with hop limit 255, a checksum that verifies over the pseudo-header and a link-local
source. Its options are walked by their lengths; an option of length zero or one that runs over the end refuses the
message, and an option whose length disagrees with its contents is passed over.
-/

namespace Idnx

open Outcome

variable {ε : Type}

namespace Ra

/-- A prefix the router says is on this link. -/
structure PrefixInformation where
  net : Ipv6Net
  onLink : Bool
  autonomous : Bool
  validLifetime : UInt32
  preferredLifetime : UInt32
  deriving DecidableEq, Repr

/-- The Prf field of a Route Information option. -/
inductive RoutePreference where
  | high
  | medium
  | low
  | reserved
  deriving DecidableEq, Repr

def RoutePreference.fromFlags (flags : UInt8) : RoutePreference :=
  match ((flags >>> 3) &&& 0b11).toNat with
  | 0b01 => .high
  | 0b00 => .medium
  | 0b11 => .low
  | _ => .reserved

/-- A route the router says it can reach. -/
structure RouteInformation where
  net : Ipv6Net
  preference : RoutePreference
  lifetime : UInt32
  deriving DecidableEq, Repr

/-- One validated router advertisement. -/
structure RouterAdvertisement where
  router : Ipv6Addr
  mac : Option Bytes
  routerLifetime : UInt16
  managed : Bool
  otherConfig : Bool
  mtu : Option UInt32
  prefixes : List PrefixInformation
  routes : List RouteInformation
  raw : Bytes
  deriving DecidableEq, Repr

namespace RouterAdvertisement

/-- Prefixes the router says are on this link. -/
def onLinkPrefixes (a : RouterAdvertisement) : List PrefixInformation := a.prefixes.filter (·.onLink)

/-- Routes worth acting on: a usable preference and a lifetime that has not expired. -/
def usableRoutes (a : RouterAdvertisement) : List RouteInformation :=
  a.routes.filter fun route => route.preference ≠ .reserved ∧ 0 < route.lifetime

end RouterAdvertisement

/-! ## Options -/

/-- Prefix Information: fixed at four 8-byte units. -/
def parsePrefixInformation (option : Bytes) : Outcome Unit PrefixInformation := do
  require (option.length = 32) ()
  let prefixLen ← index option 2
  let prefixLen := prefixLen.toNat
  require (prefixLen ≤ 128) ()
  let flags ← index option 3
  let address ← ipv6At option 16
  let net ← okOr (Ipv6Net.new address prefixLen) ()
  let validLifetime ← u32At option 4
  let preferredLifetime ← u32At option 8
  return { net := net.trunc, onLink := flags &&& 0x80 ≠ 0, autonomous := flags &&& 0x40 ≠ 0, validLifetime,
           preferredLifetime }

/-- Route Information: one, two or three 8-byte units, carrying 0, 8 or 16 bytes of prefix. The length must agree with
the prefix length it declares. -/
def parseRouteInformation (option : Bytes) : Outcome Unit RouteInformation := do
  let units := option.length / 8
  require (1 ≤ units ∧ units ≤ 3 ∧ option.length % 8 = 0) ()
  let prefixLen ← index option 2
  let prefixLen := prefixLen.toNat
  require (prefixLen ≤ 128) ()
  let carriedBits := match units with
    | 1 => 0
    | 2 => 64
    | _ => 128
  require (prefixLen ≤ carriedBits) ()
  let available := option.length - 8
  let octets ← slice option 8 (8 + available)
  let address ← ipv6OfSignificant octets
  let net ← okOr (Ipv6Net.new address prefixLen) ()
  let flags ← index option 3
  let lifetime ← u32At option 4
  return { net := net.trunc, preference := .fromFlags flags, lifetime }

/-- What one option adds to the advertisement. -/
def RouterAdvertisement.read (a : RouterAdvertisement) (kind : UInt8) (units : Nat) (option : Bytes) :
    Outcome ε RouterAdvertisement :=
  match kind.toNat with
  | 1 =>
    if units = 1 then do
      let address ← slice option 2 8
      let first ← index address 0
      -- A group address is not a station's own hardware address.
      return if first &&& 0x01 = 0 ∧ address ≠ List.replicate 6 0 then { a with mac := some address } else a
    else .ok a
  | 5 =>
    if units = 1 then do
      let mtu ← u32At option 4
      return { a with mtu := some mtu }
    else .ok a
  | 3 =>
    if units = 4 then do
      let read ← (parsePrefixInformation option).toOption
      return { a with prefixes := a.prefixes ++ read.toList }
    else .ok a
  | 24 => do
    let read ← (parseRouteInformation option).toOption
    return { a with routes := a.routes ++ read.toList }
  | _ => .ok a

/-- The next option of the message; its length counts units of eight bytes. -/
def nextOption (message : Bytes) :
    Nat × RouterAdvertisement → Outcome Unit (Turn (Nat × RouterAdvertisement) RouterAdvertisement)
  | (cursor, a) =>
    if cursor + 2 ≤ message.length then do
      let kind ← index message cursor
      let units ← index message (cursor + 1)
      let units := units.toNat
      require (units ≠ 0) ()
      let stop := cursor + units * 8
      require (stop ≤ message.length) ()
      let option ← slice message cursor stop
      let a ← a.read kind units option
      return .next (stop, a)
    else .ok (.done a)

/-- What confines router discovery to this link: a router would have decremented it. -/
def requiredHopLimit : UInt8 := 255

/-- Validates and decodes a router advertisement. -/
def parseAdvertisement (message : Bytes) (source destination : Ipv6Addr) (hopLimit : UInt8) :
    Outcome Unit RouterAdvertisement := do
  require (hopLimit = requiredHopLimit ∧ 16 ≤ message.length) ()
  let type ← index message 0
  let code ← index message 1
  require (type = 134 ∧ code = 0) ()
  let checksum ← icmpv6Checksum source destination message
  require (checksum = 0) ()
  require (source.isLinkLocal) ()
  let flags ← index message 5
  let routerLifetime ← u16At message 6
  loop (nextOption message) (message.length + 1)
    (16, { router := source, mac := none, routerLifetime, managed := flags &&& 0x80 ≠ 0,
           otherConfig := flags &&& 0x40 ≠ 0, mtu := none, prefixes := [], routes := [], raw := message })

end Ra

end Idnx
