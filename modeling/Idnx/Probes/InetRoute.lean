import Idnx.Probes.Ber
import Idnx.Probes.Octets

/-!
# The version-neutral routing table

A row of `inetCidrRouteTable` (RFC 4292). What identifies a route is its index: destination, prefix length, policy and
next hop, which `parseIndex` reads out of the sub-identifiers; the other columns may each be missing, readable or
unreadable (`Column`), and a walk that was cut short leaves the later ones out.
-/

namespace Idnx

open Outcome

/-- `IpNet::new`: a length the family does not have is refused. -/
def IpNet.new : IpAddr → Nat → Option IpNet
  | .v4 a, len => (Ipv4Net.new a len).map Ipv4Net.toNet
  | .v6 a, len => (Ipv6Net.new a len).map Ipv6Net.toNet

def IpAddr.isUnspecified : IpAddr → Bool
  | .v4 a => a.isUnspecified
  | .v6 a => a.isUnspecified

/-- The text of an identifier (`Display`). -/
def Oid.toText (oid : Oid) : Text := List.intercalate ['.'] (oid.map fun n => Text.ofNat n.toNat)

/-! ## The index -/

/-- `InetAddressType`, as it appears in an index. -/
inductive InetAddressType where
  | unknown
  | ipv4
  | ipv6
  | ipv4z
  | ipv6z
  deriving DecidableEq, Repr

def InetAddressType.fromSubid (subid : UInt32) : Option InetAddressType :=
  match subid.toNat with
  | 0 => some .unknown
  | 1 => some .ipv4
  | 2 => some .ipv6
  | 3 => some .ipv4z
  | 4 => some .ipv6z
  -- `dns(16)` names a host and not an address.
  | _ => none

/-- The exact octet count of the type. -/
def InetAddressType.addressLen : InetAddressType → Nat
  | .unknown => 0
  | .ipv4 => 4
  | .ipv6 => 16
  | .ipv4z => 8
  | .ipv6z => 20

/-- The largest prefix length of the family. -/
def InetAddressType.maxPrefixLen : InetAddressType → UInt8
  | .unknown => 0
  | .ipv4 | .ipv4z => 32
  | .ipv6 | .ipv6z => 128

def InetAddressType.label : InetAddressType → Text
  | .unknown => "unknown"
  | .ipv4 => "ipv4"
  | .ipv6 => "ipv6"
  | .ipv4z => "ipv4z"
  | .ipv6z => "ipv6z"

/-- One address out of an index, with the zone where the type carries one: an interface index of the polled device. -/
structure InetAddress where
  family : InetAddressType
  address : Option IpAddr
  zone : Option UInt32
  deriving DecidableEq, Repr

namespace InetAddress

/-- Whether this address can stand on its own as an identity. -/
def usableAsIdentity (a : InetAddress) : Bool := a.address.isSome && a.zone.isNone

def describe (a : InetAddress) : Text :=
  match a.address, a.zone with
  | some address, some zone =>
    address.toText ++ (" zone " : Text) ++ Text.ofNat zone.toNat ++ (" (" : Text) ++ a.family.label ++ (")" : Text)
  | some address, none => address.toText
  | none, _ => a.family.label

end InetAddress

/-- The composite index of one row. -/
structure InetRouteIndex where
  destination : InetAddress
  prefixLen : UInt8
  policy : Oid
  nextHop : InetAddress
  deriving DecidableEq, Repr

/-- The network this row is about (`InetRouteIndex::prefix`), where the destination is a plain address. -/
def InetRouteIndex.network (index : InetRouteIndex) : Option IpNet :=
  match index.destination.address, index.destination.zone with
  | some address, none => (IpNet.new address index.prefixLen.toNat).map IpNet.trunc
  | _, _ => none

/-- `u8::try_from` of a sub-identifier. -/
def octetOf (subid : UInt32) : Option UInt8 := if subid.toNat < 256 then some subid.toUInt8 else none

/-- The address and the zone in the octets of a type. -/
def addressOf (family : InetAddressType) (bytes : Bytes) : Outcome Unit (Option IpAddr × Option UInt32) :=
  match family with
  | .unknown => .ok (none, none)
  | .ipv4 => do
    let address ← ipv4At bytes 0
    return (some (.v4 address), none)
  | .ipv6 => do
    let address ← ipv6At bytes 0
    return (some (.v6 address), none)
  | .ipv4z => do
    let address ← ipv4At bytes 0
    let zone ← u32At bytes 4
    return (some (.v4 address), some zone)
  | .ipv6z => do
    let address ← ipv6At bytes 0
    let zone ← u32At bytes 16
    return (some (.v6 address), some zone)

/-- Reads one address out of the index, and where it ends. -/
def readAddress (subids : List UInt32) (start : Nat) : Outcome Unit (InetAddress × Nat) := do
  let type ← okOr subids[start]? ()
  let family ← okOr (InetAddressType.fromSubid type) ()
  let declared ← okOr subids[start + 1]? ()
  let declared := declared.toNat
  require (declared = family.addressLen) ()
  let octets ← okOr (getRange subids (start + 2) (start + 2 + declared)) ()
  let bytes ← okOr (octets.mapM octetOf) ()
  let (address, zone) ← addressOf family bytes
  return (⟨family, address, zone⟩, start + 2 + declared)

/-- Reads the sub-identifiers that follow a column's identifier. The index must be consumed exactly. -/
def parseIndex (subids : List UInt32) : Outcome Unit InetRouteIndex := do
  let (destination, start) ← readAddress subids 0
  let subid ← okOr subids[start]? ()
  let prefixLen ← okOr (octetOf subid) ()
  let start := start + 1
  require (prefixLen ≤ destination.family.maxPrefixLen) ()
  let policyLen ← okOr subids[start]? ()
  let policyLen := policyLen.toNat
  let start := start + 1
  let policy ← okOr (getRange subids start (start + policyLen)) ()
  let start := start + policyLen
  let (nextHop, start) ← readAddress subids start
  require (start = subids.length) ()
  return ⟨destination, prefixLen, policy, nextHop⟩

/-! ## The row -/

/-- A column that may be absent, present and readable, or present and not. -/
inductive Column (α : Type) where
  | missing
  | valid (value : α)
  | invalid (reason : Text)
  deriving DecidableEq, Repr

namespace Column

variable {α : Type}

def valid? : Column α → Option α
  | .valid value => some value
  | _ => none

def describe (column : Column α) (name : Text) : Text :=
  match column with
  | .missing => name ++ (" not returned" : Text)
  | .valid _ => []
  | .invalid reason => name ++ (" unreadable: " : Text) ++ reason

end Column

/-- `inetCidrRouteType`: what the device does with matching traffic. -/
inductive RouteType where
  | other
  | reject
  | localRoute
  | remote
  | blackhole
  deriving DecidableEq, Repr

namespace RouteType

def fromValue (value : Int) : Option RouteType :=
  match value with
  | 1 => some .other
  | 2 => some .reject
  | 3 => some .localRoute
  | 4 => some .remote
  | 5 => some .blackhole
  | _ => none

def label : RouteType → Text
  | .other => "other(1)"
  | .reject => "reject(2)"
  | .localRoute => "local(3)"
  | .remote => "remote(4)"
  | .blackhole => "blackhole(5)"

/-- Whether traffic matching this row is discarded rather than delivered anywhere. -/
def discards (kind : RouteType) : Bool := kind == .reject || kind == .blackhole

end RouteType

/-- One row of the table, as read. -/
structure InetRoute where
  index : InetRouteIndex
  instanceOid : Oid
  ifIndex : Option Int
  routeType : Column RouteType
  proto : Option Int
  metric : Option Int
  status : Column Int
  deriving DecidableEq, Repr

namespace InetRoute

variable (route : InetRoute)

/-- Whether the row is in force, stated explicitly by the agent. -/
def active : Bool := route.status == .valid 1

/-- The next hop, where it is one that can be identified. -/
def usableNextHop : Option IpAddr :=
  if route.index.nextHop.usableAsIdentity then
    route.index.nextHop.address.filter fun address => !address.isUnspecified
  else none

/-- One line naming everything the row stated. -/
def describe : Text :=
  let index := route.index
  let numbered (name : Text) (value : Option Int) : List Text := value.toList.map fun n => name ++ ' ' :: Text.ofInt n
  let typed : Text :=
    match route.routeType with
    | .valid kind => ("type " : Text) ++ kind.label
    | column => column.describe "type"
  let stated : Text :=
    match route.status with
    | .valid status => ("status " : Text) ++ Text.ofInt status
    | column => column.describe "status"
  let parts : List Text :=
    [("inetCidrRoute " : Text) ++ index.destination.describe ++ '/' :: Text.ofNat index.prefixLen.toNat ++
        (" via " : Text) ++ index.nextHop.describe] ++
      (if index.policy.isEmpty then [] else [("policy " : Text) ++ Oid.toText index.policy]) ++
      [typed] ++ numbered "proto" route.proto ++ numbered "ifIndex" route.ifIndex ++ numbered "metric" route.metric ++
      [stated, ("instance " : Text) ++ Oid.toText route.instanceOid]
  List.intercalate (", " : Text) parts

end InetRoute

end Idnx
