import Idnx.Net.Address
import Mathlib.Order.Basic
import Mathlib.Order.Lattice

/-!
# Evidence

The record every discovery provider emits: one fact, where it came from, how much weight it carries, which vantage saw
it, and the peer that asserted it when it was not seen here. Providers never touch the graph; they return records, and
`Idnx.Topology.Graph` decides what a record supports.
-/

namespace Idnx

/-- How much weight a single fact carries. -/
inductive Confidence where
  | inferred
  | advertised
  | userSupplied
  | observed
  deriving DecidableEq, Ord, Repr

/-- The place of a confidence in the order of declaration. -/
def Confidence.rank : Confidence → Nat
  | .inferred => 0
  | .advertised => 1
  | .userSupplied => 2
  | .observed => 3

theorem Confidence.rank_injective : Function.Injective Confidence.rank := by
  intro a b h
  cases a <;> cases b <;> first | rfl | cases h

instance : LinearOrder Confidence := LinearOrder.lift' Confidence.rank Confidence.rank_injective

/-- Where a fact came from. -/
inductive EvidenceSource where
  | interfaceAddress
  | kernelRoute
  | defaultGateway
  | resolverConfig
  | dhcpLease
  | arpCache
  | ndpCache
  | arpProbe
  | ndpProbe
  | icmpProbe
  | tcpProbe
  | mdns
  | unicastDns
  | ssdp
  | nbns
  | llmnr
  | mndp
  | lldp
  | cdp
  | stp
  | routerAdvertisement
  | snmp
  | rip
  | vendorDiscovery
  | natPmp
  | aiProtocol
  | mcp
  | userSupplied
  deriving DecidableEq, Ord, Repr

def EvidenceSource.label : EvidenceSource → Text
  | .interfaceAddress => "interface address"
  | .kernelRoute => "kernel route"
  | .defaultGateway => "default gateway"
  | .resolverConfig => "resolver config"
  | .dhcpLease => "DHCP lease"
  | .arpCache => "ARP cache"
  | .ndpCache => "NDP cache"
  | .arpProbe => "ARP probe"
  | .ndpProbe => "neighbour solicitation"
  | .icmpProbe => "ICMP probe"
  | .tcpProbe => "TCP probe"
  | .mdns => "mDNS"
  | .unicastDns => "unicast DNS"
  | .ssdp => "SSDP/UPnP"
  | .nbns => "NBNS"
  | .llmnr => "LLMNR"
  | .mndp => "MNDP"
  | .lldp => "LLDP"
  | .cdp => "CDP"
  | .stp => "STP/BPDU"
  | .routerAdvertisement => "IPv6 router advertisement"
  | .snmp => "SNMP"
  | .rip => "RIP"
  | .vendorDiscovery => "vendor discovery"
  | .natPmp => "NAT-PMP"
  | .aiProtocol => "AI runtime protocol"
  | .mcp => "MCP (negotiated)"
  | .userSupplied => "user supplied"

/-! ## Identities -/

/-- Stable identity of a device: its hardware address where one is known, else an address, else an address that only
means something inside a zone. -/
inductive DeviceKey where
  | mac (text : Text)
  | address (addr : IpAddr)
  | scopedAddress (addr : IpAddr) (zone : Text)
  deriving DecidableEq, Ord, Repr

namespace DeviceKey

/-- The key of a hardware address as it was written; case does not matter. -/
def ofMac (raw : Text) : DeviceKey := .mac raw.toAsciiLowercase

/-- The address this key refers to, if it is address-based (`DeviceKey::address`). -/
def address? : DeviceKey → Option IpAddr
  | .address a => some a
  | .scopedAddress a _ => some a
  | .mac _ => none

/-- `matches!(key, DeviceKey::Mac(_))`. -/
def isMac : DeviceKey → Bool
  | .mac _ => true
  | _ => false

end DeviceKey

/-- True when an address is ambiguous without an interface zone: `fe80::/10` and `ff02::/16`. -/
def requiresZone : IpAddr → Bool
  | .v4 _ => false
  | .v6 a => a.segment 0 &&& 0xffc0 == 0xfe80 || a.segment 0 &&& 0xff0f == 0xff02

/-! ## Behaviour and capabilities -/

/-- Behaviour that argues a device performs a network-infrastructure role. -/
inductive RoleSignal where
  | defaultGateway
  | dhcpRouter
  | routerAdvertisement
  | linkLayerCapability (label : Text)
  | internetGatewayDevice
  | snmpForwarding
  | observedForwarding
  | kernelNextHop
  | ripRouteAdvertisement
  | spanningTreeBridge
  | managementSurface
  deriving DecidableEq, Ord, Repr

namespace RoleSignal

/-- Weight toward a router or switch classification. -/
def weight : RoleSignal → Nat
  | .defaultGateway => 100
  | .snmpForwarding => 90
  | .ripRouteAdvertisement => 90
  | .spanningTreeBridge => 90
  | .internetGatewayDevice => 80
  | .dhcpRouter => 80
  | .routerAdvertisement => 70
  | .linkLayerCapability _ => 70
  | .kernelNextHop => 70
  | .observedForwarding => 60
  | .managementSurface => 30

def describe : RoleSignal → Text
  | .defaultGateway => "is this machine's default gateway"
  | .dhcpRouter => "acts as a DHCP router or server"
  | .routerAdvertisement => "advertises itself as an IPv6 router (RFC 4861)"
  | .linkLayerCapability c => ("LLDP/CDP capability: " : Text) ++ c
  | .internetGatewayDevice => "advertises a UPnP InternetGatewayDevice"
  | .snmpForwarding => "SNMP reports IP forwarding"
  | .ripRouteAdvertisement => "advertised routes over RIP"
  | .observedForwarding => "observed forwarding traffic on a path"
  | .kernelNextHop => "is the kernel's next hop for a routed network"
  | .spanningTreeBridge => "emits spanning-tree BPDUs"
  | .managementSurface => "serves DNS and a web management interface"

end RoleSignal

/-- Something a device was observed to do, independent of what it is. -/
inductive Capability where
  | defaultGateway
  | ipv4Forwarding
  | ipv6Router
  | natGateway
  | dhcpServer
  | dnsServer
  | bridge
  | wirelessAp
  | managementInterface
  | aiRuntime
  | aiAgent
  | mcpServer
  deriving DecidableEq, Ord, Repr

def Capability.label : Capability → Text
  | .defaultGateway => "default gateway"
  | .ipv4Forwarding => "IPv4 forwarding"
  | .ipv6Router => "IPv6 router"
  | .natGateway => "NAT gateway"
  | .dhcpServer => "DHCP server"
  | .dnsServer => "DNS server"
  | .bridge => "bridge"
  | .wirelessAp => "wireless AP"
  | .managementInterface => "management interface"
  | .aiRuntime => "AI runtime"
  | .aiAgent => "AI agent"
  | .mcpServer => "MCP server"

/-! ## Facts and records -/

/-- A single normalized fact produced by a provider. -/
inductive Fact where
  | network (net : IpNet)
  | vlan (id : UInt16)
  | vlanNetwork (vlan : UInt16) (network : IpNet)
  | interfaceNetwork (interface : Text) (net : IpNet)
  | deviceAddress (device : DeviceKey) (address : IpAddr)
  | deviceHostname (device : DeviceKey) (hostname : Text)
  | deviceVendor (device : DeviceKey) (vendor : Text)
  | deviceDescription (device : DeviceKey) (text : Text)
  | deviceRoleSignal (device : DeviceKey) (signal : RoleSignal)
  | deviceCapability (device : DeviceKey) (capability : Capability) (detail : Option Text)
  | gatewayFor (device : DeviceKey) (network : IpNet)
  | routesTo (device : DeviceKey) (network : IpNet) (nextHop : Option IpAddr)
  | attachedTo (device : DeviceKey) (network : IpNet)
  | bridgeLink (bridgeId rootId : Text) (port : Option Text)
  | observedBehind (device via : DeviceKey)
  | forwardsToward (device : DeviceKey) (toward : IpAddr) (distance : UInt8) (previous : Option DeviceKey)
  | opaqueBoundary (device : DeviceKey) (why : Text)
  | service (address : IpAddr) (port : UInt16) (protocol : Text) (detail : Option Text)
  | resolvedAs (name : Text) (address : IpAddr)
  deriving DecidableEq, Repr

/-- Where a remote fact came from: which peer, from which of its vantages, in which bundle. -/
structure PeerOrigin where
  peer : Text
  vantage : Text
  sequence : Nat
  publishedAt : Nat
  deriving DecidableEq, Repr

/-- One fact plus the provenance required to justify it. `observedAt` is in nanoseconds since the epoch. -/
structure TopologyEvidence where
  fact : Fact
  source : EvidenceSource
  confidence : Confidence
  vantage : Text
  observedAt : Nat := 0
  detail : Option Text := none
  origin : Option PeerOrigin := none
  deriving DecidableEq, Repr

/-- Whether the record came from another machine. -/
def TopologyEvidence.isRemote (ev : TopologyEvidence) : Bool := ev.origin.isSome

end Idnx
