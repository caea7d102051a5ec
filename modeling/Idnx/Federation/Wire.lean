import Idnx.Lib.Outcome
import Idnx.Topology.Evidence

/-!
# The federation wire format

A record as it travels between peers: facts and identities with their addresses, prefixes and names as text.
Converting a record for the wire is total (`WireEvidence.fromEvidence`); converting it back refuses text this build
does not know (`WireEvidence.toEvidence`). Reading an address or a prefix is the standard library's business and a
parameter here, `NetText`, together with the characters that are printed as they are in an error.
-/

namespace Idnx

/-- The library functions the format rests on. -/
structure NetText where
  parseAddress : Text → Option IpAddr
  parsePrefix : Text → Option IpNet
  printable : Char → Bool

/-! ## Records on the wire -/

/-- A device identity; the zone travels beside the address. -/
inductive WireDevice where
  | mac (mac : Text)
  | address (address : Text)
  | scopedAddress (address zone : Text)
  deriving DecidableEq, Repr

/-- One fact. -/
inductive WireFact where
  | network (net : Text)
  | vlan (id : UInt16)
  | vlanNetwork (vlan : UInt16) (network : Text)
  | interfaceNetwork (interface net : Text)
  | deviceAddress (device : WireDevice) (address : Text)
  | deviceHostname (device : WireDevice) (hostname : Text)
  | deviceVendor (device : WireDevice) (vendor : Text)
  | deviceDescription (device : WireDevice) (text : Text)
  | deviceRoleSignal (device : WireDevice) (signal : Text) (label : Option Text)
  | deviceCapability (device : WireDevice) (capability : Text) (detail : Option Text)
  | gatewayFor (device : WireDevice) (network : Text)
  | routesTo (device : WireDevice) (network : Text) (nextHop : Option Text)
  | attachedTo (device : WireDevice) (network : Text)
  | bridgeLink (bridgeId rootId : Text) (port : Option Text)
  | observedBehind (device via : WireDevice)
  | forwardsToward (device : WireDevice) (toward : Text) (distance : UInt8) (previous : Option WireDevice)
  | opaqueBoundary (device : WireDevice) (why : Text)
  | service (address : Text) (port : UInt16) (protocol : Text) (detail : Option Text)
  | resolvedAs (name address : Text)
  deriving DecidableEq, Repr

/-- One record, with the provenance a receiver needs to weigh it. `observedAt` is in seconds. -/
structure WireEvidence where
  fact : WireFact
  source : Text
  confidence : Text
  vantage : Text
  observedAt : UInt64
  detail : Option Text
  deriving DecidableEq, Repr

/-- A peer-controlled string and the field it came from. -/
def textField (field value : Text) : Text × Text := (field, value)

/-- The peer-controlled strings in a device identity. -/
def WireDevice.textFields : WireDevice → List (Text × Text)
  | .mac text => [textField "mac" text]
  | .address addr => [textField "device address" addr]
  | .scopedAddress addr zone => [textField "device address" addr, textField "device zone" zone]

/-- Every peer-controlled string in a fact. -/
def WireFact.textFields : WireFact → List (Text × Text)
  | .network net => [textField "prefix" net]
  | .vlan _ => []
  | .vlanNetwork _ net => [textField "network" net]
  | .interfaceNetwork interface net => [textField "interface" interface, textField "prefix" net]
  | .deviceAddress device address => device.textFields ++ [textField "address" address]
  | .deviceHostname device hostname => device.textFields ++ [textField "hostname" hostname]
  | .deviceVendor device vendor => device.textFields ++ [textField "vendor" vendor]
  | .deviceDescription device text => device.textFields ++ [textField "description" text]
  | .deviceRoleSignal device signal label =>
    device.textFields ++ [textField "role signal" signal] ++ label.toList.map (textField "role signal label")
  | .deviceCapability device capability detail =>
    device.textFields ++ [textField "capability" capability] ++ detail.toList.map (textField "capability detail")
  | .gatewayFor device net => device.textFields ++ [textField "network" net]
  | .routesTo device net nextHop =>
    device.textFields ++ [textField "network" net] ++ nextHop.toList.map (textField "next hop")
  | .attachedTo device net => device.textFields ++ [textField "network" net]
  | .bridgeLink bridgeId rootId port =>
    [textField "bridge id" bridgeId, textField "root id" rootId] ++ port.toList.map (textField "bridge port")
  | .observedBehind device via => device.textFields ++ via.textFields
  | .forwardsToward device toward _ previous =>
    device.textFields ++ [textField "probe destination" toward] ++ previous.toList.flatMap WireDevice.textFields
  | .opaqueBoundary device why => device.textFields ++ [textField "boundary reason" why]
  | .service address _ protocol detail =>
    [textField "address" address, textField "protocol" protocol] ++ detail.toList.map (textField "service detail")
  | .resolvedAs name address => [textField "resolved name" name, textField "address" address]

/-- Every peer-controlled string in a record. -/
def WireEvidence.textFields (ev : WireEvidence) : List (Text × Text) :=
  let fields := [textField "source" ev.source, textField "confidence" ev.confidence, textField "vantage" ev.vantage]
  ev.fact.textFields ++ fields ++ ev.detail.toList.map (textField "detail")

/-- What went wrong converting a record. -/
inductive WireError where
  | malformed (what : Text)
  | unknown (what : Text)
  deriving DecidableEq, Repr

/-- The text of the error (`Display`). -/
def WireError.toText : WireError → Text
  | .malformed what => ("malformed " : Text) ++ what
  | .unknown what => ("unknown " : Text) ++ what

/-! ## Names -/

section Names

variable (lib : NetText)

/-- One character as it stands in a quoted string. -/
def escapeDebug (c : Char) : Text :=
  if c = '\x00' then ['\\', '0']
  else if c = '\t' then ['\\', 't']
  else if c = '\r' then ['\\', 'r']
  else if c = '\n' then ['\\', 'n']
  else if c = '"' ∨ c = '\\' then ['\\', c]
  else if lib.printable c then [c]
  else ['\\', 'u', '\x7b'] ++ Text.hexOfNat c.toNat ++ ['\x7d']

/-- A text in quotes, `{text:?}`. -/
def debugText (t : Text) : Text := '"' :: t.flatMap (escapeDebug lib) ++ ['"']

def parsePrefix (text : Text) : Except WireError IpNet :=
  match lib.parsePrefix text with
  | some net => .ok net
  | none => .error (.malformed (("prefix " : Text) ++ debugText lib text))

def parseAddress (text : Text) : Except WireError IpAddr :=
  match lib.parseAddress text with
  | some addr => .ok addr
  | none => .error (.malformed (("address " : Text) ++ debugText lib text))

/-- Reading a name back: the value of the list that is written so, or an error that says what was looked for. -/
def fromWireName {α : Type} (what : Text) (all : List α) (name : α → Text) (text : Text) : Except WireError α :=
  match all.find? fun v => name v = text with
  | some v => .ok v
  | none => .error (.unknown (what ++ ' ' :: debugText lib text))

/-- Names that differ read back as what was written. -/
theorem fromWireName_name {α : Type} {what : Text} {all : List α} (name : α → Text)
    (hne : all.Pairwise fun v w => name v ≠ name w) {v : α} (hv : v ∈ all) :
    fromWireName lib what all name (name v) = .ok v := by
  have hfind : all.find? (fun w => name w = name v) = some v := by
    induction all with
    | nil => cases hv
    | cons w all ih =>
      rw [List.pairwise_cons] at hne
      rcases List.mem_cons.mp hv with rfl | hv
      · simp
      · rw [List.find?_cons_of_neg (by simpa using hne.1 v hv)]
        exact ih hne.2 hv
  rw [fromWireName, hfind]

def protocolFromWire (text : Text) : Except WireError Text :=
  fromWireName lib "protocol" [("tcp" : Text), ("udp" : Text)] id text

def confidenceWire : Confidence → Text
  | .observed => "observed"
  | .advertised => "advertised"
  | .inferred => "inferred"
  | .userSupplied => "user_supplied"

def confidenceFromWire (text : Text) : Except WireError Confidence :=
  fromWireName lib "confidence" [.observed, .advertised, .inferred, .userSupplied] confidenceWire text

def sourceWire : EvidenceSource → Text
  | .interfaceAddress => "interface_address"
  | .kernelRoute => "kernel_route"
  | .defaultGateway => "default_gateway"
  | .resolverConfig => "resolver_config"
  | .dhcpLease => "dhcp_lease"
  | .arpCache => "arp_cache"
  | .ndpCache => "ndp_cache"
  | .arpProbe => "arp_probe"
  | .ndpProbe => "ndp_probe"
  | .icmpProbe => "icmp_probe"
  | .tcpProbe => "tcp_probe"
  | .mdns => "mdns"
  | .unicastDns => "unicast_dns"
  | .ssdp => "ssdp"
  | .nbns => "nbns"
  | .llmnr => "llmnr"
  | .mndp => "mndp"
  | .lldp => "lldp"
  | .cdp => "cdp"
  | .stp => "stp"
  | .routerAdvertisement => "router_advertisement"
  | .snmp => "snmp"
  | .rip => "rip"
  | .vendorDiscovery => "vendor_discovery"
  | .natPmp => "nat_pmp"
  | .aiProtocol => "ai_protocol"
  | .mcp => "mcp"
  | .userSupplied => "user_supplied"

def sourceFromWire (text : Text) : Except WireError EvidenceSource :=
  fromWireName lib "EvidenceSource"
    [.interfaceAddress, .kernelRoute, .defaultGateway, .resolverConfig, .dhcpLease, .arpCache, .ndpCache, .arpProbe,
      .ndpProbe, .icmpProbe, .tcpProbe, .mdns, .unicastDns, .ssdp, .nbns, .llmnr, .mndp, .lldp, .cdp, .stp,
      .routerAdvertisement, .snmp, .rip, .vendorDiscovery, .natPmp, .aiProtocol, .mcp, .userSupplied] sourceWire text

def capabilityWire : Capability → Text
  | .defaultGateway => "default_gateway"
  | .ipv4Forwarding => "ipv4_forwarding"
  | .ipv6Router => "ipv6_router"
  | .natGateway => "nat_gateway"
  | .dhcpServer => "dhcp_server"
  | .dnsServer => "dns_server"
  | .bridge => "bridge"
  | .wirelessAp => "wireless_ap"
  | .managementInterface => "management_interface"
  | .aiRuntime => "ai_runtime"
  | .aiAgent => "ai_agent"
  | .mcpServer => "mcp_server"

def capabilityFromWire (text : Text) : Except WireError Capability :=
  fromWireName lib "Capability"
    [.defaultGateway, .ipv4Forwarding, .ipv6Router, .natGateway, .dhcpServer, .dnsServer, .bridge, .wirelessAp,
      .managementInterface, .aiRuntime, .aiAgent, .mcpServer] capabilityWire text

/-- A role signal as a name and, for the one that carries it, a label. -/
def roleSignalWire : RoleSignal → Text × Option Text
  | .defaultGateway => ("default_gateway", none)
  | .dhcpRouter => ("dhcp_router", none)
  | .routerAdvertisement => ("router_advertisement", none)
  | .linkLayerCapability label => ("link_layer_capability", some label)
  | .internetGatewayDevice => ("internet_gateway_device", none)
  | .snmpForwarding => ("snmp_forwarding", none)
  | .ripRouteAdvertisement => ("rip_route_advertisement", none)
  | .observedForwarding => ("observed_forwarding", none)
  | .kernelNextHop => ("kernel_next_hop", none)
  | .spanningTreeBridge => ("spanning_tree_bridge", none)
  | .managementSurface => ("management_surface", none)

/-- The labels of link-layer capabilities the receiving side knows. -/
def knownLabels : List Text := [("Router" : Text), ("Bridge" : Text), ("Switch" : Text), ("WLAN AP" : Text)]

def roleSignalFromWire (text : Text) (label : Option Text) : Except WireError RoleSignal :=
  if text = ("default_gateway" : Text) then .ok .defaultGateway
  else if text = ("dhcp_router" : Text) then .ok .dhcpRouter
  else if text = ("router_advertisement" : Text) then .ok .routerAdvertisement
  else if text = ("internet_gateway_device" : Text) then .ok .internetGatewayDevice
  else if text = ("snmp_forwarding" : Text) then .ok .snmpForwarding
  else if text = ("rip_route_advertisement" : Text) then .ok .ripRouteAdvertisement
  else if text = ("observed_forwarding" : Text) then .ok .observedForwarding
  else if text = ("kernel_next_hop" : Text) then .ok .kernelNextHop
  else if text = ("spanning_tree_bridge" : Text) then .ok .spanningTreeBridge
  else if text = ("management_surface" : Text) then .ok .managementSurface
  else if text = ("link_layer_capability" : Text) then
    match label with
    | some label =>
      if label ∈ knownLabels then .ok (.linkLayerCapability label)
      else .error (.unknown (("link-layer capability " : Text) ++ debugText lib label))
    | none => .error (.malformed "link-layer capability")
  else .error (.unknown (("role signal " : Text) ++ debugText lib text))

end Names

/-! ## Converting a record -/

namespace WireDevice

def fromKey : DeviceKey → WireDevice
  | .mac text => .mac text
  | .address addr => .address addr.toText
  | .scopedAddress addr zone => .scopedAddress addr.toText zone

def toKey (lib : NetText) : WireDevice → Except WireError DeviceKey
  | .mac text => .ok (.ofMac text)
  | .address text => do return .address (← parseAddress lib text)
  | .scopedAddress text zone => do return .scopedAddress (← parseAddress lib text) zone

end WireDevice

/-- A field that may be missing (`map(f).transpose()?`). -/
def optionally {α β : Type} (f : α → Except WireError β) : Option α → Except WireError (Option β)
  | none => .ok none
  | some a => do return some (← f a)

def WireFact.fromFact : Fact → WireFact
  | .network net => .network net.toText
  | .vlan id => .vlan id
  | .vlanNetwork id net => .vlanNetwork id net.toText
  | .interfaceNetwork interface net => .interfaceNetwork interface net.toText
  | .deviceAddress device address => .deviceAddress (.fromKey device) address.toText
  | .deviceHostname device hostname => .deviceHostname (.fromKey device) hostname
  | .deviceVendor device vendor => .deviceVendor (.fromKey device) vendor
  | .deviceDescription device text => .deviceDescription (.fromKey device) text
  | .deviceRoleSignal device signal =>
    .deviceRoleSignal (.fromKey device) (roleSignalWire signal).1 (roleSignalWire signal).2
  | .deviceCapability device capability detail =>
    .deviceCapability (.fromKey device) (capabilityWire capability) detail
  | .gatewayFor device net => .gatewayFor (.fromKey device) net.toText
  | .routesTo device net nextHop => .routesTo (.fromKey device) net.toText (nextHop.map IpAddr.toText)
  | .attachedTo device net => .attachedTo (.fromKey device) net.toText
  | .bridgeLink bridgeId rootId port => .bridgeLink bridgeId rootId port
  | .observedBehind device via => .observedBehind (.fromKey device) (.fromKey via)
  | .forwardsToward device toward distance previous =>
    .forwardsToward (.fromKey device) toward.toText distance (previous.map .fromKey)
  | .opaqueBoundary device why => .opaqueBoundary (.fromKey device) why
  | .service address port protocol detail => .service address.toText port protocol detail
  | .resolvedAs name address => .resolvedAs name address.toText

/-- Fields are read in the order of the source, so the error is that of the first field that does not read. -/
def WireFact.toFact (lib : NetText) : WireFact → Except WireError Fact
  | .network net => do return .network (← parsePrefix lib net)
  | .vlan id => .ok (.vlan id)
  | .vlanNetwork id net => do return .vlanNetwork id (← parsePrefix lib net)
  | .interfaceNetwork interface net => do return .interfaceNetwork interface (← parsePrefix lib net)
  | .deviceAddress device address => do return .deviceAddress (← device.toKey lib) (← parseAddress lib address)
  | .deviceHostname device hostname => do return .deviceHostname (← device.toKey lib) hostname
  | .deviceVendor device vendor => do return .deviceVendor (← device.toKey lib) vendor
  | .deviceDescription device text => do return .deviceDescription (← device.toKey lib) text
  | .deviceRoleSignal device signal label => do
    return .deviceRoleSignal (← device.toKey lib) (← roleSignalFromWire lib signal label)
  | .deviceCapability device capability detail => do
    return .deviceCapability (← device.toKey lib) (← capabilityFromWire lib capability) detail
  | .gatewayFor device net => do return .gatewayFor (← device.toKey lib) (← parsePrefix lib net)
  | .routesTo device net nextHop => do
    return .routesTo (← device.toKey lib) (← parsePrefix lib net) (← optionally (parseAddress lib) nextHop)
  | .attachedTo device net => do return .attachedTo (← device.toKey lib) (← parsePrefix lib net)
  | .bridgeLink bridgeId rootId port => .ok (.bridgeLink bridgeId rootId port)
  | .observedBehind device via => do return .observedBehind (← device.toKey lib) (← via.toKey lib)
  | .forwardsToward device toward distance previous => do
    return .forwardsToward (← device.toKey lib) (← parseAddress lib toward) distance
      (← optionally (WireDevice.toKey lib) previous)
  | .opaqueBoundary device why => do return .opaqueBoundary (← device.toKey lib) why
  | .service address port protocol detail => do
    return .service (← parseAddress lib address) port (← protocolFromWire lib protocol) detail
  | .resolvedAs name address => do return .resolvedAs name (← parseAddress lib address)

namespace WireEvidence

def fromEvidence (ev : TopologyEvidence) : WireEvidence where
  fact := .fromFact ev.fact
  source := sourceWire ev.source
  confidence := confidenceWire ev.confidence
  vantage := ev.vantage
  observedAt := UInt64.ofNat (ev.observedAt / 10 ^ 9)
  detail := ev.detail

/-- The record, or the first thing in it this build does not understand. -/
def read (lib : NetText) (wire : WireEvidence) : Except WireError TopologyEvidence := do
  let fact ← wire.fact.toFact lib
  let source ← sourceFromWire lib wire.source
  let confidence ← confidenceFromWire lib wire.confidence
  return { fact, source, confidence, vantage := wire.vantage, observedAt := wire.observedAt.toNat * 10 ^ 9,
           detail := wire.detail }

/-- A time that does not fit a signed count of seconds panics when it is added to the epoch, and it is added only once
everything else has been read. -/
def toEvidence (lib : NetText) (wire : WireEvidence) : Outcome WireError TopologyEvidence :=
  match wire.read lib with
  | .error e => .err e
  | .ok ev => if wire.observedAt.toNat < 2 ^ 63 then .ok ev else .panic

end WireEvidence

/-- Marks a record as asserted by a peer. -/
def TopologyEvidence.fromPeer (ev : TopologyEvidence) (origin : PeerOrigin) : TopologyEvidence :=
  { ev with origin := some origin }

end Idnx
