import Idnx.Lib.Dedup
import Idnx.Probes.Passive
import Idnx.Topology.Graph

/-!
# Evidence of passively observed frames

`convert` turns decoded frame facts into graded evidence, one arm for each kind of fact (`convertFact`). Seeing a
frame is observed evidence that the sender exists and behaved that way; what it asserts is advertised. Frames repeat,
and a fact that was already converted is not converted again.
-/

namespace Idnx

/-- Entry bytes in hexadecimal, apart. -/
def spacedHex (bytes : Bytes) : Text := List.intercalate [' '] (bytes.map hexByte)

/-- `{n:#x}`. -/
def prefixedHex (n : Nat) : Text := '0' :: 'x' :: Text.hexOfNat n

/-- `{n:#06x}`: four digits at least. -/
def prefixedHex4 (n : UInt16) : Text := '0' :: 'x' :: encodeHex (beBytes 2 n.toNat)

/-- Whether an address belongs to the scope that is examined. -/
def inScope (scope : Option IpNet) (address : IpAddr) : Bool :=
  match scope with
  | some net => net.contains address
  | none => true

section Convert

variable (interface : Text) (now : Nat)

/-- A record of this capture. -/
def seen (source : EvidenceSource) (confidence : Confidence) (fact : Fact) (detail : Option Text := none) :
    TopologyEvidence :=
  { fact, source, confidence, vantage := interface, observedAt := now, detail }

/-! ## Link-layer neighbours -/

/-- The role signal a capability argues for, if any. -/
def neighborSignal (cap : Text) : Option RoleSignal :=
  if cap.contains "Router" then some (.linkLayerCapability "Router")
  else if cap.contains "Bridge" || cap.contains "Switch" then some (.linkLayerCapability "Bridge/Switch")
  else none

/-- What a neighbour is evidence of (`convert`, the arm of `FrameFact::LinkLayerNeighbor`), seen at `now`. -/
def convertNeighbor (interface : Text) (now : Nat) (n : LldpNeighbor) : List TopologyEvidence :=
  let device := DeviceKey.ofMac n.chassisId
  let stated (fact : Fact) (detail : Option Text) : TopologyEvidence :=
    { fact, source := .lldp, confidence := .advertised, vantage := interface, observedAt := now, detail }
  (n.systemName.toList.map fun name => stated (.deviceHostname device name) none) ++
    (n.systemDescription.toList.map fun desc => stated (.deviceDescription device desc) none) ++
    ((n.capabilities.filterMap neighborSignal).map fun signal =>
      stated (.deviceRoleSignal device signal) (some (("port " : Text) ++ n.portId))) ++
    n.managementIp.toList.map fun mgmt => stated (.deviceAddress device (.v4 mgmt)) none

/-- MikroTik beacons. -/
def convertMndp (n : MndpNeighbor) : List TopologyEvidence :=
  let device := DeviceKey.ofMac n.macAddress
  seen interface now .mndp .advertised (.deviceHostname device n.identity) ::
    (n.ipv4Address.toList.map fun addr => seen interface now .mndp .advertised (.deviceAddress device (.v4 addr))) ++
    [seen interface now .mndp .advertised (.deviceRoleSignal device (.linkLayerCapability "Router"))
      (some "announced itself via MikroTik MNDP")]

/-! ## Spanning tree -/

/-- The bridge's own identifier names the device; the Ethernet source is only the port the frame left through. -/
def convertBridge (sourceMac bridgeId rootId : Text) (portId : UInt16) (vlan : Option UInt16) :
    List TopologyEvidence :=
  let device := (bridgeIdentity bridgeId).getD (.ofMac sourceMac)
  let port := prefixedHex4 portId
  let inst : Text :=
    match vlan with
    | some id => (", VLAN instance " : Text) ++ Text.ofNat id.toNat
    | none => []
  [seen interface now .stp .observed (.deviceRoleSignal device .spanningTreeBridge)
      (some (("BPDU from bridge " : Text) ++ bridgeId ++ (" via port " : Text) ++ port ++ (" (source " : Text) ++
        sourceMac ++ (")" : Text) ++ inst)),
    seen interface now .stp .advertised (.bridgeLink bridgeId rootId (some port))
      (some (("bridge " : Text) ++ bridgeId ++ (" names spanning-tree root " : Text) ++ rootId ++ inst))]

/-! ## DHCP -/

/-- Option 1 with an assigned address is the only DHCP evidence that establishes a prefix, and only a contiguous mask
of one bit at least is one. -/
def leasedNetwork (assigned subnetMask : Option Ipv4Addr) : Option IpNet := do
  let addr ← assigned
  let mask ← subnetMask
  let len ← contiguousPrefixLen mask
  if 1 ≤ len ∧ len ≤ 32 then
    let net ← Ipv4Net.new addr len
    return net.trunc.toNet
  else none

def convertDhcp (serverMac : Text) (assigned subnetMask : Option Ipv4Addr) (routers : List Ipv4Addr)
    (classlessRoutes : List (Ipv4Addr × Nat × Ipv4Addr)) : List TopologyEvidence :=
  ((leasedNetwork assigned subnetMask).toList.map fun net =>
      seen interface now .dhcpLease .advertised (.network net) (some "DHCP option 1 subnet mask")) ++
    (routers.flatMap fun router =>
      [seen interface now .dhcpLease .advertised (.deviceAddress (.address (.v4 router)) (.v4 router)),
        seen interface now .dhcpLease .advertised (.deviceRoleSignal (.address (.v4 router)) .dhcpRouter)
          (some "named as router in DHCP option 3")]) ++
    (classlessRoutes.flatMap fun (dest, len, nextHop) =>
      match Ipv4Net.new dest len with
      | none => []
      | some net =>
        [seen interface now .dhcpLease .advertised (.network net.trunc.toNet)
            (some "DHCP option 121 classless static route"),
          seen interface now .dhcpLease .advertised
            (.routesTo (.address (.v4 nextHop)) net.trunc.toNet (some (.v4 nextHop)))]) ++
    [seen interface now .dhcpLease .observed (.deviceRoleSignal (.ofMac serverMac) .dhcpRouter)]

/-! ## Routing protocols -/

/-- A routing control-plane packet. Speaking a routing protocol is observed router behaviour; what is withdrawn or
cannot be verified is recorded against the router and never becomes a network. -/
def convertControlPlane (senderMac : Text) (sender : Option IpAddr) (protocol identity scope : Text) (hello : Bool)
    (current : List PromotedPrefix) (reportedOnly : List ReportedPrefix) (sequences : List UInt32) :
    List TopologyEvidence :=
  let device := DeviceKey.ofMac senderMac
  let kind : Text := if hello then "hello" else "advertisement"
  let sequence : Text :=
    match sequences.head? with
    | some sequence => (", sequence " : Text) ++ prefixedHex sequence.toNat
    | none => []
  (sender.toList.map fun address => seen interface now .rip .observed (.deviceAddress device address)) ++
    [seen interface now .rip .observed (.deviceRoleSignal device .ripRouteAdvertisement)
        (some (protocol ++ ' ' :: kind ++ (" from " : Text) ++ identity ++ (", " : Text) ++ scope)),
      seen interface now .rip .observed
        (.deviceDescription device (protocol ++ ' ' :: identity ++ (", " : Text) ++ scope ++ sequence))] ++
    (current.flatMap fun (net, metric, described) =>
      [seen interface now .rip .advertised (.network net) (some (protocol ++ ' ' :: described)),
        seen interface now .rip .advertised (.routesTo device net sender)
          (some (protocol ++ ' ' :: described ++ (", metric " : Text) ++ Text.ofNat metric.toNat))]) ++
    reportedOnly.map fun (net, why) =>
      seen interface now .rip .observed
        (.deviceDescription device (protocol ++ (" reported " : Text) ++ net.toText ++ (": " : Text) ++ why))

/-- A routing update. A next hop of zero means the sender; a withdrawal creates nothing. -/
def convertRoutingUpdate (senderMac : Text) (sender : IpAddr) (protocol : Text) (routes : List AdvertisedRoute)
    (withdrawn : List (IpNet × Bytes)) : List TopologyEvidence :=
  let device := DeviceKey.ofMac senderMac
  [seen interface now .rip .observed (.deviceAddress device sender),
    seen interface now .rip .observed (.deviceRoleSignal device .ripRouteAdvertisement)
      (some (("advertised a " : Text) ++ protocol ++ (" table on this link" : Text)))] ++
    (routes.flatMap fun (net, nextHop, metric, tag, raw) =>
      [seen interface now .rip .advertised (.network net) (some (protocol ++ (" entry " : Text) ++ spacedHex raw)),
        seen interface now .rip .advertised (.routesTo device net (nextHop <|> some sender))
          (some (protocol ++ (" metric " : Text) ++ Text.ofNat metric.toNat ++ (", tag " : Text) ++
            Text.ofNat tag.toNat ++ (", entry " : Text) ++ spacedHex raw))]) ++
    withdrawn.map fun (net, raw) =>
      seen interface now .rip .observed
        (.deviceDescription device (("withdrew " : Text) ++ net.toText ++ (" in a " : Text) ++ protocol ++
          (" update (metric 16), entry " : Text) ++ spacedHex raw))

/-- A router advertisement: transmitting it is observed, its prefixes and routes are the router's claims. -/
def convertRouterAdvertisement (routerMac : Text) (routerAddress : Option Ipv6Addr) (prefixes : List (Ipv6Addr × Nat))
    (routes : List (Ipv6Addr × Nat × UInt32)) : List TopologyEvidence :=
  let device := DeviceKey.ofMac routerMac
  let source := EvidenceSource.routerAdvertisement
  seen interface now source .observed (.deviceRoleSignal device .routerAdvertisement)
      (some "transmitted an IPv6 router advertisement") ::
    (routerAddress.toList.map fun addr => seen interface now source .observed (.deviceAddress device (.v6 addr))) ++
    (prefixes.flatMap fun (net, len) =>
      match Ipv6Net.new net len with
      | none => []
      | some net =>
        [seen interface now source .advertised (.network net.trunc.toNet) (some "RA Prefix Information Option"),
          seen interface now source .advertised (.gatewayFor device net.trunc.toNet)]) ++
    routes.flatMap fun (net, len, lifetime) =>
      match Ipv6Net.new net len with
      | none => []
      | some net =>
        [seen interface now source .advertised (.network net.trunc.toNet) (some "RA Route Information Option"),
          seen interface now source .advertised (.routesTo device net.trunc.toNet (routerAddress.map .v6))
            (some (("route information option, " : Text) ++ Text.ofNat lifetime.toNat ++ ("s" : Text)))]

/-! ## All facts -/

/-- The evidence of one fact. -/
def convertFact (scope : Option IpNet) : FrameFact → List TopologyEvidence
  | .vlanNetwork vlan network =>
    [seen interface now .dhcpLease .observed (.vlanNetwork vlan network)
      (some "client-facing DHCP ACK, tagged, with option 1")]
  | .vlan id => [seen interface now .stp .observed (.vlan id)]
  | .bridge sourceMac bridgeId rootId portId vlan => convertBridge interface now sourceMac bridgeId rootId portId vlan
  | .arp mac address =>
    if inScope scope (.v4 address) then
      [seen interface now .arpCache .observed (.deviceAddress (.ofMac mac) (.v4 address))]
    else []
  | .dhcp serverMac assigned subnetMask routers classlessRoutes _ _ =>
    convertDhcp interface now serverMac assigned subnetMask routers classlessRoutes
  | .routingUpdateRejected _ _ => []
  | .routingRequest _ _ => []
  | .controlPlane senderMac sender protocol identity scope hello _ current reportedOnly sequences =>
    convertControlPlane interface now senderMac sender protocol identity scope hello current reportedOnly sequences
  | .routingUpdate senderMac sender protocol routes withdrawn =>
    convertRoutingUpdate interface now senderMac sender protocol routes withdrawn
  | .routerAdvertisement routerMac routerAddress prefixes routes =>
    convertRouterAdvertisement interface now routerMac routerAddress prefixes routes
  | .neighbor mac address isRouter =>
    seen interface now .ndpCache .observed (.deviceAddress (.ofMac mac) (.v6 address)) ::
      if isRouter then
        [seen interface now .ndpCache .observed (.deviceRoleSignal (.ofMac mac) .routerAdvertisement)
          (some "router flag set in a neighbour advertisement")]
      else []
  | .linkLayerNeighbor n => convertNeighbor interface now n
  | .mndp n => convertMndp interface now n

/-- Converts decoded frame facts into graded evidence. -/
def convert (facts : List FrameFact) (scope : Option IpNet) : List TopologyEvidence :=
  (keepFirst id facts []).flatMap (convertFact interface now scope)

/-- Converts frame facts with no scope filter. -/
def convertUnscoped (facts : List FrameFact) : List TopologyEvidence := convert interface now facts none

end Convert

/-- What repeats adds nothing, and nothing else is dropped. -/
theorem mem_convert {interface : Text} {now : Nat} {facts : List FrameFact} {scope : Option IpNet}
    {ev : TopologyEvidence} :
    ev ∈ convert interface now facts scope ↔ ∃ fact ∈ facts, ev ∈ convertFact interface now scope fact := by
  simp only [convert, List.mem_flatMap, mem_keepFirst_id]

end Idnx
