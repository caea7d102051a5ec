import Idnx.Probes.Isis
import Idnx.Probes.LinkLayer
import Idnx.Probes.Ospf
import Idnx.Probes.Ra
import Idnx.Probes.Rip

/-!
# Passively observed frames

One captured Ethernet frame, decoded into whatever facts it carries. `unwrapTags` strips the VLAN tags; what follows
is an LLC payload or one of four EtherTypes (`decodeInner`), and last a VLAN tag is joined to the prefix of a DHCP
acknowledgement where one frame states both (`joinTaggedPrefix`). Most branches are handed the payload behind the
tags; the LLDP and CDP branches are handed the frame.
-/

namespace Idnx

open Outcome

variable {ε : Type}

/-! ## Facts -/

/-- One advertised route: the prefix, the next hop, the metric, the tag and the entry's bytes. -/
abbrev AdvertisedRoute := IpNet × Option IpAddr × UInt32 × UInt16 × Bytes

/-- A prefix that may become current topology, with what stated it. -/
abbrev PromotedPrefix := IpNet × UInt32 × Text

/-- A prefix reported without promotion, with why. -/
abbrev ReportedPrefix := IpNet × Text

/-- A fact recovered from one observed frame. -/
inductive FrameFact where
  | vlan (id : UInt16)
  | bridge (sourceMac bridgeId rootId : Text) (portId : UInt16) (vlan : Option UInt16)
  | arp (mac : Text) (address : Ipv4Addr)
  | dhcp (serverMac : Text) (assigned subnetMask : Option Ipv4Addr) (routers : List Ipv4Addr)
      (classlessRoutes : List (Ipv4Addr × Nat × Ipv4Addr)) (messageType : Option UInt8) (relayed : Bool)
  | vlanNetwork (vlan : UInt16) (network : IpNet)
  | routingUpdate (senderMac : Text) (sender : IpAddr) (protocol : Text) (routes : List AdvertisedRoute)
      (withdrawn : List (IpNet × Bytes))
  | controlPlane (senderMac : Text) (sender : Option IpAddr) (protocol identity scope : Text)
    (hello verifiable : Bool)
      (current : List PromotedPrefix) (reportedOnly : List ReportedPrefix) (sequences : List UInt32)
  | routingRequest (senderMac protocol : Text)
  | routingUpdateRejected (senderMac protocol : Text)
  | routerAdvertisement (routerMac : Text) (routerAddress : Option Ipv6Addr) (prefixes : List (Ipv6Addr × Nat))
      (routes : List (Ipv6Addr × Nat × UInt32))
  | neighbor (mac : Text) (address : Ipv6Addr) (isRouter : Bool)
  | linkLayerNeighbor (neighbor : LldpNeighbor)
  | mndp (neighbor : MndpNeighbor)
  deriving DecidableEq, Repr

/-! ## Spanning tree -/

def stpMulticastMac : Bytes := [0x01, 0x80, 0xC2, 0x00, 0x00, 0x00]

/-- Cisco per-VLAN spanning tree. -/
def pvstMulticastMac : Bytes := [0x01, 0x00, 0x0C, 0xCC, 0xCC, 0xCD]

/-- Formats an 8-byte bridge identifier as priority and hardware address. -/
def formatBridgeId (bytes : Bytes) : Outcome ε Text :=
  if bytes.length < 8 then .ok []
  else do
    let priority ← u16At bytes 0
    let mac ← slice bytes 2 8
    return Text.ofNat priority.toNat ++ '.' :: formatMac mac

/-- Decodes a Configuration BPDU (STP or RSTP). -/
def decodeBpdu (sourceMac : Text) (body : Bytes) : Outcome Unit FrameFact := do
  require (35 ≤ body.length) ()
  let protocolId ← okOr (readU16 body 0) ()
  require (protocolId = 0) ()
  let bpduType ← index body 3
  require (bpduType = 0x00 ∨ bpduType = 0x02) ()
  let root ← slice body 5 13
  let rootId ← formatBridgeId root
  let bridge ← slice body 17 25
  let bridgeId ← formatBridgeId bridge
  let portId ← okOr (readU16 body 25) ()
  return .bridge sourceMac bridgeId rootId portId none

/-- One word of padding before the originating-VLAN TLV, or the TLV. -/
def nextPvstWord (body : Bytes) : Nat × Nat → Outcome ε (Turn (Nat × Nat) (Option UInt16))
  | (0, _) => .ok (.done none)
  | (left + 1, start) =>
    match readU16 body start, readU16 body (start + 2) with
    | some tlvType, some length =>
      if tlvType ≠ 0 then .ok (.done none)
      -- A zero length is padding, not a TLV.
      else if length = 0 then .ok (.next (left, start + 2))
      else if length = 2 then
        match readU16 body (start + 4) with
        | some vlan => .ok (.done (if vlan ≠ 0 ∧ vlan ≠ 0x0FFF then some vlan else none))
        | none => .ok (.done none)
      else .ok (.done none)
    | _, _ => .ok (.done none)

/-- The originating-VLAN TLV that follows the BPDU in a PVST+ frame, behind at most eight words of padding. -/
def pvstOriginatingVlan (body : Bytes) : Outcome ε (Option UInt16) := loop (nextPvstWord body) 10 (9, 35)

/-- Which instance a BPDU belongs to, kept with the BPDU. -/
def setInstance (vlan : Option UInt16) : FrameFact → FrameFact
  | .bridge sourceMac bridgeId rootId portId slot => .bridge sourceMac bridgeId rootId portId (vlan <|> slot)
  | fact => fact

/-- Decodes a Cisco per-VLAN BPDU, and the VLAN it names where it names one. -/
def decodePvst (sourceMac : Text) (payload : Bytes) : Outcome ε (List FrameFact) := do
  if payload.length < 8 then return []
  let oui ← slice payload 3 6
  if oui ≠ [0x00, 0x00, 0x0C] then return []
  match readU16 payload 6 with
  | none => return []
  | some pid =>
    if pid ≠ 0x010B then return []
    let body ← sliceFrom payload 8
    match ← (decodeBpdu sourceMac body).toOption with
    | none => return []
    | some bridge =>
      let vlan ← pvstOriginatingVlan body
      return setInstance vlan bridge :: vlan.toList.map .vlan

/-! ## Routing protocols over the link -/

/-- Splits the prefixes of a PDU into those that may become current topology and those only reported. -/
def splitIsisPrefixes (pdu : Isis.IsisPdu) : List PromotedPrefix × List ReportedPrefix :=
  let described (p : Isis.ReachablePrefix) : Text :=
    p.tlv ++ (", metric " : Text) ++ Text.ofNat p.metric.toNat ++
      match p.topology with
      | some topology => (", topology " : Text) ++ Text.ofNat topology.toNat
      | none => []
  if pdu.unverifiableAuthentication then
    ([], pdu.prefixes.map fun p => (p.net, described p ++ (", authentication could not be verified" : Text)))
  else (pdu.prefixes.map fun p => (p.net, p.metric, described p), [])

/-- The fact of one IS-IS PDU. -/
def isisFact (sourceMac : Text) (pdu : Isis.IsisPdu) : FrameFact :=
  let areas : Text :=
    if pdu.areas = [] then pdu.level else pdu.level ++ (" area " : Text) ++ List.intercalate (", " : Text) pdu.areas
  let (current, reportedOnly) := splitIsisPrefixes pdu
  .controlPlane sourceMac none "IS-IS" pdu.systemId areas pdu.hello (!pdu.unverifiableAuthentication) current
    reportedOnly pdu.sequence.toList

/-- Decodes an 802.3 LLC payload: IS-IS, spanning tree, or SNAP-encapsulated CDP and PVST+. -/
def decodeLlc (frame destination : Bytes) (sourceMac : Text) (payload : Bytes) : Outcome ε (List FrameFact) := do
  if payload.length < 3 then return []
  let dsap ← index payload 0
  let ssap ← index payload 1
  if dsap = 0xFE ∧ ssap = 0xFE then
    let pdu ← sliceFrom payload 3
    match ← (Isis.parse pdu).toOption with
    | some pdu => return [isisFact sourceMac pdu]
    | none => return [.routingUpdateRejected sourceMac "IS-IS"]
  if dsap = 0x42 ∧ ssap = 0x42 ∧ destination = stpMulticastMac then
    let body ← sliceFrom payload 3
    let bridge ← (decodeBpdu sourceMac body).toOption
    return bridge.toList
  if dsap = 0xAA ∧ ssap = 0xAA ∧ destination = cdpMulticastMac then
    -- The parser walks from the Ethernet header, so it is handed the whole frame.
    let neighbor ← (parseLldpFrame frame).toOption
    return neighbor.toList.map .linkLayerNeighbor
  if dsap = 0xAA ∧ ssap = 0xAA ∧ destination = pvstMulticastMac then
    decodePvst sourceMac payload
  else return []

/-! ## IPv4 -/

/-- Decodes an ARP packet's sender binding. -/
def decodeArp (payload : Bytes) : Outcome Unit FrameFact := do
  require (28 ≤ payload.length) ()
  let ptype ← okOr (readU16 payload 2) ()
  let hlen ← index payload 4
  let plen ← index payload 5
  require (ptype = 0x0800 ∧ hlen = 6 ∧ plen = 4) ()
  let sender ← slice payload 8 14
  let address ← ipv4At payload 14
  -- An ARP probe uses 0.0.0.0 as the sender; it binds nothing.
  require (¬ address.isUnspecified) ()
  return .arp (formatMac sender) address

/-- The next RFC 3442 route: a prefix length, the significant octets of the destination, a next hop. -/
def nextClasslessRoute (value : Bytes) : Nat × List (Ipv4Addr × Nat × Ipv4Addr) →
    Outcome ε (Turn (Nat × List (Ipv4Addr × Nat × Ipv4Addr)) (List (Ipv4Addr × Nat × Ipv4Addr)))
  | (i, routes) =>
    if i < value.length then do
      let prefixLen ← index value i
      let prefixLen := prefixLen.toNat
      if 32 < prefixLen then return .done routes
      let significant := significantOctets prefixLen
      let needed := 1 + significant + 4
      if value.length < i + needed then return .done routes
      let octets ← slice value (i + 1) (i + 1 + significant)
      let dest ← ipv4OfSignificant octets
      let nextHop ← ipv4At value (i + 1 + significant)
      return .next (i + needed, routes ++ [(dest, prefixLen, nextHop)])
    else .ok (.done routes)

/-- Decodes RFC 3442 classless static routes. -/
def decodeClasslessRoutes (value : Bytes) : Outcome ε (List (Ipv4Addr × Nat × Ipv4Addr)) :=
  loop (nextClasslessRoute value) (value.length + 1) (0, [])

/-- What the DHCP options read so far say. -/
structure DhcpOptions where
  subnetMask : Option Ipv4Addr := none
  routers : List Ipv4Addr := []
  classlessRoutes : List (Ipv4Addr × Nat × Ipv4Addr) := []
  messageType : Option UInt8 := none

def DhcpOptions.read (o : DhcpOptions) (code : UInt8) (value : Bytes) : Outcome ε DhcpOptions :=
  match code.toNat with
  | 1 =>
    if value.length = 4 then do
      let mask ← ipv4At value 0
      return { o with subnetMask := some mask }
    else .ok o
  | 3 => do
    let routers ← filterMapM (fun chunk => some <$> ipv4At chunk 0) (asChunks 4 value)
    return { o with routers := o.routers ++ routers }
  | 53 =>
    if value.length = 1 then do
      let type ← index value 0
      return { o with messageType := some type }
    else .ok o
  | 121 => do
    let routes ← decodeClasslessRoutes value
    return { o with classlessRoutes := o.classlessRoutes ++ routes }
  | _ => .ok o

/-- The next DHCP option: 255 ends them, and 0 is a byte of padding. -/
def nextDhcpOption (body : Bytes) : Nat × DhcpOptions → Outcome ε (Turn (Nat × DhcpOptions) DhcpOptions)
  | (i, o) =>
    if i < body.length then do
      let code ← index body i
      if code = 255 then return .done o
      if code = 0 then return .next (i + 1, o)
      if body.length ≤ i + 1 then return .done o
      let len ← index body (i + 1)
      let valueStart := i + 2
      let len := len.toNat
      if body.length < valueStart + len then return .done o
      let value ← slice body valueStart (valueStart + len)
      let o ← o.read code value
      return .next (valueStart + len, o)
    else .ok (.done o)

/-- Decodes a DHCPv4 message body: a server's reply over Ethernet, and only that. -/
def decodeDhcp (serverMac : Text) (body : Bytes) : Outcome Unit FrameFact := do
  require (240 ≤ body.length) ()
  let op ← index body 0
  require (op = 2) ()
  let htype ← index body 1
  let hlen ← index body 2
  require (htype = 1 ∧ hlen = 6) ()
  let cookie ← slice body 236 240
  require (cookie = [0x63, 0x82, 0x53, 0x63]) ()
  let yiaddr ← ipv4At body 16
  let o ← loop (nextDhcpOption body) (body.length + 1) (240, {})
  require (¬ (o.subnetMask = none ∧ o.routers = [] ∧ o.classlessRoutes = [])) ()
  let giaddr ← ipv4At body 24
  return .dhcp serverMac (if yiaddr.isUnspecified then none else some yiaddr) o.subnetMask o.routers o.classlessRoutes
    o.messageType (!giaddr.isUnspecified)

/-- Decodes a RIPv2 response heard on UDP 520. A withdrawn prefix is kept apart from the routes. -/
def decodeRipV2 (sourceMac : Text) (sender : Ipv4Addr) (body : Bytes) : Outcome Unit FrameFact := do
  let entries ← parseResponse body
  require (entries ≠ []) ()
  let reachable := entries.filter (·.isReachable)
  let withdrawn := entries.filter (! ·.isReachable)
  return .routingUpdate sourceMac (.v4 sender) "RIPv2"
    (reachable.map fun e => (e.net, e.nextHop, e.metric, e.tag, e.rawEntry))
      (withdrawn.map fun e => (e.net, e.rawEntry))

/-- Sorts a datagram on UDP 520 into request, update or malformed. -/
def classifyRip (sourceMac : Text) (sender : Ipv4Addr) (body : Bytes) : Outcome ε FrameFact :=
  if body.head? = some 1 ∧ 4 ≤ body.length ∧ body[1]? = some 2 then .ok (.routingRequest sourceMac "RIPv2")
  else if body.head? = some 2 then do
    let update ← (decodeRipV2 sourceMac sender body).toOption
    return update.getD (.routingUpdateRejected sourceMac "RIPv2")
  else .ok (.routingUpdateRejected sourceMac "RIPv2")

/-- Builds the control-plane fact for one OSPF packet: a prefix is current only when its advertisement is and the
packet's own authentication could be verified. -/
def controlPlaneFact (sourceMac : Text) (sender : Option IpAddr) (packet : Ospf.OspfPacket) : FrameFact :=
  let verifiable := packet.authentication.routesAreVerifiable
  let described (p : Ospf.AdvertisedPrefix) : Text :=
    p.lsaType ++ (" LSA, metric " : Text) ++ Text.ofNat p.metric.toNat
  let current := packet.prefixes.filter fun p => verifiable && !p.withdrawn
  let reported := packet.prefixes.filter fun p => !(verifiable && !p.withdrawn)
  .controlPlane sourceMac sender packet.protocol packet.routerId.toText (("area " : Text) ++ packet.area.toText)
    packet.hello verifiable (current.map fun p => (p.net, p.metric, described p))
    (reported.map fun p =>
      (p.net, described p ++
        if p.withdrawn then (", at MaxAge (withdrawn)" : Text)
        else (", " : Text) ++ packet.authentication.label ++ (" authentication could not be verified" : Text)))
    packet.sequences

/-- The fact of an OSPF packet, or that it did not survive validation. -/
def ospfFact (sourceMac : Text) (sender : IpAddr) (protocol : Text) (packet : Outcome Unit Ospf.OspfPacket) :
    Outcome ε FrameFact := do
  match ← packet.toOption with
  | some packet => return controlPlaneFact sourceMac (some sender) packet
  | none => return .routingUpdateRejected sourceMac protocol

def decodeIpv4 (sourceMac : Text) (payload : Bytes) : Outcome ε (List FrameFact) := do
  if payload.length < 20 then return []
  let first ← index payload 0
  let ihl := (first &&& 0x0F).toNat * 4
  if ihl < 20 ∨ payload.length < ihl + 8 then return []
  let protocol ← index payload 9
  let source ← ipv4At payload 12
  let udp ← sliceFrom payload ihl
  -- OSPFv2 rides IP protocol 89 directly rather than UDP.
  if protocol = 89 then
    let fact ← ospfFact sourceMac (.v4 source) "OSPFv2" (Ospf.parseV2 udp)
    return [fact]
  if protocol ≠ 17 then return []
  match readU16 udp 0, readU16 udp 2 with
  | some srcPort, some dstPort =>
    if udp.length < 8 then return []
    let body ← sliceFrom udp 8
    if (srcPort = 67 ∧ dstPort = 68) ∨ (srcPort = 68 ∧ dstPort = 67) ∨ (srcPort = 67 ∧ dstPort = 67) then
      let fact ← (decodeDhcp sourceMac body).toOption
      return fact.toList
    if srcPort = 520 ∨ dstPort = 520 then
      let fact ← classifyRip sourceMac source body
      return [fact]
    if srcPort = 5678 ∨ dstPort = 5678 then
      let neighbor ← (parseMndpPacket body).toOption
      return neighbor.toList.map .mndp
    else return []
  | _, _ => return []

/-! ## IPv6 -/

/-- What a RIPng response says so far: the next hop for the entries to come, the routes and the withdrawals. -/
abbrev RipngState := Option IpAddr × List AdvertisedRoute × List (IpNet × Bytes)

/-- One RIPng entry. A metric of 255 is a next-hop entry, and one of 16 withdraws the prefix. -/
def ripngEntry (s : RipngState) (entry : Bytes) : Outcome ε RipngState := do
  let (nextHop, routes, withdrawn) := s
  let address ← ipv6At entry 0
  let tag ← u16At entry 16
  let prefixLen ← index entry 18
  let metric ← index entry 19
  if metric = 0xff then
    if tag = 0 ∧ prefixLen = 0 then
      return (if address.isUnspecified then none else some (.v6 address), routes, withdrawn)
    else return s
  if 128 < prefixLen ∨ metric = 0 ∨ 16 < metric then return s
  match Ipv6Net.new address prefixLen.toNat with
  | none => return s
  | some net =>
    let net := net.trunc.toNet
    if metric = 16 then return (nextHop, routes, withdrawn ++ [(net, entry)])
    else return (nextHop, routes ++ [(net, nextHop, metric.toUInt32, tag, entry)], withdrawn)

def ripngEntries : List Bytes → RipngState → Outcome ε RipngState
  | [], s => .ok s
  | entry :: rest, s => do
    let s ← ripngEntry s entry
    ripngEntries rest s

/-- Decodes a RIPng response heard on UDP 521 (RFC 2080). -/
def decodeRipng (sourceMac : Text) (sender : Ipv6Addr) (body : Bytes) : Outcome Unit FrameFact := do
  require (4 ≤ body.length) ()
  let command ← index body 0
  let version ← index body 1
  require (command = 2 ∧ version = 1) ()
  let reserved ← u16At body 2
  require (reserved = 0) ()
  let entries ← sliceFrom body 4
  require (entries ≠ [] ∧ entries.length % 20 = 0) ()
  let (_, routes, withdrawn) ← ripngEntries (asChunks 20 entries) (none, [], [])
  require (¬ (routes = [] ∧ withdrawn = [])) ()
  return .routingUpdate sourceMac (.v6 sender) "RIPng" routes withdrawn

/-- The neighbour and router discovery messages. -/
def decodeIcmpv6 (sourceMac : Text) (payload : Bytes) (sourceAddress : Ipv6Addr) : Outcome ε (List FrameFact) := do
  let icmp ← sliceFrom payload 40
  if icmp.length < 4 then return []
  let type ← index icmp 0
  if type = 134 then
    let destination ← ipv6At payload 24
    let hopLimit ← index payload 7
    -- An advertisement that fails validation is router behaviour, and discloses no prefix.
    let parsed ← (Ra.parseAdvertisement icmp sourceAddress destination hopLimit).toOption
    let prefixes := parsed.toList.flatMap fun a => a.onLinkPrefixes.map fun p => (p.net.addr, p.net.prefixLen.val)
    let routes := parsed.toList.flatMap fun a =>
      a.usableRoutes.map fun r => (r.net.addr, r.net.prefixLen.val, r.lifetime)
    return [.routerAdvertisement sourceMac (some sourceAddress) prefixes routes]
  if type = 135 then
    -- The target of a solicitation is who the sender looks for; its own address is the source.
    return if sourceAddress.isUnspecified then [] else [.neighbor sourceMac sourceAddress false]
  if type = 136 then
    if icmp.length < 24 then return []
    let target ← ipv6At icmp 8
    let flags ← index icmp 4
    return [.neighbor sourceMac target (flags &&& 0x80 ≠ 0)]
  else return []

/-- What is neither RIPng nor OSPFv3 in an IPv6 packet: only ICMPv6 is decoded. -/
def decodeIpv6Rest (sourceMac : Text) (payload : Bytes) (sourceAddress : Ipv6Addr) (nextHeader : UInt8) :
    Outcome ε (List FrameFact) :=
  if nextHeader = 89 ∧ 40 < payload.length then do
    let packet ← sliceFrom payload 40
    let fact ← ospfFact sourceMac (.v6 sourceAddress) "OSPFv3" (Ospf.parseV3 packet)
    return [fact]
  else if nextHeader ≠ 58 then .ok []
  else decodeIcmpv6 sourceMac payload sourceAddress

def decodeIpv6 (sourceMac : Text) (payload : Bytes) : Outcome ε (List FrameFact) := do
  if payload.length < 40 then return []
  let sourceAddress ← ipv6At payload 8
  let nextHeader ← index payload 6
  if nextHeader = 17 ∧ 48 ≤ payload.length then
    let udp ← sliceFrom payload 40
    match readU16 udp 0, readU16 udp 2 with
    | some srcPort, some dstPort =>
      if srcPort = 521 ∨ dstPort = 521 then
        let body ← sliceFrom udp 8
        let fact ← (decodeRipng sourceMac sourceAddress body).toOption
        return [fact.getD (.routingUpdateRejected sourceMac "RIPng")]
      else decodeIpv6Rest sourceMac payload sourceAddress nextHeader
    | _, _ => return []
  else decodeIpv6Rest sourceMac payload sourceAddress nextHeader

/-! ## Frames -/

/-- 802.1Q, 802.1ad, and the older QinQ tags. -/
def isTagType (ethertype : UInt16) : Bool := ethertype == 0x8100 || ethertype == 0x88A8 || ethertype == 0x9100

/-- The VLAN a tag control information names; 0 and 4095 are reserved and name none. -/
def taggedVlan (tci : UInt16) : Option UInt16 :=
  let vlanId := tci &&& 0x0FFF
  if vlanId ≠ 0 ∧ vlanId ≠ 0x0FFF then some vlanId else none

/-- The next tag of a frame. Behind the tags: the VLANs they name, and the EtherType and where it stands, unless the
frame ends in its tags. -/
def nextTag (frame : Bytes) : Nat × List FrameFact →
    Outcome ε (Turn (Nat × List FrameFact) (List FrameFact × Option (UInt16 × Nat)))
  | (offset, facts) =>
    match readU16 frame offset with
    | none => .ok (.done (facts, none))
    | some ethertype =>
      if isTagType ethertype then
        match readU16 frame (offset + 2) with
        | none => .ok (.done (facts, none))
        | some tci => .ok (.next (offset + 4, facts ++ (taggedVlan tci).toList.map .vlan))
      else .ok (.done (facts, some (ethertype, offset)))

/-- Unwraps any number of 802.1Q and QinQ tags, recording each VLAN ID seen. -/
def unwrapTags (frame : Bytes) : Outcome ε (List FrameFact × Option (UInt16 × Nat)) :=
  loop (nextTag frame) (frame.length + 1) (12, [])

/-- What the frame carries behind its tags. -/
def decodeInner (frame : Bytes) (sourceMac : Text) (ethertype : UInt16) (payload : Bytes) :
    Outcome ε (List FrameFact) :=
  match ethertype.toNat with
  | 0x0806 => do
    let fact ← (decodeArp payload).toOption
    return fact.toList
  | 0x0800 => decodeIpv4 sourceMac payload
  | 0x86DD => decodeIpv6 sourceMac payload
  | 0x88CC => do
    let neighbor ← (parseLldpFrame frame).toOption
    return neighbor.toList.map .linkLayerNeighbor
  | _ => .ok []

/-- The VLANs among the facts. -/
def vlanIds (facts : List FrameFact) : List UInt16 :=
  facts.filterMap fun
    | .vlan id => some id
    | _ => none

/-- The prefix of a completed assignment: an acknowledgement, not relayed, with an address and a contiguous mask. -/
def assignedPrefix : FrameFact → Option IpNet
  | .dhcp _ (some address) (some mask) _ _ (some messageType) false =>
    if messageType = 5 then maskedNet address mask else none
  | _ => none

/-- Joins a VLAN tag to a prefix, but only where one frame stated both, and exactly one VLAN. -/
def joinTaggedPrefix (facts : List FrameFact) : List FrameFact :=
  match vlanIds facts with
  | [vlan] => facts ++ (facts.filterMap assignedPrefix).map (.vlanNetwork vlan)
  | _ => facts

/-- Largest 802.3 length value; anything above is an EtherType. -/
def max8023Length : UInt16 := 1500

/-- Decodes one Ethernet frame into whatever facts it carries. A frame that cannot be parsed yields none. -/
def decodeFrame (frame : Bytes) : Outcome ε (List FrameFact) := do
  if frame.length < 14 then return []
  let destination ← slice frame 0 6
  let source ← slice frame 6 12
  let (facts, inner) ← unwrapTags frame
  match inner with
  | none => return facts
  | some (ethertype, offset) =>
    let payloadStart := offset + 2
    if frame.length < payloadStart then return facts
    let payload ← sliceFrom frame payloadStart
    -- An 802.3 frame carries a length here, not a type, and an LLC header follows.
    if ethertype ≤ max8023Length then
      let more ← decodeLlc frame destination (formatMac source) payload
      return facts ++ more
    let more ← decodeInner frame (formatMac source) ethertype payload
    return joinTaggedPrefix (facts ++ more)

end Idnx
