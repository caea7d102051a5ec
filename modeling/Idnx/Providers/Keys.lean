import Idnx.Providers.Passive
import Idnx.Topology.Commands

/-!
# The identities of captured frames

Most frame facts name their sender by the hardware address of the frame, printed by `formatMac`. The link-layer
protocols are different: the chassis identifier of LLDP and the device identifier of CDP are whatever text the sender
announces.

* `printed_decodeFrame`: every hardware address a frame is decoded to was printed from octets;
* `keys_of_convertFact`: the identities in the evidence of a fact are addresses, hardware addresses of the fact, and
  bridges.
-/

namespace Idnx

open Outcome

/-- The hardware address a fact names its sender by. -/
def FrameFact.hardware : FrameFact → Option Text
  | .bridge sourceMac _ _ _ _ => some sourceMac
  | .arp mac _ => some mac
  | .dhcp serverMac _ _ _ _ _ _ => some serverMac
  | .routingUpdate senderMac _ _ _ _ => some senderMac
  | .controlPlane senderMac _ _ _ _ _ _ _ _ _ => some senderMac
  | .routerAdvertisement routerMac _ _ _ => some routerMac
  | .neighbor mac _ _ => some mac
  | .mndp n => some n.macAddress
  | _ => none

/-- The hardware address was printed from octets. -/
def FrameFact.Printed (fact : FrameFact) : Prop := ∀ text ∈ fact.hardware, ∃ octets, text = formatMac octets

/-- A list of facts all of whose hardware addresses were printed. -/
def AllPrinted (facts : List FrameFact) : Prop := ∀ fact ∈ facts, fact.Printed

section Decoders

variable {ε : Type} {octets : Bytes}

theorem printed_of_hardware {fact : FrameFact} (h : ∀ text ∈ fact.hardware, text = formatMac octets) : fact.Printed :=
  fun text ht => ⟨octets, h text ht⟩

theorem printed_of_none {fact : FrameFact} (h : fact.hardware = none) : fact.Printed := by
  intro text ht
  rw [h] at ht
  cases ht

theorem allPrinted_nil : AllPrinted [] := nofun

theorem allPrinted_singleton {fact : FrameFact} (h : fact.Printed) : AllPrinted [fact] := by
  intro f hf
  rw [List.mem_singleton.mp hf]
  exact h

theorem allPrinted_toList {found : Option FrameFact} (h : ∀ fact ∈ found, fact.Printed) : AllPrinted found.toList :=
  fun fact hf => h fact (Option.mem_toList.mp hf)

theorem AllPrinted.append {xs ys : List FrameFact} (hx : AllPrinted xs) (hy : AllPrinted ys) :
    AllPrinted (xs ++ ys) := by
  intro fact hf
  rcases List.mem_append.mp hf with hf | hf
  · exact hx fact hf
  · exact hy fact hf

/-! ## Spanning tree and the link layer -/

theorem printed_decodeBpdu (body : Bytes) : Gives FrameFact.Printed (decodeBpdu (formatMac octets) body) := by
  unfold decodeBpdu
  iterate 10 refine gives_bind fun _ => ?_
  exact gives_ok (printed_of_hardware fun text ht => (Option.some.inj ht).symm)

theorem printed_setInstance {fact : FrameFact} (vlan : Option UInt16) (h : fact.Printed) :
    (setInstance vlan fact).Printed := by
  cases fact <;> exact h

theorem printed_decodePvst (payload : Bytes) :
    Gives AllPrinted (decodePvst (formatMac octets) payload : Outcome ε _) := by
  unfold decodePvst
  split
  · exact gives_ok allPrinted_nil
  refine gives_bind fun oui => ?_
  split
  · exact gives_ok allPrinted_nil
  split
  · exact gives_ok allPrinted_nil
  split
  · exact gives_ok allPrinted_nil
  refine gives_bind fun body => (printed_decodeBpdu body).toOption.bind fun found hfound => ?_
  cases found with
  | none => exact gives_ok allPrinted_nil
  | some bridge =>
    refine gives_bind fun vlan => gives_ok fun fact hf => ?_
    rcases List.mem_cons.mp hf with rfl | hf
    · exact printed_setInstance vlan (hfound bridge rfl)
    · obtain ⟨id, -, rfl⟩ := List.mem_map.mp hf
      exact printed_of_none rfl

theorem printed_neighbors (found : Option LldpNeighbor) : AllPrinted (found.toList.map .linkLayerNeighbor) := by
  intro fact hf
  obtain ⟨n, -, rfl⟩ := List.mem_map.mp hf
  exact printed_of_none rfl

theorem printed_decodeLlc (frame destination payload : Bytes) :
    Gives AllPrinted (decodeLlc frame destination (formatMac octets) payload : Outcome ε _) := by
  unfold decodeLlc
  split
  · exact gives_ok allPrinted_nil
  refine gives_bind fun dsap => gives_bind fun ssap => ?_
  split
  · refine gives_bind fun pdu => gives_bind fun parsed => ?_
    split
    · exact gives_ok (allPrinted_singleton (printed_of_hardware fun text ht => (Option.some.inj ht).symm))
    · exact gives_ok (allPrinted_singleton (printed_of_none rfl))
  split
  · refine gives_bind fun body => (printed_decodeBpdu body).toOption.bind fun found hfound => ?_
    exact gives_ok (allPrinted_toList hfound)
  split
  · exact gives_bind fun found => gives_ok (printed_neighbors found)
  split
  · exact printed_decodePvst payload
  · exact gives_ok allPrinted_nil

/-! ## IPv4 -/

theorem printed_decodeArp (payload : Bytes) : Gives FrameFact.Printed (decodeArp payload) := by
  unfold decodeArp
  iterate 5 refine gives_bind fun _ => ?_
  refine gives_bind fun sender => gives_bind fun _ => gives_bind fun _ => ?_
  exact gives_ok fun text ht => ⟨sender, (Option.some.inj ht).symm⟩

theorem printed_decodeDhcp (body : Bytes) : Gives FrameFact.Printed (decodeDhcp (formatMac octets) body) := by
  unfold decodeDhcp
  iterate 12 refine gives_bind fun _ => ?_
  exact gives_ok (printed_of_hardware fun text ht => (Option.some.inj ht).symm)

theorem printed_classifyRip (sender : Ipv4Addr) (body : Bytes) :
    Gives FrameFact.Printed (classifyRip (formatMac octets) sender body : Outcome ε _) := by
  have hupdate : Gives FrameFact.Printed (decodeRipV2 (formatMac octets) sender body) := by
    unfold decodeRipV2
    refine gives_bind fun entries => gives_bind fun _ => ?_
    exact gives_ok (printed_of_hardware fun text ht => (Option.some.inj ht).symm)
  unfold classifyRip
  split
  · exact gives_ok (printed_of_none rfl)
  split
  · refine hupdate.toOption.bind fun found hfound => gives_ok ?_
    cases found with
    | none => exact printed_of_none rfl
    | some fact => exact hfound fact rfl
  · exact gives_ok (printed_of_none rfl)

theorem printed_ospfFact (sender : IpAddr) (protocol : Text) (packet : Outcome Unit Ospf.OspfPacket) :
    Gives FrameFact.Printed (ospfFact (formatMac octets) sender protocol packet : Outcome ε _) := by
  unfold ospfFact
  refine gives_bind fun found => ?_
  cases found with
  | none => exact gives_ok (printed_of_none rfl)
  | some packet => exact gives_ok (printed_of_hardware fun text ht => (Option.some.inj ht).symm)

/-- The hardware address of an MNDP beacon is printed too. -/
theorem printed_parseMndpPacket (payload : Bytes) :
    Gives (fun n => ∃ octets, n.macAddress = formatMac octets) (parseMndpPacket payload) := by
  have hread : ∀ (t : MndpTlvs) (tlvType : UInt16) (value : Bytes),
      (∀ mac ∈ t.macAddress, ∃ octets, mac = formatMac octets) →
      Gives (fun t : MndpTlvs => ∀ mac ∈ t.macAddress, ∃ octets, mac = formatMac octets)
        (t.read tlvType value : Outcome Unit _) := by
    intro t tlvType value ht
    unfold MndpTlvs.read
    split
    · split_ifs
      · exact gives_ok fun mac hmac => ⟨value, (Option.some.inj hmac).symm⟩
      · exact gives_ok ht
    · exact gives_ok ht
    · exact gives_ok ht
    · exact gives_ok ht
    · exact gives_ok ht
    · split
      · exact gives_bind fun address => gives_ok ht
      · exact gives_ok ht
    · exact gives_ok ht
  unfold parseMndpPacket
  refine gives_bind fun _ => Gives.bind (P := fun t : MndpTlvs => ∀ mac ∈ t.macAddress, ∃ octets,
    mac = formatMac octets)
    (gives_loop (fun s => ∀ mac ∈ s.2.macAddress, ∃ octets, mac = formatMac octets) (fun s hs => ?_) nofun)
    fun t ht => ?_
  · obtain ⟨offset, t⟩ := s
    rw [mndpTlv]
    split
    · refine gives_bind fun tlvType => gives_bind fun tlvLen => ?_
      dsimp only
      split
      · exact gives_ok hs
      · exact gives_bind fun value => (hread t tlvType value hs).bind fun t' ht' => gives_ok ht'
    · exact gives_ok hs
  · split
    · rename_i identity macAddress hidentity hmac
      exact gives_ok (ht macAddress hmac)
    · exact gives_err ()

theorem printed_decodeIpv4 (payload : Bytes) :
    Gives AllPrinted (decodeIpv4 (formatMac octets) payload : Outcome ε _) := by
  unfold decodeIpv4
  split
  · exact gives_ok allPrinted_nil
  refine gives_bind fun first => ?_
  dsimp only
  split
  · exact gives_ok allPrinted_nil
  refine gives_bind fun protocol => gives_bind fun source => gives_bind fun udp => ?_
  split
  · exact (printed_ospfFact _ _ _).bind fun fact hf => gives_ok (allPrinted_singleton hf)
  split
  · exact gives_ok allPrinted_nil
  split
  · split
    · exact gives_ok allPrinted_nil
    refine gives_bind fun body => ?_
    split
    · exact (printed_decodeDhcp body).toOption.bind fun found hfound => gives_ok (allPrinted_toList hfound)
    split
    · exact (printed_classifyRip source body).bind fun fact hf => gives_ok (allPrinted_singleton hf)
    split
    · refine (printed_parseMndpPacket body).toOption.bind fun found hfound => gives_ok fun fact hf => ?_
      obtain ⟨n, hn, rfl⟩ := List.mem_map.mp hf
      obtain ⟨octets, hmac⟩ := hfound n (Option.mem_toList.mp hn)
      exact fun text ht => ⟨octets, (Option.some.inj ht).symm.trans hmac⟩
    · exact gives_ok allPrinted_nil
  · exact gives_ok allPrinted_nil

/-! ## IPv6 -/

theorem printed_decodeRipng (sender : Ipv6Addr) (body : Bytes) :
    Gives FrameFact.Printed (decodeRipng (formatMac octets) sender body) := by
  unfold decodeRipng
  iterate 10 refine gives_bind fun _ => ?_
  exact gives_ok (printed_of_hardware fun text ht => (Option.some.inj ht).symm)

theorem printed_decodeIcmpv6 (payload : Bytes) (sourceAddress : Ipv6Addr) :
    Gives AllPrinted (decodeIcmpv6 (formatMac octets) payload sourceAddress : Outcome ε _) := by
  unfold decodeIcmpv6
  refine gives_bind fun icmp => ?_
  split
  · exact gives_ok allPrinted_nil
  refine gives_bind fun type => ?_
  split
  · iterate 3 refine gives_bind fun _ => ?_
    exact gives_ok (allPrinted_singleton (printed_of_hardware fun text ht => (Option.some.inj ht).symm))
  split
  · split
    · exact gives_ok allPrinted_nil
    · exact gives_ok (allPrinted_singleton (printed_of_hardware fun text ht => (Option.some.inj ht).symm))
  split
  · split
    · exact gives_ok allPrinted_nil
    refine gives_bind fun target => gives_bind fun flags => ?_
    exact gives_ok (allPrinted_singleton (printed_of_hardware fun text ht => (Option.some.inj ht).symm))
  · exact gives_ok allPrinted_nil

theorem printed_decodeIpv6 (payload : Bytes) :
    Gives AllPrinted (decodeIpv6 (formatMac octets) payload : Outcome ε _) := by
  have hrest : ∀ sourceAddress nextHeader,
      Gives AllPrinted (decodeIpv6Rest (formatMac octets) payload sourceAddress nextHeader : Outcome ε _) := by
    intro sourceAddress nextHeader
    unfold decodeIpv6Rest
    split
    · refine gives_bind fun packet => (printed_ospfFact _ _ _).bind fun fact hf => ?_
      exact gives_ok (allPrinted_singleton hf)
    split
    · exact gives_ok allPrinted_nil
    · exact printed_decodeIcmpv6 payload sourceAddress
  unfold decodeIpv6
  split
  · exact gives_ok allPrinted_nil
  refine gives_bind fun sourceAddress => gives_bind fun nextHeader => ?_
  split
  · refine gives_bind fun udp => ?_
    split
    · split
      · refine gives_bind fun body => (printed_decodeRipng sourceAddress body).toOption.bind fun found hfound => ?_
        refine gives_ok (allPrinted_singleton ?_)
        cases found with
        | none => exact printed_of_none rfl
        | some fact => exact hfound fact rfl
      · exact hrest sourceAddress nextHeader
    · exact gives_ok allPrinted_nil
  · exact hrest sourceAddress nextHeader

/-! ## Frames -/

theorem printed_decodeInner (frame : Bytes) (ethertype : UInt16) (payload : Bytes) :
    Gives AllPrinted (decodeInner frame (formatMac octets) ethertype payload : Outcome ε _) := by
  unfold decodeInner
  split
  · exact (printed_decodeArp payload).toOption.bind fun found hfound => gives_ok (allPrinted_toList hfound)
  · exact printed_decodeIpv4 payload
  · exact printed_decodeIpv6 payload
  · exact gives_bind fun found => gives_ok (printed_neighbors found)
  · exact gives_ok allPrinted_nil

theorem printed_unwrapTags (frame : Bytes) :
    Gives (fun found => AllPrinted found.1) (unwrapTags frame : Outcome ε _) := by
  refine gives_loop (fun s => AllPrinted s.2) (fun s hs => ?_) allPrinted_nil
  obtain ⟨offset, facts⟩ := s
  rw [nextTag]
  split
  · exact gives_ok hs
  split
  · split
    · exact gives_ok hs
    · refine gives_ok (hs.append fun fact hf => ?_)
      obtain ⟨id, -, rfl⟩ := List.mem_map.mp hf
      exact printed_of_none rfl
  · exact gives_ok hs

/-- **The hardware addresses of decoded frames are printed from octets.** -/
theorem printed_decodeFrame (frame : Bytes) : Gives AllPrinted (decodeFrame frame : Outcome ε _) := by
  unfold decodeFrame
  split
  · exact gives_ok allPrinted_nil
  refine gives_bind fun destination => gives_bind fun source => ?_
  refine (printed_unwrapTags frame).bind fun found hfacts => ?_
  obtain ⟨facts, inner⟩ := found
  dsimp only
  split
  · exact gives_ok hfacts
  split
  · exact gives_ok hfacts
  refine gives_bind fun payload => ?_
  split
  · exact (printed_decodeLlc _ _ _).bind fun more hmore => gives_ok (hfacts.append hmore)
  · refine (printed_decodeInner _ _ _).bind fun more hmore => gives_ok ?_
    unfold joinTaggedPrefix
    split
    · refine (hfacts.append hmore).append fun fact hf => ?_
      obtain ⟨net, -, rfl⟩ := List.mem_map.mp hf
      exact printed_of_none rfl
    · exact hfacts.append hmore

end Decoders

/-- A bridge is named by hexadecimal digits and colons. -/
theorem forall_mem_bridgeIdentity {P : Char → Prop} (hdigit : ∀ c, (Text.hexDigit c).isSome = true → P c.toLower)
    (hcolon : P ':') {bridgeId : Text} {key : DeviceKey} (h : bridgeIdentity bridgeId = some key) :
    ∃ text, key = .mac text ∧ ∀ c ∈ text, P c := by
  unfold bridgeIdentity at h
  split at h
  · cases h
  · rename_i priority mac hsplit
    dsimp only at h
    split_ifs at h with hoctets
    cases h
    refine ⟨_, rfl, fun c hc => ?_⟩
    obtain ⟨d, hd, rfl⟩ := List.mem_map.mp hc
    rcases Text.mem_split ':' hd with rfl | ⟨piece, hpiece, hpd⟩
    · exact hcolon
    · rw [not_or, Bool.not_eq_true, Bool.not_eq_false', List.all_eq_true] at hoctets
      have hall := (Bool.and_eq_true _ _ ▸ hoctets.2 piece hpiece).2
      exact hdigit d (List.all_eq_true.mp hall d hpd)

/-! ## The evidence of a fact -/

/-- The identities a fact of this vantage is about. -/
def Fact.keys (fact : Fact) : List DeviceKey := fact.devices ++ fact.bridges .localRealm

/-- The record is about a device, and about addresses. -/
def About (device : DeviceKey) (ev : TopologyEvidence) : Prop :=
  ∀ key ∈ ev.fact.keys, key = device ∨ ∃ address, key = .address address

section Evidence

variable {interface : Text} {now : Nat} {scope : Option IpNet} {ev : TopologyEvidence} {key : DeviceKey}

theorem keys_of_convertBridge {sourceMac bridgeId rootId : Text} {portId : UInt16} {vlan : Option UInt16}
    (hev : ev ∈ convertBridge interface now sourceMac bridgeId rootId portId vlan) (hkey : key ∈ ev.fact.keys) :
    key = .ofMac sourceMac ∨ ∃ bridgeId, bridgeIdentity bridgeId = some key := by
  unfold convertBridge at hev
  simp only [List.mem_cons, List.not_mem_nil, or_false] at hev
  rcases hev with rfl | rfl
  · simp only [seen, Fact.keys, Fact.devices, Fact.bridges, List.append_nil, List.mem_singleton] at hkey
    cases hb : bridgeIdentity bridgeId with
    | none =>
      rw [hb] at hkey
      exact .inl hkey
    | some k =>
      rw [hb] at hkey
      exact .inr ⟨bridgeId, by rw [hb, hkey]; rfl⟩
  · simp only [seen, Fact.keys, Fact.devices, Fact.bridges, List.nil_append] at hkey
    split at hkey
    · rename_i bridge root hb hr
      obtain ⟨b, hbridge, rfl⟩ := Option.map_eq_some_iff.mp hb
      obtain ⟨r, hroot, rfl⟩ := Option.map_eq_some_iff.mp hr
      simp only [qualifyDevice_local, List.mem_cons, List.not_mem_nil, or_false] at hkey
      rcases hkey with rfl | rfl
      · exact .inr ⟨bridgeId, hbridge⟩
      · exact .inr ⟨rootId, hroot⟩
    · cases hkey

theorem about_single {device : DeviceKey} {fact : Fact} (h : fact.keys = [device]) (source : EvidenceSource)
    (confidence : Confidence) (detail : Option Text) : About device
    (seen interface now source confidence fact detail) := by
  intro key hkey
  rw [seen, h] at hkey
  exact .inl (List.mem_singleton.mp hkey)

theorem about_none {device : DeviceKey} {fact : Fact} (h : fact.keys = []) (source : EvidenceSource)
    (confidence : Confidence) (detail : Option Text) : About device
    (seen interface now source confidence fact detail) := by
  intro key hkey
  rw [seen, h] at hkey
  cases hkey

theorem about_address {device : DeviceKey} {address : IpAddr} {fact : Fact} (h : fact.keys = [.address address])
    (source : EvidenceSource) (confidence : Confidence) (detail : Option Text) :
    About device (seen interface now source confidence fact detail) := by
  intro key hkey
  rw [seen, h] at hkey
  exact .inr ⟨address, List.mem_singleton.mp hkey⟩

/-- A route is about its router and its next hop. -/
theorem about_routesTo {device router : DeviceKey} (hrouter : router = device ∨ ∃ address, router = .address address)
    (net : IpNet) (nextHop : Option IpAddr) (source : EvidenceSource) (confidence : Confidence)
    (detail : Option Text) :
    About device (seen interface now source confidence (.routesTo router net nextHop) detail) := by
  intro key hkey
  simp only [seen, Fact.keys, Fact.devices, Fact.bridges, List.append_nil, List.mem_cons] at hkey
  rcases hkey with rfl | hkey
  · exact hrouter
  · split at hkey
    · obtain ⟨hop, -, rfl⟩ := Option.map_eq_some_iff.mp (Option.mem_toList.mp hkey)
      exact .inr ⟨hop, rfl⟩
    · cases hkey

theorem about_convertDhcp (serverMac : Text) (assigned subnetMask : Option Ipv4Addr) (routers : List Ipv4Addr)
    (classlessRoutes : List (Ipv4Addr × Nat × Ipv4Addr)) :
    ∀ ev ∈ convertDhcp interface now serverMac assigned subnetMask routers classlessRoutes,
    About (.ofMac serverMac) ev := by
  unfold convertDhcp
  simp only [List.forall_mem_append, List.forall_mem_map, List.forall_mem_flatMap, List.forall_mem_cons,
    List.not_mem_nil, IsEmpty.forall_iff, implies_true, and_true]
  refine ⟨⟨⟨?_, ?_⟩, ?_⟩, about_single rfl _ _ _⟩
  · exact fun net _ => about_none rfl _ _ _
  · exact fun router _ => ⟨about_address rfl _ _ _, about_address rfl _ _ _⟩
  · rintro ⟨dest, len, nextHop⟩ -
    dsimp only
    cases Ipv4Net.new dest len with
    | none => exact List.forall_mem_nil _
    | some net =>
      simp only [List.forall_mem_cons, List.not_mem_nil, IsEmpty.forall_iff, implies_true, and_true]
      exact ⟨about_none rfl _ _ _, about_routesTo (.inr ⟨_, rfl⟩) _ _ _ _ _⟩

theorem about_convertControlPlane (senderMac : Text) (sender : Option IpAddr) (protocol identity area : Text)
    (hello : Bool) (current : List PromotedPrefix) (reportedOnly : List ReportedPrefix) (sequences : List UInt32) :
    ∀ ev ∈ convertControlPlane interface now senderMac sender protocol identity area hello current reportedOnly sequences,
      About (.ofMac senderMac) ev := by
  unfold convertControlPlane
  simp only [List.forall_mem_append, List.forall_mem_map, List.forall_mem_flatMap, List.forall_mem_cons,
    List.not_mem_nil, IsEmpty.forall_iff, implies_true, and_true]
  exact ⟨⟨⟨fun _ _ => about_single rfl _ _ _, about_single rfl _ _ _, about_single rfl _ _ _⟩,
    fun _ _ => ⟨about_none rfl _ _ _, about_routesTo (.inl rfl) _ _ _ _ _⟩⟩, fun _ _ => about_single rfl _ _ _⟩

theorem about_convertRoutingUpdate (senderMac : Text) (sender : IpAddr) (protocol : Text)
    (routes : List AdvertisedRoute)
    (withdrawn : List (IpNet × Bytes)) :
    ∀ ev ∈ convertRoutingUpdate interface now senderMac sender protocol routes withdrawn,
    About (.ofMac senderMac) ev := by
  unfold convertRoutingUpdate
  simp only [List.forall_mem_append, List.forall_mem_map, List.forall_mem_flatMap, List.forall_mem_cons,
    List.not_mem_nil, IsEmpty.forall_iff, implies_true, and_true]
  exact ⟨⟨⟨about_single rfl _ _ _, about_single rfl _ _ _⟩,
    fun _ _ => ⟨about_none rfl _ _ _, about_routesTo (.inl rfl) _ _ _ _ _⟩⟩, fun _ _ => about_single rfl _ _ _⟩

theorem about_convertRouterAdvertisement (routerMac : Text) (routerAddress : Option Ipv6Addr)
    (prefixes : List (Ipv6Addr × Nat)) (routes : List (Ipv6Addr × Nat × UInt32)) :
    ∀ ev ∈ convertRouterAdvertisement interface now routerMac routerAddress prefixes routes,
      About (.ofMac routerMac) ev := by
  unfold convertRouterAdvertisement
  simp only [List.forall_mem_append, List.forall_mem_map, List.forall_mem_flatMap, List.forall_mem_cons]
  refine ⟨⟨⟨about_single rfl _ _ _, fun _ _ => about_single rfl _ _ _⟩, ?_⟩, ?_⟩
  · rintro ⟨net, len⟩ -
    dsimp only
    cases Ipv6Net.new net len with
    | none => exact List.forall_mem_nil _
    | some net =>
      simp only [List.forall_mem_cons, List.not_mem_nil, IsEmpty.forall_iff, implies_true, and_true]
      exact ⟨about_none rfl _ _ _, about_single rfl _ _ _⟩
  · rintro ⟨net, len, lifetime⟩ -
    dsimp only
    cases Ipv6Net.new net len with
    | none => exact List.forall_mem_nil _
    | some net =>
      simp only [List.forall_mem_cons, List.not_mem_nil, IsEmpty.forall_iff, implies_true, and_true]
      exact ⟨about_none rfl _ _ _, about_routesTo (.inl rfl) _ _ _ _ _⟩

theorem about_convertMndp (n : MndpNeighbor) : ∀ ev ∈ convertMndp interface now n,
    About (.ofMac n.macAddress) ev := by
  unfold convertMndp
  simp only [List.forall_mem_append, List.forall_mem_map, List.forall_mem_cons, List.not_mem_nil, IsEmpty.forall_iff,
    implies_true, and_true]
  exact ⟨⟨about_single rfl _ _ _, fun _ _ => about_single rfl _ _ _⟩, about_single rfl _ _ _⟩

theorem about_convertNeighbor (n : LldpNeighbor) :
    ∀ ev ∈ convertNeighbor interface now n, ev.fact.keys = [.ofMac n.chassisId] := by
  unfold convertNeighbor
  simp only [List.forall_mem_append, List.forall_mem_map]
  exact ⟨⟨⟨fun _ _ => rfl, fun _ _ => rfl⟩, fun _ _ => rfl⟩, fun _ _ => rfl⟩

/-- **The identities in the evidence of a fact**: addresses, the hardware address of the fact, bridges, and, of a
link-layer neighbour, the chassis it announces. -/
theorem keys_of_convertFact {fact : FrameFact} (hev : ev ∈ convertFact interface now scope fact)
    (hkey : key ∈ ev.fact.keys) :
    (∃ address, key = .address address) ∨ (∃ text ∈ fact.hardware, key = .ofMac text) ∨
      (∃ bridgeId, bridgeIdentity bridgeId = some key) ∨
        ∃ n, fact = .linkLayerNeighbor n ∧ key = .ofMac n.chassisId := by
  have habout : ∀ {text : Text}, fact.hardware = some text → About (.ofMac text) ev →
      (∃ address, key = .address address) ∨ ∃ text ∈ fact.hardware, key = .ofMac text := by
    intro text ht ha
    rcases ha key hkey with h | h
    · exact .inr ⟨text, ht, h⟩
    · exact .inl h
  have hdone : ((∃ address, key = .address address) ∨ ∃ text ∈ fact.hardware, key = .ofMac text) →
      (∃ address, key = .address address) ∨ (∃ text ∈ fact.hardware, key = .ofMac text) ∨
      (∃ bridgeId, bridgeIdentity bridgeId = some key) ∨
        ∃ n, fact = .linkLayerNeighbor n ∧ key = .ofMac n.chassisId := by
    rintro (h | h)
    · exact .inl h
    · exact .inr (.inl h)
  cases fact with
  | bridge sourceMac bridgeId rootId portId vlan =>
    rcases keys_of_convertBridge hev hkey with h | h
    · exact .inr (.inl ⟨sourceMac, rfl, h⟩)
    · exact .inr (.inr (.inl h))
  | linkLayerNeighbor n =>
    rw [about_convertNeighbor n ev hev, List.mem_singleton] at hkey
    exact .inr (.inr (.inr ⟨n, rfl, hkey⟩))
  | vlan id =>
    rw [List.mem_singleton.mp hev] at hkey
    cases hkey
  | vlanNetwork vlan net =>
    rw [List.mem_singleton.mp hev] at hkey
    cases hkey
  | arp mac address =>
    rw [convertFact] at hev
    split_ifs at hev
    · rw [List.mem_singleton.mp hev] at habout
      exact hdone (habout rfl (about_single rfl _ _ _))
    · cases hev
  | dhcp serverMac assigned subnetMask routers classlessRoutes _ _ =>
    exact hdone (habout rfl (about_convertDhcp _ _ _ _ _ ev hev))
  | routingUpdateRejected => cases hev
  | routingRequest => cases hev
  | controlPlane => exact hdone (habout rfl (about_convertControlPlane _ _ _ _ _ _ _ _ _ ev hev))
  | routingUpdate => exact hdone (habout rfl (about_convertRoutingUpdate _ _ _ _ _ ev hev))
  | routerAdvertisement => exact hdone (habout rfl (about_convertRouterAdvertisement _ _ _ _ ev hev))
  | neighbor mac address isRouter =>
    rw [convertFact] at hev
    refine hdone (habout rfl ?_)
    rcases List.mem_cons.mp hev with rfl | hev
    · exact about_single rfl _ _ _
    · split_ifs at hev
      · rw [List.mem_singleton.mp hev]
        exact about_single rfl _ _ _
      · cases hev
  | mndp n => exact hdone (habout rfl (about_convertMndp n ev hev))

end Evidence

end Idnx
