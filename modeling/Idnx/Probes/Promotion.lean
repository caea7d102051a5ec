import Idnx.Probes.OspfUpdates

/-!
# Which OSPF prefixes are promoted

A prefix becomes current topology only on the word of a packet that can be checked: its checksum verifies, its
authentication is one the decoder can judge, and its advertisement is whole and not at MaxAge. A packet with
cryptographic authentication has no checksum, and its prefixes are reported without promotion.

* `v2_promotion_iff`: OSPFv2 falls short of this for cryptographic packets only, which it takes for damaged;
* `v3_promotion_iff`: OSPFv3 falls short of it wherever a checksum that is not looked at is wrong.
-/

namespace Idnx

open Outcome Ospf

/-- The prefixes a fact states as current topology. -/
def FrameFact.promoted : FrameFact → List IpNet
  | .controlPlane _ _ _ _ _ _ _ current _ _ => current.map Prod.fst
  | _ => []

/-- The fact promotes nothing and reports these prefixes. -/
def FrameFact.ReportsOnly (nets : List IpNet) : FrameFact → Prop
  | .controlPlane _ _ _ _ _ _ _ current reportedOnly _ => current = [] ∧ reportedOnly.map Prod.fst = nets
  | _ => False

section Facts

variable (sourceMac : Text) (sender : Option IpAddr) {packet : OspfPacket}

/-- A prefix is promoted from a packet that can be verified, unless it is withdrawn. -/
theorem mem_promoted_controlPlaneFact {net : IpNet} :
    net ∈ (controlPlaneFact sourceMac sender packet).promoted ↔
      packet.authentication.routesAreVerifiable = true ∧ ∃ p ∈ packet.prefixes, p.withdrawn = false ∧ p.net = net := by
  unfold controlPlaneFact FrameFact.promoted
  dsimp only
  rw [List.map_map, List.mem_map]
  constructor
  · rintro ⟨p, hp, rfl⟩
    obtain ⟨hmem, hcurrent⟩ := List.mem_filter.mp hp
    rw [Bool.and_eq_true, Bool.not_eq_true'] at hcurrent
    exact ⟨hcurrent.1, p, hmem, hcurrent.2, rfl⟩
  · rintro ⟨hverifiable, p, hmem, hcurrent, rfl⟩
    refine ⟨p, List.mem_filter.mpr ⟨hmem, ?_⟩, rfl⟩
    rw [hverifiable, hcurrent]
    rfl

/-- A packet that cannot be verified has all its prefixes reported. -/
theorem reportsOnly_controlPlaneFact (h : packet.authentication.routesAreVerifiable = false) (nets : List IpNet) :
    (controlPlaneFact sourceMac sender packet).ReportsOnly nets ↔ packet.prefixes.map (·.net) = nets := by
  unfold controlPlaneFact FrameFact.ReportsOnly
  dsimp only
  have hnone : packet.prefixes.filter (fun p => packet.authentication.routesAreVerifiable && !p.withdrawn) = [] := by
    rw [List.filter_eq_nil_iff]
    intro p _
    rw [h]
    exact Bool.false_ne_true
  have hall : packet.prefixes.filter (fun p => !(packet.authentication.routesAreVerifiable && !p.withdrawn)) =
      packet.prefixes := by
    rw [List.filter_eq_self]
    intro p _
    rw [h]
    rfl
  rw [hnone, hall, List.map_nil, List.map_map, and_iff_right rfl]
  rfl

end Facts

/-- The prefixes of some advertisements. -/
def netsOf (prefixesOf : Bytes → List AdvertisedPrefix) (lsas : List Bytes) : List IpNet :=
  (lsas.flatMap prefixesOf).map (·.net)

/-- One of the advertisements, whole and not at MaxAge, has the prefix. -/
def Advertises (prefixesOf : Bytes → List AdvertisedPrefix) (lsas : List Bytes) (net : IpNet) : Prop :=
  ∃ lsa ∈ lsas, IsWholeLsa lsa ∧ lsaAge lsa < maxAge ∧ net ∈ (prefixesOf lsa).map (·.net)

/-- The prefixes that are not withdrawn are those advertised. -/
theorem advertises_iff {prefixesOf : Bytes → List AdvertisedPrefix}
    (hmarked : ∀ lsa, Marked (decide (maxAge ≤ lsaAge lsa)) (prefixesOf lsa)) {lsas : List Bytes}
    (hwhole : ∀ lsa ∈ lsas, IsWholeLsa lsa) {net : IpNet} :
    Advertises prefixesOf lsas net ↔ ∃ p ∈ lsas.flatMap prefixesOf, p.withdrawn = false ∧ p.net = net := by
  constructor
  · rintro ⟨lsa, hlsa, -, hage, hnet⟩
    obtain ⟨p, hp, rfl⟩ := List.mem_map.mp hnet
    refine ⟨p, List.mem_flatMap.mpr ⟨lsa, hlsa, hp⟩, ?_, rfl⟩
    rw [hmarked lsa p hp, decide_eq_false_iff_not, UInt16.not_le]
    exact hage
  · rintro ⟨p, hp, hcurrent, rfl⟩
    obtain ⟨lsa, hlsa, hp⟩ := List.mem_flatMap.mp hp
    rw [hmarked lsa p hp, decide_eq_false_iff_not, UInt16.not_le] at hcurrent
    exact ⟨lsa, hlsa, hwhole lsa hlsa, hcurrent, List.mem_map_of_mem hp⟩

theorem marked_v2LsaPrefixes (lsa : Bytes) : Marked (decide (maxAge ≤ lsaAge lsa)) (v2LsaPrefixes lsa) := by
  obtain ⟨prefixes, hprefixes, hmarked⟩ := returns_v2Prefixes (ε := Unit) (lsa.getD 3 0)
    (addressOfBytes ((lsa.drop 4).take 4)) (maxAge ≤ lsaAge lsa) (lsa.drop 20)
  obtain rfl := Outcome.ok.inj ((v2Prefixes_eq lsa).symm.trans hprefixes)
  exact hmarked

theorem marked_v3LsaPrefixes (lsa : Bytes) : Marked (decide (maxAge ≤ lsaAge lsa)) (v3LsaPrefixes lsa) := by
  obtain ⟨prefixes, hprefixes, hmarked⟩ := returns_v3Prefixes (ε := Unit) (word (lsa.getD 2 0) (lsa.getD 3 0))
    (maxAge ≤ lsaAge lsa) (lsa.drop 20)
  obtain rfl := Outcome.ok.inj ((v3Prefixes_eq lsa).symm.trans hprefixes)
  exact hmarked

theorem isWholeLsa_of_mem_packetLsas {kind : UInt8} {body lsa : Bytes} (h : lsa ∈ packetLsas kind body) :
    IsWholeLsa lsa := by
  unfold packetLsas at h
  split at h
  · exact isWholeLsa_of_mem _ _ h
  · cases h

/-! ## OSPFv2 -/

/-- The packet has the right to promote the prefix. -/
structure SoundV2 (packet : Bytes) (net : IpNet) : Prop where
  verifies : V2Verifies packet
  authentication : v2Authentication packet = .none ∨ v2Authentication packet = .simple
  advertised : Advertises v2LsaPrefixes (v2Lsas packet) net

/-- A well-formed packet with cryptographic authentication: its checksum field is zero, its digest follows it, and if
it is an update it carries these advertisements, all whole. -/
structure IsCryptographic (packet : Bytes) (lsas : List Bytes) : Prop where
  header : HasOspfHeader 2 24 packet
  kind : 1 ≤ packet.getD 1 0 ∧ packet.getD 1 0 ≤ 5
  checksum : word (packet.getD 12 0) (packet.getD 13 0) = 0
  auType : word (packet.getD 14 0) (packet.getD 15 0) = 2
  digest : packetLength packet + (packet.getD 19 0).toNat ≤ packet.length
  whole : ∀ lsa ∈ lsas, IsWholeLsa lsa
  contents : if packet.getD 1 0 = 4 then packetBody 24 packet = beBytes 4 lsas.length ++ lsas.flatten else lsas = []

/-- An IPv4 datagram that carries an OSPF packet. -/
def CarriesV2 (datagram packet : Bytes) : Prop :=
  HasHeader datagram ∧ datagram.getD 9 0 = 89 ∧ packet = datagram.drop (headerLen datagram)

/-- What is decoded from the datagram promotes only what its packet may promote, and reports a packet with
cryptographic authentication without promoting any of it. -/
def PromotesV2 (sourceMac : Text) (datagram packet : Bytes) : Prop :=
  ∃ facts, (decodeIpv4 sourceMac datagram : Outcome Empty _) = .ok facts ∧
    (∀ fact ∈ facts, ∀ net ∈ fact.promoted, SoundV2 packet net) ∧
      ∀ lsas, IsCryptographic packet lsas → ∃ fact, facts = [fact] ∧ fact.ReportsOnly (netsOf v2LsaPrefixes lsas)

/-- The advertisements of a well-formed update that are read. -/
theorem IsCryptographic.v2Lsas_eq {packet : Bytes} {lsas : List Bytes} (h : IsCryptographic packet lsas) :
    v2Lsas packet = lsas.take 256 ∧ HasCount 24 packet := by
  have hcontents := h.contents
  unfold v2Lsas packetLsas HasCount
  split at hcontents
  case isFalse hkind =>
    rw [if_neg hkind, hcontents]
    exact ⟨rfl, fun hkind' => absurd hkind' hkind⟩
  case isTrue hkind =>
    have hsize := length_packetBody h.header
    have hword : packetLength packet < 65536 := UInt16.toNat_lt _
    have hfew := length_le_flatten h.whole
    rw [hcontents, List.length_append, length_beBytes] at hsize
    rw [if_pos hkind, hcontents, updateLsas_flatten h.whole (show lsas.length < 4294967296 by omega)]
    refine ⟨rfl, fun _ => ?_⟩
    rw [List.length_append, length_beBytes]
    omega

/-- What is decoded from an OSPF packet over IPv4: its fact if it is accepted, and nothing that promotes if not. -/
theorem decodeIpv4_ospf (sourceMac : Text) {datagram packet : Bytes} (h : CarriesV2 datagram packet) :
    ∃ facts, (decodeIpv4 sourceMac datagram : Outcome Empty _) = .ok facts ∧
      ((V2Accepted packet ∧ ∃ p, facts = [controlPlaneFact sourceMac (some (.v4 (ipv4Source datagram))) p] ∧
        p.prefixes = (v2Lsas packet).flatMap v2LsaPrefixes ∧ p.authentication = v2Authentication packet) ∨
      (¬ V2Accepted packet ∧ ∀ fact ∈ facts, fact = .routingUpdateRejected sourceMac "OSPFv2")) := by
  obtain ⟨hheader, hprotocol, rfl⟩ := h
  rw [decodeIpv4_eq, if_pos hheader, hprotocol]
  generalize datagram.drop (headerLen datagram) = packet
  unfold decodeTransport
  rw [if_pos rfl]
  by_cases hshort : packet.length < 8
  · rw [if_pos hshort]
    refine ⟨[], rfl, .inr ⟨fun haccepted => ?_, nofun⟩⟩
    have hlen := haccepted.1.1
    omega
  rw [if_neg hshort]
  rcases parseV2_cases packet with ⟨haccepted, p, hparse, hp⟩ | ⟨hrefused, hparse⟩
  · rw [hparse]
    exact ⟨_, rfl, .inl ⟨haccepted, p, rfl, hp⟩⟩
  · rw [hparse]
    refine ⟨_, rfl, .inr ⟨hrefused, fun fact hfact => List.mem_singleton.mp hfact⟩⟩

theorem routesAreVerifiable_iff {authentication : Authentication} :
    authentication.routesAreVerifiable = true ↔ authentication = .none ∨ authentication = .simple := by
  cases authentication with
  | none => simp [Authentication.routesAreVerifiable]
  | simple => simp [Authentication.routesAreVerifiable]
  | cryptographic => simp [Authentication.routesAreVerifiable]
  | unknown value => simp [Authentication.routesAreVerifiable]

/-- **OSPFv2 promotes soundly, but for cryptographic packets.** These are refused for a checksum they do not have. -/
theorem v2_promotion_iff (sourceMac : Text) {datagram packet : Bytes} (h : CarriesV2 datagram packet) :
    PromotesV2 sourceMac datagram packet ↔ ∀ lsas, IsCryptographic packet lsas →
      V2Verifies packet ∧ netsOf v2LsaPrefixes (lsas.drop 256) = [] := by
  obtain ⟨facts, hdecode, hfacts⟩ := decodeIpv4_ospf sourceMac h
  have hpromotes : PromotesV2 sourceMac datagram packet ↔
      (∀ fact ∈ facts, ∀ net ∈ fact.promoted, SoundV2 packet net) ∧
        ∀ lsas, IsCryptographic packet lsas →
          ∃ fact, facts = [fact] ∧ fact.ReportsOnly (netsOf v2LsaPrefixes lsas) := by
    unfold PromotesV2
    rw [hdecode]
    constructor
    · rintro ⟨facts', hok, hall⟩
      obtain rfl := Outcome.ok.inj hok
      exact hall
    · exact fun hall => ⟨facts, rfl, hall⟩
  rw [hpromotes]
  rcases hfacts with ⟨haccepted, p, rfl, hprefixes, hauthentication⟩ | ⟨hrefused, hrejected⟩
  · have hsound : ∀ fact ∈ [controlPlaneFact sourceMac (some (.v4 (ipv4Source datagram))) p], ∀ net ∈ fact.promoted,
        SoundV2 packet net := by
      intro fact hfact net hnet
      rw [List.mem_singleton.mp hfact, mem_promoted_controlPlaneFact, hauthentication, hprefixes,
        routesAreVerifiable_iff] at hnet
      refine ⟨haccepted.2.1, hnet.1, ?_⟩
      exact (advertises_iff marked_v2LsaPrefixes fun _ => isWholeLsa_of_mem_packetLsas).mpr hnet.2
    rw [and_iff_right hsound]
    refine forall_congr' fun lsas => forall_congr' fun hlsas => ?_
    have hunverifiable : p.authentication.routesAreVerifiable = false := by
      rw [hauthentication, v2Authentication, hlsas.auType]
      rfl
    have hsplit : netsOf v2LsaPrefixes lsas =
        netsOf v2LsaPrefixes (lsas.take 256) ++ netsOf v2LsaPrefixes (lsas.drop 256) := by
      unfold netsOf
      rw [← List.map_append, ← List.flatMap_append, List.take_append_drop]
    rw [and_iff_right haccepted.2.1, hsplit]
    have hreported := reportsOnly_controlPlaneFact sourceMac (some (.v4 (ipv4Source datagram))) hunverifiable
      (netsOf v2LsaPrefixes (lsas.take 256) ++ netsOf v2LsaPrefixes (lsas.drop 256))
    rw [hprefixes, hlsas.v2Lsas_eq.1] at hreported
    constructor
    · rintro ⟨fact, hfact, hreports⟩
      obtain rfl := List.singleton_inj.mp hfact
      exact List.self_eq_append_right.mp (hreported.mp hreports)
    · intro hnone
      refine ⟨_, rfl, hreported.mpr ?_⟩
      rw [hnone, List.append_nil]
      rfl
  · have hsound : ∀ fact ∈ facts, ∀ net ∈ fact.promoted, SoundV2 packet net := by
      intro fact hfact net hnet
      rw [hrejected fact hfact] at hnet
      cases hnet
    rw [and_iff_right hsound]
    refine forall_congr' fun lsas => forall_congr' fun hlsas => ?_
    refine iff_of_false ?_ fun h => hrefused ⟨hlsas.header, h.1, hlsas.v2Lsas_eq.2⟩
    rintro ⟨fact, rfl, hreports⟩
    rw [hrejected fact (List.mem_singleton_self fact)] at hreports
    exact hreports

/-! ## OSPFv3 -/

/-- The pseudo-header of a packet of OSPF over IPv6. -/
def ospfPseudoHeader (source destination : Ipv6Addr) (length : Nat) : Bytes :=
  beBytes 16 source.toNat ++ beBytes 16 destination.toNat ++ beBytes 4 length ++ [0, 0, 0, 89]

/-- The checksum of the packet verifies over the pseudo-header. -/
def V3Verifies (source destination : Ipv6Addr) (packet : Bytes) : Prop :=
  (internetChecksum (ospfPseudoHeader source destination (packetLength packet) ++
    packet.take (packetLength packet)) : Outcome Unit _) = .ok 0

instance (source destination : Ipv6Addr) (packet : Bytes) : Decidable (V3Verifies source destination packet) :=
  inferInstanceAs (Decidable (_ = _))

/-- The packet has the right to promote the prefix; it has no authentication to judge. -/
structure SoundV3 (source destination : Ipv6Addr) (packet : Bytes) (net : IpNet) : Prop where
  verifies : V3Verifies source destination packet
  advertised : Advertises v3LsaPrefixes (v3Lsas packet) net

/-- An IPv6 datagram that carries an OSPF packet. -/
def CarriesV3 (datagram packet : Bytes) : Prop :=
  40 ≤ datagram.length ∧ datagram.getD 6 0 = 89 ∧ packet = datagram.drop 40

/-- What is decoded from the datagram promotes only what its packet may promote. -/
def PromotesV3 (sourceMac : Text) (datagram packet : Bytes) : Prop :=
  ∃ facts, (decodeIpv6 sourceMac datagram : Outcome Empty _) = .ok facts ∧
    ∀ fact ∈ facts, ∀ net ∈ fact.promoted, SoundV3 (ipv6Source datagram) (ipv6Destination datagram) packet net

theorem decodeIpv6_ospf (sourceMac : Text) {datagram packet : Bytes} (h : CarriesV3 datagram packet) :
    ∃ facts, (decodeIpv6 sourceMac datagram : Outcome Empty _) = .ok facts ∧
      ((V3Accepted packet ∧ ∃ p, facts = [controlPlaneFact sourceMac (some (.v6 (ipv6Source datagram))) p] ∧
        p.prefixes = (v3Lsas packet).flatMap v3LsaPrefixes ∧ p.authentication = .none) ∨
      (¬ V3Accepted packet ∧ ∀ fact ∈ facts, fact = .routingUpdateRejected sourceMac "OSPFv3")) := by
  obtain ⟨hlen, hprotocol, rfl⟩ := h
  rw [decodeIpv6_eq, if_pos hlen, hprotocol]
  generalize datagram.drop 40 = packet
  unfold decodeTransport6
  rw [if_neg (by decide), if_pos rfl]
  by_cases hnil : packet = []
  · rw [if_pos hnil]
    refine ⟨[], rfl, .inr ⟨fun haccepted => ?_, nofun⟩⟩
    have hsize := haccepted.1.1
    rw [hnil] at hsize
    cases hsize
  rw [if_neg hnil]
  rcases parseV3_cases packet with ⟨haccepted, p, hparse, hp⟩ | ⟨hrefused, hparse⟩
  · rw [hparse]
    exact ⟨_, rfl, .inl ⟨haccepted, p, rfl, hp⟩⟩
  · rw [hparse]
    refine ⟨_, rfl, .inr ⟨hrefused, fun fact hfact => List.mem_singleton.mp hfact⟩⟩

/-- **OSPFv3 promotes soundly where its checksum verifies.** It is not looked at, and a packet that has a prefix to
promote does so whatever it is. -/
theorem v3_promotion_iff (sourceMac : Text) {datagram packet : Bytes} (h : CarriesV3 datagram packet) :
    PromotesV3 sourceMac datagram packet ↔
      (V3Accepted packet ∧ (∃ net, Advertises v3LsaPrefixes (v3Lsas packet) net) →
        V3Verifies (ipv6Source datagram) (ipv6Destination datagram) packet) := by
  obtain ⟨facts, hdecode, hfacts⟩ := decodeIpv6_ospf sourceMac h
  have hpromotes : PromotesV3 sourceMac datagram packet ↔ ∀ fact ∈ facts, ∀ net ∈ fact.promoted,
      SoundV3 (ipv6Source datagram) (ipv6Destination datagram) packet net := by
    unfold PromotesV3
    rw [hdecode]
    constructor
    · rintro ⟨facts', hok, hall⟩
      obtain rfl := Outcome.ok.inj hok
      exact hall
    · exact fun hall => ⟨facts, rfl, hall⟩
  rw [hpromotes]
  rcases hfacts with ⟨haccepted, p, rfl, hprefixes, hauthentication⟩ | ⟨hrefused, hrejected⟩
  · have hmem : ∀ net, net ∈ (controlPlaneFact sourceMac (some (.v6 (ipv6Source datagram))) p).promoted ↔
        Advertises v3LsaPrefixes (v3Lsas packet) net := by
      intro net
      rw [mem_promoted_controlPlaneFact, hauthentication, hprefixes]
      refine (and_iff_right rfl).trans (advertises_iff marked_v3LsaPrefixes fun _ hlsa => ?_).symm
      exact isWholeLsa_of_mem_packetLsas hlsa
    constructor
    · rintro hsound ⟨-, net, hnet⟩
      exact (hsound _ (List.mem_singleton_self _) net ((hmem net).mpr hnet)).verifies
    · intro hverifies fact hfact net hnet
      obtain rfl := List.mem_singleton.mp hfact
      have hadvertised := (hmem net).mp hnet
      exact ⟨hverifies ⟨haccepted, net, hadvertised⟩, hadvertised⟩
  · refine iff_of_true (fun fact hfact net hnet => ?_) fun haccepted => absurd haccepted.1 hrefused
    rw [hrejected fact hfact] at hnet
    cases hnet

/-- **When OSPF prefixes are promoted as they should be**, over IPv4 and over IPv6. -/
theorem ospf_promotion_iff (sourceMac : Text) (datagram packet : Bytes) :
    (CarriesV2 datagram packet →
      (PromotesV2 sourceMac datagram packet ↔ ∀ lsas, IsCryptographic packet lsas →
        V2Verifies packet ∧ netsOf v2LsaPrefixes (lsas.drop 256) = [])) ∧
    (CarriesV3 datagram packet →
      (PromotesV3 sourceMac datagram packet ↔
        (V3Accepted packet ∧ (∃ net, Advertises v3LsaPrefixes (v3Lsas packet) net) →
          V3Verifies (ipv6Source datagram) (ipv6Destination datagram) packet))) :=
  ⟨v2_promotion_iff sourceMac, v3_promotion_iff sourceMac⟩

/-! ### Two datagrams -/

/-- An update of OSPFv2 with cryptographic authentication and one summary advertisement, and its digest. -/
def cryptographicUpdate : Bytes :=
  [2, 4, 0, 56, 10, 0, 0, 1, 0, 0, 0, 0, 0, 0, 0, 2, 0, 0, 1, 16, 0, 0, 0, 1, 0, 0, 0, 1] ++
    ([0, 60, 0, 3, 172, 20, 0, 0, 10, 0, 0, 1, 128, 0, 0, 5, 0, 0, 0, 28, 255, 255, 0, 0, 0, 0, 0, 5] ++
      List.replicate 16 0xa5)

/-- An update of OSPFv3 with an inter-area prefix and no checksum. -/
def uncheckedUpdate : Bytes :=
  [3, 4, 0, 56, 10, 0, 0, 1, 0, 0, 0, 0, 0, 0, 0, 0, 0, 0, 0, 1] ++
    [0, 60, 0x20, 3, 0, 0, 0, 1, 10, 0, 0, 1, 128, 0, 0, 3, 0, 0, 0, 36, 0, 0, 0, 20, 48, 0, 0, 0, 0x20, 1, 0x0d, 0xb8,
      0, 0x51, 0, 0]

/-- An IPv4 datagram for all OSPF routers. -/
def ospfDatagram4 (packet : Bytes) : Bytes :=
  [0x45, 0, 0, 92, 0, 0, 0, 0, 1, 89, 0, 0, 10, 0, 0, 1, 224, 0, 0, 5] ++ packet

/-- An IPv6 datagram for all OSPF routers. -/
def ospfDatagram6 (packet : Bytes) : Bytes :=
  [0x60, 0, 0, 0, 0, 56, 89, 1] ++ ([0xfe, 0x80, 0, 0, 0, 0, 0, 0, 0, 0, 0, 0, 0, 0, 0, 1] ++
    ([0xff, 2, 0, 0, 0, 0, 0, 0, 0, 0, 0, 0, 0, 0, 0, 5] ++ packet))

theorem isCryptographic_update : IsCryptographic cryptographicUpdate [(cryptographicUpdate.drop 28).take 28] where
  header := ⟨by decide, by decide, by decide, by decide⟩
  kind := by decide
  checksum := by decide
  auType := by decide
  digest := by decide
  whole lsa hlsa := by
    obtain rfl := List.mem_singleton.mp hlsa
    exact ⟨by decide, by decide⟩
  contents := by decide

/-- The first is refused, and the second promotes its prefix. -/
theorem ospf_promotion_fails :
    (CarriesV2 (ospfDatagram4 cryptographicUpdate) cryptographicUpdate ∧
      ¬ PromotesV2 "" (ospfDatagram4 cryptographicUpdate) cryptographicUpdate) ∧
    CarriesV3 (ospfDatagram6 uncheckedUpdate) uncheckedUpdate ∧
      ¬ PromotesV3 "" (ospfDatagram6 uncheckedUpdate) uncheckedUpdate := by
  have hcarries4 : CarriesV2 (ospfDatagram4 cryptographicUpdate) cryptographicUpdate :=
    ⟨by decide, by decide, by decide⟩
  have hcarries6 : CarriesV3 (ospfDatagram6 uncheckedUpdate) uncheckedUpdate := ⟨by decide, by decide, by decide⟩
  refine ⟨⟨hcarries4, fun hpromotes => ?_⟩, hcarries6, fun hpromotes => ?_⟩
  · have hverifies := ((v2_promotion_iff "" hcarries4).mp hpromotes _ isCryptographic_update).1
    have hno : ¬ V2Verifies cryptographicUpdate := by unfold V2Verifies; decide
    exact hno hverifies
  · have haccepted : V3Accepted uncheckedUpdate :=
      ⟨⟨by decide, by decide, by decide, by decide⟩, by unfold HasCount; decide⟩
    have hprefix : Advertises v3LsaPrefixes (v3Lsas uncheckedUpdate)
        (.v6 0x20010db8005100000000000000000000#128 48) :=
      ⟨uncheckedUpdate.drop 20, by decide, ⟨by decide, by decide⟩, by decide, by decide⟩
    have hverifies := (v3_promotion_iff "" hcarries6).mp hpromotes ⟨haccepted, _, hprefix⟩
    have hno : ¬ V3Verifies (ipv6Source (ospfDatagram6 uncheckedUpdate))
        (ipv6Destination (ospfDatagram6 uncheckedUpdate)) uncheckedUpdate := by decide
    exact hno hverifies

end Idnx
