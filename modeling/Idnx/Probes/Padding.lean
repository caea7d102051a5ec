import Idnx.Probes.Joins
import Idnx.Probes.OpenEnds

/-!
# Link padding

An IP datagram states where it ends, and a frame may go on behind it. `decodeIpv4` and `decodeIpv6` heed neither the
length of the datagram nor that of UDP and hand over the rest of the frame, so it is the upper-layer message that
must say where it ends.

* `transport_determined_iff`, `transport6_determined_iff`: which upper-layer messages are read the same whatever
  follows.
* `padding_ignored_iff`: which frames are.
-/

namespace Idnx

open Outcome

variable {ε : Type}

/-! ## UDP over IPv4 -/

section Transport

variable (sourceMac : Text) (source : Ipv4Addr)

/-- What is decoded from UDP over IPv4. -/
inductive UdpService where
  | dhcp
  | rip
  | mndp

/-- The service of a datagram, by its ports. -/
def udpService (udp : Bytes) : Option UdpService :=
  let srcPort := word (udp.getD 0 0) (udp.getD 1 0)
  let dstPort := word (udp.getD 2 0) (udp.getD 3 0)
  if (srcPort = 67 ∧ dstPort = 68) ∨ (srcPort = 68 ∧ dstPort = 67) ∨ (srcPort = 67 ∧ dstPort = 67) then some .dhcp
  else if srcPort = 520 ∨ dstPort = 520 then some .rip
  else if srcPort = 5678 ∨ dstPort = 5678 then some .mndp
  else none

def serviceFacts : UdpService → Bytes → Outcome ε (List FrameFact)
  | .dhcp => dhcpFacts sourceMac
  | .rip => ripFacts sourceMac source
  | .mndp => mndpFacts

/-- What follows the message counts. -/
def ServiceOpen : UdpService → Bytes → Prop
  | .dhcp, body => DhcpOpen body
  | .rip, body => RipOpen body
  | .mndp, _ => True

theorem service_determined_iff (service : UdpService) (body : Bytes) :
    Determined (serviceFacts sourceMac source service : Bytes → Outcome ε _) body ↔ ¬ ServiceOpen service body := by
  cases service with
  | dhcp => exact dhcp_determined_iff sourceMac body
  | rip => exact rip_determined_iff sourceMac source body
  | mndp => exact iff_of_false (mndp_not_determined body) fun h => h trivial

/-- Nothing yet is an open message of every service. -/
theorem serviceOpen_nil (service : UdpService) : ServiceOpen service [] := by
  cases service with
  | dhcp =>
    refine ⟨⟨[2, 1, 6, 0] ++ List.replicate 232 0 ++ [0x63, 0x82, 0x53, 0x63], ?_, rfl, ⟨rfl, rfl⟩, rfl⟩,
      fun h => absurd h.1.long (by decide)⟩
    simp only [List.nil_append, List.length_append, List.length_replicate]
    decide
  | rip => exact ⟨fun h => absurd h.1 (by decide), [1, 2, 0, 0], .inl ⟨rfl, by decide, rfl⟩⟩
  | mndp => trivial

theorem decodeUdp_eq (udp : Bytes) :
    (decodeUdp sourceMac source udp : Outcome ε _) =
      match udpService udp with
      | some service => serviceFacts sourceMac source service (udp.drop 8)
      | none => .ok [] := by
  unfold decodeUdp udpService
  dsimp only
  split
  · rfl
  split
  · rfl
  split
  · rfl
  · rfl

/-- The service is told by the header. -/
theorem udpService_append {udp : Bytes} (h : 4 ≤ udp.length) (more : Bytes) :
    udpService (udp ++ more) = udpService udp := by
  have hget : ∀ k < 4, (udp ++ more).getD k 0 = udp.getD k 0 := fun k hk => List.getD_append _ _ _ _ (by omega)
  unfold udpService
  rw [hget 0 (by omega), hget 1 (by omega), hget 2 (by omega), hget 3 (by omega)]

/-- The datagram is cut in its header and may be of a service, or its service counts what follows. -/
def UdpOpen (udp : Bytes) : Prop :=
  (udp.length < 8 ∧ ∃ more, (udp ++ more).length = 8 ∧ udpService (udp ++ more) ≠ none) ∨
    (8 ≤ udp.length ∧ ∃ service, udpService udp = some service ∧ ServiceOpen service (udp.drop 8))

/-- What follows the upper-layer message of an IPv4 packet counts. -/
def TransportOpen (protocol : UInt8) (upper : Bytes) : Prop :=
  (protocol = 89 ∧
    (upper.length < 8 ∨ ¬ OspfWhole upper ∧ ∃ more packet, Ospf.parseV2 (upper ++ more) = .ok packet)) ∨
    (protocol = 17 ∧ UdpOpen upper)

theorem decodeTransport_udp {upper : Bytes} (h : 8 ≤ upper.length) (more : Bytes) :
    (decodeTransport sourceMac source 17 (upper ++ more) : Outcome ε _) =
      match udpService upper with
      | some service => serviceFacts sourceMac source service (upper.drop 8 ++ more)
      | none => .ok [] := by
  unfold decodeTransport
  rw [if_neg (by rw [List.length_append]; omega), if_neg (by decide), if_pos rfl, decodeUdp_eq,
    udpService_append (by omega), List.drop_append_of_le_length h]

theorem udp_determined_iff {upper : Bytes} (h : 8 ≤ upper.length) :
    Determined (decodeTransport sourceMac source 17 : Bytes → Outcome ε _) upper ↔
      ¬ ∃ service, udpService upper = some service ∧ ServiceOpen service (upper.drop 8) := by
  have htransport := decodeTransport_udp (ε := ε) sourceMac source h
  cases hservice : udpService upper with
  | none =>
    rw [hservice] at htransport
    exact iff_of_true (determined_of_forall htransport) (by rintro ⟨service, hsome, -⟩; cases hsome)
  | some service =>
    rw [hservice] at htransport
    have hfacts : Determined (decodeTransport sourceMac source 17 : Bytes → Outcome ε _) upper ↔
        Determined (serviceFacts sourceMac source service) (upper.drop 8) := determined_congr htransport
    rw [hfacts, service_determined_iff]
    simp

theorem decodeTransport_short {protocol : UInt8} {upper : Bytes} (h : upper.length < 8) :
    (decodeTransport sourceMac source protocol upper : Outcome ε _) = .ok [] := if_pos h

/-- **Which upper-layer messages of IPv4 are read the same whatever follows.** -/
theorem transport_determined_iff (protocol : UInt8) (upper : Bytes) :
    Determined (decodeTransport sourceMac source protocol : Bytes → Outcome ε _) upper ↔
      ¬ TransportOpen protocol upper := by
  by_cases hospf : protocol = 89
  · subst hospf
    have hopen : TransportOpen 89 upper ↔
        upper.length < 8 ∨ ¬ OspfWhole upper ∧ ∃ more packet, Ospf.parseV2 (upper ++ more) = .ok packet :=
      ⟨fun h => (h.resolve_right fun hudp => absurd hudp.1 (by decide)).2, fun h => .inl ⟨rfl, h⟩⟩
    have hlong : ∀ x : Bytes, 8 ≤ x.length → (decodeTransport sourceMac source 89 x : Outcome ε _) =
        ospfFacts sourceMac (.v4 source) "OSPFv2" Ospf.parseV2 x := by
      intro x hx
      unfold decodeTransport
      rw [if_neg (by omega), if_pos rfl]
      rfl
    rw [hopen]
    by_cases hlen : upper.length < 8
    · -- With eight bytes there is a fact.
      refine iff_of_false (not_determined (a := []) (b := List.replicate 8 0) ?_) fun h => h (.inl hlen)
      rw [List.append_nil, decodeTransport_short sourceMac source hlen,
        hlong _ (by rw [List.length_append, List.length_replicate]; omega)]
      intro hsame
      obtain ⟨fact, -, hfact⟩ := map_eq_ok hsame.symm
      cases hfact
    · rw [or_iff_right hlen, ← ospf_determined_iff (ε := ε) sourceMac (.v4 source) "OSPFv2"
        (fun packet more h => parseV2_append h more) (fun packet p h => ospfWhole_of_parseV2 h)
        (fun packet => (Ospf.safe_parseV2 packet).ne_panic) upper]
      exact determined_congr fun more => hlong _ (by rw [List.length_append]; omega)
  by_cases hudp : protocol = 17
  · subst hudp
    have hopen : TransportOpen 17 upper ↔ UdpOpen upper :=
      ⟨fun h => (h.resolve_left fun hospf => absurd hospf.1 (by decide)).2, fun h => .inr ⟨rfl, h⟩⟩
    rw [hopen]
    by_cases hlen : upper.length < 8
    case neg =>
      rw [udp_determined_iff sourceMac source (by omega)]
      refine not_congr ⟨fun h => .inr ⟨by omega, h⟩, fun h => ?_⟩
      exact (h.resolve_left fun hshort => absurd hshort.1 hlen).2
    constructor
    · rintro hdetermined (⟨-, more, hheader, hservice⟩ | ⟨hlong, -⟩)
      · -- With the rest of a header, the datagram is of a service, and has no body yet.
        obtain ⟨service, hsome⟩ := Option.ne_none_iff_exists'.mp hservice
        refine (udp_determined_iff sourceMac source (Nat.le_of_eq hheader.symm)).mp (hdetermined.append more)
          ⟨service, hsome, ?_⟩
        rw [List.drop_eq_nil_of_le (Nat.le_of_eq hheader)]
        exact serviceOpen_nil service
      · omega
    · intro hclosed
      refine determined_of_forall (b := .ok []) fun more => ?_
      by_cases hshort : (upper ++ more).length < 8
      · exact decodeTransport_short sourceMac source hshort
      · have hcut : (upper ++ more.take (8 - upper.length)).length = 8 := by
          rw [List.length_append] at hshort
          rw [List.length_append, List.length_take]
          omega
        have hnone : udpService (upper ++ more.take (8 - upper.length)) = none := by
          by_contra hservice
          exact hclosed (.inl ⟨hlen, _, hcut, hservice⟩)
        have hfacts := decodeTransport_udp (ε := ε) sourceMac source (Nat.le_of_eq hcut.symm)
          (more.drop (8 - upper.length))
        rw [hnone, List.append_assoc, List.take_append_drop] at hfacts
        exact hfacts
  · have hclosed : ¬ TransportOpen protocol upper := by
      rintro (⟨h, -⟩ | ⟨h, -⟩)
      · exact hospf h
      · exact hudp h
    refine iff_of_true (determined_of_forall (b := .ok []) fun more => ?_) hclosed
    rw [decodeTransport, if_neg hospf, if_neg hudp, ite_self]

end Transport

/-! ## ICMPv6 -/

section Messages

variable (sourceMac : Text) (source destination : Ipv6Addr) (hopLimit : UInt8)

/-- What follows an ICMPv6 message counts: it is cut short, or it is an advertisement of a router on the link, whose
checksum and options run to the end. -/
def MessageOpen (icmp : Bytes) : Prop :=
  icmp = [] ∨
    (icmp.getD 0 0 = 134 ∧ (icmp.length < 4 ∨ hopLimit = 255 ∧ icmp.getD 1 0 = 0)) ∨
    (icmp.getD 0 0 = 135 ∧ icmp.length < 4 ∧ ¬ source.isUnspecified) ∨
    (icmp.getD 0 0 = 136 ∧ icmp.length < 24)

/-- An advertisement from elsewhere is refused. -/
theorem parseAdvertisement_err {message : Bytes} (h : ¬ (hopLimit = 255 ∧ message.getD 1 0 = 0)) :
    Ra.parseAdvertisement message source destination hopLimit = .err () := by
  unfold Ra.parseAdvertisement
  by_cases hstart : hopLimit = Ra.requiredHopLimit ∧ 16 ≤ message.length
  · rw [require_of hstart, ok_bind, index_eq (by omega), ok_bind, index_eq (by omega), ok_bind, require,
      if_neg fun hkind => h ⟨hstart.1, hkind.2⟩, err_bind]
  · rw [require, if_neg hstart, err_bind]

/-- No advertisement of a length that an IPv6 packet can state overflows its checksum, and with enough behind it any
does. -/
theorem exists_overflow {icmp : Bytes} (htype : icmp.getD 0 0 = 134) (hcode : icmp.getD 1 0 = 0)
    (hlen : 4 ≤ icmp.length) (hmax : icmp.length ≤ 65535) :
    Ra.parseAdvertisement icmp source destination 255 ≠ .panic ∧
      ∃ more, Ra.parseAdvertisement (icmp ++ more) source destination 255 = .panic := by
  have hpseudo : ∀ n, (pseudoHeader source destination n).length = 40 := fun n => by simp [pseudoHeader]
  constructor
  · rw [Ne, Ra.parseAdvertisement_panic_iff]
    rintro ⟨-, hover⟩
    have hsum := sumOfWords_le (pseudoHeader source destination icmp.length ++ icmp)
    rw [List.length_append, hpseudo] at hsum
    omega
  · -- Behind a byte that makes the length even, words that are all ones.
    obtain ⟨fill, heven⟩ : ∃ fill, (icmp ++ fill).length % 2 = 0 := by
      obtain hmod | hmod := Nat.mod_two_eq_zero_or_one icmp.length
      · exact ⟨[], by rwa [List.append_nil]⟩
      · exact ⟨[0], by rw [List.length_append, List.length_singleton]; omega⟩
    have htail : (List.replicate (2 * 65538) (0xff : UInt8)).length = 2 * 65538 := List.length_replicate
    have hsum := sumOfWords_ones 65538
    generalize List.replicate (2 * 65538) (0xff : UInt8) = tail at htail hsum
    refine ⟨fill ++ tail, (Ra.parseAdvertisement_panic_iff _ _ _ _).mpr ⟨⟨rfl, ?_, ?_, ?_⟩, ?_⟩⟩
    · rw [List.length_append, List.length_append, htail]
      omega
    · rw [List.getElem?_append_left (by omega), List.getElem?_eq_getElem (by omega), ← htype,
        List.getD_eq_getElem _ _ (by omega)]
    · rw [List.getElem?_append_left (by omega), List.getElem?_eq_getElem (by omega), ← hcode,
        List.getD_eq_getElem _ _ (by omega)]
    · rw [sumOfWords_append (pseudoHeader _ _ _) _ (by rw [hpseudo]), ← List.append_assoc icmp fill tail,
        sumOfWords_append _ _ heven, hsum]
      omega

theorem decodeMessage6_short {icmp : Bytes} (h : icmp.length < 4) :
    (decodeMessage6 sourceMac source destination hopLimit icmp : Outcome ε _) = .ok [] := if_pos h

theorem decodeMessage6_advertisement {icmp : Bytes} (hlen : 4 ≤ icmp.length) (htype : icmp.getD 0 0 = 134) :
    (decodeMessage6 sourceMac source destination hopLimit icmp : Outcome ε _) =
      (fun parsed => [advertisementFact sourceMac source parsed]) <$>
        (Ra.parseAdvertisement icmp source destination hopLimit).toOption := by
  unfold decodeMessage6
  dsimp only
  rw [if_neg (by omega), if_pos htype]

theorem decodeMessage6_solicitation {icmp : Bytes} (hlen : 4 ≤ icmp.length) (htype : icmp.getD 0 0 = 135) :
    (decodeMessage6 sourceMac source destination hopLimit icmp : Outcome ε _) =
      .ok (if source.isUnspecified then [] else [.neighbor sourceMac source false]) := by
  unfold decodeMessage6
  dsimp only
  rw [if_neg (by omega), htype, if_neg (by decide), if_pos rfl]

theorem decodeMessage6_neighbor {icmp : Bytes} (hlen : 4 ≤ icmp.length) (htype : icmp.getD 0 0 = 136) :
    (decodeMessage6 sourceMac source destination hopLimit icmp : Outcome ε _) =
      .ok (if icmp.length < 24 then []
        else [.neighbor sourceMac (BitVec.ofNat 128 (beNat ((icmp.drop 8).take 16)))
          (icmp.getD 4 0 &&& 0x80 ≠ 0)]) := by
  unfold decodeMessage6
  dsimp only
  rw [if_neg (by omega), htype, if_neg (by decide), if_neg (by decide), if_pos rfl]

theorem decodeMessage6_other {icmp : Bytes} (hadvertisement : icmp.getD 0 0 ≠ 134)
    (hsolicitation : icmp.getD 0 0 ≠ 135) (hneighbor : icmp.getD 0 0 ≠ 136) :
    (decodeMessage6 sourceMac source destination hopLimit icmp : Outcome ε _) = .ok [] := by
  unfold decodeMessage6
  dsimp only
  rw [if_neg hadvertisement, if_neg hsolicitation, if_neg hneighbor, ite_self]

/-- An advertisement is a fact, valid or not. -/
theorem decodeMessage6_ne_nil {icmp : Bytes} (hlen : 4 ≤ icmp.length) (htype : icmp.getD 0 0 = 134) :
    (decodeMessage6 sourceMac source destination hopLimit icmp : Outcome ε _) ≠ .ok [] := by
  rw [decodeMessage6_advertisement sourceMac source destination hopLimit hlen htype]
  intro hnone
  obtain ⟨parsed, -, hfacts⟩ := map_eq_ok hnone
  cases hfacts

theorem advertisement_determined_iff {icmp : Bytes} (hlen : 4 ≤ icmp.length) (hmax : icmp.length ≤ 65535)
    (htype : icmp.getD 0 0 = 134) :
    Determined (decodeMessage6 sourceMac source destination hopLimit : Bytes → Outcome ε _) icmp ↔
      ¬ (hopLimit = 255 ∧ icmp.getD 1 0 = 0) := by
  have hget : ∀ (more : Bytes) (k : Nat), k < 4 → (icmp ++ more).getD k 0 = icmp.getD k 0 := fun more k hk =>
    List.getD_append _ _ _ _ (by omega)
  have hfacts : ∀ more, (decodeMessage6 sourceMac source destination hopLimit (icmp ++ more) : Outcome ε _) = _ :=
    fun more => decodeMessage6_advertisement sourceMac source destination hopLimit
      (by rw [List.length_append]; omega) ((hget more 0 (by omega)).trans htype)
  constructor
  · rintro hdetermined ⟨rfl, hcode⟩
    obtain ⟨hself, more, hpanic⟩ := exists_overflow source destination htype hcode hlen hmax
    have hsame := hdetermined more
    have hfirst := hfacts []
    rw [List.append_nil] at hfirst
    rw [hfacts more, hpanic, hfirst] at hsame
    cases hparse : Ra.parseAdvertisement icmp source destination 255 with
    | ok a =>
      rw [hparse] at hsame
      cases hsame
    | err e =>
      rw [hparse] at hsame
      cases hsame
    | panic => exact hself hparse
  · intro helsewhere
    refine determined_of_forall (b := .ok [advertisementFact sourceMac source none]) fun more => ?_
    rw [hfacts more, parseAdvertisement_err source destination hopLimit]
    · rfl
    · rw [hget more 1 (by omega)]
      exact helsewhere

theorem solicitation_determined_iff {icmp : Bytes} (hpos : 0 < icmp.length) (htype : icmp.getD 0 0 = 135) :
    Determined (decodeMessage6 sourceMac source destination hopLimit : Bytes → Outcome ε _) icmp ↔
      ¬ (icmp.length < 4 ∧ ¬ source.isUnspecified) := by
  have hfacts : ∀ more, 4 ≤ (icmp ++ more).length →
      (decodeMessage6 sourceMac source destination hopLimit (icmp ++ more) : Outcome ε _) =
        .ok (if source.isUnspecified then [] else [.neighbor sourceMac source false]) := fun more hlen =>
    decodeMessage6_solicitation sourceMac source destination hopLimit hlen
      ((List.getD_append _ _ _ _ hpos).trans htype)
  by_cases hsource : source.isUnspecified
  · refine iff_of_true (determined_of_forall (b := .ok []) fun more => ?_) fun h => h.2 hsource
    by_cases hlen : (icmp ++ more).length < 4
    · exact decodeMessage6_short sourceMac source destination hopLimit hlen
    · rw [hfacts more (by omega), if_pos hsource]
  · rw [and_iff_left hsource]
    by_cases hlen : icmp.length < 4
    · refine iff_of_false (not_determined (a := []) (b := List.replicate 4 0) ?_) fun h => h hlen
      rw [List.append_nil, decodeMessage6_short sourceMac source destination hopLimit hlen,
        hfacts _ (by rw [List.length_append, List.length_replicate]; omega), if_neg hsource]
      nofun
    · exact iff_of_true (determined_of_forall fun more => hfacts more (by rw [List.length_append]; omega)) hlen

theorem neighbor_determined_iff {icmp : Bytes} (hpos : 0 < icmp.length) (htype : icmp.getD 0 0 = 136) :
    Determined (decodeMessage6 sourceMac source destination hopLimit : Bytes → Outcome ε _) icmp ↔
      ¬ icmp.length < 24 := by
  have hfacts : ∀ more, 24 ≤ (icmp ++ more).length →
      (decodeMessage6 sourceMac source destination hopLimit (icmp ++ more) : Outcome ε _) =
        .ok [.neighbor sourceMac (BitVec.ofNat 128 (beNat (((icmp ++ more).drop 8).take 16)))
          ((icmp ++ more).getD 4 0 &&& 0x80 ≠ 0)] := by
    intro more hlen
    rw [decodeMessage6_neighbor sourceMac source destination hopLimit (by omega)
      ((List.getD_append _ _ _ _ hpos).trans htype), if_neg (by omega)]
  by_cases hlen : icmp.length < 24
  · have hself : (decodeMessage6 sourceMac source destination hopLimit icmp : Outcome ε _) = .ok [] := by
      by_cases hfour : icmp.length < 4
      · exact decodeMessage6_short sourceMac source destination hopLimit hfour
      · rw [decodeMessage6_neighbor sourceMac source destination hopLimit (by omega) htype, if_pos hlen]
    refine iff_of_false (not_determined (a := []) (b := List.replicate 24 0) ?_) fun h => h hlen
    rw [List.append_nil, hself, hfacts _ (by rw [List.length_append, List.length_replicate]; omega)]
    nofun
  · refine iff_of_true (determined_of_forall
      (b := .ok [.neighbor sourceMac (BitVec.ofNat 128 (beNat ((icmp.drop 8).take 16))) (icmp.getD 4 0 &&& 0x80 ≠ 0)])
      fun more => ?_) hlen
    rw [hfacts more (by rw [List.length_append]; omega), List.getD_append _ _ _ _ (by omega),
      List.drop_append_of_le_length (by omega), List.take_append_of_le_length (by rw [List.length_drop]; omega)]

/-- **Which ICMPv6 messages are read the same whatever follows.** -/
theorem message_determined_iff {icmp : Bytes} (hmax : icmp.length ≤ 65535) :
    Determined (decodeMessage6 sourceMac source destination hopLimit : Bytes → Outcome ε _) icmp ↔
      ¬ MessageOpen source hopLimit icmp := by
  by_cases hnil : icmp = []
  · subst hnil
    refine iff_of_false (not_determined (a := []) (b := [134, 0, 0, 0]) ?_) fun h => h (.inl rfl)
    rw [List.append_nil, decodeMessage6_short sourceMac source destination hopLimit (by decide)]
    exact (decodeMessage6_ne_nil sourceMac source destination hopLimit (by decide) rfl).symm
  have hpos := List.length_pos_of_ne_nil hnil
  have htype : ∀ more : Bytes, (icmp ++ more).getD 0 0 = icmp.getD 0 0 := fun more => List.getD_append _ _ _ _ hpos
  have hmore : ∀ more : Bytes, (icmp ++ more).length = icmp.length + more.length := fun more => List.length_append
  have hopen : MessageOpen source hopLimit icmp ↔
      (icmp.getD 0 0 = 134 ∧ (icmp.length < 4 ∨ hopLimit = 255 ∧ icmp.getD 1 0 = 0)) ∨
        (icmp.getD 0 0 = 135 ∧ icmp.length < 4 ∧ ¬ source.isUnspecified) ∨
        (icmp.getD 0 0 = 136 ∧ icmp.length < 24) := or_iff_right hnil
  rw [hopen]
  generalize htypeIs : icmp.getD 0 0 = type at htype ⊢
  by_cases hadvertisement : type = 134
  · subst hadvertisement
    have hclauses : ((134 : UInt8) = 134 ∧ (icmp.length < 4 ∨ hopLimit = 255 ∧ icmp.getD 1 0 = 0)) ∨
        ((134 : UInt8) = 135 ∧ icmp.length < 4 ∧ ¬ source.isUnspecified) ∨ ((134 : UInt8) = 136 ∧ icmp.length < 24) ↔
        icmp.length < 4 ∨ hopLimit = 255 ∧ icmp.getD 1 0 = 0 := by simp
    rw [hclauses]
    by_cases hlen : icmp.length < 4
    · refine iff_of_false (not_determined (a := []) (b := List.replicate 4 0) ?_) fun h => h (.inl hlen)
      rw [List.append_nil, decodeMessage6_short sourceMac source destination hopLimit hlen]
      exact (decodeMessage6_ne_nil sourceMac source destination hopLimit
        (by rw [hmore, List.length_replicate]; omega) (htype _)).symm
    · rw [or_iff_right hlen]
      exact advertisement_determined_iff sourceMac source destination hopLimit (by omega) hmax htypeIs
  by_cases hsolicitation : type = 135
  · subst hsolicitation
    have hclauses : ((135 : UInt8) = 134 ∧ (icmp.length < 4 ∨ hopLimit = 255 ∧ icmp.getD 1 0 = 0)) ∨
        ((135 : UInt8) = 135 ∧ icmp.length < 4 ∧ ¬ source.isUnspecified) ∨ ((135 : UInt8) = 136 ∧ icmp.length < 24) ↔
        icmp.length < 4 ∧ ¬ source.isUnspecified := by simp
    rw [hclauses]
    exact solicitation_determined_iff sourceMac source destination hopLimit hpos htypeIs
  by_cases hneighbor : type = 136
  · subst hneighbor
    have hclauses : ((136 : UInt8) = 134 ∧ (icmp.length < 4 ∨ hopLimit = 255 ∧ icmp.getD 1 0 = 0)) ∨
        ((136 : UInt8) = 135 ∧ icmp.length < 4 ∧ ¬ source.isUnspecified) ∨ ((136 : UInt8) = 136 ∧ icmp.length < 24) ↔
        icmp.length < 24 := by simp
    rw [hclauses]
    exact neighbor_determined_iff sourceMac source destination hopLimit hpos htypeIs
  · refine iff_of_true (determined_of_forall (b := .ok []) fun more => ?_) ?_
    · exact decodeMessage6_other sourceMac source destination hopLimit (by rw [htype]; exact hadvertisement)
        (by rw [htype]; exact hsolicitation) (by rw [htype]; exact hneighbor)
    · rintro (⟨h, -⟩ | ⟨h, -⟩ | ⟨h, -⟩)
      · exact hadvertisement h
      · exact hsolicitation h
      · exact hneighbor h

end Messages

/-! ## The upper layer of IPv6 -/

section Transport6

variable (sourceMac : Text) (source destination : Ipv6Addr) (hopLimit : UInt8)

/-- The datagram is of RIPng. -/
def HasRipngPort (udp : Bytes) : Prop :=
  word (udp.getD 0 0) (udp.getD 1 0) = 521 ∨ word (udp.getD 2 0) (udp.getD 3 0) = 521

/-- The datagram is cut in its header and may be of RIPng, or it is and may become a response. -/
def Udp6Open (udp : Bytes) : Prop :=
  (udp.length < 8 ∧ ∃ more, (udp ++ more).length = 8 ∧ HasRipngPort (udp ++ more)) ∨
    (8 ≤ udp.length ∧ HasRipngPort udp ∧ ∃ more, IsRipngUpdate (udp.drop 8 ++ more))

/-- What follows the upper-layer message of an IPv6 packet counts. -/
def Transport6Open (nextHeader : UInt8) (upper : Bytes) : Prop :=
  (nextHeader = 17 ∧ Udp6Open upper) ∨
    (nextHeader = 89 ∧
      (upper = [] ∨ ¬ OspfWhole upper ∧ ∃ more packet, Ospf.parseV3 (upper ++ more) = .ok packet)) ∨
    (nextHeader = 58 ∧ MessageOpen source hopLimit upper)

theorem hasRipngPort_append {udp : Bytes} (h : 4 ≤ udp.length) (more : Bytes) :
    HasRipngPort (udp ++ more) ↔ HasRipngPort udp := by
  have hget : ∀ k < 4, (udp ++ more).getD k 0 = udp.getD k 0 := fun k hk => List.getD_append _ _ _ _ (by omega)
  unfold HasRipngPort
  rw [hget 0 (by omega), hget 1 (by omega), hget 2 (by omega), hget 3 (by omega)]

theorem decodeTransport6_udp_short {udp : Bytes} (h : udp.length < 8) :
    (decodeTransport6 sourceMac source destination 17 hopLimit udp : Outcome ε _) = .ok [] := by
  rw [decodeTransport6, if_pos rfl, if_neg fun hlong => by omega]

theorem decodeTransport6_ripng {udp : Bytes} (h : 8 ≤ udp.length) (hport : HasRipngPort udp) :
    (decodeTransport6 sourceMac source destination 17 hopLimit udp : Outcome ε _) =
      ripngFacts sourceMac source (udp.drop 8) := by
  unfold HasRipngPort at hport
  rw [decodeTransport6, if_pos rfl, if_pos ⟨h, hport⟩]
  rfl

theorem decodeTransport6_udp_other {udp : Bytes} (hport : ¬ HasRipngPort udp) :
    (decodeTransport6 sourceMac source destination 17 hopLimit udp : Outcome ε _) = .ok [] := by
  unfold HasRipngPort at hport
  rw [decodeTransport6, if_pos rfl, if_neg fun h => hport h.2]

theorem udp6_determined_iff (udp : Bytes) :
    Determined (decodeTransport6 sourceMac source destination 17 hopLimit : Bytes → Outcome ε _) udp ↔
      ¬ Udp6Open udp := by
  have hmore : ∀ more : Bytes, (udp ++ more).length = udp.length + more.length := fun more => List.length_append
  by_cases hlen : udp.length < 8
  · constructor
    · rintro hdetermined (⟨-, more, hheader, hport⟩ | ⟨hlong, -⟩)
      · -- With the rest of a header there is a fact.
        have hsame := hdetermined more
        rw [decodeTransport6_udp_short sourceMac source destination hopLimit hlen,
          decodeTransport6_ripng sourceMac source destination hopLimit (by omega) hport] at hsame
        obtain ⟨fact, -, hfact⟩ := map_eq_ok hsame
        cases hfact
      · omega
    · intro hclosed
      refine determined_of_forall (b := .ok []) fun more => ?_
      by_cases hshort : (udp ++ more).length < 8
      · exact decodeTransport6_udp_short sourceMac source destination hopLimit hshort
      · rw [hmore] at hshort
        have hcut : (udp ++ more.take (8 - udp.length)).length = 8 := by
          rw [List.length_append, List.length_take]
          omega
        have hnone : ¬ HasRipngPort (udp ++ more.take (8 - udp.length)) := fun hport =>
          hclosed (.inl ⟨hlen, _, hcut, hport⟩)
        rw [← hasRipngPort_append (by omega) (more.drop (8 - udp.length)), List.append_assoc,
          List.take_append_drop] at hnone
        exact decodeTransport6_udp_other sourceMac source destination hopLimit hnone
  · have hopen : Udp6Open udp ↔
        HasRipngPort udp ∧ ∃ more, IsRipngUpdate (udp.drop 8 ++ more) :=
      ⟨fun h => (h.resolve_left fun hshort => absurd hshort.1 hlen).2, fun h => .inr ⟨by omega, h⟩⟩
    rw [hopen]
    by_cases hport : HasRipngPort udp
    · rw [and_iff_right hport, not_exists, ← ripng_determined_iff (ε := ε) sourceMac source (udp.drop 8)]
      refine determined_congr fun more => ?_
      rw [decodeTransport6_ripng sourceMac source destination hopLimit (by rw [hmore]; omega)
        ((hasRipngPort_append (by omega) more).mpr hport), List.drop_append_of_le_length (by omega)]
    · refine iff_of_true (determined_of_forall (b := .ok []) fun more => ?_) fun h => hport h.1
      exact decodeTransport6_udp_other sourceMac source destination hopLimit
        fun h => hport ((hasRipngPort_append (by omega) more).mp h)

/-- **Which upper-layer messages of IPv6 are read the same whatever follows.** -/
theorem transport6_determined_iff (nextHeader : UInt8) {upper : Bytes} (hmax : upper.length ≤ 65535) :
    Determined (decodeTransport6 sourceMac source destination nextHeader hopLimit : Bytes → Outcome ε _) upper ↔
      ¬ Transport6Open source hopLimit nextHeader upper := by
  by_cases hudp : nextHeader = 17
  · subst hudp
    rw [udp6_determined_iff]
    refine not_congr ⟨fun h => .inl ⟨rfl, h⟩, ?_⟩
    rintro (⟨-, h⟩ | ⟨h, -⟩ | ⟨h, -⟩)
    · exact h
    · exact absurd h (by decide)
    · exact absurd h (by decide)
  by_cases hospf : nextHeader = 89
  · subst hospf
    have hopen : Transport6Open source hopLimit 89 upper ↔
        upper = [] ∨ ¬ OspfWhole upper ∧ ∃ more packet, Ospf.parseV3 (upper ++ more) = .ok packet := by
      constructor
      · rintro (⟨h, -⟩ | ⟨-, h⟩ | ⟨h, -⟩)
        · exact absurd h (by decide)
        · exact h
        · exact absurd h (by decide)
      · exact fun h => .inr (.inl ⟨rfl, h⟩)
    have hlong : ∀ x : Bytes, x ≠ [] →
        (decodeTransport6 sourceMac source destination 89 hopLimit x : Outcome ε _) =
          ospfFacts sourceMac (.v6 source) "OSPFv3" Ospf.parseV3 x := by
      intro x hx
      rw [decodeTransport6, if_neg (by decide), if_pos rfl, if_neg hx]
      rfl
    rw [hopen]
    by_cases hnil : upper = []
    · subst hnil
      refine iff_of_false (not_determined (a := []) (b := [0]) ?_) fun h => h (.inl rfl)
      rw [List.append_nil, List.nil_append, hlong [0] (List.cons_ne_nil _ _), decodeTransport6, if_neg (by decide),
        if_pos rfl, if_pos rfl]
      intro hsame
      obtain ⟨fact, -, hfact⟩ := map_eq_ok hsame.symm
      cases hfact
    · rw [or_iff_right hnil, ← ospf_determined_iff (ε := ε) sourceMac (.v6 source) "OSPFv3"
        (fun packet more h => parseV3_append h more) (fun packet p h => ospfWhole_of_parseV3 h)
        (fun packet => (Ospf.safe_parseV3 packet).ne_panic) upper]
      exact determined_congr fun more => hlong _ (List.append_ne_nil_of_left_ne_nil hnil _)
  by_cases hicmp : nextHeader = 58
  · subst hicmp
    have hopen : Transport6Open source hopLimit 58 upper ↔ MessageOpen source hopLimit upper := by
      constructor
      · rintro (⟨h, -⟩ | ⟨h, -⟩ | ⟨-, h⟩)
        · exact absurd h (by decide)
        · exact absurd h (by decide)
        · exact h
      · exact fun h => .inr (.inr ⟨rfl, h⟩)
    rw [hopen, ← message_determined_iff (ε := ε) sourceMac source destination hopLimit hmax]
    refine determined_congr fun more => ?_
    rw [decodeTransport6, if_neg (by decide), if_neg (by decide), if_pos rfl]
  · refine iff_of_true (determined_of_forall (b := .ok []) fun more => ?_) ?_
    · rw [decodeTransport6, if_neg hudp, if_neg hospf, if_neg hicmp]
    · rintro (⟨h, -⟩ | ⟨h, -⟩ | ⟨h, -⟩)
      · exact hudp h
      · exact hospf h
      · exact hicmp h

end Transport6

/-! ## Datagrams -/

/-- Where a datagram states its end: where its UDP datagram does, if that lies inside it. -/
def statedEnd (upperAt : Nat) (protocol : UInt8) (total : Nat) (payload : Bytes) : Nat :=
  let udpEnd := upperAt + (word (payload.getD (upperAt + 4) 0) (payload.getD (upperAt + 5) 0)).toNat
  if protocol = 17 ∧ upperAt + 8 ≤ udpEnd ∧ udpEnd ≤ total then udpEnd else total

theorem statedEnd_le (upperAt : Nat) (protocol : UInt8) (total : Nat) (payload : Bytes) :
    statedEnd upperAt protocol total payload ≤ total := by
  unfold statedEnd
  dsimp only
  split
  case isTrue h => exact h.2.2
  case isFalse => exact Nat.le_refl _

theorem le_statedEnd {upperAt total : Nat} (h : upperAt ≤ total) (protocol : UInt8) (payload : Bytes) :
    upperAt ≤ statedEnd upperAt protocol total payload := by
  unfold statedEnd
  dsimp only
  split
  · exact Nat.le_add_right _ _
  · exact h

/-- The length an IPv4 packet states. -/
def totalLength (payload : Bytes) : Nat := (word (payload.getD 2 0) (payload.getD 3 0)).toNat

/-- The length an IPv6 packet states, with its header. -/
def totalLength6 (payload : Bytes) : Nat := 40 + (word (payload.getD 4 0) (payload.getD 5 0)).toNat

/-- The payload starts with a whole IPv4 datagram. -/
def Whole4 (payload : Bytes) : Prop :=
  20 ≤ headerLen payload ∧ headerLen payload ≤ totalLength payload ∧ totalLength payload ≤ payload.length

/-- The payload starts with a whole IPv6 datagram. -/
def Whole6 (payload : Bytes) : Prop := totalLength6 payload ≤ payload.length

instance (payload : Bytes) : Decidable (Whole4 payload) := inferInstanceAs (Decidable (_ ∧ _))

instance (payload : Bytes) : Decidable (Whole6 payload) := inferInstanceAs (Decidable (_ ≤ _))

/-- The datagram of a payload, up to the end it states. -/
def datagramOf (ethertype : UInt16) (payload : Bytes) : Option Bytes :=
  if ethertype = 0x0800 ∧ Whole4 payload then
    some (payload.take (statedEnd (headerLen payload) (payload.getD 9 0) (totalLength payload) payload))
  else if ethertype = 0x86DD ∧ Whole6 payload then
    some (payload.take (statedEnd 40 (payload.getD 6 0) (totalLength6 payload) payload))
  else none

section Cut

variable {payload : Bytes} {stop : Nat}

theorem getD_take_append {k : Nat} (hk : k < stop) (hstop : stop ≤ payload.length) (more : Bytes) :
    (payload.take stop ++ more).getD k 0 = payload.getD k 0 := by
  have hlen : (payload.take stop).length = stop := List.length_take_of_le hstop
  rw [List.getD_append _ _ _ _ (by omega), List.getD_eq_getElem _ _ (by omega), List.getD_eq_getElem _ _ (by omega),
    List.getElem_take]

theorem range_take_append {k n : Nat} (hk : k + n ≤ stop) (hstop : stop ≤ payload.length) (more : Bytes) :
    ((payload.take stop ++ more).drop k).take n = (payload.drop k).take n := by
  have hlen : (payload.take stop).length = stop := List.length_take_of_le hstop
  rw [List.drop_append_of_le_length (by omega), List.take_append_of_le_length (by rw [List.length_drop]; omega),
    List.drop_take, List.take_take, Nat.min_eq_left (by omega)]

/-- The datagram is decoded as its upper-layer message. -/
theorem decodeIpv4_cut (sourceMac : Text) (h : Whole4 payload) (hle : headerLen payload ≤ stop)
    (hstop : stop ≤ payload.length) (more : Bytes) :
    (decodeIpv4 sourceMac (payload.take stop ++ more) : Outcome ε _) =
      decodeTransport sourceMac (ipv4Source payload) (payload.getD 9 0)
        ((payload.take stop).drop (headerLen payload) ++ more) := by
  obtain ⟨htwenty, -, -⟩ := h
  have hlen : (payload.take stop).length = stop := List.length_take_of_le hstop
  have hheader : headerLen (payload.take stop ++ more) = headerLen payload := by
    unfold headerLen
    rw [getD_take_append (by omega) hstop]
  have hsource : ipv4Source (payload.take stop ++ more) = ipv4Source payload := by
    unfold ipv4Source
    rw [range_take_append (by omega) hstop]
  have hhas : HasHeader (payload.take stop ++ more) := by
    unfold HasHeader
    rw [hheader, List.length_append, hlen]
    omega
  rw [decodeIpv4_eq, if_pos hhas, hheader, hsource, getD_take_append (by omega) hstop,
    List.drop_append_of_le_length (by omega)]

theorem decodeIpv6_cut (sourceMac : Text) (hle : 40 ≤ stop) (hstop : stop ≤ payload.length) (more : Bytes) :
    (decodeIpv6 sourceMac (payload.take stop ++ more) : Outcome ε _) =
      decodeTransport6 sourceMac (ipv6Source payload) (ipv6Destination payload) (payload.getD 6 0) (payload.getD 7 0)
        ((payload.take stop).drop 40 ++ more) := by
  have hlen : (payload.take stop).length = stop := List.length_take_of_le hstop
  have hsource : ipv6Source (payload.take stop ++ more) = ipv6Source payload := by
    unfold ipv6Source
    rw [range_take_append (by omega) hstop]
  have hdestination : ipv6Destination (payload.take stop ++ more) = ipv6Destination payload := by
    unfold ipv6Destination
    rw [range_take_append (by omega) hstop]
  rw [decodeIpv6_eq, if_pos (by rw [List.length_append]; omega), hsource, hdestination,
    getD_take_append (by omega) hstop, getD_take_append (by omega) hstop, List.drop_append_of_le_length (by omega)]

end Cut

/-! ## Frames -/

theorem withoutJoin_of_payload {more : List FrameFact} (h : OfPayload more) : withoutJoin more = more := by
  unfold withoutJoin
  rw [List.filter_eq_self]
  intro fact hfact
  obtain hplain | hdhcp := h fact hfact
  · cases fact <;> first | rfl | cases hplain
  · cases fact <;> first | rfl | cases hdhcp

/-- The facts of a frame tell those of its payload. -/
theorem ofPayload_of_join_eq {ids : List UInt16} {a b : List FrameFact} (ha : OfPayload a) (hb : OfPayload b)
    (h : joinTaggedPrefix (ids.map .vlan ++ a) = joinTaggedPrefix (ids.map .vlan ++ b)) : a = b := by
  have hwithout := congrArg withoutJoin h
  rw [withoutJoin_joinTaggedPrefix, withoutJoin_joinTaggedPrefix, withoutJoin_append, withoutJoin_append,
    withoutJoin_of_payload ha, withoutJoin_of_payload hb] at hwithout
  exact List.append_cancel_left hwithout

/-- The bytes of a frame in front of its payload. -/
def frontOf (frame payload : Bytes) : Bytes := frame.take (frame.length - payload.length)

/-- The facts of a frame do not depend on what stands behind the end its datagram states. -/
def PaddingIgnored (frame : Bytes) : Prop :=
  ∀ ethertype payload datagram, (untag (frame.drop 12)).2 = some (ethertype, payload) →
    datagramOf ethertype payload = some datagram →
      Determined (decodeFrame : Bytes → Outcome Empty _) (frontOf frame payload ++ datagram)

/-- The frame holds a datagram, and what follows its upper-layer message counts. -/
def ReadsPadding (frame : Bytes) : Prop :=
  ∃ ethertype payload datagram, (untag (frame.drop 12)).2 = some (ethertype, payload) ∧
    datagramOf ethertype payload = some datagram ∧
      ((ethertype = 0x0800 ∧ TransportOpen (payload.getD 9 0) (datagram.drop (headerLen payload))) ∨
        (ethertype = 0x86DD ∧ Transport6Open (ipv6Source payload) (payload.getD 7 0)
          (payload.getD 6 0) (datagram.drop 40)))

/-- A frame is read the same whatever follows exactly if its payload is. -/
theorem frame_determined_iff {frame payload datagram : Bytes} {ethertype : UInt16}
    (h : (untag (frame.drop 12)).2 = some (ethertype, payload)) (htyped : ¬ ethertype ≤ max8023Length)
    (hinner : ∀ frame' rest, (decodeInner frame' (senderMac frame) ethertype rest : Outcome Empty _) =
      decodeInner frame (senderMac frame) ethertype rest) :
    Determined (decodeFrame : Bytes → Outcome Empty _) (frontOf frame payload ++ datagram) ↔
      Determined (decodeInner frame (senderMac frame) ethertype : Bytes → Outcome Empty _) datagram := by
  obtain ⟨front, hsplit, htwo, huntag⟩ := untag_front h
  obtain ⟨ids, hids⟩ := untag_facts (frame.drop 12)
  have hdrop : frame.length - 12 = front.length + payload.length := by
    rw [← List.length_drop, hsplit, List.length_append]
  have htwelve : (frame.take 12).length = 12 := List.length_take_of_le (by omega)
  have hfront : frontOf frame payload = frame.take 12 ++ front := by
    unfold frontOf
    rw [show frame.length - payload.length = 12 + front.length by omega, List.take_add, hsplit, List.take_left]
  have hfacts : ∀ rest, (decodeFrame (frontOf frame payload ++ rest) : Outcome Empty _) =
      (fun more => joinTaggedPrefix (ids.map .vlan ++ more)) <$>
        decodeInner frame (senderMac frame) ethertype rest := by
    intro rest
    have hbehind : (frontOf frame payload ++ rest).drop 12 = front ++ rest := by
      rw [hfront, List.append_assoc, List.drop_append_of_le_length (by omega), List.drop_eq_nil_of_le (by omega),
        List.nil_append]
    have hmac : senderMac (frontOf frame payload ++ rest) = senderMac frame := by
      unfold senderMac
      rw [hfront, List.append_assoc, range_take_append (by omega) (by omega)]
    rw [decodeFrame_eq (by rw [hfront, List.length_append, List.length_append, htwelve]; omega), hbehind, huntag, hmac,
      hids]
    simp only [decodeBehind, joinBehind, if_neg htyped]
    rw [hinner]
  refine determined_iff (k := fun x => (fun more => joinTaggedPrefix (ids.map .vlan ++ more)) <$> x)
    (fun more => by rw [List.append_assoc, hfacts]) fun a b hsame => ?_
  cases ha : (decodeInner frame (senderMac frame) ethertype (datagram ++ a) : Outcome Empty _) with
  | err e => exact e.elim
  | panic =>
    cases hb : (decodeInner frame (senderMac frame) ethertype (datagram ++ b) : Outcome Empty _) with
    | err e => exact e.elim
    | panic => rfl
    | ok facts =>
      rw [ha, hb] at hsame
      cases hsame
  | ok facts =>
    cases hb : (decodeInner frame (senderMac frame) ethertype (datagram ++ b) : Outcome Empty _) with
    | err e => exact e.elim
    | panic =>
      rw [ha, hb] at hsame
      cases hsame
    | ok facts' =>
      rw [ha, hb] at hsame
      exact congrArg Outcome.ok
        (ofPayload_of_join_eq (decodeInner_networks ha).1 (decodeInner_networks hb).1 (Outcome.ok.inj hsame))

/-- **Which datagrams are read the same whatever follows.** -/
theorem datagram_determined_iff {frame payload datagram : Bytes} {ethertype : UInt16}
    (h : (untag (frame.drop 12)).2 = some (ethertype, payload))
    (hdatagram : datagramOf ethertype payload = some datagram) :
    Determined (decodeFrame : Bytes → Outcome Empty _) (frontOf frame payload ++ datagram) ↔
      ¬ ((ethertype = 0x0800 ∧ TransportOpen (payload.getD 9 0) (datagram.drop (headerLen payload))) ∨
        (ethertype = 0x86DD ∧ Transport6Open (ipv6Source payload) (payload.getD 7 0)
          (payload.getD 6 0) (datagram.drop 40))) := by
  unfold datagramOf at hdatagram
  split at hdatagram
  case isTrue hfour =>
    obtain ⟨rfl, hwhole⟩ := hfour
    obtain rfl := Option.some.inj hdatagram
    have hle := le_statedEnd hwhole.2.1 (payload.getD 9 0) payload
    have hstop := Nat.le_trans (statedEnd_le (headerLen payload) (payload.getD 9 0) (totalLength payload) payload)
      hwhole.2.2
    have hopen : ∀ {p q : Prop}, ((0x0800 : UInt16) = 0x0800 ∧ p) ∨ ((0x0800 : UInt16) = 0x86DD ∧ q) ↔ p := by simp
    rw [frame_determined_iff h (by decide) fun _ _ => rfl, hopen,
      ← transport_determined_iff (ε := Empty) (senderMac frame) (ipv4Source payload)]
    exact determined_congr fun more => decodeIpv4_cut (senderMac frame) hwhole hle hstop more
  case isFalse =>
    split at hdatagram
    case isFalse => cases hdatagram
    case isTrue hsix =>
      obtain ⟨rfl, hwhole⟩ := hsix
      obtain rfl := Option.some.inj hdatagram
      have hforty : 40 ≤ totalLength6 payload := Nat.le_add_right _ _
      have hmax : totalLength6 payload ≤ 40 + 65535 :=
        Nat.add_le_add_left (Nat.le_of_lt_succ (word (payload.getD 4 0) (payload.getD 5 0)).toNat_lt) 40
      have hle := le_statedEnd hforty (payload.getD 6 0) payload
      have hend := statedEnd_le 40 (payload.getD 6 0) (totalLength6 payload) payload
      have hstop := Nat.le_trans hend hwhole
      have hopen : ∀ {p q : Prop}, ((0x86DD : UInt16) = 0x0800 ∧ p) ∨ ((0x86DD : UInt16) = 0x86DD ∧ q) ↔ q := by simp
      rw [frame_determined_iff h (by decide) fun _ _ => rfl, hopen,
        ← transport6_determined_iff (ε := Empty) (senderMac frame) (ipv6Source payload) (ipv6Destination payload)
          (payload.getD 7 0) (payload.getD 6 0) (by rw [List.length_drop, List.length_take]; omega)]
      exact determined_congr fun more => decodeIpv6_cut (senderMac frame) hle hstop more

/-- **Which frames do not read their padding.** -/
theorem padding_ignored_iff (frame : Bytes) : PaddingIgnored frame ↔ ¬ ReadsPadding frame := by
  constructor
  · rintro hignored ⟨ethertype, payload, datagram, huntag, hdatagram, hopen⟩
    exact (datagram_determined_iff huntag hdatagram).mp (hignored ethertype payload datagram huntag hdatagram) hopen
  · intro hclosed ethertype payload datagram huntag hdatagram
    exact (datagram_determined_iff huntag hdatagram).mpr fun hopen =>
      hclosed ⟨ethertype, payload, datagram, huntag, hdatagram, hopen⟩

/-- A RIPv2 response that advertises `10.0.0.0/8`, in a frame that ends with it. -/
def ripFrame : Bytes :=
  [0x01, 0x00, 0x5e, 0, 0, 9, 2, 0, 0, 0, 0, 1, 8, 0] ++
    [0x45, 0, 0, 52, 0, 0, 0, 0, 1, 17, 0, 0, 10, 0, 0, 1, 224, 0, 0, 9] ++ [2, 8, 2, 8, 0, 32, 0, 0] ++ [2, 2, 0, 0] ++
      [0, 2, 0, 0, 10, 0, 0, 0, 255, 0, 0, 0, 0, 0, 0, 0, 0, 0, 0, 1]

/-- With a frame check sequence behind it the response is rejected. -/
theorem rip_with_fcs_rejected : ¬ PaddingIgnored ripFrame := by
  intro hignored
  have hpadded : (decodeFrame (ripFrame ++ [0xde, 0xad, 0xbe, 0xef]) : Outcome Empty _) =
      .ok [.routingUpdateRejected "02:00:00:00:00:01" "RIPv2"] := by decide
  have hplain : (decodeFrame ripFrame : Outcome Empty _) =
      .ok [.routingUpdate "02:00:00:00:00:01" (.v4 (.new 10 0 0 1)) "RIPv2"
        [(.v4 (.new 10 0 0 0) 8, none, 1, 0, [0, 2, 0, 0, 10, 0, 0, 0, 255, 0, 0, 0, 0, 0, 0, 0, 0, 0, 0, 1])] []] := by
    decide
  have hsame := hignored 0x0800 (ripFrame.drop 14) (ripFrame.drop 14) (by decide) (by decide) [0xde, 0xad, 0xbe, 0xef]
  have hwhole : frontOf ripFrame (ripFrame.drop 14) ++ ripFrame.drop 14 = ripFrame := by decide
  rw [hwhole, hpadded, hplain] at hsame
  cases hsame

end Idnx
