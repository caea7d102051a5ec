import Idnx.Probes.Layers
import Idnx.Probes.SpanningTree

/-!
# Where the facts of a frame come from

A VLAN is named by a tag or by the originating-VLAN TLV of a PVST+ frame, an assignment only by a DHCP reply over
IPv4, and a join only by `joinTaggedPrefix`; every other decoder gives facts of other kinds (`Plain`).
-/

namespace Idnx

open Outcome

variable {ε : Type}

/-! ## The numbers of VLANs -/

/-- The number is a VLAN's. -/
def ValidVlan (id : UInt16) : Prop := 1 ≤ id ∧ id ≤ 4094

theorem validVlan_iff (id : UInt16) : ValidVlan id ↔ 1 ≤ id.toNat ∧ id.toNat ≤ 4094 := by
  unfold ValidVlan
  rw [UInt16.le_iff_toNat_le, UInt16.le_iff_toNat_le]
  exact Iff.rfl

/-- Twelve bits that are neither all clear nor all set are a VLAN's number. -/
theorem validVlan_of_mask {tci : UInt16} (hzero : tci &&& 0x0FFF ≠ 0) (htop : tci &&& 0x0FFF ≠ 0x0FFF) :
    ValidVlan (tci &&& 0x0FFF) := by
  have hmask : (tci &&& 0x0FFF).toNat = tci.toNat % 4096 := by
    rw [UInt16.toNat_and, show (0x0FFF : UInt16).toNat = 2 ^ 12 - 1 from rfl, Nat.and_two_pow_sub_one_eq_mod]
  have h₀ : (tci &&& 0x0FFF).toNat ≠ 0 := fun h => hzero (UInt16.toNat_inj.mp h)
  have h₁ : (tci &&& 0x0FFF).toNat ≠ 4095 := fun h => htop (UInt16.toNat_inj.mp h)
  rw [validVlan_iff]
  omega

/-- The VLANs of tags are valid, whatever the tags. -/
theorem valid_of_untag {bytes : Bytes} {id : UInt16} (h : FrameFact.vlan id ∈ (untag bytes).1) : ValidVlan id := by
  fun_induction untag bytes with
  | case1 hi lo htag hi' lo' inner ih =>
    obtain h | h := List.mem_append.mp h
    · unfold taggedVlan at h
      dsimp only at h
      split at h
      case isTrue hvalid =>
        obtain ⟨v, hv, heq⟩ := List.mem_map.mp h
        cases heq
        obtain rfl := Option.some.inj (Option.mem_toList.mp hv)
        exact validVlan_of_mask hvalid.1 hvalid.2
      case isFalse => cases h
    · exact ih h
  | case2 => cases h
  | case3 => cases h
  | case4 => cases h

/-! ## Facts of other kinds -/

/-- The fact neither names a VLAN nor an assignment. -/
def FrameFact.plain : FrameFact → Bool
  | .vlan _ | .vlanNetwork _ _ | .dhcp _ _ _ _ _ _ _ => false
  | _ => true

def AllPlain (facts : List FrameFact) : Prop := ∀ fact ∈ facts, fact.plain = true

theorem allPlain_nil : AllPlain [] := nofun

theorem allPlain_singleton {fact : FrameFact} (h : fact.plain = true) : AllPlain [fact] := by
  intro f hf
  rw [List.mem_singleton.mp hf]
  exact h

theorem allPlain_toList {found : Option FrameFact} (h : ∀ fact ∈ found, fact.plain = true) :
    AllPlain found.toList := fun fact hf => h fact (Option.mem_toList.mp hf)

theorem allPlain_map {α : Type} {f : α → FrameFact} (h : ∀ a, (f a).plain = true) (l : List α) :
    AllPlain (l.map f) := by
  intro fact hfact
  obtain ⟨a, -, rfl⟩ := List.mem_map.mp hfact
  exact h a

/-! ## Behind an LLC header -/

section Decoders

variable {sourceMac : Text}

theorem plain_decodeBpdu (body : Bytes) : Gives (fun fact => fact.plain = true) (decodeBpdu sourceMac body) := by
  unfold decodeBpdu
  iterate 10 refine gives_bind fun _ => ?_
  exact gives_ok rfl

/-- The VLANs of an LLC payload are those of a PVST+ frame. -/
theorem plain_decodeLlc {frame destination : Bytes} {dsap ssap control : UInt8} {rest : Bytes}
    (h : ¬ (dsap = 0xAA ∧ ssap = 0xAA ∧ destination = pvstMulticastMac)) :
    Gives AllPlain (decodeLlc frame destination sourceMac (dsap :: ssap :: control :: rest) : Outcome ε _) := by
  rw [decodeLlc_cons]
  split
  · refine gives_bind fun parsed => ?_
    cases parsed with
    | none => exact gives_ok (allPlain_singleton rfl)
    | some pdu => exact gives_ok (allPlain_singleton rfl)
  split
  · exact (plain_decodeBpdu rest).toOption.bind fun found hfound => gives_ok (allPlain_toList hfound)
  split
  · exact gives_bind fun found => gives_ok (allPlain_map (fun _ => rfl) _)
  · exact gives_ok allPlain_nil

/-! ## Behind an EtherType -/

theorem plain_decodeArp (payload : Bytes) : Gives (fun fact => fact.plain = true) (decodeArp payload) := by
  unfold decodeArp
  iterate 8 refine gives_bind fun _ => ?_
  exact gives_ok rfl

theorem plain_ospfFact (sender : IpAddr) (protocol : Text) (packet : Outcome Unit Ospf.OspfPacket) :
    Gives (fun fact => fact.plain = true) (ospfFact sourceMac sender protocol packet : Outcome ε _) := by
  unfold ospfFact
  refine gives_bind fun found => ?_
  cases found with
  | none => exact gives_ok rfl
  | some packet => exact gives_ok rfl

theorem plain_classifyRip (sender : Ipv4Addr) (body : Bytes) :
    Gives (fun fact => fact.plain = true) (classifyRip sourceMac sender body : Outcome ε _) := by
  have hupdate : Gives (fun fact => fact.plain = true) (decodeRipV2 sourceMac sender body) :=
    gives_bind fun entries => gives_bind fun _ => gives_ok rfl
  unfold classifyRip
  split
  · exact gives_ok rfl
  split
  · refine hupdate.toOption.bind fun found hfound => gives_ok ?_
    cases found with
    | none => rfl
    | some fact => exact hfound fact rfl
  · exact gives_ok rfl

theorem plain_decodeRipng (sender : Ipv6Addr) (body : Bytes) :
    Gives (fun fact => fact.plain = true) (decodeRipng sourceMac sender body) := by
  unfold decodeRipng
  iterate 10 refine gives_bind fun _ => ?_
  exact gives_ok rfl

theorem plain_decodeTransport6 (source destination : Ipv6Addr) (nextHeader hopLimit : UInt8) (upper : Bytes) :
    Gives AllPlain (decodeTransport6 sourceMac source destination nextHeader hopLimit upper : Outcome ε _) := by
  unfold decodeTransport6
  split
  · split
    · refine (plain_decodeRipng source _).toOption.map fun found hfound => allPlain_singleton ?_
      cases found with
      | none => rfl
      | some fact => exact hfound fact rfl
    · exact gives_ok allPlain_nil
  split
  · split
    · exact gives_ok allPlain_nil
    · exact (plain_ospfFact _ _ _).map fun fact hf => allPlain_singleton hf
  split
  · unfold decodeMessage6
    dsimp only
    split
    · exact gives_ok allPlain_nil
    split
    · exact gives_map (fun parsed => allPlain_singleton rfl) _
    split
    · refine gives_ok ?_
      split
      · exact allPlain_nil
      · exact allPlain_singleton rfl
    split
    · refine gives_ok ?_
      split
      · exact allPlain_nil
      · exact allPlain_singleton rfl
    · exact gives_ok allPlain_nil
  · exact gives_ok allPlain_nil

/-! ## DHCP -/

/-- The DHCP message of an IPv4 packet: behind the header, UDP between the ports of servers and clients. -/
def dhcpBody (payload : Bytes) : Option Bytes :=
  let udp := payload.drop (headerLen payload)
  let srcPort := word (udp.getD 0 0) (udp.getD 1 0)
  let dstPort := word (udp.getD 2 0) (udp.getD 3 0)
  if HasHeader payload ∧ payload.getD 9 0 = 17 ∧ 8 ≤ udp.length ∧
      ((srcPort = 67 ∧ dstPort = 68) ∨ (srcPort = 68 ∧ dstPort = 67) ∨ (srcPort = 67 ∧ dstPort = 67)) then
    some (udp.drop 8)
  else none

/-- A DHCP message gives an assignment, or nothing. -/
def FrameFact.isDhcp : FrameFact → Bool
  | .dhcp _ _ _ _ _ _ _ => true
  | _ => false

theorem isDhcp_decodeDhcp (body : Bytes) : Gives (fun fact => fact.isDhcp = true) (decodeDhcp sourceMac body) := by
  unfold decodeDhcp
  iterate 12 refine gives_bind fun _ => ?_
  exact gives_ok rfl

theorem decodeIpv4_of_dhcpBody {payload body : Bytes} (h : dhcpBody payload = some body) :
    (decodeIpv4 sourceMac payload : Outcome ε _) = Option.toList <$> (decodeDhcp sourceMac body).toOption := by
  unfold dhcpBody at h
  dsimp only at h
  split at h
  case isTrue hdhcp =>
    obtain ⟨hheader, hudp, hlen, hports⟩ := hdhcp
    obtain rfl := Option.some.inj h
    rw [decodeIpv4_eq, if_pos hheader, decodeTransport, if_neg (by omega), hudp, if_neg (by decide), if_pos rfl,
      decodeUdp, if_pos hports]
  case isFalse => cases h

theorem plain_decodeIpv4 {payload : Bytes} (h : dhcpBody payload = none) :
    Gives AllPlain (decodeIpv4 sourceMac payload : Outcome ε _) := by
  rw [decodeIpv4_eq]
  split
  case isFalse => exact gives_ok allPlain_nil
  case isTrue hheader =>
    unfold decodeTransport
    split
    case isTrue => exact gives_ok allPlain_nil
    case isFalse hlen =>
      split
      · exact (plain_ospfFact _ _ _).map fun fact hf => allPlain_singleton hf
      split
      case isFalse => exact gives_ok allPlain_nil
      case isTrue hudp =>
        unfold decodeUdp
        dsimp only
        split
        case isTrue hdhcp =>
          unfold dhcpBody at h
          rw [if_pos ⟨hheader, hudp, Nat.le_of_not_lt hlen, hdhcp⟩] at h
          cases h
        case isFalse =>
          split
          · exact (plain_classifyRip _ _).map fun fact hf => allPlain_singleton hf
          split
          · exact gives_map (fun found => allPlain_map (fun _ => rfl) _) _
          · exact gives_ok allPlain_nil

/-- What is decoded behind an EtherType is plain, but for a DHCP message. -/
theorem plain_decodeInner {frame : Bytes} {ethertype : UInt16} {payload : Bytes}
    (h : ethertype = 0x0800 → dhcpBody payload = none) :
    Gives AllPlain (decodeInner frame sourceMac ethertype payload : Outcome ε _) := by
  unfold decodeInner
  split
  case h_1 => exact (plain_decodeArp payload).toOption.bind fun found hfound => gives_ok (allPlain_toList hfound)
  case h_2 htype => exact plain_decodeIpv4 (h (UInt16.toNat_inj.mp htype))
  case h_3 =>
    rw [decodeIpv6_eq]
    split
    · exact plain_decodeTransport6 _ _ _ _ _
    · exact gives_ok allPlain_nil
  case h_4 => exact gives_bind fun found => gives_ok (allPlain_map (fun _ => rfl) _)
  case h_5 => exact gives_ok allPlain_nil

end Decoders

end Idnx
