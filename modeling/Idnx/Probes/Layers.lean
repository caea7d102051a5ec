import Idnx.Probes.VlanTags
import Mathlib.Data.List.GetD

/-!
# The passive decoder, layer by layer

An IPv4 or IPv6 packet is a header and the bytes behind it. `decodeIpv4` and `decodeIpv6` read a few fields of the
header and hand over all bytes behind it (`decodeIpv4_eq`, `decodeIpv6_eq`): of the lengths the packet states, the
decoders heed only that of an IPv4 header.
-/

namespace Idnx

open Outcome

variable {ε : Type}

section Reading

variable {bytes : Bytes} {k : Nat}

theorem sliceFrom_eq (h : k ≤ bytes.length) : (sliceFrom bytes k : Outcome ε _) = .ok (bytes.drop k) := by
  unfold sliceFrom slice
  rw [if_pos ⟨h, Nat.le_refl _⟩, List.take_of_length_le (Nat.le_of_eq List.length_drop)]

theorem index_eq (h : k < bytes.length) : (index bytes k : Outcome ε _) = .ok (bytes.getD k 0) := by
  unfold index
  rw [List.getElem?_eq_getElem h, List.getD_eq_getElem _ _ h]

theorem ipv4At_eq (h : k + 4 ≤ bytes.length) :
    (ipv4At bytes k : Outcome ε _) = .ok (BitVec.ofNat 32 (beNat ((bytes.drop k).take 4))) := by
  unfold ipv4At slice
  rw [if_pos ⟨by omega, h⟩, Nat.add_sub_cancel_left]
  rfl

theorem ipv6At_eq (h : k + 16 ≤ bytes.length) :
    (ipv6At bytes k : Outcome ε _) = .ok (BitVec.ofNat 128 (beNat ((bytes.drop k).take 16))) := by
  unfold ipv6At slice
  rw [if_pos ⟨by omega, h⟩, Nat.add_sub_cancel_left]
  rfl

theorem take_two (h : k + 2 ≤ bytes.length) : (bytes.drop k).take 2 = [bytes.getD k 0, bytes.getD (k + 1) 0] := by
  rw [List.drop_eq_getElem_cons (by omega), List.drop_eq_getElem_cons (by omega), List.getD_eq_getElem _ _ (by omega),
    List.getD_eq_getElem _ _ (by omega)]
  rfl

theorem readU16_eq (h : k + 2 ≤ bytes.length) :
    readU16 bytes k = some (word (bytes.getD k 0) (bytes.getD (k + 1) 0)) := by
  unfold readU16 getRange
  rw [if_pos ⟨by omega, h⟩, Nat.add_sub_cancel_left, take_two h]
  rfl

theorem slice_eq {n : Nat} (h : k + n ≤ bytes.length) :
    (slice bytes k (k + n) : Outcome ε _) = .ok ((bytes.drop k).take n) := by
  unfold slice
  rw [if_pos ⟨by omega, h⟩, Nat.add_sub_cancel_left]

theorem u16At_eq (h : k + 2 ≤ bytes.length) :
    (u16At bytes k : Outcome ε _) = .ok (word (bytes.getD k 0) (bytes.getD (k + 1) 0)) := by
  unfold u16At
  rw [slice_eq h, take_two h]
  rfl

theorem u32At_eq (h : k + 4 ≤ bytes.length) :
    (u32At bytes k : Outcome ε _) = .ok (UInt32.ofNat (beNat ((bytes.drop k).take 4))) := by
  unfold u32At
  rw [slice_eq h]
  rfl

theorem word_inj {hi lo hi' lo' : UInt8} : word hi lo = word hi' lo' ↔ hi = hi' ∧ lo = lo' := by
  constructor
  · intro h
    have hvalue := congrArg UInt16.toNat h
    rw [toNat_word, toNat_word] at hvalue
    have := lo.toNat_lt
    have := lo'.toNat_lt
    exact ⟨UInt8.toNat_inj.mp (by omega), UInt8.toNat_inj.mp (by omega)⟩
  · rintro ⟨rfl, rfl⟩
    rfl

end Reading

/-! ### Reads within the first bytes -/

section Within

variable {bytes : Bytes} {k : Nat} (more : Bytes)

theorem slice_append {stop : Nat} (h : stop ≤ bytes.length) :
    (slice (bytes ++ more) k stop : Outcome ε _) = slice bytes k stop := by
  unfold slice
  by_cases hk : k ≤ stop
  · rw [if_pos ⟨hk, by rw [List.length_append]; omega⟩, if_pos ⟨hk, h⟩, List.drop_append_of_le_length (by omega),
      List.take_append_of_le_length (by rw [List.length_drop]; omega)]
  · rw [if_neg fun h => hk h.1, if_neg fun h => hk h.1]

theorem index_append (h : k < bytes.length) : (index (bytes ++ more) k : Outcome ε _) = index bytes k := by
  unfold index
  rw [List.getElem?_append_left h]

theorem u16At_append (h : k + 2 ≤ bytes.length) : (u16At (bytes ++ more) k : Outcome ε _) = u16At bytes k := by
  unfold u16At
  rw [slice_append more h]

theorem ipv4At_append (h : k + 4 ≤ bytes.length) : (ipv4At (bytes ++ more) k : Outcome ε _) = ipv4At bytes k := by
  unfold ipv4At
  rw [slice_append more h]

end Within

/-- Four bytes as an address. -/
def addressOfBytes (four : Bytes) : Ipv4Addr := BitVec.ofNat 32 (beNat four)

/-! ## IPv4 -/

/-- The length of its header an IPv4 packet states, in bytes. -/
def headerLen (payload : Bytes) : Nat := (payload.getD 0 0 &&& 0x0F).toNat * 4

/-- Who sent an IPv4 packet. -/
def ipv4Source (payload : Bytes) : Ipv4Addr := BitVec.ofNat 32 (beNat ((payload.drop 12).take 4))

/-- What a UDP datagram over IPv4 gives, by its ports. -/
def decodeUdp (sourceMac : Text) (source : Ipv4Addr) (udp : Bytes) : Outcome ε (List FrameFact) :=
  let srcPort := word (udp.getD 0 0) (udp.getD 1 0)
  let dstPort := word (udp.getD 2 0) (udp.getD 3 0)
  if (srcPort = 67 ∧ dstPort = 68) ∨ (srcPort = 68 ∧ dstPort = 67) ∨ (srcPort = 67 ∧ dstPort = 67) then
    Option.toList <$> (decodeDhcp sourceMac (udp.drop 8)).toOption
  else if srcPort = 520 ∨ dstPort = 520 then (fun fact => [fact]) <$> classifyRip sourceMac source (udp.drop 8)
  else if srcPort = 5678 ∨ dstPort = 5678 then
    (fun neighbor => neighbor.toList.map .mndp) <$> (parseMndpPacket (udp.drop 8)).toOption
  else .ok []

/-- What the bytes behind an IPv4 header give. -/
def decodeTransport (sourceMac : Text) (source : Ipv4Addr) (protocol : UInt8) (upper : Bytes) :
    Outcome ε (List FrameFact) :=
  if upper.length < 8 then .ok []
  else if protocol = 89 then
    (fun fact => [fact]) <$> ospfFact sourceMac (.v4 source) "OSPFv2" (Ospf.parseV2 upper)
  else if protocol = 17 then decodeUdp sourceMac source upper
  else .ok []

/-- The packet has a header of at least twenty bytes. -/
def HasHeader (payload : Bytes) : Prop := 20 ≤ headerLen payload ∧ headerLen payload ≤ payload.length

instance (payload : Bytes) : Decidable (HasHeader payload) := inferInstanceAs (Decidable (_ ∧ _))

theorem decodeIpv4_eq (sourceMac : Text) (payload : Bytes) :
    (decodeIpv4 sourceMac payload : Outcome ε _) =
      if HasHeader payload then
        decodeTransport sourceMac (ipv4Source payload) (payload.getD 9 0) (payload.drop (headerLen payload))
      else .ok [] := by
  have hupper : (payload.drop (headerLen payload)).length = payload.length - headerLen payload := List.length_drop
  have hhas : HasHeader payload ↔ 20 ≤ headerLen payload ∧ headerLen payload ≤ payload.length := Iff.rfl
  unfold decodeIpv4 decodeTransport
  by_cases hlen : payload.length < 20
  · rw [if_pos hlen, if_neg (by rw [hhas]; omega)]
    rfl
  rw [if_neg hlen, index_eq (by omega), ok_bind]
  show (if headerLen payload < 20 ∨ payload.length < headerLen payload + 8 then _ else _) = _
  by_cases hheader : headerLen payload < 20 ∨ payload.length < headerLen payload + 8
  · rw [if_pos hheader]
    by_cases hsome : HasHeader payload
    · have hwhole := hhas.mp hsome
      rw [if_pos hsome, if_pos (by omega)]
      rfl
    · rw [if_neg hsome]
      rfl
  rw [if_neg hheader, if_pos (hhas.mpr (by omega)), if_neg (by omega), index_eq (by omega), ok_bind,
    ipv4At_eq (by omega), ok_bind]
  show (sliceFrom payload (headerLen payload) >>= _) = _
  rw [sliceFrom_eq (by omega), ok_bind]
  split
  · rfl
  by_cases hudp : payload.getD 9 0 = 17
  · rw [if_neg (not_not.mpr hudp), if_pos hudp, readU16_eq (by omega), readU16_eq (by omega)]
    dsimp only
    rw [if_neg (by omega), sliceFrom_eq (by omega), ok_bind]
    unfold decodeUdp
    dsimp only
    split
    · rfl
    split
    · rfl
    split
    · rfl
    · rfl
  · rw [if_pos hudp, if_neg hudp]
    rfl

/-! ## IPv6 -/

def ipv6Source (payload : Bytes) : Ipv6Addr := BitVec.ofNat 128 (beNat ((payload.drop 8).take 16))

def ipv6Destination (payload : Bytes) : Ipv6Addr := BitVec.ofNat 128 (beNat ((payload.drop 24).take 16))

/-- The fact of a router advertisement, with what it discloses if it is valid. -/
def advertisementFact (sourceMac : Text) (source : Ipv6Addr) (parsed : Option Ra.RouterAdvertisement) : FrameFact :=
  .routerAdvertisement sourceMac (some source)
    (parsed.toList.flatMap fun a => a.onLinkPrefixes.map fun p => (p.net.addr, p.net.prefixLen.val))
    (parsed.toList.flatMap fun a => a.usableRoutes.map fun r => (r.net.addr, r.net.prefixLen.val, r.lifetime))

/-- What an ICMPv6 message gives, by its type. -/
def decodeMessage6 (sourceMac : Text) (source destination : Ipv6Addr) (hopLimit : UInt8) (icmp : Bytes) :
    Outcome ε (List FrameFact) :=
  let type := icmp.getD 0 0
  if icmp.length < 4 then .ok []
  else if type = 134 then
    (fun parsed => [advertisementFact sourceMac source parsed]) <$>
      (Ra.parseAdvertisement icmp source destination hopLimit).toOption
  else if type = 135 then .ok (if source.isUnspecified then [] else [.neighbor sourceMac source false])
  else if type = 136 then
    .ok (if icmp.length < 24 then []
      else [.neighbor sourceMac (BitVec.ofNat 128 (beNat ((icmp.drop 8).take 16))) (icmp.getD 4 0 &&& 0x80 ≠ 0)])
  else .ok []

/-- What the bytes behind an IPv6 header give. -/
def decodeTransport6 (sourceMac : Text) (source destination : Ipv6Addr) (nextHeader hopLimit : UInt8) (upper : Bytes) :
    Outcome ε (List FrameFact) :=
  if nextHeader = 17 then
    if 8 ≤ upper.length ∧ (word (upper.getD 0 0) (upper.getD 1 0) = 521 ∨ word (upper.getD 2 0) (upper.getD 3 0) = 521)
    then (fun fact => [fact.getD (.routingUpdateRejected sourceMac "RIPng")]) <$>
      (decodeRipng sourceMac source (upper.drop 8)).toOption
    else .ok []
  else if nextHeader = 89 then
    if upper = [] then .ok []
    else (fun fact => [fact]) <$> ospfFact sourceMac (.v6 source) "OSPFv3" (Ospf.parseV3 upper)
  else if nextHeader = 58 then decodeMessage6 sourceMac source destination hopLimit upper
  else .ok []

theorem decodeIcmpv6_eq (sourceMac : Text) {payload : Bytes} (hlen : 40 ≤ payload.length) (source : Ipv6Addr) :
    (decodeIcmpv6 sourceMac payload source : Outcome ε _) =
      decodeMessage6 sourceMac source (ipv6Destination payload) (payload.getD 7 0) (payload.drop 40) := by
  unfold decodeIcmpv6 decodeMessage6
  rw [sliceFrom_eq hlen, ok_bind]
  dsimp only
  by_cases hshort : (payload.drop 40).length < 4
  · rw [if_pos hshort, if_pos hshort]
    rfl
  rw [if_neg hshort, if_neg hshort, index_eq (by omega), ok_bind]
  split
  · rw [ipv6At_eq (by omega), ok_bind, index_eq (by omega), ok_bind]
    rfl
  split
  · rfl
  split
  · split
    · rfl
    · rw [ipv6At_eq (by omega), ok_bind, index_eq (by omega), ok_bind]
      rfl
  · rfl

theorem decodeIpv6_eq (sourceMac : Text) (payload : Bytes) :
    (decodeIpv6 sourceMac payload : Outcome ε _) =
      if 40 ≤ payload.length then
        decodeTransport6 sourceMac (ipv6Source payload) (ipv6Destination payload) (payload.getD 6 0) (payload.getD 7 0)
          (payload.drop 40)
      else .ok [] := by
  have hupper : (payload.drop 40).length = payload.length - 40 := List.length_drop
  unfold decodeIpv6 decodeTransport6
  by_cases hlen : payload.length < 40
  · rw [if_pos hlen, if_neg (by omega)]
    rfl
  rw [if_neg hlen, if_pos (by omega), ipv6At_eq (by omega), ok_bind, index_eq (by omega), ok_bind]
  by_cases hudp : payload.getD 6 0 = 17
  · rw [hudp, if_pos rfl]
    have hrest : (decodeIpv6Rest sourceMac payload (ipv6Source payload) 17 : Outcome ε _) = .ok [] := by
      rw [decodeIpv6Rest, if_neg fun h => absurd h.1 (by decide), if_pos (by decide)]
    by_cases hlong : 48 ≤ payload.length
    · rw [if_pos ⟨rfl, hlong⟩, sliceFrom_eq (by omega), ok_bind, readU16_eq (by omega), readU16_eq (by omega)]
      dsimp only
      by_cases hports : word ((payload.drop 40).getD 0 0) ((payload.drop 40).getD 1 0) = 521 ∨
          word ((payload.drop 40).getD 2 0) ((payload.drop 40).getD 3 0) = 521
      · rw [if_pos hports, if_pos ⟨by omega, hports⟩, sliceFrom_eq (by omega), ok_bind]
        rfl
      · rw [if_neg hports, if_neg fun h => hports h.2]
        exact hrest
    · rw [if_neg fun h => hlong h.2, if_neg fun h => hlong (by omega)]
      exact hrest
  rw [if_neg fun h => hudp h.1, if_neg hudp]
  unfold decodeIpv6Rest
  by_cases hospf : payload.getD 6 0 = 89
  · rw [hospf, if_pos rfl]
    by_cases hlong : 40 < payload.length
    · have hsome : payload.drop 40 ≠ [] := List.ne_nil_of_length_pos (by omega)
      rw [if_pos ⟨rfl, hlong⟩, if_neg hsome, sliceFrom_eq (by omega), ok_bind]
      rfl
    · rw [if_neg fun h => hlong h.2, if_pos (by decide), if_pos (List.drop_eq_nil_of_le (by omega))]
  rw [if_neg fun h => hospf h.1, if_neg hospf]
  by_cases hicmp : payload.getD 6 0 = 58
  · rw [if_neg (not_not.mpr hicmp), if_pos hicmp]
    exact decodeIcmpv6_eq sourceMac (by omega) _
  · rw [if_pos hicmp, if_neg hicmp]

end Idnx
