import Idnx.Probes.InetRoute

/-!
# The index of a route, both ways

An index as RFC 4292 writes it (`RfcIndex`): each address behind its type and its length, a prefix length within the
address, the policy behind its length. `parseIndex` accepts exactly what such an index is written as, and reads it
back (`index_codec`).
-/

namespace Idnx

open Outcome

/-! ## Indices as they are written -/

/-- An address of an index; a zone is an interface of the polled device. -/
inductive RfcAddress where
  | unknown
  | ipv4 (address : Ipv4Addr)
  | ipv6 (address : Ipv6Addr)
  | ipv4z (address : Ipv4Addr) (zone : UInt32)
  | ipv6z (address : Ipv6Addr) (zone : UInt32)
  deriving DecidableEq, Repr

namespace RfcAddress

/-- The number of the address type. -/
def typeNumber : RfcAddress → UInt32
  | unknown => 0
  | ipv4 _ => 1
  | ipv6 _ => 2
  | ipv4z _ _ => 3
  | ipv6z _ _ => 4

def octets : RfcAddress → Bytes
  | unknown => []
  | ipv4 a => beBytes 4 a.toNat
  | ipv6 a => beBytes 16 a.toNat
  | ipv4z a zone => beBytes 4 a.toNat ++ beBytes 4 zone.toNat
  | ipv6z a zone => beBytes 16 a.toNat ++ beBytes 4 zone.toNat

/-- The size of the address in bits. -/
def bits : RfcAddress → Nat
  | unknown => 0
  | ipv4 _ | ipv4z _ _ => 32
  | ipv6 _ | ipv6z _ _ => 128

/-- Type, length and octets, one sub-identifier each. -/
def subids (a : RfcAddress) : List UInt32 :=
  a.typeNumber :: UInt32.ofNat a.octets.length :: a.octets.map UInt8.toUInt32

/-- The address as it is kept. -/
def toInet : RfcAddress → InetAddress
  | unknown => ⟨.unknown, none, none⟩
  | ipv4 a => ⟨.ipv4, some (.v4 a), none⟩
  | ipv6 a => ⟨.ipv6, some (.v6 a), none⟩
  | ipv4z a zone => ⟨.ipv4z, some (.v4 a), some zone⟩
  | ipv6z a zone => ⟨.ipv6z, some (.v6 a), some zone⟩

theorem toInet_inj {a b : RfcAddress} (h : a.toInet = b.toInet) : a = b := by
  cases a <;> cases b <;> simp_all [toInet]

end RfcAddress

/-- The index of a row. -/
structure RfcIndex where
  destination : RfcAddress
  prefixLen : Nat
  prefixLen_le : prefixLen ≤ destination.bits
  policy : Oid
  /-- A length is a sub-identifier. -/
  policy_lt : policy.length < 2 ^ 32
  nextHop : RfcAddress

namespace RfcIndex

def subids (r : RfcIndex) : List UInt32 :=
  r.destination.subids ++ [UInt32.ofNat r.prefixLen] ++ (UInt32.ofNat r.policy.length :: r.policy) ++ r.nextHop.subids

def toIndex (r : RfcIndex) : InetRouteIndex :=
  ⟨r.destination.toInet, UInt8.ofNat r.prefixLen, r.policy, r.nextHop.toInet⟩

end RfcIndex

/-! ## Octets and sub-identifiers -/

theorem octetOf_toUInt32 (b : UInt8) : octetOf b.toUInt32 = some b := by
  unfold octetOf
  rw [if_pos (by rw [UInt8.toNat_toUInt32]; exact b.toNat_lt)]
  simp

theorem octetOf_eq_some {subid : UInt32} {b : UInt8} : octetOf subid = some b ↔ subid = b.toUInt32 := by
  constructor
  · intro h
    unfold octetOf at h
    split at h
    case isTrue hlt =>
      obtain rfl := Option.some.inj h
      apply UInt32.toNat_inj.mp
      rw [UInt8.toNat_toUInt32, UInt32.toNat_toUInt8]
      omega
    case isFalse => cases h
  · rintro rfl
    exact octetOf_toUInt32 b

theorem mapM_octetOf {octets : List UInt32} {bytes : Bytes} :
    octets.mapM octetOf = some bytes ↔ octets = bytes.map UInt8.toUInt32 := by
  induction octets generalizing bytes with
  | nil => cases bytes <;> simp
  | cons subid octets ih =>
    rw [List.mapM_cons]
    cases bytes with
    | nil => simp [Option.bind_eq_some_iff]
    | cons b bytes => simp [Option.bind_eq_some_iff, octetOf_eq_some, ih]

/-! ## One address -/

theorem fromSubid_typeNumber (a : RfcAddress) :
    InetAddressType.fromSubid a.typeNumber = some a.toInet.family := by
  cases a <;> rfl

theorem length_octets (a : RfcAddress) : a.octets.length = a.toInet.family.addressLen := by
  cases a <;> simp [RfcAddress.octets, RfcAddress.toInet, InetAddressType.addressLen]

/-- What an address is written as is read as it. -/
theorem addressOf_octets (a : RfcAddress) :
    addressOf a.toInet.family a.octets = .ok (a.toInet.address, a.toInet.zone) := by
  cases a with
  | unknown => rfl
  | ipv4 a =>
    have haddress := ipv4At_of_holds (ε := Unit) (Holds.self (beBytes 4 a.toNat)) (length_beBytes _ _)
    rw [ofNat_beBytes (by decide)] at haddress
    simp only [RfcAddress.toInet, RfcAddress.octets, addressOf, haddress]
    rfl
  | ipv6 a =>
    have haddress := ipv6At_of_holds (ε := Unit) (Holds.self (beBytes 16 a.toNat)) (length_beBytes _ _)
    rw [ofNat_beBytes (by decide)] at haddress
    simp only [RfcAddress.toInet, RfcAddress.octets, addressOf, haddress]
    rfl
  | ipv4z a zone =>
    have hboth := Holds.self (beBytes 4 a.toNat ++ beBytes 4 zone.toNat)
    have haddress := ipv4At_of_holds (ε := Unit) hboth.left (length_beBytes _ _)
    have hzone := u32At_of_holds (ε := Unit) hboth.right (length_beBytes _ _)
    rw [ofNat_beBytes (by decide)] at haddress
    rw [u32OfNat_beBytes, length_beBytes, Nat.zero_add] at hzone
    simp only [RfcAddress.toInet, RfcAddress.octets, addressOf, haddress, hzone]
    rfl
  | ipv6z a zone =>
    have hboth := Holds.self (beBytes 16 a.toNat ++ beBytes 4 zone.toNat)
    have haddress := ipv6At_of_holds (ε := Unit) hboth.left (length_beBytes _ _)
    have hzone := u32At_of_holds (ε := Unit) hboth.right (length_beBytes _ _)
    rw [ofNat_beBytes (by decide)] at haddress
    rw [u32OfNat_beBytes, length_beBytes, Nat.zero_add] at hzone
    simp only [RfcAddress.toInet, RfcAddress.octets, addressOf, haddress, hzone]
    rfl

/-- Octets of the right number are those of an address. -/
theorem exists_octets {family : InetAddressType} {bytes : Bytes} (h : bytes.length = family.addressLen) :
    ∃ a : RfcAddress, a.toInet.family = family ∧ a.octets = bytes := by
  have hsplit : ∀ n, bytes.take n ++ bytes.drop n = bytes := fun n => List.take_append_drop n bytes
  cases family with
  | unknown => exact ⟨.unknown, rfl, (List.length_eq_zero_iff.mp h).symm⟩
  | ipv4 => exact ⟨.ipv4 (BitVec.ofNat 32 (beNat bytes)), rfl, beBytes_ofNat (by decide) h⟩
  | ipv6 => exact ⟨.ipv6 (BitVec.ofNat 128 (beNat bytes)), rfl, beBytes_ofNat (by decide) h⟩
  | ipv4z =>
    replace h : bytes.length = 8 := h
    have haddress : (bytes.take 4).length = 4 := by rw [List.length_take]; omega
    have hzone : (bytes.drop 4).length = 4 := by rw [List.length_drop]; omega
    refine ⟨.ipv4z (BitVec.ofNat 32 (beNat (bytes.take 4))) (UInt32.ofNat (beNat (bytes.drop 4))), rfl, ?_⟩
    rw [RfcAddress.octets, beBytes_ofNat (by decide) haddress, beBytes_u32OfNat hzone, hsplit]
  | ipv6z =>
    replace h : bytes.length = 20 := h
    have haddress : (bytes.take 16).length = 16 := by rw [List.length_take]; omega
    have hzone : (bytes.drop 16).length = 4 := by rw [List.length_drop]; omega
    refine ⟨.ipv6z (BitVec.ofNat 128 (beNat (bytes.take 16))) (UInt32.ofNat (beNat (bytes.drop 16))), rfl, ?_⟩
    rw [RfcAddress.octets, beBytes_ofNat (by decide) haddress, beBytes_u32OfNat hzone, hsplit]

theorem typeNumber_of_fromSubid {subid : UInt32} {a : RfcAddress}
    (h : InetAddressType.fromSubid subid = some a.toInet.family) : subid = a.typeNumber := by
  apply UInt32.toNat_inj.mp
  unfold InetAddressType.fromSubid at h
  split at h <;> cases a <;> simp_all [RfcAddress.toInet, RfcAddress.typeNumber]

theorem length_subids (a : RfcAddress) : a.subids.length = 2 + a.octets.length := by
  simp only [RfcAddress.subids, List.length_cons, List.length_map]
  omega

/-- An address is read where it is written. -/
theorem readAddress_subids {subids : List UInt32} {k : Nat} {a : RfcAddress} (h : Holds subids k a.subids) :
    readAddress subids k = .ok (a.toInet, k + a.subids.length) := by
  have htype : subids[k]? = some a.typeNumber := h.getElem?
  have hlength : subids[k + 1]? = some (UInt32.ofNat a.octets.length) :=
    (Holds.right (x := [a.typeNumber]) h).getElem?
  have hoctets : Holds subids (k + 2) (a.octets.map UInt8.toUInt32) :=
    Holds.right (x := [a.typeNumber, UInt32.ofNat a.octets.length]) h
  have hsmall : a.octets.length ≤ 20 := by
    rw [length_octets]
    cases a.toInet.family <;> decide
  have hdeclared : (UInt32.ofNat a.octets.length).toNat = a.octets.length := by
    rw [UInt32.toNat_ofNat']
    omega
  have hrange := hoctets.getRange
  rw [List.length_map] at hrange
  unfold readAddress
  rw [htype, okOr_some, ok_bind, fromSubid_typeNumber, okOr_some, ok_bind, hlength, okOr_some, ok_bind]
  dsimp only
  rw [hdeclared, require_of (length_octets a), ok_bind, hrange, okOr_some, ok_bind, mapM_octetOf.mpr rfl, okOr_some,
    ok_bind, addressOf_octets, ok_bind, length_subids, ← Nat.add_assoc]
  rfl

/-- What is read as an address is written there. -/
theorem readAddress_inv {subids : List UInt32} {k stop : Nat} {address : InetAddress}
    (h : readAddress subids k = .ok (address, stop)) :
    ∃ a : RfcAddress, a.toInet = address ∧ subids.drop k = a.subids ++ subids.drop stop := by
  unfold readAddress at h
  obtain ⟨type, htype, h⟩ := bind_eq_ok.mp h
  obtain ⟨family, hfamily, h⟩ := bind_eq_ok.mp h
  obtain ⟨declared, hdeclared, h⟩ := bind_eq_ok.mp h
  obtain ⟨_, hlength, h⟩ := bind_eq_ok.mp h
  obtain ⟨octets, hoctets, h⟩ := bind_eq_ok.mp h
  obtain ⟨bytes, hbytes, h⟩ := bind_eq_ok.mp h
  obtain ⟨⟨found, zone⟩, haddress, h⟩ := bind_eq_ok.mp h
  cases h
  rw [okOr_eq_ok] at htype hfamily hdeclared hoctets hbytes
  rw [require_eq_ok] at hlength
  obtain ⟨hdrop, hstop, -⟩ := drop_of_getRange hoctets
  have hcount : octets.length = declared.toNat := by omega
  rw [mapM_octetOf] at hbytes
  subst hbytes
  rw [List.length_map] at hcount
  obtain ⟨a, rfl, rfl⟩ := exists_octets (hcount.trans hlength)
  rw [addressOf_octets] at haddress
  cases haddress
  refine ⟨a, rfl, ?_⟩
  obtain ⟨hlt, htype⟩ := List.getElem?_eq_some_iff.mp htype
  obtain ⟨hlt', hdeclared⟩ := List.getElem?_eq_some_iff.mp hdeclared
  have hnumber : declared = UInt32.ofNat a.octets.length := by rw [hcount, UInt32.ofNat_toNat]
  rw [List.drop_eq_getElem_cons hlt, List.drop_eq_getElem_cons hlt', htype, hdeclared, hdrop, hnumber,
    typeNumber_of_fromSubid hfamily]
  rfl

/-! ## Whole indices -/

theorem bits_eq (a : RfcAddress) : a.bits = a.toInet.family.maxPrefixLen.toNat := by
  cases a <;> rfl

/-- The prefix length fits an octet, as every address size does. -/
theorem RfcIndex.prefixLen_lt (r : RfcIndex) : r.prefixLen < 256 := by
  have hle := r.prefixLen_le
  have hlt := r.destination.toInet.family.maxPrefixLen.toNat_lt
  rw [bits_eq] at hle
  omega

theorem parseIndex_subids (r : RfcIndex) : parseIndex r.subids = .ok r.toIndex := by
  have hwhole : Holds r.subids 0 r.subids := Holds.self _
  have hdestination := readAddress_subids hwhole.left.left.left
  have hwidth := hwhole.left.left.right.getElem?
  have hlength := hwhole.left.right.getElem?
  have hpolicy := (Holds.right (x := [UInt32.ofNat r.policy.length]) hwhole.left.right).getRange
  have hnextHop := readAddress_subids hwhole.right
  have hcount : (UInt32.ofNat r.policy.length).toNat = r.policy.length := by
    rw [UInt32.toNat_ofNat', Nat.mod_eq_of_lt r.policy_lt]
  have hlt := r.prefixLen_lt
  have hle := r.prefixLen_le
  have hoctet : octetOf (UInt32.ofNat r.prefixLen) = some (UInt8.ofNat r.prefixLen) := by
    rw [octetOf_eq_some]
    apply UInt32.toNat_inj.mp
    rw [UInt32.toNat_ofNat', UInt8.toNat_toUInt32, UInt8.toNat_ofNat']
    omega
  have hwithin : UInt8.ofNat r.prefixLen ≤ r.destination.toInet.family.maxPrefixLen := by
    rw [UInt8.le_iff_toNat_le, UInt8.toNat_ofNat', ← bits_eq]
    omega
  have hall : r.subids.length = 0 + r.destination.subids.length + 1 + 1 + r.policy.length + r.nextHop.subids.length := by
    simp only [RfcIndex.subids, List.length_append, List.length_cons, List.length_nil]
    omega
  have hplace : 0 + (r.destination.subids ++ [UInt32.ofNat r.prefixLen] ++
      (UInt32.ofNat r.policy.length :: r.policy)).length =
      0 + r.destination.subids.length + 1 + 1 + r.policy.length := by
    simp only [List.length_append, List.length_cons, List.length_nil]
    omega
  rw [hplace] at hnextHop
  simp only [List.length_append, List.length_cons, List.length_nil, ← Nat.add_assoc] at hlength hpolicy
  unfold parseIndex
  rw [hdestination, ok_bind]
  dsimp only
  rw [hwidth, okOr_some, ok_bind, hoctet, okOr_some, ok_bind, require_of hwithin, ok_bind,
    hlength, okOr_some, ok_bind, hcount, hpolicy, okOr_some, ok_bind, hnextHop, ok_bind]
  dsimp only
  rw [require_of hall.symm, ok_bind]
  rfl

theorem parseIndex_inv {subids : List UInt32} {index : InetRouteIndex} (h : parseIndex subids = .ok index) :
    ∃ r : RfcIndex, r.subids = subids ∧ r.toIndex = index := by
  unfold parseIndex at h
  obtain ⟨⟨destination, start⟩, hdestination, h⟩ := bind_eq_ok.mp h
  obtain ⟨subid, hsubid, h⟩ := bind_eq_ok.mp h
  obtain ⟨prefixLen, hwidth, h⟩ := bind_eq_ok.mp h
  obtain ⟨_, hwithin, h⟩ := bind_eq_ok.mp h
  obtain ⟨policyLen, hlength, h⟩ := bind_eq_ok.mp h
  obtain ⟨policy, hpolicy, h⟩ := bind_eq_ok.mp h
  obtain ⟨⟨nextHop, stop⟩, hnextHop, h⟩ := bind_eq_ok.mp h
  obtain ⟨_, hstop, h⟩ := bind_eq_ok.mp h
  cases h
  rw [okOr_eq_ok] at hsubid hwidth hlength hpolicy
  rw [require_eq_ok] at hwithin hstop
  obtain ⟨d, rfl, hd⟩ := readAddress_inv hdestination
  obtain ⟨n, rfl, hn⟩ := readAddress_inv hnextHop
  obtain ⟨hp, hcount, -⟩ := drop_of_getRange hpolicy
  obtain ⟨hlt, hsubid⟩ := List.getElem?_eq_some_iff.mp hsubid
  obtain ⟨hlt', hlength⟩ := List.getElem?_eq_some_iff.mp hlength
  have hpolicyLen : policyLen = UInt32.ofNat policy.length := by
    rw [show policy.length = policyLen.toNat by omega, UInt32.ofNat_toNat]
  have hbits : prefixLen.toNat ≤ d.bits := by
    rw [bits_eq]
    exact UInt8.le_iff_toNat_le.mp hwithin
  have hsmall : policy.length < 2 ^ 32 := by
    have hlt := policyLen.toNat_lt
    omega
  refine ⟨⟨d, prefixLen.toNat, hbits, policy, hsmall, n⟩, ?_, ?_⟩
  · have hoctet : UInt32.ofNat prefixLen.toNat = subid := by
      rw [octetOf_eq_some.mp hwidth]
      apply UInt32.toNat_inj.mp
      have hlt := prefixLen.toNat_lt
      rw [UInt32.toNat_ofNat', UInt8.toNat_toUInt32]
      omega
    have hend : subids.drop stop = [] := by rw [hstop, List.drop_length]
    calc RfcIndex.subids ⟨d, prefixLen.toNat, hbits, policy, hsmall, n⟩
        = d.subids ++ subid :: policyLen :: (policy ++ n.subids) := by
          unfold RfcIndex.subids
          dsimp only
          rw [hoctet, hpolicyLen]
          simp
      _ = d.subids ++ subid :: policyLen :: (policy ++ subids.drop (start + 1 + 1 + policyLen.toNat)) := by
          rw [hn, hend, List.append_nil]
      _ = d.subids ++ subids.drop start := by
          rw [← hp, List.drop_eq_getElem_cons hlt, List.drop_eq_getElem_cons hlt', hsubid, hlength]
      _ = subids := hd.symm
  · unfold RfcIndex.toIndex
    rw [UInt8.ofNat_toNat]

theorem RfcIndex.toIndex_inj {r r' : RfcIndex} (h : r.toIndex = r'.toIndex) : r = r' := by
  have hlt := r.prefixLen_lt
  have hlt' := r'.prefixLen_lt
  obtain ⟨d, p, hp, policy, hpolicy, n⟩ := r
  obtain ⟨d', p', hp', policy', hpolicy', n'⟩ := r'
  rw [toIndex, toIndex, InetRouteIndex.mk.injEq] at h
  dsimp only at h hlt hlt'
  obtain ⟨hd, hwidth, rfl, hn⟩ := h
  obtain rfl := RfcAddress.toInet_inj hd
  obtain rfl := RfcAddress.toInet_inj hn
  obtain rfl : p = p' := by
    have hnat := congrArg UInt8.toNat hwidth
    rw [UInt8.toNat_ofNat', UInt8.toNat_ofNat'] at hnat
    omega
  rfl

theorem safe_readAddress (subids : List UInt32) (k : Nat) : Safe (fun _ => True) (readAddress subids k) := by
  unfold readAddress
  refine (safe_okOr _ _).bind fun type _ => (safe_okOr _ _).bind fun family _ => ?_
  refine (safe_okOr _ _).bind fun declared _ => (safe_require _ _).bind fun _ hlength => ?_
  refine (safe_okOr _ _).bind fun octets hoctets => (safe_okOr _ _).bind fun bytes hbytes => ?_
  obtain ⟨-, hstop, -⟩ := drop_of_getRange hoctets
  rw [mapM_octetOf] at hbytes
  have hcount : octets.length = bytes.length := by rw [hbytes, List.length_map]
  have hfits : bytes.length = family.addressLen := by omega
  obtain ⟨a, rfl, rfl⟩ := exists_octets hfits
  rw [addressOf_octets, ok_bind]
  trivial

theorem safe_parseIndex (subids : List UInt32) : Safe (fun _ => True) (parseIndex subids) := by
  unfold parseIndex
  refine (safe_readAddress _ _).bind fun _ _ => (safe_okOr _ _).bind fun _ _ => (safe_okOr _ _).bind fun _ _ => ?_
  refine (safe_require _ _).bind fun _ _ => (safe_okOr _ _).bind fun _ _ => (safe_okOr _ _).bind fun _ _ => ?_
  refine (safe_readAddress _ _).bind fun _ _ => (safe_require _ _).bind fun _ _ => ?_
  trivial

/-- **The codec of the index.** The parser accepts exactly what an index is written as and reads that index back; so
it is a left inverse of writing, and no two sequences are read as the same index. It never reads outside the
sequence. -/
theorem index_codec :
    (∀ subids index, parseIndex subids = .ok index ↔ ∃ r : RfcIndex, r.subids = subids ∧ r.toIndex = index) ∧
    (∀ r : RfcIndex, parseIndex r.subids = .ok r.toIndex) ∧
    (∀ subids subids' index, parseIndex subids = .ok index → parseIndex subids' = .ok index → subids = subids') ∧
    ∀ subids, parseIndex subids ≠ .panic := by
  have hiff : ∀ subids index,
      parseIndex subids = .ok index ↔ ∃ r : RfcIndex, r.subids = subids ∧ r.toIndex = index := by
    intro subids index
    constructor
    · exact parseIndex_inv
    · rintro ⟨r, rfl, rfl⟩
      exact parseIndex_subids r
  refine ⟨hiff, parseIndex_subids, ?_, fun subids => (safe_parseIndex subids).ne_panic⟩
  intro subids subids' index h h'
  obtain ⟨r, rfl, hr⟩ := (hiff subids index).mp h
  obtain ⟨r', rfl, hr'⟩ := (hiff subids' index).mp h'
  rw [RfcIndex.toIndex_inj (hr.trans hr'.symm)]

end Idnx
