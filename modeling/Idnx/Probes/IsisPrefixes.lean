import Idnx.Probes.IsisReach

/-!
# The prefixes of IS-IS PDUs

A PDU is a header and TLVs; the decoder reads the reachability of all of them, in whatever PDU they stand
(`parse_of_isPdu`). Whether only live reachability is reported as current depends on the PDU (`reportsLive_iff`).
-/

namespace Idnx

open Outcome

variable {ε : Type}

namespace Isis

/-! ## TLVs -/

/-- A TLV of a PDU. -/
structure Tlv where
  code : UInt8
  value : Bytes
  small : value.length < 256

namespace Tlv

def bytes (t : Tlv) : Bytes := t.code :: UInt8.ofNat t.value.length :: t.value

theorem length_bytes (t : Tlv) : t.bytes.length = t.value.length + 2 := rfl

theorem bytes_pos (t : Tlv) : 0 < t.bytes.length := Nat.succ_pos _

theorem toNat_length (t : Tlv) : (UInt8.ofNat t.value.length).toNat = t.value.length := by
  rw [UInt8.toNat_ofNat']
  exact Nat.mod_eq_of_lt t.small

/-- An authentication TLV of another type than a cleartext password. -/
def IsDigest (t : Tlv) : Prop := t.code = 10 ∧ ∃ kind ∈ t.value.head?, kind ≠ 1

end Tlv

/-- The prefix of an entry of RFC 1195, if its mask is one. -/
def legacyNet (entry : Bytes) : Option IpNet :=
  maskedNet (addressOfBytes ((entry.drop 4).take 4)) (addressOfBytes ((entry.drop 8).take 4))

def CarriesLegacy (value : Bytes) (net : IpNet) : Prop := ∃ entry ∈ asChunks 12 value, legacyNet entry = some net

def CarriesExtended (value : Bytes) (net : IpNet) : Prop :=
  ∃ entry, extendedReach.Carries value entry ∧ net = extendedNet entry.val

def CarriesIpv6 (value : Bytes) (net : IpNet) : Prop :=
  ∃ entry, ipv6Reach.Carries value entry ∧ net = ipv6Net entry.val

namespace Tlv

/-- The TLV is one of IP reachability that the decoder knows, and carries the prefix: of RFC 1195, of RFC 5305, of
RFC 5308, or of RFC 5308 behind a topology identifier. -/
def Reaches (t : Tlv) (net : IpNet) : Prop :=
  ((t.code = 128 ∨ t.code = 130) ∧ CarriesLegacy t.value net) ∨ (t.code = 135 ∧ CarriesExtended t.value net) ∨
    (t.code = 236 ∧ CarriesIpv6 t.value net) ∨
      (t.code = 237 ∧ 2 ≤ t.value.length ∧ CarriesIpv6 (t.value.drop 2) net)

/-- Behind a topology identifier the TLV reads as extended reachability. -/
def MultiTopology (t : Tlv) (net : IpNet) : Prop := 2 ≤ t.value.length ∧ CarriesExtended (t.value.drop 2) net

/-- The TLV carries the prefix: it is one of the reachability TLVs, among them 235 of RFC 5120. -/
def Carries (t : Tlv) (net : IpNet) : Prop := t.Reaches net ∨ (t.code = 235 ∧ t.MultiTopology net)

/-- The decoder takes the prefix from the TLV: it reads 222, the neighbours of RFC 5120, in place of 235. -/
def IsRead (t : Tlv) (net : IpNet) : Prop := t.Reaches net ∨ (t.code = 222 ∧ t.MultiTopology net)

end Tlv

/-! ## What a TLV adds -/

theorem readLegacyIpReach_spec (value : Bytes) (tlv : Text) :
    ∃ read, (readLegacyIpReach value tlv : Outcome ε _) = .ok read ∧
      ∀ net, net ∈ read.map (·.net) ↔ CarriesLegacy value net := by
  refine ⟨_, filterMapM_eq_filterMap (g := fun entry => (legacyNet entry).map fun net =>
    { net, metric := (entry.getD 0 0 &&& 0x3f).toUInt32, tlv, topology := none, rawEntry := entry })
      fun entry hentry => ?_, fun net => ?_⟩
  · have hlen := length_of_mem_asChunks hentry
    rw [ipv4At_eq (by omega), ok_bind, ipv4At_eq (by omega), ok_bind, index_eq (by omega), ok_bind]
    rfl
  · rw [List.mem_map]
    constructor
    · rintro ⟨p, hp, rfl⟩
      obtain ⟨entry, hentry, hrecord⟩ := List.mem_filterMap.mp hp
      obtain ⟨net, hnet, rfl⟩ := Option.map_eq_some_iff.mp hrecord
      exact ⟨entry, hentry, hnet⟩
    · rintro ⟨entry, hentry, hnet⟩
      exact ⟨_, List.mem_filterMap.mpr ⟨entry, hentry, Option.map_eq_some_iff.mpr ⟨net, hnet, rfl⟩⟩, rfl⟩

/-- What is read from entries has the prefixes of the entries. -/
theorem mem_nets_of_spec {α : Type} {read : List ReachablePrefix} {P : α → Prop} {record : α → ReachablePrefix}
    (hmem : ∀ p, p ∈ read ↔ ∃ a, P a ∧ p = record a) (net : IpNet) :
    net ∈ read.map (·.net) ↔ ∃ a, P a ∧ net = (record a).net := by
  rw [List.mem_map]
  constructor
  · rintro ⟨p, hp, rfl⟩
    obtain ⟨a, ha, rfl⟩ := (hmem p).mp hp
    exact ⟨a, ha, rfl⟩
  · rintro ⟨a, ha, rfl⟩
    exact ⟨_, (hmem _).mpr ⟨a, ha, rfl⟩, rfl⟩

theorem readExtended_nets (value : Bytes) (topology : Option UInt16) (tlv : Text) :
    ∃ read, (readExtendedIpReach value topology tlv : Outcome ε _) = .ok read ∧
      ∀ net, net ∈ read.map (·.net) ↔ CarriesExtended value net := by
  obtain ⟨read, hread, hmem⟩ := readExtendedIpReach_spec value topology tlv
  exact ⟨read, hread, mem_nets_of_spec hmem⟩

theorem readIpv6_nets (value : Bytes) (topology : Option UInt16) (tlv : Text) :
    ∃ read, (readIpv6Reach value topology tlv : Outcome ε _) = .ok read ∧
      ∀ net, net ∈ read.map (·.net) ↔ CarriesIpv6 value net := by
  obtain ⟨read, hread, hmem⟩ := readIpv6Reach_spec value topology tlv
  exact ⟨read, hread, mem_nets_of_spec hmem⟩

/-- The prefixes a PDU has disclosed so far. -/
def IsisPdu.nets (decoded : IsisPdu) : List IpNet := decoded.prefixes.map (·.net)

/-- What was disclosed grows by what a TLV says: that the PDU cannot be verified, and prefixes. -/
structure Adds (decoded : IsisPdu) (digest : Prop) (more : IpNet → Prop) (d : IsisPdu) : Prop where
  unverifiable : d.unverifiableAuthentication = true ↔ decoded.unverifiableAuthentication = true ∨ digest
  nets : ∀ net, net ∈ d.nets ↔ net ∈ decoded.nets ∨ more net

theorem adds_nothing {decoded d : IsisPdu} {digest : Prop} {more : IpNet → Prop} (hdigest : ¬ digest)
    (hmore : ∀ net, ¬ more net) (h : d.unverifiableAuthentication = decoded.unverifiableAuthentication)
    (h' : d.prefixes = decoded.prefixes) : Adds decoded digest more d where
  unverifiable := by rw [h, or_iff_left hdigest]
  nets net := by rw [IsisPdu.nets, h', or_iff_left (hmore net)]; rfl

theorem adds_read {decoded : IsisPdu} {digest : Prop} {more : IpNet → Prop} {read : List ReachablePrefix}
    (hdigest : ¬ digest) (hmore : ∀ net, net ∈ read.map (·.net) ↔ more net) :
    Adds decoded digest more { decoded with prefixes := decoded.prefixes ++ read } where
  unverifiable := by rw [or_iff_left hdigest]
  nets net := by
    show net ∈ (decoded.prefixes ++ read).map (·.net) ↔ _
    rw [List.map_append, List.mem_append, hmore]
    rfl

theorem multiTopology_eq {value : Bytes} (h : 2 ≤ value.length) :
    (multiTopology value : Outcome ε _) = .ok (word (value.getD 0 0) (value.getD 1 0) &&& 0x0fff, value.drop 2) := by
  unfold multiTopology
  rw [u16At_eq (by omega), ok_bind, sliceFrom_eq h, ok_bind]
  rfl

/-- **What one TLV adds** to what the PDU disclosed so far. -/
theorem read_spec (decoded : IsisPdu) (t : Tlv) :
    ∃ d, (decoded.read t.code t.value : Outcome ε _) = .ok d ∧ Adds decoded t.IsDigest t.IsRead d := by
  have hdigest : t.code ≠ 10 → ¬ t.IsDigest := fun hcode h => hcode h.1
  unfold IsisPdu.read
  split
  case h_1 hcode =>
    have hcode : t.code = 10 := UInt8.toNat_inj.mp hcode
    have hread : ∀ net, ¬ t.IsRead net := fun net => by simp [Tlv.IsRead, Tlv.Reaches, hcode]
    split
    case h_1 kind hkind =>
      by_cases hclear : kind = 1
      · rw [if_neg (not_not.mpr hclear)]
        refine ⟨_, rfl, adds_nothing ?_ hread rfl rfl⟩
        rintro ⟨-, kind', hkind', hne⟩
        rw [hkind] at hkind'
        exact hne ((Option.some.inj hkind').symm.trans hclear)
      · rw [if_pos hclear]
        refine ⟨_, rfl, ⟨?_, fun net => (or_iff_left (hread net)).symm⟩⟩
        exact iff_of_true rfl (.inr ⟨hcode, kind, hkind, hclear⟩)
    case h_2 hnone =>
      refine ⟨_, rfl, adds_nothing ?_ hread rfl rfl⟩
      rintro ⟨-, kind, hkind, -⟩
      rw [hnone] at hkind
      cases hkind
  case h_2 hcode =>
    have hcode : t.code = 1 := UInt8.toNat_inj.mp hcode
    obtain ⟨areas, hareas, -⟩ := returns_areas (ε := ε) t.value decoded.areas
    rw [hareas]
    refine ⟨_, rfl, adds_nothing (hdigest (by simp [hcode])) (fun net => ?_) rfl rfl⟩
    simp [Tlv.IsRead, Tlv.Reaches, hcode]
  case h_3 hcode =>
    have hcode : t.code = 128 := UInt8.toNat_inj.mp hcode
    obtain ⟨read, hread, hmem⟩ := readLegacyIpReach_spec (ε := ε) t.value "IP internal reachability"
    rw [hread]
    refine ⟨_, rfl, adds_read (hdigest (by simp [hcode])) fun net => ?_⟩
    rw [hmem]
    simp [Tlv.IsRead, Tlv.Reaches, hcode]
  case h_4 hcode =>
    have hcode : t.code = 130 := UInt8.toNat_inj.mp hcode
    obtain ⟨read, hread, hmem⟩ := readLegacyIpReach_spec (ε := ε) t.value "IP external reachability"
    rw [hread]
    refine ⟨_, rfl, adds_read (hdigest (by simp [hcode])) fun net => ?_⟩
    rw [hmem]
    simp [Tlv.IsRead, Tlv.Reaches, hcode]
  case h_5 hcode =>
    have hcode : t.code = 135 := UInt8.toNat_inj.mp hcode
    obtain ⟨read, hread, hmem⟩ := readExtended_nets (ε := ε) t.value none "extended IP reachability"
    rw [hread]
    refine ⟨_, rfl, adds_read (hdigest (by simp [hcode])) fun net => ?_⟩
    rw [hmem]
    simp [Tlv.IsRead, Tlv.Reaches, hcode]
  case h_6 hcode =>
    have hcode : t.code = 222 := UInt8.toNat_inj.mp hcode
    have hread : ∀ net, t.IsRead net ↔ t.MultiTopology net := fun net => by simp [Tlv.IsRead, Tlv.Reaches, hcode]
    split
    case isTrue hlen =>
      obtain ⟨read, hok, hmem⟩ := readExtended_nets (ε := ε) (t.value.drop 2)
        (some (word (t.value.getD 0 0) (t.value.getD 1 0) &&& 0x0fff)) "multi-topology reachability"
      rw [multiTopology_eq hlen, ok_bind]
      dsimp only
      rw [hok]
      refine ⟨_, rfl, adds_read (hdigest (by simp [hcode])) fun net => ?_⟩
      rw [hmem, hread, Tlv.MultiTopology, and_iff_right hlen]
    case isFalse hlen =>
      refine ⟨_, rfl, adds_nothing (hdigest (by simp [hcode])) (fun net => ?_) rfl rfl⟩
      rw [hread]
      exact fun h => hlen h.1
  case h_7 hcode =>
    have hcode : t.code = 236 := UInt8.toNat_inj.mp hcode
    obtain ⟨read, hread, hmem⟩ := readIpv6_nets (ε := ε) t.value none "IPv6 reachability"
    rw [hread]
    refine ⟨_, rfl, adds_read (hdigest (by simp [hcode])) fun net => ?_⟩
    rw [hmem]
    simp [Tlv.IsRead, Tlv.Reaches, hcode]
  case h_8 hcode =>
    have hcode : t.code = 237 := UInt8.toNat_inj.mp hcode
    have hread : ∀ net, t.IsRead net ↔ 2 ≤ t.value.length ∧ CarriesIpv6 (t.value.drop 2) net := fun net => by
      simp [Tlv.IsRead, Tlv.Reaches, hcode]
    split
    case isTrue hlen =>
      obtain ⟨read, hok, hmem⟩ := readIpv6_nets (ε := ε) (t.value.drop 2)
        (some (word (t.value.getD 0 0) (t.value.getD 1 0) &&& 0x0fff)) "multi-topology IPv6 reachability"
      rw [multiTopology_eq hlen, ok_bind]
      dsimp only
      rw [hok]
      refine ⟨_, rfl, adds_read (hdigest (by simp [hcode])) fun net => ?_⟩
      rw [hmem, hread, and_iff_right hlen]
    case isFalse hlen =>
      refine ⟨_, rfl, adds_nothing (hdigest (by simp [hcode])) (fun net => ?_) rfl rfl⟩
      rw [hread]
      exact fun h => hlen h.1
  case h_9 h₁₀ h₁ h₁₂₈ h₁₃₀ h₁₃₅ h₂₂₂ h₂₃₆ h₂₃₇ =>
    have hother : ∀ {n : UInt8}, t.code = n → t.code.toNat = n.toNat := congrArg UInt8.toNat
    refine ⟨_, rfl, adds_nothing (hdigest fun h => h₁₀ (hother h)) (fun net => ?_) rfl rfl⟩
    rintro ((⟨h | h, -⟩ | ⟨h, -⟩ | ⟨h, -⟩ | ⟨h, -⟩) | ⟨h, -⟩)
    · exact h₁₂₈ (hother h)
    · exact h₁₃₀ (hother h)
    · exact h₁₃₅ (hother h)
    · exact h₂₃₆ (hother h)
    · exact h₂₃₇ (hother h)
    · exact h₂₂₂ (hother h)

/-! ## PDUs -/

/-- The type of a PDU. -/
def pduType (pdu : Bytes) : UInt8 := pdu.getD 4 0 &&& 0x1f

def IsHello (pdu : Bytes) : Prop := pduType pdu = 15 ∨ pduType pdu = 16 ∨ pduType pdu = 17

def IsLinkState (pdu : Bytes) : Prop := pduType pdu = 18 ∨ pduType pdu = 20

/-- Where the TLVs start. -/
def tlvsAt (pdu : Bytes) : Nat := if pduType pdu = 17 then 20 else 27

/-- The remaining lifetime of a link-state PDU. -/
def lifetime (pdu : Bytes) : UInt16 := word (pdu.getD 10 0) (pdu.getD 11 0)

/-- A hello or a link-state PDU, and its TLVs; a last odd byte is none. -/
structure IsPdu (pdu : Bytes) (tlvs : List Tlv) : Prop where
  discriminator : pdu.getD 0 0 = 0x83
  headerLength : 8 ≤ (pdu.getD 1 0).toNat ∧ (pdu.getD 1 0).toNat ≤ pdu.length
  type : IsHello pdu ∨ IsLinkState pdu
  header : tlvsAt pdu ≤ pdu.length
  contents : ∃ rest, rest.length < 2 ∧ pdu.drop (tlvsAt pdu) = tlvs.flatMap Tlv.bytes ++ rest

/-- What the header of a PDU that is read says of it. -/
theorem header_of_ok {pdu : Bytes} {h : Header} (hok : header pdu (pduType pdu) = .ok h) :
    (IsHello pdu ∨ IsLinkState pdu) ∧ tlvsAt pdu ≤ pdu.length ∧ h.tlvAt = tlvsAt pdu ∧ h.idAt + 6 ≤ tlvsAt pdu := by
  unfold IsHello IsLinkState tlvsAt
  unfold header at hok
  generalize pduType pdu = type at hok
  split at hok
  case h_1 htype =>
    obtain rfl : type = 15 := UInt8.toNat_inj.mp htype
    obtain ⟨_, hlen, hh⟩ := bind_eq_ok.mp hok
    obtain rfl := Outcome.ok.inj hh
    exact ⟨.inl (.inl rfl), require_eq_ok.mp hlen, rfl, by decide⟩
  case h_2 htype =>
    obtain rfl : type = 16 := UInt8.toNat_inj.mp htype
    obtain ⟨_, hlen, hh⟩ := bind_eq_ok.mp hok
    obtain rfl := Outcome.ok.inj hh
    exact ⟨.inl (.inr (.inl rfl)), require_eq_ok.mp hlen, rfl, by decide⟩
  case h_3 htype =>
    obtain rfl : type = 17 := UInt8.toNat_inj.mp htype
    obtain ⟨_, hlen, hh⟩ := bind_eq_ok.mp hok
    obtain rfl := Outcome.ok.inj hh
    exact ⟨.inl (.inr (.inr rfl)), require_eq_ok.mp hlen, rfl, by decide⟩
  case h_4 htype =>
    obtain rfl : type = 18 := UInt8.toNat_inj.mp htype
    obtain ⟨_, hlen, hh⟩ := bind_eq_ok.mp hok
    obtain ⟨sequence, -, hh⟩ := bind_eq_ok.mp hh
    obtain rfl := Outcome.ok.inj hh
    exact ⟨.inr (.inl rfl), require_eq_ok.mp hlen, rfl, (by decide : 12 + 6 ≤ 27)⟩
  case h_5 htype =>
    obtain rfl : type = 20 := UInt8.toNat_inj.mp htype
    obtain ⟨_, hlen, hh⟩ := bind_eq_ok.mp hok
    obtain ⟨sequence, -, hh⟩ := bind_eq_ok.mp hh
    obtain rfl := Outcome.ok.inj hh
    exact ⟨.inr (.inr rfl), require_eq_ok.mp hlen, rfl, (by decide : 12 + 6 ≤ 27)⟩
  case h_6 => cases hok

theorem exists_header {pdu : Bytes} (htype : IsHello pdu ∨ IsLinkState pdu) (hlen : tlvsAt pdu ≤ pdu.length) :
    ∃ h, header pdu (pduType pdu) = .ok h := by
  unfold IsHello IsLinkState at htype
  unfold tlvsAt at hlen
  unfold header
  generalize pduType pdu = type at htype hlen
  have hreturns : ∀ {n : Nat} {x : Outcome Unit Header}, n ≤ pdu.length → (∃ h, x = .ok h) →
      ∃ h, (require (n ≤ pdu.length) () >>= fun _ => x) = .ok h := by
    rintro n x hn ⟨h, rfl⟩
    rw [require_of hn]
    exact ⟨h, rfl⟩
  rcases htype with (rfl | rfl | rfl) | (rfl | rfl)
  · exact hreturns (n := 27) hlen ⟨_, rfl⟩
  · exact hreturns (n := 27) hlen ⟨_, rfl⟩
  · exact hreturns (n := 20) hlen ⟨_, rfl⟩
  · have hread : 20 + 4 ≤ pdu.length := Nat.le_trans (by decide) hlen
    exact hreturns (n := 27) hlen (by rw [u32At_eq hread]; exact ⟨_, rfl⟩)
  · have hread : 20 + 4 ≤ pdu.length := Nat.le_trans (by decide) hlen
    exact hreturns (n := 27) hlen (by rw [u32At_eq hread]; exact ⟨_, rfl⟩)

/-- What is disclosed with one TLV more. -/
def withTlv (decoded : IsisPdu) (t : Tlv) : IsisPdu := (decoded.read t.code t.value : Outcome Unit _).getD decoded

theorem read_eq (decoded : IsisPdu) (t : Tlv) :
    (decoded.read t.code t.value : Outcome Unit _) = .ok (withTlv decoded t) ∧
      Adds decoded t.IsDigest t.IsRead (withTlv decoded t) := by
  obtain ⟨d, hd, hadds⟩ := read_spec (ε := Unit) decoded t
  unfold withTlv
  rw [hd]
  exact ⟨rfl, hadds⟩

/-- The TLVs together add what each of them does. -/
theorem adds_foldl (tlvs : List Tlv) (decoded : IsisPdu) :
    Adds decoded (∃ t ∈ tlvs, t.IsDigest) (fun net => ∃ t ∈ tlvs, t.IsRead net) (tlvs.foldl withTlv decoded) := by
  induction tlvs generalizing decoded with
  | nil => exact adds_nothing (by simp) (by simp) rfl rfl
  | cons t tlvs ih =>
    have hfirst := (read_eq decoded t).2
    have hrest := ih (withTlv decoded t)
    rw [List.foldl_cons]
    refine ⟨?_, fun net => ?_⟩
    · rw [hrest.unverifiable, hfirst.unverifiable, List.exists_mem_cons_iff, or_assoc]
    · rw [hrest.nets, hfirst.nets, List.exists_mem_cons_iff, or_assoc]

theorem nextTlv_of_holds {pdu : Bytes} {k : Nat} {t : Tlv} (h : Holds pdu k t.bytes) (decoded : IsisPdu) :
    nextTlv pdu (k, decoded) = .ok (.next (k + t.bytes.length, withTlv decoded t)) := by
  have hlen := h.length_le
  rw [t.length_bytes] at hlen
  have hvalue : Holds pdu (k + 2) t.value := Holds.right (x := [t.code, UInt8.ofNat t.value.length]) h
  have hslice : (slice pdu (k + 2) (k + 2 + t.value.length) : Outcome Unit _) = .ok t.value := hvalue.slice
  have hlength : (index pdu (k + 1) : Outcome Unit _) = .ok (UInt8.ofNat t.value.length) :=
    (Holds.right (x := [t.code]) h).index
  rw [nextTlv, if_pos (by omega), h.index, ok_bind, hlength, ok_bind]
  dsimp only
  rw [t.toNat_length, require_of (by omega), ok_bind, hslice, ok_bind, (read_eq decoded t).1, ok_bind, t.length_bytes,
    Nat.add_assoc k, Nat.add_comm 2]
  rfl

/-- Where no TLV starts, the PDU ends or claims more bytes than it has. -/
theorem nextTlv_of_rest {pdu rest : Bytes} {k : Nat} (hk : k ≤ pdu.length) (h : pdu.drop k = rest)
    (hrest : ∀ (t : Tlv) more, rest ≠ t.bytes ++ more) (decoded : IsisPdu) :
    nextTlv pdu (k, decoded) = if rest.length < 2 then .ok (.done decoded) else .err () := by
  have hlen : rest.length = pdu.length - k := by rw [← h, List.length_drop]
  rw [nextTlv]
  by_cases hshort : rest.length < 2
  · rw [if_neg (by omega), if_pos hshort]
  rcases rest with _ | ⟨code, _ | ⟨length, more⟩⟩
  · exact absurd (show ([] : Bytes).length < 2 by decide) hshort
  · exact absurd (Nat.lt_succ_self 1) hshort
  · have hcode : (index pdu k : Outcome Unit _) = .ok code := index_of_drop h
    have hlength : (index pdu (k + 1) : Outcome Unit _) = .ok length := by
      rw [index_add, h]
      rfl
    have hcut : ¬ k + 2 + length.toNat ≤ pdu.length := by
      intro hfits
      rw [List.length_cons, List.length_cons] at hlen
      have htake : (more.take length.toNat).length = length.toNat := List.length_take_of_le (by omega)
      refine hrest ⟨code, more.take length.toNat, by rw [htake]; exact length.toNat_lt⟩ (more.drop length.toNat) ?_
      rw [Tlv.bytes]
      dsimp only
      rw [htake, UInt8.ofNat_toNat, List.cons_append, List.cons_append, List.take_append_drop]
    rw [if_neg hshort, if_pos (by simp only [List.length_cons] at hlen; omega), hcode, ok_bind, hlength, ok_bind]
    dsimp only
    rw [require, if_neg hcut]
    rfl

theorem loop_tlvs {pdu : Bytes} {start : Nat} (hstart : start ≤ pdu.length) {tlvs : List Tlv} {rest : Bytes}
    (h : pdu.drop start = tlvs.flatMap Tlv.bytes ++ rest) (hrest : ∀ (t : Tlv) more, rest ≠ t.bytes ++ more)
    (decoded : IsisPdu) :
    loop (nextTlv pdu) (pdu.length + 1) (start, decoded) =
      if rest.length < 2 then .ok (tlvs.foldl withTlv decoded) else .err () := by
  obtain ⟨fuel, k, hloop, hk, hdrop⟩ :=
    loop_records_rest Tlv.bytes_pos (fun k t s ht => nextTlv_of_holds ht s) hstart h decoded
  rw [hloop, loop, nextTlv_of_rest hk hdrop hrest]
  split
  · rfl
  · rfl

/-- What is disclosed before the TLVs are read. -/
def headerPdu (h : Header) (id : Bytes) : IsisPdu :=
  { level := h.level, systemId := List.intercalate ['.'] ((asChunks 2 id).map encodeHex), areas := [],
    hello := h.hello, sequence := h.sequence, unverifiableAuthentication := false, prefixes := [] }

/-- **What a PDU discloses**: the prefixes of all its TLVs that are read. -/
theorem parse_of_isPdu {pdu : Bytes} {tlvs : List Tlv} (h : IsPdu pdu tlvs) :
    ∃ decoded, parse pdu = .ok decoded ∧ Adds (headerPdu ⟨[], false, 0, 0, none⟩ []) (∃ t ∈ tlvs, t.IsDigest)
      (fun net => ∃ t ∈ tlvs, t.IsRead net) decoded := by
  obtain ⟨rest, hrest, hcontents⟩ := h.contents
  obtain ⟨header', hheader⟩ := exists_header h.type h.header
  obtain ⟨-, -, hat, hid⟩ := header_of_ok hheader
  have hwhole := h.header
  have hlen : 20 ≤ tlvsAt pdu := by
    unfold tlvsAt
    split
    · exact Nat.le_refl _
    · decide
  have hnone : ∀ (t : Tlv) more, rest ≠ t.bytes ++ more := by
    rintro t more rfl
    rw [List.length_append, t.length_bytes] at hrest
    omega
  have hadds := adds_foldl tlvs (headerPdu header' ((pdu.drop header'.idAt).take 6))
  refine ⟨_, ?_, ⟨hadds.unverifiable, hadds.nets⟩⟩
  unfold parse
  rw [require_of (by omega), ok_bind, index_eq (by omega), ok_bind, require_of h.discriminator, ok_bind,
    index_eq (by omega), ok_bind, require_of h.headerLength, ok_bind, index_eq (by omega), ok_bind]
  show (Isis.header pdu (pduType pdu) >>= _) = _
  rw [hheader, ok_bind, require_of (by omega), ok_bind, slice_eq (by omega), ok_bind, hat]
  exact (loop_tlvs hwhole hcontents hnone _).trans (if_pos hrest)

/-- Only a PDU is read. -/
theorem exists_tlvs {pdu : Bytes} {decoded : IsisPdu} (h : parse pdu = .ok decoded) : ∃ tlvs, IsPdu pdu tlvs := by
  unfold parse at h
  obtain ⟨_, hlen, h⟩ := bind_eq_ok.mp h
  have hlen := require_eq_ok.mp hlen
  rw [index_eq (by omega), ok_bind] at h
  obtain ⟨_, hdiscriminator, h⟩ := bind_eq_ok.mp h
  rw [index_eq (by omega), ok_bind] at h
  obtain ⟨_, hheaderLength, h⟩ := bind_eq_ok.mp h
  rw [index_eq (by omega), ok_bind] at h
  obtain ⟨header', hheader, h⟩ := bind_eq_ok.mp h
  obtain ⟨htype, hwhole, hat, -⟩ := header_of_ok hheader
  obtain ⟨_, -, h⟩ := bind_eq_ok.mp h
  obtain ⟨id, -, h⟩ := bind_eq_ok.mp h
  obtain ⟨tlvs, rest, hcontents, hrest⟩ := exists_records Tlv.bytes_pos (pdu.drop (tlvsAt pdu))
  refine ⟨tlvs, require_eq_ok.mp hdiscriminator, require_eq_ok.mp hheaderLength, htype, hwhole, rest, ?_, hcontents⟩
  dsimp only at h
  rw [hat, loop_tlvs hwhole hcontents hrest] at h
  by_contra hlong
  rw [if_neg hlong] at h
  cases h

/-! ## What is reported as current -/

/-- The PDU is reported as it should be: current are the prefixes its reachability TLVs carry, if it is a link-state
PDU that is alive and can be verified, and otherwise none; a hello yields no prefix at all. -/
def ReportsLive (pdu : Bytes) (tlvs : List Tlv) : Prop :=
  ∃ decoded, parse pdu = .ok decoded ∧
    (∀ net, net ∈ (splitIsisPrefixes decoded).1.map Prod.fst ↔
      IsLinkState pdu ∧ lifetime pdu ≠ 0 ∧ (¬ ∃ t ∈ tlvs, t.IsDigest) ∧ ∃ t ∈ tlvs, t.Carries net) ∧
    (IsHello pdu → decoded.prefixes = [])

theorem mem_current (decoded : IsisPdu) (net : IpNet) :
    net ∈ (splitIsisPrefixes decoded).1.map Prod.fst ↔
      ¬ decoded.unverifiableAuthentication = true ∧ net ∈ decoded.nets := by
  unfold splitIsisPrefixes IsisPdu.nets
  dsimp only
  split
  case isTrue h => exact iff_of_false List.not_mem_nil fun h' => h'.1 h
  case isFalse h =>
    rw [List.map_map, and_iff_right h]
    rfl

/-- **When a PDU is reported as it should be.** A hello must carry nothing that reads as reachability, a PDU that can be
verified nothing either if it is purged, and otherwise what is read of the neighbours (222) must be among the prefixes,
and what is passed over as reachability (235) among those read. -/
theorem reportsLive_iff {pdu : Bytes} {tlvs : List Tlv} (h : IsPdu pdu tlvs) :
    ReportsLive pdu tlvs ↔
      (IsHello pdu → ∀ net, ¬ ∃ t ∈ tlvs, t.IsRead net) ∧
      (IsLinkState pdu → (¬ ∃ t ∈ tlvs, t.IsDigest) →
        if lifetime pdu = 0 then ∀ net, ¬ ∃ t ∈ tlvs, t.IsRead net
        else ∀ net, ((∃ t ∈ tlvs, t.code = 222 ∧ t.MultiTopology net) → ∃ t ∈ tlvs, t.Carries net) ∧
          ((∃ t ∈ tlvs, t.code = 235 ∧ t.MultiTopology net) → ∃ t ∈ tlvs, t.IsRead net)) := by
  obtain ⟨decoded, hparse, hadds⟩ := parse_of_isPdu h
  have hdigest : decoded.unverifiableAuthentication = true ↔ ∃ t ∈ tlvs, t.IsDigest := by
    rw [hadds.unverifiable]
    exact or_iff_right Bool.false_ne_true
  have hnets : ∀ net, net ∈ decoded.nets ↔ ∃ t ∈ tlvs, t.IsRead net := fun net => by
    rw [hadds.nets]
    exact or_iff_right List.not_mem_nil
  have hempty : decoded.prefixes = [] ↔ ∀ net, ¬ ∃ t ∈ tlvs, t.IsRead net := by
    simp only [← hnets, ← List.eq_nil_iff_forall_not_mem, IsisPdu.nets, List.map_eq_nil_iff]
  have hreports : ReportsLive pdu tlvs ↔
      (∀ net, ((¬ ∃ t ∈ tlvs, t.IsDigest) ∧ ∃ t ∈ tlvs, t.IsRead net) ↔
        IsLinkState pdu ∧ lifetime pdu ≠ 0 ∧ (¬ ∃ t ∈ tlvs, t.IsDigest) ∧ ∃ t ∈ tlvs, t.Carries net) ∧
      (IsHello pdu → decoded.prefixes = []) := by
    unfold ReportsLive
    simp only [← hnets, ← hdigest, ← mem_current]
    constructor
    · rintro ⟨decoded', hparse', hall⟩
      obtain rfl := Outcome.ok.inj (hparse.symm.trans hparse')
      exact hall
    · exact fun hall => ⟨decoded, hparse, hall⟩
  rw [hreports, hempty]
  constructor
  · rintro ⟨hcurrent, hhello⟩
    refine ⟨hhello, fun hstate hclear => ?_⟩
    split
    case isTrue hpurged =>
      intro net hread
      exact ((hcurrent net).mp ⟨hclear, hread⟩).2.1 hpurged
    case isFalse halive =>
      refine fun net => ⟨fun ⟨t, ht, hneighbours⟩ => ?_, fun ⟨t, ht, hmissed⟩ => ?_⟩
      · exact ((hcurrent net).mp ⟨hclear, t, ht, .inr hneighbours⟩).2.2.2
      · exact ((hcurrent net).mpr ⟨hstate, halive, hclear, t, ht, .inr hmissed⟩).2
  · rintro ⟨hhello, hstate⟩
    refine ⟨fun net => ⟨fun ⟨hclear, t, ht, hread⟩ => ?_, fun ⟨hls, halive, hclear, t, ht, hcarried⟩ => ?_⟩, hhello⟩
    · have hls : IsLinkState pdu := h.type.resolve_left fun hh => hhello hh net ⟨t, ht, hread⟩
      have hall := hstate hls hclear
      split at hall
      case isTrue => exact absurd ⟨t, ht, hread⟩ (hall net)
      case isFalse halive =>
        refine ⟨hls, halive, hclear, ?_⟩
        rcases hread with hcommon | hneighbours
        · exact ⟨t, ht, .inl hcommon⟩
        · exact (hall net).1 ⟨t, ht, hneighbours⟩
    · have hall := hstate hls hclear
      rw [if_neg halive] at hall
      refine ⟨hclear, ?_⟩
      rcases hcarried with hcommon | hmissed
      · exact ⟨t, ht, .inl hcommon⟩
      · exact (hall net).2 ⟨t, ht, hmissed⟩

/-- **When IS-IS PDUs are reported as they should be**, of all that are read. -/
theorem isis_prefixes_iff (pdu : Bytes) :
    (∀ decoded, parse pdu = .ok decoded → ∃ tlvs, IsPdu pdu tlvs) ∧
    ∀ tlvs, IsPdu pdu tlvs → (ReportsLive pdu tlvs ↔
      (IsHello pdu → ∀ net, ¬ ∃ t ∈ tlvs, t.IsRead net) ∧
      (IsLinkState pdu → (¬ ∃ t ∈ tlvs, t.IsDigest) →
        if lifetime pdu = 0 then ∀ net, ¬ ∃ t ∈ tlvs, t.IsRead net
        else ∀ net, ((∃ t ∈ tlvs, t.code = 222 ∧ t.MultiTopology net) → ∃ t ∈ tlvs, t.Carries net) ∧
          ((∃ t ∈ tlvs, t.code = 235 ∧ t.MultiTopology net) → ∃ t ∈ tlvs, t.IsRead net))) :=
  ⟨fun _ h => exists_tlvs h, fun _ h => reportsLive_iff h⟩

/-! ### Three PDUs -/

/-- Extended reachability of 192.168.51.0/24. -/
def reachTlv : Tlv := ⟨135, [0, 0, 0, 10, 24, 192, 168, 51], by decide⟩

/-- A neighbour in topology 2. -/
def neighbourTlv : Tlv := ⟨222, [0, 2, 0x19, 0x21, 0x68, 0, 0, 2, 0, 0, 0, 10, 0], by decide⟩

/-- A hello of level 2 with a TLV. -/
def helloPdu (t : Tlv) : Bytes :=
  [0x83, 27, 1, 6, 16, 1, 0, 3, 1, 0x19, 0x21, 0x68, 0, 0, 2, 0, 30, 0, 37, 64, 0x19, 0x21, 0x68, 0, 0, 2, 0] ++ t.bytes

/-- A link-state PDU of level 2 with a remaining lifetime and a TLV. -/
def linkStatePdu (lifetime : UInt8) (t : Tlv) : Bytes :=
  [0x83, 27, 1, 6, 20, 1, 0, 3, 0, 37, 0, lifetime, 0x19, 0x21, 0x68, 0, 0, 1, 0, 0, 0, 0, 0, 42, 0, 0, 3] ++ t.bytes

theorem reachTlv_isRead : reachTlv.IsRead (.v4 0xC0A83300#32 24) :=
  .inl (.inr (.inl ⟨rfl, ⟨[0, 0, 0, 10, 24, 192, 168, 51], by decide, by decide, by decide⟩, ⟨[], [], rfl⟩, by decide⟩))

/-- The bytes of a neighbour read as the default route. -/
theorem neighbourTlv_isRead : neighbourTlv.MultiTopology (.v4 0#32 0) :=
  ⟨by decide, ⟨[0x19, 0x21, 0x68, 0, 0], by decide, by decide, by decide⟩, ⟨[], [2, 0, 0, 0, 10, 0], rfl⟩, by decide⟩

theorem isis_prefixes_fail :
    (IsPdu (helloPdu reachTlv) [reachTlv] ∧ ¬ ReportsLive (helloPdu reachTlv) [reachTlv]) ∧
    (IsPdu (linkStatePdu 0 reachTlv) [reachTlv] ∧ ¬ ReportsLive (linkStatePdu 0 reachTlv) [reachTlv]) ∧
    IsPdu (linkStatePdu 30 neighbourTlv) [neighbourTlv] ∧
      ¬ ReportsLive (linkStatePdu 30 neighbourTlv) [neighbourTlv] := by
  have hhello : IsPdu (helloPdu reachTlv) [reachTlv] :=
    ⟨by decide, by decide, .inl (.inr (.inl rfl)), by decide, [], by decide, by decide⟩
  have hpurged : IsPdu (linkStatePdu 0 reachTlv) [reachTlv] :=
    ⟨by decide, by decide, .inr (.inr rfl), by decide, [], by decide, by decide⟩
  have hneighbour : IsPdu (linkStatePdu 30 neighbourTlv) [neighbourTlv] :=
    ⟨by decide, by decide, .inr (.inr rfl), by decide, [], by decide, by decide⟩
  refine ⟨⟨hhello, fun h => ?_⟩, ⟨hpurged, fun h => ?_⟩, hneighbour, fun h => ?_⟩
  · refine ((reportsLive_iff hhello).mp h).1 (.inr (.inl rfl)) _ ⟨reachTlv, List.mem_singleton_self _, reachTlv_isRead⟩
  · have hnone := ((reportsLive_iff hpurged).mp h).2 (.inr rfl) (by simp [reachTlv, Tlv.IsDigest])
    rw [if_pos (by decide)] at hnone
    exact hnone _ ⟨reachTlv, List.mem_singleton_self _, reachTlv_isRead⟩
  · have hsound := ((reportsLive_iff hneighbour).mp h).2 (.inr rfl) (by simp [neighbourTlv, Tlv.IsDigest])
    rw [if_neg (by decide)] at hsound
    obtain ⟨t, ht, hcarried⟩ := (hsound _).1 ⟨neighbourTlv, List.mem_singleton_self _, rfl, neighbourTlv_isRead⟩
    rw [List.mem_singleton.mp ht] at hcarried
    simp [Tlv.Carries, Tlv.Reaches, neighbourTlv] at hcarried

end Isis

end Idnx
