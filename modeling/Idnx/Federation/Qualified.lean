import Idnx.Federation.Transport
import Idnx.Lib.Utf8
import Idnx.Providers.Keys

/-!
# Qualified identities

Evidence of a peer names devices that are only unique where the peer saw them, so their identities are qualified with
the domain they came from: `@`, the peer, `/` and the vantage behind the hardware address or the zone. The peer is
sixty-four digits and the vantage at most sixty-four bytes, so a second suffix cannot hide in the first
(`suffix_inj`): qualified identities are kept apart, but for an address without a zone and with an empty one.

What is behind the first `@` is read back as the domain. The zone and the hardware address are texts of the peer's,
and the chassis of a link-layer neighbour is a text of the neighbour's; one with an `@` in it is read wrongly.

* `qualified_identities_iff`: exactly when identities are kept apart, domains are read back, and a captured frame
  names no identity of a peer's.
-/

namespace Idnx

variable {crypto : Ed25519}

/-! ## Origins -/

/-- Where evidence comes from that the wire format admits: a peer, and the name of a vantage within its bound. -/
structure Origin (crypto : Ed25519) where
  peer : PeerId crypto
  vantage : Text
  bounded : vantage.asBytes.length ≤ maxVantageBytes

namespace Origin

/-- The domain of what comes from here. -/
def realm (o : Origin crypto) : Realm := .peerRealm o.peer.toHex o.vantage

theorem ext_of {o o' : Origin crypto} (hpeer : o.peer.toHex = o'.peer.toHex) (hvantage : o.vantage = o'.vantage) :
    o = o' := by
  obtain ⟨peer, vantage, bounded⟩ := o
  obtain ⟨peer', vantage', bounded'⟩ := o'
  cases PeerId.toHex_inj hpeer
  cases hvantage
  rfl

end Origin

/-- Every record of a bundle that passed the checks has such an origin. -/
theorem origin_of_prepare {libs : Libraries} {ledger : PeerLedger libs.crypto} {bundle : EvidenceBundle}
    {prepared : Prepared libs.crypto} (hcheck : checkMessage (.bundle bundle) = .ok ())
    (h : (ledger.prepare bundle).1 = .ok prepared) :
    ∃ o : Origin libs.crypto, ∀ ev ∈ prepared.evidence, Realm.of ev.origin = o.realm := by
  obtain ⟨reason, he⟩ | he | ⟨peer, evidence, -, hstamped, he⟩ := prepare_cases ledger bundle
  · rw [he] at h
    cases h
  · rw [he] at h
    cases h
  · rw [he] at h
    cases h
    refine ⟨⟨peer, bundle.vantage, (of_checkMessage hcheck).1⟩, fun ev hev => ?_⟩
    rw [(hstamped.isRemote hev).1]
    rfl

/-! ## The suffix -/

theorem forall_mem_toHex {P : Char → Prop} (h : ∀ n < 16, P (Nat.digitChar n)) (peer : PeerId crypto) :
    ∀ c ∈ peer.toHex, P c := by
  intro c hc
  obtain ⟨b, -, hb⟩ := List.mem_flatMap.mp hc
  exact forall_mem_hexByte h b c hb

theorem slash_not_mem_toHex (peer : PeerId crypto) : '/' ∉ peer.toHex :=
  fun hc => forall_mem_toHex (P := (· ≠ '/')) (by decide) peer '/' hc rfl

theorem length_toHex (peer : PeerId crypto) : peer.toHex.length = 64 := by
  have hlen : ∀ bytes : Bytes, (encodeHex bytes).length = 2 * bytes.length := by
    intro bytes
    induction bytes with
    | nil => rfl
    | cons b bytes ih =>
      unfold encodeHex at ih ⊢
      rw [List.flatMap_cons, List.length_append, ih, List.length_cons]
      show 2 + 2 * bytes.length = _
      omega
  rw [PeerId.toHex, hlen, peer.length_eq]

/-- A suffix tells what it was put behind, and where it came from. -/
theorem suffix_inj {o o' : Origin crypto} {t t' : Text} (h : t ++ o.realm.suffix = t' ++ o'.realm.suffix) :
    t = t' ∧ o = o' := by
  have hshort : ∀ o : Origin crypto, o.vantage.length ≤ o.peer.toHex.length := by
    intro o
    have hbytes := Text.length_le_asBytes o.vantage
    have hbound : o.vantage.asBytes.length ≤ 64 := o.bounded
    rw [length_toHex]
    omega
  obtain ⟨ht, hpeer, hvantage⟩ := Text.tagged_inj (by rw [length_toHex, length_toHex]) (hshort o) (hshort o')
    (slash_not_mem_toHex o.peer) (slash_not_mem_toHex o'.peer) h
  exact ⟨ht, Origin.ext_of hpeer hvantage⟩

/-! ## Identities are kept apart -/

/-- Whether an identity means one device everywhere, and so is not qualified. -/
def DeviceKey.globallyUnique : DeviceKey → Bool
  | .mac text => isGloballyUniqueMac text
  | .address a => isGloballyUniqueAddress a
  | .scopedAddress _ _ => false

/-- The text of an identity that a suffix is put behind. -/
def DeviceKey.text : DeviceKey → Text
  | .mac text => text
  | .address _ => []
  | .scopedAddress _ zone => zone

/-- The identity with a suffix put behind its text. -/
def DeviceKey.suffixed (suffix : Text) : DeviceKey → DeviceKey
  | .mac text => .mac (text ++ suffix)
  | .address a => .scopedAddress a ([] ++ suffix)
  | .scopedAddress a zone => .scopedAddress a (zone ++ suffix)

/-- One address, once without a zone and once with an empty one. -/
def SpelledTwice (k k' : DeviceKey) : Prop :=
  ∃ address, isGloballyUniqueAddress address = false ∧
    (k = .address address ∧ k' = .scopedAddress address [] ∨ k = .scopedAddress address [] ∧ k' = .address address)

section Apart

variable {o o' : Origin crypto} {k k' : DeviceKey}

theorem qualifyDevice_of_unique (h : k.globallyUnique = true) (o : Origin crypto) : qualifyDevice k o.realm = k := by
  unfold qualifyDevice
  rw [if_neg (by simp [Origin.realm, Realm.isLocal])]
  cases k with
  | mac mac => exact if_pos h
  | address a => exact if_pos h
  | scopedAddress a zone => cases h

/-- What an identity becomes that is not globally unique. -/
theorem qualifyDevice_of_ambiguous (h : k.globallyUnique = false) (o : Origin crypto) :
    qualifyDevice k o.realm = k.suffixed o.realm.suffix := by
  unfold qualifyDevice
  rw [if_neg (by simp [Origin.realm, Realm.isLocal])]
  cases k with
  | mac mac => exact if_neg (by simpa [DeviceKey.globallyUnique] using h)
  | address a => exact if_neg (by simpa [DeviceKey.globallyUnique] using h)
  | scopedAddress a zone => rfl

/-- Qualification does not make an identity look globally unique. -/
theorem globallyUnique_qualifyDevice (h : k.globallyUnique = false) (o : Origin crypto) :
    (qualifyDevice k o.realm).globallyUnique = false := by
  rw [qualifyDevice_of_ambiguous h]
  cases k with
  | mac mac => exact not_unique_of_at h
  | address a => rfl
  | scopedAddress a zone => rfl

/-- **When two qualified identities are equal.** -/
theorem qualifyDevice_eq_iff :
    qualifyDevice k o.realm = qualifyDevice k' o'.realm ↔
      (k = k' ∧ (k.globallyUnique = false → o = o')) ∨ (o = o' ∧ SpelledTwice k k') := by
  constructor
  · intro h
    cases hk : k.globallyUnique with
    | true =>
      cases hk' : k'.globallyUnique with
      | true =>
        rw [qualifyDevice_of_unique hk, qualifyDevice_of_unique hk'] at h
        exact .inl ⟨h, nofun⟩
      | false =>
        have hunique := globallyUnique_qualifyDevice hk' o'
        rw [← h, qualifyDevice_of_unique hk, hk] at hunique
        cases hunique
    | false =>
      cases hk' : k'.globallyUnique with
      | true =>
        have hunique := globallyUnique_qualifyDevice hk o
        rw [h, qualifyDevice_of_unique hk', hk'] at hunique
        cases hunique
      | false =>
        rw [qualifyDevice_of_ambiguous hk, qualifyDevice_of_ambiguous hk'] at h
        cases k with
        | mac mac =>
          cases k' with
          | mac mac' =>
            obtain ⟨rfl, rfl⟩ := suffix_inj (DeviceKey.mac.inj h)
            exact .inl ⟨rfl, fun _ => rfl⟩
          | address a' => cases h
          | scopedAddress a' zone' => cases h
        | address a =>
          cases k' with
          | mac mac' => cases h
          | address a' =>
            obtain ⟨rfl, hsuffix⟩ := DeviceKey.scopedAddress.inj h
            exact .inl ⟨rfl, fun _ => (suffix_inj hsuffix).2⟩
          | scopedAddress a' zone' =>
            obtain ⟨rfl, hsuffix⟩ := DeviceKey.scopedAddress.inj h
            obtain ⟨rfl, rfl⟩ := suffix_inj hsuffix
            exact .inr ⟨rfl, a, hk, .inl ⟨rfl, rfl⟩⟩
        | scopedAddress a zone =>
          cases k' with
          | mac mac' => cases h
          | address a' =>
            obtain ⟨rfl, hsuffix⟩ := DeviceKey.scopedAddress.inj h
            obtain ⟨rfl, rfl⟩ := suffix_inj hsuffix
            exact .inr ⟨rfl, a, hk', .inr ⟨rfl, rfl⟩⟩
          | scopedAddress a' zone' =>
            obtain ⟨rfl, hsuffix⟩ := DeviceKey.scopedAddress.inj h
            obtain ⟨rfl, rfl⟩ := suffix_inj hsuffix
            exact .inl ⟨rfl, fun _ => rfl⟩
  · rintro (⟨rfl, horigin⟩ | ⟨rfl, a, ha, ⟨rfl, rfl⟩ | ⟨rfl, rfl⟩⟩)
    · cases hk : k.globallyUnique with
      | true => rw [qualifyDevice_of_unique hk, qualifyDevice_of_unique hk]
      | false => rw [horigin hk]
    · exact qualifyDevice_of_ambiguous (k := .address a) ha o
    · exact (qualifyDevice_of_ambiguous (k := .address a) ha o).symm

end Apart

/-! ## Domains are read back -/

/-- What is stored tells the domain it was qualified with, and the text that was qualified. -/
def Recovered (k : DeviceKey) (realm : Realm) : Prop :=
  realmOfKey (qualifyDevice k realm) = (if k.globallyUnique then .localRealm else realm) ∧
    (k.globallyUnique = false → (splitQualifiedZone (qualifyDevice k realm).text).1 = nonempty k.text)

/-- The text of an identity has no `@`; if it is globally unique, none with a `/` behind it. -/
def Unmarked (k : DeviceKey) : Prop :=
  if k.globallyUnique then ¬∃ base peer vantage, k.text = base ++ '@' :: (peer ++ '/' :: vantage) else '@' ∉ k.text

theorem realmOfKey_eq (k : DeviceKey) : realmOfKey k = (splitQualifiedZone k.text).2 := by
  cases k <;> rfl

theorem text_suffixed (suffix : Text) (k : DeviceKey) : (k.suffixed suffix).text = k.text ++ suffix := by
  cases k <;> rfl

/-- **When a stored identity is read back.** -/
theorem recovered_iff (o : Origin crypto) (k : DeviceKey) : Recovered k o.realm ↔ Unmarked k := by
  unfold Recovered Unmarked
  cases hk : k.globallyUnique with
  | true =>
    rw [qualifyDevice_of_unique hk, if_pos rfl, if_pos rfl, realmOfKey_eq, splitQualifiedZone_local_iff]
    exact ⟨fun h => h.1, fun h => ⟨h, nofun⟩⟩
  | false =>
    rw [qualifyDevice_of_ambiguous hk, if_neg nofun, if_neg nofun, realmOfKey_eq, text_suffixed,
      ← @splitQualifiedZone_suffix_iff k.text _ o.vantage (slash_not_mem_toHex o.peer)]
    constructor
    · intro h
      exact Prod.ext (h.2 rfl) h.1
    · intro h
      exact ⟨congrArg Prod.snd h, fun _ => congrArg Prod.fst h⟩

/-! ## Identities of captured frames -/

section Frames

variable (crypto) (lib : NetText)

/-- A qualified identity of a peer's: the wire format admits the device, and it is not globally unique. -/
def PeerQualified (key : DeviceKey) : Prop :=
  ∃ (o : Origin crypto) (device : WireDevice) (k : DeviceKey),
    (∀ field ∈ device.textFields, field.2.asBytes.length ≤ maxTextBytes) ∧ device.toKey lib = .ok k ∧
      k.globallyUnique = false ∧ qualifyDevice k o.realm = key

/-- The text is a hardware address that a peer could report, with the suffix of the peer's domain. -/
def Disguised (text : Text) : Prop :=
  ∃ (o : Origin crypto) (mac : Text), mac.asBytes.length ≤ maxTextBytes ∧
    isGloballyUniqueMac mac.toAsciiLowercase = false ∧ text = mac.toAsciiLowercase ++ o.realm.suffix

variable {crypto lib}

theorem peerQualified_mac {text : Text} : PeerQualified crypto lib (.mac text) ↔ Disguised crypto text := by
  constructor
  · rintro ⟨o, device, k, hfields, hkey, hambiguous, hq⟩
    rw [qualifyDevice_of_ambiguous hambiguous] at hq
    cases device with
    | mac mac =>
      cases hkey
      cases hq
      exact ⟨o, mac, hfields _ List.mem_cons_self, hambiguous, rfl⟩
    | address addr =>
      rw [WireDevice.toKey] at hkey
      cases ha : parseAddress lib addr with
      | error e =>
        rw [ha] at hkey
        cases hkey
      | ok a =>
        rw [ha] at hkey
        cases hkey
        cases hq
    | scopedAddress addr zone =>
      rw [WireDevice.toKey] at hkey
      cases ha : parseAddress lib addr with
      | error e =>
        rw [ha] at hkey
        cases hkey
      | ok a =>
        rw [ha] at hkey
        cases hkey
        cases hq
  · rintro ⟨o, mac, hlen, hambiguous, rfl⟩
    refine ⟨o, .mac mac, .ofMac mac, ?_, rfl, hambiguous,
      qualifyDevice_of_ambiguous (k := .ofMac mac) hambiguous o⟩
    intro field hf
    rw [List.mem_singleton.mp hf]
    exact hlen

/-- A bare address is never a qualified one. -/
theorem not_peerQualified_address (a : IpAddr) : ¬PeerQualified crypto lib (.address a) := by
  rintro ⟨o, device, k, -, -, hambiguous, hq⟩
  rw [qualifyDevice_of_ambiguous hambiguous] at hq
  cases k <;> cases hq

/-- Nor is a hardware address without `@`. -/
theorem not_peerQualified_of_at {text : Text} (h : '@' ∉ text) : ¬PeerQualified crypto lib (.mac text) := by
  rw [peerQualified_mac]
  rintro ⟨o, mac, -, -, rfl⟩
  refine h (List.mem_append_right _ ?_)
  exact List.mem_cons_self

/-- No letter has `@` for its lower case. -/
theorem eq_at_of_toLower {c : Char} (h : c.toLower = '@') : c = '@' := by
  by_cases hc : c.val ≥ 'A'.val ∧ c.val ≤ 'Z'.val
  · have hval : c.toLower.val = c.val + ('a'.val - 'A'.val) := congrArg Char.val (dif_pos hc)
    rw [h] at hval
    have hlo : 65 ≤ c.val.toNat := UInt32.le_iff_toNat_le.mp hc.1
    have hhi : c.val.toNat ≤ 90 := UInt32.le_iff_toNat_le.mp hc.2
    have hnat := congrArg UInt32.toNat hval
    rw [UInt32.toNat_add, show ('a'.val - 'A'.val).toNat = 32 from rfl, show '@'.val.toNat = 64 from rfl] at hnat
    omega
  · have hself : c.toLower = c := dif_neg hc
    rwa [hself] at h

/-- Nor is any identity of a fact whose hardware address was printed, but for the chassis of a neighbour. -/
theorem disguised_of_convertFact {interface : Text} {now : Nat} {scope : Option IpNet} {fact : FrameFact}
    {ev : TopologyEvidence} {key : DeviceKey} (hprinted : fact.Printed)
      (hev : ev ∈ convertFact interface now scope fact)
    (hkey : key ∈ ev.fact.keys) (hq : PeerQualified crypto lib key) :
    ∃ n, fact = .linkLayerNeighbor n ∧ Disguised crypto n.chassisId.toAsciiLowercase := by
  rcases keys_of_convertFact hev hkey with ⟨a, rfl⟩ | ⟨text, htext, rfl⟩ | ⟨bridgeId, hbridge⟩ | ⟨n, rfl, rfl⟩
  · exact absurd hq (not_peerQualified_address a)
  · obtain ⟨octets, rfl⟩ := hprinted text htext
    rw [DeviceKey.ofMac, toAsciiLowercase_formatMac] at hq
    have hat := forall_mem_formatMac (P := (· ≠ '@')) (by decide) (by decide) octets
    exact absurd hq (not_peerQualified_of_at fun hmem => hat '@' hmem rfl)
  · have hdigit : ∀ c, (Text.hexDigit c).isSome = true → c.toLower ≠ '@' := by
      intro c hc he
      rw [eq_at_of_toLower he] at hc
      exact absurd hc (by decide)
    obtain ⟨text, rfl, hat⟩ := forall_mem_bridgeIdentity (P := (· ≠ '@')) hdigit (by decide) hbridge
    exact absurd hq (not_peerQualified_of_at fun hmem => hat '@' hmem rfl)
  · exact ⟨n, rfl, peerQualified_mac.mp hq⟩

end Frames

/-- The neighbour says something of itself besides its identifiers. -/
def LldpNeighbor.States (n : LldpNeighbor) : Prop :=
  n.systemName ≠ none ∨ n.systemDescription ≠ none ∨ n.capabilities.filterMap neighborSignal ≠ [] ∨
  n.managementIp ≠ none

theorem states_iff {interface : Text} {now : Nat} {n : LldpNeighbor} :
    n.States ↔ ∃ ev, ev ∈ convertNeighbor interface now n := by
  rw [← not_iff_not]
  simp only [LldpNeighbor.States, not_or, not_not, not_exists, ← List.eq_nil_iff_forall_not_mem, convertNeighbor,
    List.append_eq_nil_iff, List.map_eq_nil_iff, Option.toList_eq_nil_iff, and_assoc]

/-- **When the identities of captured frames are not a peer's.** -/
theorem frame_identities_iff {lib : NetText} {frame : Bytes} {facts : List FrameFact} {interface : Text} {now : Nat}
    {scope : Option IpNet} (hdecode : decodeFrame frame = (.ok facts : Outcome Unit _)) :
    (∀ ev ∈ convert interface now facts scope, ∀ key ∈ ev.fact.keys, ¬PeerQualified crypto lib key) ↔
      ∀ n, .linkLayerNeighbor n ∈ facts → n.States → ¬Disguised crypto n.chassisId.toAsciiLowercase := by
  constructor
  · intro h n hn hstates hdisguised
    obtain ⟨ev, hev⟩ := states_iff.mp hstates
    refine h ev (mem_convert.mpr ⟨_, hn, hev⟩) (.ofMac n.chassisId) ?_ (peerQualified_mac.mpr hdisguised)
    rw [about_convertNeighbor n ev hev]
    exact List.mem_cons_self
  · intro h ev hev key hkey hq
    obtain ⟨fact, hfact, hev⟩ := mem_convert.mp hev
    obtain ⟨n, rfl, hdisguised⟩ := disguised_of_convertFact
      (printed_decodeFrame frame facts hdecode fact hfact) hev hkey hq
    exact h n hfact (states_iff.mpr ⟨ev, hev⟩) hdisguised

/-- **Exactly when qualified identities mean what they should.** For all origins and devices the wire format admits:
two qualified identities that are equal come from one identity, and from one origin unless it is globally unique, but
for one address spelled without a zone and with an empty one; a stored identity tells its domain and its text if the
text is unmarked; and a captured frame names no peer's identity unless a link-layer neighbour announces one for its
chassis. -/
theorem qualified_identities_iff (crypto : Ed25519) (lib : NetText) :
    (∀ (o o' : Origin crypto) (k k' : DeviceKey),
      (qualifyDevice k o.realm = qualifyDevice k' o'.realm → k = k' ∧ (k.globallyUnique = false → o = o')) ↔
        ¬(o = o' ∧ SpelledTwice k k')) ∧
    (∀ (o : Origin crypto) (k : DeviceKey), Recovered k o.realm ↔ Unmarked k) ∧
    ∀ (frame : Bytes) (facts : List FrameFact) (interface : Text) (now : Nat) (scope : Option IpNet),
      decodeFrame frame = (.ok facts : Outcome Unit _) →
        ((∀ ev ∈ convert interface now facts scope, ∀ key ∈ ev.fact.keys, ¬PeerQualified crypto lib key) ↔
          ∀ n, .linkLayerNeighbor n ∈ facts → n.States → ¬Disguised crypto n.chassisId.toAsciiLowercase) := by
  refine ⟨fun o o' k k' => ⟨?_, ?_⟩, recovered_iff, fun _ _ _ _ _ => frame_identities_iff⟩
  · rintro h ⟨rfl, htwice⟩
    have hsame := (h (qualifyDevice_eq_iff.mpr (.inr ⟨rfl, htwice⟩))).1
    obtain ⟨a, -, ⟨rfl, rfl⟩ | ⟨rfl, rfl⟩⟩ := htwice
    · cases hsame
    · cases hsame
  · intro h hq
    exact (qualifyDevice_eq_iff.mp hq).resolve_right h

/-! ## A disguised neighbour -/

/-- The peer of the sample bundle, at a vantage of its. -/
def sampleOrigin : Origin sampleLibs.crypto := ⟨samplePeer, "en0", by decide⟩

/-- A chassis identifier that is a hardware address in the domain of that peer. -/
def disguisedChassis : Text := 'x' :: sampleOrigin.realm.suffix

/-- An LLDP frame that announces a chassis of this many bytes, with a port and a name. -/
def announcing (chassis : Text) (length : UInt8) : Bytes :=
  [0x01, 0x80, 0xC2, 0x00, 0x00, 0x0E, 0x02, 0x00, 0x5E, 0x00, 0x00, 0x01, 0x88, 0xCC] ++
    ([0x02, length + 1, 0x07] ++ chassis.asBytes) ++ [0x04, 0x02, 0x05, 0x70] ++ [0x0A, 0x01, 0x72] ++ [0x00, 0x00]

/-- What is announced. -/
def announced (chassis : Text) : FrameFact :=
  .linkLayerNeighbor
    { chassisId := chassis, portId := "p", systemName := some "r", systemDescription := none, managementIp := none,
      capabilities := [] }

/-- Identities that should differ and do not: one address without a zone and with an empty one; a zone that is read as
a domain other than the one it was qualified with; and a neighbour that takes the identity of a peer's device. -/
theorem qualified_identities_misread :
    (qualifyDevice (.address (.v4 0x0A000001)) sampleOrigin.realm =
      qualifyDevice (.scopedAddress (.v4 0x0A000001) []) sampleOrigin.realm) ∧
    realmOfKey (qualifyDevice (.scopedAddress (.v4 0x0A000001) "eth0@home/lan") sampleOrigin.realm) ≠
      sampleOrigin.realm ∧
    decodeFrame (announcing disguisedChassis 70) = (.ok [announced disguisedChassis] : Outcome Unit _) ∧
    ∃ ev ∈ convertUnscoped "eth0" 0 [announced disguisedChassis], ∃ key ∈ ev.fact.keys,
      key = qualifyDevice (.mac "x") sampleOrigin.realm := by
  refine ⟨by decide, by decide, by decide, ?_⟩
  exact ⟨_, mem_convert.mpr ⟨_, List.mem_cons_self, List.mem_cons_self⟩, _, List.mem_cons_self, by decide⟩

/-- Of an ordinary zone and an ordinary neighbour all is well. -/
theorem qualified_identities_iff_ordinary :
    (qualifyDevice (.scopedAddress (.v4 0x0A000001) "eth0") sampleOrigin.realm =
        qualifyDevice (.scopedAddress (.v4 0x0A000001) "eth1") sampleOrigin.realm →
      DeviceKey.scopedAddress (.v4 0x0A000001) "eth0" = .scopedAddress (.v4 0x0A000001) "eth1" ∧
        ((DeviceKey.scopedAddress (.v4 0x0A000001) "eth0").globallyUnique = false → sampleOrigin = sampleOrigin)) ∧
    Recovered (.scopedAddress (.v4 0x0A000001) "eth0") sampleOrigin.realm ∧
    ∀ ev ∈ convertUnscoped "eth0" 0 [announced "core-1"], ∀ key ∈ ev.fact.keys,
      ¬PeerQualified sampleLibs.crypto sampleLibs.text key := by
  obtain ⟨hapart, hread, hframes⟩ := qualified_identities_iff sampleLibs.crypto sampleLibs.text
  have hdecode : decodeFrame (announcing "core-1" 6) = (.ok [announced "core-1"] : Outcome Unit _) :=
    by decide
  refine ⟨(hapart _ _ _ _).mpr ?_, (hread _ _).mpr ?_, (hframes _ _ _ _ none hdecode).mpr ?_⟩
  · rintro ⟨-, a, -, ⟨h, -⟩ | ⟨-, h⟩⟩
    · cases h
    · cases h
  · show '@' ∉ ("eth0" : Text)
    decide
  · rintro n hn - ⟨o, mac, -, -, htext⟩
    cases List.mem_singleton.mp hn
    have hat : '@' ∈ Text.toAsciiLowercase "core-1" := by
      rw [htext]
      exact List.mem_append_right _ List.mem_cons_self
    exact absurd hat (by decide)

end Idnx
