import Idnx.Topology.Evidence

/-!
# Observation domains

An identifier is only unique inside some domain: local observations are one, each peer vantage is another. Identifiers
that really are globally unique stay as they are; `qualifyDevice` namespaces the others with the suffix of the domain
they were seen in, and `splitQualifiedZone` takes such a suffix off again.
-/

namespace Idnx

/-- The domain an identifier is unique within. -/
inductive Realm where
  | localRealm
  | peerRealm (peer vantage : Text)
  deriving DecidableEq, Ord, Repr

namespace Realm

/-- The domain a piece of evidence belongs to. -/
def of : Option PeerOrigin → Realm
  | none => .localRealm
  | some origin => .peerRealm origin.peer origin.vantage

def isLocal : Realm → Bool
  | .localRealm => true
  | .peerRealm _ _ => false

/-- Suffix that makes an identifier unique across domains. -/
def suffix : Realm → Text
  | .localRealm => []
  | .peerRealm peer vantage => '@' :: peer ++ '/' :: vantage

end Realm

/-- The text, unless it is empty. -/
def nonempty (t : Text) : Option Text := if t.isEmpty then none else some t

/-- Splits a qualified zone back into its interface part and its domain. -/
def splitQualifiedZone (zone : Text) : Option Text × Realm :=
  match zone.splitOnce '@' with
  | none => (nonempty zone, .localRealm)
  | some (base, qualifier) =>
    match Text.splitOnce '/' qualifier with
    | none => (some zone, .localRealm)
    | some (peer, vantage) => (nonempty base, .peerRealm peer vantage)

/-- The domain a stored device identity belongs to. -/
def realmOfKey : DeviceKey → Realm
  | .scopedAddress _ zone => (splitQualifiedZone zone).2
  | .mac mac => (splitQualifiedZone mac).2
  | .address _ => .localRealm

/-- Whether an address is unique beyond the network it was seen on. -/
def isGloballyUniqueAddress : IpAddr → Bool
  | .v4 a =>
    !a.isPrivate && !a.isLinkLocal && !a.isLoopback && !a.isUnspecified && !a.isBroadcast &&
      !(a.octet 0 == 100 && (64 ≤ a.octet 1 && a.octet 1 < 128))
  | .v6 a =>
    !a.isLinkLocal && (a.segment 0 &&& 0xfe00) != 0xfc00 && !a.isLoopback && !a.isUnspecified && !a.isMulticast

/-- Whether a prefix names one network across the whole internet. -/
def isGloballyUniquePrefix (net : IpNet) : Bool := isGloballyUniqueAddress net.addr

/-- Whether a MAC identifies one device worldwide. -/
def isGloballyUniqueMac (mac : Text) : Bool :=
  match (Text.split ':' mac).head? with
  | none => false
  | some first =>
    match Text.parseHexU8 first with
    | none => false
    | some octet => octet &&& 0b10 == 0

/-- Qualifies a device identity with the domain it was observed in. -/
def qualifyDevice (key : DeviceKey) (realm : Realm) : DeviceKey :=
  if realm.isLocal then key
  else
    match key with
    | .mac mac => if isGloballyUniqueMac mac then .mac mac else .mac (mac ++ realm.suffix)
    | .address a => if isGloballyUniqueAddress a then .address a else .scopedAddress a realm.suffix
    | .scopedAddress a zone => .scopedAddress a (zone ++ realm.suffix)

/-- The domain a network's identity belongs to. -/
def networkRealm (net : IpNet) (realm : Realm) : Realm :=
  if isGloballyUniquePrefix net then .localRealm else realm

/-- The domain an address's identity belongs to. -/
def addressRealm (address : IpAddr) (realm : Realm) : Realm :=
  if isGloballyUniqueAddress address then .localRealm else realm

/-- The domain a purely local name belongs to. -/
def scopedRealm (realm : Realm) : Realm := realm

/-! ## What qualification does to an identity -/

theorem of_isLocal {o : Option PeerOrigin} : (Realm.of o).isLocal = o.isNone := by
  cases o <;> rfl

@[simp] theorem qualifyDevice_local (key : DeviceKey) : qualifyDevice key .localRealm = key := rfl

/-- Qualification never turns a hardware identity into an address, or the other way round. -/
@[simp] theorem isMac_qualifyDevice (key : DeviceKey) (r : Realm) : (qualifyDevice key r).isMac = key.isMac := by
  unfold qualifyDevice
  split_ifs with hl
  · rfl
  · cases key with
    | mac m => dsimp only; split_ifs <;> rfl
    | address a => dsimp only; split_ifs <;> rfl
    | scopedAddress a z => rfl

/-- A text that ends in the suffix of a peer's domain is never read back as local. -/
theorem splitQualifiedZone_suffix (t peer vantage : Text) :
    (splitQualifiedZone (t ++ (Realm.peerRealm peer vantage).suffix)).2 ≠ .localRealm := by
  -- the first `@` is in `t` or starts the suffix; either way the `/` of the suffix follows it
  obtain ⟨base, rest, h⟩ : ∃ base rest,
      Text.splitOnce '@' (t ++ (Realm.peerRealm peer vantage).suffix) = some (base, rest ++ '/' :: vantage) := by
    induction t with
    | nil => exact ⟨[], peer, by simp [Realm.suffix, Text.splitOnce_cons]⟩
    | cons c t ih =>
      by_cases hc : c = '@'
      · exact ⟨[], t ++ '@' :: peer, by simp [Realm.suffix, Text.splitOnce_cons, hc]⟩
      · obtain ⟨base, rest, h⟩ := ih
        exact ⟨c :: base, rest, by simp [Text.splitOnce_cons, hc, h]⟩
  unfold splitQualifiedZone
  rw [h]
  cases hs : Text.splitOnce '/' (rest ++ '/' :: vantage) with
  | none => rw [Text.splitOnce_eq_none] at hs; simp at hs
  | some pv => simp [hs]

theorem suffix_peerRealm (peer vantage : Text) :
    (Realm.peerRealm peer vantage).suffix = '@' :: (peer ++ '/' :: vantage) := rfl

theorem nonempty_inj {t u : Text} (h : nonempty t = nonempty u) : t = u := by
  unfold nonempty at h
  cases t <;> cases u <;> simp_all

/-- A qualified text is taken apart as it was put together exactly if it had no `@` of its own. -/
theorem splitQualifiedZone_suffix_iff {zone peer vantage : Text} (hpeer : '/' ∉ peer) :
    splitQualifiedZone (zone ++ (Realm.peerRealm peer vantage).suffix) = (nonempty zone, .peerRealm peer vantage) ↔
      '@' ∉ zone := by
  constructor
  · intro h hat
    unfold splitQualifiedZone at h
    cases hs : Text.splitOnce '@' (zone ++ (Realm.peerRealm peer vantage).suffix) with
    | none =>
      rw [Text.splitOnce_eq_none] at hs
      exact hs (List.mem_append_left _ hat)
    | some cut =>
      obtain ⟨base, qualifier⟩ := cut
      rw [hs] at h
      dsimp only at h
      split at h
      · exact absurd (Prod.ext_iff.mp h).2 nofun
      · -- what stands before the first `@` has none
        have hbase := (Text.eq_of_splitOnce hs).2
        rw [nonempty_inj (Prod.ext_iff.mp h).1] at hbase
        exact hbase hat
  · intro hat
    unfold splitQualifiedZone
    rw [suffix_peerRealm, Text.splitOnce_append hat]
    dsimp only
    rw [Text.splitOnce_append hpeer]

/-- A text is read as a peer's exactly if it has a `/` behind an `@`. -/
theorem splitQualifiedZone_local_iff {t : Text} :
    (splitQualifiedZone t).2 = .localRealm ↔ ¬∃ base peer vantage, t = base ++ '@' :: (peer ++ '/' :: vantage) := by
  unfold splitQualifiedZone
  cases hs : t.splitOnce '@' with
  | none =>
    rw [Text.splitOnce_eq_none] at hs
    refine ⟨fun _ => ?_, fun _ => rfl⟩
    rintro ⟨base, peer, vantage, rfl⟩
    exact hs (by simp)
  | some cut =>
    obtain ⟨base, qualifier⟩ := cut
    obtain ⟨rfl, hbase⟩ := Text.eq_of_splitOnce hs
    dsimp only
    cases hq : Text.splitOnce '/' qualifier with
    | none =>
      rw [Text.splitOnce_eq_none] at hq
      refine ⟨fun _ => ?_, fun _ => rfl⟩
      rintro ⟨front, peer, vantage, he⟩
      -- the first `@` is not behind the one of the other reading, and no `/` follows it
      rcases List.append_eq_append_iff.mp he with ⟨e, rfl, hrest⟩ | ⟨e, rfl, hrest⟩
      · cases e with
        | nil =>
          obtain ⟨-, rfl⟩ := List.cons.inj hrest
          exact hq (by simp)
        | cons c e =>
          obtain ⟨-, rfl⟩ := List.cons.inj hrest
          exact hq (by simp)
      · cases e with
        | nil =>
          obtain ⟨-, rfl⟩ := List.cons.inj hrest
          exact hq (by simp)
        | cons c e =>
          obtain ⟨rfl, -⟩ := List.cons.inj hrest
          exact hbase (by simp)
    | some cut =>
      obtain ⟨peer, vantage⟩ := cut
      obtain ⟨rfl, -⟩ := Text.eq_of_splitOnce hq
      exact ⟨nofun, fun h => absurd ⟨base, peer, vantage, rfl⟩ h⟩

/-- What `@` is put behind stays as ambiguous as it was: the first octet is the same, or is none any more. -/
theorem not_unique_of_at {mac rest : Text} (h : isGloballyUniqueMac mac = false) :
    isGloballyUniqueMac (mac ++ '@' :: rest) = false := by
  unfold isGloballyUniqueMac at h ⊢
  rw [Text.head?_split] at h ⊢
  by_cases hcolon : ':' ∈ mac
  · have hstop : (mac.takeWhile (· != ':')).length ≠ mac.length := by
      intro hlen
      rw [← (List.takeWhile_sublist (· != ':')).eq_of_length hlen] at hcolon
      exact absurd (List.all_eq_true.mp (List.all_takeWhile (p := (· != ':')) (l := mac)) ':' hcolon) (by decide)
    rw [List.takeWhile_append, if_neg hstop]
    exact h
  · have hall : ∀ c ∈ mac, (c != ':') = true := by
      intro c hc
      rw [bne_iff_ne]
      rintro rfl
      exact hcolon hc
    rw [List.takeWhile_append_of_pos hall]
    have hat : '@' ∈ mac ++ List.takeWhile (· != ':') ('@' :: rest) := by simp
    dsimp only
    rw [Text.parseHexU8_eq_none hat (by decide) (by decide)]

end Idnx
