import Idnx.Lib.Interleave
import Idnx.Topology.Fresh
import Idnx.Topology.Marks

/-!
# Peers and local observations

Records made here and records of peers are absorbed in any interleaving. Slots are kept per domain, so the two sides
meet in two places only: a globally unique address is one slot for all domains, and a globally unique MAC is one node.
What is compared is the run of an interleaving with the run of the local records alone (`interleaving_simulation`).

* `local_marks_survive`: what this machine observed of a device stays, as long as no peer states who holds a globally
  unique address that a local record names, and none sets aside an address observed here.
-/

namespace Idnx

section Claims

variable {g : TopologyGraph} {ev : TopologyEvidence} {slot : Slot} {key : DeviceKey}

/-- Only a record about a device's address claims a slot, and the slot is one of that address. -/
theorem fact_of_claimOf (h : g.claimOf ev = some (slot, key)) :
    ∃ device, ev.fact = .deviceAddress device slot.address := by
  unfold TopologyGraph.claimOf at h
  split at h
  · rename_i device address hf
    cases h
    unfold qualifyFact at hf
    split_ifs at hf
    · exact ⟨device, hf⟩
    · cases hfact : ev.fact with
      | deviceAddress d a => rw [hfact] at hf; cases hf; exact ⟨d, rfl⟩
      | _ => rw [hfact] at hf; cases hf
  · cases h

/-- A local record claims a slot of the local domain. -/
theorem realm_of_local_claim (hl : ev.origin = none) (h : g.claimOf ev = some (slot, key)) :
    slot.realm = .localRealm := by
  rw [(address_of_claimOf h).2]
  unfold recordSlot slotIn addressRealm
  rw [hl]
  split_ifs <;> rfl

/-- A peer's slot is of the local domain only if its address is globally unique. -/
theorem global_of_peer_slot (hp : ev.origin ≠ none) {x : IpAddr} {z : Option Text}
    (hr : (slotIn x z (Realm.of ev.origin)).realm = .localRealm) : isGloballyUniqueAddress x = true := by
  obtain ⟨o, ho⟩ := Option.ne_none_iff_exists'.mp hp
  by_contra hg
  rw [ho, slotIn, addressRealm, if_neg hg] at hr
  cases hr

theorem claimMark_congr {g' : TopologyGraph} (h : g.slotRecord slot = g'.slotRecord slot) (source : EvidenceSource)
    (k : DeviceKey) : g.claimMark slot key source k = g'.claimMark slot key source k := by
  have ho : g.addressOwner.lookup slot = g'.addressOwner.lookup slot := congrArg Prod.fst h
  have hb : g.addressBinding.lookup slot = g'.addressBinding.lookup slot := congrArg (fun r => r.2.1) h
  have hc : g.contestedAddresses.lookup slot = g'.contestedAddresses.lookup slot := congrArg (fun r => r.2.2) h
  unfold TopologyGraph.claimMark
  rw [ho, hb, hc]

end Claims

/-- Two graphs have the same tenure in every local slot of the given addresses. -/
def SameTenures (X : Set IpAddr) (s t : TopologyGraph) : Prop :=
  ∀ x ∈ X, ∀ z, s.tenure ⟨x, z, .localRealm⟩ = t.tenure ⟨x, z, .localRealm⟩

section Same

variable {X : Set IpAddr} {s t : TopologyGraph} {ev : TopologyEvidence}

theorem SameTenures.slotRecord (h : SameTenures X s t) (hs : SlotInv s) (ht : SlotInv t) {x : IpAddr} (hx : x ∈ X)
    (z : Option Text) : s.slotRecord ⟨x, z, .localRealm⟩ = t.slotRecord ⟨x, z, .localRealm⟩ := by
  rw [(hs _).2, (ht _).2, h x hx z]

theorem SameTenures.owner (h : SameTenures X s t) (hs : SlotInv s) (ht : SlotInv t) {x : IpAddr} (hx : x ∈ X)
    (z : Option Text) :
    s.addressOwner.lookup (slotIn x z .localRealm) = t.addressOwner.lookup (slotIn x z .localRealm) := by
  rw [slotIn_local]
  exact congrArg Prod.fst (h.slotRecord hs ht hx z)

/-- A local record that names only such addresses means the same in both graphs. -/
theorem SameTenures.plan (h : SameTenures X s t) (hs : SlotInv s) (ht : SlotInv t) (hl : ev.origin = none)
    (hX : ∀ x ∈ ev.fact.addresses, x ∈ X) :
    plan (s.addressOwner.lookup ·) ev = plan (t.addressOwner.lookup ·) ev ∧ s.claimOf ev = t.claimOf ev := by
  have hr : Realm.of ev.origin = .localRealm := by rw [hl]; rfl
  have hown : ∀ x ∈ ev.fact.addresses, ∀ z, s.addressOwner.lookup (slotIn x z (Realm.of ev.origin)) =
      t.addressOwner.lookup (slotIn x z (Realm.of ev.origin)) := by
    intro x hx z
    rw [hr]
    exact h.owner hs ht (hX x hx) z
  exact ⟨plan_congr hown, claimOf_congr hown⟩

/-- The slot a local record claims is recorded alike. -/
theorem SameTenures.claimed (h : SameTenures X s t) (hs : SlotInv s) (ht : SlotInv t) (hl : ev.origin = none)
    (hX : ∀ x ∈ ev.fact.addresses, x ∈ X) {slot : Slot} {key : DeviceKey} (hc : t.claimOf ev = some (slot, key)) :
    s.slotRecord slot = t.slotRecord slot := by
  have hr := realm_of_local_claim hl hc
  obtain ⟨x, z, r⟩ := slot
  subst hr
  exact h.slotRecord hs ht (hX x (address_of_claimOf hc).1) z

theorem SameTenures.absorb_local (h : SameTenures X s t) (hs : SlotInv s) (ht : SlotInv t) (hl : ev.origin = none)
    (hX : ∀ x ∈ ev.fact.addresses, x ∈ X) : SameTenures X (s.absorb ev) (t.absorb ev) := by
  intro x hx z
  rw [TopologyGraph.tenure_absorb hs, TopologyGraph.tenure_absorb ht]
  unfold TopologyGraph.claimed
  rw [(h.plan hs ht hl hX).2]
  split
  · rw [h x hx z]
  · exact h x hx z

/-- A peer's record that claims none of the addresses leaves them alone. -/
theorem SameTenures.absorb_peer (h : SameTenures X s t) (hs : SlotInv s) (hp : ev.origin ≠ none)
    (hX : ∀ device x, ev.fact = .deviceAddress device x → isGloballyUniqueAddress x = true → x ∉ X) :
    SameTenures X (s.absorb ev) t := by
  intro x hx z
  rw [TopologyGraph.tenure_absorb hs]
  unfold TopologyGraph.claimed
  cases hc : s.claimOf ev with
  | none => exact h x hx z
  | some sk =>
    obtain ⟨slot, key⟩ := sk
    dsimp only
    rw [if_neg]
    · exact h x hx z
    · rintro rfl
      obtain ⟨device, hf⟩ := fact_of_claimOf hc
      exact hX device x hf (global_of_peer_slot hp (congrArg Slot.realm (address_of_claimOf hc).2).symm) hx

end Same

/-! ## Local observations -/

/-- The record is a peer's, and sets aside an address that is not globally unique and that this machine observed on a
hardware node. -/
def TakesLocal (g : TopologyGraph) (ev : TopologyEvidence) : Prop :=
  ev.origin ≠ none ∧ ∃ k a, k.isMac = true ∧ isGloballyUniqueAddress a = false ∧ LocalMark g k a ∧ SetsAside g k a ev

/-- **Local observations survive.** -/
theorem local_marks_survive {L R M : List TopologyEvidence} (hM : Interleaving L R M)
    (hL : ∀ ev ∈ L, ev.origin = none) (hR : ∀ ev ∈ R, ev.origin ≠ none)
    (hshared : ∀ r ∈ R, ∀ device x, r.fact = .deviceAddress device x → isGloballyUniqueAddress x = true →
      ∀ l ∈ L, x ∉ l.fact.addresses)
    (htakes : Along TopologyGraph.absorb (fun _ g ev => ¬TakesLocal g ev) .new M)
    {k : DeviceKey} {a : IpAddr} (hk : k.isMac = true) (ha : isGloballyUniqueAddress a = false)
    (hmark : LocalMark (absorbAll L) k a) : LocalMark (absorbAll M) k a := by
  let X : Set IpAddr := {x | ∃ l ∈ L, x ∈ l.fact.addresses}
  let Rel : TopologyGraph → TopologyGraph → Prop := fun s t =>
    SlotInv s ∧ SlotInv t ∧ SameTenures X s t ∧ (∀ id, id ∈ t.nodes → id ∈ s.nodes) ∧
      ∀ k a, k.isMac = true → isGloballyUniqueAddress a = false → LocalMark t k a → LocalMark s k a
  have hsim : Rel (absorbAll M) (absorbAll L) := by
    refine interleaving_simulation hM (fun ev hev s t hst _ => ?_) (fun ev hev s t hst hC => ?_) ?_ htakes
    · -- a local record does the same in both runs
      obtain ⟨hs, ht, htenure, hnodes, hmarks⟩ := hst
      have hX : ∀ x ∈ ev.fact.addresses, x ∈ X := fun x hx => ⟨ev, hev, hx⟩
      have hl := hL ev hev
      obtain ⟨hplan, hclaim⟩ := htenure.plan hs ht hl hX
      refine ⟨slotInv_apply hs (.absorb ev), slotInv_apply ht (.absorb ev), htenure.absorb_local hs ht hl hX, ?_, ?_⟩
      · intro id hid
        rw [absorb_eq_plan, mem_nodes_foldl] at hid ⊢
        rw [hplan]
        rcases hid with hid | hid
        · exact .inl (hnodes id hid)
        · exact .inr hid
      · intro k a hk ha hm
        cases hc : t.claimOf ev with
        | none =>
          rw [localMark_absorb_of_none hc] at hm
          exact (localMark_absorb_of_none (hclaim.trans hc)).mpr (hmarks k a hk ha hm)
        | some sk =>
          obtain ⟨slot, key⟩ := sk
          rw [localMark_absorb_of_some hc] at hm
          rw [localMark_absorb_of_some (hclaim.trans hc), claimMark_congr (htenure.claimed hs ht hl hX hc)]
          cases hx : t.claimMark slot key ev.source k with
          | keep => rw [hx] at hm; exact hmarks k a hk ha hm
          | setAside holder => rw [hx] at hm; exact ⟨hmarks k a hk ha hm.1, hm.2⟩
          | hold =>
            rw [hx] at hm
            exact hm.imp (hmarks k a hk ha) fun h => ⟨h.1, h.2.1, h.2.2.imp id (hnodes _)⟩
          | contest =>
            rw [hx] at hm
            exact hm.imp (hmarks k a hk ha) fun h => ⟨h.1, h.2.1, h.2.2.imp id (hnodes _)⟩
    · -- a peer's record changes nothing that the local records consult, and takes no mark away
      obtain ⟨hs, ht, htenure, hnodes, hmarks⟩ := hst
      have hp := hR ev hev
      refine ⟨slotInv_apply hs (.absorb ev), ht, htenure.absorb_peer hs hp ?_, fun id hid => ?_,
        fun k a hk ha hm => ?_⟩
      · rintro device x hf hg ⟨l, hl, hx⟩
        exact hshared ev hev device x hf hg l hl hx
      · rw [absorb_eq_plan, mem_nodes_foldl]
        exact .inl (hnodes id hid)
      · have hm' := hmarks k a hk ha hm
        cases hc : s.claimOf ev with
        | none => exact (localMark_absorb_of_none hc).mpr hm'
        | some sk =>
          obtain ⟨slot, key⟩ := sk
          rw [localMark_absorb_of_some hc]
          cases hx : s.claimMark slot key ev.source k with
          | keep => exact hm'
          | hold => exact .inl hm'
          | contest => exact .inl hm'
          | setAside holder =>
            refine ⟨hm', fun he => hC ⟨hp, k, a, hk, ha, hm', ?_⟩⟩
            exact (setsAside_iff hc).mpr ⟨he.symm, holder, hx⟩
    · exact ⟨slotInv_new, slotInv_new, fun _ _ _ => rfl, fun _ h => h, fun _ _ _ _ h => h⟩
  exact hsim.2.2.2.2 k a hk ha hmark

/-- Two machines, one here and one at a peer, answer for `10.0.0.1`: what was observed here stays. -/
theorem local_marks_survive_peer_answer :
    LocalMark (absorbAll [sighting hwA (ip 10 0 0 1) .arpProbe none,
    sighting hwB (ip 10 0 0 1) .arpProbe (some branch)])
      hwA (ip 10 0 0 1) := by
  refine local_marks_survive (L := [sighting hwA (ip 10 0 0 1) .arpProbe none])
    (R := [sighting hwB (ip 10 0 0 1) .arpProbe (some branch)]) (.left _ (.right _ .nil)) (by simp [sighting])
    (by simp [sighting]) ?_ ?_ rfl (by decide) (by decide)
  · intro r hr device x hf hg
    rw [List.mem_singleton.mp hr] at hf
    cases hf
    exact absurd hg (by decide)
  · simp only [along_cons, along_nil, and_true]
    refine ⟨fun h => h.1 rfl, ?_⟩
    rintro ⟨-, k, a, -, -, -, slot, key, holder, hc, -, -, ho, -⟩
    -- the slot of the peer's domain is still free
    have hfree : ∀ sk ∈ (run TopologyGraph.absorb .new [sighting hwA (ip 10 0 0 1) .arpProbe none]).claimOf
        (sighting hwB (ip 10 0 0 1) .arpProbe (some branch)),
        (absorbAll [sighting hwA (ip 10 0 0 1) .arpProbe none]).addressOwner.lookup sk.1 = none := by decide
    have hnone := hfree _ hc
    exact absurd (hnone.symm.trans ho) (by simp)

/-- A peer's machine answers for a globally unique address that is known here from the cache only, and what was
observed here of the holder of that address is noted on the peer's machine. -/
theorem local_mark_follows_global_owner :
    ¬∀ (L R M : List TopologyEvidence), Interleaving L R M → (∀ ev ∈ L, ev.origin = none) →
      (∀ ev ∈ R, ev.origin ≠ none) → ∀ (k : DeviceKey) (a : IpAddr), k.isMac = true →
        isGloballyUniqueAddress a = false → LocalMark (absorbAll L) k a → LocalMark (absorbAll M) k a := by
  intro h
  let cached := sighting hwA (ip 8 8 8 8) .arpCache none
  let answered := sighting hwB (ip 8 8 8 8) .arpProbe (some branch)
  let leased := sighting (.address (ip 8 8 8 8)) (ip 10 0 0 9) .dhcpLease none
  have hkept := h [cached, leased] [answered] [cached, answered, leased] (.left _ (.right _ (.left _ .nil)))
    (by simp [cached, leased, sighting]) (by simp [answered, sighting]) hwA (ip 10 0 0 9) rfl (by decide)
    (by decide)
  have hlost : ¬LocalMark (absorbAll [cached, answered, leased]) hwA (ip 10 0 0 9) := by decide
  exact hlost hkept

/-! ## The part of the graph that only this machine's records describe -/

/-- An identity that means something in the local domain only: an address that is not globally unique, an address in a
local zone, a locally administered MAC. -/
def DeviceKey.LocalOnly : DeviceKey → Prop
  | .mac m => (splitQualifiedZone m).2 = .localRealm ∧ isGloballyUniqueMac m = false
  | .address a => isGloballyUniqueAddress a = false
  | .scopedAddress _ zone => (splitQualifiedZone zone).2 = .localRealm

/-- A node that means something in the local domain only. -/
def NodeId.LocalOnly : NodeId → Prop
  | .interface _ realm => realm = .localRealm
  | .network net realm => realm = .localRealm ∧ isGloballyUniquePrefix net = false
  | .vlan _ realm => realm = .localRealm
  | .device key => key.LocalOnly
  | .service address _ realm => realm = .localRealm ∧ isGloballyUniqueAddress address = false

/-- The graphs have the same local nodes with the same role signals, the same edges among them, and the same
path out. -/
structure SameLocally (s t : TopologyGraph) : Prop where
  nodes : ∀ id, id.LocalOnly → s.nodes.lookup id = t.nodes.lookup id
  roleWeights : ∀ id, id.LocalOnly → s.roleWeights.lookup id = t.roleWeights.lookup id
  edges : ∀ k : EdgeKey, k.source.LocalOnly → k.target.LocalOnly → s.edges.lookup k = t.edges.lookup k
  egressPath : s.egressPath = t.egressPath

section Agree

variable {s t : TopologyGraph} {ev : TopologyEvidence}

/-- A command that is no claim does the same to both graphs. -/
theorem SameLocally.exec (h : SameLocally s t) {c : Command} (hc : ∀ slot key, c ≠ .claim slot key) :
    SameLocally (exec ev s c) (exec ev t c) := by
  cases c with
  | claim slot key => exact absurd rfl (hc slot key)
  | upsert j kind =>
    refine { h with nodes := fun id hid => ?_ }
    rw [Idnx.exec, Idnx.exec, TopologyGraph.lookup_upsert, TopologyGraph.lookup_upsert]
    split_ifs with hj
    · rw [h.nodes j (hj ▸ hid)]
    · exact h.nodes id hid
  | note j note =>
    refine { h with nodes := fun id hid => ?_ }
    rw [Idnx.exec, Idnx.exec, TopologyGraph.lookup_modifyNode, TopologyGraph.lookup_modifyNode]
    split_ifs with hj
    · rw [h.nodes j (hj ▸ hid)]
    · exact h.nodes id hid
  | weigh j signal =>
    refine { h with roleWeights := fun id hid => ?_ }
    simp only [Idnx.exec, Map.lookup_upd]
    split_ifs with hj
    · rw [h.roleWeights j (hj ▸ hid)]
    · exact h.roleWeights id hid
  | link a b rel prov =>
    refine { h with edges := fun k ha hb => ?_ }
    rw [Idnx.exec, Idnx.exec, TopologyGraph.lookup_link, TopologyGraph.lookup_link]
    split_ifs with hk
    · subst hk
      rw [h.edges _ ha hb]
    · exact h.edges k ha hb
  | hop distance id =>
    refine { h with egressPath := ?_ }
    show s.egressPath.insert distance id = t.egressPath.insert distance id
    rw [h.egressPath]
  | vlanSeen vlan => exact ⟨h.nodes, h.roleWeights, h.edges, h.egressPath⟩
  | vlanBound vlan => exact ⟨h.nodes, h.roleWeights, h.edges, h.egressPath⟩

/-- So does a claim to a slot that is recorded alike. -/
theorem SameLocally.settleClaim (h : SameLocally s t) {slot : Slot} (hrec : s.slotRecord slot = t.slotRecord slot)
    (key : DeviceKey) (source : EvidenceSource) (remote : Bool) :
    SameLocally (s.settleClaim slot key source remote) (t.settleClaim slot key source remote) where
  nodes := by
    intro id hid
    cases id with
    | device k =>
      rw [TopologyGraph.lookup_settleClaim, TopologyGraph.lookup_settleClaim, claimMark_congr hrec, h.nodes _ hid]
    | _ =>
      rw [TopologyGraph.lookup_settleClaim_of_ne (fun _ he => by cases he),
        TopologyGraph.lookup_settleClaim_of_ne (fun _ he => by cases he), h.nodes _ hid]
  roleWeights := by simpa using h.roleWeights
  edges := by simpa using h.edges
  egressPath := by simpa using h.egressPath

/-- A record that means the same in both graphs does the same to both. -/
theorem SameLocally.absorb (h : SameLocally s t)
    (hplan : plan (s.addressOwner.lookup ·) ev = plan (t.addressOwner.lookup ·) ev)
    (hclaim : s.claimOf ev = t.claimOf ev)
    (hrec : ∀ slot key, t.claimOf ev = some (slot, key) → s.slotRecord slot = t.slotRecord slot) :
    SameLocally (s.absorb ev) (t.absorb ev) := by
  cases hc : t.claimOf ev with
  | some sk =>
    obtain ⟨slot, key⟩ := sk
    rw [TopologyGraph.absorb_of_claimOf hc, TopologyGraph.absorb_of_claimOf (hclaim.trans hc)]
    have hup : SameLocally (Idnx.exec ev s (.upsert (.device key) .host))
      (Idnx.exec ev t (.upsert (.device key) .host)) :=
      h.exec (fun _ _ he => by cases he)
    exact hup.settleClaim (hrec slot key hc) key ev.source _
  | none =>
    have hno : ∀ c ∈ plan (t.addressOwner.lookup ·) ev, ∀ slot key, c ≠ .claim slot key := by
      rintro c hmem slot key rfl
      obtain ⟨d, a, hf⟩ := claim_mem_planFact hmem
      simp [TopologyGraph.claimOf, hf] at hc
    rw [absorb_eq_plan, absorb_eq_plan, hplan]
    generalize plan (t.addressOwner.lookup ·) ev = cs at hno
    clear hplan hclaim hrec hc
    induction cs generalizing s t with
    | nil => exact h
    | cons c cs ih => exact ih (h.exec (hno c (by simp))) (fun d hd => hno d (by simp [hd]))

end Agree

/-! ## What a peer's record leaves alone -/

section Qualified

variable {peer vantage : Text}

/-- Whatever a peer names is qualified, or globally unique. -/
theorem not_localOnly_qualifyDevice (key : DeviceKey) : ¬(qualifyDevice key (.peerRealm peer vantage)).LocalOnly := by
  unfold qualifyDevice
  rw [if_neg (by simp [Realm.isLocal])]
  cases key with
  | mac m =>
    dsimp only
    split_ifs with hg
    · rintro ⟨-, h⟩
      rw [hg] at h
      cases h
    · rintro ⟨h, -⟩
      exact splitQualifiedZone_suffix m peer vantage h
  | address a =>
    dsimp only
    split_ifs with hg
    · intro h
      change isGloballyUniqueAddress a = false at h
      rw [hg] at h
      cases h
    · exact splitQualifiedZone_suffix [] peer vantage
  | scopedAddress a zone => exact splitQualifiedZone_suffix zone peer vantage

theorem not_localOnly_network (net : IpNet) :
    ¬(NodeId.network net (networkRealm net (.peerRealm peer vantage))).LocalOnly := by
  rintro ⟨hr, hg⟩
  unfold networkRealm at hr
  rw [if_neg (by simp [hg])] at hr
  cases hr

theorem not_localOnly_service (a : IpAddr) (port : UInt16) :
    ¬(NodeId.service a port (addressRealm a (.peerRealm peer vantage))).LocalOnly := by
  rintro ⟨hr, hg⟩
  unfold addressRealm at hr
  rw [if_neg (by simp [hg])] at hr
  cases hr

variable {owner : Slot → Option DeviceKey}

/-- An identity of a peer resolves to itself or to the owner of a slot it names. -/
theorem not_localOnly_resolveKey {key : DeviceKey} {address : Option IpAddr} (hkey : ¬key.LocalOnly)
    (h : ∀ x ∈ key.addresses ++ address.toList, ∀ z k,
      owner (slotIn x z (.peerRealm peer vantage)) = some k → ¬k.LocalOnly) :
    ¬(resolveKey owner key address (.peerRealm peer vantage)).LocalOnly := by
  unfold resolveKey
  cases hk : key.address? with
  | none => exact hkey
  | some addr =>
    have hown := h addr (by simp [DeviceKey.addresses, hk]) (TopologyGraph.keyZone key)
    dsimp only
    cases ho : owner (slotIn addr (TopologyGraph.keyZone key) (.peerRealm peer vantage)) with
    | some holder => exact hown holder ho
    | none =>
      cases address with
      | none => exact hkey
      | some a =>
        dsimp only
        cases ho' : owner (slotIn a (TopologyGraph.keyZone key) (.peerRealm peer vantage)) with
        | none => exact hkey
        | some holder => exact h a (by simp) _ holder ho'

end Qualified

/-- A command that leaves the local part of the graph alone. -/
def Command.Foreign : Command → Prop
  | .upsert id _ => ¬id.LocalOnly
  | .note id _ => ¬id.LocalOnly
  | .weigh id _ => ¬id.LocalOnly
  | .link source _ _ _ => ¬source.LocalOnly
  | .hop _ _ => False
  | .claim _ key => ¬key.LocalOnly
  | .vlanSeen _ => True
  | .vlanBound _ => True

/-- The facts that carry an identity past `qualifyFact`: a hop of a path, and a next hop that is not
globally unique. -/
def Fact.Unqualified : Fact → Prop
  | .forwardsToward _ _ _ _ => True
  | .routesTo _ _ (some hop) => isGloballyUniqueAddress hop = false
  | _ => False

section Foreign

variable {peer vantage : Text} {fact : Fact}

theorem not_localOnly_of_bridgeIdentity {text : Text} {key : DeviceKey}
    (h : (bridgeIdentity text).map (qualifyDevice · (.peerRealm peer vantage)) = some key) : ¬key.LocalOnly := by
  obtain ⟨k, -, rfl⟩ := Option.map_eq_some_iff.mp h
  exact not_localOnly_qualifyDevice k

/-- The devices of a peer's fact are qualified. -/
theorem not_localOnly_devices (hq : ¬fact.Unqualified) {key : DeviceKey}
    (hk : key ∈ (qualifyFact fact (.peerRealm peer vantage)).devices) : ¬key.LocalOnly := by
  unfold qualifyFact at hk
  rw [if_neg (by simp [Realm.isLocal])] at hk
  cases fact with
  | forwardsToward device toward distance previous => exact absurd trivial hq
  | routesTo device net nextHop =>
    simp only [Fact.devices, List.mem_cons, List.mem_ite_nil_right] at hk
    rcases hk with rfl | ⟨-, hk⟩
    · exact not_localOnly_qualifyDevice device
    · cases nextHop with
      | none => cases hk
      | some hop =>
        rw [List.mem_singleton.mp hk]
        exact hq
  | observedBehind device via =>
    simp only [Fact.devices, List.mem_cons, List.not_mem_nil, or_false] at hk
    rcases hk with rfl | rfl
    · exact not_localOnly_qualifyDevice device
    · exact not_localOnly_qualifyDevice via
  | network _ | vlan _ | vlanNetwork _ _ | interfaceNetwork _ _ | bridgeLink _ _ _ | service _ _ _ _ | resolvedAs _ _ =>
    cases hk
  | _ =>
    rw [List.mem_singleton.mp hk]
    exact not_localOnly_qualifyDevice _

/-- So are its bridges. -/
theorem not_localOnly_bridges {key : DeviceKey} (hk : key ∈ fact.bridges (.peerRealm peer vantage)) :
    ¬key.LocalOnly := by
  cases fact with
  | bridgeLink bridgeId rootId port =>
    simp only [Fact.bridges] at hk
    split at hk
    · rename_i bridge root hb hr
      simp only [List.mem_cons, List.not_mem_nil, or_false] at hk
      rcases hk with rfl | rfl
      · exact not_localOnly_of_bridgeIdentity hb
      · exact not_localOnly_of_bridgeIdentity hr
    · cases hk
  | _ => cases hk

/-- And the other nodes it adds. -/
theorem not_localOnly_places {id : NodeId} {kind : NodeKind}
    (h : (id, kind) ∈ fact.places (.peerRealm peer vantage)) :
    ¬id.LocalOnly := by
  have hscoped : scopedRealm (.peerRealm peer vantage) ≠ .localRealm := fun he => by cases he
  cases fact with
  | network net =>
    simp only [Fact.places, List.mem_ite_nil_right, List.mem_singleton, Prod.mk.injEq] at h
    rw [h.2.1]
    exact not_localOnly_network net
  | gatewayFor device net | routesTo device net nextHop | attachedTo device net =>
    simp only [Fact.places, List.mem_ite_nil_right, List.mem_singleton, Prod.mk.injEq] at h
    rw [h.2.1]
    exact not_localOnly_network net
  | interfaceNetwork interface net =>
    simp only [Fact.places, List.mem_ite_nil_right, List.mem_cons, List.not_mem_nil, or_false, Prod.mk.injEq] at h
    obtain ⟨-, ⟨rfl, -⟩ | ⟨rfl, -⟩⟩ := h
    exacts [not_localOnly_network net, hscoped]
  | vlan tag =>
    simp only [Fact.places, List.mem_singleton, Prod.mk.injEq] at h
    rw [h.1]
    exact hscoped
  | vlanNetwork tag net =>
    simp only [Fact.places, List.mem_cons, List.not_mem_nil, or_false, Prod.mk.injEq] at h
    rcases h with ⟨rfl, -⟩ | ⟨rfl, -⟩
    exacts [hscoped, not_localOnly_network net]
  | service address port protocol detail =>
    simp only [Fact.places, List.mem_singleton, Prod.mk.injEq] at h
    rw [h.1]
    exact not_localOnly_service address port
  | _ => cases h

/-- **A peer's record leaves the local part of the graph alone**, unless its fact slips past qualification. -/
theorem plan_foreign {ev : TopologyEvidence} {owner : Slot → Option DeviceKey} (hp : ev.origin ≠ none)
    (hq : ¬ev.fact.Unqualified)
    (h : ∀ x ∈ ev.fact.addresses, ∀ z k, owner (slotIn x z (Realm.of ev.origin)) = some k → ¬k.LocalOnly) :
    ∀ c ∈ plan owner ev, c.Foreign := by
  obtain ⟨o, ho⟩ := Option.ne_none_iff_exists'.mp hp
  have hr : Realm.of ev.origin = .peerRealm o.peer o.vantage := by rw [ho]; rfl
  have hscoped : scopedRealm (Realm.of ev.origin) ≠ .localRealm := by rw [hr]; exact fun he => by cases he
  intro c hc
  have hissue : Issues owner ev (qualifyFact ev.fact (Realm.of ev.origin)) c := mem_planFact_iff.mp hc
  have hrecord : ∀ x ∈ (qualifyFact ev.fact (Realm.of ev.origin)).addresses, ∀ k, owner (recordSlot ev x) = some k →
      ¬k.LocalOnly := by
    rw [addresses_qualifyFact]
    exact fun x hx => h x hx _
  have hfile : ∀ key ∈ (qualifyFact ev.fact (Realm.of ev.origin)).devices,
      ¬(fileUnder owner ev (qualifyFact ev.fact (Realm.of ev.origin)) key).LocalOnly := by
    intro key hk
    unfold fileUnder
    rw [hr] at h hk ⊢
    refine not_localOnly_resolveKey (not_localOnly_devices hq hk) fun x hx => h x ?_
    rw [← addresses_qualifyFact ev.fact (.peerRealm o.peer o.vantage)]
    exact mem_addresses_of_devices hk hx
  have hforward : ∀ key toward distance previous,
      qualifyFact ev.fact (Realm.of ev.origin) ≠ .forwardsToward key toward distance previous := by
    intro key toward distance previous he
    rw [qualifyFact_forwardsToward.mp he] at hq
    exact hq trivial
  generalize qualifyFact ev.fact (Realm.of ev.origin) = fact at hissue hrecord hfile hforward
  cases hissue with
  | file hk => exact hfile _ hk
  | bridge hk => rw [hr] at hk; exact not_localOnly_bridges hk
  | place hid => rw [hr] at hid; exact not_localOnly_places hid
  | holder hk => exact hrecord _ (by simp [Fact.addresses]) _ hk
  | remark hn => exact hfile _ (mem_devices_of_remark hn)
  | offer => show ¬NodeId.LocalOnly _; rw [hr]; exact not_localOnly_service _ _
  | resolve hk => exact hrecord _ (by simp [Fact.addresses]) _ hk
  | weigh => exact hfile _ (by simp [Fact.devices])
  | attach hf _ => exact hfile _ (mem_devices_of_attachment hf)
  | plug _ => exact hscoped
  | carry => exact hscoped
  | uplink hb _ _ => rw [hr] at hb; exact not_localOnly_of_bridgeIdentity hb
  | forward _ => exact absurd rfl (hforward _ _ _ _)
  | behind => exact hfile _ (by simp [Fact.devices])
  | advertise hk => exact hrecord _ (by simp [Fact.addresses]) _ hk
  | vlanSeen => trivial
  | vlanBound => trivial
  | hop => exact absurd rfl (hforward _ _ _ _)
  | claim => exact hfile _ (by simp [Fact.devices])

end Foreign

section Peer

variable {s t : TopologyGraph} {ev : TopologyEvidence}

/-- A slot gets no owner but the one a record claims it for. -/
theorem owner_absorb (hs : SlotInv s) {slot : Slot} {k : DeviceKey}
    (h : (s.absorb ev).addressOwner.lookup slot = some k) :
    s.addressOwner.lookup slot = some k ∨ s.claimOf ev = some (slot, k) := by
  have hs' : SlotInv (s.absorb ev) := slotInv_apply hs (.absorb ev)
  obtain ⟨since, ht⟩ := tenure_of_owner hs' h
  rw [TopologyGraph.tenure_absorb hs, TopologyGraph.claimed] at ht
  cases hc : s.claimOf ev with
  | none =>
    rw [hc] at ht
    exact .inl (owner_of_tenure hs ht).1
  | some sk =>
    obtain ⟨slot', key⟩ := sk
    rw [hc] at ht
    dsimp only at ht
    split_ifs at ht with hslot
    · subst hslot
      by_cases hk : key = k
      · exact .inr (by rw [hk])
      · exact .inl (owner_of_tenure hs (Tenure.claim_held_of_ne ht hk)).1
    · exact .inl (owner_of_tenure hs ht).1

theorem claim_mem_plan {slot : Slot} {key : DeviceKey} (h : s.claimOf ev = some (slot, key)) :
    Command.claim slot key ∈ plan (s.addressOwner.lookup ·) ev := by
  unfold TopologyGraph.claimOf at h
  split at h
  · rename_i device address hf
    cases h
    unfold plan
    rw [hf]
    exact List.mem_cons_of_mem _ List.mem_cons_self
  · cases h

theorem SameLocally.exec_foreign (h : SameLocally s t) {c : Command} (hf : c.Foreign)
    (hc : ∀ slot key, c ≠ .claim slot key) : SameLocally (Idnx.exec ev s c) t := by
  cases c with
  | claim slot key => exact absurd rfl (hc slot key)
  | upsert j kind =>
    refine { h with nodes := fun id hid => ?_ }
    rw [Idnx.exec, TopologyGraph.lookup_upsert, if_neg (by rintro rfl; exact hf hid)]
    exact h.nodes id hid
  | note j note =>
    refine { h with nodes := fun id hid => ?_ }
    rw [Idnx.exec, TopologyGraph.lookup_modifyNode, if_neg (by rintro rfl; exact hf hid)]
    exact h.nodes id hid
  | weigh j signal =>
    refine { h with roleWeights := fun id hid => ?_ }
    rw [Idnx.exec, Map.lookup_upd, if_neg (by rintro rfl; exact hf hid)]
    exact h.roleWeights id hid
  | link a b rel prov =>
    refine { h with edges := fun k ha hb => ?_ }
    rw [Idnx.exec, TopologyGraph.lookup_link, if_neg (by rintro rfl; exact hf ha)]
    exact h.edges k ha hb
  | hop distance id => exact hf.elim
  | vlanSeen vlan => exact ⟨h.nodes, h.roleWeights, h.edges, h.egressPath⟩
  | vlanBound vlan => exact ⟨h.nodes, h.roleWeights, h.edges, h.egressPath⟩

/-- A claim between identities that are not local marks no local node. -/
theorem SameLocally.settleClaim_foreign (h : SameLocally s t) {slot : Slot} {key : DeviceKey} (hk : ¬key.LocalOnly)
    (ho : ∀ k, s.addressOwner.lookup slot = some k → ¬k.LocalOnly) (source : EvidenceSource) (remote : Bool) :
    SameLocally (s.settleClaim slot key source remote) t where
  nodes := by
    intro id hid
    cases id with
    | device k =>
      have hkeep : s.claimMark slot key source k = .keep :=
        claimMark_keep (fun he => hk (he ▸ hid)) (fun he => ho k he hid)
      rw [TopologyGraph.lookup_settleClaim, hkeep, ← h.nodes _ hid]
      exact Option.map_id'
    | _ =>
      rw [TopologyGraph.lookup_settleClaim_of_ne (fun _ he => by cases he)]
      exact h.nodes _ hid
  roleWeights := by simpa using h.roleWeights
  edges := by simpa using h.edges
  egressPath := by simpa using h.egressPath

/-- A record whose commands are all foreign leaves the local part of the graph alone. -/
theorem SameLocally.absorb_foreign (h : SameLocally s t) (hf : ∀ c ∈ plan (s.addressOwner.lookup ·) ev, c.Foreign)
    (ho : ∀ slot key, s.claimOf ev = some (slot, key) →
      ∀ k, s.addressOwner.lookup slot = some k → ¬k.LocalOnly) : SameLocally (s.absorb ev) t := by
  cases hc : s.claimOf ev with
  | some sk =>
    obtain ⟨slot, key⟩ := sk
    have hk : ¬key.LocalOnly := hf _ (claim_mem_plan hc)
    have hup : SameLocally (Idnx.exec ev s (.upsert (.device key) .host)) t :=
      h.exec_foreign hk (fun _ _ he => by cases he)
    rw [TopologyGraph.absorb_of_claimOf hc]
    exact hup.settleClaim_foreign hk (ho slot key hc) ev.source _
  | none =>
    rw [absorb_eq_plan]
    refine foldl_exec_inv (P := fun g => SameLocally g t) (fun c hmem g hg => ?_) h
    refine hg.exec_foreign (hf c hmem) fun slot key he => ?_
    subst he
    obtain ⟨d, a, hfact⟩ := claim_mem_planFact hmem
    simp [TopologyGraph.claimOf, hfact] at hc

end Peer

/-- No side states who holds a globally unique address that the other side names. -/
def Apart (A B : List TopologyEvidence) : Prop :=
  ∀ a ∈ A, ∀ device x, a.fact = .deviceAddress device x → isGloballyUniqueAddress x = true →
    ∀ b ∈ B, x ∉ b.fact.addresses

/-- **Domains are kept apart**: what only this machine's records describe is the same with and without the records of
peers, in whatever order they come, as long as neither side states who holds a globally unique address that the other
names, and no peer reports a hop of a path or a next hop that is not globally unique. -/
theorem domains_kept_apart {L R M : List TopologyEvidence} (hM : Interleaving L R M)
    (hL : ∀ ev ∈ L, ev.origin = none) (hR : ∀ ev ∈ R, ev.origin ≠ none) (hRL : Apart R L) (hLR : Apart L R)
    (hq : ∀ ev ∈ R, ¬ev.fact.Unqualified) : SameLocally (absorbAll M) (absorbAll L) := by
  let X : Set IpAddr := {x | ∃ l ∈ L, x ∈ l.fact.addresses}
  -- the slots a peer's record consults
  let Peers : Slot → Prop := fun slot => slot.realm = .localRealm →
    isGloballyUniqueAddress slot.address = true ∧ ∃ r ∈ R, slot.address ∈ r.fact.addresses
  let Rel : TopologyGraph → TopologyGraph → Prop := fun s t =>
    SlotInv s ∧ SlotInv t ∧ SameTenures X s t ∧
      (∀ slot k, Peers slot → s.addressOwner.lookup slot = some k → ¬k.LocalOnly) ∧ SameLocally s t
  have hsim : Rel (absorbAll M) (absorbAll L) := by
    refine interleaving_simulation (C := fun _ _ => True) hM (fun ev hev s t hst _ => ?_)
      (fun ev hev s t hst _ => ?_) ?_ (fun _ _ _ _ => trivial)
    · obtain ⟨hs, ht, htenure, hown, hsame⟩ := hst
      have hX : ∀ x ∈ ev.fact.addresses, x ∈ X := fun x hx => ⟨ev, hev, hx⟩
      have hl := hL ev hev
      obtain ⟨hplan, hclaim⟩ := htenure.plan hs ht hl hX
      refine ⟨slotInv_apply hs (.absorb ev), slotInv_apply ht (.absorb ev), htenure.absorb_local hs ht hl hX, ?_,
        hsame.absorb hplan hclaim fun slot key hc => htenure.claimed hs ht hl hX hc⟩
      intro slot k hslot ho
      rcases owner_absorb hs ho with ho | hc
      · exact hown slot k hslot ho
      · -- a local record claims no slot that a peer's record consults
        obtain ⟨hg, r, hr, hx⟩ := hslot (realm_of_local_claim hl hc)
        obtain ⟨device, hf⟩ := fact_of_claimOf hc
        exact absurd hx (hLR ev hev device slot.address hf hg r hr)
    · obtain ⟨hs, ht, htenure, hown, hsame⟩ := hst
      have hp := hR ev hev
      have hpeers : ∀ x ∈ ev.fact.addresses, ∀ z, Peers (slotIn x z (Realm.of ev.origin)) := by
        intro x hx z hreal
        exact ⟨global_of_peer_slot hp hreal, ev, hev, hx⟩
      have hforeign : ∀ c ∈ plan (s.addressOwner.lookup ·) ev, c.Foreign :=
        plan_foreign hp (hq ev hev) fun x hx z k => hown _ k (hpeers x hx z)
      have hclaim : ∀ slot key, s.claimOf ev = some (slot, key) → Peers slot := by
        intro slot key hc
        obtain ⟨hx, he⟩ := address_of_claimOf hc
        rw [he]
        exact hpeers _ hx _
      refine ⟨slotInv_apply hs (.absorb ev), ht, htenure.absorb_peer hs hp ?_, ?_, ?_⟩
      · rintro device x hf hg ⟨l, hl, hx⟩
        exact hRL ev hev device x hf hg l hl hx
      · intro slot k hslot ho
        rcases owner_absorb hs ho with ho | hc
        · exact hown slot k hslot ho
        · exact hforeign _ (claim_mem_plan hc)
      · exact hsame.absorb_foreign hforeign fun slot key hc k ho => hown slot k (hclaim slot key hc) ho
    · refine ⟨slotInv_new, slotInv_new, fun _ _ _ => rfl, fun slot k _ ho => ?_, ⟨fun _ _ => rfl, fun _ _ => rfl,
        fun _ _ _ => rfl, rfl⟩⟩
      cases ho
  exact hsim.2.2.2.2

/-- The same private address here and at a peer. -/
theorem domains_kept_apart_private :
    SameLocally (absorbAll [sighting hwB (ip 10 0 0 1) .arpProbe (some branch),
    sighting hwA (ip 10 0 0 1) .arpProbe none])
      (absorbAll [sighting hwA (ip 10 0 0 1) .arpProbe none]) := by
  have hprivate : ∀ (device : DeviceKey) (origin : Option PeerOrigin) (B : List TopologyEvidence),
      Apart [sighting device (ip 10 0 0 1) .arpProbe origin] B := by
    intro device origin B a ha device' x hf hg
    rw [List.mem_singleton.mp ha] at hf
    cases hf
    exact absurd hg (by decide)
  exact domains_kept_apart (R := [sighting hwB (ip 10 0 0 1) .arpProbe (some branch)]) (.right _ (.left _ .nil))
    (by simp [sighting]) (by simp [sighting]) (hprivate _ _ _) (hprivate _ _ _)
    (by simp [sighting, Fact.Unqualified])

/-- A hop of this machine's path is filed under the hardware that a peer knows its globally unique address by. -/
theorem hop_named_by_peer :
    ¬∀ (L R M : List TopologyEvidence), Interleaving L R M → (∀ ev ∈ L, ev.origin = none) →
      (∀ ev ∈ R, ev.origin ≠ none) → SameLocally (absorbAll M) (absorbAll L) := by
  intro h
  let hop : TopologyEvidence :=
    { fact := .forwardsToward (.address (ip 8 8 8 8)) (ip 1 1 1 1) 1 none, source := .icmpProbe, confidence := .observed,
      vantage := "eth0" }
  let answered := sighting hwB (ip 8 8 8 8) .arpProbe (some branch)
  have hsame := (h [hop] [answered] [answered, hop] (.right _ (.left _ .nil)) (by simp [hop])
    (by simp [answered, sighting])).egressPath
  have hne : (absorbAll [answered, hop]).egressPath.lookup 1 ≠ (absorbAll [hop]).egressPath.lookup 1 :=
    by decide
  exact hne (by rw [hsame])

end Idnx
