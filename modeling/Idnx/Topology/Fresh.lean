import Idnx.Topology.Merge

/-!
# Fresh claims

An active answer of this run (`ArpProbe`, `NdpProbe`) is the strongest claim to an address. The graph keeps for each
slot the source of the last claim its owner made, so an owner that is seen again in a cache forgets that it has
answered (`Relapses`). That is the only way a fresh claim is lost:

* `contested_of_fresh_claims`: two hardware identities that both answered for a slot end up in dispute over it, in
  every order of the evidence in which neither relapses; `relapse_exploited` shows what a relapse costs;
* `fresh_owner_stays` and `fresh_owner_defended`: an owner that has answered keeps the slot against everything weaker,
  and keeps the address and the freshness of the binding exactly as long as it neither relapses nor has the address
  set aside in another slot (`SetsAside`).
-/

namespace Idnx

/-- The record states that `k` answered for the slot in this run. -/
def FreshClaim (ev : TopologyEvidence) (s : Slot) (k : DeviceKey) : Prop :=
  statedClaim ev = some (s, k) ∧ bindingFreshness ev.source = freshnessConfirmed

instance (ev : TopologyEvidence) (s : Slot) (k : DeviceKey) : Decidable (FreshClaim ev s k) :=
  inferInstanceAs (Decidable (_ ∧ _))

/-- `k` owns the slot by an active answer, and the record claims the slot for `k` on a weaker source. -/
def Relapses (g : TopologyGraph) (s : Slot) (k : DeviceKey) (ev : TopologyEvidence) : Prop :=
  g.claimOf ev = some (s, k) ∧ bindingFreshness ev.source < freshnessConfirmed ∧
    g.addressOwner.lookup s = some k ∧
      (g.addressBinding.lookup s).map bindingFreshness = some freshnessConfirmed

instance (g : TopologyGraph) (s : Slot) (k : DeviceKey) (ev : TopologyEvidence) : Decidable (Relapses g s k ev) :=
  inferInstanceAs (Decidable (_ ∧ _))

section Step

variable {g : TopologyGraph} {ev : TopologyEvidence} {s : Slot} {k : DeviceKey}

/-- A hardware identity is its own resolution. -/
theorem claimOf_of_stated (hk : k.isMac = true) (h : statedClaim ev = some (s, k)) : g.claimOf ev = some (s, k) := by
  unfold statedClaim at h
  unfold TopologyGraph.claimOf
  split at h
  · rename_i d a hf
    simp only [Option.some.injEq, Prod.mk.injEq] at h
    obtain ⟨rfl, rfl⟩ := h
    cases d with
    | mac m => simp [TopologyGraph.canonicalKey, DeviceKey.address?]
    | address a => cases hk
    | scopedAddress a z => cases hk
  · cases h

theorem relapses_of_lapse (hinv : SlotInv g) (hc : g.claimOf ev = some (s, k))
    (hl : (g.tenure s).Lapse bindingPolicy k ev.source) : Relapses g s k ev := by
  cases ht : g.tenure s with
  | vacant => rw [ht] at hl; exact hl.elim
  | disputed cs => rw [ht] at hl; exact hl.elim
  | held holder since =>
    rw [ht] at hl
    obtain ⟨rfl, hsince, hsource⟩ := hl
    obtain ⟨ho, hb⟩ := owner_of_tenure hinv ht
    refine ⟨hc, hsource, ho, ?_⟩
    rw [hb]
    exact congrArg some hsince

/-- **One record.** The slot still records the identities it recorded, none of which relapses, and the one the record
answers for. -/
theorem records_absorb {J : Set DeviceKey} (hinv : SlotInv g) (hJ : ∀ j ∈ J, j.isMac = true)
    (hr : (g.tenure s).Records bindingPolicy J) (hl : ∀ j ∈ J, ¬Relapses g s j ev) :
    ((g.absorb ev).tenure s).Records bindingPolicy
      {j | j ∈ J ∨ (g.claimOf ev = some (s, j) ∧ j.isMac = true ∧ bindingFreshness ev.source = freshnessConfirmed)} := by
  rw [TopologyGraph.tenure_absorb hinv]
  unfold TopologyGraph.claimed
  cases hc : g.claimOf ev with
  | none => exact hr.mono (by simp)
  | some sk =>
    obtain ⟨slot, key⟩ := sk
    dsimp only
    split_ifs with hs
    · subst hs
      refine (Tenure.records_claim hJ hr fun hk hlapse => hl key hk (relapses_of_lapse hinv hc hlapse)).mono ?_
      rintro j (hj | ⟨he, hm, hf⟩)
      · exact .inl hj
      · simp only [Option.some.injEq, Prod.mk.injEq, true_and] at he
        subst he
        exact .inr ⟨rfl, hm, hf⟩
    · refine hr.mono ?_
      rintro j (hj | ⟨he, -, -⟩)
      · exact hj
      · simp only [Option.some.injEq, Prod.mk.injEq] at he
        exact absurd he.1.symm hs

end Step

/-! ## Two fresh claims -/

section Sample

/-- A record, made on `eth0`, that `device` has `address`. -/
def sighting (device : DeviceKey) (address : IpAddr) (source : EvidenceSource) (origin : Option PeerOrigin) :
    TopologyEvidence where
  fact := .deviceAddress device address
  source := source
  confidence := .observed
  vantage := "eth0"
  origin := origin

/-- The address `a.b.c.d`. -/
def ip (a b c d : Nat) : IpAddr := .v4 (.new a b c d)

/-- Two pieces of hardware. -/
def hwA : DeviceKey := .mac "00:00:00:00:00:0a"

def hwB : DeviceKey := .mac "00:00:00:00:00:0b"

/-- A peer. -/
def branch : PeerOrigin := ⟨"branch", "eth0", 1, 0⟩

end Sample

/-- The slot has no owner and is contested, by `a` and `b` among others. -/
def ContestedBetween (g : TopologyGraph) (s : Slot) (a b : DeviceKey) : Prop :=
  ∃ claimants, g.contestedAddresses.lookup s = some claimants ∧ a ∈ claimants ∧ b ∈ claimants ∧
    g.addressOwner.lookup s = none

/-- **Contest detection.** Two hardware identities that both answered for a slot are in dispute over it after any
order of the records in which neither relapses. -/
theorem contested_of_fresh_claims {L M : List TopologyEvidence} (hperm : M.Perm L) {s : Slot} {a b : DeviceKey}
    (ha : a.isMac = true) (hb : b.isMac = true) (hab : a ≠ b)
    (hfa : ∃ ev ∈ L, FreshClaim ev s a) (hfb : ∃ ev ∈ L, FreshClaim ev s b)
    (hM : Along TopologyGraph.absorb (fun _ g ev => ¬Relapses g s a ev ∧ ¬Relapses g s b ev) .new M) :
    ContestedBetween (absorbAll M) s a b := by
  -- the identities among `a` and `b` that have answered so far stay on record
  let J : List TopologyEvidence → Set DeviceKey := fun h => {k | (k = a ∨ k = b) ∧ ∃ ev ∈ h, FreshClaim ev s k}
  have hmac : ∀ h, ∀ j ∈ J h, j.isMac = true := by
    rintro h j ⟨rfl | rfl, -⟩
    · exact ha
    · exact hb
  have hrec : Always TopologyGraph.absorb (fun h g => SlotInv g ∧
    (g.tenure s).Records bindingPolicy (J h)) .new M := by
    refine always_of_along ⟨slotInv_new, ?_⟩ (fun h ev hP hC => ?_) hM
    · rintro k ⟨-, ev, hev, -⟩
      cases hev
    · obtain ⟨hinv, hr⟩ := hP
      refine ⟨slotInv_apply hinv (.absorb ev), ?_⟩
      have hl : ∀ j ∈ J h, ¬Relapses (run TopologyGraph.absorb .new h) s j ev := by
        rintro j ⟨rfl | rfl, -⟩
        · exact hC.1
        · exact hC.2
      refine (records_absorb hinv (hmac h) hr hl).mono ?_
      rintro j ⟨hj, ev', hev', hf⟩
      rcases List.mem_append.mp hev' with hev' | hev'
      · exact .inl ⟨hj, ev', hev', hf⟩
      · rw [List.mem_singleton] at hev'
        subst hev'
        have hjm : j.isMac = true := by rcases hj with rfl | rfl <;> assumption
        exact .inr ⟨claimOf_of_stated hjm hf.1, hjm, hf.2⟩
  obtain ⟨hinv, hr⟩ := hrec.last
  have hmem : ∀ k, (k = a ∨ k = b) → (∃ ev ∈ L, FreshClaim ev s k) → k ∈ J M := by
    rintro k hk ⟨ev, hev, hf⟩
    exact ⟨hk, ev, hperm.mem_iff.mpr hev, hf⟩
  obtain ⟨cs, ht, hca, hcb⟩ := hr.disputed (hmem a (.inl rfl) hfa) (hmem b (.inr rfl) hfb) hab
  obtain ⟨hc, ho⟩ := contested_of_tenure hinv ht
  exact ⟨cs, hc, hca, hcb, ho⟩

/-- Two machines answer for `10.0.0.1`, with a cache entry for the second one before: the address is contested. -/
theorem contested_of_fresh_claims_pair :
    ContestedBetween (absorbAll [sighting hwB (ip 10 0 0 1) .arpCache none, sighting hwA (ip 10 0 0 1) .arpProbe none,
      sighting hwB (ip 10 0 0 1) .arpProbe none]) ⟨ip 10 0 0 1, none, .localRealm⟩ hwA hwB :=
  contested_of_fresh_claims (.refl _) rfl rfl (by decide)
    ⟨sighting hwA (ip 10 0 0 1) .arpProbe none, by simp, by decide⟩
    ⟨sighting hwB (ip 10 0 0 1) .arpProbe none, by simp, by decide⟩ (by
      simp only [along_cons, along_nil, and_true]
      decide)

/-- A cache entry for the first machine in between, and the second answer takes the address without a dispute. -/
theorem contest_missed_after_relapse :
    ¬∀ (L M : List TopologyEvidence) (s : Slot) (a b : DeviceKey), M.Perm L → a.isMac = true → b.isMac = true →
      a ≠ b → (∃ ev ∈ L, FreshClaim ev s a) → (∃ ev ∈ L, FreshClaim ev s b) →
      ContestedBetween (absorbAll M) s a b := by
  intro h
  let L := [sighting hwA (ip 10 0 0 1) .arpProbe none, sighting hwA (ip 10 0 0 1) .arpCache none,
    sighting hwB (ip 10 0 0 1) .arpProbe none]
  obtain ⟨claimants, hc, -⟩ := h L L ⟨ip 10 0 0 1, none, .localRealm⟩ hwA hwB (.refl _) rfl rfl (by decide)
    ⟨_, List.mem_cons_self, by decide⟩ ⟨sighting hwB (ip 10 0 0 1) .arpProbe none, by simp [L], by decide⟩
  have hn : (absorbAll L).contestedAddresses.lookup ⟨ip 10 0 0 1, none, .localRealm⟩ = none := by decide
  rw [hn] at hc
  cases hc

/-- **Every relapse can be exploited**: the next answer of another hardware identity takes the slot, and there is no
dispute. -/
theorem relapse_exploited {g : TopologyGraph} (hinv : SlotInv g) {s : Slot} {a b : DeviceKey}
    {ev ev' : TopologyEvidence} (ha : a.isMac = true) (hb : b.isMac = true) (hab : a ≠ b) (hr : Relapses g s a ev)
    (hf : FreshClaim ev' s b) :
    ((g.absorb ev).absorb ev').addressOwner.lookup s = some b ∧
      ((g.absorb ev).absorb ev').contestedAddresses.lookup s = none := by
  obtain ⟨hc, hw, ho, hfresh⟩ := hr
  obtain ⟨since, ht⟩ := tenure_of_owner hinv ho
  obtain ⟨-, hb'⟩ := owner_of_tenure hinv ht
  have hsince : bindingFreshness since = freshnessConfirmed := by simpa [hb'] using hfresh
  have hinv₁ : SlotInv (g.absorb ev) := slotInv_apply hinv (.absorb ev)
  have hinv₂ : SlotInv ((g.absorb ev).absorb ev') := slotInv_apply hinv₁ (.absorb ev')
  have ht₂ : ((g.absorb ev).absorb ev').tenure s = .held b ev'.source := by
    rw [TopologyGraph.tenure_absorb hinv₁, TopologyGraph.claimed, claimOf_of_stated hb hf.1]
    dsimp only
    rw [if_pos rfl, TopologyGraph.tenure_absorb hinv, TopologyGraph.claimed, hc]
    dsimp only
    rw [if_pos rfl, ht]
    exact Tenure.claim_after_lapse ⟨rfl, hsince, hw⟩ ha hb hf.2 hab
  obtain ⟨ho₂, -, hc₂⟩ := lookups_of_tenure (s := s) hinv₂
  rw [ht₂] at ho₂ hc₂
  exact ⟨ho₂, hc₂⟩


/-! ## Holding an address -/

/-- The node of `k` is there and has the address. -/
def HoldsAddress (g : TopologyGraph) (k : DeviceKey) (address : IpAddr) : Prop :=
  ∃ n, g.nodes.lookup (.device k) = some n ∧ address ∈ n.addresses

/-- The record takes the address away from the node of `k`: `k` claims it in some slot and loses to the owner, or owns
it in some slot and loses to the claimant. -/
def SetsAside (g : TopologyGraph) (k : DeviceKey) (address : IpAddr) (ev : TopologyEvidence) : Prop :=
  ∃ slot key holder, g.claimOf ev = some (slot, key) ∧ slot.address = address ∧
    g.contestedAddresses.lookup slot = none ∧ g.addressOwner.lookup slot = some holder ∧
      (key = k ∧ resolveClaim (some holder) (g.addressBinding.lookup slot) key ev.source = .superseded ∨
        holder = k ∧ resolveClaim (some holder) (g.addressBinding.lookup slot) key ev.source = .supersedes)

section Holding

variable {g : TopologyGraph} {ev : TopologyEvidence} {k : DeviceKey} {address : IpAddr}

/-- An address is set aside by the mark a claim leaves on the node. -/
theorem setsAside_iff {slot : Slot} {key : DeviceKey} (hc : g.claimOf ev = some (slot, key)) :
    SetsAside g k address ev ↔
      slot.address = address ∧ ∃ holder, g.claimMark slot key ev.source k = .setAside holder := by
  unfold SetsAside TopologyGraph.claimMark
  rw [hc]
  constructor
  · rintro ⟨slot', key', holder, he, ha, hcon, ho, h⟩
    cases he
    refine ⟨ha, ?_⟩
    rw [hcon, ho]
    rcases h with ⟨rfl, hr⟩ | ⟨rfl, hr⟩
    · exact ⟨_, by simp [hr]; rfl⟩
    · have hne : key ≠ holder := TopologyGraph.ne_of_resolveClaim (by rw [hr]; decide)
      exact ⟨_, by simp [hr, Ne.symm hne]; rfl⟩
  · rintro ⟨ha, holder', hm⟩
    cases hcon : g.contestedAddresses.lookup slot with
    | some cs => rw [hcon] at hm; simp only at hm; split_ifs at hm
    | none =>
      rw [hcon] at hm
      cases ho : g.addressOwner.lookup slot with
      | none => rw [ho] at hm; simp only at hm; split_ifs at hm
      | some holder =>
        rw [ho] at hm
        refine ⟨slot, key, holder, rfl, ha, hcon, ho, ?_⟩
        dsimp only at hm
        cases hr : resolveClaim (some holder) (g.addressBinding.lookup slot) key ev.source with
        | superseded =>
          rw [hr] at hm
          dsimp only at hm
          split_ifs at hm with hk
          exact .inl ⟨hk.symm, rfl⟩
        | supersedes =>
          rw [hr] at hm
          dsimp only at hm
          split_ifs at hm with hk hh
          exact .inr ⟨hh.symm, rfl⟩
        | _ => rw [hr] at hm; dsimp only at hm; split_ifs at hm

instance : Decidable (SetsAside g k address ev) :=
  decidable_of_iff (∃ sk ∈ g.claimOf ev, sk.1.address = address ∧
      ∃ holder ∈ g.addressOwner.lookup sk.1, g.contestedAddresses.lookup sk.1 = none ∧
        (sk.2 = k ∧ resolveClaim (some holder) (g.addressBinding.lookup sk.1) sk.2 ev.source = .superseded ∨
          holder = k ∧ resolveClaim (some holder) (g.addressBinding.lookup sk.1) sk.2 ev.source = .supersedes)) (by
    constructor
    · rintro ⟨⟨slot, key⟩, hc, ha, holder, ho, hcon, h⟩
      exact ⟨slot, key, holder, hc, ha, hcon, ho, h⟩
    · rintro ⟨slot, key, holder, hc, ha, hcon, ho, h⟩
      exact ⟨(slot, key), hc, ha, holder, ho, hcon, h⟩)

theorem Mark.mem_addresses (m : Mark) (n : Node) (x : IpAddr) (remote : Bool) :
    x ∈ (m.apply address remote n).addresses ↔
      match m with
      | .keep => x ∈ n.addresses
      | .hold | .contest => x = address ∨ x ∈ n.addresses
      | .setAside _ => x ≠ address ∧ x ∈ n.addresses := by
  cases m <;> simp [Mark.apply, Node.holdAddress, Node.contestAddress, Node.noteAddress, Node.supersedeAddress]

/-- No command but a claim takes an address away. -/
theorem holdsAddress_exec (h : HoldsAddress g k address) {c : Command} (hc : ∀ slot key, c ≠ .claim slot key) :
    HoldsAddress (exec ev g c) k address := by
  obtain ⟨n, hn, ha⟩ := h
  cases c with
  | claim slot key => exact absurd rfl (hc slot key)
  | upsert id kind =>
    unfold HoldsAddress
    rw [exec, TopologyGraph.lookup_upsert]
    split_ifs with hid
    · subst hid
      exact ⟨_, rfl, by rw [hn]; exact ha⟩
    · exact ⟨n, hn, ha⟩
  | note id note =>
    unfold HoldsAddress
    rw [exec, TopologyGraph.lookup_modifyNode]
    split_ifs with hid
    · subst hid
      rw [hn]
      refine ⟨_, rfl, ?_⟩
      cases note <;> simp only [Note.write] <;> first | exact ha | (split_ifs <;> exact ha)
    · exact ⟨n, hn, ha⟩
  | _ => exact ⟨n, hn, ha⟩

/-- **One record** takes an address away from a node that has it exactly when it sets the address aside. -/
theorem holdsAddress_absorb (h : HoldsAddress g k address) :
    HoldsAddress (g.absorb ev) k address ↔ ¬SetsAside g k address ev := by
  cases hc : g.claimOf ev with
  | none =>
    have hno : ¬SetsAside g k address ev := by
      rintro ⟨slot, key, holder, he, -⟩
      rw [hc] at he
      cases he
    refine iff_of_true ?_ hno
    rw [absorb_eq_plan]
    refine foldl_exec_inv (P := fun g => HoldsAddress g k address)
      (fun c hmem g' hg' => holdsAddress_exec hg' fun slot key he => ?_) h
    subst he
    obtain ⟨d, a, hf⟩ := claim_mem_planFact hmem
    simp [TopologyGraph.claimOf, hf] at hc
  | some sk =>
    obtain ⟨slot, key⟩ := sk
    obtain ⟨n, hn, ha⟩ : HoldsAddress (exec ev g (.upsert (.device key) .host)) k address :=
      holdsAddress_exec h (by simp)
    have hmark : (exec ev g (.upsert (.device key) .host)).claimMark slot key ev.source k =
        g.claimMark slot key ev.source k := rfl
    rw [TopologyGraph.absorb_of_claimOf hc, setsAside_iff hc]
    unfold HoldsAddress
    rw [TopologyGraph.lookup_settleClaim]
    change (∃ n', Option.map _ ((exec ev g (.upsert (.device key) .host)).nodes.lookup (.device k)) = some n' ∧ _) ↔ _
    rw [hn]
    simp only [Option.map_some, Option.some.injEq, exists_eq_left', Mark.mem_addresses]
    change (match g.claimMark slot key ev.source k with
      | .keep => address ∈ n.addresses
      | .hold | .contest => address = slot.address ∨ address ∈ n.addresses
      | .setAside _ => address ≠ slot.address ∧ address ∈ n.addresses) ↔ _
    cases g.claimMark slot key ev.source k <;> simp [ha, eq_comm]

/-- The passes take no address away from hardware. -/
theorem holdsAddress_merge (hk : k.isMac = true) (h : HoldsAddress g k address) :
    HoldsAddress g.mergeAddressIdentities.1 k address := by
  obtain ⟨n, hn, ha⟩ := h
  refine (TopologyGraph.exists_node_merge (Φ := fun n => address ∈ n.addresses) ?_).mpr
    ⟨.device k, n, TopologyGraph.renameNode_of_not_absorbed (TopologyGraph.mac_not_absorbed hk), hn, ha⟩
  intro t s
  simp [foldNode_eq]

theorem holdsAddress_rekind (changes : List (NodeId × (NodeKind → NodeKind))) (h : HoldsAddress g k address) :
    HoldsAddress (g.rekind changes) k address := by
  obtain ⟨n, hn, ha⟩ := h
  obtain ⟨f, hf⟩ := TopologyGraph.lookup_rekind changes g (.device k)
  refine ⟨{ n with kind := f n.kind }, ?_, ha⟩
  rw [hf, hn]
  rfl

end Holding

end Idnx
