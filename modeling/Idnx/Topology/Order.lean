import Idnx.Topology.Fresh
import Idnx.Topology.Roles

/-!
# Arrival order

Which devices a graph ends up with, and of which kind, should not depend on the order in which the records arrive.
What decides is the list of records as a set: `deviceOf` is the device an identity comes to, the hardware that claims
its own slot or the identity itself, and a device is a boundary, what its signals score, or a switch if a bridge link
names it.

Every record files something under the identity its own resolves to when it is absorbed. `Filed` says that this is
right up to `deviceOf`, whatever came before; the merge pass then takes every identity to its device.

* `kinds_order_free`: if all that claim a slot or are looked up in it come to one device, the devices and their kinds
  are the same in every order.
-/

namespace Idnx

/-! ## What a record files, and where -/

namespace TopologyEvidence

variable (ev : TopologyEvidence)

/-- The fact with its identities in the domain it was observed in. -/
def qualified : Fact := qualifyFact ev.fact (Realm.of ev.origin)

def devices : List DeviceKey := ev.qualified.devices

def bridges : List DeviceKey := ev.qualified.bridges (Realm.of ev.origin)

/-- The slots in which an identity of the record is looked up. -/
def consulted (key : DeviceKey) : List Slot :=
  if key.isMac then []
  else (key.addresses ++ ev.qualified.claimed.toList).map (slotIn · (TopologyGraph.keyZone key) (Realm.of ev.origin))

end TopologyEvidence

/-- The identity that something about `key` is filed under. -/
def filedAs (owner : Slot → Option DeviceKey) (ev : TopologyEvidence) (key : DeviceKey) : DeviceKey :=
  fileUnder owner ev ev.qualified key

section Plan

variable {owner : Slot → Option DeviceKey} {ev : TopologyEvidence}

theorem address?_eq_none {key : DeviceKey} : key.address? = none ↔ key.isMac = true := by
  cases key <;> simp [DeviceKey.address?, DeviceKey.isMac]

/-- Hardware is filed as it is named. -/
theorem filedAs_mac {key : DeviceKey} (h : key.isMac = true) : filedAs owner ev key = key := by
  rw [← address?_eq_none] at h
  unfold filedAs fileUnder resolveKey
  rw [h]

/-- An identity is filed as it is named, or under the owner of a slot in which it is looked up. -/
theorem filedAs_cases (key : DeviceKey) :
    filedAs owner ev key = key ∨ ∃ slot ∈ ev.consulted key, owner slot = some (filedAs owner ev key) := by
  cases hx : key.address? with
  | none =>
    rw [address?_eq_none] at hx
    exact .inl (filedAs_mac hx)
  | some x =>
    have hmac : ¬key.isMac = true := by
      rw [← address?_eq_none, hx]
      exact Option.some_ne_none x
    unfold filedAs fileUnder TopologyEvidence.consulted resolveKey
    rw [if_neg hmac, hx]
    simp only [DeviceKey.addresses, hx, Option.toList_some, List.singleton_append, List.map_cons]
    cases ho : owner (slotIn x (TopologyGraph.keyZone key) (Realm.of ev.origin)) with
    | some holder => exact .inr ⟨_, List.mem_cons_self, ho⟩
    | none =>
      cases ha : ev.qualified.claimed with
      | none => exact .inl rfl
      | some a =>
        dsimp only
        cases ho' : owner (slotIn a (TopologyGraph.keyZone key) (Realm.of ev.origin)) with
        | none => exact .inl rfl
        | some holder => exact .inr ⟨_, List.mem_cons_of_mem _ (by simp), ho'⟩

/-- The owner of the slot of its own address comes first. -/
theorem filedAs_of_owner {key holder : DeviceKey} {x : IpAddr} (hx : key.address? = some x)
    (ho : owner (slotIn x (TopologyGraph.keyZone key) (Realm.of ev.origin)) = some holder) :
    filedAs owner ev key = holder := by
  unfold filedAs fileUnder resolveKey
  rw [hx]
  dsimp only
  rw [ho]

/-- **The device nodes a record adds.** -/
theorem upsert_mem_plan {q : DeviceKey} {kind : NodeKind} :
    Command.upsert (.device q) kind ∈ plan owner ev ↔
      (kind = .host ∧ ((∃ key ∈ ev.devices, q = filedAs owner ev key) ∨
        ∃ name a, ev.qualified = .resolvedAs name a ∧ owner (recordSlot ev a) = some q)) ∨
      (kind = .switch ∧ q ∈ ev.bridges) := by
  show Command.upsert _ _ ∈ planFact owner ev ev.qualified ↔ _
  rw [mem_planFact_iff]
  constructor
  · intro h
    generalize hid : NodeId.device q = id at h
    generalize hf : ev.qualified = fact at h
    cases h with
    | file hk =>
      subst hf
      exact .inl ⟨rfl, .inl ⟨_, hk, NodeId.device.inj hid⟩⟩
    | bridge hk =>
      subst hf
      cases hid
      exact .inr ⟨rfl, hk⟩
    | place hp => exact absurd hid.symm (place_ne_device hp q)
    | holder ho =>
      cases hid
      exact .inl ⟨rfl, .inr ⟨_, _, rfl, ho⟩⟩
  · rintro (⟨rfl, ⟨key, hk, rfl⟩ | ⟨name, a, hf, ho⟩⟩ | ⟨rfl, hk⟩)
    · exact .file hk
    · rw [hf]
      exact .holder ho
    · exact .bridge hk

theorem weigh_mem_plan {id : NodeId} {signal : RoleSignal} :
    Command.weigh id signal ∈ plan owner ev ↔
      ∃ key, ev.qualified = .deviceRoleSignal key signal ∧ id = .device (filedAs owner ev key) := by
  show Command.weigh _ _ ∈ planFact owner ev ev.qualified ↔ _
  rw [mem_planFact_iff]
  unfold filedAs
  constructor
  · intro h
    generalize ev.qualified = fact at h ⊢
    cases h with
    | weigh => exact ⟨_, rfl, rfl⟩
  · rintro ⟨key, hf, rfl⟩
    rw [hf]
    exact .weigh

theorem boundary_mem_plan {id : NodeId} {why : Text} :
    Command.note id (.boundary why) ∈ plan owner ev ↔
      ∃ key, ev.qualified = .opaqueBoundary key why ∧ id = .device (filedAs owner ev key) := by
  show Command.note _ _ ∈ planFact owner ev ev.qualified ↔ _
  rw [mem_planFact_iff]
  unfold filedAs
  constructor
  · intro h
    generalize ev.qualified = fact at h ⊢
    cases h with
    | @remark fact key note hr =>
      cases fact <;> cases hr
      exact ⟨_, rfl, rfl⟩
  · rintro ⟨key, hf, rfl⟩
    rw [hf]
    exact .remark rfl

end Plan

/-! ## The device an identity comes to -/

/-- Some record states that `key` has the slot. -/
def Claims (L : List TopologyEvidence) (slot : Slot) (key : DeviceKey) : Prop :=
  ∃ ev ∈ L, statedClaim ev = some (slot, key)

/-- Some record is about `key`, and looks it up in the slot. -/
def Consults (L : List TopologyEvidence) (slot : Slot) (key : DeviceKey) : Prop :=
  ∃ ev ∈ L, key ∈ ev.devices ∧ slot ∈ ev.consulted key

/-- The hardware that claims a slot. -/
def hardwareAt (L : List TopologyEvidence) (slot : Slot) : Option DeviceKey :=
  L.findSome? fun ev => (statedClaim ev).bind fun sk => if sk.1 = slot ∧ sk.2.isMac then some sk.2 else none

/-- The device an identity comes to: the hardware that claims its own slot, else the identity itself. -/
def deviceOf (L : List TopologyEvidence) (key : DeviceKey) : DeviceKey :=
  ((identitySlot key).bind (hardwareAt L)).getD key

/-- The records agree on who is who. -/
structure Coherent (L : List TopologyEvidence) : Prop where
  /-- All that claim a slot come to one device; in particular, no two MACs claim it. -/
  claims : ∀ slot j k, Claims L slot j → Claims L slot k → deviceOf L j = deviceOf L k
  /-- And so does every identity that is looked up in it. -/
  lookups : ∀ slot j k, Consults L slot j → Claims L slot k → deviceOf L j = deviceOf L k
  /-- A validated answer for an address-based identity is one for its own address. -/
  answers : ∀ ev ∈ L, ∀ slot key, statedClaim ev = some (slot, key) → key.isMac = false →
    bindingFreshness ev.source = freshnessConfirmed → identitySlot key = some slot
  /-- The merge pass looks an address-based identity up where the record did. -/
  domains : ∀ ev ∈ L, ∀ key ∈ ev.devices, ∀ x, key.address? = some x →
    identitySlot key = some (slotIn x (TopologyGraph.keyZone key) (Realm.of ev.origin))

instance (L : List TopologyEvidence) : Decidable (Coherent L) :=
  decidable_of_iff
    ((∀ ev ∈ L, ∀ p ∈ statedClaim ev, ∀ ev' ∈ L, ∀ q ∈ statedClaim ev', p.1 = q.1 → deviceOf L p.2 = deviceOf L q.2) ∧
      (∀ ev ∈ L, ∀ j ∈ ev.devices, ∀ slot ∈ ev.consulted j, ∀ ev' ∈ L, ∀ q ∈ statedClaim ev', slot = q.1 →
        deviceOf L j = deviceOf L q.2) ∧
      (∀ ev ∈ L, ∀ p ∈ statedClaim ev, p.2.isMac = false → bindingFreshness ev.source = freshnessConfirmed →
        identitySlot p.2 = some p.1) ∧
      ∀ ev ∈ L, ∀ key ∈ ev.devices, ∀ x ∈ key.address?,
        identitySlot key = some (slotIn x (TopologyGraph.keyZone key) (Realm.of ev.origin))) (by
    constructor
    · rintro ⟨hclaims, hlookups, hanswers, hdomains⟩
      refine ⟨?_, ?_, fun ev hev slot key hs => hanswers ev hev (slot, key) hs, hdomains⟩
      · rintro slot j k ⟨ev, hev, hj⟩ ⟨ev', hev', hk⟩
        exact hclaims ev hev (slot, j) hj ev' hev' (slot, k) hk rfl
      · rintro slot j k ⟨ev, hev, hj, hslot⟩ ⟨ev', hev', hk⟩
        exact hlookups ev hev j hj slot hslot ev' hev' (slot, k) hk rfl
    · intro h
      refine ⟨?_, ?_, fun ev hev p hs => h.answers ev hev p.1 p.2 hs, h.domains⟩
      · rintro ev hev ⟨slot, j⟩ hj ev' hev' ⟨slot', k⟩ hk rfl
        exact h.claims slot j k ⟨ev, hev, hj⟩ ⟨ev', hev', hk⟩
      · rintro ev hev j hj slot hslot ev' hev' ⟨slot', k⟩ hk rfl
        exact h.lookups _ j k ⟨ev, hev, hj, hslot⟩ ⟨ev', hev', hk⟩)

section Device

variable {L : List TopologyEvidence} {slot : Slot} {key m : DeviceKey}

theorem deviceOf_mac (h : key.isMac = true) : deviceOf L key = key := by
  unfold deviceOf identitySlot
  rw [address?_eq_none.mpr h]
  rfl

theorem claims_of_hardwareAt (h : hardwareAt L slot = some m) : Claims L slot m ∧ m.isMac = true := by
  obtain ⟨ev, hev, he⟩ := List.exists_of_findSome?_eq_some h
  obtain ⟨sk, hsk, hif⟩ := Option.bind_eq_some_iff.mp he
  split_ifs at hif with hc
  obtain ⟨rfl, hm⟩ := hc
  cases hif
  exact ⟨⟨ev, hev, hsk⟩, hm⟩

/-- The device of an address-based identity is itself, or hardware that claims its slot. -/
theorem deviceOf_cases (L : List TopologyEvidence) (key : DeviceKey) :
    deviceOf L key = key ∨
      ∃ slot, identitySlot key = some slot ∧ Claims L slot (deviceOf L key) ∧ (deviceOf L key).isMac = true := by
  unfold deviceOf
  cases hs : identitySlot key with
  | none => exact .inl rfl
  | some slot =>
    rw [Option.bind_some]
    cases hf : hardwareAt L slot with
    | none => exact .inl rfl
    | some m => exact .inr ⟨slot, rfl, claims_of_hardwareAt hf⟩

end Device

/-- Some record is about `key`. -/
def Named (L : List TopologyEvidence) (key : DeviceKey) : Prop := ∃ ev ∈ L, key ∈ ev.devices

instance (L : List TopologyEvidence) (key : DeviceKey) : Decidable (Named L key) :=
  inferInstanceAs (Decidable (∃ ev ∈ L, key ∈ ev.devices))

/-- Some record names `key` as a bridge. -/
def Bridging (L : List TopologyEvidence) (key : DeviceKey) : Prop := ∃ ev ∈ L, key ∈ ev.bridges

instance (L : List TopologyEvidence) (key : DeviceKey) : Decidable (Bridging L key) :=
  inferInstanceAs (Decidable (∃ ev ∈ L, key ∈ ev.bridges))

/-! ## The slots -/

/-- The slots after the records `P`, out of the records `L`: owners come to the device of those who claim the slot,
nothing is in dispute, and hardware that has claimed a slot owns it. -/
structure SlotsFiled (L P : List TopologyEvidence) (g : TopologyGraph) : Prop where
  slots : SlotInv g
  owners : ∀ s k, g.addressOwner.lookup s = some k → Named L k ∧ ∃ j, Claims L s j ∧ deviceOf L k = deviceOf L j
  undisputed : ∀ s, g.contestedAddresses.lookup s = none
  hardware : ∀ s m, Claims P s m → m.isMac = true → g.addressOwner.lookup s = some m

section Slots

variable {L P : List TopologyEvidence} {g : TopologyGraph} {ev : TopologyEvidence}

/-- **A record is filed under the right device**, whatever came before it. -/
theorem deviceOf_filedAs (hL : Coherent L) (hg : SlotsFiled L P g) (hev : ev ∈ L) {key : DeviceKey}
    (hk : key ∈ ev.devices) :
    deviceOf L (filedAs (g.addressOwner.lookup ·) ev key) = deviceOf L key ∧
      Named L (filedAs (g.addressOwner.lookup ·) ev key) := by
  rcases @filedAs_cases (g.addressOwner.lookup ·) ev key with he | ⟨slot, hslot, ho⟩
  · rw [he]
    exact ⟨rfl, ev, hev, hk⟩
  · obtain ⟨hn, j, hj, hd⟩ := hg.owners slot _ ho
    exact ⟨hd.trans (hL.lookups slot key j ⟨ev, hev, hk, hslot⟩ hj).symm, hn⟩

theorem qualified_of_statedClaim {slot : Slot} {key : DeviceKey} (h : statedClaim ev = some (slot, key)) :
    ∃ a, ev.qualified = .deviceAddress key a ∧ slot = recordSlot ev a := by
  unfold statedClaim at h
  split at h
  · rename_i k a hf
    cases h
    exact ⟨a, hf, rfl⟩
  · cases h

/-- The claim of a record is made for the identity it is filed under. -/
theorem claimOf_eq (g : TopologyGraph) (ev : TopologyEvidence) :
    g.claimOf ev = (statedClaim ev).map fun sk => (sk.1, filedAs (g.addressOwner.lookup ·) ev sk.2) := by
  unfold TopologyGraph.claimOf statedClaim filedAs TopologyEvidence.qualified
  cases qualifyFact ev.fact (Realm.of ev.origin) <;> rfl

/-- A claim ends with the slot in one hand: the claimant's, or that of the owner before. Hardware always prevails. -/
theorem tenure_of_stated (hL : Coherent L) (hg : SlotsFiled L P g) (hev : ev ∈ L) {slot : Slot} {key : DeviceKey}
    (hs : statedClaim ev = some (slot, key)) :
    ∃ k since, (g.absorb ev).tenure slot = .held k since ∧
      (k = filedAs (g.addressOwner.lookup ·) ev key ∨ g.addressOwner.lookup slot = some k) ∧
      (key.isMac = true → k = key) ∧ ∀ h, g.addressOwner.lookup slot = some h → h.isMac = true → k = h := by
  obtain ⟨a, hf, -⟩ := qualified_of_statedClaim hs
  have hk : key ∈ ev.devices := by simp [TopologyEvidence.devices, hf, Fact.devices]
  obtain ⟨hdq, -⟩ := deviceOf_filedAs hL hg hev hk
  have hmac : key.isMac = true → filedAs (g.addressOwner.lookup ·) ev key = key := filedAs_mac
  have hclaim : (g.absorb ev).tenure slot = (g.tenure slot).claim bindingPolicy
      (filedAs (g.addressOwner.lookup ·) ev key) ev.source := by
    rw [TopologyGraph.tenure_absorb hg.slots, TopologyGraph.claimed, claimOf_eq, hs]
    exact if_pos rfl
  rw [hclaim]
  generalize hq : filedAs (g.addressOwner.lookup ·) ev key = q at *
  cases ht : g.tenure slot with
  | vacant =>
    have ho : g.addressOwner.lookup slot = none := by rw [(lookups_of_tenure hg.slots).1, ht]; rfl
    exact ⟨q, ev.source, rfl, .inl rfl, hmac, fun h hh => by rw [ho] at hh; cases hh⟩
  | disputed cs =>
    have hc := (contested_of_tenure hg.slots ht).1
    rw [hg.undisputed slot] at hc
    cases hc
  | held h since =>
    have ho := (owner_of_tenure hg.slots ht).1
    obtain ⟨-, j, hj, hdh⟩ := hg.owners slot h ho
    -- the owner and the claimant come to one device, so two pieces of hardware are the same
    have hsame : deviceOf L h = deviceOf L q := by
      rw [hdh, hdq]
      exact hL.claims slot j key hj ⟨ev, hev, hs⟩
    have heq : h.isMac = true → q.isMac = true → h = q := by
      intro hh hqm
      rwa [deviceOf_mac hh, deviceOf_mac hqm] at hsame
    have hheld : ∀ x, g.addressOwner.lookup slot = some x → x = h := fun x hx => Option.some.inj (hx.symm.trans ho)
    rcases resolveClaim_cases h q since ev.source with hr | hr | hr | hr | hr | hr
    · obtain ⟨-, rfl, ht'⟩ := hr
      exact ⟨h, _, ht', .inl rfl, hmac, fun x hx _ => (hheld x hx).symm⟩
    · obtain ⟨-, -, hsoft, -, ht'⟩ := hr
      refine ⟨q, _, ht', .inl rfl, hmac, fun x hx hxm => ?_⟩
      rw [hheld x hx, hsoft] at hxm
      cases hxm
    · obtain ⟨-, -, -, hsoft, ht'⟩ := hr
      refine ⟨h, _, ht', .inr ho, fun hm => ?_, fun x hx _ => (hheld x hx).symm⟩
      rw [hmac hm, hm] at hsoft
      cases hsoft
    · obtain ⟨-, hne, hm, -, ht'⟩ := hr
      refine ⟨q, _, ht', .inl rfl, hmac, fun x hx hxm => ?_⟩
      rw [hheld x hx] at hxm
      exact absurd (heq hxm (hm ▸ hxm)) hne
    · obtain ⟨-, hne, hm, -, ht'⟩ := hr
      refine ⟨h, _, ht', .inr ho, fun hkm => ?_, fun x hx _ => (hheld x hx).symm⟩
      have hqm : q.isMac = true := by rw [hmac hkm]; exact hkm
      exact absurd (heq (hm.trans hqm) hqm) hne
    · -- two answers of equal rank: not of hardware, and an address-based identity answers for its own slot only
      obtain ⟨-, hne, hm, -, hfresh, -⟩ := hr
      refine absurd ?_ hne
      cases hkm : key.isMac with
      | true =>
        have hqm : q.isMac = true := by rw [hmac hkm]; exact hkm
        exact heq (hm.trans hqm) hqm
      | false =>
        obtain ⟨x, hx⟩ : ∃ x, key.address? = some x := by
          cases hx : key.address? with
          | none => rw [address?_eq_none.mp hx] at hkm; cases hkm
          | some x => exact ⟨x, rfl⟩
        have hown := hL.answers ev hev slot key hs hkm (Nat.le_antisymm (bindingPolicy.rank_le _) hfresh)
        rw [hL.domains ev hev key hk x hx] at hown
        rw [← Option.some.inj hown] at ho
        rw [← hq]
        exact (filedAs_of_owner hx ho).symm

/-- One record keeps the slots in order. -/
theorem slotsFiled_absorb (hL : Coherent L) (hg : SlotsFiled L P g) (hev : ev ∈ L) :
    SlotsFiled L (P ++ [ev]) (g.absorb ev) := by
  have hinv : SlotInv (g.absorb ev) := slotInv_apply hg.slots (.absorb ev)
  cases hs : statedClaim ev with
  | none =>
    have hc : g.claimOf ev = none := by rw [claimOf_eq, hs]; rfl
    have hrec := fun s => TopologyGraph.absorb_slotRecord_of_none hc s
    have ho : ∀ s, (g.absorb ev).addressOwner.lookup s = g.addressOwner.lookup s :=
      fun s => congrArg Prod.fst (hrec s)
    refine ⟨hinv, fun s k hk => hg.owners s k (ho s ▸ hk), fun s => ?_, fun s m hm hmac => ?_⟩
    · exact (congrArg (fun r => r.2.2) (hrec s)).trans (hg.undisputed s)
    · obtain ⟨ev', hev', hst⟩ := hm
      rw [ho]
      rcases List.mem_append.mp hev' with hev' | hev'
      · exact hg.hardware s m ⟨ev', hev', hst⟩ hmac
      · rw [List.mem_singleton.mp hev', hs] at hst
        cases hst
  | some sk =>
    obtain ⟨slot, key⟩ := sk
    obtain ⟨a, hf, -⟩ := qualified_of_statedClaim hs
    have hk : key ∈ ev.devices := by simp [TopologyEvidence.devices, hf, Fact.devices]
    obtain ⟨hdq, hnq⟩ := deviceOf_filedAs hL hg hev hk
    obtain ⟨k, since, ht, hwho, hkey, hholder⟩ := tenure_of_stated hL hg hev hs
    have ho : (g.absorb ev).addressOwner.lookup slot = some k := (owner_of_tenure hinv ht).1
    have hc : (g.absorb ev).contestedAddresses.lookup slot = none := by rw [(lookups_of_tenure hinv).2.2, ht]; rfl
    have hother : ∀ s, s ≠ slot → (g.absorb ev).slotRecord s = g.slotRecord s := by
      intro s hne
      rw [TopologyGraph.absorb_slotRecord hg.slots, TopologyGraph.claimed, claimOf_eq, hs]
      rw [(hg.slots s).2]
      exact congrArg _ (if_neg hne)
    have hoo : ∀ s, s ≠ slot → (g.absorb ev).addressOwner.lookup s = g.addressOwner.lookup s :=
      fun s hne => congrArg Prod.fst (hother s hne)
    refine ⟨hinv, fun s j hj => ?_, fun s => ?_, fun s m hm hmac => ?_⟩
    · by_cases hslot : s = slot
      · subst hslot
        have hjk : j = k := Option.some.inj (hj.symm.trans ho)
        subst hjk
        rcases hwho with rfl | hold
        · exact ⟨hnq, key, ⟨ev, hev, hs⟩, hdq⟩
        · exact hg.owners s j hold
      · exact hg.owners s j (hoo s hslot ▸ hj)
    · by_cases hslot : s = slot
      · rw [hslot, hc]
      · exact (congrArg (fun r => r.2.2) (hother s hslot)).trans (hg.undisputed s)
    · obtain ⟨ev', hev', hst⟩ := hm
      by_cases hslot : s = slot
      · subst hslot
        rw [ho]
        rcases List.mem_append.mp hev' with hev' | hev'
        · rw [hholder m (hg.hardware s m ⟨ev', hev', hst⟩ hmac) hmac]
        · rw [List.mem_singleton.mp hev', hs] at hst
          cases hst
          rw [hkey hmac]
      · rw [hoo s hslot]
        rcases List.mem_append.mp hev' with hev' | hev'
        · exact hg.hardware s m ⟨ev', hev', hst⟩ hmac
        · rw [List.mem_singleton.mp hev', hs] at hst
          cases hst
          exact absurd rfl hslot

end Slots

/-! ## The nodes -/

/-- The nodes, signals and boundaries after the records `P`, out of the records `L`, each counted for the device it
comes to. -/
structure NodesFiled (L P : List TopologyEvidence) (g : TopologyGraph) : Prop where
  kinds : ∀ q n, g.nodes.lookup (.device q) = some n →
    (n.kind = .host ∧ Named L q) ∨ (n.kind = .switch ∧ Bridging L q)
  named : ∀ j, Named P j → ∃ q, .device q ∈ g.nodes ∧ deviceOf L q = deviceOf L j ∧ (j.isMac = true → q = j)
  bridges : ∀ b, Bridging P b → .device b ∈ g.nodes
  weighed : ∀ id, id ∈ g.roleWeights → id ∈ g.nodes ∧ ∃ q, id = .device q
  signals : ∀ k s, (∃ q v, g.roleWeights.lookup (.device q) = some v ∧ s ∈ v ∧ deviceOf L q = k) ↔
    ∃ ev ∈ P, ∃ j, ev.qualified = .deviceRoleSignal j s ∧ deviceOf L j = k
  boundaries : ∀ k, (∃ q n, g.nodes.lookup (.device q) = some n ∧ n.opaqueReason.isSome = true ∧ deviceOf L q = k) ↔
    ∃ ev ∈ P, ∃ j why, ev.qualified = .opaqueBoundary j why ∧ deviceOf L j = k

section Nodes

variable {g : TopologyGraph} {ev : TopologyEvidence} {cs : List Command} {id : NodeId}

theorem signal_foldl {s : RoleSignal} :
    (∃ v, (cs.foldl (exec ev) g).roleWeights.lookup id = some v ∧ s ∈ v) ↔
      (∃ v, g.roleWeights.lookup id = some v ∧ s ∈ v) ∨ Command.weigh id s ∈ cs := by
  induction cs generalizing g with
  | nil => simp
  | cons c cs ih =>
    rw [List.foldl_cons, ih]
    cases c with
    | weigh j signal =>
      simp only [exec, Map.lookup_upd]
      split_ifs with hid
      · subst hid
        cases hw : g.roleWeights.lookup id with
        | none => simp
        | some v => simp; tauto
      · simp [hid]
    | claim slot key => simp [exec]
    | _ => simp [exec, TopologyGraph.modifyNode, TopologyGraph.upsert, TopologyGraph.link]

theorem mem_roleWeights_foldl :
    id ∈ (cs.foldl (exec ev) g).roleWeights ↔ id ∈ g.roleWeights ∨ ∃ s, Command.weigh id s ∈ cs := by
  induction cs generalizing g with
  | nil => simp
  | cons c cs ih =>
    rw [List.foldl_cons, ih]
    cases c with
    | weigh j signal =>
      have hmem : id ∈ (exec ev g (.weigh j signal)).roleWeights ↔ id = j ∨ id ∈ g.roleWeights := Map.mem_upd
      rw [hmem]
      constructor
      · rintro ((rfl | h) | ⟨s, hs⟩)
        · exact .inr ⟨signal, List.mem_cons_self⟩
        · exact .inl h
        · exact .inr ⟨s, List.mem_cons_of_mem _ hs⟩
      · rintro (h | ⟨s, hs⟩)
        · exact .inl (.inr h)
        · rcases List.mem_cons.mp hs with he | hs
          · cases he; exact .inl (.inl rfl)
          · exact .inr ⟨s, hs⟩
    | claim slot key => simp [exec]
    | _ => simp [exec, TopologyGraph.modifyNode, TopologyGraph.upsert, TopologyGraph.link]

theorem Note.write_boundary (remote : Bool) (n : Node) (why : Text) :
    ((Note.boundary why).write remote n).opaqueReason.isSome = true := by
  show (if remote && (n.opaqueReason.isSome && n.locallyObserved) then n
    else { n with opaqueReason := some why }).opaqueReason.isSome = true
  split_ifs with hold
  · simp only [Bool.and_eq_true] at hold
    exact hold.2.1
  · rfl

/-- The node is there and ends what can be seen. -/
def BoundaryAt (g : TopologyGraph) (id : NodeId) : Prop :=
  ∃ n, g.nodes.lookup id = some n ∧ n.opaqueReason.isSome = true

/-- No command but the note of a boundary makes one. -/
theorem boundary_foldl (h : ∀ j why, Command.note j (.boundary why) ∉ cs) :
    BoundaryAt (cs.foldl (exec ev) g) id ↔ BoundaryAt g id := by
  have horigin : ∀ n', (cs.foldl (exec ev) g).nodes.lookup id = some n' → _ :=
    fun n' hn' => origin_foldl (π := Node.opaqueReason) (fun _ _ _ => rfl) (fun a r n m => by cases m <;> rfl)
      (fun j note hmem n => Note.write_opaqueReason _ n (fun why he => h j why (he ▸ hmem))) hn'
  constructor
  · rintro ⟨n', hn', ho⟩
    rcases horigin n' hn' with ⟨n, hn, he⟩ | ⟨-, kind, -, he⟩
    · exact ⟨n, hn, he ▸ ho⟩
    · rw [he] at ho
      cases ho
  · rintro ⟨n, hn, ho⟩
    have hstay : id ∈ (cs.foldl (exec ev) g).nodes := mem_nodes_foldl.mpr (.inl (Map.mem_of_lookup hn))
    obtain ⟨n', hn'⟩ := Map.mem_iff_lookup.mp hstay
    rcases horigin n' hn' with ⟨m, hm, he⟩ | ⟨hnone, -⟩
    · rw [hn] at hm
      cases hm
      exact ⟨n', hn', he ▸ ho⟩
    · rw [hn] at hnone
      cases hnone

/-- **Boundaries after a record**: those that were, and the device of the record if it says so. -/
theorem boundary_absorb : BoundaryAt (g.absorb ev) id ↔ BoundaryAt g id ∨
    ∃ key why, ev.qualified = .opaqueBoundary key why ∧ id = .device (filedAs (g.addressOwner.lookup ·) ev key) := by
  rw [absorb_eq_plan]
  by_cases hb : ∃ key why, ev.qualified = .opaqueBoundary key why
  · obtain ⟨key, why, hf⟩ := hb
    set q := filedAs (g.addressOwner.lookup ·) ev key with hq
    have hplan : plan (g.addressOwner.lookup ·) ev = [.upsert (.device q) .host,
      .note (.device q) (.boundary why)] := by
      show planFact _ ev ev.qualified = _
      rw [hq, filedAs, hf]
      rfl
    have hiff : (∃ k w, ev.qualified = .opaqueBoundary k w ∧ id = .device (filedAs (g.addressOwner.lookup ·) ev k)) ↔
        id = .device q := by
      constructor
      · rintro ⟨k, w, hk, rfl⟩
        rw [hf] at hk
        cases hk
        rfl
      · rintro rfl
        exact ⟨key, why, hf, rfl⟩
    rw [hplan, hiff]
    unfold BoundaryAt
    simp only [List.foldl_cons, List.foldl_nil, exec, TopologyGraph.lookup_modifyNode, TopologyGraph.lookup_upsert]
    by_cases hid : id = .device q
    · subst hid
      simp only [if_true, Option.map_some, or_true, iff_true]
      exact ⟨_, rfl, Note.write_boundary _ _ why⟩
    · simp [hid]
  · have hno : ∀ j why, Command.note j (.boundary why) ∉ plan (g.addressOwner.lookup ·) ev := by
      intro j why hmem
      obtain ⟨key, hf, -⟩ := boundary_mem_plan.mp hmem
      exact hb ⟨key, why, hf⟩
    rw [boundary_foldl hno]
    constructor
    · exact .inl
    · rintro (h | ⟨key, why, hf, -⟩)
      · exact h
      · exact absurd ⟨key, why, hf⟩ hb

end Nodes

section Step

variable {L P : List TopologyEvidence} {g : TopologyGraph} {ev : TopologyEvidence}

theorem exists_mem_concat {p : TopologyEvidence → Prop} : (∃ e ∈ P ++ [ev], p e) ↔ (∃ e ∈ P, p e) ∨ p ev := by
  simp [or_and_right, exists_or]

/-- One record files what it says for the right device. -/
theorem nodesFiled_absorb (hL : Coherent L) (hs : SlotsFiled L P g) (hg : NodesFiled L P g) (hev : ev ∈ L) :
    NodesFiled L (P ++ [ev]) (g.absorb ev) := by
  have hfile : ∀ {key}, key ∈ ev.devices → _ := fun hk => deviceOf_filedAs hL hs hev hk
  have hstay : ∀ {id}, id ∈ g.nodes → id ∈ (g.absorb ev).nodes := fun h => mem_nodes_absorb.mpr (.inl h)
  have hadd : ∀ key ∈ ev.devices, .device (filedAs (g.addressOwner.lookup ·) ev key) ∈ (g.absorb ev).nodes :=
    fun key hk => mem_nodes_absorb.mpr (.inr ⟨.host, upsert_mem_plan.mpr (.inl ⟨rfl, .inl ⟨key, hk, rfl⟩⟩)⟩)
  refine ⟨fun q n hn => ?_, fun j hj => ?_, fun b hb => ?_, fun id hid => ?_, fun k s => ?_, fun k => ?_⟩
  · rw [absorb_eq_plan] at hn
    rcases origin_foldl (π := Node.kind) (fun _ _ _ => rfl) (fun a r n m => by cases m <;> rfl)
      (fun _ note _ n => Note.write_kind _ n note) hn with ⟨n₀, hn₀, he⟩ | ⟨-, kind, hmem, he⟩
    · rw [he]
      exact hg.kinds q n₀ hn₀
    · rw [show n.kind = kind from he]
      rcases upsert_mem_plan.mp hmem with ⟨rfl, ⟨key, hk, rfl⟩ | ⟨name, a, -, ho⟩⟩ | ⟨rfl, hb⟩
      · exact .inl ⟨rfl, (hfile hk).2⟩
      · exact .inl ⟨rfl, (hs.owners _ q ho).1⟩
      · exact .inr ⟨rfl, ev, hev, hb⟩
  · rcases exists_mem_concat.mp hj with hj | hj
    · obtain ⟨q, hq, hd, hm⟩ := hg.named j hj
      exact ⟨q, hstay hq, hd, hm⟩
    · exact ⟨_, hadd j hj, (hfile hj).1, filedAs_mac⟩
  · rcases exists_mem_concat.mp hb with hb | hb
    · exact hstay (hg.bridges b hb)
    · exact mem_nodes_absorb.mpr (.inr ⟨.switch, upsert_mem_plan.mpr (.inr ⟨rfl, hb⟩)⟩)
  · rw [absorb_eq_plan, mem_roleWeights_foldl] at hid
    rcases hid with hid | ⟨s, hs⟩
    · exact ⟨hstay (hg.weighed id hid).1, (hg.weighed id hid).2⟩
    · obtain ⟨key, hf, rfl⟩ := weigh_mem_plan.mp hs
      exact ⟨hadd key (by simp [TopologyEvidence.devices, hf, Fact.devices]), _, rfl⟩
  · rw [exists_mem_concat, ← hg.signals k s, absorb_eq_plan]
    constructor
    · rintro ⟨q, v, hv, hsv, hd⟩
      rcases signal_foldl.mp ⟨v, hv, hsv⟩ with ⟨v, hv, hsv⟩ | hmem
      · exact .inl ⟨q, v, hv, hsv, hd⟩
      · obtain ⟨key, hf, he⟩ := weigh_mem_plan.mp hmem
        rw [NodeId.device.inj he, (hfile (by simp [TopologyEvidence.devices, hf, Fact.devices])).1] at hd
        exact .inr ⟨key, hf, hd⟩
    · rintro (⟨q, v, hv, hsv, hd⟩ | ⟨key, hf, hd⟩)
      · obtain ⟨v', hv', hsv'⟩ := (@signal_foldl g ev (plan (g.addressOwner.lookup ·) ev) _ s).mpr (.inl ⟨v, hv, hsv⟩)
        exact ⟨q, v', hv', hsv', hd⟩
      · obtain ⟨v, hv, hsv⟩ := (@signal_foldl g ev _ _ s).mpr (.inr (weigh_mem_plan.mpr ⟨key, hf, rfl⟩))
        exact ⟨_, v, hv, hsv, (hfile (by simp [TopologyEvidence.devices, hf, Fact.devices])).1.trans hd⟩
  · rw [exists_mem_concat, ← hg.boundaries k]
    constructor
    · rintro ⟨q, n, hn, ho, hd⟩
      rcases boundary_absorb.mp ⟨n, hn, ho⟩ with ⟨n, hn, ho⟩ | ⟨key, why, hf, he⟩
      · exact .inl ⟨q, n, hn, ho, hd⟩
      · rw [NodeId.device.inj he, (hfile (by simp [TopologyEvidence.devices, hf, Fact.devices])).1] at hd
        exact .inr ⟨key, why, hf, hd⟩
    · rintro (⟨q, n, hn, ho, hd⟩ | ⟨key, why, hf, hd⟩)
      · obtain ⟨n', hn', ho'⟩ := (@boundary_absorb g ev _).mpr (.inl ⟨n, hn, ho⟩)
        exact ⟨q, n', hn', ho', hd⟩
      · obtain ⟨n, hn, ho⟩ := (@boundary_absorb g ev _).mpr (.inr ⟨key, why, hf, rfl⟩)
        exact ⟨_, n, hn, ho, (hfile (by simp [TopologyEvidence.devices, hf, Fact.devices])).1.trans hd⟩

/-- **Every run files what it absorbs for the right devices**, in any order. -/
theorem filed_absorbAll (hL : Coherent L) (M : List TopologyEvidence) (hM : ∀ ev ∈ M, ev ∈ L) :
    SlotsFiled L M (absorbAll M) ∧ NodesFiled L M (absorbAll M) := by
  refine run_induction (P := fun P g => (∀ ev ∈ P, ev ∈ L) → SlotsFiled L P g ∧ NodesFiled L P g) TopologyGraph.absorb
    (fun _ => ⟨⟨slotInv_new, ?_, fun _ => rfl, ?_⟩, ⟨?_, ?_, ?_, ?_, ?_, ?_⟩⟩) (fun P ev ih hP => ?_) M hM
  · intro s k h
    cases h
  · rintro s m ⟨ev, hev, -⟩
    cases hev
  · intro q n h
    cases h
  · rintro j ⟨ev, hev, -⟩
    cases hev
  · rintro b ⟨ev, hev, -⟩
    cases hev
  · intro id hid
    cases hid
  · intro k s
    constructor
    · rintro ⟨q, v, h, -⟩
      cases h
    · rintro ⟨ev, hev, -⟩
      cases hev
  · intro k
    constructor
    · rintro ⟨q, n, h, -⟩
      cases h
    · rintro ⟨ev, hev, -⟩
      cases hev
  · obtain ⟨hs, hn⟩ := ih fun e he => hP e (List.mem_append_left _ he)
    have hev : ev ∈ L := hP ev (by simp)
    exact ⟨slotsFiled_absorb hL hs hev, nodesFiled_absorb hL hs hn hev⟩

end Step

/-! ## The order of arrival -/

/-- The signal a fact reports, and of which device. -/
def Fact.signal : Fact → Option (DeviceKey × RoleSignal)
  | .deviceRoleSignal device signal => some (device, signal)
  | _ => none

/-- The device a fact calls a boundary. -/
def Fact.boundary : Fact → Option DeviceKey
  | .opaqueBoundary device _ => some device
  | _ => none

section Kinds

variable (L : List TopologyEvidence) (k : DeviceKey)

/-- The signals that count for a device. -/
def signalsOf : Finset RoleSignal :=
  (L.filterMap fun ev => ev.qualified.signal.bind fun js => if deviceOf L js.1 = k then some js.2 else none).toFinset

/-- Some record calls the device a boundary. -/
def Bounded : Prop := ∃ ev ∈ L, ∃ j ∈ ev.qualified.boundary, deviceOf L j = k

/-- Some record is about the device, or names it as a bridge. -/
def Known : Prop := Bridging L k ∨ ∃ ev ∈ L, ∃ j ∈ ev.devices, deviceOf L j = k

instance : Decidable (Bounded L k) := inferInstanceAs (Decidable
    (∃ ev ∈ L, ∃ j ∈ ev.qualified.boundary, deviceOf L j = k))

instance : Decidable (Known L k) := inferInstanceAs (Decidable (_ ∨ ∃ ev ∈ L, ∃ j ∈ ev.devices, deviceOf L j = k))

/-- The kind that the records come to for a device. -/
def kindOfRecords : Option NodeKind :=
  if Known L k then
    some (if Bounded L k then .opaqueBoundary
      else TopologyGraph.roleKind (scoreRole (signalsOf L k)) (if Bridging L k then .switch else .host))
  else none

/-- A device that records are about is a boundary, or its signals decide its role. -/
def Settled : Prop := Named L k → Bounded L k ∨ scoreRole (signalsOf L k) ≠ .host

instance : Decidable (Settled L k) := inferInstanceAs (Decidable (_ → _))

end Kinds

/-- The kind of a device, if it is in the graph. -/
def TopologyGraph.kindOf (g : TopologyGraph) (k : DeviceKey) : Option NodeKind :=
  (g.nodes.lookup (.device k)).map Node.kind

/-- The graph after absorbing a list of records, merging, and assigning roles. -/
def finished (evs : List TopologyEvidence) : TopologyGraph := build (evs.map .absorb ++ [.merge, .finalize])

section Finished

variable {L M : List TopologyEvidence} {k : DeviceKey}

theorem finished_eq (evs : List TopologyEvidence) :
    finished evs = (absorbAll evs).mergeAddressIdentities.1.finalizeRoles := by
  have h := build_map_absorb evs
  unfold build at h
  unfold finished build
  rw [run_append, h]
  simp only [run_cons, run_nil, GraphOp.apply]

theorem mem_signalsOf {s : RoleSignal} :
    s ∈ signalsOf L k ↔ ∃ ev ∈ L, ∃ j, ev.qualified = .deviceRoleSignal j s ∧ deviceOf L j = k := by
  unfold signalsOf
  rw [List.mem_toFinset, List.mem_filterMap]
  refine exists_congr fun ev => and_congr_right fun _ => ?_
  cases hf : ev.qualified with
  | deviceRoleSignal j s' =>
    simp only [Fact.signal, Option.bind_some]
    constructor
    · intro h
      split_ifs at h with hd
      cases h
      exact ⟨j, rfl, hd⟩
    · rintro ⟨j', he, hd⟩
      cases he
      exact if_pos hd
  | _ => simp [Fact.signal]

theorem bounded_iff : Bounded L k ↔ ∃ ev ∈ L, ∃ j why, ev.qualified = .opaqueBoundary j why ∧ deviceOf L j = k := by
  unfold Bounded
  refine exists_congr fun ev => and_congr_right fun _ => ?_
  cases hf : ev.qualified <;> simp [Fact.boundary]

/-- Bridges are hardware. -/
theorem isMac_of_bridging (h : Bridging L k) : k.isMac = true := by
  obtain ⟨ev, -, hk⟩ := h
  have hof : ∀ {text key}, (bridgeIdentity text).map (qualifyDevice · (Realm.of ev.origin)) = some key →
      key.isMac = true := by
    intro text key he
    obtain ⟨b, hb, rfl⟩ := Option.map_eq_some_iff.mp he
    rw [isMac_qualifyDevice]
    unfold bridgeIdentity at hb
    split at hb
    · cases hb
    · dsimp only at hb
      split_ifs at hb
      cases hb
      rfl
  unfold TopologyEvidence.bridges at hk
  cases hf : ev.qualified with
  | bridgeLink b r p =>
    rw [hf] at hk
    simp only [Fact.bridges] at hk
    split at hk
    · rename_i bridge root hb hr
      rcases List.mem_cons.mp hk with rfl | hk
      · exact hof hb
      · rw [List.mem_singleton.mp hk]
        exact hof hr
    · cases hk
  | _ => rw [hf] at hk; cases hk

/-- **The merge pass takes every identity to its device.** -/
theorem renameNode_eq_deviceOf (hL : Coherent L) (hM : ∀ ev, ev ∈ M ↔ ev ∈ L) {q : DeviceKey}
    (hq : .device q ∈ (absorbAll M).nodes) :
    renameNode (absorbAll M).merges (.device q) = .device (deviceOf L q) := by
  obtain ⟨hs, hn⟩ := filed_absorbAll hL M fun ev hev => (hM ev).mp hev
  generalize absorbAll M = g at hq hs hn
  cases hmac : q.isMac with
  | true => rw [TopologyGraph.renameNode_of_not_absorbed (TopologyGraph.mac_not_absorbed hmac), deviceOf_mac hmac]
  | false =>
    obtain ⟨n, hnode⟩ := Map.mem_iff_lookup.mp hq
    obtain ⟨ev, hev, hdev⟩ : Named L q := by
      rcases hn.kinds q n hnode with ⟨-, h⟩ | ⟨-, h⟩
      · exact h
      · rw [isMac_of_bridging h] at hmac
        cases hmac
    rcases deviceOf_cases L q with hself | ⟨slot, hslot, hclaim, hm⟩
    · -- no hardware claims the slot, so its owner is not hardware
      rw [hself]
      refine TopologyGraph.renameNode_of_not_absorbed fun habs => ?_
      obtain ⟨key, owner, he, -, ht, -⟩ := TopologyGraph.mem_absorbedIds.mp habs
      cases he
      have hom := (TopologyGraph.isMac_of_mergeTarget ht).2
      obtain ⟨x, hx⟩ : ∃ x, q.address? = some x := by
        cases hx : q.address? with
        | none => rw [address?_eq_none.mp hx] at hmac; cases hmac
        | some x => exact ⟨x, rfl⟩
      have hown : g.addressOwner.lookup (slotIn x (TopologyGraph.keyZone q) (Realm.of ev.origin)) = some owner := by
        unfold TopologyGraph.mergeTarget at ht
        rw [hL.domains ev hev q hdev x hx] at ht
        dsimp only at ht
        split at ht
        · split_ifs at ht
          rw [← ht]
          assumption
        · cases ht
      obtain ⟨-, j, hj, hd⟩ := hs.owners _ _ hown
      have hcons : Consults L (slotIn x (TopologyGraph.keyZone q) (Realm.of ev.origin)) q := by
        refine ⟨ev, hev, hdev, ?_⟩
        unfold TopologyEvidence.consulted
        rw [if_neg (by simp [hmac])]
        simp [DeviceKey.addresses, hx]
      have he := hd.trans (hL.lookups _ q j hcons hj).symm
      rw [deviceOf_mac hom, hself] at he
      rw [he, hmac] at hom
      cases hom
    · -- the hardware that claims the slot owns it, and is in the graph
      obtain ⟨ev', hev', hst⟩ := hclaim
      have hst' : Claims M slot (deviceOf L q) := ⟨ev', (hM ev').mpr hev', hst⟩
      have hown := hs.hardware slot _ hst' hm
      obtain ⟨a, hf, -⟩ := qualified_of_statedClaim hst
      obtain ⟨p, hp, -, hpm⟩ := hn.named (deviceOf L q) ⟨ev', (hM ev').mpr hev', by
        simp [TopologyEvidence.devices, hf, Fact.devices]⟩
      refine TopologyGraph.renameNode_absorbed ⟨hq, ?_, hpm hm ▸ hp⟩
      unfold TopologyGraph.mergeTarget
      rw [hslot]
      dsimp only
      rw [hown]
      exact if_pos hm

theorem known_iff (hL : Coherent L) (hM : ∀ ev, ev ∈ M ↔ ev ∈ L) :
    .device k ∈ (absorbAll M).mergeAddressIdentities.1.nodes ↔ Known L k := by
  obtain ⟨hs, hn⟩ := filed_absorbAll hL M fun ev hev => (hM ev).mp hev
  rw [TopologyGraph.mem_nodes_merge]
  constructor
  · rintro ⟨hk, hna⟩
    have hr := renameNode_eq_deviceOf hL hM hk
    rw [TopologyGraph.renameNode_of_not_absorbed hna] at hr
    obtain ⟨n, hnode⟩ := Map.mem_iff_lookup.mp hk
    rcases hn.kinds k n hnode with ⟨-, ev, hev, hdev⟩ | ⟨-, hb⟩
    · exact .inr ⟨ev, hev, k, hdev, (NodeId.device.inj hr).symm⟩
    · exact .inl hb
  · have hsurvives : ∀ q, .device q ∈ (absorbAll M).nodes → deviceOf L q = k →
        .device k ∈ (absorbAll M).nodes ∧ .device k ∉ (absorbAll M).absorbedIds := by
      intro q hq hd
      have hr := renameNode_eq_deviceOf hL hM hq
      rw [hd] at hr
      obtain ⟨n, hnode⟩ := Map.mem_iff_lookup.mp hq
      obtain ⟨n', hn', -⟩ := (TopologyGraph.exists_node_merge (Φ := fun _ => True) (by simp)).mpr
        ⟨.device q, n, hr, hnode, trivial⟩
      exact TopologyGraph.mem_nodes_merge.mp (Map.mem_of_lookup hn')
    rintro (hb | ⟨ev, hev, j, hj, hd⟩)
    · obtain ⟨ev, hev, hk⟩ := hb
      exact hsurvives k (hn.bridges k ⟨ev, (hM ev).mpr hev, hk⟩) (deviceOf_mac (isMac_of_bridging ⟨ev, hev, hk⟩))
    · obtain ⟨q, hq, hdq, -⟩ := hn.named j ⟨ev, (hM ev).mpr hev, hj⟩
      exact hsurvives q hq (hdq.trans hd)

/-- The signals that a device has after the merge are those that count for it. -/
theorem roleWeights_merge (hL : Coherent L) (hM : ∀ ev, ev ∈ M ↔ ev ∈ L) :
    ((absorbAll M).mergeAddressIdentities.1.roleWeights.lookup (.device k)).getD ∅ = signalsOf L k := by
  obtain ⟨-, hn⟩ := filed_absorbAll hL M fun ev hev => (hM ev).mp hev
  ext s
  have hmem : s ∈ ((absorbAll M).mergeAddressIdentities.1.roleWeights.lookup (.device k)).getD ∅ ↔
      ∃ v, (absorbAll M).mergeAddressIdentities.1.roleWeights.lookup (.device k) = some v ∧ s ∈ v := by
    cases (absorbAll M).mergeAddressIdentities.1.roleWeights.lookup (.device k) <;> simp
  rw [hmem, mem_signalsOf, TopologyGraph.mergeAddressIdentities_eq]
  simp only [← hM]
  rw [← hn.signals k s]
  refine (TopologyGraph.exists_relocateAll_iff_rename (Φ := fun v => s ∈ v) fun t v => Finset.mem_union).trans ?_
  constructor
  · rintro ⟨id, v, hr, hv, hsv⟩
    obtain ⟨hnode, q, rfl⟩ := hn.weighed id (Map.mem_of_lookup hv)
    rw [renameNode_eq_deviceOf hL hM hnode] at hr
    exact ⟨q, v, hv, hsv, NodeId.device.inj hr⟩
  · rintro ⟨q, v, hv, hsv, rfl⟩
    exact ⟨.device q, v, renameNode_eq_deviceOf hL hM (hn.weighed _ (Map.mem_of_lookup hv)).1, hv, hsv⟩

/-- And a device is a boundary after the merge if a record says so. -/
theorem boundary_merge (hL : Coherent L) (hM : ∀ ev, ev ∈ M ↔ ev ∈ L) :
    BoundaryAt (absorbAll M).mergeAddressIdentities.1 (.device k) ↔ Bounded L k := by
  obtain ⟨-, hn⟩ := filed_absorbAll hL M fun ev hev => (hM ev).mp hev
  rw [bounded_iff]
  simp only [← hM]
  rw [← hn.boundaries k]
  unfold BoundaryAt
  rw [TopologyGraph.exists_node_merge (Φ := fun n => n.opaqueReason.isSome = true)]
  · constructor
    · rintro ⟨id, n, hr, hnode, ho⟩
      cases id with
      | device q =>
        rw [renameNode_eq_deviceOf hL hM (Map.mem_of_lookup hnode)] at hr
        exact ⟨q, n, hnode, ho, NodeId.device.inj hr⟩
      | _ =>
        rw [TopologyGraph.renameNode_of_not_absorbed] at hr
        · cases hr
        · rw [TopologyGraph.mem_absorbedIds]
          rintro ⟨key, owner, he, -⟩
          cases he
    · rintro ⟨q, n, hnode, ho, rfl⟩
      exact ⟨.device q, n, renameNode_eq_deviceOf hL hM (Map.mem_of_lookup hnode), hnode, ho⟩
  · intro t s
    rw [foldNode_eq]
    cases t.opaqueReason <;> simp

/-- The kind of a node before its role is scored: a switch only if it is a bridge, and a host only if other records
are about it. -/
theorem kind_merge (hL : Coherent L) (hM : ∀ ev, ev ∈ M ↔ ev ∈ L) {n : Node}
    (h : (absorbAll M).mergeAddressIdentities.1.nodes.lookup (.device k) = some n) :
    (n.kind = .host ∧ Named L k) ∨ (n.kind = .switch ∧ Bridging L k) := by
  obtain ⟨-, hn⟩ := filed_absorbAll hL M fun ev hev => (hM ev).mp hev
  obtain ⟨hmem, hna⟩ := TopologyGraph.mem_nodes_merge.mp (Map.mem_of_lookup h)
  obtain ⟨n₀, hn₀⟩ := Map.mem_iff_lookup.mp hmem
  obtain ⟨n', hn', hkind⟩ := (TopologyGraph.exists_node_merge_of_stays (Φ := fun n => n.kind = n₀.kind)
    (by intro t s; rw [foldNode_eq]) hna hmem).mpr ⟨n₀, hn₀, rfl⟩
  rw [h] at hn'
  cases hn'
  rw [hkind]
  exact hn.kinds k n₀ hn₀

/-- **The kinds of the devices are those the records come to**, whatever their order. -/
theorem kindOf_finished (hL : Coherent L) (hset : ∀ ev ∈ L, ∀ b ∈ ev.bridges, Settled L b)
    (hM : ∀ ev, ev ∈ M ↔ ev ∈ L) (k : DeviceKey) :
    (finished M).kindOf k = kindOfRecords L k := by
  have hkeyed : ∀ id n, (absorbAll M).mergeAddressIdentities.1.nodes.lookup id = some n → n.id = id := by
    have h := nodesKeyed_build (M.map .absorb ++ [GraphOp.merge])
    rw [build_concat, build_map_absorb] at h
    exact h
  rw [finished_eq, TopologyGraph.kindOf, TopologyGraph.lookup_finalizeRoles (by rwa [TopologyGraph.merge_merge]),
    TopologyGraph.merge_merge, roleWeights_merge hL hM, kindOfRecords]
  cases hn : (absorbAll M).mergeAddressIdentities.1.nodes.lookup (.device k) with
  | none =>
    rw [if_neg]
    · rfl
    · intro hknown
      obtain ⟨n, hn'⟩ := Map.mem_iff_lookup.mp ((known_iff hL hM).mpr hknown)
      rw [hn] at hn'
      cases hn'
  | some n =>
    have hb : n.opaqueReason.isSome = true ↔ Bounded L k := by
      rw [← boundary_merge hL hM, BoundaryAt, hn]
      simp
    rw [if_pos ((known_iff hL hM).mp (Map.mem_of_lookup hn))]
    simp only [Option.map_some, Option.some.injEq, hb]
    by_cases hbound : Bounded L k
    · rw [if_pos hbound, if_pos hbound]
    · rw [if_neg hbound, if_neg hbound]
      rcases kind_merge hL hM hn with ⟨hkind, hnamed⟩ | ⟨hkind, hbridge⟩
      · rw [hkind]
        split_ifs with hbridge
        · -- a bridge that came as a host first: its signals decide
          obtain ⟨ev, hev, hk⟩ := hbridge
          have hrole := (hset ev hev k hk hnamed).resolve_left hbound
          cases hr : scoreRole (signalsOf L k) with
          | host => exact absurd hr hrole
          | _ => rfl
        · rfl
      · rw [hkind, if_pos hbridge]

/-- **Arrival order does not matter**: the same records in any order give the same devices of the same kinds, and
every bridge is a boundary, what its signals score, or else a switch. -/
theorem kinds_order_free (hM : M.Perm L) (hL : Coherent L) (hset : ∀ ev ∈ L, ∀ b ∈ ev.bridges, Settled L b) :
    (∀ k, (finished M).kindOf k = (finished L).kindOf k) ∧
      ∀ ev ∈ L, ∀ b ∈ ev.bridges, (finished M).kindOf b =
        some (if Bounded L b then .opaqueBoundary else TopologyGraph.roleKind
        (scoreRole (signalsOf L b)) .switch) := by
  refine ⟨fun k => ?_, fun ev hev b hb => ?_⟩
  · rw [kindOf_finished hL hset (fun ev => hM.mem_iff), kindOf_finished hL hset (fun ev => Iff.rfl)]
  · have hbridge : Bridging L b := ⟨ev, hev, hb⟩
    rw [kindOf_finished hL hset (fun ev => hM.mem_iff), kindOfRecords, if_pos (.inl hbridge), if_pos hbridge]

end Finished

/-- A bridge that is first known by its address. -/
theorem kinds_order_free_bridge :
    let answered := sighting hwA (ip 10 0 0 1) .arpProbe none
    let bridging : TopologyEvidence :=
      { fact := .deviceRoleSignal (.address (ip 10 0 0 1)) .spanningTreeBridge, source := .stp, confidence := .observed,
        vantage := "eth0" }
    let linked : TopologyEvidence :=
      { fact := .bridgeLink "32768.00:00:00:00:00:0a" "4096.00:00:00:00:00:0b" none, source := .stp,
        confidence := .advertised, vantage := "eth0" }
    (∀ k, (finished [bridging, answered, linked]).kindOf k = (finished [linked, answered, bridging]).kindOf k) ∧
      (finished [bridging, answered, linked]).kindOf hwB = some .switch := by
  intro answered bridging linked
  have hL : Coherent [linked, answered, bridging] := by decide
  have hset : ∀ ev ∈ [linked, answered, bridging], ∀ b ∈ ev.bridges, Settled [linked, answered, bridging] b := by
    decide
  have hM : [bridging, answered, linked].Perm [linked, answered, bridging] :=
    List.reverse_perm [linked, answered, bridging]
  obtain ⟨hsame, hbridges⟩ := kinds_order_free hM hL hset
  refine ⟨hsame, (hbridges linked List.mem_cons_self hwB (by decide)).trans ?_⟩
  decide

/-- Neither the devices nor the kinds of the bridges are settled by one hardware address per slot: a name is filed
under whoever holds the address at the time, and a root that is the default gateway is a router. -/
theorem kinds_follow_order_and_role :
    (¬∀ L M : List TopologyEvidence, M.Perm L →
      (∀ slot j k, Claims L slot j → Claims L slot k → j.isMac = true → k.isMac = true → j = k) →
        ∀ k, (finished M).kindOf k = (finished L).kindOf k) ∧
    ¬∀ L M : List TopologyEvidence, M.Perm L →
      (∀ slot j k, Claims L slot j → Claims L slot k → j.isMac = true → k.isMac = true → j = k) →
        ∀ ev ∈ L, ∀ b ∈ ev.bridges, (finished M).kindOf b = some .switch ∨
        (finished M).kindOf b = some .layer3Switch := by
  have hone : ∀ {L : List TopologyEvidence}, (∀ ev ∈ L, ∀ p ∈ statedClaim ev, p.2.isMac = false) →
      ∀ slot j k, Claims L slot j → Claims L slot k → j.isMac = true → k.isMac = true → j = k := by
    rintro L hL slot j k ⟨ev, hev, hs⟩ - hj -
    rw [hL ev hev _ hs] at hj
    cases hj
  constructor
  · intro h
    let leased := sighting (.address (ip 10 0 0 1)) (ip 10 0 0 2) .dhcpLease none
    let called : TopologyEvidence :=
      { fact := .deviceHostname (.address (ip 10 0 0 2)) "printer", source := .mdns, confidence := .advertised,
        vantage := "eth0" }
    have hsame := h [leased, called] [called, leased] (List.Perm.swap ..) (hone (by decide))
      (.address (ip 10 0 0 2))
    have hleft : (finished [called, leased]).kindOf (.address (ip 10 0 0 2)) = some .host := by decide
    have hright : (finished [leased, called]).kindOf (.address (ip 10 0 0 2)) = none := by decide
    rw [hleft, hright] at hsame
    cases hsame
  · intro h
    let linked : TopologyEvidence :=
      { fact := .bridgeLink "32768.00:00:00:00:00:0a" "4096.00:00:00:00:00:0b" none, source := .stp,
        confidence := .advertised, vantage := "eth0" }
    let gateway : TopologyEvidence :=
      { fact := .deviceRoleSignal hwB .defaultGateway, source := .defaultGateway, confidence := .observed,
        vantage := "eth0" }
    have hall := h [linked, gateway] [linked, gateway] (.refl _) (hone (by decide))
    have hrouter : (finished [linked, gateway]).kindOf hwB = some .router := by decide
    rcases hall linked List.mem_cons_self hwB (by decide) with hswitch | hswitch
    · rw [hrouter] at hswitch
      cases hswitch
    · rw [hrouter] at hswitch
      cases hswitch

end Idnx
