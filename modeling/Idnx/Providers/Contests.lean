import Idnx.Probes.NdpSweep
import Idnx.Providers.Vlans
import Idnx.Topology.Slots

/-!
# Conflicts, as they are reported and as the graph has them

Two stations that answer for one address are reported by the sweep that heard them, and contested in the graph. An
answer of an NDP sweep may name no hardware: the graph takes it for the station it has, and the report for another one.

* `Heard`: what the graph has of the answers it absorbed, slot by slot;
* `contests_agree_iff`: the report and the graph agree about every ARP sweep, and about an address of an NDP sweep
  unless it was answered for both without and with a hardware address and only one of these was named.
-/

namespace Idnx

/-- The identity of an address, with the zone only where it disambiguates (`DeviceKey::scoped_address`). -/
def DeviceKey.scoped (addr : IpAddr) (zone : Option Text) : DeviceKey :=
  match requiresZone addr, zone with
  | true, some zone => .scopedAddress addr zone.toAsciiLowercase
  | _, _ => .address addr

/-- What an advertisement is evidence of. -/
def advertisementEvidence (lookupVendor : Text → Option Text) (vantage : Text) (now : Nat) (found : NdpAdvertisement) :
    List TopologyEvidence :=
  let device := match found.macText with
    | some mac => DeviceKey.ofMac mac
    | none => DeviceKey.scoped (.v6 found.address) (some vantage)
  let evidence (fact : Fact) (confidence : Confidence) : TopologyEvidence :=
    { fact, source := .ndpProbe, confidence, vantage, observedAt := now }
  [evidence (.deviceAddress device (.v6 found.address)) .observed] ++
    ((found.macText.bind lookupVendor).toList.map fun vendor => evidence (.deviceVendor device vendor) .observed) ++
    if found.router then [evidence (.deviceRoleSignal device .routerAdvertisement) .advertised] else []

/-! ## Answers, slot by slot -/

/-- An address and the hardware that answered for it, if it was named. -/
abbrev Answer := IpAddr × Option Text

/-- The slot of an address that answered at this vantage. -/
def answerSlot (vantage : Text) (x : IpAddr) : Slot := ⟨x, TopologyGraph.zoneOf x vantage, .localRealm⟩

/-- Who an answer is of. -/
def Answer.device (vantage : Text) : Answer → DeviceKey
  | (_, some mac) => .mac mac
  | (x, none) => DeviceKey.scoped x (some vantage)

/-- The hardware that answered for an address. -/
def stations (answers : List Answer) (x : IpAddr) : Set DeviceKey := {k | ∃ mac, (x, some mac) ∈ answers ∧ k = .mac mac}

/-- The graph has of these answers, and of nothing else, what is in its slots. -/
structure Heard (vantage : Text) (answers : List Answer) (g : TopologyGraph) : Prop where
  slots : SlotInv g
  elsewhere : ∀ s, s ≠ answerSlot vantage s.address → g.tenure s = .vacant
  settled : ∀ x, (g.tenure (answerSlot vantage x)).Settled bindingPolicy (stations answers x)
    (DeviceKey.scoped x (some vantage))

/-- A record of this vantage that no other record of it contradicts: made here and now. -/
structure Fresh (vantage : Text) (ev : TopologyEvidence) : Prop where
  origin : ev.origin = none
  vantage_eq : ev.vantage = vantage
  source : bindingFreshness ev.source = freshnessConfirmed

section Step

variable {vantage : Text} {answers : List Answer} {g : TopologyGraph} {ev : TopologyEvidence}

theorem isMac_scoped (x : IpAddr) (zone : Option Text) : (DeviceKey.scoped x zone).isMac = false := by
  unfold DeviceKey.scoped
  split <;> rfl

theorem address_scoped (x : IpAddr) (zone : Option Text) : (DeviceKey.scoped x zone).address? = some x := by
  unfold DeviceKey.scoped
  split <;> rfl

theorem isMac_of_stations {x : IpAddr} : ∀ k ∈ stations answers x, k.isMac = true := by
  rintro k ⟨mac, -, rfl⟩
  rfl

theorem heard_new : Heard vantage [] .new := by
  refine ⟨slotInv_new, fun s _ => rfl, fun x => ?_⟩
  exact Set.eq_empty_of_forall_notMem fun k ⟨mac, hmac, _⟩ => List.not_mem_nil hmac

/-- A record that claims no address. -/
theorem heard_absorb_other (h : Heard vantage answers g) (hclaim : g.claimOf ev = none) :
    Heard vantage answers (g.absorb ev) := by
  have htenure : ∀ s, (g.absorb ev).tenure s = g.tenure s := fun s => by
    rw [TopologyGraph.tenure_absorb h.slots, TopologyGraph.claimed, hclaim]
  refine ⟨slotInv_apply h.slots (.absorb ev), fun s hs => ?_, fun x => ?_⟩
  · rw [htenure]
    exact h.elsewhere s hs
  · rw [htenure]
    exact h.settled x

/-- An identity of an address is resolved to the holder, if it is looked up in the slot of the answer, and to itself,
as no one holds any other slot. -/
theorem canonicalKey_of_heard (h : Heard vantage answers g) {x : IpAddr} {key : DeviceKey}
    (haddress : key.address? = some x) :
    g.canonicalKey key (some x) .localRealm = key ∨
      ∃ since, g.tenure (answerSlot vantage x) = .held (g.canonicalKey key (some x) .localRealm) since := by
  have hlocal : addressRealm x .localRealm = .localRealm := congrArg Slot.realm (slotIn_local x none)
  have hresolved : g.canonicalKey key (some x) .localRealm =
      (g.addressOwner.lookup ⟨x, TopologyGraph.keyZone key, .localRealm⟩).getD key := by
    unfold TopologyGraph.canonicalKey TopologyGraph.ownerInRealm
    rw [haddress]
    dsimp only
    rw [hlocal]
    cases g.addressOwner.lookup ⟨x, TopologyGraph.keyZone key, .localRealm⟩ with
    | none => rfl
    | some owner => rfl
  rw [hresolved]
  cases howner : g.addressOwner.lookup ⟨x, TopologyGraph.keyZone key, .localRealm⟩ with
  | none => exact .inl rfl
  | some owner =>
    obtain ⟨since, hheld⟩ := tenure_of_owner h.slots howner
    by_cases hsame : (⟨x, TopologyGraph.keyZone key, .localRealm⟩ : Slot) = answerSlot vantage x
    · exact .inr ⟨since, hsame ▸ hheld⟩
    · rw [h.elsewhere _ hsame] at hheld
      cases hheld

/-- The device an answer claims the address for: the one it names, or else the holder if there is one. -/
theorem claimOf_answer (h : Heard vantage answers g) (hfresh : Fresh vantage ev) {answer : Answer}
    (hfact : ev.fact = .deviceAddress (answer.device vantage) answer.1) :
    ∃ key, g.claimOf ev = some (answerSlot vantage answer.1, key) ∧
      (answer.2 = none → key = DeviceKey.scoped answer.1 (some vantage) ∨
        ∃ since, g.tenure (answerSlot vantage answer.1) = .held key since) ∧
      ∀ mac, answer.2 = some mac → key = .mac mac := by
  obtain ⟨x, mac⟩ := answer
  have hqualified : qualifyFact ev.fact (Realm.of ev.origin) =
      .deviceAddress (Answer.device vantage (x, mac)) x := by
    rw [hfact, hfresh.origin]
    rfl
  have hslot : recordSlot ev x = answerSlot vantage x := by
    rw [recordSlot, hfresh.origin, hfresh.vantage_eq]
    exact slotIn_local x _
  have hclaim : g.claimOf ev = some (answerSlot vantage x,
      g.canonicalKey (Answer.device vantage (x, mac)) (some x) .localRealm) := by
    unfold TopologyGraph.claimOf
    rw [hqualified, ← hslot, hfresh.origin]
    rfl
  refine ⟨_, hclaim, ?_, ?_⟩
  · rintro rfl
    exact canonicalKey_of_heard h (address_scoped x _)
  · rintro m rfl
    rfl

/-- **One answer.** -/
theorem heard_absorb (h : Heard vantage answers g) (hfresh : Fresh vantage ev) {answer : Answer}
    (hfact : ev.fact = .deviceAddress (answer.device vantage) answer.1) :
    Heard vantage (answers ++ [answer]) (g.absorb ev) := by
  obtain ⟨key, hclaim, hsoft, hhard⟩ := claimOf_answer h hfresh hfact
  obtain ⟨x, mac⟩ := answer
  have htenure : ∀ s, (g.absorb ev).tenure s =
      if s = answerSlot vantage x then (g.tenure s).claim bindingPolicy key ev.source else g.tenure s := fun s => by
    rw [TopologyGraph.tenure_absorb h.slots, TopologyGraph.claimed, hclaim]
  have hothers : ∀ y, y ≠ x → stations (answers ++ [(x, mac)]) y = stations answers y := by
    intro y hy
    ext k
    simp [stations, hy]
  refine ⟨slotInv_apply h.slots (.absorb ev), fun s hs => ?_, fun y => ?_⟩
  · have hne : s ≠ answerSlot vantage x := by
      rintro rfl
      exact hs rfl
    rw [htenure, if_neg hne]
    exact h.elsewhere s hs
  · by_cases hy : y = x
    case neg =>
      have hne : answerSlot vantage y ≠ answerSlot vantage x := fun heq => hy (congrArg Slot.address heq)
      rw [htenure, if_neg hne, hothers y hy]
      exact h.settled y
    subst hy
    rw [htenure, if_pos rfl]
    cases mac with
    | none =>
      have hstations : stations (answers ++ [(y, none)]) y = stations answers y := by
        ext k
        simp [stations]
      rw [hstations]
      exact Tenure.settled_claim_soft (isMac_scoped y _) isMac_of_stations (h.settled y) (hsoft rfl) hfresh.source
    | some mac =>
      have hstations : stations (answers ++ [(y, some mac)]) y = insert (.mac mac) (stations answers y) := by
        ext k
        simp only [stations, List.mem_append, List.mem_singleton, Prod.mk.injEq, Option.some.injEq, true_and,
          Set.mem_ofPred_eq, Set.mem_insert_iff]
        constructor
        · rintro ⟨m, hm | rfl, rfl⟩
          · exact .inr ⟨m, hm, rfl⟩
          · exact .inl rfl
        · rintro (rfl | ⟨m, hm, rfl⟩)
          · exact ⟨mac, .inr rfl, rfl⟩
          · exact ⟨m, .inl hm, rfl⟩
      obtain rfl := hhard mac rfl
      rw [hstations]
      exact Tenure.settled_claim_hard (isMac_scoped y _) isMac_of_stations (h.settled y) rfl hfresh.source

end Step

/-! ## All answers -/

/-- What the evidence of an answer is: that the device has the address, and more that claims none. -/
def Testifies (vantage : Text) (answer : Answer) (evs : List TopologyEvidence) : Prop :=
  ∃ ev others, evs = ev :: others ∧ Fresh vantage ev ∧
    ev.fact = .deviceAddress (answer.device vantage) answer.1 ∧
    ∀ other ∈ others, ∀ g : TopologyGraph, g.claimOf other = none

section Run

variable {vantage : Text} {α : Type} {answer : α → Answer} {evidence : α → List TopologyEvidence}

theorem heard_others {answers : List Answer} {g : TopologyGraph} (h : Heard vantage answers g)
    (evs : List TopologyEvidence) (hevs : ∀ ev ∈ evs, ∀ g : TopologyGraph, g.claimOf ev = none) :
    Heard vantage answers (evs.foldl TopologyGraph.absorb g) := by
  induction evs generalizing g with
  | nil => exact h
  | cons ev evs ih =>
    exact ih (heard_absorb_other h (hevs ev List.mem_cons_self g)) fun ev' h' => hevs ev' (List.mem_cons_of_mem _ h')

/-- **The evidence of all answers**, absorbed one record after the other. -/
theorem heard_absorbAll (l : List α) (hl : ∀ a ∈ l, Testifies vantage (answer a) (evidence a)) :
    Heard vantage (l.map answer) (absorbAll (l.flatMap evidence)) := by
  suffices hrun : ∀ answers g, Heard vantage answers g →
      Heard vantage (answers ++ l.map answer) ((l.flatMap evidence).foldl TopologyGraph.absorb g) from
    hrun [] .new heard_new
  induction l with
  | nil =>
    intro answers g h
    rw [List.map_nil, List.append_nil]
    exact h
  | cons a l ih =>
    intro answers g h
    obtain ⟨ev, others, hevs, hfresh, hfact, hothers⟩ := hl a List.mem_cons_self
    rw [List.flatMap_cons, List.foldl_append, hevs, List.foldl_cons, List.map_cons, ← List.singleton_append,
      ← List.append_assoc]
    exact ih (fun b hb => hl b (List.mem_cons_of_mem _ hb)) _ _ (heard_others (heard_absorb h hfresh hfact) _ hothers)

/-- **What is contested in the graph**: the addresses that two pieces of hardware answered for. -/
theorem contested_iff {answers : List Answer} {g : TopologyGraph} (h : Heard vantage answers g) (x : IpAddr) :
    (g.contestedAddresses.lookup (answerSlot vantage x)).isSome = true ↔
      ∃ m m', (x, some m) ∈ answers ∧ (x, some m') ∈ answers ∧ m ≠ m' := by
  have hdisputed := (h.settled x).disputed_iff
  have hlookup : (g.contestedAddresses.lookup (answerSlot vantage x)).isSome = true ↔
      ∃ cs, g.tenure (answerSlot vantage x) = .disputed cs := by
    rw [Option.isSome_iff_exists]
    exact exists_congr fun cs => ⟨tenure_of_contested h.slots, fun ht => (contested_of_tenure h.slots ht).1⟩
  rw [hlookup, hdisputed]
  constructor
  · rintro ⟨_, ⟨m, hm, rfl⟩, _, ⟨m', hm', rfl⟩, hne⟩
    exact ⟨m, m', hm, hm', fun heq => hne (congrArg DeviceKey.mac heq)⟩
  · rintro ⟨m, m', hm, hm', hne⟩
    exact ⟨_, ⟨m, hm, rfl⟩, _, ⟨m', hm', rfl⟩, fun heq => hne (DeviceKey.mac.inj heq)⟩

end Run

/-! ## The answers of a sweep -/

/-- The slot is contested. -/
def TopologyGraph.Contests (g : TopologyGraph) (slot : Slot) : Prop := (g.contestedAddresses.lookup slot).isSome = true

/-- The sweep names the address as one that more than one station answered for. -/
def ArpSweep.Reports (sweep : ArpSweep) (x : Ipv4Addr) : Prop := ∃ macs, (x, macs) ∈ sweep.contested

def NdpSweep.Reports (sweep : NdpSweep) (x : Ipv6Addr) : Prop := ∃ macs, (x, macs) ∈ sweep.contested

def ArpReply.answer (reply : ArpReply) : Answer := (.v4 reply.address, some reply.macText)

def NdpAdvertisement.answer (found : NdpAdvertisement) : Answer := (.v6 found.address, found.macText)

section Evidence

variable (lookupVendor : Text → Option Text) (vantage : Text) (now : Nat)

theorem testifies_replyEvidence (reply : ArpReply) :
    Testifies vantage reply.answer (replyEvidence lookupVendor vantage now reply) := by
  have hdevice : DeviceKey.ofMac reply.macText = .mac reply.macText :=
    congrArg DeviceKey.mac (toAsciiLowercase_formatMac reply.mac)
  refine ⟨_, _, rfl, ⟨rfl, rfl, rfl⟩, ?_, fun other hother g => ?_⟩
  · rw [hdevice]
    rfl
  · obtain hvendor | hvlan := List.mem_append.mp hother
    · obtain ⟨vendor, -, rfl⟩ := List.mem_map.mp hvendor
      rfl
    · obtain ⟨id, -, rfl⟩ := List.mem_map.mp hvlan
      rfl

theorem testifies_advertisementEvidence (found : NdpAdvertisement) :
    Testifies vantage found.answer (advertisementEvidence lookupVendor vantage now found) := by
  refine ⟨_, _, rfl, ⟨rfl, rfl, rfl⟩, ?_, fun other hother g => ?_⟩
  · unfold NdpAdvertisement.answer NdpAdvertisement.macText
    cases found.mac with
    | none => rfl
    | some mac =>
      have hdevice : DeviceKey.ofMac (formatMac mac.octets) = .mac (formatMac mac.octets) :=
        congrArg DeviceKey.mac (toAsciiLowercase_formatMac mac.octets)
      dsimp only [Option.map_some]
      rw [hdevice]
      rfl
  · obtain hvendor | hrole := List.mem_append.mp hother
    · obtain ⟨vendor, -, rfl⟩ := List.mem_map.mp hvendor
      rfl
    · split at hrole
      · rw [List.mem_singleton.mp hrole]
        rfl
      · cases hrole

end Evidence

/-! ## ARP -/

section Arp

variable (replies : List ArpReply) (x : Ipv4Addr)

/-- Two hardware addresses answered for the address. -/
def TwoReplied : Prop := ∃ a ∈ replies, ∃ b ∈ replies, a.address = x ∧ b.address = x ∧ a.mac ≠ b.mac

theorem reports_replies_iff (sweep : ArpSweep) :
    ArpSweep.Reports { sweep with replies := replies.foldl recordReply [] } x ↔ TwoReplied replies x := by
  have hkey : ∀ mac : Bytes, (x, mac) ∈ (replies.foldl recordReply []).map (fun reply => (reply.address, reply.mac)) ↔
      ∃ a ∈ replies, a.address = x ∧ a.mac = mac := by
    intro mac
    refine mem_map_record.trans ?_
    simp only [List.map_nil, List.not_mem_nil, false_or, List.mem_map, Prod.mk.injEq]
  have hnodup : ((replies.foldl recordReply []).map fun reply => (reply.address, reply.mac)).Nodup :=
    nodup_record (List.nodup_nil : (([] : List ArpReply).map fun reply => (reply.address, reply.mac)).Nodup)
  unfold ArpSweep.Reports ArpSweep.contested TwoReplied
  rw [exists_collected_iff hnodup]
  constructor
  · rintro ⟨m, m', hm, hm', hne⟩
    obtain ⟨a, ha, hax, rfl⟩ := (hkey m).mp hm
    obtain ⟨b, hb, hbx, rfl⟩ := (hkey m').mp hm'
    exact ⟨a, ha, b, hb, hax, hbx, hne⟩
  · rintro ⟨a, ha, b, hb, hax, hbx, hne⟩
    exact ⟨a.mac, b.mac, (hkey _).mpr ⟨a, ha, hax, rfl⟩, (hkey _).mpr ⟨b, hb, hbx, rfl⟩, hne⟩

theorem contests_replies_iff (lookupVendor : Text → Option Text) (vantage : Text) (now : Nat) :
    (absorbAll ((replies.foldl recordReply []).flatMap (replyEvidence lookupVendor vantage now))).Contests
        (answerSlot vantage (.v4 x)) ↔ TwoReplied replies x := by
  have hheard := heard_absorbAll (replies.foldl recordReply []) fun reply _ =>
    testifies_replyEvidence lookupVendor vantage now reply
  have hanswer : ∀ m : Text, (IpAddr.v4 x, some m) ∈ (replies.foldl recordReply []).map ArpReply.answer ↔
      ∃ a ∈ replies, a.address = x ∧ a.macText = m := by
    intro m
    have hkept : (∃ a ∈ replies.foldl recordReply [], a.address = x ∧ a.macText = m) ↔
        ∃ a ∈ replies, a.address = x ∧ a.macText = m := by
      constructor
      · rintro ⟨a, ha, h⟩
        exact ⟨a, (mem_record ha).resolve_left List.not_mem_nil, h⟩
      · rintro ⟨a, ha, rfl, rfl⟩
        have hkey : (a.address, a.mac) ∈ (replies.foldl recordReply []).map fun reply => (reply.address, reply.mac) :=
          mem_map_record.mpr (.inr (List.mem_map_of_mem ha))
        obtain ⟨b, hb, hsame⟩ := List.mem_map.mp hkey
        obtain ⟨haddress, hmac⟩ := Prod.mk.inj hsame
        exact ⟨b, hb, haddress, congrArg formatMac hmac⟩
    rw [← hkept]
    simp only [List.mem_map, ArpReply.answer, Prod.mk.injEq, IpAddr.v4.injEq, Option.some.injEq]
  refine (contested_iff hheard (.v4 x)).trans ?_
  constructor
  · rintro ⟨m, m', hm, hm', hne⟩
    obtain ⟨a, ha, hax, rfl⟩ := (hanswer m).mp hm
    obtain ⟨b, hb, hbx, rfl⟩ := (hanswer m').mp hm'
    exact ⟨a, ha, b, hb, hax, hbx, fun heq => hne (congrArg formatMac heq)⟩
  · rintro ⟨a, ha, b, hb, hax, hbx, hne⟩
    exact ⟨a.macText, b.macText, (hanswer _).mpr ⟨a, ha, hax, rfl⟩, (hanswer _).mpr ⟨b, hb, hbx, rfl⟩,
      fun heq => hne (formatMac_injective heq)⟩

end Arp

/-! ## NDP -/

section Ndp

variable (advertisements : List NdpAdvertisement) (x : Ipv6Addr)

/-- It was answered for the address with this hardware address, or without one. -/
def Advertised (mac : Option Mac) : Prop := ∃ a ∈ advertisements, a.address = x ∧ a.mac = mac

/-- Two hardware addresses answered for the address. -/
def TwoAdvertised : Prop :=
  ∃ m m', Advertised advertisements x (some m) ∧ Advertised advertisements x (some m') ∧ m ≠ m'

/-- It was answered for the address without a hardware address, and with one hardware address only. -/
def HalfNamed : Prop :=
  Advertised advertisements x none ∧ ∃ m, Advertised advertisements x (some m) ∧
    ∀ m', Advertised advertisements x (some m') → m' = m

theorem advertised_iff (mac : Option Mac) :
    (x, mac) ∈ (advertisements.foldl recordAdvertisement []).map (fun found => (found.address, found.mac)) ↔
      Advertised advertisements x mac := by
  refine mem_map_record.trans ?_
  simp only [List.map_nil, List.not_mem_nil, false_or, List.mem_map, Prod.mk.injEq, Advertised]

theorem reports_advertisements_iff (sweep : NdpSweep) :
    NdpSweep.Reports { sweep with advertisements := advertisements.foldl recordAdvertisement [] } x ↔
      ∃ a b, Advertised advertisements x a ∧ Advertised advertisements x b ∧ a ≠ b := by
  have hnodup : ((advertisements.foldl recordAdvertisement []).map fun found => (found.address, found.mac)).Nodup :=
    nodup_record (List.nodup_nil : (([] : List NdpAdvertisement).map fun found => (found.address, found.mac)).Nodup)
  unfold NdpSweep.Reports NdpSweep.contested
  rw [exists_collected_iff hnodup]
  exact exists_congr fun a => exists_congr fun b =>
    and_congr (advertised_iff advertisements x a) (and_congr (advertised_iff advertisements x b) Iff.rfl)

theorem contests_advertisements_iff (lookupVendor : Text → Option Text) (vantage : Text) (now : Nat) :
    (absorbAll ((advertisements.foldl recordAdvertisement []).flatMap
      (advertisementEvidence lookupVendor vantage now))).Contests (answerSlot vantage (.v6 x)) ↔
        TwoAdvertised advertisements x := by
  have hheard := heard_absorbAll (advertisements.foldl recordAdvertisement []) fun found _ =>
    testifies_advertisementEvidence lookupVendor vantage now found
  have hanswer : ∀ m : Text, (IpAddr.v6 x, some m) ∈
      (advertisements.foldl recordAdvertisement []).map NdpAdvertisement.answer ↔
        ∃ mac : Mac, Advertised advertisements x (some mac) ∧ formatMac mac.octets = m := by
    intro m
    simp only [← advertised_iff, List.mem_map, NdpAdvertisement.answer, NdpAdvertisement.macText, Prod.mk.injEq,
      IpAddr.v6.injEq, Option.map_eq_some_iff]
    constructor
    · rintro ⟨a, ha, hax, mac, hmac, hm⟩
      exact ⟨mac, ⟨a, ha, hax, hmac⟩, hm⟩
    · rintro ⟨mac, ⟨a, ha, hax, hmac⟩, hm⟩
      exact ⟨a, ha, hax, mac, hmac, hm⟩
  refine (contested_iff hheard (.v6 x)).trans ?_
  constructor
  · rintro ⟨_, _, hm, hm', hne⟩
    obtain ⟨mac, hmac, rfl⟩ := (hanswer _).mp hm
    obtain ⟨mac', hmac', rfl⟩ := (hanswer _).mp hm'
    exact ⟨mac, mac', hmac, hmac', fun heq => hne (congrArg (fun mac : Mac => formatMac mac.octets) heq)⟩
  · rintro ⟨mac, mac', hmac, hmac', hne⟩
    refine ⟨_, _, (hanswer _).mpr ⟨mac, hmac, rfl⟩, (hanswer _).mpr ⟨mac', hmac', rfl⟩, fun heq => hne ?_⟩
    cases mac
    cases mac'
    congr
    exact formatMac_injective heq

/-- Two answers that differ are of two stations, unless one of them names none. -/
theorem differ_iff :
    (∃ a b, Advertised advertisements x a ∧ Advertised advertisements x b ∧ a ≠ b) ↔
      TwoAdvertised advertisements x ∨ HalfNamed advertisements x := by
  have hhalf : ∀ m, Advertised advertisements x none → Advertised advertisements x (some m) →
      TwoAdvertised advertisements x ∨ HalfNamed advertisements x := by
    intro m hnone hm
    by_cases honly : ∀ m', Advertised advertisements x (some m') → m' = m
    · exact .inr ⟨hnone, m, hm, honly⟩
    · push Not at honly
      obtain ⟨m', hm', hne⟩ := honly
      exact .inl ⟨m', m, hm', hm, hne⟩
  constructor
  · rintro ⟨a, b, ha, hb, hne⟩
    match a, b with
    | none, none => exact absurd rfl hne
    | none, some m => exact hhalf m ha hb
    | some m, none => exact hhalf m hb ha
    | some m, some m' => exact .inl ⟨m, m', ha, hb, fun heq => hne (congrArg some heq)⟩
  · rintro (⟨m, m', hm, hm', hne⟩ | ⟨hnone, m, hm, -⟩)
    · exact ⟨some m, some m', hm, hm', fun heq => hne (Option.some.inj heq)⟩
    · exact ⟨none, some m, hnone, hm, nofun⟩

theorem not_twoAdvertised_of_halfNamed (h : HalfNamed advertisements x) : ¬ TwoAdvertised advertisements x := by
  rintro ⟨m, m', hm, hm', hne⟩
  obtain ⟨-, only, -, honly⟩ := h
  exact hne ((honly m hm).trans (honly m' hm').symm)

end Ndp

/-! ## The report and the graph -/

/-- What the sweep reports about an address is what was answered for it, and what the graph has. -/
def ConflictAgrees (reported twoStations contested : Prop) : Prop := (reported ↔ twoStations) ∧ (reported ↔ contested)

/-- An ARP sweep that recorded these replies, and the graph of its evidence, about an address. -/
def RepliesAgree (lookupVendor : Text → Option Text) (vantage : Text) (now : Nat) (sweep : ArpSweep)
    (replies : List ArpReply) (x : Ipv4Addr) : Prop :=
  let recorded := replies.foldl recordReply []
  ConflictAgrees (ArpSweep.Reports { sweep with replies := recorded } x) (TwoReplied replies x)
    ((absorbAll (recorded.flatMap (replyEvidence lookupVendor vantage now))).Contests (answerSlot vantage (.v4 x)))

/-- An NDP sweep that recorded these advertisements, and the graph of its evidence, about an address. -/
def AdvertisementsAgree (lookupVendor : Text → Option Text) (vantage : Text) (now : Nat) (sweep : NdpSweep)
    (advertisements : List NdpAdvertisement) (x : Ipv6Addr) : Prop :=
  let recorded := advertisements.foldl recordAdvertisement []
  ConflictAgrees (NdpSweep.Reports { sweep with advertisements := recorded } x) (TwoAdvertised advertisements x)
    ((absorbAll (recorded.flatMap (advertisementEvidence lookupVendor vantage now))).Contests
      (answerSlot vantage (.v6 x)))

theorem advertisementsAgree_iff (lookupVendor : Text → Option Text) (vantage : Text) (now : Nat) (sweep : NdpSweep)
    (advertisements : List NdpAdvertisement) (x : Ipv6Addr) :
    AdvertisementsAgree lookupVendor vantage now sweep advertisements x ↔ ¬ HalfNamed advertisements x := by
  unfold AdvertisementsAgree ConflictAgrees
  dsimp only
  rw [reports_advertisements_iff, contests_advertisements_iff, differ_iff, and_self, or_iff_left_iff_imp]
  exact ⟨fun h hhalf => not_twoAdvertised_of_halfNamed advertisements x hhalf (h hhalf), fun h hhalf => absurd hhalf h⟩

/-- **When the report and the graph agree.** About an ARP sweep always. About an address of an NDP sweep unless it was
answered for without a hardware address, and with one hardware address only. -/
theorem contests_agree_iff (lookupVendor : Text → Option Text) (vantage : Text) (now : Nat) :
    (∀ sweep replies x, RepliesAgree lookupVendor vantage now sweep replies x) ∧
      ∀ sweep advertisements x, AdvertisementsAgree lookupVendor vantage now sweep advertisements x ↔
        ¬ HalfNamed advertisements x := by
  refine ⟨fun sweep replies x => ⟨reports_replies_iff replies x sweep, ?_⟩, ?_⟩
  · exact (reports_replies_iff replies x sweep).trans (contests_replies_iff replies x lookupVendor vantage now).symm
  · exact fun sweep advertisements x =>
      advertisementsAgree_iff lookupVendor vantage now sweep advertisements x

/-- `2001:db8::9`, answered for without a hardware address. -/
def namelessAdvertisement : NdpAdvertisement where
  address := 0x20010db8000000000000000000000009
  sender := 0x20010db8000000000000000000000009
  mac := none
  router := false
  raw := []

/-- The same station, with its hardware address. -/
def namedAdvertisement : NdpAdvertisement :=
  { namelessAdvertisement with mac := some ⟨[2, 0, 0, 0, 0, 9], rfl⟩ }

/-- A station that answers twice is reported as two, and holds its address in the graph. -/
theorem one_station_reported :
    ¬ AdvertisementsAgree (fun _ => none) "en0" 0 ⟨[], []⟩ [namelessAdvertisement, namedAdvertisement]
      0x20010db8000000000000000000000009 := by
  rw [advertisementsAgree_iff, not_not]
  refine ⟨⟨_, List.mem_cons_self, rfl, rfl⟩, ⟨[2, 0, 0, 0, 0, 9], rfl⟩,
    ⟨_, List.mem_cons_of_mem _ List.mem_cons_self, rfl, rfl⟩, ?_⟩
  rintro m ⟨a, ha, -, hmac⟩
  obtain rfl | ha := List.mem_cons.mp ha
  · cases hmac
  · rw [List.mem_singleton.mp ha] at hmac
    exact (Option.some.inj hmac).symm

end Idnx
