import Idnx.Federation.Ledger

/-!
# Records that cannot be read

Which records of a peer read as evidence, said of their texts (`WireEvidence.Readable`), and which of them bring the
receiver down. The time of a record is added to the epoch once everything else has been read, and it is the only step
of `toEvidence` without an error to report: a record that reads, with a time from 2 ^ 63 on, panics.
-/

namespace Idnx

/-! ## Reads -/

/-- The call returns a value. -/
def Reads {α : Type} (x : Except WireError α) : Prop := ∃ a, x = .ok a

section Reads

variable {α β : Type}

theorem reads_ok (a : α) : Reads (.ok a) := ⟨a, rfl⟩

theorem not_reads_error (e : WireError) : ¬ Reads (.error e : Except WireError α) := nofun

/-- Two calls in a row, the second of which reads or not whatever the first has found. -/
theorem reads_bind {x : Except WireError α} {f : α → Except WireError β} {p : Prop} (h : ∀ a, Reads (f a) ↔ p) :
    Reads (x >>= f) ↔ Reads x ∧ p := by
  cases x with
  | error e => exact ⟨nofun, fun ⟨⟨a, ha⟩, _⟩ => nomatch ha⟩
  | ok a => exact ⟨fun hf => ⟨reads_ok a, (h a).mp hf⟩, fun hp => (h a).mpr hp.2⟩

theorem reads_pure_bind {x : Except WireError α} {f : α → β} : Reads (x >>= fun a => pure (f a)) ↔ Reads x :=
  (reads_bind fun a => iff_of_true (reads_ok (f a)) trivial).trans (and_iff_left trivial)

theorem reads_optionally {f : α → Except WireError β} (value : Option α) :
    Reads (optionally f value) ↔ ∀ a, value = some a → Reads (f a) := by
  cases value with
  | none => exact ⟨fun _ => nofun, fun _ => reads_ok none⟩
  | some a =>
    show Reads (f a >>= fun b => pure (some b)) ↔ _
    rw [reads_pure_bind]
    exact ⟨fun h b hb => Option.some.inj hb ▸ h, fun h => h a rfl⟩

/-- A name is read if it is the name of something in the table. -/
theorem reads_fromWireName {lib : NetText} {what : Text} {all : List α} {name : α → Text} {text : Text}
    (hall : ∀ v, v ∈ all) : Reads (fromWireName lib what all name text) ↔ ∃ v, name v = text := by
  unfold fromWireName
  cases hfind : all.find? fun v => name v = text with
  | some v => exact iff_of_true (reads_ok v) ⟨v, by simpa using List.find?_some hfind⟩
  | none =>
    refine iff_of_false nofun ?_
    rintro ⟨v, hv⟩
    simpa [hv] using List.find?_eq_none.mp hfind v (hall v)

end Reads

/-! ## Readable records -/

section Readable

variable (lib : NetText)

/-- The text is an address. -/
def ReadsAddress (text : Text) : Prop := (lib.parseAddress text).isSome

/-- The text is a network in prefix notation. -/
def ReadsPrefix (text : Text) : Prop := (lib.parsePrefix text).isSome

/-- The signal has one of the names of the table, and a link-layer capability a label that is known. -/
def ReadsSignal (signal : Text) (label : Option Text) : Prop :=
  signal ∈ [("default_gateway" : Text), ("dhcp_router" : Text), ("router_advertisement" : Text),
      ("internet_gateway_device" : Text), ("snmp_forwarding" : Text), ("rip_route_advertisement" : Text),
      ("observed_forwarding" : Text), ("kernel_next_hop" : Text), ("spanning_tree_bridge" : Text),
      ("management_surface" : Text)] ∨
    signal = ("link_layer_capability" : Text) ∧ ∃ known ∈ knownLabels, label = some known

def WireDevice.Readable : WireDevice → Prop
  | .mac _ => True
  | .address text => ReadsAddress lib text
  | .scopedAddress text _ => ReadsAddress lib text

/-- The fields of a fact that are more than text. -/
def WireFact.Readable : WireFact → Prop
  | .network net => ReadsPrefix lib net
  | .vlan _ => True
  | .vlanNetwork _ net => ReadsPrefix lib net
  | .interfaceNetwork _ net => ReadsPrefix lib net
  | .deviceAddress device address => device.Readable lib ∧ ReadsAddress lib address
  | .deviceHostname device _ => device.Readable lib
  | .deviceVendor device _ => device.Readable lib
  | .deviceDescription device _ => device.Readable lib
  | .deviceRoleSignal device signal label => device.Readable lib ∧ ReadsSignal signal label
  | .deviceCapability device capability _ => device.Readable lib ∧ ∃ c, capabilityWire c = capability
  | .gatewayFor device net => device.Readable lib ∧ ReadsPrefix lib net
  | .routesTo device net nextHop =>
    device.Readable lib ∧ ReadsPrefix lib net ∧ ∀ hop, nextHop = some hop → ReadsAddress lib hop
  | .attachedTo device net => device.Readable lib ∧ ReadsPrefix lib net
  | .bridgeLink _ _ _ => True
  | .observedBehind device via => device.Readable lib ∧ via.Readable lib
  | .forwardsToward device toward _ previous =>
    device.Readable lib ∧ ReadsAddress lib toward ∧ ∀ before, previous = some before → before.Readable lib
  | .opaqueBoundary device _ => device.Readable lib
  | .service address _ protocol _ =>
    ReadsAddress lib address ∧ (protocol = ("tcp" : Text) ∨ protocol = ("udp" : Text))
  | .resolvedAs _ address => ReadsAddress lib address

/-- Everything in the record but its time is understood. -/
structure WireEvidence.Readable (wire : WireEvidence) : Prop where
  fact : wire.fact.Readable lib
  source : ∃ s, sourceWire s = wire.source
  confidence : ∃ c, confidenceWire c = wire.confidence

end Readable

section Reading

variable {lib : NetText}

theorem reads_parseAddress {text : Text} : Reads (parseAddress lib text) ↔ ReadsAddress lib text := by
  unfold parseAddress ReadsAddress
  cases lib.parseAddress text with
  | some addr => exact iff_of_true (reads_ok addr) rfl
  | none => exact iff_of_false nofun nofun

theorem reads_parsePrefix {text : Text} : Reads (parsePrefix lib text) ↔ ReadsPrefix lib text := by
  unfold parsePrefix ReadsPrefix
  cases lib.parsePrefix text with
  | some net => exact iff_of_true (reads_ok net) rfl
  | none => exact iff_of_false nofun nofun

theorem reads_protocol {text : Text} :
    Reads (protocolFromWire lib text) ↔ text = ("tcp" : Text) ∨ text = ("udp" : Text) := by
  unfold protocolFromWire fromWireName
  by_cases htcp : text = ("tcp" : Text)
  · rw [htcp]
    exact iff_of_true (reads_ok _) (.inl rfl)
  · by_cases hudp : text = ("udp" : Text)
    · rw [hudp]
      exact iff_of_true (reads_ok _) (.inr rfl)
    · have hfind : [("tcp" : Text), ("udp" : Text)].find? (fun v => id v = text) = none := by
        rw [List.find?_cons_of_neg (by simpa only [id, decide_eq_true_eq] using Ne.symm htcp),
          List.find?_cons_of_neg (by simpa only [id, decide_eq_true_eq] using Ne.symm hudp)]
        rfl
      rw [hfind]
      exact iff_of_false nofun (not_or.mpr ⟨htcp, hudp⟩)

/-- One name of a table after another. -/
theorem reads_ite {α : Type} {p : Prop} [Decidable p] {a : α} {rest : Except WireError α} :
    Reads (if p then .ok a else rest) ↔ p ∨ Reads rest := by
  by_cases hp : p
  · rw [if_pos hp]
    exact iff_of_true (reads_ok a) (.inl hp)
  · rw [if_neg hp]
    exact (or_iff_right hp).symm

theorem reads_signal {signal : Text} {label : Option Text} :
    Reads (roleSignalFromWire lib signal label) ↔ ReadsSignal signal label := by
  unfold roleSignalFromWire ReadsSignal
  rw [reads_ite, reads_ite, reads_ite, reads_ite, reads_ite, reads_ite, reads_ite, reads_ite, reads_ite, reads_ite]
  simp only [List.mem_cons, List.not_mem_nil, or_false, or_assoc]
  refine or_congr_right (or_congr_right (or_congr_right (or_congr_right (or_congr_right (or_congr_right
    (or_congr_right (or_congr_right (or_congr_right (or_congr_right ?_)))))))))
  by_cases hlabel : signal = ("link_layer_capability" : Text)
  · rw [if_pos hlabel, and_iff_right hlabel]
    cases label with
    | none => exact iff_of_false nofun (fun ⟨_, _, h⟩ => nomatch h)
    | some text =>
      rw [reads_ite, or_iff_left nofun]
      exact ⟨fun h => ⟨text, h, rfl⟩, fun ⟨_, hknown, h⟩ => Option.some.inj h ▸ hknown⟩
  · rw [if_neg hlabel]
    exact iff_of_false nofun fun h => hlabel h.1

theorem reads_device {device : WireDevice} : Reads (device.toKey lib) ↔ device.Readable lib := by
  cases device with
  | mac text => exact iff_of_true (reads_ok _) trivial
  | address text => exact reads_pure_bind.trans reads_parseAddress
  | scopedAddress text zone => exact reads_pure_bind.trans reads_parseAddress

theorem reads_capability {text : Text} : Reads (capabilityFromWire lib text) ↔ ∃ c, capabilityWire c = text :=
  reads_fromWireName fun c => by cases c <;> decide

theorem reads_source {text : Text} : Reads (sourceFromWire lib text) ↔ ∃ s, sourceWire s = text :=
  reads_fromWireName fun s => by cases s <;> decide

theorem reads_confidence {text : Text} : Reads (confidenceFromWire lib text) ↔ ∃ c, confidenceWire c = text :=
  reads_fromWireName fun c => by cases c <;> decide

/-- A device and one more field. -/
theorem reads_device_bind {α β : Type} {device : WireDevice} {x : Except WireError α} {f : DeviceKey → α → β} :
    Reads (device.toKey lib >>= fun d => x >>= fun a => pure (f d a)) ↔ device.Readable lib ∧ Reads x := by
  rw [reads_bind fun _ => reads_pure_bind, reads_device]

/-- A device and two more fields. -/
theorem reads_device_bind₂ {α β γ : Type} {device : WireDevice} {x : Except WireError α} {y : Except WireError β}
    {f : DeviceKey → α → β → γ} :
    Reads (device.toKey lib >>= fun d => x >>= fun a => y >>= fun b => pure (f d a b)) ↔
      device.Readable lib ∧ Reads x ∧ Reads y := by
  rw [reads_bind fun _ => reads_bind fun _ => reads_pure_bind, reads_device]

/-- A fact is read exactly when the fields that are more than text are. -/
theorem reads_fact {fact : WireFact} : Reads (fact.toFact lib) ↔ fact.Readable lib := by
  cases fact with
  | network net => exact reads_pure_bind.trans reads_parsePrefix
  | vlan id => exact iff_of_true (reads_ok _) trivial
  | vlanNetwork vlan net => exact reads_pure_bind.trans reads_parsePrefix
  | interfaceNetwork interface net => exact reads_pure_bind.trans reads_parsePrefix
  | deviceAddress device address => exact reads_device_bind.trans (and_congr_right fun _ => reads_parseAddress)
  | deviceHostname device hostname => exact reads_pure_bind.trans reads_device
  | deviceVendor device vendor => exact reads_pure_bind.trans reads_device
  | deviceDescription device text => exact reads_pure_bind.trans reads_device
  | deviceRoleSignal device signal label => exact reads_device_bind.trans (and_congr_right fun _ => reads_signal)
  | deviceCapability device capability detail =>
    exact reads_device_bind.trans (and_congr_right fun _ => reads_capability)
  | gatewayFor device net => exact reads_device_bind.trans (and_congr_right fun _ => reads_parsePrefix)
  | routesTo device net nextHop =>
    refine reads_device_bind₂.trans (and_congr_right fun _ => and_congr reads_parsePrefix ?_)
    rw [reads_optionally]
    exact forall₂_congr fun _ _ => reads_parseAddress
  | attachedTo device net => exact reads_device_bind.trans (and_congr_right fun _ => reads_parsePrefix)
  | bridgeLink bridgeId rootId port => exact iff_of_true (reads_ok _) trivial
  | observedBehind device via => exact reads_device_bind.trans (and_congr_right fun _ => reads_device)
  | forwardsToward device toward distance previous =>
    refine reads_device_bind₂.trans (and_congr_right fun _ => and_congr reads_parseAddress ?_)
    rw [reads_optionally]
    exact forall₂_congr fun _ _ => reads_device
  | opaqueBoundary device why => exact reads_pure_bind.trans reads_device
  | service address port protocol detail =>
    exact (reads_bind fun _ => reads_pure_bind).trans (and_congr reads_parseAddress reads_protocol)
  | resolvedAs name address => exact reads_pure_bind.trans reads_parseAddress

theorem reads_record {wire : WireEvidence} : Reads (wire.read lib) ↔ wire.Readable lib := by
  unfold WireEvidence.read
  rw [reads_bind fun _ => reads_bind fun _ => reads_pure_bind, reads_fact, reads_source, reads_confidence]
  exact ⟨fun h => ⟨h.1, h.2.1, h.2.2⟩, fun h => ⟨h.fact, h.source, h.confidence⟩⟩

/-! ## Panics -/

/-- The time fits a signed count of seconds, or something else in the record is refused before it is looked at. -/
def WireEvidence.Datable (lib : NetText) (wire : WireEvidence) : Prop :=
  wire.observedAt.toNat < 2 ^ 63 ∨ ¬ wire.Readable lib

theorem toEvidence_ne_panic_iff {wire : WireEvidence} : wire.toEvidence lib ≠ .panic ↔ wire.Datable lib := by
  rw [WireEvidence.toEvidence, WireEvidence.Datable, ← reads_record]
  cases wire.read lib with
  | error e => exact iff_of_true (by simp) (.inr (not_reads_error e))
  | ok ev =>
    rw [or_iff_left (not_not.mpr (reads_ok ev))]
    by_cases htime : wire.observedAt.toNat < 2 ^ 63
    · simp only [htime, if_true, ne_eq, reduceCtorEq, not_false_eq_true]
    · simp only [htime, if_false, ne_eq, not_true_eq_false]

/-- The loop over the records stops at the first one that panics. -/
theorem foldl_decodeStep_isSome {origin : PeerOrigin} {records : List WireEvidence}
    (sofar : List TopologyEvidence × List Text) :
    (records.foldl (PeerLedger.decodeStep lib origin) (some sofar)).isSome ↔
      ∀ record ∈ records, record.Datable lib := by
  induction records generalizing sofar with
  | nil => exact iff_of_true rfl (by simp)
  | cons wire records ih =>
    rw [List.foldl_cons, List.forall_mem_cons, ← toEvidence_ne_panic_iff]
    cases hwire : wire.toEvidence lib with
    | ok ev =>
      simp only [PeerLedger.decodeStep, hwire, ih]
      exact (and_iff_right (by simp)).symm
    | err e =>
      simp only [PeerLedger.decodeStep, hwire, ih]
      exact (and_iff_right (by simp)).symm
    | panic =>
      simp only [PeerLedger.decodeStep, hwire, foldl_decodeStep_none]
      exact iff_of_false (by simp) fun h => h.1 rfl

end Reading

/-- The bundle is its peer's own, the peer is paired and the sequence is new: its records are converted. -/
structure Admitted {libs : Libraries} (ledger : PeerLedger libs.crypto) (bundle : EvidenceBundle)
    (peer : PeerId libs.crypto) : Prop where
  signed : bundle.SignedBy peer
  paired : ledger.isPaired peer = true
  fresh : ∀ seen, AList.lookup peer.toHex ledger.highestSequence = some seen → seen < bundle.sequence

section Bundles

variable {libs : Libraries} {ledger : PeerLedger libs.crypto} {bundle : EvidenceBundle}

/-- The records of an admitted bundle are converted, and what they do to the receiver is all that is left. -/
theorem Admitted.prepare_ne_panic_iff {peer : PeerId libs.crypto} (h : Admitted ledger bundle peer) :
    (ledger.prepare bundle).1 ≠ .panic ↔ ∀ record ∈ bundle.records, record.Datable libs.text := by
  have hverify := EvidenceBundle.verify_eq_ok_iff.mpr h.signed
  have hstale : ledger.staleAgainst peer.toHex bundle.sequence = none := staleAgainst_eq_none_iff.mpr h.fresh
  have hdecode : (PeerLedger.decodeRecords libs.text (bundle.origin peer) bundle.records).isSome ↔ _ :=
    foldl_decodeStep_isSome ([], [])
  rw [← hdecode]
  cases hrecords : PeerLedger.decodeRecords libs.text (bundle.origin peer) bundle.records with
  | none =>
    unfold EvidenceBundle.origin at hrecords
    simp only [PeerLedger.prepare, hverify, h.paired, not_true_eq_false, if_false, hstale, hrecords]
    exact iff_of_false (fun hne => hne rfl) (by simp)
  | some decoded =>
    obtain ⟨evidence, undecodable⟩ := decoded
    unfold EvidenceBundle.origin at hrecords
    simp only [PeerLedger.prepare, hverify, h.paired, not_true_eq_false, if_false, hstale, hrecords]
    refine iff_of_true ?_ rfl
    split_ifs with hall hbusy
    · simp
    · simp
    · simp

/-- A bundle that is not admitted is refused before its records are looked at. -/
theorem prepare_ne_panic_of_not_admitted (h : ∀ peer, ¬ Admitted ledger bundle peer) :
    (ledger.prepare bundle).1 ≠ .panic := by
  cases hverify : bundle.verify libs with
  | error e =>
    simp [PeerLedger.prepare, hverify]
  | ok peer =>
    by_cases hpaired : ledger.isPaired peer = true
    · cases hstale : ledger.staleAgainst peer.toHex bundle.sequence with
      | some seen =>
        simp [PeerLedger.prepare, hverify, hpaired, hstale]
      | none =>
        have hadmitted : Admitted ledger bundle peer :=
          ⟨EvidenceBundle.verify_eq_ok_iff.mp hverify, hpaired, staleAgainst_eq_none_iff.mp hstale⟩
        exact absurd hadmitted (h peer)
    · simp [PeerLedger.prepare, hverify, hpaired]

end Bundles

/-- **When a record panics**: exactly when it is not datable. A bundle brings the receiver down exactly when it is
admitted and has such a record. -/
theorem decoding_panics_iff {libs : Libraries} (ledger : PeerLedger libs.crypto) (bundle : EvidenceBundle) :
    (∀ wire : WireEvidence,
      wire.toEvidence libs.text ≠ .panic ↔ wire.observedAt.toNat < 2 ^ 63 ∨ ¬ wire.Readable libs.text) ∧
    ((ledger.prepare bundle).1 ≠ .panic ↔
      ∀ peer, Admitted ledger bundle peer →
        ∀ record ∈ bundle.records, record.observedAt.toNat < 2 ^ 63 ∨ ¬ record.Readable libs.text) := by
  refine ⟨fun wire => toEvidence_ne_panic_iff, ?_, ?_⟩
  · exact fun hprepare peer hadmitted => hadmitted.prepare_ne_panic_iff.mp hprepare
  · intro hrecords
    by_cases hadmitted : ∃ peer, Admitted ledger bundle peer
    · obtain ⟨peer, hpeer⟩ := hadmitted
      exact hpeer.prepare_ne_panic_iff.mpr (hrecords peer hpeer)
    · exact prepare_ne_panic_of_not_admitted (not_exists.mp hadmitted)

/-- A tag seen 2 ^ 63 seconds after the epoch. -/
theorem late_tag_panics :
    ({ tagSeen with observedAt := 9223372036854775808 } : WireEvidence).toEvidence sampleLibs.text = .panic := by
  decide

end Idnx
