import Idnx.Probes.Arp
import Idnx.Probes.FactKinds
import Idnx.Probes.Totality
import Idnx.Topology.Graph

/-!
# The VLANs that are reported

A VLAN id becomes a fact in three places: from a tag of a captured frame, from the originating-VLAN TLV of a PVST+
frame, and from the tag of an ARP reply. Only the first leaves out every number that is not a VLAN's.

* `reported_vlans_valid_iff`: which frames are reported with VLANs in `1..=4094` only.
-/

namespace Idnx

open Outcome

/-- What a validated reply is evidence of. -/
def replyEvidence (lookupVendor : Text → Option Text) (vantage : Text) (now : Nat) (reply : ArpReply) :
    List TopologyEvidence :=
  let device := DeviceKey.ofMac reply.macText
  let observed (fact : Fact) : TopologyEvidence :=
    { fact, source := .arpProbe, confidence := .observed, vantage, observedAt := now }
  [observed (.deviceAddress device (.v4 reply.address))] ++
    ((lookupVendor reply.macText).toList.map fun vendor => observed (.deviceVendor device vendor)) ++
    reply.vlan.toList.map fun id => observed (.vlan id)

/-- The VLAN of a tagged reply is the only one its evidence names. -/
theorem vlan_replyEvidence (lookupVendor : Text → Option Text) (vantage : Text) (now : Nat) (reply : ArpReply)
    (id : UInt16) :
    (∃ ev ∈ replyEvidence lookupVendor vantage now reply, ev.fact = .vlan id) ↔ reply.vlan = some id := by
  unfold replyEvidence
  cases reply.vlan with
  | none => simp
  | some v => simp

/-! ## The originating VLAN of a frame -/

/-- Behind its tags, the frame is a PVST+ frame with a BPDU and the TLV of a VLAN. -/
def NamesOriginatingVlan (frame : Bytes) (v : UInt16) : Prop :=
  ∃ length control payload, (untag (frame.drop 12)).2 = some (length, 0xAA :: 0xAA :: control :: payload) ∧
    length ≤ max8023Length ∧ frame.take 6 = pvstMulticastMac ∧ payload.take 5 = [0x00, 0x00, 0x0C, 0x01, 0x0B] ∧
      IsBpdu (payload.drop 5) ∧ HasOriginatingVlan (payload.drop 5) v

theorem isPvst_iff (control : UInt8) (payload : Bytes) :
    (8 ≤ (0xAA :: 0xAA :: control :: payload).length ∧
      ((0xAA :: 0xAA :: control :: payload).drop 3).take 3 = [0x00, 0x00, 0x0C] ∧
        readU16 (0xAA :: 0xAA :: control :: payload) 6 = some 0x010B ∧ IsBpdu (payload.drop 5)) ↔
      payload.take 5 = [0x00, 0x00, 0x0C, 0x01, 0x0B] ∧ IsBpdu (payload.drop 5) := by
  match payload with
  | [] => simp
  | [_] => simp
  | [_, _] => simp
  | [_, _, _] => simp
  | [_, _, _, _] => simp
  | a :: b :: c :: hi :: lo :: rest =>
    have hpid : readU16 (0xAA :: 0xAA :: control :: a :: b :: c :: hi :: lo :: rest) 6 = some (word hi lo) :=
      readU16_append [0xAA, 0xAA, control, a, b, c] (hi :: lo :: rest) 0
    have hword : word hi lo = 0x010B ↔ hi = 0x01 ∧ lo = 0x0B := (word_inj : word hi lo = word 0x01 0x0B ↔ _)
    rw [hpid]
    simp [hword]
    tauto

/-- A PVST+ frame is reported with the VLAN of its TLV, unless that is one of the two reserved numbers. -/
theorem vlan_decodePvst (sourceMac : Text) (control : UInt8) (payload : Bytes) :
    ∃ facts, (decodePvst sourceMac (0xAA :: 0xAA :: control :: payload) : Outcome Empty _) = .ok facts ∧
      ∀ v, FrameFact.vlan v ∈ facts ↔ payload.take 5 = [0x00, 0x00, 0x0C, 0x01, 0x0B] ∧ IsBpdu (payload.drop 5) ∧
        HasOriginatingVlan (payload.drop 5) v ∧ v ≠ 0 ∧ v ≠ 0x0FFF := by
  obtain ⟨vlan, hvlan, -⟩ := returns_pvstOriginatingVlan (ε := Empty) (payload.drop 5)
  refine ⟨_, decodePvst_eq sourceMac hvlan, fun v => ?_⟩
  have hfound : vlan = some v ↔ HasOriginatingVlan (payload.drop 5) v ∧ v ≠ 0 ∧ v ≠ 0x0FFF := by
    rw [← pvstOriginatingVlan_iff (ε := Empty), hvlan, Outcome.ok.injEq]
  have hnone : FrameFact.vlan v ≠ bpduFact sourceMac (payload.drop 5) vlan := nofun
  rw [← hfound]
  split
  case isTrue hpvst =>
    obtain ⟨hsnap, hbpdu⟩ := (isPvst_iff control payload).mp hpvst
    constructor
    · intro h
      obtain h | h := List.mem_cons.mp h
      · exact absurd h hnone
      · obtain ⟨w, hw, heq⟩ := List.mem_map.mp h
        cases heq
        exact ⟨hsnap, hbpdu, Option.mem_toList.mp hw⟩
    · rintro ⟨-, -, rfl⟩
      exact List.mem_cons_of_mem _ (List.mem_map_of_mem (Option.mem_toList.mpr rfl))
  case isFalse hother =>
    constructor
    · intro h
      cases h
    · rintro ⟨hsnap, hbpdu, -⟩
      exact absurd ((isPvst_iff control payload).mpr ⟨hsnap, hbpdu⟩) hother

/-- The join adds no VLAN. -/
theorem vlan_mem_joinBehind {inner : Option (UInt16 × Bytes)} {facts : List FrameFact} {v : UInt16} :
    FrameFact.vlan v ∈ joinBehind inner facts ↔ FrameFact.vlan v ∈ facts := by
  have hmem : ∀ l : List FrameFact, FrameFact.vlan v ∈ l ↔ FrameFact.vlan v ∈ withoutJoin l := by
    intro l
    unfold withoutJoin
    rw [List.mem_filter]
    exact ⟨fun h => ⟨h, rfl⟩, And.left⟩
  rw [hmem, withoutJoin_joinBehind, ← hmem]

theorem not_mem_of_allPlain {facts : List FrameFact} (h : AllPlain facts) (v : UInt16) : FrameFact.vlan v ∉ facts :=
  fun hmem => absurd (h _ hmem) nofun

/-- No decoder but that of PVST+ frames names a VLAN. -/
theorem vlan_decodeBehind (frame : Bytes) :
    Gives (fun more => ∀ v, FrameFact.vlan v ∈ more ↔ NamesOriginatingVlan frame v ∧ v ≠ 0 ∧ v ≠ 0x0FFF)
      (decodeBehind frame (frame.take 6) (senderMac frame) (untag (frame.drop 12)).2 : Outcome Empty _) := by
  -- What gives plain facts must not be a PVST+ frame.
  have hplain : ∀ {x : Outcome Empty (List FrameFact)}, Gives AllPlain x → (∀ v, ¬ NamesOriginatingVlan frame v) →
      Gives (fun more => ∀ v, FrameFact.vlan v ∈ more ↔ NamesOriginatingVlan frame v ∧ v ≠ 0 ∧ v ≠ 0x0FFF) x := by
    intro x hx hnone more hmore v
    exact ⟨fun hmem => absurd hmem (not_mem_of_allPlain (hx more hmore) v), fun h => absurd h.1 (hnone v)⟩
  cases hinner : (untag (frame.drop 12)).2 with
  | none =>
    refine hplain (gives_ok allPlain_nil) fun v ⟨length, control, payload, huntag, _⟩ => ?_
    rw [hinner] at huntag
    cases huntag
  | some inner =>
    obtain ⟨ethertype, payload⟩ := inner
    rw [decodeBehind]
    split
    case isFalse htyped =>
      have hnone : ∀ v, ¬ NamesOriginatingVlan frame v := by
        rintro v ⟨length, control, payload, huntag, hlength, -⟩
        rw [hinner] at huntag
        cases huntag
        exact htyped hlength
      by_cases hdhcp : ethertype = 0x0800 ∧ ∃ body, dhcpBody payload = some body
      · obtain ⟨rfl, body, hbody⟩ := hdhcp
        intro more hmore v
        have hnotVlan : FrameFact.vlan v ∉ more := by
          have hdecode : (decodeInner frame (senderMac frame) 0x0800 payload : Outcome Empty _) =
              decodeIpv4 (senderMac frame) payload := rfl
          rw [hdecode, decodeIpv4_of_dhcpBody hbody] at hmore
          have hkinds : Gives (fun facts => FrameFact.vlan v ∉ facts)
              (Option.toList <$> (decodeDhcp (senderMac frame) body).toOption : Outcome Empty _) :=
            (isDhcp_decodeDhcp body).toOption.map fun found hfound hmem => by
              cases hfound _ (Option.mem_toList.mp hmem)
          exact hkinds more hmore
        exact ⟨fun hmem => absurd hmem hnotVlan, fun h => absurd h.1 (hnone v)⟩
      · refine hplain (plain_decodeInner fun htype => ?_) hnone
        by_contra hsome
        exact hdhcp ⟨htype, Option.ne_none_iff_exists'.mp hsome⟩
    case isTrue hllc =>
      by_cases hpvst : frame.take 6 = pvstMulticastMac ∧ ∃ control rest, payload = 0xAA :: 0xAA :: control :: rest
      · obtain ⟨hdest, control, rest, rfl⟩ := hpvst
        obtain ⟨facts, hfacts, hvlans⟩ := vlan_decodePvst (senderMac frame) control rest
        rw [hdest, decodeLlc_cons, if_neg (by decide), if_neg (by decide), if_neg (by decide), if_pos (by decide),
          hfacts]
        refine gives_ok fun v => (hvlans v).trans ⟨?_, ?_⟩
        · rintro ⟨h₁, h₂, h₃, h₄⟩
          exact ⟨⟨ethertype, control, rest, hinner, hllc, hdest, h₁, h₂, h₃⟩, h₄⟩
        · rintro ⟨⟨length, control', rest', huntag, -, -, h₁, h₂, h₃⟩, h₄⟩
          rw [hinner] at huntag
          cases huntag
          exact ⟨h₁, h₂, h₃, h₄⟩
      · have hnone : ∀ v, ¬ NamesOriginatingVlan frame v := by
          rintro v ⟨length, control, payload, huntag, -, hdest, -⟩
          rw [hinner] at huntag
          cases huntag
          exact hpvst ⟨hdest, control, payload, rfl⟩
        refine hplain ?_ hnone
        rcases payload with _ | ⟨dsap, _ | ⟨ssap, _ | ⟨control, rest⟩⟩⟩
        · exact gives_ok allPlain_nil
        · exact gives_ok allPlain_nil
        · exact gives_ok allPlain_nil
        · refine plain_decodeLlc ?_
          rintro ⟨rfl, rfl, hdest⟩
          exact hpvst ⟨hdest, control, rest, rfl⟩

/-! ## Which frames are reported with VLANs only -/

/-- Every VLAN the frame is reported with is one: by the passive decoder, and as an answer to the query. -/
def VlansValid (frame : Bytes) (query : ArpQuery) (lookupVendor : Text → Option Text) (vantage : Text) (now : Nat) :
    Prop :=
  (∀ facts, (decodeFrame frame : Outcome Empty _) = .ok facts → ∀ id, FrameFact.vlan id ∈ facts → ValidVlan id) ∧
    ∀ reply, parseArpReply frame query = .ok reply →
      ∀ ev ∈ replyEvidence lookupVendor vantage now reply, ∀ id, ev.fact = .vlan id → ValidVlan id

/-- The frame names an originating VLAN that has more than twelve bits. -/
def OversizedOriginatingVlan (frame : Bytes) : Prop := ∃ v, NamesOriginatingVlan frame v ∧ 4096 ≤ v

/-- The frame answers the query behind a tag whose VLAN is a priority tag's or reserved. -/
def ReservedReplyTag (frame : Bytes) (query : ArpQuery) : Prop :=
  AnswersTagged frame query ∧ (word (frame.getD 14 0) (frame.getD 15 0) &&& 0x0FFF = 0 ∨
    word (frame.getD 14 0) (frame.getD 15 0) &&& 0x0FFF = 0x0FFF)

/-- The passive decoder reports the VLANs of the tags, and the originating VLAN. -/
theorem vlans_decodeFrame_valid_iff (frame : Bytes) :
    (∀ facts, (decodeFrame frame : Outcome Empty _) = .ok facts → ∀ id, FrameFact.vlan id ∈ facts → ValidVlan id) ↔
      ¬ OversizedOriginatingVlan frame := by
  by_cases hlen : 12 ≤ frame.length
  case neg =>
    refine ⟨fun _ ⟨v, ⟨length, control, payload, huntag, _⟩, _⟩ => ?_, fun _ facts hfacts id hmem => ?_⟩
    · rw [List.drop_eq_nil_of_le (by omega)] at huntag
      cases huntag
    · unfold decodeFrame at hfacts
      rw [if_pos (by omega)] at hfacts
      cases hfacts
      cases hmem
  have hvlans := vlan_decodeBehind frame
  have hmem : ∀ facts, (decodeFrame frame : Outcome Empty _) = .ok facts → ∀ id, FrameFact.vlan id ∈ facts ↔
      FrameFact.vlan id ∈ (untag (frame.drop 12)).1 ∨ NamesOriginatingVlan frame id ∧ id ≠ 0 ∧ id ≠ 0x0FFF := by
    intro facts hfacts id
    rw [decodeFrame_eq hlen] at hfacts
    cases hmore : decodeBehind (ε := Empty) frame (frame.take 6) (senderMac frame) (untag (frame.drop 12)).2 with
    | panic =>
      rw [hmore] at hfacts
      cases hfacts
    | err e => exact e.elim
    | ok more =>
      rw [hmore] at hfacts
      cases hfacts
      rw [vlan_mem_joinBehind, List.mem_append, hvlans more hmore id]
  constructor
  · rintro h ⟨v, hnames, hbig⟩
    have hreturns : ¬ ChecksumOverflows frame := by
      rintro ⟨payload, hadvert, -⟩
      obtain ⟨length, control, rest, huntag, hlength, -⟩ := hnames
      rw [hadvert] at huntag
      cases huntag
      exact absurd hlength (by decide)
    rw [← decodeFrame_panic_iff (ε := Empty)] at hreturns
    have hne : v ≠ 0 ∧ v ≠ 0x0FFF := by
      constructor
      · rintro rfl
        exact absurd hbig (by decide)
      · rintro rfl
        exact absurd hbig (by decide)
    cases hfacts : decodeFrame (ε := Empty) frame with
    | panic => exact hreturns hfacts
    | err e => exact e.elim
    | ok facts =>
      have hvalid := (validVlan_iff v).mp (h facts hfacts v ((hmem facts hfacts v).mpr (.inr ⟨hnames, hne⟩)))
      rw [UInt16.le_iff_toNat_le, show (4096 : UInt16).toNat = 4096 from rfl] at hbig
      omega
  · intro hsmall facts hfacts id hin
    obtain htag | ⟨hnames, hzero, htop⟩ := (hmem facts hfacts id).mp hin
    · exact valid_of_untag htag
    · have hlow : ¬ 4096 ≤ id := fun hbig => hsmall ⟨id, hnames, hbig⟩
      have h₀ : id.toNat ≠ 0 := fun h => hzero (UInt16.toNat_inj.mp h)
      have h₁ : id.toNat ≠ 4095 := fun h => htop (UInt16.toNat_inj.mp h)
      rw [UInt16.le_iff_toNat_le, show (4096 : UInt16).toNat = 4096 from rfl] at hlow
      rw [validVlan_iff]
      omega

/-- The provider reports the tag of a reply as it stands. -/
theorem vlans_replyEvidence_valid_iff (frame : Bytes) (query : ArpQuery) (lookupVendor : Text → Option Text)
    (vantage : Text) (now : Nat) :
    (∀ reply, parseArpReply frame query = .ok reply →
      ∀ ev ∈ replyEvidence lookupVendor vantage now reply, ∀ id, ev.fact = .vlan id → ValidVlan id) ↔
      ¬ ReservedReplyTag frame query := by
  have hnotValid : ∀ id, id = 0 ∨ id = 0x0FFF → ¬ ValidVlan id := by
    rintro id (rfl | rfl) hvalid
    · exact absurd hvalid.1 (by decide)
    · exact absurd hvalid.2 (by decide)
  constructor
  · rintro h ⟨htagged, hreserved⟩
    obtain ⟨reply, hreply, hvlan⟩ := (parseArpReply_tagged_iff frame query _).mpr ⟨htagged, rfl⟩
    obtain ⟨ev, hev, hfact⟩ := (vlan_replyEvidence lookupVendor vantage now reply _).mpr hvlan
    exact hnotValid _ hreserved (h reply hreply ev hev _ hfact)
  · intro hfree reply hreply ev hev id hfact
    have hvlan := (vlan_replyEvidence lookupVendor vantage now reply id).mp ⟨ev, hev, hfact⟩
    obtain ⟨htagged, rfl⟩ := (parseArpReply_tagged_iff frame query id).mp ⟨reply, hreply, hvlan⟩
    exact validVlan_of_mask (fun h => hfree ⟨htagged, .inl h⟩) fun h => hfree ⟨htagged, .inr h⟩

/-- **Which frames are reported with VLANs only.** All but PVST+ frames whose TLV holds more than twelve bits, and
replies behind a tag that names none. -/
theorem reported_vlans_valid_iff (frame : Bytes) (query : ArpQuery) (lookupVendor : Text → Option Text) (vantage : Text)
    (now : Nat) :
    VlansValid frame query lookupVendor vantage now ↔
      ¬ OversizedOriginatingVlan frame ∧ ¬ ReservedReplyTag frame query :=
  and_congr (vlans_decodeFrame_valid_iff frame) (vlans_replyEvidence_valid_iff frame query lookupVendor vantage now)

/-- Who has `10.0.0.9`, asked from `10.0.0.1`. -/
def sampleQuery : ArpQuery where
  senderMac := [2, 0, 0, 0, 0, 1]
  senderIp := 0x0A000001
  targetIp := 0x0A000009
  hardware := rfl

/-- The answer, behind a priority tag. -/
def prioritizedReply : Bytes :=
  [2, 0, 0, 0, 0, 1, 2, 0, 0, 0, 0, 9, 0x81, 0x00, 0xA0, 0x00, 0x08, 0x06] ++
    [0x00, 0x01, 0x08, 0x00, 6, 4, 0x00, 0x02, 2, 0, 0, 0, 0, 9, 10, 0, 0, 9, 2, 0, 0, 0, 0, 1, 10, 0, 0, 1]

/-- VLAN 0 is reported for a reply with a priority tag. -/
theorem priority_tag_reported : ¬ VlansValid prioritizedReply sampleQuery (fun _ => none) "en0" 0 := by
  rintro ⟨-, hreply⟩
  let reply : ArpReply :=
    { address := 0x0A000009, mac := [2, 0, 0, 0, 0, 9], vlan := some 0, raw := prioritizedReply }
  have hparse : parseArpReply prioritizedReply sampleQuery = .ok reply := by decide
  obtain ⟨ev, hev, hfact⟩ := (vlan_replyEvidence (fun _ => none) "en0" 0 reply 0).mpr rfl
  exact absurd (hreply reply hparse ev hev 0 hfact).1 (by decide)

end Idnx
