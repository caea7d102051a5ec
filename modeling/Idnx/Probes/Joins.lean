import Idnx.Net.Masks
import Idnx.Probes.DhcpOptions
import Idnx.Probes.FactKinds

/-!
# Joining a VLAN to a prefix

`joinTaggedPrefix` joins the VLAN of a frame to the network its DHCP acknowledgement assigns from. It counts the
VLANs among the facts, not the tags: a tag that names no VLAN leaves no fact, so a frame with a priority tag and one
VLAN counts as tagged once.

* `joined_on_full_evidence_iff`: which frames are joined on exactly one tag.
-/

namespace Idnx

open Outcome

/-! ## Tag headers -/

/-- The ids of the tag headers behind the addresses, as many as are whole. -/
def tagIds : Bytes → List UInt16
  | hi :: lo :: rest =>
    if isTagType (word hi lo) then
      match rest with
      | hi' :: lo' :: inner => (word hi' lo' &&& 0x0FFF) :: tagIds inner
      | _ => []
    else []
  | _ => []

instance (id : UInt16) : Decidable (ValidVlan id) := inferInstanceAs (Decidable (_ ∧ _))

/-- A tag names the VLAN of its id, if that is one. -/
theorem taggedVlan_eq (tci : UInt16) :
    (taggedVlan tci).toList = [tci &&& 0x0FFF].filter fun id => decide (ValidVlan id) := by
  unfold taggedVlan
  dsimp only
  split
  case isTrue hnamed =>
    have hvalid : ValidVlan (tci &&& 0x0FFF) := validVlan_of_mask hnamed.1 hnamed.2
    rw [List.filter_cons_of_pos (by simpa using hvalid)]
    rfl
  case isFalse hreserved =>
    have hinvalid : ¬ ValidVlan (tci &&& 0x0FFF) := by
      intro hvalid
      refine hreserved ⟨fun h => ?_, fun h => ?_⟩
      · rw [h] at hvalid
        exact absurd hvalid (by decide)
      · rw [h] at hvalid
        exact absurd hvalid (by decide)
    rw [List.filter_cons_of_neg (by simpa using hinvalid)]
    rfl

/-- The facts of the tags are the VLANs among their ids. -/
theorem untag_tagIds (bytes : Bytes) :
    (untag bytes).1 = ((tagIds bytes).filter fun id => decide (ValidVlan id)).map .vlan := by
  fun_induction untag bytes with
  | case1 hi lo htag hi' lo' inner ih =>
    rw [tagIds, if_pos htag, ih, taggedVlan_eq, ← List.map_append, ← List.filter_append]
    rfl
  | case2 hi lo rest htag hshort =>
    unfold tagIds
    rw [if_pos htag]
    split
    case h_1 => exact absurd rfl (hshort _ _ _)
    case h_2 => rfl
  | case3 hi lo rest htag =>
    unfold tagIds
    rw [if_neg htag]
    rfl
  | case4 bytes hshort =>
    unfold tagIds
    split
    case h_1 => exact absurd rfl (hshort _ _ _)
    case h_2 => rfl

/-! ## Evidence -/

/-- The reply acknowledges an assignment on this link: it is not relayed, and its address and its mask are of the
network. -/
def Acknowledges (body : Bytes) (items : List DhcpItem) (network : IpNet) : Prop :=
  addressOfBytes ((body.drop 24).take 4) = 0 ∧ lastValue 53 1 items = some [5] ∧
    ∃ (address : Ipv4Addr) (m : Fin 33), addressOfBytes ((body.drop 16).take 4) = address ∧ address ≠ 0 ∧
      (lastValue 1 4 items).map addressOfBytes = some (netmask m) ∧ network = (Ipv4Net.mk address m).trunc.toNet

/-- Behind its tags, the frame holds a server's reply that acknowledges an assignment from the network. -/
def FullEvidence (frame : Bytes) (network : IpNet) : Prop :=
  ∃ payload body items, (untag (frame.drop 12)).2 = some (0x0800, payload) ∧ dhcpBody payload = some body ∧
    IsReply body ∧ OptionBlock (body.drop 240) items ∧ Acknowledges body items network

theorem maskedNet_iff {address mask : Ipv4Addr} {network : IpNet} :
    maskedNet address mask = some network ↔
      ∃ m : Fin 33, mask = netmask m ∧ network = (Ipv4Net.mk address m).trunc.toNet := by
  constructor
  · intro h
    obtain ⟨m, hm, hnet⟩ := Option.bind_eq_some_iff.mp h
    obtain ⟨hle, rfl⟩ := contiguousPrefixLen_iff.mp hm
    have hlt : m < 33 := by omega
    refine ⟨⟨m, hlt⟩, rfl, ?_⟩
    have hnew : Ipv4Net.new address m = some ⟨address, ⟨m, hlt⟩⟩ := dif_pos hlt
    rw [hnew] at hnet
    exact (Option.some.inj hnet).symm
  · rintro ⟨m, rfl, rfl⟩
    have hlen : contiguousPrefixLen (netmask m) = some m.val := contiguousPrefixLen_iff.mpr ⟨by omega, rfl⟩
    have hnew : Ipv4Net.new address m.val = some ⟨address, m⟩ := dif_pos m.isLt
    refine Option.bind_eq_some_iff.mpr ⟨m.val, hlen, ?_⟩
    rw [hnew]
    rfl

/-- The values of an option have its length. -/
theorem length_of_lastValue {code : UInt8} {len : Nat} {items : List DhcpItem} {value : Bytes}
    (h : lastValue code len items = some value) : value.length = len := by
  obtain ⟨item, -, hitem⟩ := List.mem_filterMap.mp (List.mem_of_getLast? h)
  cases item with
  | pad => cases hitem
  | option c v _ _ =>
    rw [DhcpItem.valueOf] at hitem
    split at hitem
    case isTrue hv =>
      obtain rfl := Option.some.inj hitem
      exact hv.2
    case isFalse => cases hitem

theorem messageType_eq_some_iff {items : List DhcpItem} {kind : UInt8} :
    (items.foldl DhcpOptions.take {}).messageType = some kind ↔ lastValue 53 1 items = some [kind] := by
  rw [messageType_items]
  cases hlast : lastValue 53 1 items with
  | none => simp
  | some value =>
    obtain ⟨b, rfl⟩ := List.length_eq_one_iff.mp (length_of_lastValue hlast)
    simp

theorem assignedPrefix_dhcp {serverMac : Text} {assigned subnetMask : Option Ipv4Addr} {routers : List Ipv4Addr}
    {routes : List (Ipv4Addr × Nat × Ipv4Addr)} {messageType : Option UInt8} {relayed : Bool} {network : IpNet} :
    assignedPrefix (.dhcp serverMac assigned subnetMask routers routes messageType relayed) = some network ↔
      relayed = false ∧ messageType = some 5 ∧ ∃ address mask, assigned = some address ∧ subnetMask = some mask ∧
        maskedNet address mask = some network := by
  unfold assignedPrefix
  split
  case h_1 address mask _ _ kind heq =>
    injection heq with _ hassigned hmask _ _ hkind hrelayed
    subst hassigned hmask hkind hrelayed
    split
    case isTrue hack => simp [hack]
    case isFalse hother => simp [hother]
  case h_2 hother =>
    refine ⟨nofun, ?_⟩
    rintro ⟨rfl, rfl, address, mask, rfl, rfl, -⟩
    exact absurd rfl (hother _ _ _ _ _ _)

/-- The network of a reply's fact is the one it acknowledges. -/
theorem assignedPrefix_replyFact {serverMac : Text} {body : Bytes} {items : List DhcpItem} {network : IpNet} :
    (replyFact serverMac body (items.foldl DhcpOptions.take {})).bind assignedPrefix = some network ↔
      Acknowledges body items network := by
  have hmask := subnetMask_items items
  have hkind : _ ↔ lastValue 53 1 items = some [5] := messageType_eq_some_iff
  generalize items.foldl DhcpOptions.take {} = o at hmask hkind ⊢
  unfold replyFact Acknowledges
  rw [← hkind, ← hmask]
  dsimp only
  generalize addressOfBytes ((body.drop 16).take 4) = yiaddr
  generalize addressOfBytes ((body.drop 24).take 4) = giaddr
  have hzero : ∀ a : Ipv4Addr, a.isUnspecified = true ↔ a = 0 := fun a => by
    rw [Ipv4Addr.isUnspecified, beq_iff_eq]
    exact BitVec.toNat_inj (y := 0)
  have hyi : ∀ a, (if yiaddr.isUnspecified then none else some yiaddr) = some a ↔ yiaddr = a ∧ a ≠ 0 := by
    intro a
    rw [Option.ite_none_left_eq_some, hzero, Option.some_inj]
    exact ⟨fun h => ⟨h.2, h.2 ▸ h.1⟩, fun h => ⟨h.1 ▸ h.2, h.1⟩⟩
  by_cases hnothing : o.subnetMask = none ∧ o.routers = [] ∧ o.classlessRoutes = []
  · rw [if_pos hnothing, hnothing.1]
    simp
  · rw [if_neg hnothing, Option.bind_some, assignedPrefix_dhcp, Bool.not_eq_false', hzero]
    refine and_congr_right fun _ => and_congr_right fun _ => ?_
    constructor
    · rintro ⟨address, mask, hassigned, hmask, hnet⟩
      obtain ⟨m, rfl, heq⟩ := maskedNet_iff.mp hnet
      obtain ⟨hyiaddr, hne⟩ := (hyi address).mp hassigned
      exact ⟨address, m, hyiaddr, hne, hmask, heq⟩
    · rintro ⟨address, m, hyiaddr, hne, hmask, hnet⟩
      exact ⟨address, netmask m, (hyi address).mpr ⟨hyiaddr, hne⟩, hmask, maskedNet_iff.mpr ⟨m, rfl, hnet⟩⟩

/-! ## Joins -/

section Joins

variable {facts more : List FrameFact} {ids : List UInt16} {v : UInt16} {network : IpNet}

/-- The facts of the payload: neither a VLAN nor a join is among them. -/
def OfPayload (more : List FrameFact) : Prop := ∀ fact ∈ more, fact.plain = true ∨ fact.isDhcp = true

/-- Of the facts of the tags and of the payload, the join is one for each network of an acknowledgement, if there is
one VLAN. -/
theorem vlanNetwork_mem_joinTaggedPrefix (h : OfPayload more) :
    FrameFact.vlanNetwork v network ∈ joinTaggedPrefix (ids.map .vlan ++ more) ↔
      ids = [v] ∧ network ∈ more.filterMap assignedPrefix := by
  have hvlans : vlanIds (ids.map .vlan ++ more) = ids := by
    have hfront : vlanIds (ids.map .vlan) = ids := by
      unfold vlanIds
      rw [List.filterMap_map]
      exact List.filterMap_some
    have hback : vlanIds more = [] := by
      refine List.filterMap_eq_nil_iff.mpr fun fact hfact => ?_
      obtain hplain | hdhcp := h fact hfact
      · cases fact <;> first | rfl | cases hplain
      · cases fact <;> first | rfl | cases hdhcp
    have happend : vlanIds (ids.map .vlan ++ more) = vlanIds (ids.map .vlan) ++ vlanIds more :=
      List.filterMap_append
    rw [happend, hfront, hback, List.append_nil]
  have hprefixes : (ids.map FrameFact.vlan ++ more).filterMap assignedPrefix = more.filterMap assignedPrefix := by
    have hfront : (ids.map FrameFact.vlan).filterMap assignedPrefix = [] := by
      rw [List.filterMap_map]
      exact List.filterMap_eq_nil_iff.mpr fun _ _ => rfl
    rw [List.filterMap_append, hfront, List.nil_append]
  have hnone : FrameFact.vlanNetwork v network ∉ ids.map FrameFact.vlan ++ more := by
    intro hmem
    obtain hmem | hmem := List.mem_append.mp hmem
    · obtain ⟨id, -, heq⟩ := List.mem_map.mp hmem
      cases heq
    · obtain hplain | hdhcp := h _ hmem
      · cases hplain
      · cases hdhcp
  unfold joinTaggedPrefix
  rw [hvlans, hprefixes]
  split
  case h_1 vlan =>
    rw [List.mem_append, or_iff_right hnone, List.mem_map, List.singleton_inj]
    constructor
    · rintro ⟨net, hnet, heq⟩
      cases heq
      exact ⟨rfl, hnet⟩
    · rintro ⟨rfl, hnet⟩
      exact ⟨network, hnet, rfl⟩
  case h_2 hother =>
    refine ⟨fun hmem => absurd hmem hnone, ?_⟩
    rintro ⟨rfl, -⟩
    exact absurd rfl (hother v)

end Joins

/-- The fact is among those decoded from the frame. -/
def Emits (frame : Bytes) (fact : FrameFact) : Prop :=
  ∃ facts, (decodeFrame frame : Outcome Empty _) = .ok facts ∧ fact ∈ facts

/-- Behind an LLC header there is no join. -/
theorem vlanNetwork_not_mem_decodeLlc (frame destination : Bytes) (sourceMac : Text) (payload : Bytes) (v : UInt16)
    (network : IpNet) :
    Gives (fun more => FrameFact.vlanNetwork v network ∉ more)
      (decodeLlc frame destination sourceMac payload : Outcome Empty _) := by
  have hplain : ∀ {x : Outcome Empty (List FrameFact)}, Gives AllPlain x →
      Gives (fun more => FrameFact.vlanNetwork v network ∉ more) x :=
    fun hx more hmore hmem => absurd (hx more hmore _ hmem) nofun
  match payload with
  | [] => exact hplain (gives_ok allPlain_nil)
  | [_] => exact hplain (gives_ok allPlain_nil)
  | [_, _] => exact hplain (gives_ok allPlain_nil)
  | dsap :: ssap :: control :: rest =>
    by_cases hpvst : dsap = 0xAA ∧ ssap = 0xAA ∧ destination = pvstMulticastMac
    · obtain ⟨rfl, rfl, rfl⟩ := hpvst
      obtain ⟨vlan, hvlan, -⟩ := returns_pvstOriginatingVlan (ε := Empty) ((0xAA :: 0xAA :: control :: rest).drop 8)
      rw [decodeLlc_cons, if_neg (by decide), if_neg (by decide), if_neg (by decide), if_pos ⟨rfl, rfl, rfl⟩,
        decodePvst_eq sourceMac hvlan]
      refine gives_ok ?_
      split
      · simp [bpduFact]
      · simp
    · exact hplain (plain_decodeLlc hpvst)

/-- The facts of a payload behind an EtherType, and the networks that are acknowledged there. -/
theorem decodeInner_networks {frame : Bytes} {sourceMac : Text} {ethertype : UInt16} {payload : Bytes}
    {more : List FrameFact} (h : (decodeInner frame sourceMac ethertype payload : Outcome Empty _) = .ok more) :
    OfPayload more ∧ ∀ network, network ∈ more.filterMap assignedPrefix ↔
      ∃ body items, ethertype = 0x0800 ∧ dhcpBody payload = some body ∧ IsReply body ∧
        OptionBlock (body.drop 240) items ∧ Acknowledges body items network := by
  by_cases hdhcp : ethertype = 0x0800 ∧ ∃ body, dhcpBody payload = some body
  · obtain ⟨rfl, body, hbody⟩ := hdhcp
    have hdecode : (decodeInner frame sourceMac 0x0800 payload : Outcome Empty _) = decodeIpv4 sourceMac payload := rfl
    rw [hdecode, decodeIpv4_of_dhcpBody hbody] at h
    have hkinds : Gives OfPayload (Option.toList <$> (decodeDhcp sourceMac body).toOption : Outcome Empty _) :=
      (isDhcp_decodeDhcp body).toOption.map fun found hfound fact hfact =>
        .inr (hfound fact (Option.mem_toList.mp hfact))
    refine ⟨hkinds more h, fun network => ?_⟩
    by_cases hreply : IsReply body
    · -- Whatever the items, the facts are those of the items.
      have hmem : ∀ items, OptionBlock (body.drop 240) items →
          (network ∈ more.filterMap assignedPrefix ↔ Acknowledges body items network) := by
        intro items hitems
        rw [decodeDhcp_eq sourceMac hreply hitems] at h
        obtain rfl := Outcome.ok.inj h
        have hack : (replyFact sourceMac body (items.foldl DhcpOptions.take {})).bind assignedPrefix = some network ↔
            Acknowledges body items network := assignedPrefix_replyFact
        rw [← hack]
        cases replyFact sourceMac body (items.foldl DhcpOptions.take {}) <;> simp
      constructor
      · intro hnetwork
        obtain ⟨items, hitems⟩ := exists_optionBlock (body.drop 240)
        exact ⟨body, items, rfl, hbody, hreply, hitems, (hmem items hitems).mp hnetwork⟩
      · rintro ⟨body', items, -, hbody', -, hitems, hack⟩
        rw [hbody] at hbody'
        cases hbody'
        exact (hmem items hitems).mpr hack
    · rw [decodeDhcp_of_not_reply sourceMac hreply] at h
      obtain rfl := Outcome.ok.inj h
      refine ⟨nofun, ?_⟩
      rintro ⟨body', items, -, hbody', hreply', -⟩
      rw [hbody] at hbody'
      cases hbody'
      exact absurd hreply' hreply
  · have hplain : Gives AllPlain (decodeInner frame sourceMac ethertype payload : Outcome Empty _) := by
      refine plain_decodeInner fun htype => ?_
      by_contra hsome
      exact hdhcp ⟨htype, Option.ne_none_iff_exists'.mp hsome⟩
    have hall := hplain more h
    refine ⟨fun fact hfact => .inl (hall fact hfact), fun network => ?_⟩
    constructor
    · intro hmem
      obtain ⟨fact, hfact, hnet⟩ := List.mem_filterMap.mp hmem
      have := hall fact hfact
      cases fact <;> first | cases hnet | cases this
    · rintro ⟨body, items, htype, hbody, -⟩
      exact absurd ⟨htype, body, hbody⟩ hdhcp

/-- **When a join is made**: one VLAN among the ids, and full evidence. -/
theorem emits_vlanNetwork_iff {frame : Bytes} {v : UInt16} {network : IpNet} :
    Emits frame (.vlanNetwork v network) ↔
      ((tagIds (frame.drop 12)).filter fun id => decide (ValidVlan id)) = [v] ∧ FullEvidence frame network := by
  by_cases hlen : 12 ≤ frame.length
  case neg =>
    have hdrop : frame.drop 12 = [] := List.drop_eq_nil_of_le (by omega)
    constructor
    · rintro ⟨facts, hfacts, hmem⟩
      rw [decodeFrame, if_pos (by omega)] at hfacts
      obtain rfl := Outcome.ok.inj hfacts
      cases hmem
    · rintro ⟨-, payload, body, items, huntag, -⟩
      rw [hdrop] at huntag
      cases huntag
  unfold Emits FullEvidence
  rw [decodeFrame_eq hlen, untag_tagIds]
  generalize (tagIds (frame.drop 12)).filter (fun id => decide (ValidVlan id)) = ids
  have hvlans : FrameFact.vlanNetwork v network ∉ ids.map FrameFact.vlan := by simp
  cases hinner : (untag (frame.drop 12)).2 with
  | none =>
    refine ⟨?_, nofun⟩
    rintro ⟨facts, hfacts, hmem⟩
    obtain rfl := Outcome.ok.inj hfacts
    obtain hmem | hmem := List.mem_append.mp hmem
    · exact absurd hmem hvlans
    · cases hmem
  | some inner =>
    obtain ⟨ethertype, payload⟩ := inner
    simp only [decodeBehind, joinBehind]
    by_cases hllc : ethertype ≤ max8023Length
    · rw [if_pos hllc]
      constructor
      · rintro ⟨facts, hfacts, hmem⟩
        obtain ⟨more, hmore, rfl⟩ := map_eq_ok hfacts
        rw [if_pos hllc] at hmem
        obtain hmem | hmem := List.mem_append.mp hmem
        · exact absurd hmem hvlans
        · exact absurd hmem (vlanNetwork_not_mem_decodeLlc _ _ _ _ _ _ more hmore)
      · rintro ⟨-, payload, body, items, hsome, -⟩
        cases hsome
        exact absurd hllc (by decide)
    · rw [if_neg hllc]
      simp only [if_neg hllc]
      constructor
      · rintro ⟨facts, hfacts, hmem⟩
        obtain ⟨more, hmore, rfl⟩ := map_eq_ok hfacts
        obtain ⟨hkinds, hnetworks⟩ := decodeInner_networks hmore
        obtain ⟨hids, hnetwork⟩ := (vlanNetwork_mem_joinTaggedPrefix hkinds).mp hmem
        obtain ⟨body, items, rfl, hrest⟩ := (hnetworks network).mp hnetwork
        exact ⟨hids, payload, body, items, rfl, hrest⟩
      · rintro ⟨hids, payload', body, items, hsome, hbody, hreply, hitems, hack⟩
        cases hsome
        have hmore : (decodeInner frame (senderMac frame) 0x0800 payload : Outcome Empty _) =
            .ok (replyFact (senderMac frame) body (items.foldl DhcpOptions.take {})).toList := by
          have hdecode : (decodeInner frame (senderMac frame) 0x0800 payload : Outcome Empty _) =
              decodeIpv4 (senderMac frame) payload := rfl
          rw [hdecode, decodeIpv4_of_dhcpBody hbody, decodeDhcp_eq _ hreply hitems, map_ok]
        obtain ⟨hkinds, hnetworks⟩ := decodeInner_networks hmore
        rw [hmore]
        exact ⟨_, rfl, (vlanNetwork_mem_joinTaggedPrefix hkinds).mpr
          ⟨hids, (hnetworks network).mpr ⟨body, items, rfl, hbody, hreply, hitems, hack⟩⟩⟩

/-- The frame is joined on full evidence: a VLAN to a network exactly if its one tag header is of the VLAN and its
payload acknowledges an assignment from the network. -/
def JoinedOnFullEvidence (frame : Bytes) : Prop :=
  ∀ v network, Emits frame (.vlanNetwork v network) ↔
    tagIds (frame.drop 12) = [v] ∧ ValidVlan v ∧ FullEvidence frame network

/-- The frame has more than one tag header, of which one names a VLAN and the others none. -/
def OneVlanAmongTags (frame : Bytes) : Prop :=
  2 ≤ (tagIds (frame.drop 12)).length ∧ ((tagIds (frame.drop 12)).filter fun id => decide (ValidVlan id)).length = 1

/-- **Which frames are joined on full evidence.** All but acknowledgements behind several tags of which only one names
a VLAN. -/
theorem joined_on_full_evidence_iff (frame : Bytes) :
    JoinedOnFullEvidence frame ↔ ¬ (OneVlanAmongTags frame ∧ ∃ network, FullEvidence frame network) := by
  unfold JoinedOnFullEvidence OneVlanAmongTags
  simp only [emits_vlanNetwork_iff]
  generalize tagIds (frame.drop 12) = ids
  constructor
  · rintro hjoined ⟨⟨htags, hone⟩, network, hevidence⟩
    obtain ⟨v, hv⟩ := List.length_eq_one_iff.mp hone
    obtain ⟨rfl, -⟩ := (hjoined v network).mp ⟨hv, hevidence⟩
    exact absurd htags (by simp)
  · intro hfree v network
    constructor
    · rintro ⟨hfilter, hevidence⟩
      have hmem : v ∈ ids.filter fun id => decide (ValidVlan id) := by
        rw [hfilter]
        exact List.mem_singleton_self v
      obtain ⟨hid, hvalid⟩ := List.mem_filter.mp hmem
      match ids, hid with
      | [id], hid =>
        obtain rfl := List.mem_singleton.mp hid
        exact ⟨rfl, of_decide_eq_true hvalid, hevidence⟩
      | _ :: _ :: _, _ => exact absurd ⟨⟨by simp, by rw [hfilter]; rfl⟩, network, hevidence⟩ hfree
    · rintro ⟨rfl, hvalid, hevidence⟩
      exact ⟨List.filter_cons_of_pos (by simpa using hvalid), hevidence⟩

/-- The reply of `10.0.0.1` that assigns `10.0.0.9` of `10.0.0.0/24`. -/
def sampleAck : Bytes :=
  [2, 1, 6, 0] ++ List.replicate 12 0 ++ [10, 0, 0, 9] ++ List.replicate 216 0 ++ [0x63, 0x82, 0x53, 0x63] ++
    [53, 1, 5, 1, 4, 255, 255, 255, 0, 255]

/-- A message of a server in a packet from port 67 to port 68. -/
def serverPacket (body : Bytes) : Bytes :=
  [0x45, 0, 1, 22, 0, 0, 0, 0, 64, 17, 0, 0, 10, 0, 0, 1, 255, 255, 255, 255, 0, 67, 0, 68, 1, 2, 0, 0] ++ body

theorem dhcpBody_serverPacket (body : Bytes) : dhcpBody (serverPacket body) = some body := by
  have hlen : (serverPacket body).length = 28 + body.length := List.length_append
  have hfour : headerLen (serverPacket body) = 20 := by
    show ((0x45 : UInt8) &&& 0x0F).toNat * 4 = 20
    decide
  have hheader : HasHeader (serverPacket body) := by
    unfold HasHeader
    omega
  have hudp : 8 ≤ ((serverPacket body).drop 20).length := by
    rw [List.length_drop]
    omega
  have hports : word 0 67 = 67 ∧ word 0 68 = 68 := by decide
  unfold dhcpBody
  rw [hfour, if_pos ⟨hheader, rfl, hudp, .inl hports⟩]
  rfl

/-- A packet behind a priority tag and the tag of VLAN 10. -/
def priorityTagged (packet : Bytes) : Bytes :=
  [255, 255, 255, 255, 255, 255, 2, 0, 0, 0, 0, 1, 0x81, 0, 0, 0, 0x81, 0, 0, 10, 8, 0] ++ packet

theorem sampleAck_evidence : FullEvidence (priorityTagged (serverPacket sampleAck)) (.v4 (.new 10 0 0 0) 24) := by
  have hlen : 240 ≤ sampleAck.length := by
    simp only [sampleAck, List.length_append, List.length_replicate]
    decide
  have hreply : IsReply sampleAck := ⟨hlen, rfl, ⟨rfl, rfl⟩, rfl⟩
  have hitems : OptionBlock (sampleAck.drop 240) [.option 53 [5] (by decide) (by decide),
      .option 1 [255, 255, 255, 0] (by decide) (by decide)] := ⟨[255], rfl, .marked []⟩
  exact ⟨_, _, _, rfl, dhcpBody_serverPacket _, hreply, hitems, rfl, rfl, .new 10 0 0 9, 24, rfl, by decide, rfl, rfl⟩

/-- A frame with two tag headers is joined. -/
theorem priority_tagged_ack_joined : ¬ JoinedOnFullEvidence (priorityTagged (serverPacket sampleAck)) := by
  intro hjoined
  have htags : tagIds ((priorityTagged (serverPacket sampleAck)).drop 12) = [0, 10] := rfl
  have hemits : Emits (priorityTagged (serverPacket sampleAck)) (.vlanNetwork 10 (.v4 (.new 10 0 0 0) 24)) :=
    emits_vlanNetwork_iff.mpr ⟨by rw [htags]; decide, sampleAck_evidence⟩
  have hone := ((hjoined _ _).mp hemits).1
  rw [htags] at hone
  exact absurd hone (by decide)

end Idnx
