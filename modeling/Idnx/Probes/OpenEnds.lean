import Idnx.Lib.Determined
import Idnx.Probes.DhcpOptions
import Idnx.Probes.RipMessages

/-!
# Bodies that are read to the end of the frame

The decoders behind the transport headers are handed all bytes that follow. What follows a message counts unless the
message says itself where it ends: the End option of a DHCP reply does, and the length of an OSPF packet. RIP, RIPng
and MNDP messages have no end of their own.

* `dhcp_determined_iff`, `rip_determined_iff`, `ripng_determined_iff`, `mndp_not_determined`, `ospf_determined_iff`:
  which bodies are read the same whatever follows.
-/

namespace Idnx

open Outcome

variable {ε : Type}

/-! ## DHCP -/

/-- The option block reaches an End option. -/
def HasEnd (block : Bytes) : Prop :=
  ∃ (items : List DhcpItem) (rest : Bytes), block = items.flatMap DhcpItem.bytes ++ 255 :: rest

/-- An option block without an End option can be completed to whole items. -/
theorem exists_items_append {block : Bytes} (h : ¬ HasEnd block) :
    ∃ (more : Bytes) (items : List DhcpItem), block ++ more = items.flatMap DhcpItem.bytes := by
  obtain ⟨items, rest, rfl, hstop⟩ := exists_optionBlock block
  cases hstop with
  | none => exact ⟨[], items, by rw [List.append_nil, List.append_nil]⟩
  | marked rest => exact absurd ⟨items, rest, rfl⟩ h
  | noLength code named =>
    refine ⟨[0], items ++ [DhcpItem.option code [] named (by decide)], ?_⟩
    rw [List.flatMap_append, List.append_assoc]
    rfl
  | short code len rest named cut =>
    have hlt := len.toNat_lt
    have hlen : (rest ++ List.replicate (len.toNat - rest.length) 0).length = len.toNat := by
      rw [List.length_append, List.length_replicate]
      omega
    refine ⟨List.replicate (len.toNat - rest.length) 0,
      items ++ [DhcpItem.option code (rest ++ List.replicate (len.toNat - rest.length) 0) named (by omega)], ?_⟩
    rw [List.flatMap_append, List.append_assoc, List.flatMap_singleton, DhcpItem.bytes, hlen, UInt8.ofNat_toNat]
    rfl

/-- A reply is told by its first 240 bytes. -/
theorem isReply_append {body : Bytes} (h : 240 ≤ body.length) (more : Bytes) :
    IsReply (body ++ more) ↔ IsReply body := by
  have hget : ∀ k < 240, (body ++ more).getD k 0 = body.getD k 0 := fun k hk =>
    List.getD_append _ _ _ _ (by omega)
  have hcookie : ((body ++ more).drop 236).take 4 = (body.drop 236).take 4 := by
    rw [List.drop_append_of_le_length (by omega), List.take_append_of_le_length (by rw [List.length_drop]; omega)]
  constructor
  · rintro ⟨-, hop, hhardware, hmagic⟩
    rw [hget 0 (by omega)] at hop
    rw [hget 1 (by omega), hget 2 (by omega)] at hhardware
    rw [hcookie] at hmagic
    exact ⟨h, hop, hhardware, hmagic⟩
  · rintro ⟨-, hop, hhardware, hmagic⟩
    refine ⟨by rw [List.length_append]; omega, ?_, ?_, ?_⟩
    · rw [hget 0 (by omega)]
      exact hop
    · rw [hget 1 (by omega), hget 2 (by omega)]
      exact hhardware
    · rw [hcookie]
      exact hmagic

/-- The message may become a reply, and if it is one already its options do not end. -/
def DhcpOpen (body : Bytes) : Prop :=
  (∃ more, IsReply (body ++ more)) ∧ ¬ (IsReply body ∧ HasEnd (body.drop 240))

/-- An open message can be completed to a reply whose option block is whole items. -/
theorem exists_reply_append {body : Bytes} (h : DhcpOpen body) :
    ∃ (more : Bytes) (items : List DhcpItem), IsReply (body ++ more) ∧
      (body ++ more).drop 240 = items.flatMap DhcpItem.bytes := by
  obtain ⟨⟨more, hmore⟩, hopen⟩ := h
  by_cases hlen : 240 ≤ body.length
  · have hreply := (isReply_append hlen more).mp hmore
    obtain ⟨rest, items, hitems⟩ := exists_items_append fun hend => hopen ⟨hreply, hend⟩
    refine ⟨rest, items, (isReply_append hlen rest).mpr hreply, ?_⟩
    rw [List.drop_append_of_le_length hlen, hitems]
  · -- The header is completed, and no option follows it.
    have hlong := hmore.long
    rw [List.length_append] at hlong
    have hcut : (more.take (240 - body.length)).length = 240 - body.length := List.length_take_of_le (by omega)
    have hheader : (body ++ more.take (240 - body.length)).length = 240 := by
      rw [List.length_append, hcut]
      omega
    refine ⟨more.take (240 - body.length), [], ?_, List.drop_eq_nil_of_le (Nat.le_of_eq hheader)⟩
    rw [← isReply_append (Nat.le_of_eq hheader.symm) (more.drop (240 - body.length)), List.append_assoc,
      List.take_append_drop]
    exact hmore

/-- A router option with one router. -/
def routerOption (last : UInt8) : DhcpItem := .option 3 [10, 0, 0, last] (by decide) (by decide : 4 < 256)

/-- What is decoded from a DHCP message, as the facts of its frame. -/
def dhcpFacts (sourceMac : Text) (body : Bytes) : Outcome ε (List FrameFact) :=
  Option.toList <$> (decodeDhcp sourceMac body).toOption

theorem take_routerOption (o : DhcpOptions) (last : UInt8) :
    o.take (routerOption last) = { o with routers := o.routers ++ [addressOfBytes [10, 0, 0, last]] } := by
  have hchunks : asChunks 4 [10, 0, 0, last] = [[10, 0, 0, last]] := by simp [asChunks]
  simp [routerOption, DhcpOptions.take, DhcpOptions.add, hchunks]

/-- A router option behind whole items adds a router to the fact. -/
theorem dhcpFacts_routerOption (sourceMac : Text) {body : Bytes} (hreply : IsReply body) {items : List DhcpItem}
    (hitems : body.drop 240 = items.flatMap DhcpItem.bytes) :
    ∃ assigned mask routers routes kind relayed, ∀ last,
      (dhcpFacts sourceMac (body ++ (routerOption last).bytes) : Outcome ε _) =
        .ok [.dhcp sourceMac assigned mask (routers ++ [addressOfBytes [10, 0, 0, last]]) routes kind relayed] := by
  have hlen := hreply.long
  have haddress : ∀ k last, k + 4 ≤ 240 →
      ((body ++ (routerOption last).bytes).drop k).take 4 = (body.drop k).take 4 := by
    intro k last hk
    rw [List.drop_append_of_le_length (by omega), List.take_append_of_le_length (by rw [List.length_drop]; omega)]
  let o := items.foldl DhcpOptions.take {}
  let yiaddr := addressOfBytes ((body.drop 16).take 4)
  let giaddr := addressOfBytes ((body.drop 24).take 4)
  refine ⟨if yiaddr.isUnspecified then none else some yiaddr, o.subnetMask, o.routers, o.classlessRoutes, o.messageType,
    !giaddr.isUnspecified, fun last => ?_⟩
  have hblock : OptionBlock ((body ++ (routerOption last).bytes).drop 240) (items ++ [routerOption last]) := by
    refine ⟨[], ?_, .none⟩
    rw [List.drop_append_of_le_length hlen, hitems, List.append_nil, List.flatMap_append, List.flatMap_singleton]
  unfold dhcpFacts
  rw [decodeDhcp_eq sourceMac ((isReply_append hlen _).mpr hreply) hblock, map_ok, List.foldl_append, List.foldl_cons,
    List.foldl_nil, take_routerOption, replyFact, haddress 16 last (by omega), haddress 24 last (by omega)]
  dsimp only
  rw [if_neg fun hnothing => absurd hnothing.2.1 (List.append_ne_nil_of_right_ne_nil _ (List.cons_ne_nil _ _))]
  rfl

/-- **Which DHCP messages are read the same whatever follows**: those that cannot become a reply, and replies whose
options end. -/
theorem dhcp_determined_iff (sourceMac : Text) (body : Bytes) :
    Determined (dhcpFacts sourceMac : Bytes → Outcome ε _) body ↔ ¬ DhcpOpen body := by
  constructor
  · intro hdetermined hopen
    obtain ⟨more, items, hreply, hitems⟩ := exists_reply_append hopen
    obtain ⟨assigned, mask, routers, routes, kind, relayed, hfacts⟩ :=
      dhcpFacts_routerOption (ε := ε) sourceMac hreply hitems
    refine not_determined (a := (routerOption 1).bytes) (b := (routerOption 2).bytes) ?_ (hdetermined.append more)
    rw [hfacts, hfacts]
    intro hsame
    simp only [Outcome.ok.injEq, List.cons.injEq, FrameFact.dhcp.injEq, List.append_cancel_left_eq] at hsame
    exact absurd hsame.1.2.2.2.1.1 (by decide)
  · intro hclosed
    by_cases hever : ∃ more, IsReply (body ++ more)
    · -- A reply whose options end, with what follows in the rest of its block.
      obtain ⟨hreply, items, rest, hend⟩ : IsReply body ∧ HasEnd (body.drop 240) := by
        by_contra hnot
        exact hclosed ⟨hever, hnot⟩
      have hlen := hreply.long
      refine determined_of_forall
        (b := .ok (replyFact sourceMac body (items.foldl DhcpOptions.take {})).toList) fun more => ?_
      have hblock : OptionBlock ((body ++ more).drop 240) items := by
        refine ⟨255 :: rest ++ more, ?_, .marked _⟩
        rw [List.drop_append_of_le_length hlen, hend, List.append_assoc]
      have haddress : ∀ k, k + 4 ≤ 240 → ((body ++ more).drop k).take 4 = (body.drop k).take 4 := by
        intro k hk
        rw [List.drop_append_of_le_length (by omega), List.take_append_of_le_length (by rw [List.length_drop]; omega)]
      unfold dhcpFacts
      rw [decodeDhcp_eq sourceMac ((isReply_append hlen more).mpr hreply) hblock, map_ok, replyFact,
        haddress 16 (by omega), haddress 24 (by omega)]
      rfl
    · refine determined_of_forall (b := .ok []) fun more => ?_
      unfold dhcpFacts
      rw [decodeDhcp_of_not_reply sourceMac fun hreply => hever ⟨more, hreply⟩, map_ok]
      rfl

/-! ## RIP -/

section Rip

variable (sourceMac : Text) (sender : Ipv4Addr) {body : Bytes}

/-- A request of version 2. -/
def IsRipRequest (body : Bytes) : Prop := body.head? = some 1 ∧ 4 ≤ body.length ∧ body[1]? = some 2

/-- What is decoded from a message on the port of RIP, as the facts of its frame. -/
def ripFacts (body : Bytes) : Outcome ε (List FrameFact) := (fun fact => [fact]) <$> classifyRip sourceMac sender body

theorem ripFacts_of_request (h : IsRipRequest body) :
    (ripFacts sourceMac sender body : Outcome ε _) = .ok [.routingRequest sourceMac "RIPv2"] := by
  unfold IsRipRequest at h
  unfold ripFacts classifyRip
  rw [if_pos h]
  rfl

theorem ripFacts_of_neither (h : ¬ IsRipRequest body) (h' : ¬ IsRipUpdate body) :
    (ripFacts sourceMac sender body : Outcome ε _) = .ok [.routingUpdateRejected sourceMac "RIPv2"] := by
  have hupdate : ((decodeRipV2 sourceMac sender body).toOption : Outcome ε _) = .ok none := by
    have hsafe := safe_parseResponse body
    unfold decodeRipV2
    cases hparse : parseResponse body with
    | ok routes =>
      have hnone : routes = [] := by
        by_contra hsome
        exact h' ((ripUpdate_iff body).mp ⟨routes, hparse, hsome⟩)
      subst hnone
      rfl
    | err e => rfl
    | panic => exact absurd hparse hsafe.ne_panic
  unfold IsRipRequest at h
  unfold ripFacts classifyRip
  rw [if_neg h]
  split
  · rw [hupdate]
    rfl
  · rfl

theorem ripFacts_of_accepted (h : IsRipRequest body ∨ IsRipUpdate body) :
    (ripFacts sourceMac sender body : Outcome ε _) ≠ .ok [.routingUpdateRejected sourceMac "RIPv2"] := by
  by_cases hrequest : IsRipRequest body
  · rw [ripFacts_of_request sourceMac sender hrequest]
    nofun
  · have haccepted := h.resolve_left hrequest
    obtain ⟨routes, hroutes, hsome⟩ := (ripUpdate_iff body).mpr haccepted
    have hupdate : ∃ reachable withdrawn, decodeRipV2 sourceMac sender body =
        .ok (.routingUpdate sourceMac (.v4 sender) "RIPv2" reachable withdrawn) := by
      unfold decodeRipV2
      rw [hroutes, ok_bind, require_of hsome]
      exact ⟨_, _, rfl⟩
    obtain ⟨reachable, withdrawn, hdecode⟩ := hupdate
    unfold IsRipRequest at hrequest
    unfold ripFacts classifyRip
    rw [if_neg hrequest, if_pos haccepted.1.1.head?, hdecode]
    nofun

/-- The message is no request yet, and may become a request or a response. -/
def RipOpen (body : Bytes) : Prop :=
  ¬ IsRipRequest body ∧ ∃ more, IsRipRequest (body ++ more) ∨ IsRipUpdate (body ++ more)

/-- **Which RIP messages are read the same whatever follows**: requests, and what is never accepted. A response is
not, as a byte behind it makes it one with a part of an entry. -/
theorem rip_determined_iff (body : Bytes) :
    Determined (ripFacts sourceMac sender : Bytes → Outcome ε _) body ↔ ¬ RipOpen body := by
  by_cases hrequest : IsRipRequest body
  · have hrequests : ∀ more, IsRipRequest (body ++ more) := by
      intro more
      obtain ⟨hfirst, hlen, hsecond⟩ := hrequest
      refine ⟨?_, by rw [List.length_append]; omega, ?_⟩
      · rw [List.head?_append, hfirst]
        rfl
      · rw [List.getElem?_append_left (by omega), hsecond]
    exact iff_of_true (determined_of_forall fun more => ripFacts_of_request sourceMac sender (hrequests more))
      fun hopen => hopen.1 hrequest
  have hopen : RipOpen body ↔ ∃ more, IsRipRequest (body ++ more) ∨ IsRipUpdate (body ++ more) :=
    and_iff_right hrequest
  rw [hopen, not_exists]
  refine determined_iff_never
    (fun x hx => ripFacts_of_neither sourceMac sender (fun h => hx (.inl h)) fun h => hx (.inr h))
    (fun x hx => ripFacts_of_accepted sourceMac sender hx) fun more hmore => ?_
  obtain hmore | hmore := hmore
  · -- What becomes a request is no response.
    refine ⟨[], ?_⟩
    rw [List.append_nil]
    rintro (h | h)
    · exact hrequest h
    · have hhead := hmore.1
      rw [List.head?_append, h.1.1.head?] at hhead
      cases hhead
  · refine ⟨more ++ [0], ?_⟩
    rw [← List.append_assoc]
    rintro (h | h)
    · have hhead := h.1
      rw [List.head?_append, hmore.1.1.head?] at hhead
      cases hhead
    · exact not_isTable_append hmore.1 0 h.1

end Rip

/-! ## RIPng -/

section Ripng

variable (sourceMac : Text) (sender : Ipv6Addr) {body : Bytes}

/-- The fact of a response is not that it was rejected. -/
theorem decodeRipng_ne_rejected {fact : FrameFact} (h : decodeRipng sourceMac sender body = .ok fact) :
    fact ≠ .routingUpdateRejected sourceMac "RIPng" := by
  unfold decodeRipng at h
  iterate 8 obtain ⟨_, -, h⟩ := bind_eq_ok.mp h
  obtain ⟨⟨nextHop, routes, withdrawn⟩, -, hrest⟩ := bind_eq_ok.mp h
  obtain ⟨_, -, hfact⟩ := bind_eq_ok.mp hrest
  obtain rfl := Outcome.ok.inj hfact
  nofun

/-- What is decoded from a message on the port of RIPng, as the facts of its frame. -/
def ripngFacts (body : Bytes) : Outcome ε (List FrameFact) :=
  (fun fact => [fact.getD (.routingUpdateRejected sourceMac "RIPng")]) <$> (decodeRipng sourceMac sender body).toOption

/-- **Which RIPng messages are read the same whatever follows**: those that are never accepted. -/
theorem ripng_determined_iff (body : Bytes) :
    Determined (ripngFacts sourceMac sender : Bytes → Outcome ε _) body ↔
      ∀ more, ¬ IsRipngUpdate (body ++ more) := by
  refine determined_iff_never (b := .ok [.routingUpdateRejected sourceMac "RIPng"]) (fun x hx => ?_) (fun x hx => ?_)
    fun more hmore => ⟨more ++ [0], ?_⟩
  · have hsafe := safe_decodeRipng sourceMac sender x
    unfold ripngFacts
    cases hdecode : decodeRipng sourceMac sender x with
    | ok fact => exact absurd ((ripngUpdate_iff sourceMac sender x).mp ⟨fact, hdecode⟩) hx
    | err e => rfl
    | panic => exact absurd hdecode hsafe.ne_panic
  · obtain ⟨fact, hfact⟩ := (ripngUpdate_iff sourceMac sender x).mpr hx
    have hne := decodeRipng_ne_rejected sourceMac sender hfact
    unfold ripngFacts
    rw [hfact]
    intro hsame
    exact hne (List.singleton_inj.mp (Outcome.ok.inj hsame))
  · rw [← List.append_assoc]
    exact fun h => not_isTable_append hmore.1 0 h.1

end Ripng

/-! ## OSPF -/

section Ospf

variable {parse : Bytes → Outcome Unit Ospf.OspfPacket}

/-- The packet is whole: it reaches the length it states. -/
def OspfWhole (packet : Bytes) : Prop :=
  4 ≤ packet.length ∧ (word (packet.getD 2 0) (packet.getD 3 0)).toNat ≤ packet.length

/-- What is decoded from a packet, as the facts of its frame. -/
def ospfFacts (sourceMac : Text) (sender : IpAddr) (protocol : Text) (parse : Bytes → Outcome Unit Ospf.OspfPacket)
    (packet : Bytes) : Outcome ε (List FrameFact) :=
  (fun fact => [fact]) <$> ospfFact sourceMac sender protocol (parse packet)

/-- **Which OSPF packets are read the same whatever follows**: whole ones, and what is never accepted. -/
theorem ospf_determined_iff (sourceMac : Text) (sender : IpAddr) (protocol : Text)
    (hwhole : ∀ packet more, OspfWhole packet → parse (packet ++ more) = parse packet)
    (hcut : ∀ packet p, parse packet = .ok p → OspfWhole packet) (hsafe : ∀ packet, parse packet ≠ .panic)
    (packet : Bytes) :
    Determined (ospfFacts sourceMac sender protocol parse : Bytes → Outcome ε _) packet ↔
      ¬ (¬ OspfWhole packet ∧ ∃ more p, parse (packet ++ more) = .ok p) := by
  have hrejected : ∀ x, (∀ p, parse x ≠ .ok p) → (ospfFacts sourceMac sender protocol parse x : Outcome ε _) =
      .ok [.routingUpdateRejected sourceMac protocol] := by
    intro x hx
    unfold ospfFacts ospfFact
    cases hparse : parse x with
    | ok p => exact absurd hparse (hx p)
    | err e => rfl
    | panic => exact absurd hparse (hsafe x)
  constructor
  · rintro hdetermined ⟨hshort, more, p, hparse⟩
    have hself : (ospfFacts sourceMac sender protocol parse packet : Outcome ε _) = _ :=
      hrejected packet fun p hp => hshort (hcut packet p hp)
    have hmore := hdetermined more
    rw [hself] at hmore
    unfold ospfFacts ospfFact at hmore
    rw [hparse] at hmore
    cases hmore
  · intro hclosed
    by_cases hpacket : OspfWhole packet
    · intro more
      unfold ospfFacts
      rw [hwhole packet more hpacket]
    · refine determined_of_forall fun more => hrejected _ fun p hp => hclosed ⟨hpacket, more, p, hp⟩

/-- A packet that is whole is parsed the same whatever follows. -/
theorem parseV2_append {packet : Bytes} (h : OspfWhole packet) (more : Bytes) :
    Ospf.parseV2 (packet ++ more) = Ospf.parseV2 packet := by
  obtain ⟨hfour, hlength⟩ := h
  have hmore : (packet ++ more).length = packet.length + more.length := List.length_append
  have hstated : ∀ {ε : Type}, (u16At packet 2 : Outcome ε _) = .ok (word (packet.getD 2 0) (packet.getD 3 0)) :=
    u16At_eq (by omega)
  unfold Ospf.parseV2
  by_cases hlen : 24 ≤ packet.length
  · rw [require_of (show 24 ≤ (packet ++ more).length by omega), require_of hlen, ok_bind, ok_bind,
      index_append more (by omega), u16At_append more (by omega), hstated]
    have hsame : (24 ≤ (word (packet.getD 2 0) (packet.getD 3 0)).toNat ∧
        (word (packet.getD 2 0) (packet.getD 3 0)).toNat ≤ (packet ++ more).length) ↔
        (24 ≤ (word (packet.getD 2 0) (packet.getD 3 0)).toNat ∧
        (word (packet.getD 2 0) (packet.getD 3 0)).toNat ≤ packet.length) := by omega
    simp only [ok_bind, hsame, slice_append more hlength, ipv4At_append more (show 4 + 4 ≤ packet.length by omega),
      ipv4At_append more (show 8 + 4 ≤ packet.length by omega),
      u16At_append more (show 14 + 2 ≤ packet.length by omega), index_append more (show 1 < packet.length by omega)]
  · -- Too short, and with what follows it states too short a length.
    rw [require, require, if_neg hlen, err_bind]
    by_cases hlong : 24 ≤ (packet ++ more).length
    · rw [if_pos hlong, ok_bind, index_append more (by omega), index_eq (by omega), ok_bind]
      by_cases hversion : packet.getD 0 0 = 2
      · rw [require_of hversion, ok_bind, u16At_append more (by omega), hstated, ok_bind]
        dsimp only
        rw [require, if_neg (by omega), err_bind]
      · rw [require, if_neg hversion, err_bind]
    · rw [if_neg hlong, err_bind]

theorem ospfWhole_of_parseV2 {packet : Bytes} {p : Ospf.OspfPacket} (h : Ospf.parseV2 packet = .ok p) :
    OspfWhole packet := by
  unfold Ospf.parseV2 at h
  obtain ⟨_, hlen, h⟩ := bind_eq_ok.mp h
  obtain ⟨version, -, h⟩ := bind_eq_ok.mp h
  obtain ⟨_, -, h⟩ := bind_eq_ok.mp h
  obtain ⟨length, hlength, h⟩ := bind_eq_ok.mp h
  obtain ⟨_, hstated, -⟩ := bind_eq_ok.mp h
  have hlong := require_eq_ok.mp hlen
  rw [u16At_eq (by omega)] at hlength
  obtain rfl := Outcome.ok.inj hlength
  exact ⟨by omega, (require_eq_ok.mp hstated).2⟩

theorem parseV3_append {packet : Bytes} (h : OspfWhole packet) (more : Bytes) :
    Ospf.parseV3 (packet ++ more) = Ospf.parseV3 packet := by
  obtain ⟨hfour, hlength⟩ := h
  have hmore : (packet ++ more).length = packet.length + more.length := List.length_append
  have hstated : ∀ {ε : Type}, (u16At packet 2 : Outcome ε _) = .ok (word (packet.getD 2 0) (packet.getD 3 0)) :=
    u16At_eq (by omega)
  unfold Ospf.parseV3
  by_cases hlen : 16 ≤ packet.length
  · rw [require_of (show 16 ≤ (packet ++ more).length by omega), require_of hlen, ok_bind, ok_bind,
      index_append more (by omega), u16At_append more (by omega), hstated]
    have hsame : (16 ≤ (word (packet.getD 2 0) (packet.getD 3 0)).toNat ∧
        (word (packet.getD 2 0) (packet.getD 3 0)).toNat ≤ (packet ++ more).length) ↔
        (16 ≤ (word (packet.getD 2 0) (packet.getD 3 0)).toNat ∧
        (word (packet.getD 2 0) (packet.getD 3 0)).toNat ≤ packet.length) := by omega
    simp only [ok_bind, hsame, slice_append more hlength, ipv4At_append more (show 4 + 4 ≤ packet.length by omega),
      ipv4At_append more (show 8 + 4 ≤ packet.length by omega), index_append more (show 1 < packet.length by omega)]
  · rw [require, require, if_neg hlen, err_bind]
    by_cases hlong : 16 ≤ (packet ++ more).length
    · rw [if_pos hlong, ok_bind, index_append more (by omega), index_eq (by omega), ok_bind]
      by_cases hversion : packet.getD 0 0 = 3
      · rw [require_of hversion, ok_bind, u16At_append more (by omega), hstated, ok_bind]
        dsimp only
        rw [require, if_neg (by omega), err_bind]
      · rw [require, if_neg hversion, err_bind]
    · rw [if_neg hlong, err_bind]

theorem ospfWhole_of_parseV3 {packet : Bytes} {p : Ospf.OspfPacket} (h : Ospf.parseV3 packet = .ok p) :
    OspfWhole packet := by
  unfold Ospf.parseV3 at h
  obtain ⟨_, hlen, h⟩ := bind_eq_ok.mp h
  obtain ⟨version, -, h⟩ := bind_eq_ok.mp h
  obtain ⟨_, -, h⟩ := bind_eq_ok.mp h
  obtain ⟨length, hlength, h⟩ := bind_eq_ok.mp h
  obtain ⟨_, hstated, -⟩ := bind_eq_ok.mp h
  have hlong := require_eq_ok.mp hlen
  rw [u16At_eq (by omega)] at hlength
  obtain rfl := Outcome.ok.inj hlength
  exact ⟨by omega, (require_eq_ok.mp hstated).2⟩

end Ospf

/-! ## MNDP -/

section Mndp

/-- A record of an MNDP message: its type, its length, and as many bytes. -/
structure MndpRecord where
  hi : UInt8
  lo : UInt8
  lenHi : UInt8
  lenLo : UInt8
  value : Bytes
  sized : value.length = (word lenHi lenLo).toNat

def MndpRecord.bytes (r : MndpRecord) : Bytes := r.hi :: r.lo :: r.lenHi :: r.lenLo :: r.value

theorem MndpRecord.bytes_pos (r : MndpRecord) : 0 < r.bytes.length := Nat.succ_pos _

/-- Every byte string can be completed to whole records. -/
theorem exists_records_append (block : Bytes) :
    ∃ (more : Bytes) (records : List MndpRecord), block ++ more = records.flatMap MndpRecord.bytes := by
  obtain ⟨records, rest, rfl, hrest⟩ := exists_records MndpRecord.bytes_pos block
  -- What is left is nothing, or the beginning of a record that is cut short.
  suffices hlast : ∃ (more : Bytes) (last : List MndpRecord), rest ++ more = last.flatMap MndpRecord.bytes by
    obtain ⟨more, last, hlast⟩ := hlast
    exact ⟨more, records ++ last, by rw [List.append_assoc, hlast, List.flatMap_append]⟩
  have hsized : ∀ b, (List.replicate (word b 0).toNat (0 : UInt8)).length = (word b 0).toNat := fun b =>
    List.length_replicate
  match rest with
  | [] => exact ⟨[], [], rfl⟩
  | [a] => exact ⟨[0, 0, 0], [⟨a, 0, 0, 0, [], rfl⟩], rfl⟩
  | [a, b] => exact ⟨[0, 0], [⟨a, b, 0, 0, [], rfl⟩], rfl⟩
  | [a, b, c] =>
    refine ⟨0 :: List.replicate (word c 0).toNat 0, [⟨a, b, c, 0, List.replicate (word c 0).toNat 0, hsized c⟩], ?_⟩
    rw [List.flatMap_singleton]
    rfl
  | a :: b :: c :: d :: value =>
    by_cases hcut : value.length < (word c d).toNat
    · have hlen : (value ++ List.replicate ((word c d).toNat - value.length) 0).length = (word c d).toNat := by
        rw [List.length_append, List.length_replicate]
        omega
      refine ⟨List.replicate ((word c d).toNat - value.length) 0, [⟨a, b, c, d, _, hlen⟩], ?_⟩
      rw [List.flatMap_singleton]
      rfl
    · have hlen : (value.take (word c d).toNat).length = (word c d).toNat := List.length_take_of_le (by omega)
      refine absurd ?_ (hrest ⟨a, b, c, d, _, hlen⟩ (value.drop (word c d).toNat))
      rw [MndpRecord.bytes]
      simp only [List.cons_append, List.take_append_drop]

/-- What a record adds. -/
def MndpTlvs.heard (t : MndpTlvs) (r : MndpRecord) : MndpTlvs :=
  match (t.read (word r.hi r.lo) r.value : Outcome Unit _) with
  | .ok t => t
  | _ => t

theorem mndpRead_eq (t : MndpTlvs) (r : MndpRecord) :
    (t.read (word r.hi r.lo) r.value : Outcome ε _) = .ok (t.heard r) := by
  unfold MndpTlvs.heard MndpTlvs.read
  split
  case h_6 =>
    split
    case isTrue hfour =>
      rw [ipv4At_eq (by omega), ipv4At_eq (by omega)]
      rfl
    case isFalse => rfl
  all_goals rfl

theorem mndpTlv_of_holds {payload : Bytes} (k : Nat) (r : MndpRecord) (t : MndpTlvs) (h : Holds payload k r.bytes) :
    (mndpTlv payload (k, t) : Outcome ε _) = .ok (.next (k + r.bytes.length, t.heard r)) := by
  have hlen := h.length_le
  have hsize : r.bytes.length = r.value.length + 4 := rfl
  have hlo : Holds payload (k + 1) ([r.lo] ++ ([r.lenHi] ++ ([r.lenLo] ++ r.value))) := Holds.right (x := [r.hi]) h
  have htype : (u16At payload k : Outcome ε _) = .ok (word r.hi r.lo) :=
    u16At_of_getElem? (Holds.getElem? h) hlo.getElem?
  have hlength : (u16At payload (k + 2) : Outcome ε _) = .ok (word r.lenHi r.lenLo) :=
    u16At_of_getElem? hlo.right.getElem? hlo.right.right.getElem?
  have hvalue : (slice payload (k + 4) (k + 4 + r.value.length) : Outcome ε _) = .ok r.value :=
    hlo.right.right.right.slice
  rw [mndpTlv, if_pos (by omega), htype, ok_bind, hlength, ok_bind]
  dsimp only
  rw [← r.sized, if_neg (by omega), hvalue, ok_bind, mndpRead_eq, ok_bind, hsize,
    show k + (r.value.length + 4) = k + 4 + r.value.length by omega]
  rfl

/-- What a message of whole records says. -/
def mndpNeighbor (t : MndpTlvs) : Option MndpNeighbor :=
  match t.identity, t.macAddress with
  | some identity, some macAddress =>
    some { identity, macAddress, boardName := t.boardName, softwareVersion := t.softwareVersion,
           interfaceName := t.interfaceName, ipv4Address := t.ipv4Address }
  | _, _ => none

theorem parseMndpPacket_records {header : Bytes} (hheader : header.length = 4) {records : List MndpRecord}
    (hsome : 4 ≤ (records.flatMap MndpRecord.bytes).length) :
    ((parseMndpPacket (header ++ records.flatMap MndpRecord.bytes)).toOption : Outcome ε _) =
      .ok (mndpNeighbor (records.foldl MndpTlvs.heard {})) := by
  have hlen : (header ++ records.flatMap MndpRecord.bytes).length = 4 + (records.flatMap MndpRecord.bytes).length := by
    rw [List.length_append, hheader]
  have hrecords : (header ++ records.flatMap MndpRecord.bytes).drop 4 = records.flatMap MndpRecord.bytes ++ [] := by
    rw [← hheader, List.drop_left, List.append_nil]
  generalize header ++ records.flatMap MndpRecord.bytes = payload at hlen hrecords ⊢
  have hwalk : (loop (mndpTlv payload) (payload.length + 1) (4, {}) : Outcome Unit _) =
      .ok (records.foldl MndpTlvs.heard {}) := by
    obtain ⟨fuel, k, hloop, -, hdrop⟩ := loop_records_rest MndpRecord.bytes_pos mndpTlv_of_holds (by omega) hrecords {}
    have hend := List.drop_eq_nil_iff.mp hdrop
    rw [hloop, loop, mndpTlv, if_neg (by omega)]
    rfl
  unfold parseMndpPacket
  rw [require_of (by omega), ok_bind, hwalk, ok_bind]
  obtain ⟨identity, macAddress, _, _, _, _⟩ := records.foldl MndpTlvs.heard {}
  cases identity with
  | none => rfl
  | some identity =>
    cases macAddress with
    | none => rfl
    | some macAddress => rfl

/-- What is decoded from a message on the port of MNDP, as the facts of its frame. -/
def mndpFacts (body : Bytes) : Outcome ε (List FrameFact) :=
  (fun neighbor => neighbor.toList.map .mndp) <$> (parseMndpPacket body).toOption

def identityRecord (letter : UInt8) : MndpRecord := ⟨0, 5, 0, 1, [letter], (by decide : 1 = (word 0 1).toNat)⟩

def macRecord : MndpRecord := ⟨0, 1, 0, 6, [2, 0, 0, 0, 0, 1], by decide⟩

theorem heard_identityRecord (t : MndpTlvs) (letter : UInt8) :
    t.heard (identityRecord letter) = { t with identity := some (announcedText [letter]) } := by
  have htype : (word 0 5).toNat = 5 := by decide
  simp [MndpTlvs.heard, MndpTlvs.read, identityRecord, htype]

theorem heard_macRecord (t : MndpTlvs) :
    t.heard macRecord = { t with macAddress := some (formatMac [2, 0, 0, 0, 0, 1]) } := by
  have htype : (word 0 1).toNat = 1 := by decide
  simp [MndpTlvs.heard, MndpTlvs.read, macRecord, htype]

/-- **No MNDP message is read the same whatever follows**: records behind it give its sender another identity. -/
theorem mndp_not_determined (body : Bytes) : ¬ Determined (mndpFacts : Bytes → Outcome ε _) body := by
  have hwhole : ∃ (more header : Bytes) (records : List MndpRecord),
      body ++ more = header ++ records.flatMap MndpRecord.bytes ∧ header.length = 4 := by
    by_cases hlen : body.length < 4
    · refine ⟨List.replicate (4 - body.length) 0, body ++ List.replicate (4 - body.length) 0, [], ?_, ?_⟩
      · rw [List.flatMap_nil, List.append_nil]
      · rw [List.length_append, List.length_replicate]
        omega
    · obtain ⟨more, records, hrecords⟩ := exists_records_append (body.drop 4)
      refine ⟨more, body.take 4, records, ?_, List.length_take_of_le (by omega)⟩
      rw [← hrecords, ← List.append_assoc, List.take_append_drop]
  obtain ⟨more, header, records, hbody, hheader⟩ := hwhole
  have hfacts : ∀ letter, ∃ neighbor : MndpNeighbor, neighbor.identity = announcedText [letter] ∧
      (mndpFacts (body ++ more ++ ((identityRecord letter).bytes ++ macRecord.bytes)) : Outcome ε _) =
        .ok [.mndp neighbor] := by
    intro letter
    have hrecords : records.flatMap MndpRecord.bytes ++ ((identityRecord letter).bytes ++ macRecord.bytes) =
        (records ++ [identityRecord letter, macRecord]).flatMap MndpRecord.bytes := by
      rw [List.flatMap_append]
      simp
    have hlong : 4 ≤ ((records ++ [identityRecord letter, macRecord]).flatMap MndpRecord.bytes).length := by
      rw [← hrecords, List.length_append, List.length_append]
      have : (identityRecord letter).bytes.length = 5 := rfl
      omega
    unfold mndpFacts
    rw [hbody, List.append_assoc, hrecords, parseMndpPacket_records hheader hlong, List.foldl_append, List.foldl_cons,
      List.foldl_cons, List.foldl_nil, heard_identityRecord, heard_macRecord]
    exact ⟨_, rfl, rfl⟩
  obtain ⟨a, ha, hfactsA⟩ := hfacts 97
  obtain ⟨b, hb, hfactsB⟩ := hfacts 98
  have hdiffers : (mndpFacts (body ++ more ++ ((identityRecord 97).bytes ++ macRecord.bytes)) : Outcome ε _) ≠
      mndpFacts (body ++ more ++ ((identityRecord 98).bytes ++ macRecord.bytes)) := by
    rw [hfactsA, hfactsB]
    intro hsame
    obtain rfl := FrameFact.mndp.inj (List.singleton_inj.mp (Outcome.ok.inj hsame))
    rw [ha] at hb
    exact absurd hb (by decide)
  exact not_determined_of_append (not_determined hdiffers)

end Mndp

end Idnx
