import Idnx.Probes.Layers

/-!
# Answers to ARP requests

`parseArpReply` checks a frame against the request it is to answer. It looks behind one 802.1Q tag and keeps the VLAN
the tag names as it stands there, whatever its number (`parseArpReply_tagged_iff`).
-/

namespace Idnx

open Outcome

/-- What was asked, kept so the reply can be checked against it. -/
structure ArpQuery where
  senderMac : Bytes
  senderIp : Ipv4Addr
  targetIp : Ipv4Addr
  hardware : senderMac.length = 6

/-- A reply that survived validation. -/
structure ArpReply where
  address : Ipv4Addr
  mac : Bytes
  vlan : Option UInt16
  raw : Bytes
  deriving DecidableEq, Repr

/-- The text of the hardware address. -/
def ArpReply.macText (reply : ArpReply) : Text := formatMac reply.mac

/-- Where the EtherType stands, the VLAN of a tag before it, and the EtherType. -/
def replyTag (frame : Bytes) : Outcome Unit (Nat × Option UInt16 × UInt16) := do
  let ethertype ← u16At frame 12
  if ethertype = 0x8100 then
    require (20 ≤ frame.length) ()
    let tci ← u16At frame 14
    let inner ← u16At frame 16
    return (16, some (tci &&& 0x0fff), inner)
  else return (12, none, ethertype)

/-- Checks every field of the ARP packet against what was asked. With it, the address claimed and its station. -/
def readArpReply (arp : Bytes) (query : ArpQuery) : Outcome Unit (Ipv4Addr × Bytes) := do
  require (28 ≤ arp.length) ()
  let hardware ← u16At arp 0
  require (hardware = 1) ()
  let protocol ← u16At arp 2
  require (protocol = 0x0800) ()
  let hardwareLen ← index arp 4
  let protocolLen ← index arp 5
  require (hardwareLen = 6 ∧ protocolLen = 4) ()
  let operation ← u16At arp 6
  require (operation = 2) ()
  let senderMac ← slice arp 8 14
  let senderIp ← ipv4At arp 14
  let targetMac ← slice arp 18 24
  let targetIp ← ipv4At arp 24
  require (senderIp = query.targetIp) ()
  require (targetIp = query.senderIp) ()
  require (targetMac = query.senderMac) ()
  let first ← index senderMac 0
  -- A group address cannot be a station's own hardware address.
  require (first &&& 0x01 = 0 ∧ senderMac ≠ List.replicate 6 0) ()
  return (senderIp, senderMac)

/-- Validates a frame as the answer to `query`. -/
def parseArpReply (frame : Bytes) (query : ArpQuery) : Outcome Unit ArpReply := do
  require (14 ≤ frame.length) ()
  let destination ← slice frame 0 6
  require (destination = query.senderMac) ()
  let (offset, vlan, ethertype) ← replyTag frame
  require (ethertype = 0x0806) ()
  let arp ← okOr (getRange frame (offset + 2) frame.length) ()
  let (address, mac) ← readArpReply arp query
  return { address, mac, vlan, raw := frame }

/-! ## Replies behind a tag -/

/-- The packet is an ARP reply over Ethernet that answers the query, from a station's own address. -/
structure AnswersQuery (arp : Bytes) (query : ArpQuery) : Prop where
  long : 28 ≤ arp.length
  header : arp.take 8 = [0x00, 0x01, 0x08, 0x00, 6, 4, 0x00, 0x02]
  sender : (arp.drop 14).take 4 = beBytes 4 query.targetIp.toNat
  targetMac : (arp.drop 18).take 6 = query.senderMac
  target : (arp.drop 24).take 4 = beBytes 4 query.senderIp.toNat
  station : arp.getD 8 0 &&& 0x01 = 0 ∧ (arp.drop 8).take 6 ≠ List.replicate 6 0

/-- The frame is sent to the one who asked, and answers behind one 802.1Q tag. -/
structure AnswersTagged (frame : Bytes) (query : ArpQuery) : Prop where
  destination : frame.take 6 = query.senderMac
  tag : (frame.drop 12).take 2 = [0x81, 0x00]
  ethertype : (frame.drop 16).take 2 = [0x08, 0x06]
  arp : AnswersQuery (frame.drop 18) query

/-- The frame is sent to the one who asked, and answers without a tag. -/
structure AnswersUntagged (frame : Bytes) (query : ArpQuery) : Prop where
  destination : frame.take 6 = query.senderMac
  ethertype : (frame.drop 12).take 2 = [0x08, 0x06]
  arp : AnswersQuery (frame.drop 14) query

section Reading

variable {bytes : Bytes} {k : Nat}

/-- Two bytes of a string, as a list and as a word. -/
theorem take_two_iff (h : k + 2 ≤ bytes.length) (hi lo : UInt8) :
    (bytes.drop k).take 2 = [hi, lo] ↔ word (bytes.getD k 0) (bytes.getD (k + 1) 0) = word hi lo := by
  rw [take_two h, word_inj]
  simp

/-- Four bytes of a string, as a list and as an address. -/
theorem take_four_iff (h : k + 4 ≤ bytes.length) (address : Ipv4Addr) :
    (bytes.drop k).take 4 = beBytes 4 address.toNat ↔ BitVec.ofNat 32 (beNat ((bytes.drop k).take 4)) = address := by
  have hlen : ((bytes.drop k).take 4).length = 4 := by
    rw [List.length_take, List.length_drop]
    omega
  constructor
  · intro heq
    rw [heq, ofNat_beBytes (by decide)]
  · rintro rfl
    rw [beBytes_ofNat (by decide) hlen]

end Reading

theorem readArpReply_eq_ok {arp : Bytes} {query : ArpQuery} {found : Ipv4Addr × Bytes} :
    readArpReply arp query = .ok found ↔
      AnswersQuery arp query ∧ found = (query.targetIp, (arp.drop 8).take 6) := by
  by_cases hlen : 28 ≤ arp.length
  case neg =>
    unfold readArpReply
    rw [require, if_neg hlen, err_bind]
    exact ⟨nofun, fun h => absurd h.1.long hlen⟩
  have hfirst : ((arp.drop 8).take 6).getD 0 0 = arp.getD 8 0 := by
    rw [List.drop_eq_getElem_cons (show 8 < arp.length by omega),
      List.getD_eq_getElem arp 0 (show 8 < arp.length by omega)]
    rfl
  have hsix : 0 < ((arp.drop 8).take 6).length := by
    rw [List.length_take, List.length_drop]
    omega
  have hheader : arp.take 8 = [0x00, 0x01, 0x08, 0x00, 6, 4, 0x00, 0x02] ↔
      word (arp.getD 0 0) (arp.getD 1 0) = 1 ∧ word (arp.getD 2 0) (arp.getD 3 0) = 0x0800 ∧
        (arp.getD 4 0 = 6 ∧ arp.getD 5 0 = 4) ∧ word (arp.getD 6 0) (arp.getD 7 0) = 2 := by
    have height : arp.take 8 = [arp.getD 0 0, arp.getD 1 0, arp.getD 2 0, arp.getD 3 0, arp.getD 4 0, arp.getD 5 0,
        arp.getD 6 0, arp.getD 7 0] := by
      match arp, hlen with
      | _ :: _ :: _ :: _ :: _ :: _ :: _ :: _ :: _, _ => rfl
    rw [height, show (1 : UInt16) = word 0x00 0x01 by decide, show (0x0800 : UInt16) = word 0x08 0x00 by decide,
      show (2 : UInt16) = word 0x00 0x02 by decide, word_inj, word_inj, word_inj]
    simp only [List.cons.injEq, and_true]
    tauto
  have hread : readArpReply arp query = (do
      require (word (arp.getD 0 0) (arp.getD 1 0) = 1) ()
      require (word (arp.getD 2 0) (arp.getD 3 0) = 0x0800) ()
      require (arp.getD 4 0 = 6 ∧ arp.getD 5 0 = 4) ()
      require (word (arp.getD 6 0) (arp.getD 7 0) = 2) ()
      require (BitVec.ofNat 32 (beNat ((arp.drop 14).take 4)) = query.targetIp) ()
      require (BitVec.ofNat 32 (beNat ((arp.drop 24).take 4)) = query.senderIp) ()
      require ((arp.drop 18).take 6 = query.senderMac) ()
      require (arp.getD 8 0 &&& 0x01 = 0 ∧ (arp.drop 8).take 6 ≠ List.replicate 6 0) ()
      return (BitVec.ofNat 32 (beNat ((arp.drop 14).take 4)), (arp.drop 8).take 6)) := by
    unfold readArpReply
    rw [require_of hlen, ok_bind, u16At_eq (by omega), ok_bind, u16At_eq (by omega), index_eq (by omega),
      index_eq (by omega), u16At_eq (by omega), slice_eq (n := 6) (by omega), ipv4At_eq (by omega),
      slice_eq (n := 6) (by omega), ipv4At_eq (by omega)]
    simp only [ok_bind, index_eq hsix, hfirst]
  rw [hread]
  simp only [bind_eq_ok, require_eq_ok, pure_eq, Outcome.ok.injEq]
  constructor
  · rintro ⟨-, h₀, -, h₁, -, h₂, -, h₃, -, h₄, -, h₅, -, h₆, -, h₇, rfl⟩
    refine ⟨⟨hlen, hheader.mpr ⟨h₀, h₁, h₂, h₃⟩, ?_, h₆, ?_, h₇⟩, by rw [h₄]⟩
    · exact (take_four_iff (by omega) _).mpr h₄
    · exact (take_four_iff (by omega) _).mpr h₅
  · rintro ⟨h, rfl⟩
    obtain ⟨h₀, h₁, h₂, h₃⟩ := hheader.mp h.header
    have hsender := (take_four_iff (by omega) _).mp h.sender
    have htarget := (take_four_iff (by omega) _).mp h.target
    exact ⟨(), h₀, (), h₁, (), h₂, (), h₃, (), hsender, (), htarget, (), h.targetMac, (), h.station, by rw [hsender]⟩

/-- What a frame is accepted as, untagged or behind one tag. -/
theorem parseArpReply_eq_ok {frame : Bytes} {query : ArpQuery} {reply : ArpReply} :
    parseArpReply frame query = .ok reply ↔
      AnswersUntagged frame query ∧
          reply = { address := query.targetIp, mac := (frame.drop 22).take 6, vlan := none, raw := frame } ∨
        AnswersTagged frame query ∧
          reply = { address := query.targetIp, mac := (frame.drop 26).take 6,
                    vlan := some (word (frame.getD 14 0) (frame.getD 15 0) &&& 0x0FFF), raw := frame } := by
  have hdropped : ∀ {arp : Bytes} {k : Nat}, okOr (getRange frame k frame.length) () = .ok arp → frame.drop k = arp := by
    intro arp k harp
    have hdrop := (drop_of_getRange (okOr_eq_ok.mp harp)).1
    rw [List.drop_length, List.append_nil] at hdrop
    exact hdrop
  have hrange : ∀ {k : Nat}, k ≤ frame.length → okOr (getRange frame k frame.length) () = .ok (frame.drop k) := by
    intro k hk
    unfold getRange
    rw [if_pos ⟨hk, Nat.le_refl _⟩, List.take_of_length_le (Nat.le_of_eq List.length_drop)]
    rfl
  unfold parseArpReply
  simp only [bind_eq_ok, require_eq_ok, pure_eq, Outcome.ok.injEq]
  constructor
  · rintro ⟨-, hlen, destination, hdestination, -, hsame, ⟨offset, vlan, ethertype⟩, htag, -, hethertype, arp, harp,
      ⟨address, mac⟩, hread, rfl⟩
    obtain ⟨outer, houter, htag⟩ := bind_eq_ok.mp htag
    rw [u16At_eq (by omega)] at houter
    cases houter
    rw [show (6 : Nat) = 0 + 6 from rfl, slice_eq (by omega)] at hdestination
    cases hdestination
    split at htag
    case isFalse =>
      cases htag
      obtain rfl := hdropped harp
      obtain ⟨hanswers, hfound⟩ := readArpReply_eq_ok.mp hread
      rw [List.drop_drop] at hfound
      cases hfound
      exact .inl ⟨⟨hsame, (take_two_iff (by omega) _ _).mpr hethertype, hanswers⟩, rfl⟩
    case isTrue h8100 =>
      obtain ⟨_, hfits, htag⟩ := bind_eq_ok.mp htag
      replace hfits := require_eq_ok.mp hfits
      rw [u16At_eq (by omega), ok_bind, u16At_eq (by omega), ok_bind] at htag
      cases htag
      obtain rfl := hdropped harp
      obtain ⟨hanswers, hfound⟩ := readArpReply_eq_ok.mp hread
      rw [List.drop_drop] at hfound
      cases hfound
      refine .inr ⟨⟨hsame, ?_, ?_, hanswers⟩, rfl⟩
      · exact (take_two_iff (by omega) _ _).mpr h8100
      · exact (take_two_iff (by omega) _ _).mpr hethertype
  · rintro (⟨h, rfl⟩ | ⟨h, rfl⟩)
    · have hlen := h.arp.long
      rw [List.length_drop] at hlen
      have harp : word (frame.getD 12 0) (frame.getD 13 0) = 0x0806 :=
        (take_two_iff (by omega) 0x08 0x06).mp h.ethertype
      have htag : replyTag frame = .ok (12, none, 0x0806) := by
        unfold replyTag
        rw [u16At_eq (by omega), ok_bind, harp, if_neg (by decide)]
        rfl
      have hread := readArpReply_eq_ok.mpr ⟨h.arp, rfl⟩
      rw [List.drop_drop] at hread
      exact ⟨(), by omega, _, slice_eq (k := 0) (n := 6) (by omega), (), h.destination, _, htag, (), rfl, _,
        hrange (by omega), _, hread, rfl⟩
    · have hlen := h.arp.long
      rw [List.length_drop] at hlen
      have h8100 : word (frame.getD 12 0) (frame.getD 13 0) = 0x8100 := (take_two_iff (by omega) 0x81 0x00).mp h.tag
      have harp : word (frame.getD 16 0) (frame.getD 17 0) = 0x0806 :=
        (take_two_iff (by omega) 0x08 0x06).mp h.ethertype
      have htag : replyTag frame = .ok (16, some (word (frame.getD 14 0) (frame.getD 15 0) &&& 0x0FFF), 0x0806) := by
        unfold replyTag
        rw [u16At_eq (by omega), ok_bind, if_pos h8100, require_of (by omega), ok_bind, u16At_eq (by omega), ok_bind,
          u16At_eq (by omega), ok_bind, harp]
        rfl
      have hread := readArpReply_eq_ok.mpr ⟨h.arp, rfl⟩
      rw [List.drop_drop] at hread
      exact ⟨(), by omega, _, slice_eq (k := 0) (n := 6) (by omega), (), h.destination, _, htag, (), rfl, _,
        hrange (by omega), _, hread, rfl⟩

/-- **The VLAN of a reply** is what its tag says, reserved or not. -/
theorem parseArpReply_tagged_iff (frame : Bytes) (query : ArpQuery) (id : UInt16) :
    (∃ reply, parseArpReply frame query = .ok reply ∧ reply.vlan = some id) ↔
      AnswersTagged frame query ∧ word (frame.getD 14 0) (frame.getD 15 0) &&& 0x0FFF = id := by
  simp only [parseArpReply_eq_ok]
  constructor
  · rintro ⟨reply, ⟨-, rfl⟩ | ⟨h, rfl⟩, hvlan⟩
    · cases hvlan
    · exact ⟨h, Option.some.inj hvlan⟩
  · rintro ⟨h, rfl⟩
    exact ⟨_, .inr ⟨h, rfl⟩, rfl⟩

end Idnx
