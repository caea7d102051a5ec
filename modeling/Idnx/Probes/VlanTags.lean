import Idnx.Probes.Passive

/-!
# VLAN tags and the passive decoder

A frame behind its addresses is a stack of tags, an EtherType and a payload (`untag`), and `decodeFrame` is the facts
of the tags followed by what `decodeBehind` makes of the rest (`decodeFrame_eq`). Of the frame itself `decodeBehind`
sees nothing but what `parseLldpFrame` reads in it, and that only for LLDP frames and for LLC/SNAP frames to the CDP
address (`HandedWhole`): there the tags are read as records.
-/

namespace Idnx

open Outcome

variable {ε : Type}

/-! ## Frames behind their addresses -/

/-- What a frame is behind its addresses: the VLANs its tags name, and the EtherType with the payload, unless the
frame ends in its tags. -/
def untag : Bytes → List FrameFact × Option (UInt16 × Bytes)
  | hi :: lo :: rest =>
    if isTagType (word hi lo) then
      match rest with
      | hi' :: lo' :: inner => ((taggedVlan (word hi' lo')).toList.map .vlan ++ (untag inner).1, (untag inner).2)
      | _ => ([], none)
    else ([], some (word hi lo, rest))
  | _ => ([], none)

theorem readU16_append (front rest : Bytes) (k : Nat) :
    readU16 (front ++ rest) (front.length + k) = readU16 rest k := by
  have hdrop : (front ++ rest).drop (front.length + k) = rest.drop k := List.drop_length_add_append k
  have hiff : (front.length + k ≤ front.length + k + 2 ∧ front.length + k + 2 ≤ (front ++ rest).length) ↔
      (k ≤ k + 2 ∧ k + 2 ≤ rest.length) := by
    rw [List.length_append]
    omega
  unfold readU16 getRange
  rw [hdrop, if_congr hiff rfl rfl, Nat.add_sub_cancel_left, Nat.add_sub_cancel_left]

theorem readU16_cons (hi lo : UInt8) (rest : Bytes) : readU16 (hi :: lo :: rest) 0 = some (word hi lo) := by
  simp [readU16, getRange, word]

theorem readU16_cons_cons (a b hi lo : UInt8) (rest : Bytes) :
    readU16 (a :: b :: hi :: lo :: rest) 2 = some (word hi lo) := by
  simp [readU16, getRange, word]

theorem readU16_of_short {bytes : Bytes} {k : Nat} (h : bytes.length < k + 2) : readU16 bytes k = none := by
  unfold readU16 getRange
  rw [if_neg (by omega)]
  rfl

/-- The payload is the end of the frame, behind at least an EtherType. What stands in front of it tells the EtherType
from whatever follows. -/
theorem untag_front {bytes payload : Bytes} {ethertype : UInt16} (h : (untag bytes).2 = some (ethertype, payload)) :
    ∃ front, bytes = front ++ payload ∧ 2 ≤ front.length ∧
      ∀ rest, untag (front ++ rest) = ((untag bytes).1, some (ethertype, rest)) := by
  fun_induction untag bytes with
  | case1 hi lo htag hi' lo' inner ih =>
    obtain ⟨front, rfl, -, hfront⟩ := ih h
    refine ⟨hi :: lo :: hi' :: lo' :: front, rfl, by simp, fun rest => ?_⟩
    rw [List.cons_append, List.cons_append, List.cons_append, List.cons_append, untag, if_pos htag, hfront]
  | case2 hi lo rest htag hshort => cases h
  | case3 hi lo rest htag =>
    cases h
    refine ⟨[hi, lo], rfl, Nat.le_refl 2, fun rest => ?_⟩
    show untag (hi :: lo :: rest) = _
    unfold untag
    rw [if_neg htag]
  | case4 bytes hshort => cases h

/-- The tags name VLANs and nothing else. -/
theorem untag_facts (bytes : Bytes) : ∃ ids : List UInt16, (untag bytes).1 = ids.map .vlan := by
  fun_induction untag bytes with
  | case1 hi lo htag hi' lo' inner ih =>
    obtain ⟨ids, hids⟩ := ih
    exact ⟨(taggedVlan (word hi' lo')).toList ++ ids, by rw [hids, List.map_append]⟩
  | case2 hi lo rest htag hshort => exact ⟨[], rfl⟩
  | case3 hi lo rest htag => exact ⟨[], rfl⟩
  | case4 bytes hshort => exact ⟨[], rfl⟩

theorem length_lt_two {bytes : Bytes} (h : ∀ a b inner, bytes = a :: b :: inner → False) : bytes.length < 2 := by
  obtain _ | ⟨a, _ | ⟨b, inner⟩⟩ := bytes
  · simp
  · simp
  · exact absurd rfl (h a b inner)

/-- The loop over the tags walks the frame as `untag` does. -/
theorem loop_nextTag (rest front : Bytes) (facts : List FrameFact) (fuel : Nat) (hfuel : rest.length < fuel) :
    (loop (nextTag (front ++ rest)) fuel (front.length, facts) : Outcome ε _) =
      .ok (facts ++ (untag rest).1, (untag rest).2.map fun p =>
      (p.1, (front ++ rest).length - (p.2.length + 2))) := by
  obtain ⟨fuel, rfl⟩ : ∃ n, fuel = n + 1 := ⟨fuel - 1, by omega⟩
  fun_induction untag rest generalizing front facts fuel with
  | case1 hi lo htag hi' lo' inner ih =>
    have hlen : inner.length + 4 < fuel + 1 := hfuel
    have hfront : front ++ hi :: lo :: hi' :: lo' :: inner = (front ++ [hi, lo, hi', lo']) ++ inner := by simp
    have hstep : (nextTag (front ++ hi :: lo :: hi' :: lo' :: inner) (front.length, facts) : Outcome ε _) =
        .ok (.next (front.length + 4, facts ++ (taggedVlan (word hi' lo')).toList.map .vlan)) := by
      have h₁ := readU16_append front (hi :: lo :: hi' :: lo' :: inner) 0
      have h₂ := readU16_append front (hi :: lo :: hi' :: lo' :: inner) 2
      rw [readU16_cons, Nat.add_zero] at h₁
      rw [readU16_cons_cons] at h₂
      simp only [nextTag, h₁, h₂, htag, if_true]
    have hrun := ih (front ++ [hi, lo, hi', lo']) (facts ++ (taggedVlan (word hi' lo')).toList.map .vlan) (fuel - 1)
      (by omega)
    rw [show fuel - 1 + 1 = fuel by omega, ← hfront, List.length_append] at hrun
    rw [loop, hstep, ok_bind]
    dsimp only
    rw [show front.length + 4 = front.length + [hi, lo, hi', lo'].length from rfl, hrun, List.append_assoc]
  | case2 hi lo rest htag hshort =>
    have hrest := length_lt_two hshort
    have h₁ := readU16_append front (hi :: lo :: rest) 0
    rw [readU16_cons, Nat.add_zero] at h₁
    have h₂ : readU16 (front ++ hi :: lo :: rest) (front.length + 2) = none :=
      (readU16_append front _ 2).trans (readU16_of_short (by rw [List.length_cons, List.length_cons]; omega))
    rw [loop]
    simp only [nextTag, h₁, h₂, htag, if_true, ok_bind, List.append_nil, Option.map_none]
  | case3 hi lo rest htag =>
    have h₁ := readU16_append front (hi :: lo :: rest) 0
    rw [readU16_cons, Nat.add_zero] at h₁
    have hoffset : (front ++ hi :: lo :: rest).length - (rest.length + 2) = front.length := by
      simp only [List.length_append, List.length_cons]
      omega
    rw [loop]
    simp only [nextTag, h₁, htag, List.append_nil, Option.map_some, hoffset]
    rfl
  | case4 bytes hshort =>
    have hbytes := length_lt_two hshort
    have h₁ : readU16 (front ++ bytes) front.length = none :=
      (readU16_append front bytes 0).trans (readU16_of_short hbytes)
    rw [loop]
    simp only [nextTag, h₁, ok_bind, List.append_nil, Option.map_none]

/-! ## What is decoded behind the tags -/

/-- What the frame carries behind its tags, an LLC payload or the payload of an EtherType. -/
def decodeBehind (frame destination : Bytes) (sourceMac : Text) : Option (UInt16 × Bytes) → Outcome ε (List FrameFact)
  | none => .ok []
  | some (ethertype, payload) =>
    if ethertype ≤ max8023Length then decodeLlc frame destination sourceMac payload
    else decodeInner frame sourceMac ethertype payload

/-- The facts of a frame, with the join unless the frame ends in its tags or carries an LLC payload. -/
def joinBehind (inner : Option (UInt16 × Bytes)) (facts : List FrameFact) : List FrameFact :=
  match inner with
  | none => facts
  | some (ethertype, _) => if ethertype ≤ max8023Length then facts else joinTaggedPrefix facts

/-- The text of the sender's hardware address. -/
def senderMac (frame : Bytes) : Text := formatMac ((frame.drop 6).take 6)

/-- **The decoder, with its tags walked by `untag`.** A frame that ends before its EtherType has none. -/
theorem decodeFrame_eq {frame : Bytes} (h : 12 ≤ frame.length) :
    (decodeFrame frame : Outcome ε _) =
      (fun more => joinBehind (untag (frame.drop 12)).2 ((untag (frame.drop 12)).1 ++ more)) <$>
        decodeBehind frame (frame.take 6) (senderMac frame) (untag (frame.drop 12)).2 := by
  unfold decodeFrame
  split
  case isTrue hshort =>
    have hnone : untag (frame.drop 12) = ([], none) := by
      have hlen : (frame.drop 12).length < 2 := by rw [List.length_drop]; omega
      match frame.drop 12, hlen with
      | [], _ => rfl
      | [_], _ => rfl
    rw [hnone]
    rfl
  case isFalse hlong =>
    have hdest : (slice frame 0 6 : Outcome ε _) = .ok (frame.take 6) := by
      unfold slice
      rw [if_pos (by omega)]
      rfl
    have hsource : (slice frame 6 12 : Outcome ε _) = .ok ((frame.drop 6).take 6) := by
      unfold slice
      rw [if_pos (by omega)]
    have hfront : (frame.take 12).length = 12 := List.length_take_of_le h
    have htags : (unwrapTags frame : Outcome ε _) =
        .ok ((untag (frame.drop 12)).1, (untag (frame.drop 12)).2.map fun p =>
        (p.1, frame.length - (p.2.length + 2))) := by
      have hloop := loop_nextTag (ε := ε) (frame.drop 12) (frame.take 12) [] (frame.length + 1)
        (by rw [List.length_drop]; omega)
      rw [List.take_append_drop, hfront] at hloop
      exact hloop
    rw [hdest, ok_bind, hsource, ok_bind, htags, ok_bind]
    dsimp only
    cases hinner : (untag (frame.drop 12)).2 with
    | none => simp only [decodeBehind, joinBehind, Option.map_none, map_ok, List.append_nil, pure_eq]
    | some inner =>
      obtain ⟨ethertype, payload⟩ := inner
      obtain ⟨front, hsplit, htwo, -⟩ := untag_front hinner
      have hlen : front.length + payload.length = frame.length - 12 := by
        rw [← List.length_append, ← hsplit, List.length_drop]
      have hstart : frame.length - (payload.length + 2) + 2 = (frame.take 12 ++ front).length := by
        rw [List.length_append, hfront]
        omega
      have hpayload : (sliceFrom frame (frame.length - (payload.length + 2) + 2) : Outcome ε _) = .ok payload := by
        have hframe : frame.take 12 ++ front ++ payload = frame := by
          rw [List.append_assoc, ← hsplit, List.take_append_drop]
        have hslice := sliceFrom_append (ε := ε) (frame.take 12 ++ front) payload
        rw [hframe] at hslice
        rw [hstart, hslice]
      simp only [Option.map_some, decodeBehind, joinBehind]
      rw [if_neg (by omega), hpayload, ok_bind]
      split
      · rfl
      · rfl

/-- The facts that are not a join of a VLAN with a network. -/
def withoutJoin (facts : List FrameFact) : List FrameFact :=
  facts.filter fun
    | .vlanNetwork _ _ => false
    | _ => true

theorem withoutJoin_append (a b : List FrameFact) : withoutJoin (a ++ b) = withoutJoin a ++ withoutJoin b :=
  List.filter_append ..

theorem withoutJoin_vlans (ids : List UInt16) : withoutJoin (ids.map .vlan) = ids.map .vlan := by
  unfold withoutJoin
  rw [List.filter_eq_self]
  intro fact hfact
  obtain ⟨id, -, rfl⟩ := List.mem_map.mp hfact
  rfl

theorem withoutJoin_joinTaggedPrefix (facts : List FrameFact) :
    withoutJoin (joinTaggedPrefix facts) = withoutJoin facts := by
  unfold joinTaggedPrefix
  split
  case h_1 vlan hids =>
    have hjoins : withoutJoin ((facts.filterMap assignedPrefix).map (.vlanNetwork vlan)) = [] := by
      unfold withoutJoin
      rw [List.filter_eq_nil_iff]
      intro fact hfact
      obtain ⟨net, -, rfl⟩ := List.mem_map.mp hfact
      simp
    rw [withoutJoin_append, hjoins, List.append_nil]
  case h_2 => rfl

theorem withoutJoin_joinBehind (inner : Option (UInt16 × Bytes)) (facts : List FrameFact) :
    withoutJoin (joinBehind inner facts) = withoutJoin facts := by
  unfold joinBehind
  split
  · rfl
  · split
    · rfl
    · exact withoutJoin_joinTaggedPrefix facts

/-- Apart from the join, the facts of a frame are the VLANs of its tags and what is decoded behind them. -/
theorem withoutJoin_decodeFrame {frame : Bytes} (h : 12 ≤ frame.length) :
    (withoutJoin <$> decodeFrame frame : Outcome ε _) =
      (fun more => (untag (frame.drop 12)).1 ++ withoutJoin more) <$>
        decodeBehind frame (frame.take 6) (senderMac frame) (untag (frame.drop 12)).2 := by
  obtain ⟨ids, hids⟩ := untag_facts (frame.drop 12)
  rw [decodeFrame_eq h]
  cases decodeBehind (ε := ε) frame (frame.take 6) (senderMac frame) (untag (frame.drop 12)).2 with
  | ok more => simp only [map_ok, withoutJoin_joinBehind, withoutJoin_append, hids, withoutJoin_vlans]
  | err e => rfl
  | panic => rfl

/-! ## Frames handed over whole -/

/-- LLDP frames, and LLC/SNAP frames to the CDP address: `parseLldpFrame` is handed the frame with its tags. -/
def Handed (destination : Bytes) : Option (UInt16 × Bytes) → Prop
  | none => False
  | some (ethertype, payload) =>
    ethertype = 0x88CC ∨
      (ethertype ≤ max8023Length ∧ destination = cdpMulticastMac ∧ ∃ control rest,
      payload = 0xAA :: 0xAA :: control :: rest)

/-- The frame behind its tags is an LLDP frame or an LLC/SNAP frame to the CDP address. -/
def HandedWhole (frame : Bytes) : Prop := Handed (frame.take 6) (untag (frame.drop 12)).2

section Behind

variable {frame frame' destination : Bytes} {sourceMac : Text} {inner : Option (UInt16 × Bytes)}

/-- The branches of the LLC decoder, by the two service access points. -/
theorem decodeLlc_cons (dsap ssap control : UInt8) (rest : Bytes) :
    (decodeLlc frame destination sourceMac (dsap :: ssap :: control :: rest) : Outcome ε _) =
      if dsap = 0xFE ∧ ssap = 0xFE then do
        match ← (Isis.parse rest).toOption with
        | some pdu => return [isisFact sourceMac pdu]
        | none => return [.routingUpdateRejected sourceMac "IS-IS"]
      else if dsap = 0x42 ∧ ssap = 0x42 ∧ destination = stpMulticastMac then do
        let bridge ← (decodeBpdu sourceMac rest).toOption
        return bridge.toList
      else if dsap = 0xAA ∧ ssap = 0xAA ∧ destination = cdpMulticastMac then do
        let neighbor ← (parseLldpFrame frame).toOption
        return neighbor.toList.map .linkLayerNeighbor
      else if dsap = 0xAA ∧ ssap = 0xAA ∧ destination = pvstMulticastMac then
        decodePvst sourceMac (dsap :: ssap :: control :: rest)
      else return [] := by
  have hlong : ¬ (dsap :: ssap :: control :: rest).length < 3 := by simp
  have hrest : (sliceFrom (dsap :: ssap :: control :: rest) 3 : Outcome ε _) = .ok rest :=
    sliceFrom_append [dsap, ssap, control] rest
  unfold decodeLlc
  rw [if_neg hlong, hrest]
  rfl

/-- What is decoded of a frame handed over whole is the neighbour `parseLldpFrame` finds in it. -/
theorem decodeBehind_of_handed (h : Handed destination inner) :
    (decodeBehind frame destination sourceMac inner : Outcome ε _) =
      (fun n : Option LldpNeighbor => n.toList.map .linkLayerNeighbor) <$> (parseLldpFrame frame).toOption := by
  match inner, h with
  | some (ethertype, payload), .inl htype =>
    subst htype
    rw [decodeBehind, if_neg (by decide)]
    unfold decodeInner
    rfl
  | some (ethertype, _), .inr ⟨hllc, hdest, control, rest, rfl⟩ =>
    subst hdest
    rw [decodeBehind, if_pos hllc, decodeLlc_cons, if_neg (by decide), if_neg (by decide), if_pos (by decide)]
    rfl

/-- What is decoded of any other frame does not depend on the bytes of its tags. -/
theorem decodeBehind_of_not_handed (h : ¬ Handed destination inner) :
    (decodeBehind frame destination sourceMac inner : Outcome ε _) =
    decodeBehind frame' destination sourceMac inner := by
  match inner with
  | none => rfl
  | some (ethertype, payload) =>
    rw [decodeBehind, decodeBehind]
    split
    case isTrue hllc =>
      match payload with
      | [] => rfl
      | [_] => rfl
      | [_, _] => rfl
      | dsap :: ssap :: control :: rest =>
        have hsnap : ¬ (dsap = 0xAA ∧ ssap = 0xAA ∧ destination = cdpMulticastMac) := by
          intro ⟨hd, hs, hdest⟩
          exact h (.inr ⟨hllc, hdest, control, rest, by rw [hd, hs]⟩)
        rw [decodeLlc_cons, decodeLlc_cons, if_neg hsnap, if_neg hsnap]
    case isFalse htyped =>
      unfold decodeInner
      split
      case h_4 htype => exact absurd (.inl (UInt16.toNat_inj.mp htype)) h
      all_goals rfl

end Behind

/-! ## Tags put into a frame -/

/-- The types a VLAN tag has. -/
inductive TagType where
  | dot1Q
  | dot1ad
  | qinqLegacy
  deriving DecidableEq, Repr

def TagType.ethertype : TagType → UInt16
  | .dot1Q => 0x8100
  | .dot1ad => 0x88A8
  | .qinqLegacy => 0x9100

/-- A VLAN tag: its type and its control information, whose low twelve bits are a VLAN id in `1..=4094`. -/
structure Tag where
  type : TagType
  tci : UInt16
  valid : 1 ≤ (tci &&& 0x0FFF).toNat ∧ (tci &&& 0x0FFF).toNat ≤ 4094

namespace Tag

def vlan (tag : Tag) : UInt16 := tag.tci &&& 0x0FFF

/-- The fact that the tag's VLAN was observed. -/
def fact (tag : Tag) : FrameFact := .vlan tag.vlan

def bytes (tag : Tag) : Bytes := beBytes 2 tag.type.ethertype.toNat ++ beBytes 2 tag.tci.toNat

end Tag

/-- The frame with a stack of tags behind its source address. -/
def insertTags (tags : List Tag) (frame : Bytes) : Bytes := frame.take 12 ++ tags.flatMap Tag.bytes ++ frame.drop 12

theorem beBytes_two (x : UInt16) : ∃ hi lo, beBytes 2 x.toNat = [hi, lo] ∧ word hi lo = x := by
  have hlt : x.toNat < 256 ^ 2 := x.toNat_lt
  refine ⟨UInt8.ofNat (x.toNat / 256), UInt8.ofNat x.toNat, rfl, ?_⟩
  have hvalue := beNat_beBytes hlt
  unfold word
  rw [show [UInt8.ofNat (x.toNat / 256), UInt8.ofNat x.toNat] = beBytes 2 x.toNat from rfl, hvalue,
    UInt16.ofNat_toNat]

theorem taggedVlan_tci (tag : Tag) : taggedVlan tag.tci = some tag.vlan := by
  obtain ⟨hlo, hhi⟩ := tag.valid
  have hzero : tag.tci &&& 0x0FFF ≠ 0 := by
    intro h
    rw [h] at hlo
    exact absurd hlo (by decide)
  have htop : tag.tci &&& 0x0FFF ≠ 0x0FFF := by
    intro h
    rw [h] at hhi
    exact absurd hhi (by decide)
  exact if_pos ⟨hzero, htop⟩

/-- A tag in front is unwrapped, and its VLAN seen. -/
theorem untag_bytes (tag : Tag) (rest : Bytes) :
    untag (tag.bytes ++ rest) = (tag.fact :: (untag rest).1, (untag rest).2) := by
  obtain ⟨hi, lo, hbytes, hword⟩ := beBytes_two tag.type.ethertype
  obtain ⟨hi', lo', hbytes', hword'⟩ := beBytes_two tag.tci
  have htype : isTagType tag.type.ethertype = true := by cases tag.type <;> rfl
  rw [Tag.bytes, hbytes, hbytes']
  show untag (hi :: lo :: hi' :: lo' :: rest) = _
  rw [untag, hword, if_pos htype, hword', taggedVlan_tci]
  rfl

theorem untag_tags (tags : List Tag) (rest : Bytes) :
    untag (tags.flatMap Tag.bytes ++ rest) = (tags.map Tag.fact ++ (untag rest).1, (untag rest).2) := by
  induction tags with
  | nil => rfl
  | cons tag tags ih => rw [List.flatMap_cons, List.append_assoc, untag_bytes, ih, List.map_cons, List.cons_append]

section Insert

variable {tags : List Tag} {f : Bytes}

theorem take_insertTags (h : 12 ≤ f.length) : (insertTags tags f).take 12 = f.take 12 := by
  unfold insertTags
  rw [List.append_assoc, List.take_left' (List.length_take_of_le h)]

theorem drop_insertTags (h : 12 ≤ f.length) : (insertTags tags f).drop 12 = tags.flatMap Tag.bytes ++ f.drop 12 := by
  unfold insertTags
  rw [List.append_assoc, List.drop_left' (List.length_take_of_le h)]

theorem length_insertTags (h : 12 ≤ f.length) : 12 ≤ (insertTags tags f).length := by
  unfold insertTags
  rw [List.length_append, List.length_append, List.length_take_of_le h]
  omega

/-- The tags change neither the addresses nor what is behind the tags. -/
theorem destination_insertTags (h : 12 ≤ f.length) : (insertTags tags f).take 6 = f.take 6 := by
  have hsix : ∀ l : Bytes, l.take 6 = (l.take 12).take 6 := fun l => by rw [List.take_take]; rfl
  rw [hsix, take_insertTags h, ← hsix]

theorem senderMac_insertTags (h : 12 ≤ f.length) : senderMac (insertTags tags f) = senderMac f := by
  have hsource : ∀ l : Bytes, (l.drop 6).take 6 = (l.take 12).drop 6 := fun l => by rw [List.drop_take]
  unfold senderMac
  rw [hsource, take_insertTags h, ← hsource]

end Insert

/-- The tags are transparent: the decoder sees their VLANs and, apart from the join, what it sees in the
bare frame. -/
def Transparent (tags : List Tag) (f : Bytes) : Prop :=
  (withoutJoin <$> decodeFrame (insertTags tags f) : Outcome Empty _) =
    (fun facts => tags.map Tag.fact ++ withoutJoin facts) <$> decodeFrame f

theorem parse_eq_of_map_eq {x y : Outcome Unit LldpNeighbor} {u : List FrameFact}
    (h : (fun more => u ++ withoutJoin more) <$>
        ((fun n : Option LldpNeighbor => n.toList.map .linkLayerNeighbor) <$> (toOption x : Outcome Empty _)) =
      (fun more => u ++ withoutJoin more) <$>
        ((fun n : Option LldpNeighbor => n.toList.map .linkLayerNeighbor) <$> toOption y)) : x = y := by
  cases x with
  | ok n =>
    cases y with
    | ok n' => simpa [toOption, withoutJoin] using h
    | err e => simp [toOption, withoutJoin] at h
    | panic => simp [toOption] at h
  | err e =>
    cases y with
    | ok n' => simp [toOption, withoutJoin] at h
    | err e' => rfl
    | panic => simp [toOption] at h
  | panic =>
    cases y with
    | ok n' => simp [toOption] at h
    | err e' => simp [toOption] at h
    | panic => rfl

/-- **When tags are transparent.** The bytes of the tags matter to `parseLldpFrame` only, on the frames it
is handed. -/
theorem transparent_iff {tags : List Tag} {f : Bytes} (h : 12 ≤ f.length) :
    Transparent tags f ↔ (HandedWhole f → parseLldpFrame (insertTags tags f) = parseLldpFrame f) := by
  have htags := untag_tags tags (f.drop 12)
  have hfacts : ∀ x : Outcome Empty (List FrameFact),
      (fun facts => tags.map Tag.fact ++ facts) <$> ((fun more => (untag (f.drop 12)).1 ++ withoutJoin more) <$> x) =
        (fun more => tags.map Tag.fact ++ (untag (f.drop 12)).1 ++ withoutJoin more) <$> x := by
    intro x
    cases x <;> simp
  have hsplit : (fun facts => tags.map Tag.fact ++ withoutJoin facts) <$> (decodeFrame f : Outcome Empty _) =
      (fun facts => tags.map Tag.fact ++ facts) <$> (withoutJoin <$> decodeFrame f) := by
    cases (decodeFrame f : Outcome Empty _) <;> rfl
  unfold Transparent
  rw [withoutJoin_decodeFrame (length_insertTags h), hsplit, withoutJoin_decodeFrame h, hfacts,
    destination_insertTags h, senderMac_insertTags h, drop_insertTags h, htags]
  dsimp only
  by_cases hhanded : HandedWhole f
  · rw [decodeBehind_of_handed hhanded, decodeBehind_of_handed hhanded]
    constructor
    · intro heq _
      exact parse_eq_of_map_eq heq
    · intro heq
      rw [heq hhanded]
  · exact ⟨fun _ hw => absurd hw hhanded, fun _ => by rw [decodeBehind_of_not_handed hhanded]⟩

end Idnx
