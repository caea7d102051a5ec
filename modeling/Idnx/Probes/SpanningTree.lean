import Idnx.Probes.Layers

/-!
# Spanning-tree frames

What a BPDU states (`bpduFact`), and the VLAN a PVST+ frame names behind it. The search for the originating-VLAN TLV
starts at the byte behind a Configuration BPDU and takes steps of two, so it finds the TLV behind an even number of
zero bytes, and steps past it behind an odd number.
-/

namespace Idnx

open Outcome

variable {ε : Type}

/-! ## BPDUs -/

/-- The text of an identifier: its priority and its hardware address. -/
def bridgeIdText (bytes : Bytes) : Text := Text.ofNat (beNat (bytes.take 2) % 65536) ++ '.' :: formatMac
    (bytes.drop 2)

theorem formatBridgeId_eq {bytes : Bytes} (h : bytes.length = 8) :
    (formatBridgeId bytes : Outcome ε _) = .ok (bridgeIdText bytes) := by
  have htwo : (slice bytes 0 2 : Outcome ε _) = .ok (bytes.take 2) := by
    unfold slice
    rw [if_pos ⟨by omega, by omega⟩]
    rfl
  have hsix : (slice bytes 2 8 : Outcome ε _) = .ok (bytes.drop 2) := by
    unfold slice
    rw [if_pos ⟨by omega, by omega⟩, List.take_of_length_le (by rw [List.length_drop]; omega)]
  unfold formatBridgeId u16At
  rw [if_neg (by omega), htwo, ok_bind, pure_eq, ok_bind, hsix]
  rfl

/-- The octets are a Configuration or RST BPDU. -/
def IsBpdu (body : Bytes) : Prop :=
  35 ≤ body.length ∧ readU16 body 0 = some 0 ∧ (body[3]? = some 0x00 ∨ body[3]? = some 0x02)

instance (body : Bytes) : Decidable (IsBpdu body) := inferInstanceAs (Decidable (_ ∧ _))

/-- What a BPDU states, in an instance. -/
def bpduFact (sourceMac : Text) (pdu : Bytes) (vlan : Option UInt16) : FrameFact :=
  .bridge sourceMac (bridgeIdText ((pdu.drop 17).take 8)) (bridgeIdText ((pdu.drop 5).take 8))
    ((readU16 pdu 25).getD 0) vlan

theorem decodeBpdu_eq (sourceMac : Text) (body : Bytes) :
    ((decodeBpdu sourceMac body).toOption : Outcome ε _) =
      .ok (if IsBpdu body then some (bpduFact sourceMac body none) else none) := by
  by_cases hlen : 35 ≤ body.length
  · have hslice : ∀ start, start + 8 ≤ body.length →
        (slice body start (start + 8) : Outcome Unit _) = .ok ((body.drop start).take 8) := by
      intro start h
      unfold slice
      rw [if_pos ⟨by omega, h⟩, Nat.add_sub_cancel_left]
    have hformat : ∀ start, start + 8 ≤ body.length →
        (formatBridgeId ((body.drop start).take 8) : Outcome Unit _) = .ok
        (bridgeIdText ((body.drop start).take 8)) := by
      intro start h
      exact formatBridgeId_eq (by rw [List.length_take, List.length_drop]; omega)
    have hword : ∀ k, k + 2 ≤ body.length → ∃ w, readU16 body k = some w := by
      intro k h
      unfold readU16 getRange
      rw [if_pos ⟨by omega, h⟩]
      exact ⟨_, rfl⟩
    obtain ⟨protocolId, hprotocol⟩ := hword 0 (by omega)
    obtain ⟨portId, hport⟩ := hword 25 (by omega)
    obtain ⟨bpduType, htype, hat⟩ := returns_index (ε := Unit) (show 3 < body.length by omega)
    have hbpdu : IsBpdu body ↔ protocolId = 0 ∧ (bpduType = 0x00 ∨ bpduType = 0x02) := by
      simp [IsBpdu, hlen, hprotocol, hat]
    unfold decodeBpdu bpduFact
    rw [require_of hlen, ok_bind, hprotocol, okOr_some, ok_bind, hport]
    by_cases hid : protocolId = 0
    · rw [require_of hid, ok_bind, htype, ok_bind]
      by_cases hkind : bpduType = 0x00 ∨ bpduType = 0x02
      · rw [require_of hkind, ok_bind, hslice 5 (by omega), ok_bind, hformat 5 (by omega), ok_bind,
          hslice 17 (by omega), ok_bind, hformat 17 (by omega), ok_bind, okOr_some, ok_bind,
          if_pos (hbpdu.mpr ⟨hid, hkind⟩)]
        rfl
      · rw [require, if_neg hkind, err_bind, if_neg fun h => hkind (hbpdu.mp h).2]
        rfl
    · rw [require, if_neg hid, err_bind, if_neg fun h => hid (hbpdu.mp h).1]
      rfl
  · unfold decodeBpdu
    rw [require, if_neg hlen, err_bind, if_neg fun h => hlen h.1]
    rfl

theorem returns_pvstOriginatingVlan (body : Bytes) :
    Returns (fun _ => True) (pvstOriginatingVlan body : Outcome ε _) := by
  refine returns_loop (fun _ => True) (fun s => s.1) (fun s _ => ?_) trivial (by decide)
  obtain ⟨left, start⟩ := s
  cases left with
  | zero => exact returns_ok trivial
  | succ left =>
    have hdone : ∀ value, Returns (Turn.Ends (fun s' : Nat × Nat => True ∧ s'.1 < left + 1) fun _ => True)
        (.ok (.done value) : Outcome ε (Turn (Nat × Nat) (Option UInt16))) := fun value => returns_ok trivial
    rw [nextPvstWord]
    split
    · split_ifs
      · exact hdone _
      · exact returns_ok ⟨trivial, Nat.lt_succ_self left⟩
      · split <;> exact hdone _
      · exact hdone _
    · exact hdone _

/-- What is decoded from a PVST+ frame, with the VLAN that is found behind its BPDU. -/
theorem decodePvst_eq (sourceMac : Text) {payload : Bytes} {vlan : Option UInt16}
    (hvlan : (pvstOriginatingVlan (payload.drop 8) : Outcome ε _) = .ok vlan) :
    (decodePvst sourceMac payload : Outcome ε _) =
      .ok (if 8 ≤ payload.length ∧ (payload.drop 3).take 3 = [0x00, 0x00, 0x0C] ∧ readU16 payload 6 = some 0x010B ∧
          IsBpdu (payload.drop 8) then
        bpduFact sourceMac (payload.drop 8) vlan :: vlan.toList.map .vlan
      else []) := by
  unfold decodePvst
  by_cases hlen : 8 ≤ payload.length
  · have hoctets : (slice payload 3 6 : Outcome ε _) = .ok ((payload.drop 3).take 3) := by
      unfold slice
      rw [if_pos ⟨by omega, by omega⟩]
    have hrest : (sliceFrom payload 8 : Outcome ε _) = .ok (payload.drop 8) := by
      unfold sliceFrom slice
      rw [if_pos ⟨hlen, Nat.le_refl _⟩, List.take_of_length_le (Nat.le_of_eq List.length_drop)]
    rw [if_neg (by omega), hoctets, ok_bind]
    by_cases houi : (payload.drop 3).take 3 = [0x00, 0x00, 0x0C]
    · rw [if_neg (not_not.mpr houi)]
      cases hpid : readU16 payload 6 with
      | none => simp
      | some pid =>
        dsimp only
        by_cases hid : pid = 0x010B
        · rw [if_neg (not_not.mpr hid), hrest, ok_bind, decodeBpdu_eq, ok_bind]
          by_cases hpdu : IsBpdu (payload.drop 8)
          · rw [if_pos hpdu, if_pos ⟨hlen, houi, by rw [hid], hpdu⟩]
            dsimp only
            rw [hvlan]
            cases vlan <;> rfl
          · rw [if_neg hpdu, if_neg fun h => hpdu h.2.2.2]
            rfl
        · rw [if_pos hid, if_neg fun h => hid (Option.some.inj h.2.2.1)]
          rfl
    · rw [if_pos houi, if_neg fun h => houi h.2.1]
      rfl
  · rw [if_pos (by omega), if_neg fun h => hlen h.1]
    rfl

/-! ## The originating VLAN -/

section Originating

variable {front rest : Bytes}

/-- Two words of zeros are stepped over. -/
theorem nextPvstWord_zeros (left : Nat) :
    (nextPvstWord (front ++ 0 :: 0 :: 0 :: 0 :: rest) (left + 1, front.length) : Outcome ε _) =
      .ok (.next (left, front.length + 2)) := by
  have h₀ := readU16_append front (0 :: 0 :: 0 :: 0 :: rest) 0
  have h₁ := readU16_append front (0 :: 0 :: 0 :: 0 :: rest) 2
  rw [readU16_cons, Nat.add_zero] at h₀
  rw [readU16_cons_cons] at h₁
  simp only [nextPvstWord, h₀, h₁]
  rfl

/-- An even number of zeros before two more are stepped over, a word at a turn. -/
theorem skip_padding (rest : Bytes) (j left fuel : Nat) (front : Bytes) :
    (loop (nextPvstWord (front ++ (List.replicate (2 * j) 0 ++ 0 :: 0 :: rest))) (fuel + j) (left + j, front.length) :
        Outcome ε _) =
      loop (nextPvstWord (front ++ (List.replicate (2 * j) 0 ++ 0 :: 0 :: rest))) fuel
        (left, front.length + 2 * j) := by
  induction j generalizing front with
  | zero => rfl
  | succ j ih =>
    have hshift : front ++ (List.replicate (2 * (j + 1)) 0 ++ 0 :: 0 :: rest) =
        (front ++ [0, 0]) ++ (List.replicate (2 * j) 0 ++ 0 :: 0 :: rest) := by
      rw [show 2 * (j + 1) = 2 + 2 * j by omega, ← List.replicate_append_replicate]
      simp
    have hzeros : ∃ more, List.replicate (2 * j) (0 : UInt8) ++ 0 :: 0 :: rest = 0 :: 0 :: more := by
      cases j with
      | zero => exact ⟨rest, rfl⟩
      | succ j => exact ⟨_, rfl⟩
    obtain ⟨more, hmore⟩ := hzeros
    have hstep : (nextPvstWord (front ++ (List.replicate (2 * (j + 1)) 0 ++ 0 :: 0 :: rest))
        (left + j + 1, front.length) : Outcome ε _) = .ok (.next (left + j, front.length + 2)) := by
      rw [hshift, hmore, List.append_assoc]
      exact nextPvstWord_zeros (left + j)
    have hrun := ih (front ++ [0, 0])
    rw [← hshift, List.length_append, show [(0 : UInt8), 0].length = 2 from rfl] at hrun
    rw [← Nat.add_assoc, ← Nat.add_assoc, loop_next hstep, hrun]
    congr 2
    omega

/-- The TLV itself gives its VLAN, unless that is reserved. -/
theorem nextPvstWord_tlv (left : Nat) (hi lo : UInt8) :
    (nextPvstWord (front ++ 0 :: 0 :: 0 :: 2 :: hi :: lo :: rest) (left + 1, front.length) : Outcome ε _) =
      .ok (.done (if word hi lo ≠ 0 ∧ word hi lo ≠ 0x0FFF then some (word hi lo) else none)) := by
  have h₀ := readU16_append front (0 :: 0 :: 0 :: 2 :: hi :: lo :: rest) 0
  have h₁ := readU16_append front (0 :: 0 :: 0 :: 2 :: hi :: lo :: rest) 2
  have h₂ := readU16_append (front ++ [0, 0, 0, 2]) (hi :: lo :: rest) 0
  rw [readU16_cons, Nat.add_zero] at h₀ h₂
  rw [readU16_cons_cons] at h₁
  rw [List.append_assoc, List.length_append] at h₂
  have hvlan : readU16 (front ++ 0 :: 0 :: 0 :: 2 :: hi :: lo :: rest) (front.length + 4) = some (word hi lo) := h₂
  simp only [nextPvstWord, h₀, h₁, hvlan]
  rfl

/-- One byte past its start, the TLV has a length that is neither none nor a VLAN's. -/
theorem nextPvstWord_astride (left : Nat) (hi : UInt8) :
    (nextPvstWord (front ++ 0 :: 0 :: 2 :: hi :: rest) (left + 1, front.length) : Outcome ε _) = .ok (.done none) := by
  have h₀ := readU16_append front (0 :: 0 :: 2 :: hi :: rest) 0
  have h₁ := readU16_append front (0 :: 0 :: 2 :: hi :: rest) 2
  rw [readU16_cons, Nat.add_zero] at h₀
  rw [readU16_cons_cons] at h₁
  have hlength : 2 < (word 2 hi).toNat := by
    rw [toNat_word, show (2 : UInt8).toNat = 2 from rfl]
    omega
  have hne₀ : word 2 hi ≠ 0 := fun h => by
    rw [h] at hlength
    exact absurd hlength (by decide)
  have hne₂ : word 2 hi ≠ 2 := fun h => by
    rw [h] at hlength
    exact absurd hlength (by decide)
  simp only [nextPvstWord, h₀, h₁]
  rw [if_neg (by decide), if_neg hne₀, if_neg hne₂]

/-- The VLAN found behind `z` zeros: the TLV's behind an even number of them, and none behind an odd number. -/
theorem pvstOriginatingVlan_eq (hfront : front.length = 35) {z : Nat} (hz : z ≤ 17) (hi lo : UInt8) :
    (pvstOriginatingVlan (front ++ (List.replicate z 0 ++ 0 :: 0 :: 0 :: 2 :: hi :: lo :: rest)) : Outcome ε _) =
      .ok (if z % 2 = 0 ∧ word hi lo ≠ 0 ∧ word hi lo ≠ 0x0FFF then some (word hi lo) else none) := by
  have hbody : ∀ j (tail : Bytes), front ++ (List.replicate (2 * j) 0 ++ tail) =
      (front ++ List.replicate (2 * j) 0) ++ tail := fun j tail => (List.append_assoc ..).symm
  have hat : ∀ j, front.length + 2 * j = (front ++ List.replicate (2 * j) (0 : UInt8)).length := by
    intro j
    rw [List.length_append, List.length_replicate]
  unfold pvstOriginatingVlan
  obtain ⟨j, rfl | rfl⟩ : ∃ j, z = 2 * j ∨ z = 2 * j + 1 := ⟨z / 2, by omega⟩
  · have hskip := skip_padding (ε := ε) (0 :: 2 :: hi :: lo :: rest) j (8 - j + 1) (9 - j + 1) front
    rw [show 8 - j + 1 + j = 9 by omega, show 9 - j + 1 + j = 10 by omega, hfront] at hskip
    rw [hskip, ← hfront, hat, hbody, loop, nextPvstWord_tlv, ok_bind]
    simp
  · have hodd : List.replicate (2 * j + 1) (0 : UInt8) ++ 0 :: 0 :: 0 :: 2 :: hi :: lo :: rest =
        List.replicate (2 * j) 0 ++ 0 :: 0 :: 0 :: 0 :: 2 :: hi :: lo :: rest := by
      rw [List.replicate_succ', List.append_assoc]
      rfl
    have hskip := skip_padding (ε := ε) (0 :: 0 :: 2 :: hi :: lo :: rest) j (8 - j + 1) (9 - j + 1) front
    rw [show 8 - j + 1 + j = 9 by omega, show 9 - j + 1 + j = 10 by omega, hfront] at hskip
    rw [hodd, hskip, ← hfront, hat, hbody, loop_next (nextPvstWord_zeros _), if_neg (by omega)]
    -- One word remains where the padding is all that is tolerated, and none beyond.
    have hshift : front ++ List.replicate (2 * j) 0 ++ 0 :: 0 :: 0 :: 0 :: 2 :: hi :: lo :: rest =
        (front ++ List.replicate (2 * j) 0 ++ [0, 0]) ++ 0 :: 0 :: 2 :: hi :: lo :: rest := by
      rw [List.append_assoc _ [0, 0]]
      rfl
    have hlen : (front ++ List.replicate (2 * j) (0 : UInt8)).length + 2 =
        (front ++ List.replicate (2 * j) 0 ++ [0, 0]).length := by
      simp only [List.length_append, List.length_cons, List.length_nil]
    rw [hshift, hlen]
    obtain ⟨fuel, hfuel⟩ : ∃ fuel, 9 - j = fuel + 1 := ⟨8 - j, by omega⟩
    rw [hfuel, loop]
    obtain hleft | ⟨left, hleft⟩ : 8 - j = 0 ∨ ∃ left, 8 - j = left + 1 := by
      rcases Nat.eq_zero_or_pos (8 - j) with h | h
      · exact .inl h
      · exact .inr ⟨8 - j - 1, by omega⟩
    · rw [hleft]
      rfl
    · rw [hleft, nextPvstWord_astride]
      rfl

theorem readU16_eq_some {bytes : Bytes} {k : Nat} {w : UInt16} (h : readU16 bytes k = some w) :
    ∃ hi lo, bytes.drop k = hi :: lo :: bytes.drop (k + 2) ∧ word hi lo = w := by
  unfold readU16 at h
  obtain ⟨two, htwo, rfl⟩ := Option.map_eq_some_iff.mp h
  obtain ⟨hsplit, hstop, -⟩ := drop_of_getRange htwo
  obtain ⟨hi, lo, rfl⟩ := List.length_eq_two.mp (show two.length = 2 by omega)
  exact ⟨hi, lo, hsplit, rfl⟩

/-- Behind the BPDU stand an even number of zeros, as far as they are tolerated, and the TLV of a VLAN. -/
def HasOriginatingVlan (body : Bytes) (v : UInt16) : Prop :=
  ∃ j hi lo rest, j ≤ 8 ∧ body.drop 35 = List.replicate (2 * j) 0 ++ 0 :: 0 :: 0 :: 2 :: hi :: lo :: rest ∧
    word hi lo = v

/-- A VLAN that is found stands in a TLV, behind words of zeros. -/
theorem originating_of_loop {body : Bytes} {v : UInt16} {fuel left start : Nat}
    (h : (loop (nextPvstWord body) fuel (left, start) : Outcome ε _) = .ok (some v)) :
    ∃ j hi lo rest, j + 1 ≤ left ∧ body.drop start = List.replicate (2 * j) 0 ++ 0 :: 0 :: 0 :: 2 :: hi :: lo :: rest ∧
      word hi lo = v ∧ v ≠ 0 ∧ v ≠ 0x0FFF := by
  have hzero : word 0 0 = 0 := rfl
  induction fuel generalizing left start with
  | zero => cases h
  | succ fuel ih =>
    rw [loop] at h
    obtain _ | left := left
    · cases h
    rw [nextPvstWord] at h
    split at h
    case h_2 => cases h
    case h_1 tlvType length htype hlength =>
      obtain ⟨a, b, hfirst, hab⟩ := readU16_eq_some htype
      obtain ⟨c, d, hsecond, hcd⟩ := readU16_eq_some hlength
      split at h
      · cases h
      case isFalse htypeZero =>
        obtain ⟨rfl, rfl⟩ := word_inj.mp (hab.trans ((not_not.mp htypeZero).trans hzero.symm))
        split at h
        case isTrue hpad =>
          obtain ⟨j, hi, lo, rest, hj, hdrop, hword⟩ := ih h
          refine ⟨j + 1, hi, lo, rest, by omega, ?_, hword⟩
          rw [hfirst, hdrop, show 2 * (j + 1) = 2 * j + 1 + 1 by omega, List.replicate_succ, List.replicate_succ]
          rfl
        case isFalse hlength =>
          split at h
          · cases hvlan : readU16 body (start + 4) with
            | none =>
              rw [hvlan] at h
              cases h
            | some vlan =>
              obtain ⟨hi, lo, hthird, hword⟩ := readU16_eq_some hvlan
              rw [hvlan] at h
              have hfound : (if vlan ≠ 0 ∧ vlan ≠ 0x0FFF then some vlan else none) = some v := Outcome.ok.inj h
              split at hfound
              case isFalse => cases hfound
              case isTrue hvalid =>
                obtain rfl := Option.some.inj hfound
                obtain ⟨rfl, rfl⟩ := word_inj.mp (hcd.trans (show length = word 0 2 by assumption))
                refine ⟨0, hi, lo, body.drop (start + 4 + 2), by omega, ?_, hword, hvalid⟩
                rw [hfirst, hsecond, hthird]
                rfl
          · cases h

theorem pvstOriginatingVlan_iff {body : Bytes} {v : UInt16} :
    (pvstOriginatingVlan body : Outcome ε _) = .ok (some v) ↔ HasOriginatingVlan body v ∧ v ≠ 0 ∧ v ≠ 0x0FFF := by
  constructor
  · intro h
    obtain ⟨j, hi, lo, rest, hj, hdrop, hword, hvalid⟩ := originating_of_loop h
    exact ⟨⟨j, hi, lo, rest, by omega, hdrop, hword⟩, hvalid⟩
  · rintro ⟨⟨j, hi, lo, rest, hj, hdrop, rfl⟩, hvalid⟩
    have hlen := congrArg List.length hdrop
    rw [List.length_drop, List.length_append, List.length_cons] at hlen
    have hbody := (List.take_append_drop 35 body).symm
    rw [hdrop] at hbody
    rw [hbody, pvstOriginatingVlan_eq (List.length_take_of_le (by omega)) (by omega), if_pos ⟨by omega, hvalid⟩]

end Originating

/-! ## PVST+ frames -/

/-- A Configuration BPDU: version 0, type 0. -/
def IsConfigBpdu (bpdu : Bytes) : Prop := bpdu.length = 35 ∧ bpdu.take 4 = [0, 0, 0, 0]

/-- An RST BPDU: version 2, type 2, and a last byte that says the length of version 1 information is zero. -/
def IsRstBpdu (bpdu : Bytes) : Prop := bpdu.length = 36 ∧ bpdu.take 4 = [0, 0, 2, 2] ∧ bpdu[35]? = some 0

/-- A PVST+ or Rapid PVST+ frame behind its LLC header: a BPDU, padding as far as it is tolerated, the originating
VLAN, and whatever follows. -/
structure PvstFrame where
  bpdu : Bytes
  padding : Nat
  vlan : UInt16
  trailing : Bytes
  valid : IsConfigBpdu bpdu ∨ IsRstBpdu bpdu
  tolerated : padding ≤ 16

namespace PvstFrame

def body (f : PvstFrame) : Bytes :=
  f.bpdu ++ (List.replicate f.padding 0 ++ ([0, 0, 0, 2] ++ beBytes 2 f.vlan.toNat ++ f.trailing))

def payload (f : PvstFrame) : Bytes := [0xAA, 0xAA, 0x03, 0x00, 0x00, 0x0C, 0x01, 0x0B] ++ f.body

/-- An even number of bytes stands between the end of a Configuration BPDU and the TLV. -/
def Aligned (f : PvstFrame) : Prop := (f.bpdu.length + f.padding) % 2 = 1

instance (f : PvstFrame) : Decidable f.Aligned := inferInstanceAs (Decidable (_ = _))

/-- The frame is reported with its instance, and its VLAN. -/
def Reported (f : PvstFrame) (sourceMac : Text) : Prop :=
  (decodePvst sourceMac f.payload : Outcome Empty _) =
    .ok [bpduFact sourceMac f.body (some f.vlan), .vlan f.vlan]

/-- The bytes behind a Configuration BPDU, of which an RST BPDU has one more. -/
theorem body_eq (f : PvstFrame) :
    ∃ front z hi lo, f.body = front ++ (List.replicate z 0 ++ 0 :: 0 :: 0 :: 2 :: hi :: lo :: f.trailing) ∧
      front.length = 35 ∧ z = f.bpdu.length - 35 + f.padding ∧ word hi lo = f.vlan := by
  obtain ⟨hi, lo, hbytes, hword⟩ := beBytes_two f.vlan
  unfold body
  rw [hbytes]
  obtain ⟨hlen, -⟩ | ⟨hlen, -, hlast⟩ := f.valid
  · exact ⟨f.bpdu, f.padding, hi, lo, rfl, hlen, by omega, hword⟩
  · refine ⟨f.bpdu.take 35, f.padding + 1, hi, lo, ?_, List.length_take_of_le (by omega), by omega, hword⟩
    have hsplit : f.bpdu = f.bpdu.take 35 ++ [0] := by
      have hdrop : f.bpdu.drop 35 = [0] := by
        obtain ⟨hlt, hzero⟩ := List.getElem?_eq_some_iff.mp hlast
        rw [List.drop_eq_getElem_cons hlt, hzero, List.drop_eq_nil_of_le (by omega)]
      rw [← hdrop, List.take_append_drop]
    conv => lhs; rw [hsplit]
    rw [List.append_assoc]
    rfl

theorem isBpdu_body (f : PvstFrame) : IsBpdu f.body := by
  have hstart : ∃ a b rest, f.body = 0 :: 0 :: a :: b :: rest ∧ (b = 0 ∨ b = 2) := by
    have hbytes : ∀ {l : Bytes}, f.bpdu.take 4 = l → f.bpdu = l ++ f.bpdu.drop 4 := by
      rintro _ rfl
      exact (List.take_append_drop 4 f.bpdu).symm
    unfold body
    obtain ⟨-, hfour⟩ | ⟨-, hfour, -⟩ := f.valid
    · rw [hbytes hfour]
      exact ⟨0, 0, _, rfl, .inl rfl⟩
    · rw [hbytes hfour]
      exact ⟨2, 2, _, rfl, .inr rfl⟩
  have hlen : 35 ≤ f.body.length := by
    obtain ⟨front, z, hi, lo, hbody, hfront, -⟩ := f.body_eq
    rw [hbody, List.length_append]
    omega
  obtain ⟨a, b, rest, hbody, hkind⟩ := hstart
  refine ⟨hlen, ?_, ?_⟩
  · rw [hbody, readU16_cons]
    rfl
  · rw [hbody]
    exact hkind.imp (fun h => congrArg some h) fun h => congrArg some h

/-- What is reported of a PVST+ frame. -/
theorem decodePvst_payload (f : PvstFrame) (sourceMac : Text) :
    (decodePvst sourceMac f.payload : Outcome ε _) =
      .ok (if f.Aligned ∧ f.vlan ≠ 0 ∧ f.vlan ≠ 0x0FFF then [bpduFact sourceMac f.body (some f.vlan), .vlan f.vlan]
        else [bpduFact sourceMac f.body none]) := by
  obtain ⟨front, z, hi, lo, hbody, hfront, hz, hword⟩ := f.body_eq
  have htolerated := f.tolerated
  have hlen : f.bpdu.length = 35 ∨ f.bpdu.length = 36 := f.valid.imp And.left And.left
  have haligned : z % 2 = 0 ↔ f.Aligned := by
    unfold Aligned
    omega
  have hvlan : (pvstOriginatingVlan f.body : Outcome ε _) =
      .ok (if f.Aligned ∧ f.vlan ≠ 0 ∧ f.vlan ≠ 0x0FFF then some f.vlan else none) := by
    rw [hbody, pvstOriginatingVlan_eq hfront (by omega), hword]
    simp only [haligned]
  have hdrop : f.payload.drop 8 = f.body := rfl
  have hpid : readU16 f.payload 6 = some 0x010B := rfl
  have houi : (f.payload.drop 3).take 3 = [0x00, 0x00, 0x0C] := rfl
  have hlong : 8 ≤ f.payload.length := by
    rw [payload, List.length_append]
    exact Nat.le_add_right 8 _
  rw [← hdrop] at hvlan
  rw [decodePvst_eq sourceMac hvlan, if_pos ⟨hlong, houi, hpid, f.isBpdu_body⟩, hdrop]
  split <;> rfl

/-- **When the originating VLAN is reported for what it is.** The search meets the TLV only where it is aligned, and
takes any number but the two reserved ones for a VLAN. -/
theorem reported_iff_valid_iff (f : PvstFrame) (sourceMac : Text) :
    (f.Reported sourceMac ↔ 1 ≤ f.vlan ∧ f.vlan ≤ 4094) ↔
      if f.Aligned then f.vlan ≤ 4095 else ¬ (1 ≤ f.vlan ∧ f.vlan ≤ 4094) := by
  have hreported : f.Reported sourceMac ↔ f.Aligned ∧ f.vlan ≠ 0 ∧ f.vlan ≠ 0x0FFF := by
    unfold Reported
    rw [f.decodePvst_payload]
    split
    · simp [*]
    · simp [*]
  have hzero : f.vlan = 0 ↔ f.vlan.toNat = 0 := UInt16.toNat_inj.symm
  have htop : f.vlan = 0x0FFF ↔ f.vlan.toNat = 4095 := UInt16.toNat_inj.symm
  have hlow : 1 ≤ f.vlan ↔ 1 ≤ f.vlan.toNat := UInt16.le_iff_toNat_le
  have hhigh : f.vlan ≤ 4094 ↔ f.vlan.toNat ≤ 4094 := UInt16.le_iff_toNat_le
  have hwide : f.vlan ≤ 4095 ↔ f.vlan.toNat ≤ 4095 := UInt16.le_iff_toNat_le
  rw [hreported, Ne, Ne, hzero, htop, hlow, hhigh]
  split
  case isTrue haligned =>
    rw [hwide]
    constructor
    · intro h
      by_contra hbig
      have := h.mp ⟨haligned, by omega, by omega⟩
      omega
    · intro h
      constructor
      · rintro ⟨-, h₀, h₁⟩
        omega
      · intro hvalid
        exact ⟨haligned, by omega, by omega⟩
  case isFalse hastray =>
    refine ⟨fun h hvalid => hastray (h.mpr hvalid).1, fun h => ?_⟩
    exact ⟨fun hfound => absurd hfound.1 hastray, fun hvalid => absurd hvalid h⟩

/-- A Configuration BPDU of zeros, one byte of padding, VLAN 10. -/
def oddlyPadded : PvstFrame where
  bpdu := List.replicate 35 0
  padding := 1
  vlan := 10
  trailing := []
  valid := .inl ⟨rfl, rfl⟩
  tolerated := by decide

/-- One byte of padding hides VLAN 10. -/
theorem oddly_padded_unreported :
    ¬ (oddlyPadded.Reported "02:00:00:00:00:01" ↔ 1 ≤ oddlyPadded.vlan ∧ oddlyPadded.vlan ≤ 4094) := by
  intro h
  have hreported := h.mpr (by decide)
  unfold Reported at hreported
  rw [decodePvst_payload, if_neg (by decide)] at hreported
  cases hreported

end PvstFrame

end Idnx
