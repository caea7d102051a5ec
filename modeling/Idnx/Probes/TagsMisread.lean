import Idnx.Probes.VlanTags

/-!
# Tags read as records

A frame handed over whole is read from its fifteenth byte, or for CDP from its fifth, whatever tags it carries: the
tags are read as records. For every such frame there are two stacks under which `parseLldpFrame` reads different
things, so that one of them is not transparent (`exists_parse_ne`).

* An LLDP walk starts in the first tag: one stack ends it there (`endTag`), another names a chassis and a port.
* A CDP walk of a frame without its SNAP header at the untagged place starts in the addresses. It leaves them for the
  tags, is led to the middle of a tag by fillers (`settle`), and there finds a device, a port and a list of
  capabilities (`trap`), which is longer in one stack than in the other.
-/

namespace Idnx

open Outcome

/-! ## What records add -/

/-- A CDP record is always read; it adds capabilities that do not depend on what was read before, and a device or a
port once named stays named. -/
theorem CdpTlvs.read_spec (tlvType : UInt16) (value : Bytes) :
    ∃ more : List Text, ∀ t : CdpTlvs, ∃ t', (t.read tlvType value : Outcome Unit _) = .ok t' ∧
      t'.capabilities = t.capabilities ++ more ∧
      (t.deviceId.isSome = true ∨ tlvType.toNat = 1 → t'.deviceId.isSome = true) ∧
      (t.portId.isSome = true ∨ tlvType.toNat = 3 → t'.portId.isSome = true) := by
  unfold CdpTlvs.read
  split
  case h_1 h => exact ⟨[], fun t => ⟨_, rfl, by simp, by simp, by simp [h]⟩⟩
  case h_2 h =>
    refine ⟨[], fun t => ?_⟩
    split
    · obtain ⟨count, hcount, -⟩ := returns_u32At (ε := Unit) (show 0 + 4 ≤ value.length by omega)
      obtain ⟨ip, hip, -⟩ := returns_cdpAddresses (ε := Unit) count.toNat t.managementIp
      rw [hcount, ok_bind, hip, ok_bind]
      exact ⟨_, rfl, by simp, by simp [h], by simp [h]⟩
    · exact ⟨t, rfl, by simp, by simp [h], by simp [h]⟩
  case h_3 h => exact ⟨[], fun t => ⟨_, rfl, by simp, by simp [h], by simp⟩⟩
  case h_4 h =>
    by_cases hfour : 4 ≤ value.length
    · obtain ⟨caps, hcaps, -⟩ := returns_u32At (ε := Unit) (show 0 + 4 ≤ value.length by omega)
      refine ⟨cdpCapabilities caps, fun t => ?_⟩
      rw [if_pos hfour, hcaps, ok_bind]
      exact ⟨_, rfl, rfl, by simp [h], by simp [h]⟩
    · refine ⟨[], fun t => ?_⟩
      rw [if_neg hfour]
      exact ⟨t, rfl, by simp, by simp [h], by simp [h]⟩
  case h_5 h => exact ⟨[], fun t => ⟨_, rfl, by simp, by simp [h], by simp [h]⟩⟩
  case h_6 h => exact ⟨[], fun t => ⟨_, rfl, by simp, by simp [h], by simp [h]⟩⟩
  case h_7 h =>
    refine ⟨[], fun t => ?_⟩
    split
    · obtain ⟨vlan, hvlan, -⟩ := returns_u16At (ε := Unit) (show 0 + 2 ≤ value.length by omega)
      rw [hvlan, ok_bind]
      exact ⟨_, rfl, by simp, by simp [h], by simp [h]⟩
    · exact ⟨t, rfl, by simp, by simp [h], by simp [h]⟩
  case h_8 h₁ h₂ h₃ h₄ h₅ h₆ h₇ =>
    exact ⟨[], fun t => ⟨t, rfl, by simp, fun h => h.resolve_right h₁, fun h => h.resolve_right h₃⟩⟩

/-- An LLDP record is always read, and a chassis or a port once named stays named. -/
theorem LldpTlvs.read_spec (t : LldpTlvs) (tlvType : UInt16) (value : Bytes) :
    ∃ t', (t.read tlvType value : Outcome Unit _) = .ok t' ∧
      (t.chassisId.isSome = true ∨ tlvType.toNat = 1 ∧ value ≠ [] → t'.chassisId.isSome = true) ∧
      (t.portId.isSome = true ∨ tlvType.toNat = 2 ∧ value ≠ [] → t'.portId.isSome = true) := by
  have hone : ∀ {v : Bytes}, v ≠ [] → 0 < v.length := fun h => List.length_pos_of_ne_nil h
  unfold LldpTlvs.read
  split
  case h_1 h =>
    split
    case isTrue hne =>
      obtain ⟨subtype, hsub, -⟩ := returns_index (ε := Unit) (hone hne)
      obtain ⟨id, hid, -⟩ := returns_slice (ε := Unit) (show 1 ≤ value.length from hone hne) (Nat.le_refl _)
      rw [hsub, ok_bind, sliceFrom, hid, ok_bind]
      exact ⟨_, rfl, by simp, by simp [h]⟩
    case isFalse hnil => exact ⟨t, rfl, by simp [Classical.not_not.mp hnil], by simp [h]⟩
  case h_2 h =>
    split
    case isTrue hne =>
      obtain ⟨id, hid, -⟩ := returns_slice (ε := Unit) (show 1 ≤ value.length from hone hne) (Nat.le_refl _)
      rw [sliceFrom, hid, ok_bind]
      exact ⟨_, rfl, by simp [h], by simp⟩
    case isFalse hnil => exact ⟨t, rfl, by simp [h], by simp [Classical.not_not.mp hnil]⟩
  case h_3 h => exact ⟨_, rfl, by simp [h], by simp [h]⟩
  case h_4 h => exact ⟨_, rfl, by simp [h], by simp [h]⟩
  case h_5 h =>
    split
    · obtain ⟨caps, hcaps, -⟩ := returns_u16At (ε := Unit) (show 0 + 2 ≤ value.length by omega)
      rw [hcaps, ok_bind]
      exact ⟨_, rfl, by simp [h], by simp [h]⟩
    · exact ⟨t, rfl, by simp [h], by simp [h]⟩
  case h_6 h =>
    split
    · obtain ⟨length, hlength, -⟩ := returns_index (ε := Unit) (show 0 < value.length by omega)
      obtain ⟨subtype, hsub, -⟩ := returns_index (ε := Unit) (show 1 < value.length by omega)
      rw [hlength, ok_bind, hsub, ok_bind]
      split
      · obtain ⟨address, haddress, -⟩ := returns_ipv4At (ε := Unit) (show 2 + 4 ≤ value.length by omega)
        rw [haddress, ok_bind]
        exact ⟨_, rfl, by simp [h], by simp [h]⟩
      · exact ⟨t, rfl, by simp [h], by simp [h]⟩
    · exact ⟨t, rfl, by simp [h], by simp [h]⟩
  case h_7 h₁ h₂ h₃ h₄ h₅ h₆ =>
    exact ⟨t, rfl, fun h => h.resolve_right fun h => h₁ h.1, fun h => h.resolve_right fun h => h₂ h.1⟩

/-! ## LLDP walks -/

section Lldp

variable {frame : Bytes}

/-- One record of an LLDP walk: its header, and what it reads of the value. -/
theorem lldpTlv_step {offset : Nat} {hi lo : UInt8} (h₀ : frame[offset]? = some hi)
    (h₁ : frame[offset + 1]? = some lo)
    (hfits : offset + 2 + (word hi lo &&& 0x01FF).toNat ≤ frame.length) (htype : word hi lo >>> 9 ≠ 0)
    (t : LldpTlvs) :
    (lldpTlv frame (offset, t) : Outcome Unit _) = do
      let t ← t.read (word hi lo >>> 9) ((frame.drop (offset + 2)).take (word hi lo &&& 0x01FF).toNat)
      return .next (offset + 2 + (word hi lo &&& 0x01FF).toNat, t) := by
  have hslice : (slice frame (offset + 2) (offset + 2 + (word hi lo &&& 0x01FF).toNat) : Outcome Unit _) =
      .ok ((frame.drop (offset + 2)).take (word hi lo &&& 0x01FF).toNat) := by
    unfold slice
    rw [if_pos ⟨by omega, hfits⟩, Nat.add_sub_cancel_left]
  rw [lldpTlv, if_pos (by omega), u16At_of_getElem? h₀ h₁, ok_bind]
  dsimp only
  rw [if_neg (by omega), hslice, ok_bind, if_neg htype]

/-- An LLDP walk that has a chassis and a port returns with both. -/
theorem returns_lldpWalk {offset fuel : Nat} {t : LldpTlvs} (hfuel : frame.length - offset < fuel)
    (hchassis : t.chassisId.isSome = true) (hport : t.portId.isSome = true) :
    Returns (fun t' : LldpTlvs => t'.chassisId.isSome = true ∧ t'.portId.isSome = true)
      (loop (lldpTlv frame) fuel (offset, t) : Outcome Unit _) := by
  refine returns_loop (fun s => s.2.chassisId.isSome = true ∧ s.2.portId.isSome = true)
    (fun s => frame.length - s.1) ?_
    ⟨hchassis, hport⟩ hfuel
  intro ⟨offset, t⟩ h
  rw [lldpTlv]
  split
  case isFalse => exact returns_ok h
  case isTrue hin =>
    refine (returns_u16At hin).bind fun header _ => ?_
    dsimp only
    split
    · exact returns_ok h
    refine (returns_slice (by omega) (by omega)).bind fun value _ => ?_
    split
    · exact returns_ok h
    obtain ⟨t', ht', hc, hp⟩ := t.read_spec (header >>> 9) value
    rw [ht', ok_bind]
    refine returns_ok ⟨⟨hc (.inl h.1), hp (.inl h.2)⟩, ?_⟩
    dsimp only
    omega

/-- A frame that is no CDP announcement and whose first record ends the LLDPDU announces nothing. -/
theorem parseLldpFrame_of_end {hi lo : UInt8} (hlen : 14 ≤ frame.length)
    (hcdp : (cdpAnnounced frame : Outcome Unit _) = .ok none)
    (h₀ : frame[14]? = some hi) (h₁ : frame[15]? = some lo) (htype : word hi lo >>> 9 = 0) :
    parseLldpFrame frame = .err () := by
  have hwalk : (loop (lldpTlv frame) (frame.length + 1) (14, {}) : Outcome Unit _) = .ok {} := by
    have hin : 14 + 2 ≤ frame.length := by
      have := (List.getElem?_eq_some_iff.mp h₁).1
      omega
    rw [loop, lldpTlv, if_pos hin, u16At_of_getElem? h₀ h₁, ok_bind]
    dsimp only
    split
    · rfl
    · obtain ⟨value, hvalue, -⟩ := returns_slice (ε := Unit)
        (show 14 + 2 ≤ 14 + 2 + (word hi lo &&& 0x01FF).toNat by omega)
        (show 14 + 2 + (word hi lo &&& 0x01FF).toNat ≤ frame.length by omega)
      rw [hvalue, ok_bind]
      rfl
  unfold parseLldpFrame
  rw [require_of hlen, ok_bind, hcdp, ok_bind, hwalk]
  rfl

/-- A frame that is no CDP announcement, and whose first records are a chassis and a port, announces a neighbour. -/
theorem parseLldpFrame_of_named (hlen : 22 ≤ frame.length) (hcdp : (cdpAnnounced frame : Outcome Unit _) = .ok none)
    (h₀ : frame[14]? = some 0x02) (h₁ : frame[15]? = some 0x02) (h₂ : frame[18]? = some 0x04)
    (h₃ : frame[19]? = some 0x02) : ∃ n, parseLldpFrame frame = .ok n := by
  have hvalue : ∀ o, o + 2 ≤ frame.length → (frame.drop o).take 2 ≠ [] := by
    intro o ho hnil
    have hnone := congrArg List.length hnil
    rw [List.length_take, List.length_drop, List.length_nil] at hnone
    omega
  have hstep₁ := lldpTlv_step h₀ h₁ (by rw [show (word 2 2 &&& 0x01FF).toNat = 2 by decide]; omega) (by decide) {}
  have hstep₂ := lldpTlv_step h₂ h₃ (by rw [show (word 4 2 &&& 0x01FF).toNat = 2 by decide]; omega) (by decide)
  rw [show (word 2 2 &&& 0x01FF).toNat = 2 by decide] at hstep₁
  simp only [show (word 4 2 &&& 0x01FF).toNat = 2 by decide] at hstep₂
  obtain ⟨t₁, ht₁, hchassis, -⟩ := LldpTlvs.read_spec {} (word 2 2 >>> 9) ((frame.drop (14 + 2)).take 2)
  obtain ⟨t₂, ht₂, hchassis₂, hport₂⟩ := LldpTlvs.read_spec t₁ (word 4 2 >>> 9) ((frame.drop (18 + 2)).take 2)
  have hc₁ : t₁.chassisId.isSome = true := hchassis (.inr ⟨by decide, hvalue 16 (by omega)⟩)
  obtain ⟨t, ht, hc, hp⟩ := returns_lldpWalk (show frame.length - 22 < frame.length - 1 by omega)
    (hchassis₂ (.inl hc₁))
    (hport₂ (.inr ⟨by decide, hvalue 20 (by omega)⟩))
  have hwalk : (loop (lldpTlv frame) (frame.length + 1) (14, {}) : Outcome Unit _) = .ok t := by
    rw [show frame.length + 1 = frame.length - 1 + 1 + 1 by omega, loop, hstep₁, ht₁]
    show loop (lldpTlv frame) (frame.length - 1 + 1) (18, t₁) = _
    rw [loop, hstep₂, ht₂]
    exact ht
  obtain ⟨chassisId, hchassisId⟩ := Option.isSome_iff_exists.mp hc
  obtain ⟨portId, hportId⟩ := Option.isSome_iff_exists.mp hp
  unfold parseLldpFrame
  rw [require_of (by omega), ok_bind, hcdp, ok_bind]
  dsimp only
  rw [hwalk, ok_bind, hchassisId, hportId]
  exact ⟨_, rfl⟩

end Lldp

/-! ## CDP walks -/

section Cdp

variable {frame frame₁ frame₂ : Bytes} {offset : Nat} {a b hi lo : UInt8}

/-- One record of a CDP walk: its type, its length, and what it reads of the value. -/
theorem cdpTlv_step (h₀ : frame[offset]? = some a) (h₁ : frame[offset + 1]? = some b)
    (h₂ : frame[offset + 2]? = some hi)
    (h₃ : frame[offset + 3]? = some lo) (hfour : 4 ≤ (word hi lo).toNat)
    (hfits : offset + (word hi lo).toNat ≤ frame.length) (t : CdpTlvs) :
    (cdpTlv frame (offset, t) : Outcome Unit _) = do
      let t ← t.read (word a b) ((frame.drop (offset + 4)).take ((word hi lo).toNat - 4))
      return .next (offset + (word hi lo).toNat, t) := by
  have hslice : (slice frame (offset + 4) (offset + 4 + ((word hi lo).toNat - 4)) : Outcome Unit _) =
      .ok ((frame.drop (offset + 4)).take ((word hi lo).toNat - 4)) := by
    unfold slice
    rw [if_pos ⟨by omega, by omega⟩, Nat.add_sub_cancel_left]
  rw [cdpTlv, if_pos (by omega), u16At_of_getElem? h₀ h₁, ok_bind, u16At_of_getElem? h₂ h₃, ok_bind]
  dsimp only
  rw [if_neg (by omega), hslice, ok_bind]

/-- A record shorter than its own header ends a CDP walk. -/
theorem loop_cdpTlv_of_short {fuel : Nat} (h₂ : frame[offset + 2]? = some hi) (h₃ : frame[offset + 3]? = some lo)
    (hshort : (word hi lo).toNat < 4) (t : CdpTlvs) :
    (loop (cdpTlv frame) (fuel + 1) (offset, t) : Outcome Unit _) = .ok t := by
  have hin : offset + 4 ≤ frame.length := (List.getElem?_eq_some_iff.mp h₃).1
  obtain ⟨tlvType, htype, -⟩ := returns_u16At (ε := Unit) (show offset + 2 ≤ frame.length by omega)
  rw [loop, cdpTlv, if_pos hin, htype, ok_bind, u16At_of_getElem? h₂ h₃, ok_bind]
  dsimp only
  rw [if_pos (.inl hshort)]
  rfl

/-- Two frames walked together: from one state both walks come to the other state. -/
def Together (frame₁ frame₂ : Bytes) (s s' : Nat × CdpTlvs) : Prop :=
  ∃ n, n + s.1 ≤ s'.1 ∧ ∀ fuel, (loop (cdpTlv frame₁) (fuel + n) s : Outcome Unit _) = loop (cdpTlv frame₁) fuel s' ∧
    (loop (cdpTlv frame₂) (fuel + n) s : Outcome Unit _) = loop (cdpTlv frame₂) fuel s'

theorem Together.refl (s : Nat × CdpTlvs) : Together frame₁ frame₂ s s := ⟨0, by omega, fun _ => ⟨rfl, rfl⟩⟩

theorem Together.trans {s s' s'' : Nat × CdpTlvs} (h : Together frame₁ frame₂ s s')
    (h' : Together frame₁ frame₂ s' s'') :
    Together frame₁ frame₂ s s'' := by
  obtain ⟨n, hn, hloop⟩ := h
  obtain ⟨m, hm, hloop'⟩ := h'
  refine ⟨m + n, by omega, fun fuel => ?_⟩
  rw [← Nat.add_assoc]
  exact ⟨(hloop (fuel + m)).1.trans (hloop' fuel).1, (hloop (fuel + m)).2.trans (hloop' fuel).2⟩

/-- A record in the part on which two frames agree is read by both walks alike. -/
theorem Together.step {N : Nat} (hagree : frame₁.take N = frame₂.take N) (hN₁ : N ≤ frame₁.length)
    (hN₂ : N ≤ frame₂.length) (h₀ : frame₁[offset]? = some a) (h₁ : frame₁[offset + 1]? = some b)
    (h₂ : frame₁[offset + 2]? = some hi) (h₃ : frame₁[offset + 3]? = some lo) (hfour : 4 ≤ (word hi lo).toNat)
    (hfits : offset + (word hi lo).toNat ≤ N) (t : CdpTlvs) :
    ∃ t', Together frame₁ frame₂ (offset, t) (offset + (word hi lo).toNat, t') ∧
      (t.deviceId.isSome = true ∨ (word a b).toNat = 1 → t'.deviceId.isSome = true) ∧
      (t.portId.isSome = true ∨ (word a b).toNat = 3 → t'.portId.isSome = true) := by
  have hget : ∀ k < N, frame₂[k]? = frame₁[k]? := by
    intro k hk
    have := congrArg (·[k]?) hagree
    simp only [List.getElem?_take, if_pos hk] at this
    exact this.symm
  have hvalue : (frame₂.drop (offset + 4)).take ((word hi lo).toNat - 4) =
      (frame₁.drop (offset + 4)).take ((word hi lo).toNat - 4) := by
    have hcut : ∀ l : Bytes, (l.drop (offset + 4)).take ((word hi lo).toNat - 4) =
        ((l.take N).drop (offset + 4)).take ((word hi lo).toNat - 4) := by
      intro l
      rw [List.drop_take, List.take_take, Nat.min_eq_left (by omega)]
    rw [hcut, hcut frame₁, hagree]
  have hstep₁ := cdpTlv_step h₀ h₁ h₂ h₃ hfour (by omega) t
  have hstep₂ := cdpTlv_step ((hget offset (by omega)).trans h₀) ((hget (offset + 1) (by omega)).trans h₁)
    ((hget (offset + 2) (by omega)).trans h₂) ((hget (offset + 3) (by omega)).trans h₃) hfour (by omega) t
  rw [hvalue] at hstep₂
  obtain ⟨more, hmore⟩ := CdpTlvs.read_spec (word a b) ((frame₁.drop (offset + 4)).take ((word hi lo).toNat - 4))
  obtain ⟨t', ht', -, hdevice, hport⟩ := hmore t
  rw [ht', ok_bind] at hstep₁ hstep₂
  refine ⟨t', ⟨1, by dsimp only; omega, fun fuel => ?_⟩, hdevice, hport⟩
  rw [loop, hstep₁, loop, hstep₂]
  exact ⟨rfl, rfl⟩

/-- Two readings that both name a device and a port; the second lists two capabilities more. -/
structure CdpTlvs.Ahead (t₁ t₂ : CdpTlvs) : Prop where
  device₁ : t₁.deviceId.isSome = true
  device₂ : t₂.deviceId.isSome = true
  port₁ : t₁.portId.isSome = true
  port₂ : t₂.portId.isSome = true
  more : t₂.capabilities.length = t₁.capabilities.length + 2

/-- Walks over the same bytes keep their distance. -/
theorem CdpTlvs.Ahead.loop {fuel₁ fuel₂ : Nat} {t₁ t₂ : CdpTlvs} (hlen : frame₁.length = frame₂.length)
    (hdrop : frame₁.drop offset = frame₂.drop offset) (hfuel₁ : frame₁.length - offset < fuel₁)
    (hfuel₂ : frame₁.length - offset < fuel₂) (h : CdpTlvs.Ahead t₁ t₂) :
    ∃ t₁' t₂', (Outcome.loop (cdpTlv frame₁) fuel₁ (offset, t₁) : Outcome Unit _) = .ok t₁' ∧
      (Outcome.loop (cdpTlv frame₂) fuel₂ (offset, t₂) : Outcome Unit _) = .ok t₂' ∧ CdpTlvs.Ahead t₁' t₂' := by
  induction fuel₁ generalizing fuel₂ offset t₁ t₂ with
  | zero => omega
  | succ fuel₁ ih =>
    obtain ⟨fuel₂, rfl⟩ : ∃ k, fuel₂ = k + 1 := ⟨fuel₂ - 1, by omega⟩
    rw [Outcome.loop, Outcome.loop]
    by_cases hin : offset + 4 ≤ frame₁.length
    case neg =>
      rw [cdpTlv, if_neg hin, cdpTlv, if_neg (by omega)]
      exact ⟨t₁, t₂, rfl, rfl, h⟩
    have hget : ∀ k, offset ≤ k → frame₂[k]? = frame₁[k]? := by
      intro k hk
      have := congrArg (·[k - offset]?) hdrop
      simp only [List.getElem?_drop, Nat.add_sub_cancel' hk] at this
      exact this.symm
    obtain ⟨a, h₀⟩ : ∃ a, frame₁[offset]? = some a := ⟨_, List.getElem?_eq_getElem (by omega)⟩
    obtain ⟨b, h₁⟩ : ∃ a, frame₁[offset + 1]? = some a := ⟨_, List.getElem?_eq_getElem (by omega)⟩
    obtain ⟨hi, h₂⟩ : ∃ a, frame₁[offset + 2]? = some a := ⟨_, List.getElem?_eq_getElem (by omega)⟩
    obtain ⟨lo, h₃⟩ : ∃ a, frame₁[offset + 3]? = some a := ⟨_, List.getElem?_eq_getElem (by omega)⟩
    have h₀' := (hget offset (by omega)).trans h₀
    have h₁' := (hget (offset + 1) (by omega)).trans h₁
    have h₂' := (hget (offset + 2) (by omega)).trans h₂
    have h₃' := (hget (offset + 3) (by omega)).trans h₃
    by_cases hends : (word hi lo).toNat < 4 ∨ frame₁.length < offset + (word hi lo).toNat
    case pos =>
      have hend : ∀ {F : Bytes} (t : CdpTlvs), F.length = frame₁.length → F[offset]? = some a →
          F[offset + 1]? = some b → F[offset + 2]? = some hi → F[offset + 3]? = some lo →
          (cdpTlv F (offset, t) : Outcome Unit _) = .ok (.done t) := by
        intro F t hF g₀ g₁ g₂ g₃
        rw [cdpTlv, if_pos (by omega), u16At_of_getElem? g₀ g₁, ok_bind, u16At_of_getElem? g₂ g₃, ok_bind]
        dsimp only
        rw [if_pos (by omega)]
        rfl
      rw [hend t₁ rfl h₀ h₁ h₂ h₃, hend t₂ hlen.symm h₀' h₁' h₂' h₃']
      exact ⟨t₁, t₂, rfl, rfl, h⟩
    have hvalue : frame₂.drop (offset + 4) = frame₁.drop (offset + 4) := by
      rw [← List.drop_drop, ← hdrop, List.drop_drop]
    have hnext : frame₁.drop (offset + (word hi lo).toNat) = frame₂.drop (offset + (word hi lo).toNat) := by
      rw [← List.drop_drop, hdrop, List.drop_drop]
    obtain ⟨more, hmore⟩ := CdpTlvs.read_spec (word a b) ((frame₁.drop (offset + 4)).take ((word hi lo).toNat - 4))
    obtain ⟨t₁', ht₁', hcaps₁, hdevice₁, hport₁⟩ := hmore t₁
    obtain ⟨t₂', ht₂', hcaps₂, hdevice₂, hport₂⟩ := hmore t₂
    rw [cdpTlv_step h₀ h₁ h₂ h₃ (by omega) (by omega), cdpTlv_step h₀' h₁' h₂' h₃' (by omega) (by omega), hvalue,
      ht₁', ht₂']
    refine ih hnext (by omega) (by omega)
      ⟨hdevice₁ (.inl h.device₁), hdevice₂ (.inl h.device₂), hport₁ (.inl h.port₁), hport₂ (.inl h.port₂), ?_⟩
    have := h.more
    rw [hcaps₁, hcaps₂, List.length_append, List.length_append]
    omega

end Cdp

/-! ## The bytes of tagged frames -/

section Bytes

variable {tags : List Tag} {f : Bytes}

theorem length_bytes (tag : Tag) : tag.bytes.length = 4 := by
  rw [Tag.bytes, List.length_append, length_beBytes, length_beBytes]

theorem length_flatMap_bytes (tags : List Tag) : (tags.flatMap Tag.bytes).length = 4 * tags.length := by
  induction tags with
  | nil => rfl
  | cons tag tags ih =>
    rw [List.flatMap_cons, List.length_append, length_bytes, ih, List.length_cons]
    omega

theorem getElem?_flatMap_bytes {tag : Tag} {q r : Nat} (h : tags[q]? = some tag) (hr : r < 4) :
    (tags.flatMap Tag.bytes)[4 * q + r]? = tag.bytes[r]? := by
  induction tags generalizing q with
  | nil => cases h
  | cons head tags ih =>
    have hlen := length_bytes head
    rw [List.flatMap_cons]
    cases q with
    | zero =>
      obtain rfl : head = tag := by simpa using h
      rw [List.getElem?_append_left (by omega), Nat.mul_zero, Nat.zero_add]
    | succ q =>
      rw [List.getElem?_append_right (by omega), hlen, show 4 * (q + 1) + r - 4 = 4 * q + r by omega]
      exact ih (by simpa using h)

theorem length_insertTags_eq (h : 12 ≤ f.length) : (insertTags tags f).length = f.length + 4 * tags.length := by
  unfold insertTags
  rw [List.length_append, List.length_append, List.length_take_of_le h, length_flatMap_bytes, List.length_drop]
  omega

/-- The addresses stand in front of the tags. -/
theorem getElem?_insertTags_addresses {k : Nat} (h : 12 ≤ f.length) (hk : k < 12) :
    (insertTags tags f)[k]? = f[k]? := by
  unfold insertTags
  rw [List.append_assoc, List.getElem?_append_left (by rw [List.length_take_of_le h]; exact hk), List.getElem?_take,
    if_pos hk]

theorem getElem?_insertTags_tags {tag : Tag} {q r : Nat} (h : 12 ≤ f.length) (htag : tags[q]? = some tag)
    (hr : r < 4) :
    (insertTags tags f)[12 + 4 * q + r]? = tag.bytes[r]? := by
  have hq : q < tags.length := (List.getElem?_eq_some_iff.mp htag).1
  have hlen := length_flatMap_bytes tags
  unfold insertTags
  rw [List.append_assoc, List.getElem?_append_right (by rw [List.length_take_of_le h]; omega),
    List.length_take_of_le h, List.getElem?_append_left (by omega),
    show 12 + 4 * q + r - 12 = 4 * q + r by omega, getElem?_flatMap_bytes htag hr]

/-- Behind its tags a tagged frame is the frame. -/
theorem drop_insertTags_tags (h : 12 ≤ f.length) (k : Nat) :
    (insertTags tags f).drop (12 + 4 * tags.length + k) = f.drop (12 + k) := by
  have hfront : (f.take 12 ++ tags.flatMap Tag.bytes).length = 12 + 4 * tags.length := by
    rw [List.length_append, List.length_take_of_le h, length_flatMap_bytes]
  unfold insertTags
  rw [← hfront, List.drop_length_add_append, List.drop_drop]

end Bytes

/-! ## The trap -/

/-- A tag whose bytes lead every walk to the middle of a tag: read as a record from any of its bytes, it is of a type
that says nothing, and as long as it takes. -/
def filler : Tag := ⟨.dot1Q, 0x0707, by decide⟩

/-- The tags of the trap at place `i`: in the middle of a tag a device, then a port, then capabilities, and between
them fillers, each record as long as the type of a tag says, 8256 tags. The capabilities are read from a filler's
control information and from the type of the tag behind it. -/
def trapTag (i : Nat) (type : TagType) (q : Nat) : Tag :=
  if q = i then ⟨.dot1Q, 1, by decide⟩
  else if q = i + 8256 then ⟨.dot1Q, 3, by decide⟩
  else if q = i + 16512 then ⟨.dot1Q, 4, by decide⟩
  else if q = i + 16514 then ⟨type, 0x0707, by decide⟩
  else filler

def trap (i : Nat) (type : TagType) : List Tag := (List.range (i + 24768)).map (trapTag i type)

theorem length_trap (i : Nat) (type : TagType) : (trap i type).length = i + 24768 := by
  rw [trap, List.length_map, List.length_range]

theorem getElem?_trap {i q : Nat} {type : TagType} (h : q < i + 24768) :
    (trap i type)[q]? = some (trapTag i type q) := by
  rw [trap, List.getElem?_map, List.getElem?_range h]
  rfl

/-- Where a walk that starts at `offset` in fillers comes to the middle of a tag. -/
def settle (offset : Nat) : Nat :=
  match offset % 4 with
  | 0 => offset + 1806
  | 1 => offset + 1921
  | 2 => offset
  | _ => offset + 7

theorem le_settle (offset : Nat) : offset ≤ settle offset := by
  unfold settle
  split <;> omega

theorem settle_mod (offset : Nat) : settle offset % 4 = 2 := by
  unfold settle
  split
  case h_1 h => omega
  case h_2 h => omega
  case h_3 h => exact h
  case h_4 h₀ h₁ h₂ =>
    have hr : offset % 4 ≠ 0 ∧ offset % 4 ≠ 1 ∧ offset % 4 ≠ 2 := ⟨h₀, h₁, h₂⟩
    omega

/-- Where a walk from the fifth byte leaves the addresses: `l` and `m` are the lengths it reads in the source address,
whose last byte is `last`. -/
def leave (l m : Nat) (last : UInt8) : Nat :=
  if l = 4 then 8 + m
  else if l = 5 then 9 + (word last 0x81).toNat
  else if l = 6 then 10 + (word 0x81 0x00).toNat
  else if l = 7 then 11 + (word 0x00 0x07).toNat
  else 4 + l

/-- The byte of a filler at place `j`. -/
def fillByte (j : Nat) : UInt8 :=
  match j % 4 with
  | 0 => 0x81
  | 1 => 0x00
  | _ => 0x07

section Trap

variable {f : Bytes} {i : Nat} {type : TagType}

/-- Up to the middle of the tag at its place the trap is made of fillers. -/
theorem getElem?_trap_fill (hf : 14 ≤ f.length) {j : Nat} (hj : j < 4 * i + 2) :
    (insertTags (trap i type) f)[12 + j]? = some (fillByte j) := by
  have hq : j / 4 < i + 24768 := by omega
  have hget := getElem?_insertTags_tags (f := f) (by omega) (@getElem?_trap i _ type hq) (Nat.mod_lt j (by decide))
  rw [show 12 + 4 * (j / 4) + j % 4 = 12 + j by omega] at hget
  rw [hget]
  unfold trapTag fillByte
  by_cases hlast : j / 4 = i
  · rw [if_pos hlast]
    have hr : j % 4 = 0 ∨ j % 4 = 1 := by omega
    obtain hr | hr := hr
    · rw [hr]; rfl
    · rw [hr]; rfl
  · rw [if_neg hlast, if_neg (by omega), if_neg (by omega), if_neg (by omega)]
    have hr : j % 4 = 0 ∨ j % 4 = 1 ∨ j % 4 = 2 ∨ j % 4 = 3 := by omega
    obtain hr | hr | hr | hr := hr
    · rw [hr]; rfl
    · rw [hr]; rfl
    · rw [hr]; rfl
    · rw [hr]; rfl

/-- Two traps agree up to the tag whose type is read as capabilities. -/
theorem take_trap (hf : 14 ≤ f.length) : (insertTags (trap i .dot1Q) f).take (12 + 4 * (i + 16514)) =
    (insertTags (trap i .dot1ad) f).take (12 + 4 * (i + 16514)) := by
  refine List.ext_getElem? fun k => ?_
  rw [List.getElem?_take, List.getElem?_take]
  split
  case isFalse => rfl
  case isTrue hk =>
    by_cases haddr : k < 12
    · rw [getElem?_insertTags_addresses (by omega) haddr, getElem?_insertTags_addresses (by omega) haddr]
    · have hq : (k - 12) / 4 < i + 24768 := by omega
      have hr : (k - 12) % 4 < 4 := Nat.mod_lt _ (by decide)
      have hsame : trapTag i .dot1Q ((k - 12) / 4) = trapTag i .dot1ad ((k - 12) / 4) := by
        unfold trapTag
        rw [if_neg (show ¬ (k - 12) / 4 = i + 16514 by omega), if_neg (show ¬ (k - 12) / 4 = i + 16514 by omega)]
      have h₁ := getElem?_insertTags_tags (f := f) (by omega) (@getElem?_trap i _ .dot1Q hq) hr
      have h₂ := getElem?_insertTags_tags (f := f) (by omega) (@getElem?_trap i _ .dot1ad hq) hr
      rw [show 12 + 4 * ((k - 12) / 4) + (k - 12) % 4 = k by omega] at h₁ h₂
      rw [h₁, h₂, hsame]

theorem length_insertTags_trap (hf : 14 ≤ f.length) :
    (insertTags (trap i type) f).length = f.length + 4 * (i + 24768) := by
  rw [length_insertTags_eq (by omega), length_trap]

/-- A record that starts in the fillers in front of the trap: its length is where in a tag it starts. -/
theorem together_fill (hf : 14 ≤ f.length) {offset r len : Nat} (hoffset : 12 ≤ offset) (hr : offset % 4 = r)
    (hlen : (word (fillByte (r + 2)) (fillByte (r + 3))).toNat = len) (hfour : 4 ≤ len)
    (hfits : offset + len ≤ 14 + 4 * i)
    (t : CdpTlvs) : ∃ t', Together (insertTags (trap i .dot1Q) f) (insertTags (trap i .dot1ad) f) (offset, t)
      (offset + len, t') := by
  have hbyte : ∀ k, k ≤ 3 → (insertTags (trap i .dot1Q) f)[offset + k]? = some (fillByte (r + k)) := by
    intro k hk
    have hget := @getElem?_trap_fill f i .dot1Q hf (offset - 12 + k) (by omega)
    have hsame : fillByte (offset - 12 + k) = fillByte (r + k) := by
      unfold fillByte
      rw [show (offset - 12 + k) % 4 = (r + k) % 4 by omega]
    rw [show 12 + (offset - 12 + k) = offset + k by omega, hsame] at hget
    exact hget
  have hlength₁ := @length_insertTags_trap f i .dot1Q hf
  have hlength₂ := @length_insertTags_trap f i .dot1ad hf
  subst hlen
  obtain ⟨t', htogether, -⟩ := Together.step (take_trap hf) (by omega) (by omega) (hbyte 0 (by omega))
    (hbyte 1 (by omega))
    (hbyte 2 (by omega)) (hbyte 3 (by omega)) hfour (by omega) t
  exact ⟨t', htogether⟩

/-- A walk in the fillers comes to the trap. -/
theorem together_settle (hf : 14 ≤ f.length) {offset : Nat} (hoffset : 12 ≤ offset)
    (hsettle : settle offset = 14 + 4 * i)
    (t : CdpTlvs) : ∃ t', Together (insertTags (trap i .dot1Q) f) (insertTags (trap i .dot1ad) f) (offset, t)
      (14 + 4 * i, t') := by
  unfold settle at hsettle
  split at hsettle
  case h_1 hr =>
    obtain ⟨t₁, h₁⟩ := together_fill (i := i) hf hoffset hr (show _ = 1799 by decide) (by omega) (by omega) t
    obtain ⟨t₂, h₂⟩ := together_fill (i := i) hf (show 12 ≤ offset + 1799 by omega) (show _ = 3 by omega)
      (show _ = 7 by decide)
      (by omega) (by omega) t₁
    rw [show offset + 1799 + 7 = 14 + 4 * i by omega] at h₂
    exact ⟨t₂, h₁.trans h₂⟩
  case h_2 hr =>
    obtain ⟨t₁, h₁⟩ := together_fill (i := i) hf hoffset hr (show _ = 1921 by decide) (by omega) (by omega) t
    rw [hsettle] at h₁
    exact ⟨t₁, h₁⟩
  case h_3 hr =>
    rw [hsettle]
    exact ⟨t, .refl _⟩
  case h_4 hr₀ hr₁ hr₂ =>
    obtain ⟨t₁, h₁⟩ := together_fill (i := i) hf hoffset (show _ = 3 by omega) (show _ = 7 by decide) (by omega)
      (by omega) t
    rw [hsettle] at h₁
    exact ⟨t₁, h₁⟩

/-- A record that starts in the addresses and ends in front of the trap. -/
theorem together_address (hf : 14 ≤ f.length) {offset : Nat} {a b hi lo : UInt8}
    (h₀ : (insertTags (trap i .dot1Q) f)[offset]? = some a)
    (h₁ : (insertTags (trap i .dot1Q) f)[offset + 1]? = some b)
    (h₂ : (insertTags (trap i .dot1Q) f)[offset + 2]? = some hi)
    (h₃ : (insertTags (trap i .dot1Q) f)[offset + 3]? = some lo)
    (hfour : 4 ≤ (word hi lo).toNat) (hfits : offset + (word hi lo).toNat ≤ 14 + 4 * i) (t : CdpTlvs) :
    ∃ t', Together (insertTags (trap i .dot1Q) f) (insertTags (trap i .dot1ad) f) (offset, t)
      (offset + (word hi lo).toNat, t') := by
  have hlength₁ := @length_insertTags_trap f i .dot1Q hf
  have hlength₂ := @length_insertTags_trap f i .dot1ad hf
  obtain ⟨t', htogether, -⟩ := Together.step (take_trap hf) (by omega) (by omega) h₀ h₁ h₂ h₃ hfour (by omega) t
  exact ⟨t', htogether⟩

/-- A walk from the fifth byte leaves the addresses, unless a record there is shorter than its own header. -/
theorem together_leave (hf : 14 ≤ f.length) {a b s₀ s₁ s₂ s₃ s₄ s₅ : UInt8} (h₄ : f[4]? = some a)
    (h₅ : f[5]? = some b)
    (h₆ : f[6]? = some s₀) (h₇ : f[7]? = some s₁) (h₈ : f[8]? = some s₂) (h₉ : f[9]? = some s₃)
    (h₁₀ : f[10]? = some s₄)
    (h₁₁ : f[11]? = some s₅) (hl : 4 ≤ (word s₀ s₁).toNat) (hm : (word s₀ s₁).toNat = 4 → 4 ≤ (word s₄ s₅).toNat)
    (hleave : leave (word s₀ s₁).toNat (word s₄ s₅).toNat s₅ ≤ 14 + 4 * i) :
    ∃ t, Together (insertTags (trap i .dot1Q) f) (insertTags (trap i .dot1ad) f) (4, {})
      (leave (word s₀ s₁).toNat (word s₄ s₅).toNat s₅, t) := by
  have haddr : ∀ {k : Nat}, k < 12 → (insertTags (trap i .dot1Q) f)[k]? = f[k]? :=
    fun hk => getElem?_insertTags_addresses (by omega) hk
  have hfill : ∀ {j : Nat}, j < 4 * i + 2 → (insertTags (trap i .dot1Q) f)[12 + j]? = some (fillByte j) :=
    fun hj => getElem?_trap_fill hf hj
  have hfirst : 4 + (word s₀ s₁).toNat ≤ 14 + 4 * i → ∃ t, Together (insertTags (trap i .dot1Q) f)
      (insertTags (trap i .dot1ad) f) (4, {}) (4 + (word s₀ s₁).toNat, t) :=
    fun hfits => together_address hf ((haddr (by omega)).trans h₄) ((haddr (by omega)).trans h₅)
      ((haddr (by omega)).trans h₆) ((haddr (by omega)).trans h₇) hl hfits {}
  unfold leave at hleave ⊢
  split at hleave
  case isTrue h =>
    rw [if_pos h]
    have := hm h
    obtain ⟨t₁, ht₁⟩ := hfirst (by omega)
    rw [h] at ht₁
    obtain ⟨t₂, ht₂⟩ := together_address hf ((haddr (by omega)).trans h₈) ((haddr (by omega)).trans h₉)
      ((haddr (by omega)).trans h₁₀) ((haddr (by omega)).trans h₁₁) (hm h) hleave t₁
    exact ⟨t₂, ht₁.trans ht₂⟩
  rename_i hne₄
  rw [if_neg hne₄]
  split at hleave
  case isTrue h =>
    rw [if_pos h]
    have hword : 4 ≤ (word s₅ 0x81).toNat := by
      rw [toNat_word, show (0x81 : UInt8).toNat = 129 from rfl]
      omega
    obtain ⟨t₁, ht₁⟩ := hfirst (by omega)
    rw [h] at ht₁
    obtain ⟨t₂, ht₂⟩ := together_address hf ((haddr (by omega)).trans h₉) ((haddr (by omega)).trans h₁₀)
      ((haddr (by omega)).trans h₁₁) (hfill (show 0 < 4 * i + 2 by omega)) hword hleave t₁
    exact ⟨t₂, ht₁.trans ht₂⟩
  rename_i hne₅
  rw [if_neg hne₅]
  split at hleave
  case isTrue h =>
    rw [if_pos h]
    obtain ⟨t₁, ht₁⟩ := hfirst (by omega)
    rw [h] at ht₁
    obtain ⟨t₂, ht₂⟩ := together_address hf ((haddr (by omega)).trans h₁₀) ((haddr (by omega)).trans h₁₁)
      (hfill (show 0 < 4 * i + 2 by omega)) (hfill (show 1 < 4 * i + 2 by omega)) (by decide) hleave t₁
    exact ⟨t₂, ht₁.trans ht₂⟩
  rename_i hne₆
  rw [if_neg hne₆]
  split at hleave
  case isTrue h =>
    rw [if_pos h]
    have hword : (word 0x00 0x07).toNat = 7 := by decide
    obtain ⟨t₁, ht₁⟩ := hfirst (by omega)
    rw [h] at ht₁
    obtain ⟨t₂, ht₂⟩ := together_address hf ((haddr (by omega)).trans h₁₁) (hfill (show 0 < 4 * i + 2 by omega))
      (hfill (show 1 < 4 * i + 2 by omega)) (hfill (show 2 < 4 * i + 2 by omega)) (by decide) hleave t₁
    exact ⟨t₂, ht₁.trans ht₂⟩
  rename_i hne₇
  rw [if_neg hne₇]
  exact hfirst hleave

/-- A byte of the trap, by the tag it belongs to. -/
theorem getElem?_trapTag (hf : 14 ≤ f.length) {tag : Tag} {b : UInt8} {k : Nat} (q r : Nat)
    (htag : trapTag i type q = tag) (hbyte : tag.bytes[r]? = some b) (hk : k = 12 + 4 * q + r) (hq : q < i + 24768)
    (hr : r < 4) : (insertTags (trap i type) f)[k]? = some b := by
  rw [hk, ← hbyte, ← htag]
  exact getElem?_insertTags_tags (by omega) (getElem?_trap hq) hr

/-- A tag's type never starts like the control byte of a SNAP header. -/
theorem getElem?_type_bytes (tag : Tag) : ∃ b, tag.bytes[0]? = some b ∧ b ≠ 0x03 := by
  have hbytes : ∀ type : TagType, ∃ hi lo, beBytes 2 type.ethertype.toNat = [hi, lo] ∧ hi ≠ 0x03 := by
    intro type
    cases type with
    | dot1Q => exact ⟨0x81, 0x00, rfl, by decide⟩
    | dot1ad => exact ⟨0x88, 0xA8, rfl, by decide⟩
    | qinqLegacy => exact ⟨0x91, 0x00, rfl, by decide⟩
  obtain ⟨hi, lo, heq, hne⟩ := hbytes tag.type
  exact ⟨hi, by rw [Tag.bytes, heq]; rfl, hne⟩

theorem trapTag_of_filler {q : Nat} (h₀ : q ≠ i) (h₁ : q ≠ i + 8256) (h₂ : q ≠ i + 16512) (h₃ : q ≠ i + 16514) :
    trapTag i type q = filler := by
  unfold trapTag
  rw [if_neg h₀, if_neg h₁, if_neg h₂, if_neg h₃]

/-- The capabilities record of the trap: what it adds is read from the type of a tag. -/
theorem cdpTlv_capabilities (hf : 14 ≤ f.length) (t : CdpTlvs) :
    (cdpTlv (insertTags (trap i type) f) (14 + 4 * (i + 16512), t) : Outcome Unit _) =
      .ok (.next (14 + 4 * (i + 24768), { t with
        capabilities := t.capabilities ++
          cdpCapabilities (UInt32.ofNat (beNat ([0x07, 0x07] ++ beBytes 2 type.ethertype.toNat))) })) := by
  have hlength := @length_insertTags_trap f i type hf
  obtain ⟨hi, lo, hbytes, -⟩ := beBytes_two type.ethertype
  have hcaps : trapTag i type (i + 16512) = ⟨.dot1Q, 4, by decide⟩ := by
    unfold trapTag
    rw [if_neg (by omega), if_neg (by omega), if_pos rfl]
  have htype : trapTag i type (i + 16514) = ⟨type, 0x0707, by decide⟩ := by
    unfold trapTag
    rw [if_neg (by omega), if_neg (by omega), if_neg (by omega), if_pos rfl]
  have hfill := @trapTag_of_filler i type (i + 16513) (by omega) (by omega) (by omega) (by omega)
  have hlen : (word 0x81 0x00).toNat = 33024 := by decide
  have h₀ : (insertTags (trap i type) f)[14 + 4 * (i + 16512)]? = some 0x00 :=
    getElem?_trapTag hf (i + 16512) 2 hcaps rfl (by omega) (by omega) (by omega)
  have h₁ : (insertTags (trap i type) f)[14 + 4 * (i + 16512) + 1]? = some 0x04 :=
    getElem?_trapTag hf (i + 16512) 3 hcaps rfl (by omega) (by omega) (by omega)
  have h₂ : (insertTags (trap i type) f)[14 + 4 * (i + 16512) + 2]? = some 0x81 :=
    getElem?_trapTag hf (i + 16513) 0 hfill rfl (by omega) (by omega) (by omega)
  have h₃ : (insertTags (trap i type) f)[14 + 4 * (i + 16512) + 3]? = some 0x00 :=
    getElem?_trapTag hf (i + 16513) 1 hfill rfl (by omega) (by omega) (by omega)
  have h₄ : (insertTags (trap i type) f)[14 + 4 * (i + 16512) + 4 + 0]? = some 0x07 :=
    getElem?_trapTag hf (i + 16513) 2 hfill rfl (by omega) (by omega) (by omega)
  have h₅ : (insertTags (trap i type) f)[14 + 4 * (i + 16512) + 4 + 1]? = some 0x07 :=
    getElem?_trapTag hf (i + 16513) 3 hfill rfl (by omega) (by omega) (by omega)
  have h₆ : (insertTags (trap i type) f)[14 + 4 * (i + 16512) + 4 + 2]? = some hi :=
    getElem?_trapTag hf (i + 16514) 0 htype (by rw [Tag.bytes, hbytes]; rfl) (by omega) (by omega) (by omega)
  have h₇ : (insertTags (trap i type) f)[14 + 4 * (i + 16512) + 4 + 3]? = some lo :=
    getElem?_trapTag hf (i + 16514) 1 htype (by rw [Tag.bytes, hbytes]; rfl) (by omega) (by omega) (by omega)
  have hstep := cdpTlv_step h₀ h₁ h₂ h₃ (by omega) (by omega) t
  rw [hlen] at hstep
  -- the value starts with a filler's control information and the type of the next tag
  have hvalue : ∀ {k : Nat} {b : UInt8}, k < 4 → (insertTags (trap i type) f)[14 + 4 * (i + 16512) + 4 + k]? =
      some b → (((insertTags (trap i type) f).drop (14 + 4 * (i + 16512) + 4)).take (33024 - 4))[k]? = some b := by
    intro k b hk hb
    rw [List.getElem?_take, if_pos (by omega), List.getElem?_drop, hb]
  have hread : ∀ {value : Bytes} {a b c d : UInt8}, value[0]? = some a → value[1]? = some b → value[2]? = some c →
      value[3]? = some d → (t.read (word 0x00 0x04) value : Outcome Unit _) = .ok { t with
        capabilities := t.capabilities ++ cdpCapabilities (UInt32.ofNat (beNat [a, b, c, d])) } := by
    intro value a b c d g₀ g₁ g₂ g₃
    have hfour : 4 ≤ value.length := (List.getElem?_eq_some_iff.mp g₃).1
    unfold CdpTlvs.read
    rw [show (word 0x00 0x04).toNat = 4 by decide]
    show (if 4 ≤ value.length then do
        let caps ← u32At value 0
        return { t with capabilities := t.capabilities ++ cdpCapabilities caps }
      else .ok t : Outcome Unit _) = _
    rw [if_pos hfour, u32At_of_getElem? g₀ g₁ g₂ g₃, ok_bind]
    rfl
  rw [hstep, hread (hvalue (by omega) h₄) (hvalue (by omega) h₅) (hvalue (by omega) h₆) (hvalue (by omega) h₇),
    hbytes, show 14 + 4 * (i + 24768) = 14 + 4 * (i + 16512) + 33024 by omega]
  rfl

/-- A record of the trap in front of the capabilities, read from the middle of tag `q`. -/
theorem together_record (hf : 14 ≤ f.length) {q : Nat} {kind : UInt8}
    (h₀ : (trapTag i .dot1Q q).bytes[2]? = some 0x00)
    (h₁ : (trapTag i .dot1Q q).bytes[3]? = some kind) (hnext : trapTag i .dot1Q (q + 1) = filler) (hq : q ≤ i + 8256)
    (t : CdpTlvs) :
    ∃ t', Together (insertTags (trap i .dot1Q) f) (insertTags (trap i .dot1ad) f) (14 + 4 * q, t)
      (14 + 4 * (q + 8256), t') ∧ (t.deviceId.isSome = true ∨ (word 0x00 kind).toNat = 1 →
        t'.deviceId.isSome = true) ∧
      (t.portId.isSome = true ∨ (word 0x00 kind).toNat = 3 → t'.portId.isSome = true) := by
  have hlength₁ := @length_insertTags_trap f i .dot1Q hf
  have hlength₂ := @length_insertTags_trap f i .dot1ad hf
  have hlen : (word 0x81 0x00).toNat = 33024 := by decide
  have g₀ : (insertTags (trap i .dot1Q) f)[14 + 4 * q]? = some 0x00 :=
    getElem?_trapTag hf q 2 rfl h₀ (by omega) (by omega) (by omega)
  have g₁ : (insertTags (trap i .dot1Q) f)[14 + 4 * q + 1]? = some kind :=
    getElem?_trapTag hf q 3 rfl h₁ (by omega) (by omega) (by omega)
  have g₂ : (insertTags (trap i .dot1Q) f)[14 + 4 * q + 2]? = some 0x81 :=
    getElem?_trapTag hf (q + 1) 0 hnext rfl (by omega) (by omega) (by omega)
  have g₃ : (insertTags (trap i .dot1Q) f)[14 + 4 * q + 3]? = some 0x00 :=
    getElem?_trapTag hf (q + 1) 1 hnext rfl (by omega) (by omega) (by omega)
  obtain ⟨t', htogether, hnamed⟩ := Together.step (take_trap hf) (by omega) (by omega) g₀ g₁ g₂ g₃ (by omega)
    (by omega) t
  rw [hlen, show 14 + 4 * q + 33024 = 14 + 4 * (q + 8256) by omega] at htogether
  exact ⟨t', htogether, hnamed⟩

/-- **Two walks from the fifth byte read different capabilities**, unless they end in the addresses. -/
theorem cdpWalks_ahead (hf : 14 ≤ f.length) {t : CdpTlvs}
    (h : Together (insertTags (trap i .dot1Q) f) (insertTags (trap i .dot1ad) f) (4, {}) (14 + 4 * i, t)) :
    ∃ t₁ t₂, (loop (cdpTlv (insertTags (trap i .dot1Q) f)) ((insertTags (trap i .dot1Q) f).length + 1) (4, {}) :
        Outcome Unit _) = .ok t₁ ∧
      (loop (cdpTlv (insertTags (trap i .dot1ad) f)) ((insertTags (trap i .dot1ad) f).length + 1) (4, {}) :
        Outcome Unit _) = .ok t₂ ∧ CdpTlvs.Ahead t₁ t₂ := by
  have hlength₁ := @length_insertTags_trap f i .dot1Q hf
  have hlength₂ := @length_insertTags_trap f i .dot1ad hf
  have hdevice : trapTag i .dot1Q i = ⟨.dot1Q, 1, by decide⟩ := if_pos rfl
  have hport : trapTag i .dot1Q (i + 8256) = ⟨.dot1Q, 3, by decide⟩ := by
    unfold trapTag
    rw [if_neg (by omega), if_pos rfl]
  obtain ⟨t₁, h₁, hd₁, -⟩ := together_record hf (show _ = some 0x00 by rw [hdevice]; rfl)
    (show _ = some 0x01 by rw [hdevice]; rfl)
    (trapTag_of_filler (by omega) (by omega) (by omega) (by omega)) (by omega) t
  obtain ⟨t₂, h₂, hd₂, hp₂⟩ := together_record hf (show _ = some 0x00 by rw [hport]; rfl)
    (show _ = some 0x03 by rw [hport]; rfl)
    (trapTag_of_filler (by omega) (by omega) (by omega) (by omega)) (by omega) t₁
  have hdevice₂ := hd₂ (.inl (hd₁ (.inr (by decide))))
  have hport₂ := hp₂ (.inr (by decide))
  rw [show i + 8256 + 8256 = i + 16512 by omega] at h₂
  obtain ⟨n, hn, hloop⟩ := (h.trans h₁).trans h₂
  dsimp only at hn
  have hstep₁ := @cdpTlv_capabilities f i .dot1Q hf t₂
  have hstep₂ := @cdpTlv_capabilities f i .dot1ad hf t₂
  have hwalk₁ := (hloop ((insertTags (trap i .dot1Q) f).length - n + 1)).1.trans (loop_next hstep₁ _)
  have hwalk₂ := (hloop ((insertTags (trap i .dot1ad) f).length - n + 1)).2.trans (loop_next hstep₂ _)
  rw [show (insertTags (trap i .dot1Q) f).length - n + 1 + n =
    (insertTags (trap i .dot1Q) f).length + 1 by omega] at hwalk₁
  rw [show (insertTags (trap i .dot1ad) f).length - n + 1 + n =
    (insertTags (trap i .dot1ad) f).length + 1 by omega] at hwalk₂
  rw [hwalk₁, hwalk₂]
  have hdrop : (insertTags (trap i .dot1Q) f).drop (14 + 4 * (i + 24768)) =
      (insertTags (trap i .dot1ad) f).drop (14 + 4 * (i + 24768)) := by
    have h₁ := @drop_insertTags_tags (trap i .dot1Q) f (by omega) 2
    have h₂ := @drop_insertTags_tags (trap i .dot1ad) f (by omega) 2
    rw [length_trap] at h₁ h₂
    rw [show 14 + 4 * (i + 24768) = 12 + 4 * (i + 24768) + 2 by omega, h₁, h₂]
  refine CdpTlvs.Ahead.loop (by omega) hdrop (by omega) (by omega) ⟨hdevice₂, hdevice₂, hport₂, hport₂, ?_⟩
  rw [List.length_append, List.length_append]
  have hnone : (cdpCapabilities (UInt32.ofNat (beNat ([0x07, 0x07] ++
    beBytes 2 TagType.dot1Q.ethertype.toNat)))).length = 0 := by
    decide
  have htwo : (cdpCapabilities (UInt32.ofNat (beNat ([0x07, 0x07] ++
    beBytes 2 TagType.dot1ad.ethertype.toNat)))).length = 2 := by
    decide
  omega

end Trap

/-! ## Two stacks -/

section Announced

variable {frame : Bytes}

/-- Without its SNAP header at the untagged place a frame is read from its first byte. -/
theorem cdpStart_eq_zero {k : Nat} {b : UInt8} (hk : k < 8) (hb : frame[14 + k]? = some b)
    (hsnap : [0xAA, 0xAA, 0x03, 0x00, 0x00, 0x0C, 0x20, 0x00][k]? ≠ some b) : (cdpStart frame : Outcome Unit _) =
    .ok 0 := by
  unfold cdpStart
  split
  case isFalse => rfl
  case isTrue hlen =>
    obtain ⟨destination, hdest, -⟩ := returns_slice (ε := Unit) (show 0 ≤ 6 by omega) (show 6 ≤ frame.length by omega)
    obtain ⟨snap, hslice, hvalue⟩ := returns_slice (ε := Unit) (show 14 ≤ 22 by omega) hlen
    have hget : snap[k]? = some b := by
      rw [hvalue, List.getElem?_take, if_pos hk, List.getElem?_drop, hb]
    have hne : snap ≠ [0xAA, 0xAA, 0x03, 0x00, 0x00, 0x0C, 0x20, 0x00] := by
      intro h
      rw [h] at hget
      exact hsnap hget
    rw [hdest, ok_bind, hslice, ok_bind, if_neg fun h => hne h.2]
    rfl

/-- A frame that starts with the byte 1 and is read from there is walked from its fifth byte. -/
theorem parseCdpFrame_eq (hstart : (cdpStart frame : Outcome Unit _) = .ok 0) (hlen : 4 ≤ frame.length)
    (hversion : frame[0]? = some 1) {t : CdpTlvs}
    (hwalk : (loop (cdpTlv frame) (frame.length + 1) (4, {}) : Outcome Unit _) = .ok t) :
    parseCdpFrame frame = match t.deviceId, t.portId with
      | some deviceId, some portId =>
        .ok { deviceId, portId, platform := t.platform, softwareVersion := t.softwareVersion, managementIp := t.managementIp,
              nativeVlan := t.nativeVlan, capabilities := t.capabilities }
      | _, _ => .err () := by
  have hindex : (index frame 0 : Outcome Unit _) = .ok 1 := by
    unfold index
    rw [hversion]
  unfold parseCdpFrame
  rw [require_of hlen, ok_bind, hstart, ok_bind, require_of (by omega), ok_bind, hindex, ok_bind,
    require_of (.inl rfl), ok_bind, Nat.zero_add, hwalk, ok_bind]
  rfl

/-- A walk that names a device and a port is an announcement with the capabilities it lists. -/
theorem parseLldpFrame_of_cdp (hstart : (cdpStart frame : Outcome Unit _) = .ok 0) (hlen : 22 ≤ frame.length)
    (hdest : frame.take 6 = cdpMulticastMac) {t : CdpTlvs}
    (hwalk : (loop (cdpTlv frame) (frame.length + 1) (4, {}) : Outcome Unit _) = .ok t)
    (hdevice : t.deviceId.isSome = true)
    (hport : t.portId.isSome = true) : ∃ n, parseLldpFrame frame = .ok n ∧ n.capabilities = t.capabilities := by
  have hversion : frame[0]? = some 1 := by
    have := congrArg (·[0]?) hdest
    simpa [cdpMulticastMac] using this
  obtain ⟨deviceId, hdeviceId⟩ := Option.isSome_iff_exists.mp hdevice
  obtain ⟨portId, hportId⟩ := Option.isSome_iff_exists.mp hport
  have hparse := parseCdpFrame_eq hstart (by omega) hversion hwalk
  rw [hdeviceId, hportId] at hparse
  have hslice : (slice frame 0 6 : Outcome Unit _) = .ok (frame.take 6) := by
    unfold slice
    rw [if_pos ⟨by omega, by omega⟩]
    rfl
  unfold parseLldpFrame cdpAnnounced
  rw [require_of (by omega), ok_bind, if_pos hlen, hslice, ok_bind, if_pos hdest, hparse]
  exact ⟨_, rfl, rfl⟩

/-- A frame to another address, or whose walk from the fifth byte ends in the addresses, is no CDP announcement. -/
theorem cdpAnnounced_eq_none (h : frame.take 6 ≠ cdpMulticastMac ∨ (cdpStart frame : Outcome Unit _) = .ok 0 ∧
      (loop (cdpTlv frame) (frame.length + 1) (4, {}) : Outcome Unit _) = .ok {}) :
    (cdpAnnounced frame : Outcome Unit _) = .ok none := by
  unfold cdpAnnounced
  split
  case isFalse => rfl
  case isTrue hlen =>
    have hslice : (slice frame 0 6 : Outcome Unit _) = .ok (frame.take 6) := by
      unfold slice
      rw [if_pos ⟨by omega, by omega⟩]
      rfl
    rw [hslice, ok_bind]
    split
    case isFalse => rfl
    case isTrue hdest =>
      obtain ⟨hstart, hwalk⟩ := h.resolve_left fun hne => hne hdest
      have hversion : frame[0]? = some 1 := by
        have := congrArg (·[0]?) hdest
        simpa [cdpMulticastMac] using this
      rw [parseCdpFrame_eq hstart (by omega) hversion hwalk]
      rfl

end Announced

/-- A tag whose control information reads as the end of an LLDPDU. -/
def endTag : Tag := ⟨.dot1Q, 5, by decide⟩

/-- Two tags that read as a chassis and a port. -/
def namedTags : List Tag := [⟨.dot1Q, 0x0202, by decide⟩, ⟨.dot1Q, 0x0402, by decide⟩]

/-- A frame whose walk from the fifth byte is none, or ends in the addresses: one stack announces nothing, another a
neighbour. -/
theorem parse_ne_of_short {f : Bytes} (hf : 14 ≤ f.length)
    (hcdp : ∀ tags : List Tag, (cdpStart (insertTags tags f) : Outcome Unit _) = .ok 0 →
      (cdpAnnounced (insertTags tags f) : Outcome Unit _) = .ok none) :
    parseLldpFrame (insertTags [endTag] f) ≠ parseLldpFrame (insertTags namedTags f) := by
  have hget : ∀ {tags : List Tag} {tag : Tag} {b : UInt8} (q r : Nat), tags[q]? = some tag → r < 4 →
      tag.bytes[r]? = some b → (insertTags tags f)[12 + 4 * q + r]? = some b :=
    fun q r htag hr hb => (getElem?_insertTags_tags (by omega) htag hr).trans hb
  have he₀ : (insertTags [endTag] f)[14]? = some 0x00 := hget 0 2 rfl (by decide) rfl
  have he₁ : (insertTags [endTag] f)[15]? = some 0x05 := hget 0 3 rfl (by decide) rfl
  have hn₀ : (insertTags namedTags f)[14]? = some 0x02 := hget 0 2 rfl (by decide) rfl
  have hn₁ : (insertTags namedTags f)[15]? = some 0x02 := hget 0 3 rfl (by decide) rfl
  have hn₂ : (insertTags namedTags f)[18]? = some 0x04 := hget 1 2 rfl (by decide) rfl
  have hn₃ : (insertTags namedTags f)[19]? = some 0x02 := hget 1 3 rfl (by decide) rfl
  have hlenEnd := @length_insertTags_eq [endTag] f (by omega)
  have hlenNamed := @length_insertTags_eq namedTags f (by omega)
  have hend := parseLldpFrame_of_end (by rw [hlenEnd]; omega)
    (hcdp _ (cdpStart_eq_zero (k := 0) (by decide) he₀ (by decide))) he₀ he₁ (by decide)
  obtain ⟨n, hnamed⟩ := parseLldpFrame_of_named
    (by rw [hlenNamed, namedTags]; simp only [List.length_cons, List.length_nil]; omega)
    (hcdp _ (cdpStart_eq_zero (k := 0) (by decide) hn₀ (by decide))) hn₀ hn₁ hn₂ hn₃
  rw [hend, hnamed]
  simp

/-- A frame handed over whole has an EtherType. -/
theorem length_of_handedWhole {f : Bytes} (h : HandedWhole f) : 14 ≤ f.length := by
  unfold HandedWhole at h
  match hinner : (untag (f.drop 12)).2, h with
  | some (ethertype, payload), _ =>
    obtain ⟨front, hfront, htwo, -⟩ := untag_front hinner
    have hlen := congrArg List.length hfront
    rw [List.length_drop, List.length_append] at hlen
    omega

/-- A walk from the fifth byte that ends in the addresses reads nothing. -/
theorem cdpWalk_of_short {f : Bytes} (hf : 14 ≤ f.length) (hdest : f.take 6 = cdpMulticastMac)
    {s₀ s₁ s₄ s₅ : UInt8} (h₆ : f[6]? = some s₀) (h₇ : f[7]? = some s₁) (h₁₀ : f[10]? = some s₄)
      (h₁₁ : f[11]? = some s₅)
    (hshort : (word s₀ s₁).toNat < 4 ∨ (word s₀ s₁).toNat = 4 ∧ (word s₄ s₅).toNat < 4) (tags : List Tag) :
    (loop (cdpTlv (insertTags tags f)) ((insertTags tags f).length + 1) (4, {}) : Outcome Unit _) = .ok {} := by
  have hlen := @length_insertTags_eq tags f (by omega)
  have haddr : ∀ {k : Nat}, k < 12 → (insertTags tags f)[k]? = f[k]? :=
    fun hk => getElem?_insertTags_addresses (by omega) hk
  have hgroup : ∀ {k : Nat}, k < 6 → f[k]? = cdpMulticastMac[k]? := by
    intro k hk
    rw [← hdest, List.getElem?_take, if_pos hk]
  obtain hlt | ⟨hfour, hlt⟩ := hshort
  · exact loop_cdpTlv_of_short ((haddr (by omega)).trans h₆) ((haddr (by omega)).trans h₇) hlt {}
  · have h₄ : (insertTags tags f)[4]? = some 0xCC := (haddr (by omega)).trans (hgroup (by omega))
    have h₅ : (insertTags tags f)[4 + 1]? = some 0xCC := (haddr (by omega)).trans (hgroup (by omega))
    have h₆' : (insertTags tags f)[4 + 2]? = some s₀ := (haddr (by omega)).trans h₆
    have h₇' : (insertTags tags f)[4 + 3]? = some s₁ := (haddr (by omega)).trans h₇
    have hstep := cdpTlv_step h₄ h₅ h₆' h₇' (by omega) (by omega) {}
    rw [hfour] at hstep
    rw [show (insertTags tags f).length + 1 = (insertTags tags f).length - 1 + 1 + 1 by omega, loop_next hstep]
    exact loop_cdpTlv_of_short ((haddr (by omega)).trans h₁₀) ((haddr (by omega)).trans h₁₁) hlt {}

/-- **Every frame handed over whole has two stacks under which different things are read.** -/
theorem exists_parse_ne {f : Bytes} (h : HandedWhole f) : ∃ tags₁ tags₂ : List Tag, tags₁ ≠ [] ∧ tags₂ ≠ [] ∧
    parseLldpFrame (insertTags tags₁ f) ≠ parseLldpFrame (insertTags tags₂ f) := by
  have hf := length_of_handedWhole h
  have hsmall : (∀ tags : List Tag, (cdpStart (insertTags tags f) : Outcome Unit _) = .ok 0 →
      (cdpAnnounced (insertTags tags f) : Outcome Unit _) = .ok none) →
      ∃ tags₁ tags₂ : List Tag, tags₁ ≠ [] ∧ tags₂ ≠ [] ∧
        parseLldpFrame (insertTags tags₁ f) ≠ parseLldpFrame (insertTags tags₂ f) :=
    fun hcdp => ⟨[endTag], namedTags, by simp, by simp [namedTags], parse_ne_of_short hf hcdp⟩
  by_cases hdest : f.take 6 = cdpMulticastMac
  case neg =>
    exact hsmall fun tags _ => cdpAnnounced_eq_none (.inl (by rw [destination_insertTags (by omega)]; exact hdest))
  obtain ⟨a, h₄⟩ : ∃ a, f[4]? = some a := ⟨_, List.getElem?_eq_getElem (by omega)⟩
  obtain ⟨b, h₅⟩ : ∃ a, f[5]? = some a := ⟨_, List.getElem?_eq_getElem (by omega)⟩
  obtain ⟨s₀, h₆⟩ : ∃ a, f[6]? = some a := ⟨_, List.getElem?_eq_getElem (by omega)⟩
  obtain ⟨s₁, h₇⟩ : ∃ a, f[7]? = some a := ⟨_, List.getElem?_eq_getElem (by omega)⟩
  obtain ⟨s₂, h₈⟩ : ∃ a, f[8]? = some a := ⟨_, List.getElem?_eq_getElem (by omega)⟩
  obtain ⟨s₃, h₉⟩ : ∃ a, f[9]? = some a := ⟨_, List.getElem?_eq_getElem (by omega)⟩
  obtain ⟨s₄, h₁₀⟩ : ∃ a, f[10]? = some a := ⟨_, List.getElem?_eq_getElem (by omega)⟩
  obtain ⟨s₅, h₁₁⟩ : ∃ a, f[11]? = some a := ⟨_, List.getElem?_eq_getElem (by omega)⟩
  by_cases hshort : (word s₀ s₁).toNat < 4 ∨ (word s₀ s₁).toNat = 4 ∧ (word s₄ s₅).toNat < 4
  case pos =>
    exact hsmall fun tags hstart =>
      cdpAnnounced_eq_none (.inr ⟨hstart, cdpWalk_of_short hf hdest h₆ h₇ h₁₀ h₁₁ hshort tags⟩)
  have hout : 12 ≤ leave (word s₀ s₁).toNat (word s₄ s₅).toNat s₅ := by
    have hword : 129 ≤ (word s₅ 0x81).toNat := by
      rw [toNat_word, show (0x81 : UInt8).toNat = 129 from rfl]
      omega
    have hseven : (word 0x00 0x07).toNat = 7 := by decide
    have htag : (word 0x81 0x00).toNat = 33024 := by decide
    unfold leave
    split
    · omega
    split
    · omega
    split
    · omega
    split
    · omega
    · omega
  have hle := le_settle (leave (word s₀ s₁).toNat (word s₄ s₅).toNat s₅)
  have hmod := settle_mod (leave (word s₀ s₁).toNat (word s₄ s₅).toNat s₅)
  obtain ⟨i, hi⟩ : ∃ i, settle (leave (word s₀ s₁).toNat (word s₄ s₅).toNat s₅) = 14 + 4 * i :=
    ⟨(settle (leave (word s₀ s₁).toNat (word s₄ s₅).toNat s₅) - 14) / 4, by omega⟩
  obtain ⟨t, hleave⟩ := together_leave hf h₄ h₅ h₆ h₇ h₈ h₉ h₁₀ h₁₁ (by omega) (by omega) (hle.trans_eq hi)
  obtain ⟨t', hsettle⟩ := together_settle hf hout hi t
  obtain ⟨t₁, t₂, hwalk₁, hwalk₂, hahead⟩ := cdpWalks_ahead hf (hleave.trans hsettle)
  have hparse : ∀ {type : TagType} {t : CdpTlvs}, (loop (cdpTlv (insertTags (trap i type) f))
      ((insertTags (trap i type) f).length + 1) (4, {}) : Outcome Unit _) = .ok t → t.deviceId.isSome = true →
      t.portId.isSome = true → ∃ n, parseLldpFrame (insertTags (trap i type) f) = .ok n ∧
      n.capabilities = t.capabilities := by
    intro type t hwalk hdevice hport
    have hlength := @length_insertTags_trap f i type hf
    have hbyte : ∃ b, (insertTags (trap i type) f)[14 + 2]? = some b ∧ b ≠ 0x03 := by
      obtain ⟨b, hb, hne⟩ := getElem?_type_bytes (trapTag i type 1)
      exact ⟨b, getElem?_trapTag hf 1 0 rfl hb (by omega) (by omega) (by omega), hne⟩
    obtain ⟨b, hb, hne⟩ := hbyte
    exact parseLldpFrame_of_cdp (cdpStart_eq_zero (by decide) hb (by simpa using Ne.symm hne)) (by omega)
      (by rw [destination_insertTags (by omega)]; exact hdest) hwalk hdevice hport
  obtain ⟨n₁, hn₁, hcaps₁⟩ := hparse hwalk₁ hahead.device₁ hahead.port₁
  obtain ⟨n₂, hn₂, hcaps₂⟩ := hparse hwalk₂ hahead.device₂ hahead.port₂
  have htrap : ∀ type, trap i type ≠ [] := by
    intro type hnil
    have := length_trap i type
    rw [hnil, List.length_nil] at this
    omega
  refine ⟨trap i .dot1Q, trap i .dot1ad, htrap _, htrap _, ?_⟩
  rw [hn₁, hn₂]
  intro heq
  have hsame := congrArg (fun n : LldpNeighbor => n.capabilities.length) (Outcome.ok.inj heq)
  have := hahead.more
  rw [hcaps₁, hcaps₂] at hsame
  omega

/-- **Tags are transparent to a frame exactly when it is not handed over whole.** -/
theorem vlan_tags_transparent_iff {f : Bytes} (hf : 12 ≤ f.length) :
    (∀ tags : List Tag, tags ≠ [] → Transparent tags f) ↔ ¬ HandedWhole f := by
  constructor
  · intro hall hwhole
    obtain ⟨tags₁, tags₂, hne₁, hne₂, hparse⟩ := exists_parse_ne hwhole
    have h₁ := (transparent_iff hf).mp (hall tags₁ hne₁) hwhole
    have h₂ := (transparent_iff hf).mp (hall tags₂ hne₂) hwhole
    exact hparse (h₁.trans h₂.symm)
  · intro hwhole tags _
    exact (transparent_iff hf).mpr fun h => absurd h hwhole

/-- An ARP reply from `10.0.0.1`. -/
def arpReply : Bytes :=
  [0xFF, 0xFF, 0xFF, 0xFF, 0xFF, 0xFF, 0x02, 0x00, 0x00, 0x00, 0x00, 0x01, 0x08, 0x06,
   0x00, 0x01, 0x08, 0x00, 0x06, 0x04, 0x00, 0x02, 0x02, 0x00, 0x00, 0x00, 0x00, 0x01, 0x0A, 0x00, 0x00, 0x01,
   0xFF, 0xFF, 0xFF, 0xFF, 0xFF, 0xFF, 0x0A, 0x00, 0x00, 0x02]

theorem vlan_tags_transparent_arp : 12 ≤ arpReply.length ∧ ∀ tags : List Tag, tags ≠ [] → Transparent tags arpReply :=
  ⟨by decide, (vlan_tags_transparent_iff (by decide)).mpr (by
    rintro (h | ⟨h, -⟩)
    · exact absurd h (by decide)
    · exact absurd h (by decide))⟩

/-- An LLDPDU of the switch `s`, port `p`. -/
def lldpFrame : Bytes :=
  [0x01, 0x80, 0xC2, 0x00, 0x00, 0x0E, 0x02, 0x00, 0x00, 0x00, 0x00, 0x01, 0x88, 0xCC,
   0x02, 0x02, 0x07, 0x73, 0x04, 0x02, 0x07, 0x70, 0x00, 0x00]

/-- In VLAN 5 the neighbour of an LLDP frame is not seen. -/
theorem vlan_tag_hides_lldp :
    (decodeFrame lldpFrame : Outcome Empty _) =
        .ok [.linkLayerNeighbor ⟨"s".toList, "p".toList, none, none, none, []⟩] ∧
      (decodeFrame (insertTags [endTag] lldpFrame) : Outcome Empty _) = .ok [.vlan 5] ∧
      ¬ Transparent [endTag] lldpFrame := by
  have hbare : (decodeFrame lldpFrame : Outcome Empty _) =
      .ok [.linkLayerNeighbor ⟨"s".toList, "p".toList, none, none, none, []⟩] := by decide
  have htagged : (decodeFrame (insertTags [endTag] lldpFrame) : Outcome Empty _) = .ok [.vlan 5] := by decide
  refine ⟨hbare, htagged, ?_⟩
  unfold Transparent
  rw [hbare, htagged]
  decide

end Idnx
