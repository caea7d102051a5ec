import Idnx.Probes.SpanningTree

/-!
# Walks over captured records

Every walk over the records of an announcement, a BPDU or an IS-IS PDU reads inside the bytes it was handed and moves
ahead at every turn (`safe_walk`), so it neither panics nor goes on for ever.
-/

namespace Idnx

open Outcome

variable {ε : Type}

/-! ## Numbers, addresses and chunks -/

section Reading

variable {bytes : Bytes} {i : Nat}

theorem safe_u16At (h : i + 2 ≤ bytes.length) : Safe (fun _ => True) (u16At bytes i : Outcome ε _) :=
  (returns_u16At h).safe

theorem safe_u32At (h : i + 4 ≤ bytes.length) : Safe (fun _ => True) (u32At bytes i : Outcome ε _) :=
  (returns_u32At h).safe

theorem safe_ipv4At (h : i + 4 ≤ bytes.length) : Safe (fun _ => True) (ipv4At bytes i : Outcome ε _) :=
  (returns_ipv4At h).safe

theorem safe_ipv6At (h : i + 16 ≤ bytes.length) : Safe (fun _ => True) (ipv6At bytes i : Outcome ε _) :=
  (safe_slice (Nat.le_add_right i 16) h).bind fun _ _ => trivial

theorem safe_ipv4OfSignificant (h : bytes.length ≤ 4) :
    Safe (fun _ => True) (ipv4OfSignificant bytes : Outcome ε _) := by
  unfold ipv4OfSignificant copyInto
  rw [if_pos ⟨Nat.zero_le _, h, rfl⟩]
  trivial

theorem safe_ipv6OfSignificant (h : bytes.length ≤ 16) :
    Safe (fun _ => True) (ipv6OfSignificant bytes : Outcome ε _) := by
  unfold ipv6OfSignificant copyInto
  rw [if_pos ⟨Nat.zero_le _, by rw [List.length_replicate]; exact h, rfl⟩]
  trivial

theorem length_of_mem_asChunks {n : Nat} {chunk : Bytes} (h : chunk ∈ asChunks n bytes) : chunk.length = n := by
  obtain ⟨i, hi, rfl⟩ := List.mem_map.mp h
  have hin := Nat.mul_le_of_le_div _ _ _ (Nat.succ_le_of_lt (List.mem_range.mp hi))
  rw [Nat.succ_mul] at hin
  rw [List.length_take, List.length_drop]
  omega

/-- The addresses of whole chunks are read. -/
theorem safe_chunkAddresses (value : Bytes) :
    Safe (fun _ => True) (filterMapM (fun chunk => some <$> ipv4At chunk 0) (asChunks 4 value) : Outcome ε _) := by
  refine safe_filterMapM fun chunk hchunk => ?_
  have hlen := length_of_mem_asChunks hchunk
  obtain ⟨address, haddress, -⟩ := returns_ipv4At (ε := ε) (show 0 + 4 ≤ chunk.length by omega)
  rw [haddress]
  trivial

theorem length_slice {l value : Bytes} {start stop : Nat} (h : value = (l.drop start).take (stop - start)) :
    value.length ≤ stop - start := by
  rw [h]
  exact List.length_take_le _ _

theorem length_slice_of_le {l value : Bytes} {start stop : Nat} (h : value = (l.drop start).take (stop - start))
    (hstop : stop ≤ l.length) : value.length = stop - start := by
  rw [h, List.length_take, List.length_drop]
  omega

end Reading

/-! ## Announcements of neighbours -/

section Announcements

variable {payload : Bytes}

theorem safe_cdpRead (t : CdpTlvs) (tlvType : UInt16) (value : Bytes) :
    Safe (fun _ => True) (t.read tlvType value : Outcome ε _) := by
  unfold CdpTlvs.read
  split
  case h_2 =>
    split
    · refine (safe_u32At (by omega)).bind fun count _ => ?_
      exact (returns_cdpAddresses count.toNat t.managementIp).safe.bind fun _ _ => trivial
    · trivial
  case h_4 =>
    split
    · exact (safe_u32At (by omega)).bind fun _ _ => trivial
    · trivial
  case h_7 =>
    split
    · exact (safe_u16At (by omega)).bind fun _ _ => trivial
    · trivial
  all_goals trivial

theorem safe_cdpStart (payload : Bytes) : Safe (fun _ => True) (cdpStart payload : Outcome ε _) := by
  unfold cdpStart
  split
  · refine (safe_slice (by omega) (by omega)).bind fun destination _ => ?_
    exact (safe_slice (by omega) (by omega)).bind fun snap _ => trivial
  · trivial

theorem safe_parseCdpFrame (payload : Bytes) : Safe (fun _ => True) (parseCdpFrame payload) := by
  refine (safe_require _ _).bind fun _ _ => (safe_cdpStart payload).bind fun offset _ => ?_
  refine (safe_require _ _).bind fun _ hoffset => (safe_index (by omega)).bind fun version _ => ?_
  refine (safe_require _ _).bind fun _ _ => (safe_walk (fun offset t => ?_) _ _).bind fun t _ => ?_
  · rw [cdpTlv]
    split
    · refine (safe_u16At (by omega)).bind fun tlvType _ => (safe_u16At (by omega)).bind fun tlvLen _ => ?_
      dsimp only
      split
      · trivial
      refine (safe_slice (by omega) (by omega)).bind fun value _ => ?_
      exact (safe_cdpRead t tlvType value).bind fun t' _ => ⟨by omega, by dsimp only; omega⟩
    · trivial
  · split <;> trivial

theorem safe_lldpRead (t : LldpTlvs) (tlvType : UInt16) (value : Bytes) :
    Safe (fun _ => True) (t.read tlvType value : Outcome ε _) := by
  have hpos : value ≠ [] → 0 < value.length := List.length_pos_of_ne_nil
  unfold LldpTlvs.read
  split
  case h_1 =>
    split
    · refine (safe_index (hpos ‹_›)).bind fun subtype _ => ?_
      exact (safe_sliceFrom (hpos ‹_›)).bind fun _ _ => trivial
    · trivial
  case h_2 =>
    split
    · exact (safe_sliceFrom (hpos ‹_›)).bind fun _ _ => trivial
    · trivial
  case h_5 =>
    split
    · exact (safe_u16At (by omega)).bind fun _ _ => trivial
    · trivial
  case h_6 =>
    split
    · refine (safe_index (by omega)).bind fun length _ => (safe_index (by omega)).bind fun subtype _ => ?_
      split
      · exact (safe_ipv4At (by omega)).bind fun _ _ => trivial
      · trivial
    · trivial
  all_goals trivial

theorem safe_cdpAnnounced (payload : Bytes) : Safe (fun _ => True) (cdpAnnounced payload : Outcome ε _) := by
  unfold cdpAnnounced
  split
  · refine (safe_slice (by omega) (by omega)).bind fun destination _ => ?_
    split
    · exact (safe_parseCdpFrame payload).toOption.mono fun _ _ => trivial
    · trivial
  · trivial

theorem safe_parseLldpFrame (payload : Bytes) : Safe (fun _ => True) (parseLldpFrame payload) := by
  refine (safe_require _ _).bind fun _ _ => (safe_cdpAnnounced payload).bind fun cdp _ => ?_
  cases cdp with
  | some cdp => trivial
  | none =>
    refine (safe_walk (fun offset t => ?_) _ _).bind fun t _ => ?_
    · rw [lldpTlv]
      split
      · refine (safe_u16At (by omega)).bind fun header _ => ?_
        dsimp only
        split
        · trivial
        refine (safe_slice (by omega) (by omega)).bind fun value _ => ?_
        split
        · trivial
        exact (safe_lldpRead t _ value).bind fun t' _ => ⟨by omega, by dsimp only; omega⟩
      · trivial
    · split <;> trivial

theorem safe_mndpRead (t : MndpTlvs) (tlvType : UInt16) (value : Bytes) :
    Safe (fun _ => True) (t.read tlvType value : Outcome ε _) := by
  unfold MndpTlvs.read
  split
  case h_6 =>
    split
    · exact (safe_ipv4At (by omega)).bind fun _ _ => trivial
    · trivial
  all_goals trivial

theorem safe_parseMndpPacket (payload : Bytes) : Safe (fun _ => True) (parseMndpPacket payload) := by
  refine (safe_require _ _).bind fun _ _ => (safe_walk (fun offset t => ?_) _ _).bind fun t _ => ?_
  · rw [mndpTlv]
    split
    · refine (safe_u16At (by omega)).bind fun tlvType _ => (safe_u16At (by omega)).bind fun tlvLen _ => ?_
      dsimp only
      split
      · trivial
      refine (safe_slice (by omega) (by omega)).bind fun value _ => ?_
      exact (safe_mndpRead t tlvType value).bind fun t' _ => ⟨by omega, by dsimp only; omega⟩
    · trivial
  · split <;> trivial

end Announcements

/-! ## Spanning tree and IS-IS -/

section Llc

theorem safe_formatBridgeId (bytes : Bytes) : Safe (fun _ => True) (formatBridgeId bytes : Outcome ε _) := by
  unfold formatBridgeId
  split
  · trivial
  · refine (safe_u16At (by omega)).bind fun priority _ => ?_
    exact (safe_slice (by omega) (by omega)).bind fun mac _ => trivial

theorem safe_decodeBpdu (sourceMac : Text) (body : Bytes) : Safe (fun _ => True) (decodeBpdu sourceMac body) := by
  refine (safe_require _ _).bind fun _ hlen => (safe_okOr _ _).bind fun protocolId _ => ?_
  refine (safe_require _ _).bind fun _ _ => (safe_index (by omega)).bind fun bpduType _ => ?_
  refine (safe_require _ _).bind fun _ _ => (safe_slice (by omega) (by omega)).bind fun root _ => ?_
  refine (safe_formatBridgeId root).bind fun rootId _ => (safe_slice (by omega) (by omega)).bind fun bridge _ => ?_
  exact (safe_formatBridgeId bridge).bind fun bridgeId _ => (safe_okOr _ _).bind fun portId _ => trivial

theorem safe_decodePvst (sourceMac : Text) (payload : Bytes) :
    Safe (fun _ => True) (decodePvst sourceMac payload : Outcome ε _) := by
  unfold decodePvst
  split
  · trivial
  refine (safe_slice (by omega) (by omega)).bind fun oui _ => ?_
  split
  · trivial
  split
  · trivial
  split
  · trivial
  refine (safe_sliceFrom (by omega)).bind fun body _ => ?_
  refine (safe_decodeBpdu sourceMac body).toOption.bind fun bridge _ => ?_
  cases bridge with
  | none => trivial
  | some bridge => exact (returns_pvstOriginatingVlan body).safe.bind fun vlan _ => trivial

namespace Isis

theorem safe_readLegacyIpReach (value : Bytes) (tlv : Text) :
    Safe (fun _ => True) (readLegacyIpReach value tlv : Outcome ε _) := by
  refine safe_filterMapM fun entry hentry => ?_
  have hlen := length_of_mem_asChunks hentry
  refine (safe_ipv4At (by omega)).bind fun address _ => (safe_ipv4At (by omega)).bind fun mask _ => ?_
  exact (safe_index (by omega)).bind fun metric _ => trivial

/-- An entry ends inside the TLV, and not before its prefix. -/
theorem entryEnd_le {value : Bytes} {hasSubTlvs : Bool} {subAt stop : Nat}
    (h : entryEnd value hasSubTlvs subAt = some stop) : subAt ≤ stop ∧ stop ≤ value.length := by
  have hbound : ∀ subLength, (if subAt + subLength ≤ value.length then some (subAt + subLength) else none) = some stop →
      subAt ≤ stop ∧ stop ≤ value.length := by
    intro subLength hstop
    split at hstop
    · cases hstop
      exact ⟨Nat.le_add_right _ _, ‹_›⟩
    · cases hstop
  unfold entryEnd at h
  cases hasSubTlvs with
  | false => exact hbound 0 h
  | true =>
    obtain ⟨subLength, -, hstop⟩ := Option.bind_eq_some_iff.mp h
    exact hbound subLength hstop

theorem safe_readExtendedIpReach (value : Bytes) (topology : Option UInt16) (tlv : Text) :
    Safe (fun _ => True) (readExtendedIpReach value topology tlv : Outcome ε _) := by
  refine safe_walk (fun cursor out => ?_) _ _
  rw [nextExtendedIpReach]
  split
  · refine (safe_u32At (by omega)).bind fun metric _ => (safe_index (by omega)).bind fun control _ => ?_
    dsimp only
    split
    · trivial
    split
    case h_1 => trivial
    case h_2 hwidth stop hstop =>
      obtain ⟨hfits, hin⟩ := entryEnd_le hstop
      have hfour : significantOctets (control &&& 0x3f).toNat ≤ 4 := by
        unfold significantOctets
        omega
      refine (safe_slice (by omega) (by omega)).bind fun octets hoctets => ?_
      refine (safe_ipv4OfSignificant ((length_slice hoctets).trans (by omega))).bind fun address _ => ?_
      exact (safe_slice (by omega) (by omega)).bind fun raw _ => ⟨by omega, by dsimp only; omega⟩
  · trivial

theorem safe_readIpv6Reach (value : Bytes) (topology : Option UInt16) (tlv : Text) :
    Safe (fun _ => True) (readIpv6Reach value topology tlv : Outcome ε _) := by
  refine safe_walk (fun cursor out => ?_) _ _
  rw [nextIpv6Reach]
  split
  · refine (safe_u32At (by omega)).bind fun metric _ => (safe_index (by omega)).bind fun control _ => ?_
    refine (safe_index (by omega)).bind fun prefixLen _ => ?_
    dsimp only
    split
    · trivial
    split
    case h_1 => trivial
    case h_2 hwidth stop hstop =>
      obtain ⟨hfits, hin⟩ := entryEnd_le hstop
      have hsixteen : significantOctets prefixLen.toNat ≤ 16 := by
        unfold significantOctets
        omega
      refine (safe_slice (by omega) (by omega)).bind fun octets hoctets => ?_
      refine (safe_ipv6OfSignificant ((length_slice hoctets).trans (by omega))).bind fun address _ => ?_
      exact (safe_slice (by omega) (by omega)).bind fun raw _ => ⟨by omega, by dsimp only; omega⟩
  · trivial

theorem safe_header (pdu : Bytes) (pduType : UInt8) : Safe (fun _ => True) (header pdu pduType) := by
  unfold header
  split
  · exact (safe_require _ _).bind fun _ _ => trivial
  · exact (safe_require _ _).bind fun _ _ => trivial
  · exact (safe_require _ _).bind fun _ _ => trivial
  · exact (safe_require _ _).bind fun _ hlen => (safe_u32At (by omega)).bind fun sequence _ => trivial
  · exact (safe_require _ _).bind fun _ hlen => (safe_u32At (by omega)).bind fun sequence _ => trivial
  · trivial

theorem safe_multiTopology {value : Bytes} (h : 2 ≤ value.length) :
    Safe (fun _ => True) (multiTopology value : Outcome ε _) :=
  (safe_u16At (by omega)).bind fun _ _ => (safe_sliceFrom h).bind fun _ _ => trivial

theorem returns_areas (value : Bytes) (areas : List Text) :
    Returns (fun _ => True) (loop (nextArea value) (value.length + 1) (0, areas) : Outcome ε _) := by
  refine returns_walk (fun start areas => ?_) _ _
  rw [nextArea]
  split
  · refine (returns_index (by omega)).bind fun areaLength _ => ?_
    dsimp only
    split
    · exact returns_ok trivial
    exact (returns_slice (by omega) (by omega)).bind fun area _ => returns_ok ⟨by omega, by dsimp only; omega⟩
  · exact returns_ok trivial

theorem safe_read (decoded : IsisPdu) (code : UInt8) (value : Bytes) :
    Safe (fun _ => True) (decoded.read code value : Outcome ε _) := by
  unfold IsisPdu.read
  split
  · split <;> trivial
  · exact (returns_areas value _).safe.bind fun areas _ => trivial
  · exact (safe_readLegacyIpReach value _).bind fun read _ => trivial
  · exact (safe_readLegacyIpReach value _).bind fun read _ => trivial
  · exact (safe_readExtendedIpReach value _ _).bind fun read _ => trivial
  · split
    · refine (safe_multiTopology ‹_›).bind fun p _ => ?_
      exact (safe_readExtendedIpReach p.2 _ _).bind fun read _ => trivial
    · trivial
  · exact (safe_readIpv6Reach value _ _).bind fun read _ => trivial
  · split
    · refine (safe_multiTopology ‹_›).bind fun p _ => ?_
      exact (safe_readIpv6Reach p.2 _ _).bind fun read _ => trivial
    · trivial
  · trivial

theorem safe_parse (pdu : Bytes) : Safe (fun _ => True) (parse pdu) := by
  refine (safe_require _ _).bind fun _ hlen => (safe_index (by omega)).bind fun discriminator _ => ?_
  refine (safe_require _ _).bind fun _ _ => (safe_index (by omega)).bind fun headerLength _ => ?_
  refine (safe_require _ _).bind fun _ _ => (safe_index (by omega)).bind fun pduType _ => ?_
  refine (safe_header pdu _).bind fun h _ => (safe_require _ _).bind fun _ hid => ?_
  refine (safe_slice (by omega) (by omega)).bind fun id _ => safe_walk (fun cursor decoded => ?_) _ _
  rw [nextTlv]
  split
  · refine (safe_index (by omega)).bind fun code _ => (safe_index (by omega)).bind fun length _ => ?_
    refine (safe_require _ _).bind fun _ hstop => (safe_slice (by omega) hstop).bind fun value _ => ?_
    exact (safe_read decoded code value).bind fun decoded' _ => ⟨by omega, by dsimp only; omega⟩
  · trivial

end Isis

theorem safe_decodeLlc (frame destination : Bytes) (sourceMac : Text) (payload : Bytes) :
    Safe (fun _ => True) (decodeLlc frame destination sourceMac payload : Outcome ε _) := by
  match payload with
  | [] => trivial
  | [_] => trivial
  | [_, _] => trivial
  | dsap :: ssap :: control :: rest =>
    rw [decodeLlc_cons]
    split_ifs
    · refine (Isis.safe_parse rest).toOption.bind fun pdu _ => ?_
      cases pdu <;> trivial
    · exact (safe_decodeBpdu sourceMac rest).toOption.bind fun bridge _ => trivial
    · exact (safe_parseLldpFrame frame).toOption.bind fun neighbor _ => trivial
    · exact safe_decodePvst sourceMac _
    · trivial

end Llc

end Idnx
