import Idnx.Lib.Records
import Idnx.Probes.Layers
import Idnx.Probes.Walks

/-!
# The entries of IS-IS reachability

Extended and IPv6 reachability are entries of their own lengths: a header, the significant octets of a prefix and,
where the header says so, sub-TLVs. The two layouts are `extendedReach` and `ipv6Reach`; the reader of either reads
the entries at the front of a value, one behind the other (`readExtendedIpReach_spec`, `readIpv6Reach_spec`).
-/

namespace Idnx

open Outcome

variable {ε : Type}

namespace Isis

/-! ## Layouts -/

/-- How the entries of a reachability TLV are laid out: the bytes in front of the prefix, the bits an address has, and
what the bytes in front say about the prefix and about sub-TLVs behind it. -/
structure ReachFormat where
  header : Nat
  width : Nat
  prefixLen : Bytes → Nat
  hasSubTlvs : Bytes → Bool
  header_pos : 0 < header
  prefixLen_append : ∀ {e : Bytes} (more : Bytes), header ≤ e.length → prefixLen (e ++ more) = prefixLen e
  hasSubTlvs_append : ∀ {e : Bytes} (more : Bytes), header ≤ e.length → hasSubTlvs (e ++ more) = hasSubTlvs e

/-- RFC 5305: a metric and a control byte. -/
def extendedReach : ReachFormat where
  header := 5
  width := 32
  prefixLen e := (e.getD 4 0 &&& 0x3f).toNat
  hasSubTlvs e := e.getD 4 0 &&& 0x40 ≠ 0
  header_pos := by decide
  prefixLen_append more h := by rw [List.getD_append _ _ _ _ (by omega)]
  hasSubTlvs_append more h := by rw [List.getD_append _ _ _ _ (by omega)]

/-- RFC 5308: a metric, a control byte and the length of the prefix. -/
def ipv6Reach : ReachFormat where
  header := 6
  width := 128
  prefixLen e := (e.getD 5 0).toNat
  hasSubTlvs e := e.getD 4 0 &&& 0x20 ≠ 0
  header_pos := by decide
  prefixLen_append more h := by rw [List.getD_append _ _ _ _ (by omega)]
  hasSubTlvs_append more h := by rw [List.getD_append _ _ _ _ (by omega)]

namespace ReachFormat

variable (fmt : ReachFormat)

/-- Where the prefix of an entry ends. -/
def prefixEnd (e : Bytes) : Nat := fmt.header + significantOctets (fmt.prefixLen e)

/-- The bytes are one entry, no more and no less. -/
structure IsEntry (e : Bytes) : Prop where
  header : fmt.header ≤ e.length
  width : fmt.prefixLen e ≤ fmt.width
  size : if fmt.hasSubTlvs e then fmt.prefixEnd e < e.length ∧
      e.length = fmt.prefixEnd e + (1 + (e.getD (fmt.prefixEnd e) 0).toNat)
    else e.length = fmt.prefixEnd e

/-- An entry. -/
def Entry : Type := { e : Bytes // fmt.IsEntry e }

/-- The entry stands in the value behind other entries, if any, and nothing else. -/
def Carries (value : Bytes) (entry : fmt.Entry) : Prop :=
  ∃ (before : List fmt.Entry) (after : Bytes), value = before.flatMap Subtype.val ++ entry.val ++ after

/-- The entry at the front of some bytes, if there is one. -/
def front (rest : Bytes) : Option Bytes :=
  if fmt.header ≤ rest.length ∧ fmt.prefixLen rest ≤ fmt.width then
    (entryEnd rest (fmt.hasSubTlvs rest) (fmt.prefixEnd rest)).map rest.take
  else none

end ReachFormat

theorem entryEnd_eq_some {value : Bytes} {hasSubTlvs : Bool} {subAt stop : Nat} :
    entryEnd value hasSubTlvs subAt = some stop ↔ stop ≤ value.length ∧
      if hasSubTlvs then subAt < value.length ∧ stop = subAt + (1 + (value.getD subAt 0).toNat) else stop = subAt := by
  unfold entryEnd
  cases hasSubTlvs with
  | false =>
    rw [if_neg Bool.false_ne_true, if_neg Bool.false_ne_true, Option.bind_eq_bind, Option.bind_some]
    dsimp only
    split
    · rw [Option.some_inj]
      omega
    · refine iff_of_false nofun ?_
      omega
  | true =>
    rw [if_pos rfl, if_pos rfl]
    by_cases hsub : subAt < value.length
    · rw [List.getElem?_eq_getElem hsub, List.getD_eq_getElem _ _ hsub, Option.map_some, Option.bind_eq_bind,
        Option.bind_some]
      dsimp only
      split
      · rw [Option.some_inj]
        omega
      · refine iff_of_false nofun ?_
        omega
    · rw [List.getElem?_eq_none (by omega)]
      exact iff_of_false nofun fun h => hsub h.2.1

theorem entryEnd_add {value : Bytes} {hasSubTlvs : Bool} {k subAt : Nat} (hk : k ≤ value.length) :
    entryEnd value hasSubTlvs (k + subAt) = (entryEnd (value.drop k) hasSubTlvs subAt).map (k + ·) := by
  have hlen : (value.drop k).length = value.length - k := List.length_drop
  have hget : (value.drop k).getD subAt 0 = value.getD (k + subAt) 0 := by
    rw [List.getD_eq_getElem?_getD, List.getElem?_drop, List.getD_eq_getElem?_getD]
  refine Option.ext fun stop => ?_
  rw [entryEnd_eq_some, Option.map_eq_some_iff]
  constructor
  · intro h
    refine ⟨stop - k, ?_, ?_⟩
    · rw [entryEnd_eq_some, hget, hlen]
      split at h
      · rw [if_pos ‹_›]
        omega
      · rw [if_neg ‹_›]
        omega
    · split at h
      · omega
      · omega
  · rintro ⟨n, h, rfl⟩
    rw [entryEnd_eq_some, hget, hlen] at h
    split at h
    · rw [if_pos ‹_›]
      omega
    · rw [if_neg ‹_›]
      omega

namespace ReachFormat

variable {fmt : ReachFormat}

theorem prefixEnd_append {e : Bytes} (h : fmt.header ≤ e.length) (more : Bytes) :
    fmt.prefixEnd (e ++ more) = fmt.prefixEnd e := by
  unfold prefixEnd
  rw [fmt.prefixLen_append more h]

/-- An entry is not empty. -/
theorem Entry.length_pos (entry : fmt.Entry) : 0 < entry.val.length :=
  Nat.lt_of_lt_of_le fmt.header_pos entry.property.header

/-- An entry ends where it says it does, whatever follows. -/
theorem IsEntry.entryEnd_eq {e : Bytes} (h : fmt.IsEntry e) (more : Bytes) :
    entryEnd (e ++ more) (fmt.hasSubTlvs e) (fmt.prefixEnd e) = some e.length := by
  have hsize := h.size
  rw [entryEnd_eq_some]
  refine ⟨by rw [List.length_append]; omega, ?_⟩
  split at hsize
  · rw [if_pos ‹_›, List.getD_append _ _ _ _ hsize.1]
    exact ⟨by rw [List.length_append]; omega, hsize.2⟩
  · rw [if_neg ‹_›]
    exact hsize

theorem IsEntry.prefixEnd_le {e : Bytes} (h : fmt.IsEntry e) : fmt.prefixEnd e ≤ e.length := by
  have hsize := h.size
  split at hsize
  · omega
  · omega

theorem front_append (entry : fmt.Entry) (more : Bytes) : fmt.front (entry.val ++ more) = some entry.val := by
  obtain ⟨e, he⟩ := entry
  show fmt.front (e ++ more) = some e
  unfold front
  rw [fmt.prefixLen_append more he.header, fmt.hasSubTlvs_append more he.header, prefixEnd_append he.header,
    if_pos ⟨by rw [List.length_append]; exact Nat.le_add_right_of_le he.header, he.width⟩, he.entryEnd_eq,
    Option.map_some, List.take_left]

theorem front_eq_none {rest : Bytes} (h : fmt.front rest = none) (hheader : fmt.header ≤ rest.length)
    (hwidth : fmt.prefixLen rest ≤ fmt.width) : entryEnd rest (fmt.hasSubTlvs rest) (fmt.prefixEnd rest) = none := by
  unfold front at h
  rw [if_pos ⟨hheader, hwidth⟩] at h
  exact Option.map_eq_none_iff.mp h

/-- What is split off the front is an entry. -/
theorem front_eq_some {rest e : Bytes} (h : fmt.front rest = some e) : fmt.IsEntry e ∧ ∃ more, rest = e ++ more := by
  unfold front at h
  split at h
  case isFalse => cases h
  case isTrue hwhole =>
    obtain ⟨stop, hstop, rfl⟩ := Option.map_eq_some_iff.mp h
    rw [entryEnd_eq_some] at hstop
    obtain ⟨hle, hsize⟩ := hstop
    have hrest : rest = rest.take stop ++ rest.drop stop := (List.take_append_drop _ _).symm
    have hlen : (rest.take stop).length = stop := List.length_take_of_le hle
    have hbehind : fmt.prefixEnd rest ≤ stop := by
      split at hsize
      · omega
      · omega
    have hheader : fmt.header ≤ (rest.take stop).length := by
      rw [hlen]
      exact Nat.le_trans (Nat.le_add_right _ _) hbehind
    have hprefix : fmt.prefixLen rest = fmt.prefixLen (rest.take stop) := by
      conv_lhs => rw [hrest]
      exact fmt.prefixLen_append _ hheader
    have hsub : fmt.hasSubTlvs rest = fmt.hasSubTlvs (rest.take stop) := by
      conv_lhs => rw [hrest]
      exact fmt.hasSubTlvs_append _ hheader
    have hend : fmt.prefixEnd rest = fmt.prefixEnd (rest.take stop) := by
      conv_lhs => rw [hrest]
      exact prefixEnd_append hheader _
    refine ⟨⟨hheader, hprefix ▸ hwhole.2, ?_⟩, rest.drop stop, hrest⟩
    rw [← hsub, ← hend, hlen]
    split at hsize
    · have hin : fmt.prefixEnd rest < (rest.take stop).length := by omega
      have hget : (rest.take stop).getD (fmt.prefixEnd rest) 0 = rest.getD (fmt.prefixEnd rest) 0 := by
        rw [← List.getD_append _ (rest.drop stop) _ _ hin, List.take_append_drop]
      rw [if_pos ‹_›, hget]
      exact ⟨by omega, hsize.2⟩
    · rw [if_neg ‹_›]
      exact hsize

/-- Bytes start with one entry at most. -/
theorem entry_unique {a b : fmt.Entry} {x y : Bytes} (h : a.val ++ x = b.val ++ y) : a = b := by
  have hfront := front_append a x
  rw [h, front_append] at hfront
  exact Subtype.ext (Option.some.inj hfront).symm

/-- The reader takes the entry at the front, if there is one, and is done otherwise. -/
def Reads (fmt : ReachFormat) (value : Bytes) (record : Bytes → ReachablePrefix)
    (next : Nat × List ReachablePrefix → Outcome ε (Turn (Nat × List ReachablePrefix) (List ReachablePrefix))) : Prop :=
  ∀ cursor out, cursor ≤ value.length → next (cursor, out) =
    match fmt.front (value.drop cursor) with
    | none => .ok (.done out)
    | some e => .ok (.next (cursor + e.length, out ++ [record e]))

/-- **A reader reads the entries a value carries**, each as its own bytes say. -/
theorem loop_entries {value : Bytes} {record : Bytes → ReachablePrefix}
    {next : Nat × List ReachablePrefix → Outcome ε (Turn (Nat × List ReachablePrefix) (List ReachablePrefix))}
    (hreads : fmt.Reads value record next) :
    ∃ read, loop next (value.length + 1) (0, []) = .ok read ∧
      ∀ p, p ∈ read ↔ ∃ entry, fmt.Carries value entry ∧ p = record entry.val := by
  obtain ⟨entries, rest, hvalue, hrest⟩ := exists_records (fun entry : fmt.Entry => entry.length_pos) value
  have hstep : ∀ k (entry : fmt.Entry) out, Holds value k entry.val →
      next (k, out) = .ok (.next (k + entry.val.length, out ++ [record entry.val])) := by
    rintro k entry out ⟨before, after, rfl, rfl⟩
    rw [hreads _ _ (by simp), List.append_assoc, List.drop_left, front_append]
  obtain ⟨fuel, k, hloop, hk, hdrop⟩ := loop_records_rest Entry.length_pos hstep (Nat.zero_le _)
    (by rw [List.drop_zero]; exact hvalue) []
  have hnone : fmt.front rest = none := by
    cases hfront : fmt.front rest with
    | none => rfl
    | some e =>
      obtain ⟨hentry, more, hmore⟩ := front_eq_some hfront
      exact absurd hmore (hrest ⟨e, hentry⟩ more)
  refine ⟨entries.map fun entry => record entry.val, hloop.trans ?_, fun p => ?_⟩
  · rw [loop, hreads _ _ hk, hdrop, hnone]
    exact congrArg Outcome.ok (foldl_append_singleton _ entries [])
  · rw [List.mem_map]
    refine exists_congr fun entry => ?_
    rw [mem_records_iff entry_unique hrest entry, ← hvalue]
    exact and_congr Iff.rfl eq_comm

section At

variable {value : Bytes} {cursor : Nat}

/-- The significant octets of the prefix of an entry. -/
def octets (fmt : ReachFormat) (e : Bytes) : Bytes := (e.drop fmt.header).take (significantOctets (fmt.prefixLen e))

theorem length_octets_le {e : Bytes} (h : fmt.IsEntry e) : (fmt.octets e).length ≤ (fmt.width + 7) / 8 := by
  have hwidth := h.width
  refine (List.length_take_le _ _).trans ?_
  unfold significantOctets
  omega

/-- Where no entry is at the front, none ends. -/
theorem entryEnd_at_none (hcursor : cursor ≤ value.length) (h : fmt.front (value.drop cursor) = none)
    (hheader : fmt.header ≤ (value.drop cursor).length) (hwidth : fmt.prefixLen (value.drop cursor) ≤ fmt.width) :
    entryEnd value (fmt.hasSubTlvs (value.drop cursor))
      (cursor + fmt.header + significantOctets (fmt.prefixLen (value.drop cursor))) = none := by
  rw [Nat.add_assoc, entryEnd_add hcursor]
  exact Option.map_eq_none_iff.mpr (front_eq_none h hheader hwidth)

variable {e more : Bytes} (hcursor : cursor ≤ value.length) (h : fmt.IsEntry e) (hmore : value.drop cursor = e ++ more)

include hcursor h hmore

theorem entryEnd_at : entryEnd value (fmt.hasSubTlvs e) (cursor + fmt.header + significantOctets (fmt.prefixLen e)) =
    some (cursor + e.length) := by
  rw [Nat.add_assoc, entryEnd_add hcursor, hmore]
  exact Option.map_eq_some_iff.mpr ⟨_, h.entryEnd_eq more, rfl⟩

theorem length_at : cursor + fmt.header + significantOctets (fmt.prefixLen e) ≤ cursor + e.length ∧
    cursor + e.length ≤ value.length := by
  have hall := congrArg List.length hmore
  rw [List.length_drop, List.length_append] at hall
  refine ⟨?_, by omega⟩
  rw [Nat.add_assoc]
  exact Nat.add_le_add_left h.prefixEnd_le cursor

theorem slice_entry : (slice value cursor (cursor + e.length) : Outcome ε _) = .ok e := by
  rw [slice_eq (length_at hcursor h hmore).2, hmore, List.take_left]

theorem slice_octets :
    (slice value (cursor + fmt.header) (cursor + fmt.header + significantOctets (fmt.prefixLen e)) : Outcome ε _) =
      .ok (fmt.octets e) := by
  have hlen := length_at hcursor h hmore
  unfold octets
  rw [slice_eq (hlen.1.trans hlen.2), ← List.drop_drop, hmore, List.drop_append_of_le_length h.header,
    List.take_append_of_le_length (by rw [List.length_drop]; omega)]

omit hcursor h in
theorem index_entry {k : Nat} (hk : k < e.length) : (index value (cursor + k) : Outcome ε _) = .ok (e.getD k 0) := by
  rw [index_add, hmore, index_append more hk, index_eq hk]

theorem u32At_entry (hfour : 4 ≤ e.length) :
    (u32At value cursor : Outcome ε _) = .ok (UInt32.ofNat (beNat (e.take 4))) := by
  have hlen := length_at hcursor h hmore
  rw [u32At_eq (by omega), hmore, List.take_append_of_le_length hfour]

end At

end ReachFormat

/-! ## The two readers -/

/-- The prefix of an entry of extended reachability. -/
def extendedNet (e : Bytes) : IpNet :=
  (Ipv4Net.mk (significant4 (extendedReach.octets e)) (Fin.ofNat 33 (extendedReach.prefixLen e))).trunc.toNet

def extendedRecord (topology : Option UInt16) (tlv : Text) (e : Bytes) : ReachablePrefix :=
  { net := extendedNet e, metric := UInt32.ofNat (beNat (e.take 4)), tlv, topology, rawEntry := e }

/-- The prefix of an entry of IPv6 reachability. -/
def ipv6Net (e : Bytes) : IpNet :=
  (Ipv6Net.mk (significant6 (ipv6Reach.octets e)) (Fin.ofNat 129 (ipv6Reach.prefixLen e))).trunc.toNet

def ipv6Record (topology : Option UInt16) (tlv : Text) (e : Bytes) : ReachablePrefix :=
  { net := ipv6Net e, metric := UInt32.ofNat (beNat (e.take 4)), tlv, topology, rawEntry := e }

section Readers

open ReachFormat

variable (value : Bytes) (topology : Option UInt16) (tlv : Text)

theorem reads_extended : extendedReach.Reads value (extendedRecord topology tlv)
    (nextExtendedIpReach value topology tlv : _ → Outcome ε _) := by
  intro cursor out hcursor
  have hlen : (value.drop cursor).length = value.length - cursor := List.length_drop
  unfold nextExtendedIpReach
  dsimp only
  cases hfront : extendedReach.front (value.drop cursor) with
  | none =>
    by_cases hheader : cursor + 5 ≤ value.length
    case neg => rw [if_neg hheader]
    rw [if_pos hheader, u32At_eq (by omega), ok_bind, index_add, index_eq (by omega), ok_bind]
    dsimp only
    by_cases hwidth : 32 < ((value.drop cursor).getD 4 0 &&& 0x3f).toNat
    · rw [if_pos hwidth]
      rfl
    have hnone : entryEnd value ((value.drop cursor).getD 4 0 &&& 0x40 ≠ 0)
        (cursor + 5 + significantOctets ((value.drop cursor).getD 4 0 &&& 0x3f).toNat) = none :=
      entryEnd_at_none hcursor hfront (show 5 ≤ _ by omega) (Nat.le_of_not_lt hwidth)
    rw [if_neg hwidth, hnone]
    rfl
  | some e =>
    obtain ⟨hentry, more, hmore⟩ := front_eq_some hfront
    have hheader : 5 ≤ e.length := hentry.header
    have hinside := length_at hcursor hentry hmore
    have hwidth : (e.getD 4 0 &&& 0x3f).toNat ≤ 32 := hentry.width
    have hstop : entryEnd value (e.getD 4 0 &&& 0x40 ≠ 0)
        (cursor + 5 + significantOctets (e.getD 4 0 &&& 0x3f).toNat) = some (cursor + e.length) :=
      entryEnd_at hcursor hentry hmore
    have hoctets : (slice value (cursor + 5) (cursor + 5 + significantOctets (e.getD 4 0 &&& 0x3f).toNat) :
        Outcome ε _) = .ok (extendedReach.octets e) := slice_octets hcursor hentry hmore
    rw [if_pos (by omega), u32At_entry hcursor hentry hmore (by omega), ok_bind,
      index_entry hmore (by omega), ok_bind]
    dsimp only
    rw [if_neg (Nat.not_lt_of_le hwidth), hstop]
    dsimp only
    rw [hoctets, ok_bind, ipv4OfSignificant_eq (length_octets_le hentry), ok_bind, slice_entry hcursor hentry hmore,
      ok_bind, Ipv4Net.new_of_lt _ (Nat.lt_succ_of_le hwidth)]
    rfl

theorem reads_ipv6 : ipv6Reach.Reads value (ipv6Record topology tlv)
    (nextIpv6Reach value topology tlv : _ → Outcome ε _) := by
  intro cursor out hcursor
  have hlen : (value.drop cursor).length = value.length - cursor := List.length_drop
  unfold nextIpv6Reach
  dsimp only
  cases hfront : ipv6Reach.front (value.drop cursor) with
  | none =>
    by_cases hheader : cursor + 6 ≤ value.length
    case neg => rw [if_neg hheader]
    rw [if_pos hheader, u32At_eq (by omega), ok_bind, index_add, index_eq (by omega), ok_bind, index_add,
      index_eq (by omega), ok_bind]
    dsimp only
    by_cases hwidth : 128 < ((value.drop cursor).getD 5 0).toNat
    · rw [if_pos hwidth]
      rfl
    have hnone : entryEnd value ((value.drop cursor).getD 4 0 &&& 0x20 ≠ 0)
        (cursor + 6 + significantOctets ((value.drop cursor).getD 5 0).toNat) = none :=
      entryEnd_at_none hcursor hfront (show 6 ≤ _ by omega) (Nat.le_of_not_lt hwidth)
    rw [if_neg hwidth, hnone]
    rfl
  | some e =>
    obtain ⟨hentry, more, hmore⟩ := front_eq_some hfront
    have hheader : 6 ≤ e.length := hentry.header
    have hinside := length_at hcursor hentry hmore
    have hwidth : (e.getD 5 0).toNat ≤ 128 := hentry.width
    have hstop : entryEnd value (e.getD 4 0 &&& 0x20 ≠ 0) (cursor + 6 + significantOctets (e.getD 5 0).toNat) =
        some (cursor + e.length) := entryEnd_at hcursor hentry hmore
    have hoctets : (slice value (cursor + 6) (cursor + 6 + significantOctets (e.getD 5 0).toNat) : Outcome ε _) =
        .ok (ipv6Reach.octets e) := slice_octets hcursor hentry hmore
    rw [if_pos (by omega), u32At_entry hcursor hentry hmore (by omega), ok_bind,
      index_entry hmore (by omega), ok_bind, index_entry hmore (by omega), ok_bind]
    dsimp only
    rw [if_neg (Nat.not_lt_of_le hwidth), hstop]
    dsimp only
    rw [hoctets, ok_bind, ipv6OfSignificant_eq (length_octets_le hentry), ok_bind, slice_entry hcursor hentry hmore,
      ok_bind, Ipv6Net.new_of_lt _ (Nat.lt_succ_of_le hwidth)]
    rfl

/-- **The reader of extended reachability** reads the entries the value carries. -/
theorem readExtendedIpReach_spec : ∃ read, (readExtendedIpReach value topology tlv : Outcome ε _) = .ok read ∧
    ∀ p, p ∈ read ↔ ∃ entry, extendedReach.Carries value entry ∧ p = extendedRecord topology tlv entry.val :=
  loop_entries (reads_extended value topology tlv)

/-- **The reader of IPv6 reachability** reads the entries the value carries. -/
theorem readIpv6Reach_spec : ∃ read, (readIpv6Reach value topology tlv : Outcome ε _) = .ok read ∧
    ∀ p, p ∈ read ↔ ∃ entry, ipv6Reach.Carries value entry ∧ p = ipv6Record topology tlv entry.val :=
  loop_entries (reads_ipv6 value topology tlv)

end Readers

end Isis

end Idnx
