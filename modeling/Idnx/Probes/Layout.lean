import Idnx.Probes.Snmp

/-!
# Reading a response takes it apart

What a reader has read is an element that lies behind its cursor (`Reader.tlv_inv`), so a response that is accepted is
laid out as its elements say, to the last byte (`decodeSnmpResponse_inv`). No reader that decoding opens leaves the
container it was opened in, and none of its sums leaves the machine word (`decodeSnmpResponse_stays_inside`).
-/

namespace Idnx

open Outcome

/-! ## One element -/

namespace Reader

variable {r r' : Reader} {what : Text}

/-- What lies behind the cursor. -/
def ahead (r : Reader) : Bytes := r.bytes.drop r.cursor

theorem ahead_new (bytes : Bytes) : (new bytes).ahead = bytes := rfl

theorem ahead_cons {b : UInt8} (h : r.bytes[r.cursor]? = some b) :
    r.ahead = b :: (⟨r.bytes, r.cursor + 1⟩ : Reader).ahead := by
  obtain ⟨hlt, rfl⟩ := List.getElem?_eq_some_iff.mp h
  exact List.drop_eq_getElem_cons hlt

theorem ahead_range {stop : Nat} {value : Bytes} (h : getRange r.bytes r.cursor stop = some value) :
    r.ahead = value ++ (⟨r.bytes, stop⟩ : Reader).ahead ∧ stop = r.cursor + value.length ∧ stop ≤ r.bytes.length := by
  exact drop_of_getRange h

/-- The octets a length was read from say it. -/
theorem length_inv {n : Nat} (h : r.length what = .ok (n, r')) :
    ∃ octets, LengthOctets n octets ∧ r.ahead = octets ++ r'.ahead ∧ r'.bytes = r.bytes ∧
      r'.cursor = r.cursor + octets.length := by
  unfold Reader.length at h
  obtain ⟨first, hfirst, h⟩ := bind_eq_ok.mp h
  have hahead := ahead_cons (okOr_eq_ok.mp hfirst)
  dsimp only at h
  by_cases hshort : first &&& 0x80 = 0
  · rw [if_pos hshort] at h
    cases h
    refine ⟨[first], .inl ⟨and_0x80_eq_zero.mp hshort, ?_⟩, hahead, rfl, rfl⟩
    rw [UInt8.ofNat_toNat]
  · rw [if_neg hshort, toNat_and_0x7F] at h
    by_cases hcount : first.toNat % 128 = 0 ∨ first.toNat % 128 > 4
    · rw [if_pos hcount] at h
      cases h
    · rw [if_neg hcount] at h
      obtain ⟨octets, hoctets, h⟩ := bind_eq_ok.mp h
      obtain ⟨len, hlen, h⟩ := bind_eq_ok.mp h
      cases h
      obtain ⟨hrest, hstop, -⟩ := ahead_range (r := ⟨r.bytes, r.cursor + 1⟩) (okOr_eq_ok.mp hoctets)
      have hlength : octets.length = first.toNat % 128 := by
        dsimp only at hstop
        omega
      have hvalue : n = beNat octets := by
        rw [okOr_eq_ok, foldlM_lengthStep (j := 0) (by decide) (by omega)] at hlen
        exact (Option.some.inj hlen).symm
      have hbyte : first = UInt8.ofNat (0x80 + octets.length) := by
        have hlt := first.toNat_lt
        have htop := and_0x80_eq_zero.not.mp hshort
        apply UInt8.toNat_inj.mp
        rw [UInt8.toNat_ofNat']
        omega
      refine ⟨first :: octets, .inr ⟨octets.length, by omega, by omega, ?_, ?_⟩, ?_, rfl, ?_⟩
      · rw [hvalue]
        exact beNat_lt octets
      · rw [hvalue, beBytes_beNat, ← hbyte]
      · rw [hahead, hrest]
        rfl
      · rw [List.length_cons]
        dsimp only at hstop ⊢
        omega

/-- What was read is the element behind the cursor; its contents are a reader's own, at their start. -/
theorem tlv_inv {tag : UInt8} {value : Reader} (h : r.tlv what = .ok ((tag, value), r')) :
    ∃ bytes, IsTlv tag value.bytes bytes ∧ r.ahead = bytes ++ r'.ahead ∧ value = new value.bytes ∧
      r'.bytes = r.bytes ∧ r'.cursor = r.cursor + bytes.length ∧ r'.cursor ≤ r.bytes.length := by
  unfold Reader.tlv at h
  obtain ⟨tag', htag, h⟩ := bind_eq_ok.mp h
  obtain ⟨⟨len, r1⟩, hlength, h⟩ := bind_eq_ok.mp h
  dsimp only at h
  obtain ⟨stop, hstop, h⟩ := bind_eq_ok.mp h
  obtain ⟨octets, hoctets, hahead, hbytes, hcursor⟩ := length_inv hlength
  have hsum : stop = r1.cursor + len := by
    have hsome := okOr_eq_ok.mp hstop
    split at hsome
    · exact (Option.some.inj hsome).symm
    · cases hsome
  cases hrange : getRange r1.bytes r1.cursor stop with
  | none =>
    rw [hrange] at h
    obtain ⟨remaining, -, h⟩ := bind_eq_ok.mp h
    cases h
  | some contents =>
    rw [hrange] at h
    cases h
    obtain ⟨hcontents, hend, hle⟩ := ahead_range hrange
    have hlen : contents.length = len := by omega
    refine ⟨tag :: octets ++ contents, ⟨octets, ?_, rfl⟩, ?_, rfl, hbytes, ?_, ?_⟩
    · show LengthOctets contents.length octets
      rwa [hlen]
    · rw [ahead_cons (okOr_eq_ok.mp htag), hahead, hcontents]
      simp
    · simp only [List.length_append, List.length_cons]
      dsimp only at hcursor
      omega
    · rw [hbytes] at hle
      exact hle

theorem expect_inv {tag : UInt8} {value : Reader} (h : r.expect what tag = .ok (value, r')) :
    ∃ bytes, IsTlv tag value.bytes bytes ∧ r.ahead = bytes ++ r'.ahead ∧ value = new value.bytes := by
  unfold Reader.expect at h
  obtain ⟨⟨⟨found, contents⟩, rest⟩, htlv, h⟩ := bind_eq_ok.mp h
  dsimp only at h
  split_ifs at h with hfound
  cases h
  obtain ⟨bytes, hbytes, hahead, hnew, -⟩ := tlv_inv htlv
  rw [not_not.mp hfound] at hbytes
  exact ⟨bytes, hbytes, hahead, hnew⟩

theorem rest_new (value : Bytes) : (new value).rest = .ok value := by
  unfold Reader.rest slice
  rw [if_pos ⟨Nat.zero_le _, Nat.le_refl _⟩]
  show Outcome.ok ((value.drop 0).take (value.length - 0)) = _
  rw [List.drop_zero, Nat.sub_zero, List.take_length]

theorem integer_inv {n : Int} (h : r.integer what = .ok (n, r')) :
    ∃ value bytes, IsTlv tagInteger value bytes ∧ r.ahead = bytes ++ r'.ahead ∧ n = decodeIntegerValue value := by
  unfold Reader.integer at h
  obtain ⟨⟨contents, rest⟩, hexpect, h⟩ := bind_eq_ok.mp h
  obtain ⟨bytes, hbytes, hahead, hnew⟩ := expect_inv hexpect
  dsimp only at h
  rw [hnew, rest_new, ok_bind] at h
  cases h
  exact ⟨contents.bytes, bytes, hbytes, hahead, rfl⟩

/-- A container that has been read to its end has nothing left. -/
theorem finished_inv {u : Unit} (h : r.finished what = .ok u) : r.ahead = [] := by
  unfold Reader.finished at h
  split_ifs at h with hdone
  · exact List.drop_eq_nil_of_le (of_decide_eq_true hdone)
  · obtain ⟨remaining, -, h⟩ := bind_eq_ok.mp h
    cases h

end Reader

/-! ## A whole response -/

section Response

theorem readVarbind_inv {list list' : Reader} {varbind : Oid × BerValue}
    (h : readVarbind list = .ok (varbind, list')) :
    ∃ (layout : BindingLayout) (bytes : Bytes), layout.Fills bytes ∧ layout.Says varbind ∧
      list.ahead = bytes ++ list'.ahead := by
  unfold readVarbind at h
  obtain ⟨⟨inner, list1⟩, hinner, h⟩ := bind_eq_ok.mp h
  obtain ⟨⟨name, inner1⟩, hname, h⟩ := bind_eq_ok.mp h
  obtain ⟨bytes, hbytes, hahead, hnew⟩ := Reader.expect_inv hinner
  obtain ⟨nameBytes, hnameBytes, hinnerAhead, hnameNew⟩ := Reader.expect_inv hname
  dsimp only at h
  rw [hnameNew, Reader.rest_new, ok_bind] at h
  obtain ⟨oid, hoid, h⟩ := bind_eq_ok.mp h
  obtain ⟨⟨⟨tag, value⟩, inner2⟩, hvalue, h⟩ := bind_eq_ok.mp h
  obtain ⟨content, hcontent, hinnerAhead1, hvalueNew, -⟩ := Reader.tlv_inv hvalue
  obtain ⟨u, hfinished, h⟩ := bind_eq_ok.mp h
  dsimp only at h
  rw [hvalueNew, Reader.rest_new, ok_bind] at h
  obtain ⟨decoded, hdecoded, h⟩ := bind_eq_ok.mp h
  cases h
  refine ⟨⟨name.bytes, tag, value.bytes⟩, bytes, ⟨nameBytes, content, hnameBytes, hcontent, ?_⟩, ⟨hoid, hdecoded⟩,
    hahead⟩
  -- the two elements are all there is in the varbind
  have hall : inner.bytes = nameBytes ++ content := by
    have hstart : inner.ahead = inner.bytes := by rw [hnew]; rfl
    rw [← hstart, hinnerAhead, hinnerAhead1, Reader.finished_inv hfinished, List.append_nil]
  rwa [← hall]

/-- The varbinds that were read are all there is in the list. -/
theorem readVarbinds_inv {room : Nat} {list : Reader} {varbinds : List (Oid × BerValue)}
    (h : readVarbinds room list = .ok varbinds) :
    ∃ (layouts : List BindingLayout) (bindings : List Bytes), List.Forall₂ BindingLayout.Fills layouts bindings ∧
      List.Forall₂ BindingLayout.Says layouts varbinds ∧ list.ahead = bindings.flatten ∧ layouts.length ≤ room := by
  induction room generalizing list varbinds with
  | zero =>
    unfold readVarbinds at h
    split_ifs at h with hdone
    · cases h
      exact ⟨[], [], .nil, .nil, List.drop_eq_nil_of_le (of_decide_eq_true hdone), Nat.le_refl 0⟩
    · obtain ⟨⟨varbind, rest⟩, -, h⟩ := bind_eq_ok.mp h
      cases h
  | succ room ih =>
    unfold readVarbinds at h
    split_ifs at h with hdone
    · cases h
      exact ⟨[], [], .nil, .nil, List.drop_eq_nil_of_le (of_decide_eq_true hdone), Nat.zero_le _⟩
    · obtain ⟨⟨varbind, rest⟩, hfirst, h⟩ := bind_eq_ok.mp h
      dsimp only at h
      obtain ⟨others, hothers, h⟩ := bind_eq_ok.mp h
      cases h
      obtain ⟨layout, bytes, hfills, htold, hahead⟩ := readVarbind_inv hfirst
      obtain ⟨layouts, bindings, hfill, htell, hrest, hroom⟩ := ih hothers
      refine ⟨layout :: layouts, bytes :: bindings, .cons hfills hfill, .cons htold htell, ?_, ?_⟩
      · rw [hahead, hrest, List.flatten_cons]
      · rw [List.length_cons]
        omega

/-- **An accepted response is laid out as it was read**, and every element is filled by what is in it. -/
theorem decodeSnmpResponse_inv {data : Bytes} {message : SnmpMessage} (h : decodeSnmpResponse data = .ok message) :
    ∃ layout : ResponseLayout, layout.Fills data ∧ layout.Says message ∧ layout.bindings.length ≤ maxVarbinds := by
  unfold decodeSnmpResponse at h
  obtain ⟨⟨inner, outer⟩, hinner, h⟩ := bind_eq_ok.mp h
  obtain ⟨whole, hwhole, hdata, hnew⟩ := Reader.expect_inv hinner
  obtain ⟨u, houter, h⟩ := bind_eq_ok.mp h
  obtain ⟨⟨version, inner1⟩, hversion, h⟩ := bind_eq_ok.mp h
  obtain ⟨versionValue, number, hnumber, hahead, rfl⟩ := Reader.integer_inv hversion
  obtain ⟨⟨name, inner2⟩, hname, h⟩ := bind_eq_ok.mp h
  obtain ⟨community, hcommunity, hahead1, hnameNew⟩ := Reader.expect_inv hname
  dsimp only at h
  rw [hnameNew, Reader.rest_new, ok_bind] at h
  obtain ⟨⟨⟨pduType, body⟩, inner3⟩, hpdu, h⟩ := bind_eq_ok.mp h
  obtain ⟨pdu, hpduBytes, hahead2, hbodyNew, -⟩ := Reader.tlv_inv hpdu
  obtain ⟨u', hmessage, h⟩ := bind_eq_ok.mp h
  obtain ⟨fields, hfields, h⟩ := bind_eq_ok.mp h
  cases h
  unfold decodePduBody at hfields
  obtain ⟨⟨id, body1⟩, hid, hfields⟩ := bind_eq_ok.mp hfields
  obtain ⟨idValue, idBytes, hidBytes, hbody, rfl⟩ := Reader.integer_inv hid
  obtain ⟨⟨status, body2⟩, hstatus, hfields⟩ := bind_eq_ok.mp hfields
  obtain ⟨statusValue, statusBytes, hstatusBytes, hbody1, rfl⟩ := Reader.integer_inv hstatus
  obtain ⟨⟨index, body3⟩, hindex, hfields⟩ := bind_eq_ok.mp hfields
  obtain ⟨indexValue, indexBytes, hindexBytes, hbody2, rfl⟩ := Reader.integer_inv hindex
  obtain ⟨⟨list, body4⟩, hlist, hfields⟩ := bind_eq_ok.mp hfields
  obtain ⟨listBytes, hlistBytes, hbody3, hlistNew⟩ := Reader.expect_inv hlist
  obtain ⟨u'', hbodyEnd, hfields⟩ := bind_eq_ok.mp hfields
  obtain ⟨varbinds, hvarbinds, hfields⟩ := bind_eq_ok.mp hfields
  cases hfields
  obtain ⟨layouts, bindings, hfills, htold, hlistAhead, hroom⟩ := readVarbinds_inv hvarbinds
  refine ⟨⟨versionValue, name.bytes, pduType, idValue, statusValue, indexValue, layouts⟩,
    ⟨number, community, pdu, hnumber, hcommunity, ⟨idBytes, statusBytes, indexBytes, bindings, listBytes, hidBytes,
      hstatusBytes, hindexBytes, hfills, ?_, ?_⟩, ?_⟩, ⟨rfl, rfl, rfl, rfl, rfl, rfl, htold⟩, hroom⟩
  · rw [hlistNew] at hlistAhead
    rwa [← hlistAhead]
  · have hall : body.ahead = body.bytes := by rw [hbodyNew]; rfl
    rw [hbody, hbody1, hbody2, hbody3, Reader.finished_inv hbodyEnd, List.append_nil] at hall
    rwa [hall]
  · have hall : inner.ahead = inner.bytes := by rw [hnew]; rfl
    rw [hahead, hahead1, hahead2, Reader.finished_inv hmessage, List.append_nil] at hall
    rw [Reader.finished_inv houter, List.append_nil, Reader.ahead_new] at hdata
    rw [hall, hdata]
    exact hwhole

end Response

/-! ## The readers of a datagram -/

/-- A sum of machine words; a panic if it overflows. -/
def wordSum (a b : Nat) : Outcome Text Nat := if a + b < 2 ^ 64 then .ok (a + b) else .panic

namespace Reader

/-- `length` with its sums as the machine takes them. -/
def lengthOnWords (r : Reader) (what : Text) : Outcome Text (Nat × Reader) := do
  let first ← okOr r.bytes[r.cursor]? (what ++ ": the container ended before its length")
  let cursor ← wordSum r.cursor 1
  if first &&& 0x80 = 0 then .ok (first.toNat, ⟨r.bytes, cursor⟩)
  else
    let count := (first &&& 0x7F).toNat
    if count = 0 ∨ count > 4 then .err (what ++ ": unsupported length encoding")
    else do
      let stop ← wordSum cursor count
      let bytes ← okOr (getRange r.bytes cursor stop) (what ++ ": its length field is truncated")
      let len ← okOr (bytes.foldlM lengthStep 0) (what ++ ": its declared length overflows")
      .ok (len, ⟨r.bytes, stop⟩)

/-- `tlv` with its sums as the machine takes them. -/
def tlvOnWords (r : Reader) (what : Text) : Outcome Text ((UInt8 × Reader) × Reader) := do
  let tag ← okOr r.bytes[r.cursor]? (what ++ ": the container ended before its tag")
  let cursor ← wordSum r.cursor 1
  let (len, r) ← lengthOnWords ⟨r.bytes, cursor⟩ what
  let stop ← okOr (if r.cursor + len < 2 ^ 64 then some (r.cursor + len) else none)
    (what ++ ": its declared length overflows")
  match getRange r.bytes r.cursor stop with
  | some value => .ok ((tag, .new value), ⟨r.bytes, stop⟩)
  | none => do
    let remaining ← r.remaining
    .err (what ++ ": declares " ++ Text.ofNat len ++ " bytes and its container holds " ++ Text.ofNat remaining)

section Words

variable {r : Reader}

theorem wordSum_of_lt {a b : Nat} (h : a + b < 2 ^ 64) : wordSum a b = .ok (a + b) := if_pos h

theorem lengthOnWords_eq (hfits : r.bytes.length < 2 ^ 63) (what : Text) : r.lengthOnWords what = r.length what := by
  unfold lengthOnWords Reader.length
  cases hfirst : r.bytes[r.cursor]? with
  | none => rfl
  | some first =>
    have hlt : r.cursor < r.bytes.length := (List.getElem?_eq_some_iff.mp hfirst).1
    rw [okOr_some, ok_bind, ok_bind, wordSum_of_lt (by omega), ok_bind]
    dsimp only
    split
    · rfl
    · split
      · rfl
      · rw [wordSum_of_lt (by omega), ok_bind]

/-- In a container that fits the memory no sum overflows. -/
theorem tlvOnWords_eq (hfits : r.bytes.length < 2 ^ 63) (what : Text) : r.tlvOnWords what = r.tlv what := by
  unfold tlvOnWords Reader.tlv
  cases htag : r.bytes[r.cursor]? with
  | none => rfl
  | some tag =>
    have hlt : r.cursor < r.bytes.length := (List.getElem?_eq_some_iff.mp htag).1
    rw [okOr_some, ok_bind, ok_bind, wordSum_of_lt (by omega), ok_bind]
    exact congrArg (· >>= _) (lengthOnWords_eq (r := ⟨r.bytes, r.cursor + 1⟩) hfits what)

end Words

end Reader

/-- The readers that decoding a datagram may open, and where in the datagram the container of each begins: one of the
datagram itself, and of each element that an open reader reads. -/
inductive Opened (data : Bytes) : Reader → Nat → Prop
  | datagram : Opened data (.new data) 0
  | next {r r' value : Reader} {start : Nat} {tag : UInt8} {what : Text} (h : Opened data r start)
      (hread : r.tlv what = .ok ((tag, value), r')) : Opened data r' start
  | nested {r r' value : Reader} {start : Nat} {tag : UInt8} {what : Text} (h : Opened data r start)
      (hread : r.tlv what = .ok ((tag, value), r')) : Opened data value (start + (r'.cursor - value.bytes.length))

/-- A reader has read an element of its container: the contents lie behind its cursor and before the new one, which is
still in the container. -/
structure ReadInside (r value r' : Reader) : Prop where
  same : r'.bytes = r.bytes
  contents : getRange r.bytes (r'.cursor - value.bytes.length) r'.cursor = some value.bytes
  behind : r.cursor < r'.cursor - value.bytes.length
  within : r'.cursor ≤ r.bytes.length

/-- Decoding keeps to the datagram and to every container in it. -/
structure StaysInside (data : Bytes) : Prop where
  /-- It returns, with a message or an error: no index and no range is outside its slice. -/
  returns : decodeSnmpResponse data ≠ .panic
  /-- The container of every open reader is a range of the datagram, with the cursor in it. -/
  covers : ∀ r start, Opened data r start →
    getRange data start (start + r.bytes.length) = some r.bytes ∧ r.cursor ≤ r.bytes.length
  /-- What an open reader opens is a range of its own container. -/
  nested : ∀ r start, Opened data r start →
    ∀ what tag value r', r.tlv what = .ok ((tag, value), r') → ReadInside r value r'
  /-- No sum overflows: a slice has fewer than 2⁶³ bytes. -/
  words : data.length < 2 ^ 63 → ∀ r start, Opened data r start → ∀ what, r.tlvOnWords what = r.tlv what
  /-- Every element of an accepted response is filled by the elements that were read from it. -/
  consumed : ∀ message, decodeSnmpResponse data = .ok message →
    ∃ layout : ResponseLayout, layout.Fills data ∧ layout.Says message

section Inside

variable {data : Bytes} {r r' value : Reader} {start : Nat}

theorem readInside_of_tlv {what : Text} {tag : UInt8} (h : r.tlv what = .ok ((tag, value), r')) :
    ReadInside r value r' := by
  obtain ⟨bytes, ⟨octets, hoctets, rfl⟩, hahead, -, hbytes, hcursor, hle⟩ := Reader.tlv_inv h
  rw [List.length_append, List.length_cons] at hcursor
  refine ⟨hbytes, ?_, by omega, hle⟩
  have hdrop : r.bytes.drop (r'.cursor - value.bytes.length) = value.bytes ++ r'.ahead := by
    rw [show r'.cursor - value.bytes.length = r.cursor + (tag :: octets).length by rw [List.length_cons]; omega,
      ← List.drop_drop]
    show r.ahead.drop _ = _
    rw [hahead, List.append_assoc, List.drop_left]
  unfold getRange
  rw [if_pos ⟨Nat.sub_le _ _, hle⟩, hdrop, show r'.cursor -
    (r'.cursor - value.bytes.length) = value.bytes.length by omega, List.take_left]

/-- A range of a range is a range of the whole. -/
theorem getRange_getRange {bytes inner : Bytes} {lo hi : Nat}
    (hbytes : getRange data start (start + bytes.length) = some bytes)
    (hinner : getRange bytes lo hi = some inner) : getRange data (start + lo) (start + hi) = some inner := by
  obtain ⟨hle, hhi⟩ := getRange_eq_some hinner
  obtain ⟨-, hstop⟩ := getRange_eq_some hbytes
  unfold getRange at hbytes hinner ⊢
  rw [if_pos ⟨Nat.le_add_right _ _, hstop⟩, Nat.add_sub_cancel_left] at hbytes
  rw [if_pos ⟨hle, hhi⟩] at hinner
  rw [if_pos ⟨by omega, by omega⟩, ← hinner, ← Option.some.inj hbytes, List.drop_take, List.take_take, List.drop_drop]
  congr 2
  omega

/-- The invariant of the open readers. -/
theorem Opened.covers (h : Opened data r start) :
    getRange data start (start + r.bytes.length) = some r.bytes ∧ r.cursor ≤ r.bytes.length := by
  induction h with
  | datagram =>
    refine ⟨?_, Nat.zero_le _⟩
    unfold getRange
    rw [if_pos ⟨Nat.le_add_right _ _, by rw [Nat.zero_add]; exact Nat.le_refl _⟩, Nat.add_sub_cancel_left]
    show some (data.take data.length) = some data
    rw [List.take_length]
  | next _ hread ih =>
    have hinside := readInside_of_tlv hread
    rw [hinside.same]
    exact ⟨ih.1, hinside.within⟩
  | @nested r r' value start tag what _ hread ih =>
    have hinside := readInside_of_tlv hread
    have hnew := (Reader.tlv_inv hread).choose_spec.2.2.1
    have hlen := hinside.behind
    have hrange := getRange_getRange ih.1 hinside.contents
    have hstart : value.cursor = 0 := congrArg Reader.cursor hnew
    refine ⟨?_, by omega⟩
    rwa [show start + r'.cursor = start + (r'.cursor - value.bytes.length) + value.bytes.length by omega] at hrange

/-- **No reader leaves its container**, whatever the bytes are, and a response that is accepted is read to its end. -/
theorem decodeSnmpResponse_stays_inside (data : Bytes) : StaysInside data where
  returns := (safe_decodeSnmpResponse data).ne_panic
  covers := fun _ _ h => h.covers
  nested := fun _ _ _ _ _ _ _ hread => readInside_of_tlv hread
  words := by
    intro hfits r start h what
    have hstop := (getRange_eq_some h.covers.1).2
    exact Reader.tlvOnWords_eq (by omega) what
  consumed := by
    intro message hmessage
    obtain ⟨layout, hfills, htold, -⟩ := decodeSnmpResponse_inv hmessage
    exact ⟨layout, hfills, htold⟩

end Inside

end Idnx
