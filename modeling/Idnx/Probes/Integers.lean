import Idnx.Probes.Layout

/-!
# The integers of a response

A response says its integers in two's complement, in as many octets as its sender likes; the decoder reads 64 bits of
them and reports 32 bits of most. The elements of a response are determined by its bytes
(`ResponseLayout.fills_unique`), so it can be said which responses are reported as they were sent: those whose
integers have contents and fit what is reported (`integers_as_sent_iff`).
-/

namespace Idnx

open Outcome

/-! ## What is reported of one integer -/

/-- The contents are those of an integer, and it is this one. -/
def SaysInteger (value : Bytes) (n : Int) : Prop := value ≠ [] ∧ signedValue value = n

/-- The contents are those of an integer from `lo` on and below `hi`. -/
def FitsIn (lo hi : Int) (value : Bytes) : Prop := value ≠ [] ∧ lo ≤ signedValue value ∧ signedValue value < hi

section Fields

variable {value : Bytes}

/-- All 64 bits are reported of an integer value. -/
theorem saysInteger_i64_iff : SaysInteger value (decodeIntegerValue value) ↔ FitsIn (-2 ^ 63) (2 ^ 63) value := by
  unfold SaysInteger FitsIn
  rw [decodeIntegerValue_eq]
  refine and_congr_right fun _ => ⟨?_, ?_⟩
  · intro h
    have hlo := Int.le_bmod (x := signedValue value) (m := 2 ^ 64) (by decide)
    have hhi := Int.bmod_lt (x := signedValue value) (m := 2 ^ 64) (by decide)
    omega
  · rintro ⟨hlo, hhi⟩
    exact (Int.bmod_eq_of_le (by omega) (by omega)).symm

theorem decodeIntegerValue_of_fits (h : FitsIn (-2 ^ 63) (2 ^ 63) value) :
    decodeIntegerValue value = signedValue value := by
  rw [← saysInteger_i64_iff] at h
  exact h.2.symm

/-- The low 32 bits are reported of a field. -/
theorem saysInteger_i32_iff :
    SaysInteger value (Int32.ofInt (decodeIntegerValue value)).toInt ↔ FitsIn (-2 ^ 31) (2 ^ 31) value := by
  refine and_congr_right fun hne => ⟨?_, ?_⟩
  · intro h
    rw [h]
    exact ⟨Int32.le_toInt _, Int32.toInt_lt _⟩
  · rintro ⟨hlo, hhi⟩
    rw [decodeIntegerValue_of_fits ⟨hne, by omega, by omega⟩]
    exact (Int32.toInt_ofInt_of_le hlo hhi).symm

/-- The low 32 bits, without a sign, are reported of a counter. -/
theorem saysInteger_u32_iff : SaysInteger value (asU32 (decodeIntegerValue value)).toNat ↔
    FitsIn 0 (2 ^ 32) value := by
  refine and_congr_right fun hne => ⟨?_, ?_⟩
  · intro h
    have := (asU32 (decodeIntegerValue value)).toNat_lt
    omega
  · rintro ⟨hlo, hhi⟩
    unfold asU32
    rw [decodeIntegerValue_of_fits ⟨hne, by omega, by omega⟩, UInt32.toNat_ofNat']
    omega

end Fields

/-! ## What is reported of a response -/

/-- The integer that a value reports, if it is one. -/
def BerValue.reportedInteger : BerValue → Option Int
  | .integer v => some v
  | .counter32 v => some v.toNat
  | .gauge32 v => some v.toNat
  | .timeTicks v => some v.toNat
  | _ => none

/-- The integer that was read, if it is one, is the one in the message. -/
def BindingLayout.Reported (layout : BindingLayout) (varbind : Oid × BerValue) : Prop :=
  ∀ n, varbind.2.reportedInteger = some n → SaysInteger layout.value n

/-- Every integer that was read is the one in the message. -/
structure ResponseLayout.Reported (layout : ResponseLayout) (message : SnmpMessage) : Prop where
  version : SaysInteger layout.version message.version.toInt
  requestId : SaysInteger layout.requestId message.pdu.requestId.toInt
  errorStatus : SaysInteger layout.errorStatus message.pdu.errorStatus.toInt
  errorIndex : SaysInteger layout.errorIndex message.pdu.errorIndex.toInt
  varbinds : List.Forall₂ BindingLayout.Reported layout.bindings message.pdu.varbinds

/-- A response is accepted only if it is reported as it was sent. -/
def IntegersAsSent (data : Bytes) : Prop :=
  ∀ message, decodeSnmpResponse data = .ok message → ∃ layout : ResponseLayout, layout.Fills data ∧
  layout.Reported message

/-- The tags of the values that are read as counters. -/
def IsCounter (tag : UInt8) : Prop := tag = tagCounter32 ∨ tag = tagGauge32 ∨ tag = tagTimeTicks

/-- The value fits what is reported of one with its tag. -/
def BindingLayout.Fits (layout : BindingLayout) : Prop :=
  (layout.tag = tagInteger → FitsIn (-2 ^ 63) (2 ^ 63) layout.value) ∧
    (IsCounter layout.tag → FitsIn 0 (2 ^ 32) layout.value)

/-- Every integer of the response fits what is reported of it. -/
structure ResponseLayout.Fits (layout : ResponseLayout) : Prop where
  version : FitsIn (-2 ^ 31) (2 ^ 31) layout.version
  requestId : FitsIn (-2 ^ 31) (2 ^ 31) layout.requestId
  errorStatus : FitsIn (-2 ^ 31) (2 ^ 31) layout.errorStatus
  errorIndex : FitsIn (-2 ^ 31) (2 ^ 31) layout.errorIndex
  bindings : ∀ b ∈ layout.bindings, b.Fits

/-- Which values report an integer, by their tag. -/
theorem decodeValue_reportedInteger {tag : UInt8} {value : Bytes} {v : BerValue} (h : decodeValue tag value = .ok v) :
    (tag = tagInteger ∧ v.reportedInteger = some (decodeIntegerValue value)) ∨
      (IsCounter tag ∧ tag ≠ tagInteger ∧ v.reportedInteger = some ((asU32 (decodeIntegerValue value)).toNat : Int)) ∨
      (¬ IsCounter tag ∧ tag ≠ tagInteger ∧ v.reportedInteger = none) := by
  unfold decodeValue at h
  by_cases hinteger : tag = tagInteger
  · rw [if_pos hinteger] at h
    cases h
    exact .inl ⟨hinteger, rfl⟩
  rw [if_neg hinteger] at h
  right
  by_cases hcounter : IsCounter tag
  · refine .inl ⟨hcounter, hinteger, ?_⟩
    obtain rfl | rfl | rfl := hcounter
    · cases h
      rfl
    · cases h
      rfl
    · cases h
      rfl
  · refine .inr ⟨hcounter, hinteger, ?_⟩
    obtain ⟨hfirst, hsecond, hthird⟩ : ¬ tag = tagCounter32 ∧ ¬ tag = tagGauge32 ∧ ¬ tag = tagTimeTicks :=
      ⟨fun e => hcounter (.inl e), fun e => hcounter (.inr (.inl e)), fun e => hcounter (.inr (.inr e))⟩
    rw [if_neg hfirst, if_neg hsecond, if_neg hthird] at h
    split_ifs at h
    · cases h
      rfl
    · cases h
      rfl
    · obtain ⟨oid, -, h⟩ := bind_eq_ok.mp h
      cases h
      rfl
    · obtain ⟨a, -, h⟩ := bind_eq_ok.mp h
      obtain ⟨b, -, h⟩ := bind_eq_ok.mp h
      obtain ⟨c, -, h⟩ := bind_eq_ok.mp h
      obtain ⟨d, -, h⟩ := bind_eq_ok.mp h
      cases h
      rfl
    · cases h
      rfl

/-- A varbind is reported as it was sent if its value fits. -/
theorem BindingLayout.reported_iff {layout : BindingLayout} {varbind : Oid × BerValue} (h : layout.Says varbind) :
    layout.Reported varbind ↔ layout.Fits := by
  have hsome : ∀ {m : Int}, varbind.2.reportedInteger = some m →
    (layout.Reported varbind ↔ SaysInteger layout.value m) := by
    intro m hm
    refine ⟨fun hreported => hreported m hm, fun hsays n hn => ?_⟩
    obtain rfl : m = n := Option.some.inj (hm.symm.trans hn)
    exact hsays
  obtain ⟨htag, hm⟩ | ⟨hcounter, htag, hm⟩ | ⟨hcounter, htag, hm⟩ := decodeValue_reportedInteger h.2
  · have hcounter : ¬ IsCounter layout.tag := by
      rw [htag]
      unfold IsCounter
      decide
    rw [hsome hm, saysInteger_i64_iff]
    exact ⟨fun hfits => ⟨fun _ => hfits, fun hc => absurd hc hcounter⟩, fun hfits => hfits.1 htag⟩
  · rw [hsome hm, saysInteger_u32_iff]
    exact ⟨fun hfits => ⟨fun hinteger => absurd hinteger htag, fun _ => hfits⟩, fun hfits => hfits.2 hcounter⟩
  · refine ⟨fun _ => ⟨fun hinteger => absurd hinteger htag, fun hc => absurd hc hcounter⟩, fun _ n hn => ?_⟩
    rw [hm] at hn
    cases hn

/-- So are the varbinds of a list. -/
theorem bindings_reported_iff {layouts : List BindingLayout} {varbinds : List (Oid × BerValue)}
    (h : List.Forall₂ BindingLayout.Says layouts varbinds) :
    List.Forall₂ BindingLayout.Reported layouts varbinds ↔ ∀ b ∈ layouts, b.Fits := by
  induction h with
  | nil => simp
  | cons hfirst _ ih => rw [List.forall₂_cons, List.forall_mem_cons, ih, BindingLayout.reported_iff hfirst]

/-- A response is reported as it was sent if its integers fit. -/
theorem ResponseLayout.reported_iff {layout : ResponseLayout} {message : SnmpMessage} (h : layout.Says message) :
    layout.Reported message ↔ layout.Fits := by
  have hfield : ∀ {value : Bytes} {n : Int32}, n = Int32.ofInt (decodeIntegerValue value) →
      (SaysInteger value n.toInt ↔ FitsIn (-2 ^ 31) (2 ^ 31) value) := by
    rintro value n rfl
    exact saysInteger_i32_iff
  have hversion := hfield h.version
  have hid := hfield h.pdu.requestId
  have hstatus := hfield h.pdu.errorStatus
  have hindex := hfield h.pdu.errorIndex
  have hbindings := bindings_reported_iff h.pdu.varbinds
  constructor
  · intro hr
    exact ⟨hversion.mp hr.version, hid.mp hr.requestId, hstatus.mp hr.errorStatus, hindex.mp hr.errorIndex,
      hbindings.mp hr.varbinds⟩
  · intro hf
    exact ⟨hversion.mpr hf.version, hid.mpr hf.requestId, hstatus.mpr hf.errorStatus, hindex.mpr hf.errorIndex,
      hbindings.mpr hf.bindings⟩

/-! ## The elements of a response are determined -/

section Unique

variable {tag tag' : UInt8} {value value' bytes bytes' left left' : Bytes}

/-- Bytes begin with one element at most: a reader reads it, and reading is a function. -/
theorem isTlv_unique (h : IsTlv tag value bytes) (h' : IsTlv tag' value' bytes')
    (heq : bytes ++ left = bytes' ++ left')
    (hfits : (bytes ++ left).length < 2 ^ 64) : tag = tag' ∧ value = value' ∧ left = left' := by
  obtain ⟨r, hread, hleft⟩ := (Reader.left_new hfits).tlv h []
  obtain ⟨r', hread', hleft'⟩ := (Reader.left_new (heq ▸ hfits)).tlv h' []
  rw [heq, hread'] at hread
  injection hread with hread
  injection hread with helement hrest
  injection helement with htag hvalue
  injection hvalue with hvalue _
  refine ⟨htag.symm, hvalue.symm, ?_⟩
  rw [← hleft.drop, ← hleft'.drop, hrest]

/-- The same of two elements that fill their bytes. -/
theorem isTlv_unique_of_eq (h : IsTlv tag value bytes) (h' : IsTlv tag' value' bytes') (heq : bytes = bytes') :
    tag = tag' ∧ value = value' := by
  have hends : bytes ++ [] = bytes' ++ [] := by rw [heq]
  obtain ⟨htag, hvalue, -⟩ := isTlv_unique h h' hends (by rw [List.append_nil]; exact h.fits)
  exact ⟨htag, hvalue⟩

variable {layout layout' : BindingLayout}

theorem BindingLayout.fills_unique (h : layout.Fills bytes) (h' : layout'.Fills bytes')
    (heq : bytes ++ left = bytes' ++ left') (hfits : (bytes ++ left).length < 2 ^ 64) :
    layout = layout' ∧ left = left' := by
  obtain ⟨name, content, hname, hcontent, hwhole⟩ := h
  obtain ⟨name', content', hname', hcontent', hwhole'⟩ := h'
  obtain ⟨-, hinner, hleft⟩ := isTlv_unique hwhole hwhole' heq hfits
  have hlen := hwhole.length_lt
  have hbytes := hwhole.fits
  obtain ⟨-, hnames, hcontents⟩ := isTlv_unique hname hname' hinner (by omega)
  obtain ⟨htags, hvalues⟩ := isTlv_unique_of_eq hcontent hcontent' hcontents
  refine ⟨?_, hleft⟩
  cases layout
  cases layout'
  simp_all

theorem bindings_unique {layouts layouts' : List BindingLayout} {bindings bindings' : List Bytes}
    (h : List.Forall₂ BindingLayout.Fills layouts bindings) (h' : List.Forall₂ BindingLayout.Fills layouts' bindings')
    (heq : bindings.flatten = bindings'.flatten) (hfits : bindings.flatten.length < 2 ^ 64) : layouts = layouts' := by
  have hpos : ∀ {layout : BindingLayout} {bytes : Bytes}, layout.Fills bytes → 0 < bytes.length := by
    rintro layout bytes ⟨name, content, -, -, hwhole⟩
    have := hwhole.length_lt
    omega
  induction h generalizing layouts' bindings' with
  | nil =>
    cases h' with
    | nil => rfl
    | cons hfirst _ =>
      have hlen := congrArg List.length heq
      have := hpos hfirst
      rw [List.flatten_cons, List.length_append, List.flatten_nil, List.length_nil] at hlen
      omega
  | cons hfirst _ ih =>
    cases h' with
    | nil =>
      have hlen := congrArg List.length heq
      have := hpos hfirst
      rw [List.flatten_cons, List.length_append, List.flatten_nil, List.length_nil] at hlen
      omega
    | cons hfirst' hrest' =>
      rw [List.flatten_cons, List.flatten_cons] at heq
      rw [List.flatten_cons] at hfits
      obtain ⟨rfl, hrest⟩ := BindingLayout.fills_unique hfirst hfirst' heq hfits
      rw [List.length_append] at hfits
      rw [ih hrest' hrest (by omega)]

/-- The bytes of a response have one layout. -/
theorem ResponseLayout.fills_unique {layout layout' : ResponseLayout} (h : layout.Fills bytes)
    (h' : layout'.Fills bytes) :
    layout = layout' := by
  obtain ⟨number, name, pdu, hnumber, hname, ⟨id, status, index, bindings, list, hid, hstatus, hindex, hbindings,
    hlist, hpdu⟩, hwhole⟩ := h
  obtain ⟨number', name', pdu', hnumber', hname', ⟨id', status', index', bindings', list', hid', hstatus', hindex',
    hbindings', hlist', hpdu'⟩, hwhole'⟩ := h'
  have hfits := hwhole.fits
  have hlen := hwhole.length_lt
  obtain ⟨-, hmessage⟩ := isTlv_unique_of_eq hwhole hwhole' rfl
  obtain ⟨-, hversions, hmessage⟩ := isTlv_unique hnumber hnumber' hmessage (by omega)
  rw [List.length_append] at hlen
  obtain ⟨-, hcommunities, hmessage⟩ := isTlv_unique hname hname' hmessage (by omega)
  rw [List.length_append] at hlen
  obtain ⟨htypes, hbody⟩ := isTlv_unique_of_eq hpdu hpdu' hmessage
  have hlenPdu := hpdu.length_lt
  have hfitsPdu := hpdu.fits
  obtain ⟨-, hids, hbody⟩ := isTlv_unique hid hid' hbody (by omega)
  rw [List.length_append] at hlenPdu
  obtain ⟨-, hstatuses, hbody⟩ := isTlv_unique hstatus hstatus' hbody (by omega)
  rw [List.length_append] at hlenPdu
  obtain ⟨-, hindices, hbody⟩ := isTlv_unique hindex hindex' hbody (by omega)
  obtain ⟨-, hlists⟩ := isTlv_unique_of_eq hlist hlist' hbody
  have hlenList := hlist.length_lt
  have hfitsList := hlist.fits
  have hall := bindings_unique hbindings hbindings' hlists (by omega)
  cases layout
  cases layout'
  simp_all

end Unique

/-! ## Which responses are reported as they were sent -/

/-- Whatever the elements of a varbind hold, something is read from them. -/
theorem BindingLayout.exists_says (layout : BindingLayout) : ∃ varbind, layout.Says varbind := by
  obtain ⟨v, hv, -⟩ := exists_decodeValue layout.tag layout.value
  cases hname : layout.name with
  | nil => exact ⟨([], v), by rw [hname]; rfl, hv⟩
  | cons first rest =>
    obtain ⟨more, hmore⟩ := decodeOidValue_cons first rest
    exact ⟨(_, v), by rw [hname]; exact hmore, hv⟩

theorem ResponseLayout.exists_says (layout : ResponseLayout) : ∃ message, layout.Says message := by
  obtain ⟨varbinds, hvarbinds⟩ : ∃ varbinds, List.Forall₂ BindingLayout.Says layout.bindings varbinds := by
    induction layout.bindings with
    | nil => exact ⟨[], .nil⟩
    | cons b bindings ih =>
      obtain ⟨varbind, hvarbind⟩ := b.exists_says
      obtain ⟨varbinds, hvarbinds⟩ := ih
      exact ⟨varbind :: varbinds, .cons hvarbind hvarbinds⟩
  exact ⟨⟨_, _, ⟨_, _, _, _, varbinds⟩⟩, rfl, rfl, rfl, rfl, rfl, rfl, hvarbinds⟩

/-- The responses whose integers all fit: if the bytes are laid out as a response that is read to its end, every
integer in it has contents and fits what is reported of it. -/
def IntegersFit (data : Bytes) : Prop :=
  ∀ layout : ResponseLayout, layout.Fills data → layout.bindings.length ≤ maxVarbinds → layout.Fits

theorem integersAsSent_iff_fit (data : Bytes) : IntegersAsSent data ↔ IntegersFit data := by
  constructor
  · intro hsent layout hfills hroom
    obtain ⟨message, htold⟩ := layout.exists_says
    obtain ⟨layout', hfills', hreported⟩ := hsent message (decodeSnmpResponse_of_fills hfills htold hroom)
    rw [← ResponseLayout.fills_unique hfills hfills'] at hreported
    exact (ResponseLayout.reported_iff htold).mp hreported
  · intro hfit message hmessage
    obtain ⟨layout, hfills, htold, hroom⟩ := decodeSnmpResponse_inv hmessage
    exact ⟨layout, hfills, (ResponseLayout.reported_iff htold).mpr (hfit layout hfills hroom)⟩

/-- An integer of 64 bits is read as it was written. -/
def IntegersRoundTrip : Prop :=
  ∀ i : Int64, ∃ contents, encodeInteger i.toInt = encodeTlv tagInteger contents ∧
  decodeIntegerValue contents = i.toInt

/-- **Integers are read as they are on the wire exactly when they fit what is reported of them.** -/
theorem integers_as_sent_iff (data : Bytes) : (IntegersRoundTrip ∧ IntegersAsSent data) ↔ IntegersFit data := by
  have hround : IntegersRoundTrip := by
    intro i
    have hlo := i.le_toInt
    have hhi := i.toInt_lt
    exact ⟨integerBytes i.toInt, rfl, decodeIntegerValue_integerBytes (by omega) (by omega)⟩
  rw [integersAsSent_iff_fit]
  exact and_iff_right hround

/-- A response whose request id is 2³² + 7, in five octets. -/
def wideReply : Bytes :=
  [0x30, 0x1C, 0x02, 0x01, 0x01, 0x04, 0x06, 0x70, 0x75, 0x62, 0x6C, 0x69, 0x63, 0xA2, 0x0F, 0x02, 0x05, 0x01, 0x00,
    0x00, 0x00, 0x07, 0x02, 0x01, 0x00, 0x02, 0x01, 0x00, 0x30, 0x00]

/-- The elements of it. -/
def wideLayout : ResponseLayout :=
  ⟨[0x01], [0x70, 0x75, 0x62, 0x6C, 0x69, 0x63], 0xA2, [0x01, 0x00, 0x00, 0x00, 0x07], [0x00], [0x00], []⟩

theorem wideLayout_fills : wideLayout.Fills wideReply := by
  have hshort : ∀ (tag : UInt8) {value : Bytes}, value.length < 128 →
      IsTlv tag value (tag :: UInt8.ofNat value.length :: value) := fun tag value h => ⟨_, .inl ⟨h, rfl⟩, rfl⟩
  refine ⟨_, _, _, hshort tagInteger (by decide), hshort tagOctetString (by decide),
    ⟨_, _, _, _, _, hshort tagInteger (by decide), hshort tagInteger (by decide), hshort tagInteger (by decide), .nil,
      hshort tagSequence (by decide), hshort 0xA2 (by decide)⟩, ?_⟩
  exact hshort tagSequence (by decide)

/-- It is accepted as the answer to request 7. -/
theorem wide_request_id_wraps : ¬ IntegersAsSent wideReply ∧
    (wideLayout.Fills wideReply ∧ SaysInteger wideLayout.requestId (2 ^ 32 + 7)) ∧
    decodeSnmpResponse wideReply = .ok ⟨1, "public", ⟨pduGetResponse, 7, 0, 0, []⟩⟩ := by
  refine ⟨fun hsent => ?_, ⟨wideLayout_fills, by decide, by decide⟩, by decide +kernel⟩
  have hfit := (integersAsSent_iff_fit wideReply).mp hsent wideLayout wideLayout_fills (by decide)
  exact absurd hfit.requestId.2.2 (by decide)

end Idnx
