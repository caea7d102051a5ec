import Idnx.Lib.Utf8
import Idnx.Net.Address
import Idnx.Probes.Ber

/-!
# SNMPv2c messages

The request a client sends and the response it decodes. `IsMessage` says which bytes are a message with given fields,
in any of the forms a length may take; `decodeSnmpResponse` reads the fields back (`decodeSnmpResponse_of_isMessage`),
it never panics (`safe_decodeSnmpResponse`), and what `buildSnmpRequest` builds is such a message
(`isMessage_buildSnmpRequest`).
-/

namespace Idnx

open Outcome

def tagIpAddress : UInt8 := 0x40
def tagCounter32 : UInt8 := 0x41
def tagGauge32 : UInt8 := 0x42
def tagTimeTicks : UInt8 := 0x43

def pduGetRequest : UInt8 := 0xA0
def pduGetNextRequest : UInt8 := 0xA1
def pduGetResponse : UInt8 := 0xA2

def tagNoSuchObject : UInt8 := 0x80
def tagNoSuchInstance : UInt8 := 0x81
def tagEndOfMibView : UInt8 := 0x82

/-- The most varbinds one response may carry (`MAX_VARBINDS`). -/
def maxVarbinds : Nat := 128

/-- A decoded value. -/
inductive BerValue where
  | integer (v : Int)
  | octetString (bytes : Bytes)
  | null
  | oid (oid : Oid)
  | ipAddress (addr : Ipv4Addr)
  | counter32 (v : UInt32)
  | gauge32 (v : UInt32)
  | timeTicks (v : UInt32)
  | unknown (tag : UInt8) (bytes : Bytes)
  deriving DecidableEq, Repr

namespace BerValue

def isEndOfMibView : BerValue → Bool
  | .unknown tag _ => tag = tagEndOfMibView
  | _ => false

/-- The agent says that the object or instance does not exist. -/
def isAbsent : BerValue → Bool
  | .unknown tag _ => tag = tagNoSuchObject || tag = tagNoSuchInstance
  | _ => false

end BerValue

structure SnmpPdu where
  pduType : UInt8
  requestId : Int32
  errorStatus : Int32
  errorIndex : Int32
  varbinds : List (Oid × BerValue)
  deriving DecidableEq, Repr

structure SnmpMessage where
  version : Int32
  community : Text
  pdu : SnmpPdu
  deriving DecidableEq, Repr

/-! ## The request -/

def buildSnmpRequest (version : Int32) (community : Text) (requestId : Int32) (pduType : UInt8) (oid : Oid) : Bytes :=
  let varbind := encodeTlv tagSequence (encodeOid oid ++ encodeNull)
  let varbindList := encodeTlv tagSequence varbind
  let pdu := encodeTlv pduType (encodeInteger requestId.toInt ++ encodeInteger 0 ++ encodeInteger 0 ++ varbindList)
  encodeTlv tagSequence (encodeInteger version.toInt ++ encodeOctetString community.asBytes ++ pdu)

/-! ## The response -/

/-- The value of a varbind, by its tag. -/
def decodeValue (tag : UInt8) (bytes : Bytes) : Outcome Text BerValue :=
  if tag = tagInteger then .ok (.integer (decodeIntegerValue bytes))
  else if tag = tagOctetString then .ok (.octetString bytes)
  else if tag = tagNull then .ok .null
  else if tag = tagObjectIdentifier then do
    let oid ← decodeOidValue bytes
    .ok (.oid oid)
  else if tag = tagIpAddress ∧ bytes.length = 4 then do
    let a ← index bytes 0
    let b ← index bytes 1
    let c ← index bytes 2
    let d ← index bytes 3
    .ok (.ipAddress (Ipv4Addr.new a.toNat b.toNat c.toNat d.toNat))
  else if tag = tagCounter32 then .ok (.counter32 (asU32 (decodeIntegerValue bytes)))
  else if tag = tagGauge32 then .ok (.gauge32 (asU32 (decodeIntegerValue bytes)))
  else if tag = tagTimeTicks then .ok (.timeTicks (asU32 (decodeIntegerValue bytes)))
  else .ok (.unknown tag bytes)

/-- One varbind of the list, and the list behind it. -/
def readVarbind (list : Reader) : Outcome Text ((Oid × BerValue) × Reader) := do
  let (varbind, list) ← list.expect "a varbind" tagSequence
  let (name, varbind) ← varbind.expect "a varbind's OID" tagObjectIdentifier
  let nameBytes ← name.rest
  let oid ← decodeOidValue nameBytes
  let ((tag, value), varbind) ← varbind.tlv "a varbind's value"
  varbind.finished "a varbind"
  let bytes ← value.rest
  let decoded ← decodeValue tag bytes
  .ok ((oid, decoded), list)

/-- The varbinds of a list, as long as there are no more than `room`. -/
def readVarbinds (room : Nat) (list : Reader) : Outcome Text (List (Oid × BerValue)) :=
  if list.done then .ok []
  else do
    let (varbind, list) ← readVarbind list
    match room with
    | 0 =>
      .err (("the varbind list carries more than the " : Text) ++ Text.ofNat maxVarbinds ++ " this reads")
    | room + 1 => do
      let varbinds ← readVarbinds room list
      .ok (varbind :: varbinds)

def decodePduBody (pduType : UInt8) (pdu : Reader) : Outcome Text SnmpPdu := do
  let (requestId, pdu) ← pdu.integer "the request id"
  let (errorStatus, pdu) ← pdu.integer "the error status"
  let (errorIndex, pdu) ← pdu.integer "the error index"
  let (list, pdu) ← pdu.expect "the varbind list" tagSequence
  pdu.finished "the PDU"
  let varbinds ← readVarbinds maxVarbinds list
  .ok ⟨pduType, Int32.ofInt requestId, Int32.ofInt errorStatus, Int32.ofInt errorIndex, varbinds⟩

def decodeSnmpResponse (data : Bytes) : Outcome Text SnmpMessage := do
  let (message, outer) ← (Reader.new data).expect "the message" tagSequence
  outer.finished "the datagram"
  let (version, message) ← message.integer "the version"
  let (name, message) ← message.expect "the community" tagOctetString
  let community ← name.rest
  let ((pduType, pdu), message) ← message.tlv "the PDU"
  message.finished "the message"
  let pdu ← decodePduBody pduType pdu
  .ok ⟨Int32.ofInt version, Text.fromUtf8Lossy community, pdu⟩

/-! ## Decoding never panics -/

theorem safe_decodeOidValue (data : Bytes) : Safe (fun _ => True) (decodeOidValue data) := by
  unfold decodeOidValue
  split
  · trivial
  · trivial

/-- Every tag and contents make a value, and one of no known kind keeps its tag. -/
theorem exists_decodeValue (tag : UInt8) (bytes : Bytes) :
    ∃ v, decodeValue tag bytes = .ok v ∧ ∀ t b, v = .unknown t b → t = tag := by
  unfold decodeValue
  split
  · exact ⟨_, rfl, nofun⟩
  split
  · exact ⟨_, rfl, nofun⟩
  split
  · exact ⟨_, rfl, nofun⟩
  split
  · unfold decodeOidValue
    split
    · exact ⟨_, rfl, nofun⟩
    · exact ⟨_, rfl, nofun⟩
  split
  · rename_i hfour
    obtain ⟨a, b, c, d, rfl⟩ : ∃ a b c d, bytes = [a, b, c, d] := by
      match bytes, hfour.2 with
      | [a, b, c, d], _ => exact ⟨a, b, c, d, rfl⟩
    exact ⟨_, rfl, nofun⟩
  split
  · exact ⟨_, rfl, nofun⟩
  split
  · exact ⟨_, rfl, nofun⟩
  split
  · exact ⟨_, rfl, nofun⟩
  · exact ⟨_, rfl, fun t b h => (BerValue.unknown.inj h).1.symm⟩

theorem safe_readVarbind (list : Reader) : Safe (fun p => p.2.Sound) (readVarbind list) := by
  unfold readVarbind
  refine (Reader.safe_expect list _ _).bind fun ⟨varbind, list'⟩ hlist => ?_
  refine (Reader.safe_expect varbind _ _).bind fun ⟨name, varbind'⟩ hname => hname.1.rest.bind fun nameBytes _ => ?_
  refine (safe_decodeOidValue nameBytes).bind fun oid _ =>
    (Reader.safe_tlv varbind' _).bind fun ⟨⟨tag, value⟩, left⟩ hp => ?_
  refine (hp.2.finished _).bind fun _ _ => hp.1.rest.bind fun bytes _ => ?_
  obtain ⟨v, hv, -⟩ := exists_decodeValue tag bytes
  rw [hv]
  exact hlist.2

theorem safe_readVarbinds (room : Nat) (list : Reader) : Safe (fun _ => True) (readVarbinds room list) := by
  induction room generalizing list with
  | zero =>
    unfold readVarbinds
    split
    · trivial
    · exact (safe_readVarbind list).bind fun _ _ => trivial
  | succ room ih =>
    unfold readVarbinds
    split
    · trivial
    · exact (safe_readVarbind list).bind fun p _ => (ih p.2).bind fun _ _ => trivial

theorem safe_decodePduBody (pduType : UInt8) (pdu : Reader) : Safe (fun _ => True) (decodePduBody pduType pdu) := by
  unfold decodePduBody
  refine (Reader.safe_integer pdu _).bind fun ⟨_, pdu⟩ _ => (Reader.safe_integer pdu _).bind fun ⟨_, pdu⟩ _ => ?_
  refine (Reader.safe_integer pdu _).bind fun ⟨_, pdu⟩ _ => (Reader.safe_expect pdu _ _).bind fun ⟨list, pdu⟩ hp => ?_
  exact (hp.2.finished _).bind fun _ _ => (safe_readVarbinds maxVarbinds list).bind fun _ _ => trivial

/-- Whatever arrives, the decoder returns a message or an error. -/
theorem safe_decodeSnmpResponse (data : Bytes) : Safe (fun _ => True) (decodeSnmpResponse data) := by
  unfold decodeSnmpResponse
  refine (Reader.safe_expect _ _ _).bind fun ⟨message, outer⟩ hp => (hp.2.finished _).bind fun _ _ => ?_
  refine (Reader.safe_integer message _).bind fun ⟨_, message⟩ _ => ?_
  refine (Reader.safe_expect message _ _).bind fun ⟨name, message⟩ hname => hname.1.rest.bind fun _ _ => ?_
  refine (Reader.safe_tlv message _).bind fun ⟨⟨pduType, pdu⟩, message⟩ hpdu => (hpdu.2.finished _).bind fun _ _ => ?_
  exact (safe_decodePduBody pduType pdu).bind fun _ _ => trivial

/-! ## Messages as they may be written -/

/-- The bytes are a varbind: a name and a value of any kind. -/
def IsVarbind (oid : Oid) (tag : UInt8) (value bytes : Bytes) : Prop :=
  ∃ name content, IsTlv tagObjectIdentifier (oidBody oid) name ∧ IsTlv tag value content ∧
    IsTlv tagSequence (name ++ content) bytes

/-- The bytes are a PDU with one varbind. -/
def IsPdu (pduType : UInt8) (requestId errorStatus errorIndex : Int32) (oid : Oid) (tag : UInt8)
    (value bytes : Bytes) :
    Prop :=
  ∃ id status index varbind list, IsTlv tagInteger (integerBytes requestId.toInt) id ∧
    IsTlv tagInteger (integerBytes errorStatus.toInt) status ∧
    IsTlv tagInteger (integerBytes errorIndex.toInt) index ∧ IsVarbind oid tag value varbind ∧
    IsTlv tagSequence varbind list ∧ IsTlv pduType (id ++ (status ++ (index ++ list))) bytes

/-- The bytes are a message with one varbind. -/
def IsMessage (version : Int32) (community : Text) (pduType : UInt8) (requestId errorStatus errorIndex : Int32)
    (oid : Oid)
    (tag : UInt8) (value bytes : Bytes) : Prop :=
  ∃ number name pdu, IsTlv tagInteger (integerBytes version.toInt) number ∧
    IsTlv tagOctetString community.asBytes name ∧ IsPdu pduType requestId errorStatus errorIndex oid tag value pdu ∧
    IsTlv tagSequence (number ++ (name ++ pdu)) bytes

/-! ## The layout of a response -/

/-- The contents of the two elements of a varbind. -/
structure BindingLayout where
  name : Bytes
  tag : UInt8
  value : Bytes

/-- The contents of the elements of a response. -/
structure ResponseLayout where
  version : Bytes
  community : Bytes
  pduType : UInt8
  requestId : Bytes
  errorStatus : Bytes
  errorIndex : Bytes
  bindings : List BindingLayout

/-- The bytes are a varbind with these elements and nothing else. -/
def BindingLayout.Fills (layout : BindingLayout) (bytes : Bytes) : Prop :=
  ∃ name content, IsTlv tagObjectIdentifier layout.name name ∧ IsTlv layout.tag layout.value content ∧
    IsTlv tagSequence (name ++ content) bytes

namespace ResponseLayout

/-- The bytes are a PDU with these elements and nothing else. -/
def FillsPdu (layout : ResponseLayout) (bytes : Bytes) : Prop :=
  ∃ id status index bindings list, IsTlv tagInteger layout.requestId id ∧ IsTlv tagInteger layout.errorStatus status ∧
    IsTlv tagInteger layout.errorIndex index ∧ List.Forall₂ BindingLayout.Fills layout.bindings bindings ∧
    IsTlv tagSequence bindings.flatten list ∧ IsTlv layout.pduType (id ++ (status ++ (index ++ list))) bytes

/-- The bytes are a message with these elements and nothing else. -/
def Fills (layout : ResponseLayout) (bytes : Bytes) : Prop :=
  ∃ number name pdu, IsTlv tagInteger layout.version number ∧ IsTlv tagOctetString layout.community name ∧
    layout.FillsPdu pdu ∧ IsTlv tagSequence (number ++ (name ++ pdu)) bytes

end ResponseLayout

/-- What is read from the elements of a varbind. -/
def BindingLayout.Says (layout : BindingLayout) (varbind : Oid × BerValue) : Prop :=
  decodeOidValue layout.name = .ok varbind.1 ∧ decodeValue layout.tag layout.value = .ok varbind.2

/-- What is read from the elements of a PDU. -/
structure ResponseLayout.SaysPdu (layout : ResponseLayout) (pdu : SnmpPdu) : Prop where
  pduType : pdu.pduType = layout.pduType
  requestId : pdu.requestId = Int32.ofInt (decodeIntegerValue layout.requestId)
  errorStatus : pdu.errorStatus = Int32.ofInt (decodeIntegerValue layout.errorStatus)
  errorIndex : pdu.errorIndex = Int32.ofInt (decodeIntegerValue layout.errorIndex)
  varbinds : List.Forall₂ BindingLayout.Says layout.bindings pdu.varbinds

/-- What is read from the elements of a response. -/
structure ResponseLayout.Says (layout : ResponseLayout) (message : SnmpMessage) : Prop where
  version : message.version = Int32.ofInt (decodeIntegerValue layout.version)
  community : message.community = Text.fromUtf8Lossy layout.community
  pdu : layout.SaysPdu message.pdu

section Decode

variable {r : Reader} {bytes left : Bytes}

theorem readVarbind_of_fills {layout : BindingLayout} {varbind : Oid × BerValue} (hb : layout.Fills bytes)
    (htold : layout.Says varbind) (h : r.Left (bytes ++ left)) :
    ∃ r', readVarbind r = .ok (varbind, r') ∧ r'.Left left := by
  obtain ⟨name, content, hname, hcontent, hwhole⟩ := hb
  obtain ⟨r', hr, hleft⟩ := h.expect hwhole "a varbind"
  have hinner := h.contents hwhole
  obtain ⟨r1, hr1, hleft1⟩ := hinner.expect hname "a varbind's OID"
  have hnameLeft := hinner.contents hname
  rw [← List.append_nil content] at hleft1
  obtain ⟨r2, hr2, hleft2⟩ := hleft1.tlv hcontent "a varbind's value"
  have hvalueLeft := hleft1.contents hcontent
  refine ⟨r', ?_, hleft⟩
  unfold readVarbind
  rw [hr, ok_bind]
  dsimp only
  rw [hr1, ok_bind]
  dsimp only
  rw [hnameLeft.rest, ok_bind, htold.1, ok_bind, hr2, ok_bind]
  dsimp only
  rw [hleft2.finished, ok_bind, hvalueLeft.rest, ok_bind, htold.2, ok_bind]

/-- A list of varbinds, of which there is room for all. -/
theorem readVarbinds_of_fills {layouts : List BindingLayout} {bindings : List Bytes}
    {varbinds : List (Oid × BerValue)}
    (hfills : List.Forall₂ BindingLayout.Fills layouts bindings)
    (htold : List.Forall₂ BindingLayout.Says layouts varbinds) {room : Nat} (hroom : layouts.length ≤ room)
    (h : r.Left bindings.flatten) : readVarbinds room r = .ok varbinds := by
  induction hfills generalizing varbinds room r with
  | nil =>
    cases htold
    unfold readVarbinds
    exact if_pos h.done
  | @cons layout binding layouts bindings hbinding hrest ih =>
    obtain _ | ⟨hfirst, hothers⟩ := htold
    have hmore : ¬ r.done = true := by
      obtain ⟨_, _, _, _, hwhole⟩ := hbinding
      have := hwhole.length_lt
      rw [h.done, List.isEmpty_iff_length_eq_zero, List.flatten_cons, List.length_append]
      omega
    obtain ⟨r', hr, hleft⟩ := readVarbind_of_fills hbinding hfirst h
    rw [List.length_cons] at hroom
    obtain ⟨room, rfl⟩ : ∃ n, room = n + 1 := ⟨room - 1, by omega⟩
    unfold readVarbinds
    rw [if_neg hmore, hr, ok_bind]
    dsimp only
    rw [ih hothers (by omega) hleft, ok_bind]

variable {layout : ResponseLayout}

theorem decodePduBody_of_fills {pdu : SnmpPdu} (hb : layout.FillsPdu bytes) (htold : layout.SaysPdu pdu)
    (hroom : layout.bindings.length ≤ maxVarbinds) (h : r.Left (bytes ++ left)) (what : Text) :
    ∃ body r', r.tlv what = .ok ((layout.pduType, body), r') ∧ r'.Left left ∧
      decodePduBody layout.pduType body = .ok pdu := by
  obtain ⟨id, status, index, bindings, list, hid, hstatus, hindex, hbindings, hlist, hwhole⟩ := hb
  obtain ⟨r', hr, hleft⟩ := h.tlv hwhole what
  have hinner := h.contents hwhole
  obtain ⟨r1, hr1, hleft1⟩ := hinner.integerOf hid "the request id"
  obtain ⟨r2, hr2, hleft2⟩ := hleft1.integerOf hstatus "the error status"
  obtain ⟨r3, hr3, hleft3⟩ := hleft2.integerOf hindex "the error index"
  rw [← List.append_nil list] at hleft3
  obtain ⟨r4, hr4, hleft4⟩ := hleft3.expect hlist "the varbind list"
  have hlistLeft := hleft3.contents hlist
  refine ⟨_, r', hr, hleft, ?_⟩
  unfold decodePduBody
  rw [hr1, ok_bind]
  dsimp only
  rw [hr2, ok_bind]
  dsimp only
  rw [hr3, ok_bind]
  dsimp only
  rw [hr4, ok_bind]
  dsimp only
  rw [hleft4.finished, ok_bind, readVarbinds_of_fills hbindings htold.varbinds hroom hlistLeft, ok_bind,
    ← htold.pduType, ← htold.requestId, ← htold.errorStatus, ← htold.errorIndex]

/-- **A response is decoded by its layout**, whatever the forms of its lengths. -/
theorem decodeSnmpResponse_of_fills {message : SnmpMessage} (hb : layout.Fills bytes) (htold : layout.Says message)
    (hroom : layout.bindings.length ≤ maxVarbinds) : decodeSnmpResponse bytes = .ok message := by
  obtain ⟨number, name, pdu, hnumber, hname, hpdu, hwhole⟩ := hb
  have hstart : (Reader.new bytes).Left (bytes ++ []) := by
    rw [List.append_nil]
    exact Reader.left_new hwhole.fits
  obtain ⟨outer, hr, hleft⟩ := hstart.expect hwhole "the message"
  have hinner := hstart.contents hwhole
  obtain ⟨r1, hr1, hleft1⟩ := hinner.integerOf hnumber "the version"
  obtain ⟨r2, hr2, hleft2⟩ := hleft1.expect hname "the community"
  have hnameLeft := hleft1.contents hname
  rw [← List.append_nil pdu] at hleft2
  obtain ⟨body, r3, hr3, hleft3, hdecode⟩ := decodePduBody_of_fills hpdu htold.pdu hroom hleft2 "the PDU"
  unfold decodeSnmpResponse
  rw [hr, ok_bind]
  dsimp only
  rw [hleft.finished, ok_bind, hr1, ok_bind]
  dsimp only
  rw [hr2, ok_bind]
  dsimp only
  rw [hnameLeft.rest, ok_bind, hr3, ok_bind]
  dsimp only
  rw [hleft3.finished, ok_bind, hdecode, ok_bind, ← htold.version, ← htold.community]

/-- A message of one varbind, in any of its forms, is decoded into its fields; its name is what `decodeOidValue`
reads. -/
theorem decodeSnmpResponse_of_isMessage {version : Int32} {community : Text} {pduType tag : UInt8}
    {requestId errorStatus errorIndex : Int32} {oid read : Oid} {value : Bytes} {v : BerValue}
    (hoid : decodeOidValue (oidBody oid) = .ok read) (hv : decodeValue tag value = .ok v)
    (hb : IsMessage version community pduType requestId errorStatus errorIndex oid tag value bytes) :
    decodeSnmpResponse bytes =
      .ok ⟨version, community, ⟨pduType, requestId, errorStatus, errorIndex, [(read, v)]⟩⟩ := by
  have hinteger : ∀ n : Int32, n = Int32.ofInt (decodeIntegerValue (integerBytes n.toInt)) := by
    intro n
    have := n.toInt_lt
    have := n.le_toInt
    rw [decodeIntegerValue_integerBytes (by omega) (by omega), Int32.ofInt_toInt]
  let layout : ResponseLayout := ⟨integerBytes version.toInt, community.asBytes, pduType,
    integerBytes requestId.toInt, integerBytes errorStatus.toInt, integerBytes errorIndex.toInt,
    [⟨oidBody oid, tag, value⟩]⟩
  have hfills : layout.Fills bytes := by
    obtain ⟨number, name, pdu, hnumber, hname, ⟨id, status, index, varbind, list, hid, hstatus, hindex, hvarbind,
      hlist, hpdu⟩, hwhole⟩ := hb
    refine ⟨number, name, pdu, hnumber, hname, ⟨id, status, index, [varbind], list, hid, hstatus, hindex, ?_, ?_,
      hpdu⟩, hwhole⟩
    · exact .cons hvarbind .nil
    · simpa using hlist
  have htold : layout.Says ⟨version, community, ⟨pduType, requestId, errorStatus, errorIndex, [(read, v)]⟩⟩ := by
    refine ⟨hinteger _, (Text.fromUtf8Lossy_asBytes _).symm, rfl, hinteger _, hinteger _, hinteger _, ?_⟩
    exact .cons ⟨hoid, hv⟩ .nil
  exact decodeSnmpResponse_of_fills hfills htold (Nat.le_of_ble_eq_true rfl)

end Decode

theorem encodeOid_eq (oid : Oid) : encodeOid oid = encodeTlv tagObjectIdentifier (oidBody oid) := by
  unfold encodeOid
  split
  · match oid with
    | [] => rfl
    | [_] => rfl
  · rfl

theorem isTlv_of_length_lt (tag : UInt8) (value : Bytes) (h : (encodeTlv tag value).length < 2 ^ 24) :
    IsTlv tag value (encodeTlv tag value) := by
  rw [length_encodeTlv] at h
  exact isTlv_encodeTlv tag (by omega)

/-- The longest form of a length is five bytes with its tag. -/
theorem length_lt_of_encodeTlv {tag : UInt8} {value : Bytes} (h : (encodeTlv tag value).length < 2 ^ 24 + 5) :
    value.length < 2 ^ 24 := by
  by_contra hlong
  have hheader : (tlvHeader tag value.length).length = 5 := by
    unfold tlvHeader encodeLength
    rw [if_neg (by omega), if_neg (by omega), if_neg (by omega)]
    rfl
  rw [length_encodeTlv, hheader] at h
  omega

/-- A message with one varbind of any value, written as requests are. -/
def buildMessage (version : Int32) (community : Text) (pduType : UInt8) (requestId : Int32) (oid : Oid) (tag : UInt8)
    (value : Bytes) : Bytes :=
  encodeTlv tagSequence (encodeInteger version.toInt ++ (encodeOctetString community.asBytes ++
    encodeTlv pduType (encodeInteger requestId.toInt ++ (encodeInteger 0 ++ (encodeInteger 0 ++ encodeTlv tagSequence
      (encodeTlv tagSequence (encodeTlv tagObjectIdentifier (oidBody oid) ++ encodeTlv tag value)))))))

section Build

variable {version : Int32} {community : Text} {pduType : UInt8} {requestId : Int32} {oid : Oid} {tag : UInt8}
  {value : Bytes}

theorem buildSnmpRequest_eq : buildSnmpRequest version community requestId pduType oid =
    buildMessage version community pduType requestId oid tagNull [] := by
  unfold buildSnmpRequest buildMessage
  rw [encodeOid_eq, show encodeNull = encodeTlv tagNull [] from rfl]
  simp only [List.append_assoc]

/-- What is built is a message, as long as its length can be written: the contents are shorter than 2²⁴ bytes, and the
message has five more. -/
theorem isMessage_buildMessage
    (hfits : (buildMessage version community pduType requestId oid tag value).length < 2 ^ 24 + 5) :
    IsMessage version community pduType requestId 0 0 oid tag value
      (buildMessage version community pduType requestId oid tag value) := by
  -- every element is shorter than the one around it
  have hparts := length_lt_of_encodeTlv hfits
  have hmessage := isTlv_encodeTlv tagSequence hparts
  rw [List.length_append, List.length_append] at hparts
  have hpdu := isTlv_of_length_lt _ _ (Nat.lt_of_le_of_lt
    (Nat.le_trans (Nat.le_add_left _ _) (Nat.le_add_left _ _)) hparts)
  have hfields := hpdu.length_lt
  rw [List.length_append, List.length_append, List.length_append] at hfields
  have hlist := isTlv_of_length_lt tagSequence
    (encodeTlv tagSequence (encodeTlv tagObjectIdentifier (oidBody oid) ++ encodeTlv tag value)) (by omega)
  have hvarbind := isTlv_of_length_lt tagSequence
    (encodeTlv tagObjectIdentifier (oidBody oid) ++ encodeTlv tag value) (by have := hlist.length_lt; omega)
  have hboth := hvarbind.length_lt
  rw [List.length_append] at hboth
  have hname := isTlv_of_length_lt tagObjectIdentifier (oidBody oid) (by have := hlist.length_lt; omega)
  have hvalue := isTlv_of_length_lt tag value (by have := hlist.length_lt; omega)
  have hversion := isTlv_of_length_lt tagInteger (integerBytes version.toInt)
    (Nat.lt_of_le_of_lt (Nat.le_add_right _ _) hparts)
  have hcommunity := isTlv_of_length_lt tagOctetString community.asBytes
    (Nat.lt_of_le_of_lt (Nat.le_trans (Nat.le_add_right _ _) (Nat.le_add_left _ _)) hparts)
  have hid := isTlv_of_length_lt tagInteger (integerBytes requestId.toInt)
    (by unfold encodeInteger at hfields hparts; omega)
  have hzero : IsTlv tagInteger (integerBytes (Int32.toInt 0)) (encodeInteger 0) := isTlv_encodeTlv _ (by decide)
  exact ⟨_, _, _, hversion, hcommunity, ⟨_, _, _, _, _, hid, hzero, hzero, ⟨_, _, hname, hvalue, hvarbind⟩, hlist,
    hpdu⟩, hmessage⟩

theorem isMessage_buildSnmpRequest
    (hfits : (buildSnmpRequest version community requestId pduType oid).length < 2 ^ 24 + 5) :
    IsMessage version community pduType requestId 0 0 oid tagNull []
      (buildSnmpRequest version community requestId pduType oid) := by
  rw [buildSnmpRequest_eq] at hfits ⊢
  exact isMessage_buildMessage hfits

theorem length_tlvHeader_le (tag : UInt8) (n : Nat) : (tlvHeader tag n).length ≤ 5 := by
  unfold tlvHeader encodeLength
  split
  · simp
  split
  · simp
  split
  · simp
  · simp

theorem length_encodeTlv_le (tag : UInt8) (value : Bytes) : (encodeTlv tag value).length ≤ value.length + 5 := by
  have := length_tlvHeader_le tag value.length
  rw [length_encodeTlv]
  omega

theorem length_encodeInteger_le (n : Int32) : (encodeInteger n.toInt).length ≤ 13 := by
  have hlo := n.le_toInt
  have hhi := n.toInt_lt
  have hbytes := (integerBytes_spec (v := n.toInt) (by omega) (by omega)).2.1
  have hinteger := length_encodeTlv_le tagInteger (integerBytes n.toInt)
  unfold encodeInteger
  omega

/-- A message is little longer than what it carries. -/
theorem length_buildMessage_le (version : Int32) (community : Text) (pduType : UInt8) (requestId : Int32) (oid : Oid)
    (tag : UInt8) (value : Bytes) : (buildMessage version community pduType requestId oid tag value).length ≤
    100 + community.asBytes.length + (oidBody oid).length + value.length := by
  have hversion := length_encodeInteger_le version
  have hid := length_encodeInteger_le requestId
  have hzero : (encodeInteger 0).length = 3 := by decide
  have hname := length_encodeTlv_le tagObjectIdentifier (oidBody oid)
  have hvalue := length_encodeTlv_le tag value
  have hcommunity := length_encodeTlv_le tagOctetString community.asBytes
  have hvarbind := length_encodeTlv_le tagSequence (encodeTlv tagObjectIdentifier (oidBody oid) ++
    encodeTlv tag value)
  have hlist := length_encodeTlv_le tagSequence
    (encodeTlv tagSequence (encodeTlv tagObjectIdentifier (oidBody oid) ++ encodeTlv tag value))
  have hpdu := length_encodeTlv_le pduType (encodeInteger requestId.toInt ++ (encodeInteger 0 ++ (encodeInteger 0 ++
    encodeTlv tagSequence (encodeTlv tagSequence (encodeTlv tagObjectIdentifier (oidBody oid) ++
    encodeTlv tag value)))))
  rw [List.length_append] at hvarbind
  rw [List.length_append, List.length_append, List.length_append] at hpdu
  refine Nat.le_trans (length_encodeTlv_le tagSequence _) ?_
  rw [List.length_append, List.length_append]
  unfold encodeOctetString
  omega

/-- The identifiers of X.690: the first arc is 0, 1 or 2, and the second is below 40 under the first two. -/
def Oid.Valid : Oid → Prop
  | first :: second :: _ => first.toNat ≤ 2 ∧ (first.toNat < 2 → second.toNat < 40)
  | _ => False

theorem toNat_div_forty (first : UInt8) : (first.toUInt32 / 40).toNat = first.toNat / 40 := by
  rw [UInt32.toNat_div, UInt8.toNat_toUInt32]
  rfl

theorem toNat_mod_forty (first : UInt8) : (first.toUInt32 % 40).toNat = first.toNat % 40 := by
  rw [UInt32.toNat_mod, UInt8.toNat_toUInt32]
  rfl

/-- The first two components that are read are the quotient and the remainder of the first byte. -/
theorem decodeOidValue_cons (first : UInt8) (rest : Bytes) :
    ∃ more, decodeOidValue (first :: rest) = .ok (first.toUInt32 / 40 :: first.toUInt32 % 40 :: more) := by
  have hkeep : ∀ (bytes : Bytes) (comps : Oid) (current : UInt32),
      ∃ more, (bytes.foldl componentStep (first.toUInt32 / 40 :: first.toUInt32 % 40 :: comps, current)).1 =
        first.toUInt32 / 40 :: first.toUInt32 % 40 :: more := by
    intro bytes
    induction bytes with
    | nil => exact fun comps _ => ⟨comps, rfl⟩
    | cons byte bytes ih =>
      intro comps current
      rw [List.foldl_cons]
      unfold componentStep
      dsimp only
      split
      · exact ih _ _
      · exact ih _ _
  obtain ⟨more, hmore⟩ := hkeep rest [] 0
  exact ⟨more, congrArg Outcome.ok hmore⟩

/-- The second component that is read is a remainder of the byte it shares. -/
theorem decodeOidValue_oidBody_second {first second : UInt32} {rest : Oid} :
    ∃ first' second' rest', decodeOidValue (oidBody (first :: second :: rest)) = .ok (first' :: second' :: rest') ∧
      second'.toNat < 40 := by
  obtain ⟨more, hmore⟩ := decodeOidValue_cons (first * 40 + second).toUInt8 (rest.flatMap encodeComponent)
  refine ⟨_, _, more, hmore, ?_⟩
  rw [toNat_mod_forty]
  exact Nat.mod_lt _ (by decide)

/-- **A request reads back as its fields exactly when the second component of its name is below 40.** -/
theorem snmp_request_round_trip_iff (version : Int32) (community : Text) (requestId : Int32) (pduType : UInt8)
    {first second : UInt32} {rest : Oid} (hvalid : Oid.Valid (first :: second :: rest))
    (hfits : (buildSnmpRequest version community requestId pduType (first :: second :: rest)).length < 2 ^ 24 + 5) :
    decodeSnmpResponse (buildSnmpRequest version community requestId pduType (first :: second :: rest)) =
      .ok ⟨version, community, ⟨pduType, requestId, 0, 0, [(first :: second :: rest, .null)]⟩⟩ ↔
      second.toNat < 40 := by
  have hmessage := isMessage_buildSnmpRequest hfits
  constructor
  · intro hread
    obtain ⟨first', second', rest', hoid, hsecond⟩ := @decodeOidValue_oidBody_second first second rest
    have hdecode := decodeSnmpResponse_of_isMessage hoid (show decodeValue tagNull [] = .ok .null from rfl) hmessage
    rw [hread] at hdecode
    injection hdecode with hdecode
    injection hdecode with _ _ hpdu
    injection hpdu with _ _ _ _ hvarbinds
    injection hvarbinds with hvarbind _
    injection hvarbind with hname _
    injection hname with _ hname
    injection hname with hname _
    rw [hname]
    exact hsecond
  · intro hsecond
    have hcarried : Oid.Carried (first :: second :: rest) :=
      ⟨first, second, rest, rfl, by have := hvalid.1; omega, hsecond⟩
    exact decodeSnmpResponse_of_isMessage (decodeOidValue_oidBody hcarried) rfl hmessage

/-- `sysDescr`, asked for with the community `public`. -/
theorem snmp_request_round_trip_sysDescr :
    decodeSnmpResponse (buildSnmpRequest 1 "public" 7 pduGetRequest [1, 3, 6, 1, 2, 1, 1, 1, 0]) =
      .ok ⟨1, "public", ⟨pduGetRequest, 7, 0, 0, [([1, 3, 6, 1, 2, 1, 1, 1, 0], .null)]⟩⟩ :=
  (snmp_request_round_trip_iff 1 "public" 7 pduGetRequest ⟨by decide, fun _ => by decide⟩ (by decide)).mpr (by decide)

/-- The identifier `2.40` reads back as `3.0`. -/
theorem snmp_request_misread_joint_arc : Oid.Valid [2, 40] ∧
    (buildSnmpRequest 1 "public" 7 pduGetRequest [2, 40]).length < 2 ^ 24 ∧
    decodeSnmpResponse (buildSnmpRequest 1 "public" 7 pduGetRequest [2, 40]) =
      .ok ⟨1, "public", ⟨pduGetRequest, 7, 0, 0, [([3, 0], .null)]⟩⟩ := by
  refine ⟨⟨by decide, by decide⟩, by decide, ?_⟩
  decide +kernel

end Build

end Idnx
