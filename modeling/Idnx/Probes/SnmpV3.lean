import Idnx.Probes.Ber

/-!
# The SNMPv3 message layer

`encodeMessage` writes a message with its digest field as zeroes and says where they are, `Encoded.sign` writes the
digest over them, and `decodeMessage` locates every field in the bytes that arrived. The HMAC is a parameter.

* `Window`: the bytes of a range, and what the readers find in them;
* `wireMessage`: a message as it is laid out, which the decoder reads back (`decodeMessage_wireMessage`) and in which
  the digest can be written over (`copyInto_wireMessage`);
* `snmpV3_agree`: what the encoder accepts the decoder reads back, and what was signed verifies.
-/

set_option maxRecDepth 4000

namespace Idnx

open Outcome

def version3 : Int := 3

/-- `msgSecurityModel` of the User-based Security Model. -/
def securityModelUsm : Int := 3

/-- The largest message that is sent or read (`MAX_MESSAGE_BYTES`). -/
def maxMessageBytes : Nat := 8192

/-- The largest `msgID`, `msgMaxSize`, engine boots and engine time. -/
def maxCounter : Int := 2147483647

def minMaxSize : Int := 484

def maxUserName : Nat := 32

def minEngineId : Nat := 5

def maxEngineId : Nat := 32

def aesSaltLen : Nat := 8

/-! ## Levels and parameters -/

namespace Flags

def auth : UInt8 := 0x01
def priv : UInt8 := 0x02
def reportable : UInt8 := 0x04

end Flags

inductive AuthProtocol where
  | hmacSha256
  deriving DecidableEq, Repr

/-- The length of the digest field. -/
def AuthProtocol.tagLen : AuthProtocol → Nat
  | .hmacSha256 => 24

inductive SecurityLevel where
  | authNoPriv
  | authPriv
  deriving DecidableEq, Repr

def SecurityLevel.flags : SecurityLevel → UInt8
  | .authNoPriv => 0x01
  | .authPriv => 0x03

/-- What a manager asks of one exchange; discovery is not authenticated. -/
inductive Level where
  | discovery
  | secured (level : SecurityLevel)
  deriving DecidableEq, Repr

namespace Level

def flags (level : Level) (reportable : Bool) : UInt8 :=
  let base := match level with
    | .discovery => 0
    | .secured level => level.flags
  base ||| (if reportable then Flags.reportable else 0)

def authenticated : Level → Bool
  | .secured _ => true
  | .discovery => false

def encrypted : Level → Bool
  | .secured .authPriv => true
  | _ => false

end Level

/-- The security parameters of one message. -/
structure UsmParameters where
  engineId : Bytes
  engineBoots : UInt32
  engineTime : UInt32
  userName : Bytes
  authentication : Bytes
  privacy : Bytes
  deriving DecidableEq, Repr

/-- A range of places in a byte string. -/
structure ByteRange where
  start : Nat
  stop : Nat
  deriving DecidableEq, Repr

def ByteRange.len (range : ByteRange) : Nat := range.stop - range.start

/-- The invariants of every message that is sent or accepted. -/
def checkMessageInvariants (messageId maxSize : Int) (flags : UInt8) (securityModel : Int) (usm : UsmParameters) :
    Outcome Text Unit := do
  require (0 ≤ messageId ∧ messageId ≤ maxCounter) "msgID outside the range RFC 3412 defines"
  require (minMaxSize ≤ maxSize ∧ maxSize ≤ maxCounter)
    (("msgMaxSize " : Text) ++ Text.ofInt maxSize ++ " outside the " ++ Text.ofInt minMaxSize ++
      "..=2^31-1 RFC 3412 defines")
  require (securityModel = securityModelUsm)
    (("security model " : Text) ++ Text.ofInt securityModel ++ " is not the User-based Security Model")
  let authenticated := flags &&& Flags.auth ≠ 0
  let encrypted := flags &&& Flags.priv ≠ 0
  require (¬ (encrypted ∧ ¬ authenticated)) "msgFlags claims privacy without authentication"
  require (usm.userName.length ≤ maxUserName)
    (("msgUserName is longer than the " : Text) ++ Text.ofNat maxUserName ++ " octets USM defines")
  require ((usm.engineBoots.toNat : Int) ≤ maxCounter ∧ (usm.engineTime.toNat : Int) ≤ maxCounter)
    "engine boots or time outside the range RFC 3414 defines"
  let expectedAuth := if authenticated then AuthProtocol.hmacSha256.tagLen else 0
  require (usm.authentication.length = expectedAuth)
    (("msgAuthenticationParameters is " : Text) ++ Text.ofNat usm.authentication.length ++ " octet(s) where " ++
      Text.ofNat expectedAuth ++ " were required")
  let expectedPriv := if encrypted then aesSaltLen else 0
  require (usm.privacy.length = expectedPriv)
    (("msgPrivacyParameters is " : Text) ++ Text.ofNat usm.privacy.length ++ " octet(s) where " ++
      Text.ofNat expectedPriv ++ " were required")
  if authenticated then do
    require (minEngineId ≤ usm.engineId.length ∧ usm.engineId.length ≤ maxEngineId)
      (("an authenticated message carries a " : Text) ++ Text.ofNat usm.engineId.length ++
        "-octet engine ID; RFC 3411 defines " ++ Text.ofNat minEngineId ++ "..=" ++ Text.ofNat maxEngineId)
    require (usm.userName ≠ []) "an authenticated message names no user"
  else .ok ()

/-! ## The digest -/

/-- HMAC-SHA-256: 32 bytes for every key and message. -/
structure Hmac where
  digest : Bytes → Bytes → Bytes
  length_digest : ∀ key message, (digest key message).length = 32

/-- The digest of a complete message, cut to the length of its field. -/
def authenticate (hmac : Hmac) (key message : Bytes) (protocol : AuthProtocol) : Outcome Text Bytes :=
  slice (hmac.digest key message) 0 protocol.tagLen

/-- Whether a received digest is that of the message (`usm::verify`). -/
def verifyTag (hmac : Hmac) (key message claimed : Bytes) (protocol : AuthProtocol) : Outcome Text Bool :=
  if claimed.length ≠ protocol.tagLen then .ok false
  else do
    let expected ← authenticate hmac key message protocol
    .ok (decide (expected = claimed))

/-! ## Writing -/

/-- A message ready to send, and where its digest belongs. -/
structure Encoded where
  bytes : Bytes
  authenticationRange : ByteRange
  deriving DecidableEq, Repr

/-- Writes the digest over the zeroes. -/
def Encoded.sign (e : Encoded) (hmac : Hmac) (key : Bytes) (protocol : AuthProtocol) : Outcome Text Bytes := do
  require (e.authenticationRange.start < e.authenticationRange.stop)
    "an unauthenticated message has no digest field to sign"
  require (e.authenticationRange.len = protocol.tagLen) "the digest field is not the length this protocol produces"
  let tag ← authenticate hmac key e.bytes protocol
  copyInto e.bytes e.authenticationRange.start e.authenticationRange.stop tag

def encodeMessage (messageId : Int32) (level : Level) (reportable : Bool) (usm : UsmParameters) (scopedPdu : Bytes) :
    Outcome Text Encoded := do
  let encrypted := level.encrypted
  let flags := level.flags reportable
  let authLen := if level.authenticated then AuthProtocol.hmacSha256.tagLen else 0
  let outgoing := { usm with authentication := List.replicate authLen 0 }
  checkMessageInvariants messageId.toInt maxMessageBytes flags securityModelUsm outgoing
  require (usm.authentication = []) "the digest is written by sign(), not supplied to the encoder"
  let header := encodeTlv tagSequence (encodeInteger messageId.toInt ++ encodeInteger maxMessageBytes ++
    encodeOctetString [flags] ++ encodeInteger securityModelUsm)
  let usmBody := encodeOctetString usm.engineId ++ encodeInteger usm.engineBoots.toNat ++
    encodeInteger usm.engineTime.toNat ++ encodeOctetString usm.userName
  let authHeader := encodeOctetString (List.replicate authLen 0)
  let authOffsetInUsmBody := usmBody.length + (authHeader.length - authLen)
  let usmBody := usmBody ++ authHeader ++ encodeOctetString usm.privacy
  let usmSequence := encodeTlv tagSequence usmBody
  let usmOctets := encodeOctetString usmSequence
  let usmPrefix := (usmOctets.length - usmSequence.length) + (usmSequence.length - usmBody.length)
  let data := if encrypted then encodeOctetString scopedPdu else scopedPdu
  let body := encodeInteger version3 ++ header
  let usmStartInBody := body.length
  let body := body ++ usmOctets ++ data
  let message := encodeTlv tagSequence body
  let bodyOffset := message.length - body.length
  let authenticationRange : ByteRange :=
    if authLen = 0 then ⟨0, 0⟩
    else
      let start := bodyOffset + usmStartInBody + usmPrefix + authOffsetInUsmBody
      ⟨start, start + authLen⟩
  require (message.length ≤ maxMessageBytes)
    (("the encoded message is " : Text) ++ Text.ofNat message.length ++ " octets, beyond the " ++
      Text.ofNat maxMessageBytes ++ "-octet limit this declares")
  .ok ⟨message, authenticationRange⟩

/-- A scoped PDU with one request. -/
def encodeScopedPdu (contextEngineId contextName : Bytes) (pduType : UInt8) (requestId : Int32) (oid : Oid) : Bytes :=
  let varbind := encodeTlv tagSequence (encodeOid oid ++ encodeNull)
  let varbinds := encodeTlv tagSequence varbind
  let pdu := encodeTlv pduType (encodeInteger requestId.toInt ++ encodeInteger 0 ++ encodeInteger 0 ++ varbinds)
  encodeTlv tagSequence (encodeOctetString contextEngineId ++ encodeOctetString contextName ++ pdu)

/-! ## Reading -/

/-- An element at a place, with its contents located. -/
structure Tlv where
  tag : UInt8
  content : ByteRange
  stop : Nat
  deriving DecidableEq, Repr

/-- The length behind a tag, and where it ends. -/
def readLength (bytes : Bytes) (cursor limit : Nat) (what : Text) : Outcome Text (Nat × Nat) := do
  let first ← index bytes cursor
  let cursor := cursor + 1
  if first &&& 0x80 = 0 then .ok (first.toNat, cursor)
  else do
    let count := (first &&& 0x7F).toNat
    require (¬ (count = 0 ∨ count > 4)) (what ++ ": unsupported length form")
    require (cursor + count ≤ limit) (what ++ ": truncated length")
    let octets ← slice bytes cursor (cursor + count)
    let value ← okOr (octets.foldlM lengthStep 0) (what ++ ": length out of range")
    .ok (value, cursor + count)

/-- Reads one element, nothing of it at or behind `limit`. -/
def readTlv (bytes : Bytes) (start limit : Nat) (what : Text) : Outcome Text Tlv := do
  require (start < limit ∧ limit ≤ bytes.length) (what ++ ": no bytes where one was expected")
  let tag ← index bytes start
  require (start + 1 < limit) (what ++ ": length byte missing")
  let (length, cursor) ← readLength bytes (start + 1) limit what
  let stop ← okOr (if cursor + length < 2 ^ 64 then some (cursor + length) else none)
    (what ++ ": length overflows the buffer")
  require (stop ≤ limit) (what ++ ": declared length runs past its container")
  .ok ⟨tag, ⟨cursor, stop⟩, stop⟩

def expect (bytes : Bytes) (start limit : Nat) (tag : UInt8) (what : Text) : Outcome Text Tlv := do
  let tlv ← readTlv bytes start limit what
  require (tlv.tag = tag) (what ++ ": tag " ++ tagText tlv.tag ++ " where " ++ tagText tag ++ " was required")
  .ok tlv

def readInteger (bytes : Bytes) (tlv : Tlv) (what : Text) : Outcome Text Int := do
  let raw ← slice bytes tlv.content.start tlv.content.stop
  require (raw ≠ [] ∧ raw.length ≤ 8) (what ++ ": integer of " ++ Text.ofNat raw.length ++ " octet(s)")
  .ok (decodeIntegerValue raw)

/-- A decoded message, with the bytes it was decoded from. -/
structure DecodedMessage where
  datagram : Bytes
  messageId : Int32
  flags : UInt8
  securityModel : Int
  usm : UsmParameters
  authenticationRange : ByteRange
  scopedPduRange : ByteRange
  encrypted : Bool
  deriving DecidableEq, Repr

namespace DecodedMessage

variable (m : DecodedMessage)

/-- The scoped PDU as it arrived. -/
def scopedPdu : Outcome Text Bytes := slice m.datagram m.scopedPduRange.start m.scopedPduRange.stop

/-- Checks the digest over the received bytes with its field zeroed. -/
def verify (hmac : Hmac) (key : Bytes) (protocol : AuthProtocol) : Outcome Text Bool :=
  if m.authenticationRange.len ≠ protocol.tagLen then .ok false
  else do
    let zeroed ← copyInto m.datagram m.authenticationRange.start m.authenticationRange.stop
      (List.replicate m.authenticationRange.len 0)
    verifyTag hmac key zeroed m.usm.authentication protocol

end DecodedMessage

/-- Where the scoped PDU is: the contents of an octet string if it is encrypted, else the whole sequence. -/
def locateScopedPdu (encrypted : Bool) (data : Tlv) (start : Nat) : Outcome Text ByteRange :=
  if encrypted = true ∧ data.tag = tagOctetString then .ok data.content
  else if encrypted = false ∧ data.tag = tagSequence then .ok ⟨start, data.stop⟩
  else .err "msgData does not match the privacy flag"

/-- Decodes a message, locating every field in the bytes it arrived in. -/
def decodeMessage (datagram : Bytes) : Outcome Text DecodedMessage := do
  require (datagram.length ≤ maxMessageBytes)
    (("message exceeds the " : Text) ++ Text.ofNat maxMessageBytes ++ "-byte bound this reads")
  let limit := datagram.length
  let message ← expect datagram 0 limit tagSequence "the message"
  require (message.stop = limit) "trailing bytes after the message"
  let inside := message.content.stop
  let versionTlv ← expect datagram message.content.start inside tagInteger "msgVersion"
  let version ← readInteger datagram versionTlv "msgVersion"
  require (version = version3) (("message declared version " : Text) ++ Text.ofInt version ++ ", not 3")
  let header ← expect datagram versionTlv.stop inside tagSequence "msgGlobalData"
  let headerEnd := header.content.stop
  let idTlv ← expect datagram header.content.start headerEnd tagInteger "msgID"
  let messageId ← readInteger datagram idTlv "msgID"
  let maxSize ← expect datagram idTlv.stop headerEnd tagInteger "msgMaxSize"
  let flagsTlv ← expect datagram maxSize.stop headerEnd tagOctetString "msgFlags"
  require (flagsTlv.content.len = 1) "msgFlags is not a single octet"
  let flags ← index datagram flagsTlv.content.start
  let modelTlv ← expect datagram flagsTlv.stop headerEnd tagInteger "msgSecurityModel"
  let securityModel ← readInteger datagram modelTlv "msgSecurityModel"
  require (modelTlv.stop = headerEnd) "trailing bytes in msgGlobalData"
  let maxSizeValue ← readInteger datagram maxSize "msgMaxSize"
  -- the model decides how the security parameters are read at all
  require (securityModel = securityModelUsm)
    (("security model " : Text) ++ Text.ofInt securityModel ++ " is not the User-based Security Model")
  let params ← expect datagram header.stop inside tagOctetString "msgSecurityParameters"
  let paramsEnd := params.content.stop
  let usmSeq ← expect datagram params.content.start paramsEnd tagSequence "usmSecurityParameters"
  let usmEnd := usmSeq.content.stop
  let engineTlv ← expect datagram usmSeq.content.start usmEnd tagOctetString "msgAuthoritativeEngineID"
  let bootsTlv ← expect datagram engineTlv.stop usmEnd tagInteger "msgAuthoritativeEngineBoots"
  let timeTlv ← expect datagram bootsTlv.stop usmEnd tagInteger "msgAuthoritativeEngineTime"
  let userTlv ← expect datagram timeTlv.stop usmEnd tagOctetString "msgUserName"
  let authTlv ← expect datagram userTlv.stop usmEnd tagOctetString "msgAuthenticationParameters"
  let privTlv ← expect datagram authTlv.stop usmEnd tagOctetString "msgPrivacyParameters"
  require (¬ (privTlv.stop ≠ usmEnd ∨ usmSeq.stop ≠ paramsEnd)) "trailing bytes in the security parameters"
  let boots ← readInteger datagram bootsTlv "msgAuthoritativeEngineBoots"
  let time ← readInteger datagram timeTlv "msgAuthoritativeEngineTime"
  require ((0 ≤ boots ∧ boots ≤ maxCounter) ∧ 0 ≤ time ∧ time ≤ maxCounter)
    "engine boots or time outside the range RFC 3414 defines"
  let engineId ← slice datagram engineTlv.content.start engineTlv.content.stop
  let userName ← slice datagram userTlv.content.start userTlv.content.stop
  let authentication ← slice datagram authTlv.content.start authTlv.content.stop
  let privacy ← slice datagram privTlv.content.start privTlv.content.stop
  let usm : UsmParameters := ⟨engineId, asU32 boots, asU32 time, userName, authentication, privacy⟩
  checkMessageInvariants messageId maxSizeValue flags securityModel usm
  let data ← readTlv datagram params.stop inside "msgData"
  require (data.stop = inside) "trailing bytes after msgData"
  let encrypted := decide (flags &&& Flags.priv ≠ 0)
  let scopedPdu ← locateScopedPdu encrypted data params.stop
  require (-2 ^ 31 ≤ messageId ∧ messageId < 2 ^ 31) "msgID out of range"
  .ok ⟨datagram, Int32.ofInt messageId, flags, securityModel, usm, authTlv.content, scopedPdu, encrypted⟩

/-! ## What the readers find -/

/-- The bytes `start..stop` are `piece`. -/
def Window (bytes : Bytes) (start stop : Nat) (piece : Bytes) : Prop :=
  Holds bytes start piece ∧ stop = start + piece.length

namespace Window

variable {bytes value left piece : Bytes} {start stop : Nat} {tag : UInt8}

theorem slice (h : Window bytes start stop piece) : (Outcome.slice bytes start stop : Outcome Text Bytes) =
    .ok piece := by
  rw [h.2]
  exact h.1.slice

theorem len (h : Window bytes start stop piece) : ByteRange.len ⟨start, stop⟩ = piece.length := by
  unfold ByteRange.len
  rw [h.2]
  exact Nat.add_sub_cancel_left _ _

theorem nil (h : Window bytes start stop []) : start = stop := h.2.symm

/-- The length of an element is read where its tag ends. -/
theorem readLength {n k limit : Nat} (h : Holds bytes k (encodeLength n)) (hn : n < 2 ^ 24)
    (hlimit : k + (encodeLength n).length ≤ limit) (what : Text) :
    Idnx.readLength bytes k limit what = .ok (n, k + (encodeLength n).length) := by
  unfold Idnx.readLength
  obtain ⟨first, he, htop, hfirst⟩ | ⟨first, octets, he, htop, hcount, hfew, hfold⟩ :=
    (lengthOctets_encodeLength hn).reads
  · rw [he] at h ⊢
    rw [h.index, ok_bind, if_pos htop, hfirst]
    rfl
  · rw [he] at h hlimit ⊢
    have hoctets := (Holds.right (x := [first]) h).slice (ε := Text)
    rw [List.length_cons] at hlimit ⊢
    rw [List.length_singleton] at hoctets
    rw [h.index, ok_bind, if_neg htop]
    dsimp only
    rw [hcount, require_of hfew, ok_bind, require_of (by omega), ok_bind, hoctets, ok_bind, hfold, okOr_some, ok_bind,
      Nat.add_assoc, Nat.add_comm 1]

/-- An element at the front of a window is read, and the rest of the window is behind it. -/
theorem readTlv (h : Window bytes start stop (encodeTlv tag value ++ left)) (hfits : bytes.length < 2 ^ 24)
    (what : Text) :
    ∃ t : Tlv, Idnx.readTlv bytes start stop what = .ok t ∧ t.tag = tag ∧
      Window bytes t.content.start t.content.stop value ∧ Window bytes t.stop stop left ∧
      t.content.start = start + (tlvHeader tag value.length).length ∧ t.stop = t.content.stop := by
  obtain ⟨hholds, rfl⟩ := h
  have hle := hholds.length_le
  rw [List.length_append, length_encodeTlv] at hle
  have hheader : (tlvHeader tag value.length).length = (encodeLength value.length).length + 1 := rfl
  have hpos := length_encodeLength_pos value.length
  have hcontent : Holds bytes (start + (tlvHeader tag value.length).length) value := by
    have := hholds.left
    rw [encodeTlv_eq] at this
    exact this.right
  have hlength : Holds bytes (start + 1) (encodeLength value.length) :=
    (Holds.right (x := [tag]) (y := encodeLength value.length) (Holds.left (y := value ++ left) (by
      simpa [encodeTlv] using hholds)))
  have hleft : Holds bytes (start + (tlvHeader tag value.length).length + value.length) left := by
    have := hholds.right
    rwa [length_encodeTlv, ← Nat.add_assoc] at this
  have hlen : (encodeTlv tag value ++ left).length =
      (tlvHeader tag value.length).length + value.length + left.length := by
    rw [List.length_append, length_encodeTlv]
  refine ⟨⟨tag, ⟨start + (tlvHeader tag value.length).length,
    start + (tlvHeader tag value.length).length + value.length⟩,
    start + (tlvHeader tag value.length).length + value.length⟩, ?_, rfl, ⟨hcontent, rfl⟩,
    ⟨hleft, by dsimp only; omega⟩, rfl, rfl⟩
  unfold Idnx.readTlv
  rw [hlen, require_of (by omega), ok_bind, (Holds.left (y := left) hholds).index, ok_bind, require_of (by omega),
    ok_bind, readLength hlength (by omega) (by omega), ok_bind]
  dsimp only
  rw [show start + 1 + (encodeLength value.length).length = start + (tlvHeader tag value.length).length by omega,
    if_pos (by omega), okOr_some, ok_bind, require_of (by omega), ok_bind]

theorem expect (h : Window bytes start stop (encodeTlv tag value ++ left)) (hfits : bytes.length < 2 ^ 24)
    (what : Text) :
    ∃ t : Tlv, Idnx.expect bytes start stop tag what = .ok t ∧
      Window bytes t.content.start t.content.stop value ∧ Window bytes t.stop stop left ∧
      t.content.start = start + (tlvHeader tag value.length).length ∧ t.stop = t.content.stop := by
  obtain ⟨t, ht, htag, hcontent, hleft, hstart, hstop⟩ := h.readTlv hfits what
  refine ⟨t, ?_, hcontent, hleft, hstart, hstop⟩
  unfold Idnx.expect
  rw [ht, ok_bind, require_of htag, ok_bind]

/-- The last element of a window. -/
theorem expect_last (h : Window bytes start stop (encodeTlv tag value)) (hfits : bytes.length < 2 ^ 24)
    (what : Text) :
    ∃ t : Tlv, Idnx.expect bytes start stop tag what = .ok t ∧
      Window bytes t.content.start t.content.stop value ∧ t.stop = stop ∧
      t.content.start = start + (tlvHeader tag value.length).length ∧ t.stop = t.content.stop := by
  rw [← List.append_nil (encodeTlv tag value)] at h
  obtain ⟨t, ht, hcontent, hleft, hstart, hstop⟩ := h.expect hfits what
  exact ⟨t, ht, hcontent, hleft.nil, hstart, hstop⟩

theorem readInteger {t : Tlv} {v : Int} (h : Window bytes t.content.start t.content.stop (integerBytes v))
    (hlo : -2 ^ 63 ≤ v) (hhi : v < 2 ^ 63) (what : Text) : Idnx.readInteger bytes t what = .ok v := by
  obtain ⟨hne, hlen, -⟩ := integerBytes_spec hlo hhi
  unfold Idnx.readInteger
  rw [h.slice, ok_bind, require_of ⟨hne, hlen⟩, ok_bind, decodeIntegerValue_integerBytes hlo hhi]

end Window

/-- The data of a message carries `payload`: in an octet string if the flags claim privacy, else as a sequence of its
own. -/
def Carries (flags : UInt8) (data payload : Bytes) : Prop :=
  if flags &&& Flags.priv ≠ 0 then data = encodeOctetString payload
  else data = payload ∧ ∃ contents, payload = encodeTlv tagSequence contents

/-- The data of a message is located where its payload is. -/
theorem Carries.locate {flags : UInt8} {bytes data payload : Bytes} {start stop : Nat}
    (h : Carries flags data payload)
    (hwindow : Window bytes start stop data) (hfits : bytes.length < 2 ^ 24) (what : Text) :
    ∃ (t : Tlv) (range : ByteRange), readTlv bytes start stop what = .ok t ∧ t.stop = stop ∧
      locateScopedPdu (decide (flags &&& Flags.priv ≠ 0)) t start = .ok range ∧
      (slice bytes range.start range.stop : Outcome Text Bytes) = .ok payload := by
  unfold Carries at h
  by_cases hpriv : flags &&& Flags.priv ≠ 0
  · rw [if_pos hpriv] at h
    rw [h, ← List.append_nil (encodeOctetString payload)] at hwindow
    obtain ⟨t, ht, htag, hcontent, hleft, -, -⟩ := hwindow.readTlv hfits what
    refine ⟨t, t.content, ht, hleft.nil, ?_, hcontent.slice⟩
    unfold locateScopedPdu
    exact if_pos ⟨decide_eq_true hpriv, htag⟩
  · rw [if_neg hpriv] at h
    obtain ⟨hdata, contents, hcontents⟩ := h
    rw [hdata] at hwindow
    have hslice := hwindow.slice
    rw [hcontents, ← List.append_nil (encodeTlv tagSequence contents)] at hwindow
    obtain ⟨t, ht, htag, -, hleft, -, -⟩ := hwindow.readTlv hfits what
    refine ⟨t, ⟨start, t.stop⟩, ht, hleft.nil, ?_, by rw [hleft.nil]; exact hslice⟩
    unfold locateScopedPdu
    rw [if_neg (fun hand => hpriv (of_decide_eq_true hand.1)), if_pos ⟨decide_eq_false hpriv, htag⟩]

theorem asU32_toNat (v : UInt32) : asU32 (v.toNat : Int) = v := by
  have hv := v.toNat_lt
  apply UInt32.toNat_inj.mp
  unfold asU32
  rw [UInt32.toNat_ofNat']
  omega

theorem counters_of_check {messageId maxSize securityModel : Int} {flags : UInt8} {usm : UsmParameters} {u : Unit}
    (h : checkMessageInvariants messageId maxSize flags securityModel usm = .ok u) :
    (usm.engineBoots.toNat : Int) ≤ maxCounter ∧ (usm.engineTime.toNat : Int) ≤ maxCounter := by
  simp only [checkMessageInvariants, bind_eq_ok, require_eq_ok] at h
  obtain ⟨-, -, -, -, -, -, -, -, -, -, -, hcounters, -⟩ := h
  exact hcounters

/-- Of the digest only its length is checked. -/
theorem check_congr {usm : UsmParameters} {new : Bytes} (messageId maxSize : Int) (flags : UInt8)
    (securityModel : Int)
    (hnew : new.length = usm.authentication.length) :
    checkMessageInvariants messageId maxSize flags securityModel { usm with authentication := new } =
      checkMessageInvariants messageId maxSize flags securityModel usm := by
  simp only [checkMessageInvariants, hnew]

/-! ## A message as it is laid out -/

section Layout

variable (messageId : Int) (flags : UInt8) (usm : UsmParameters) (data : Bytes)

def globalData : Bytes :=
  encodeInteger messageId ++ encodeInteger maxMessageBytes ++ encodeOctetString [flags] ++
  encodeInteger securityModelUsm

/-- The security parameters in front of the digest. -/
def beforeDigest : Bytes :=
  encodeOctetString usm.engineId ++ encodeInteger usm.engineBoots.toNat ++ encodeInteger usm.engineTime.toNat ++
    encodeOctetString usm.userName

def usmBody : Bytes := beforeDigest usm ++ encodeOctetString usm.authentication ++ encodeOctetString usm.privacy

def wireBody : Bytes :=
  encodeInteger version3 ++ encodeTlv tagSequence (globalData messageId flags) ++
    encodeOctetString (encodeTlv tagSequence (usmBody usm)) ++ data

/-- The message with the digest its parameters say. -/
def wireMessage : Bytes := encodeTlv tagSequence (wireBody messageId flags usm data)

/-- Where the digest starts. -/
def digestStart : Nat :=
  (tlvHeader tagSequence (wireBody messageId flags usm data).length).length +
    (encodeInteger version3 ++ encodeTlv tagSequence (globalData messageId flags)).length +
    (tlvHeader tagOctetString (encodeTlv tagSequence (usmBody usm)).length).length +
    (tlvHeader tagSequence (usmBody usm).length).length + (beforeDigest usm).length +
    (tlvHeader tagOctetString usm.authentication.length).length

end Layout

theorem length_beforeDigest (usm : UsmParameters) : (beforeDigest usm).length =
    ((tlvHeader tagOctetString usm.engineId.length).length + usm.engineId.length) +
      ((tlvHeader tagInteger (integerBytes usm.engineBoots.toNat).length).length +
        (integerBytes usm.engineBoots.toNat).length) +
      ((tlvHeader tagInteger (integerBytes usm.engineTime.toNat).length).length +
        (integerBytes usm.engineTime.toNat).length) +
      ((tlvHeader tagOctetString usm.userName.length).length + usm.userName.length) := by
  simp only [beforeDigest, encodeOctetString, encodeInteger, List.length_append, length_encodeTlv]

/-- The decoder reads a message back as it was laid out. -/
theorem decodeMessage_wireMessage {messageId : Int32} {flags : UInt8} {usm : UsmParameters} {data payload : Bytes}
    (hcheck : checkMessageInvariants messageId.toInt maxMessageBytes flags securityModelUsm usm = .ok ())
    (hlen : (wireMessage messageId.toInt flags usm data).length ≤ maxMessageBytes)
    (hdata : Carries flags data payload) :
    ∃ range : ByteRange, decodeMessage (wireMessage messageId.toInt flags usm data) =
        .ok ⟨wireMessage messageId.toInt flags usm data, messageId, flags, securityModelUsm, usm,
          ⟨digestStart messageId.toInt flags usm data,
          digestStart messageId.toInt flags usm data + usm.authentication.length⟩, range,
          decide (flags &&& Flags.priv ≠ 0)⟩ ∧
      (slice (wireMessage messageId.toInt flags usm data) range.start range.stop : Outcome Text Bytes) =
        .ok payload := by
  have hid := messageId.toInt_lt
  have hid' := messageId.le_toInt
  have hboots := usm.engineBoots.toNat_lt
  have htime := usm.engineTime.toNat_lt
  obtain ⟨hbootsLe, htimeLe⟩ := counters_of_check hcheck
  have hwindow : Window (wireMessage messageId.toInt flags usm data) 0
    (wireMessage messageId.toInt flags usm data).length
      (encodeTlv tagSequence (wireBody messageId.toInt flags usm data)) := ⟨Holds.self _, (Nat.zero_add _).symm⟩
  generalize hw : wireMessage messageId.toInt flags usm data = w at *
  have hfits : w.length < 2 ^ 24 := Nat.lt_of_le_of_lt hlen (by decide)
  obtain ⟨message, emessage, hmessage, smessage, bmessage, cmessage⟩ := hwindow.expect_last hfits "the message"
  unfold wireBody at hmessage
  simp only [List.append_assoc] at hmessage
  obtain ⟨version, eversion, hversion, hrest, bversion, cversion⟩ := hmessage.expect hfits "msgVersion"
  obtain ⟨header, eheader, hheader, hrest, bheader, cheader⟩ := hrest.expect hfits "msgGlobalData"
  obtain ⟨params, eparams, hparams, hdataWindow, bparams, cparams⟩ := hrest.expect hfits "msgSecurityParameters"
  have hheaderAll := hheader
  unfold globalData at hheader
  simp only [List.append_assoc] at hheader
  obtain ⟨idTlv, eid, hidTlv, hheader, bid, cid⟩ := hheader.expect hfits "msgID"
  obtain ⟨maxSize, emax, hmax, hheader, bmax, cmax⟩ := hheader.expect hfits "msgMaxSize"
  obtain ⟨flagsTlv, eflags, hflags, hheader, bflags, cflags⟩ := hheader.expect hfits "msgFlags"
  obtain ⟨model, emodel, hmodel, smodel, bmodel, cmodel⟩ := hheader.expect_last hfits "msgSecurityModel"
  obtain ⟨usmSeq, eusm, husm, susm, busm, cusm⟩ := hparams.expect_last hfits "usmSecurityParameters"
  unfold usmBody beforeDigest at husm
  simp only [List.append_assoc] at husm
  obtain ⟨engine, eengine, hengine, husm, bengine, cengine⟩ := husm.expect hfits "msgAuthoritativeEngineID"
  obtain ⟨boots, eboots, hbootsTlv, husm, bboots, cboots⟩ := husm.expect hfits "msgAuthoritativeEngineBoots"
  obtain ⟨time, etime, htimeTlv, husm, btime, ctime⟩ := husm.expect hfits "msgAuthoritativeEngineTime"
  obtain ⟨user, euser, huser, husm, buser, cuser⟩ := husm.expect hfits "msgUserName"
  obtain ⟨auth, eauth, hauth, husm, bauth, cauth⟩ := husm.expect hfits "msgAuthenticationParameters"
  obtain ⟨priv, epriv, hpriv, spriv, bpriv, cpriv⟩ := husm.expect_last hfits "msgPrivacyParameters"
  have hrange : auth.content = ⟨digestStart messageId.toInt flags usm data,
      digestStart messageId.toInt flags usm data + usm.authentication.length⟩ := by
    have hlenVersion := length_encodeTlv tagInteger (integerBytes version3)
    have hlenHeader := length_encodeTlv tagSequence (globalData messageId.toInt flags)
    have hlenBefore := length_beforeDigest usm
    have := hversion.2
    have := hheaderAll.2
    have := hengine.2
    have := hbootsTlv.2
    have := htimeTlv.2
    have := huser.2
    have hauthStart : auth.content.start = digestStart messageId.toInt flags usm data := by
      unfold digestStart
      rw [List.length_append]
      unfold encodeInteger
      omega
    rw [← hauthStart, ← hauth.2]
  obtain ⟨dataTlv, range, edata, sdata, hmatch, hpayload⟩ := hdata.locate hdataWindow hfits "msgData"
  refine ⟨range, ?_, hpayload⟩
  unfold decodeMessage
  rw [require_of hlen, ok_bind]
  dsimp only
  rw [emessage, ok_bind, require_of smessage, ok_bind, eversion, ok_bind,
    hversion.readInteger (by decide) (by decide), ok_bind, require_of rfl, ok_bind, eheader, ok_bind]
  rw [eid, ok_bind, hidTlv.readInteger (by omega) (by omega), ok_bind, emax, ok_bind, eflags, ok_bind,
    require_of (show flagsTlv.content.len = 1 from hflags.len), ok_bind, hflags.1.index, ok_bind, emodel, ok_bind,
    hmodel.readInteger (by decide) (by decide), ok_bind, require_of smodel, ok_bind,
    hmax.readInteger (by decide) (by decide), ok_bind, require_of rfl, ok_bind, eparams, ok_bind]
  rw [eusm, ok_bind, eengine, ok_bind, eboots, ok_bind, etime, ok_bind, euser, ok_bind, eauth, ok_bind, epriv,
    ok_bind, require_of (by simp [spriv, susm]), ok_bind, hbootsTlv.readInteger (by omega) (by omega), ok_bind,
    htimeTlv.readInteger (by omega) (by omega), ok_bind, require_of ⟨⟨by omega, hbootsLe⟩, by omega, htimeLe⟩,
    ok_bind, hengine.slice, ok_bind, huser.slice, ok_bind, hauth.slice, ok_bind, hpriv.slice, ok_bind, asU32_toNat,
    asU32_toNat]
  rw [hcheck, ok_bind, edata, ok_bind, require_of sdata, ok_bind, hmatch, ok_bind, require_of ⟨by omega, by omega⟩,
    ok_bind, hrange, Int32.ofInt_toInt]

/-- The length of the digest field of a level. -/
def Level.authLen (level : Level) : Nat := if level.authenticated then AuthProtocol.hmacSha256.tagLen else 0

/-- The parameters as they are sent: the digest as zeroes. -/
def UsmParameters.outgoing (usm : UsmParameters) (level : Level) : UsmParameters :=
  { usm with authentication := List.replicate level.authLen 0 }

/-- The data around a payload. -/
def Level.data (level : Level) (payload : Bytes) : Bytes :=
  if level.encrypted then encodeOctetString payload else payload

/-- What the encoder accepts, and what it gives for it. -/
theorem encodeMessage_ok {messageId : Int32} {level : Level} {reportable : Bool} {usm : UsmParameters}
    {payload : Bytes}
    {encoded : Encoded} (h : encodeMessage messageId level reportable usm payload = .ok encoded) :
    checkMessageInvariants messageId.toInt maxMessageBytes (level.flags reportable) securityModelUsm
    (usm.outgoing level) =
        .ok () ∧
      usm.authentication = [] ∧
      encoded.bytes = wireMessage messageId.toInt (level.flags reportable) (usm.outgoing level) (level.data payload) ∧
      encoded.bytes.length ≤ maxMessageBytes ∧
      encoded.authenticationRange =
        if level.authLen = 0 then ⟨0, 0⟩
        else
          let start := digestStart messageId.toInt (level.flags reportable) (usm.outgoing level) (level.data payload)
          ⟨start, start + level.authLen⟩ := by
  simp only [encodeMessage, bind_eq_ok, require_eq_ok] at h
  obtain ⟨u, hcheck, -, hempty, -, hlen, hencoded⟩ := h
  rw [Outcome.ok.injEq] at hencoded
  subst hencoded
  refine ⟨hcheck, hempty, rfl, hlen, ?_⟩
  show (if level.authLen = 0 then _ else _) = _
  by_cases hzero : level.authLen = 0
  · rw [if_pos hzero, if_pos hzero]
  · rw [if_neg hzero, if_neg hzero]
    refine congrArg (fun start => (⟨start, start + level.authLen⟩ : ByteRange)) ?_
    show (wireMessage messageId.toInt (level.flags reportable) (usm.outgoing level) (level.data payload)).length -
          (wireBody messageId.toInt (level.flags reportable) (usm.outgoing level) (level.data payload)).length +
        (encodeInteger version3 ++ encodeTlv tagSequence
          (globalData messageId.toInt (level.flags reportable))).length +
        ((encodeOctetString (encodeTlv tagSequence (usmBody (usm.outgoing level)))).length -
            (encodeTlv tagSequence (usmBody (usm.outgoing level))).length +
          ((encodeTlv tagSequence (usmBody (usm.outgoing level))).length - (usmBody (usm.outgoing level)).length)) +
        ((beforeDigest (usm.outgoing level)).length +
          ((encodeOctetString (usm.outgoing level).authentication).length - level.authLen)) = _
    have hauth : (usm.outgoing level).authentication.length = level.authLen := List.length_replicate
    unfold digestStart wireMessage encodeOctetString
    rw [length_encodeTlv _ (wireBody _ _ _ _), length_encodeTlv _ (usm.outgoing level).authentication,
      length_encodeTlv tagOctetString (encodeTlv tagSequence (usmBody (usm.outgoing level)))]
    have hseq := length_encodeTlv tagSequence (usmBody (usm.outgoing level))
    omega

section Splice

variable (messageId : Int) (flags : UInt8) (usm : UsmParameters) (data : Bytes)

/-- What stands in front of the digest. -/
def digestFront : Bytes :=
  tlvHeader tagSequence (wireBody messageId flags usm data).length ++
    (encodeInteger version3 ++ encodeTlv tagSequence (globalData messageId flags)) ++
    tlvHeader tagOctetString (encodeTlv tagSequence (usmBody usm)).length ++
    tlvHeader tagSequence (usmBody usm).length ++ beforeDigest usm ++
    tlvHeader tagOctetString usm.authentication.length

theorem length_digestFront : (digestFront messageId flags usm data).length =
    digestStart messageId flags usm data := by
  unfold digestFront digestStart
  simp only [List.length_append]

theorem wireMessage_eq :
    wireMessage messageId flags usm data =
      digestFront messageId flags usm data ++ usm.authentication ++ (encodeOctetString usm.privacy ++ data) := by
  show tlvHeader tagSequence (wireBody messageId flags usm data).length ++
    (encodeInteger version3 ++ encodeTlv tagSequence (globalData messageId flags) ++
      (tlvHeader tagOctetString (encodeTlv tagSequence (usmBody usm)).length ++
        (tlvHeader tagSequence (usmBody usm).length ++
          (beforeDigest usm ++ (tlvHeader tagOctetString usm.authentication.length ++ usm.authentication) ++
            encodeOctetString usm.privacy))) ++ data) = _
  unfold digestFront
  simp only [List.append_assoc]

/-- Only the length of the digest tells in front of it. -/
theorem digestFront_congr {new : Bytes} (hnew : new.length = usm.authentication.length) :
    digestFront messageId flags { usm with authentication := new } data = digestFront messageId flags usm data := by
  have husm : (usmBody { usm with authentication := new }).length = (usmBody usm).length := by
    simp only [usmBody, beforeDigest, encodeOctetString, List.length_append, length_encodeTlv, hnew]
  have hbody : (wireBody messageId flags { usm with authentication := new } data).length =
      (wireBody messageId flags usm data).length := by
    simp only [wireBody, encodeOctetString, List.length_append, length_encodeTlv, husm]
  unfold digestFront
  rw [hbody, length_encodeTlv, length_encodeTlv, husm, hnew]
  rfl

theorem digestStart_congr {new : Bytes} (hnew : new.length = usm.authentication.length) :
    digestStart messageId flags { usm with authentication := new } data = digestStart messageId flags usm data := by
  rw [← length_digestFront, digestFront_congr _ _ _ _ hnew, length_digestFront]

theorem length_wireMessage_congr {new : Bytes} (hnew : new.length = usm.authentication.length) :
    (wireMessage messageId flags { usm with authentication := new } data).length =
      (wireMessage messageId flags usm data).length := by
  rw [wireMessage_eq, wireMessage_eq, digestFront_congr _ _ _ _ hnew]
  simp only [List.length_append, hnew]

/-- The digest's place can be written over: nothing else in the message depends on what stands there. -/
theorem copyInto_wireMessage {new : Bytes} (hnew : new.length = usm.authentication.length) :
    (copyInto (wireMessage messageId flags usm data) (digestStart messageId flags usm data)
        (digestStart messageId flags usm data + usm.authentication.length) new : Outcome Text Bytes) =
      .ok (wireMessage messageId flags { usm with authentication := new } data) := by
  rw [wireMessage_eq, wireMessage_eq, digestFront_congr _ _ _ _ hnew, ← length_digestFront]
  exact copyInto_append hnew

end Splice

/-! ## Encoder and decoder agree -/

/-- What a decoded message says of the message that was sent. -/
structure DecodedMessage.Says (m : DecodedMessage) (messageId : Int32) (level : Level) (reportable : Bool)
    (usm : UsmParameters) (payload : Bytes) : Prop where
  messageId : m.messageId = messageId
  flags : m.flags = level.flags reportable
  securityModel : m.securityModel = securityModelUsm
  usm : m.usm = usm
  scopedPdu : m.scopedPdu = .ok payload
  encrypted : m.encrypted = level.encrypted

theorem priv_of_level (level : Level) (reportable : Bool) :
    decide (level.flags reportable &&& Flags.priv ≠ 0) = level.encrypted := by
  cases level with
  | discovery => cases reportable <;> decide
  | secured level => cases level <;> cases reportable <;> decide

theorem carries_data {level : Level} {payload : Bytes} (reportable : Bool)
    (h : level.encrypted = false → ∃ contents, payload = encodeTlv tagSequence contents) :
    Carries (level.flags reportable) (level.data payload) payload := by
  have hpriv := priv_of_level level reportable
  unfold Carries Level.data
  by_cases hencrypted : level.encrypted = true
  · rw [hencrypted, decide_eq_true_iff] at hpriv
    rw [if_pos hpriv, if_pos hencrypted]
  · rw [Bool.not_eq_true] at hencrypted
    rw [hencrypted, decide_eq_false_iff_not] at hpriv
    rw [if_neg hpriv, hencrypted]
    exact ⟨rfl, h hencrypted⟩

theorem length_authenticate (hmac : Hmac) (key message : Bytes) (protocol : AuthProtocol) :
    ∃ tag, authenticate hmac key message protocol = .ok tag ∧ tag.length = 24 := by
  cases protocol
  have hlen := hmac.length_digest key message
  refine ⟨((hmac.digest key message).drop 0).take (24 - 0), ?_, ?_⟩
  · unfold authenticate slice
    exact if_pos ⟨by decide, by rw [hlen]; decide⟩
  · rw [List.length_take, List.length_drop, hlen]
    rfl

/-- A message whose digest was computed with zeroes in its place verifies. -/
theorem verify_wireMessage {hmac : Hmac} {key : Bytes} {protocol : AuthProtocol} {messageId : Int} {flags : UInt8}
    {usm : UsmParameters} {data : Bytes} {m : DecodedMessage} (hlen : usm.authentication.length = protocol.tagLen)
    (htag : authenticate hmac key (wireMessage messageId flags
      { usm with authentication := List.replicate usm.authentication.length 0 } data) protocol =
        .ok usm.authentication)
    (hdatagram : m.datagram = wireMessage messageId flags usm data) (husm : m.usm = usm)
    (hrange : m.authenticationRange = ⟨digestStart messageId flags usm data,
      digestStart messageId flags usm data + usm.authentication.length⟩) :
    m.verify hmac key protocol = .ok true := by
  have hrangeLen : m.authenticationRange.len = usm.authentication.length := by
    rw [hrange]
    exact Nat.add_sub_cancel_left _ _
  unfold DecodedMessage.verify
  rw [if_neg (by rw [hrangeLen, hlen]; exact not_not_intro rfl), hrangeLen, hdatagram, hrange,
    copyInto_wireMessage _ _ _ _ List.length_replicate, ok_bind]
  unfold verifyTag
  rw [husm, if_neg (by rw [hlen]; exact not_not_intro rfl), htag, ok_bind, decide_eq_true rfl]

/-- What is written with the digest as zeroes is read back; and for every security level what is then signed is read
back with the same fields, the same place of the digest and the payload as it was, and verifies. -/
theorem snmpV3_agree (hmac : Hmac) (messageId : Int32) (level : Level) (reportable : Bool) (usm : UsmParameters)
    (payload : Bytes) (encoded : Encoded)
    (hpayload : level.encrypted = false → ∃ engine name pduType requestId oid,
      payload = encodeScopedPdu engine name pduType requestId oid)
    (h : encodeMessage messageId level reportable usm payload = .ok encoded) :
    (∃ m, decodeMessage encoded.bytes = .ok m ∧ m.Says messageId level reportable (usm.outgoing level) payload ∧
      m.authenticationRange.len = encoded.authenticationRange.len) ∧
    ∀ securityLevel, level = .secured securityLevel → ∀ (key : Bytes) (protocol : AuthProtocol), ∃ tag signed m,
      authenticate hmac key encoded.bytes protocol = .ok tag ∧ encoded.sign hmac key protocol = .ok signed ∧
      decodeMessage signed = .ok m ∧ m.datagram = signed ∧
      m.Says messageId level reportable { usm with authentication := tag } payload ∧
      m.authenticationRange = encoded.authenticationRange ∧ m.verify hmac key protocol = .ok true := by
  obtain ⟨hcheck, hempty, hbytes, hlen, hrange⟩ := encodeMessage_ok h
  have hcarries : Carries (level.flags reportable) (level.data payload) payload := by
    refine carries_data reportable fun hplain => ?_
    obtain ⟨engine, name, pduType, requestId, oid, hscoped⟩ := hpayload hplain
    exact ⟨_, hscoped⟩
  constructor
  · rw [hbytes] at hlen ⊢
    obtain ⟨range, hdecode, hslice⟩ := decodeMessage_wireMessage hcheck hlen hcarries
    refine ⟨_, hdecode, ⟨rfl, rfl, rfl, rfl, hslice, priv_of_level level reportable⟩, ?_⟩
    rw [hrange]
    unfold ByteRange.len
    have hauth : (usm.outgoing level).authentication.length = level.authLen := List.length_replicate
    split
    · dsimp only
      omega
    · dsimp only
      omega
  · intro securityLevel hsecured key protocol
    have hauthLen : level.authLen = 24 := by
      rw [hsecured]
      rfl
    have htagLen : protocol.tagLen = 24 := by
      cases protocol
      rfl
    obtain ⟨tag, htag, hlenTag⟩ := length_authenticate hmac key encoded.bytes protocol
    have hzeroes : (usm.outgoing level).authentication.length = 24 := by
      rw [← hauthLen]
      exact List.length_replicate
    have hnew : tag.length = (usm.outgoing level).authentication.length := by omega
    rw [if_neg (by omega)] at hrange
    have hsign : encoded.sign hmac key protocol =
        .ok (wireMessage messageId.toInt (level.flags reportable) { usm with authentication := tag }
        (level.data payload)) := by
      have hcopy := copyInto_wireMessage messageId.toInt (level.flags reportable) (usm.outgoing level)
        (level.data payload)
        hnew
      rw [hzeroes, ← hauthLen] at hcopy
      unfold Encoded.sign
      rw [hrange, require_of (by dsimp only; omega), ok_bind, require_of (by unfold ByteRange.len; dsimp only; omega),
        ok_bind, htag, ok_bind, hbytes]
      exact hcopy
    have hcheckTag := (check_congr messageId.toInt maxMessageBytes
      (level.flags reportable) securityModelUsm hnew).trans
      hcheck
    have hlenSigned : (wireMessage messageId.toInt (level.flags reportable) { usm with authentication := tag }
        (level.data payload)).length ≤ maxMessageBytes := by
      rw [hbytes] at hlen
      exact le_of_eq_of_le (length_wireMessage_congr _ _ (usm.outgoing level) _ hnew) hlen
    obtain ⟨range, hdecode, hslice⟩ := decodeMessage_wireMessage hcheckTag hlenSigned hcarries
    refine ⟨tag, _, _, htag, hsign, hdecode, rfl, ⟨rfl, rfl, rfl, rfl, hslice, priv_of_level level reportable⟩, ?_,
      ?_⟩
    · have hstart := digestStart_congr messageId.toInt (level.flags reportable) (usm.outgoing level)
        (level.data payload) hnew
      rw [hrange]
      dsimp only
      rw [← hstart, hauthLen, ← hlenTag]
    · refine verify_wireMessage (hlenTag.trans htagLen.symm) ?_ rfl rfl rfl
      rw [hbytes] at htag
      unfold UsmParameters.outgoing at htag
      rw [hlenTag, ← hauthLen]
      exact htag

/-- The HMAC of the one message below, under a key of twenty bytes `0b`. -/
def sampleHmac : Hmac where
  digest := fun _ _ => [122, 79, 238, 105, 180, 250, 117, 231, 205, 132, 184, 9, 191, 128, 76, 255, 175, 173, 202,
    228, 125, 233, 98, 187, 183, 20, 133, 225, 250, 17, 208, 60]
  length_digest := fun _ _ => rfl

def sampleUsm : UsmParameters := ⟨[0x80, 0, 0, 0, 1], 1, 100, Text.asBytes "idnx", [], []⟩

def sampleScopedPdu : Bytes := encodeScopedPdu [0x80, 0, 0, 0, 1] [] 0xA0 1 [1, 3, 6, 1, 2, 1, 1, 1, 0]

/-- The request in its 109 bytes, the digest from byte 45 on. -/
def sampleEncoded : Encoded :=
  ⟨[48, 107, 2, 1, 3, 48, 13, 2, 1, 1, 2, 2, 32, 0, 4, 1, 5, 2, 1, 3, 4, 49, 48, 47, 4, 5, 128, 0, 0, 0, 1, 2, 1, 1,
    2, 1, 100, 4, 4, 105, 100, 110, 120, 4, 24, 0, 0, 0, 0, 0, 0, 0, 0, 0, 0, 0, 0, 0, 0, 0, 0, 0, 0, 0, 0, 0, 0, 0,
    0, 4, 0, 48, 36, 4, 5, 128, 0, 0, 0, 1, 4, 0, 160, 25, 2, 1, 1, 2, 1, 0, 2, 1, 0, 48, 14, 48, 12, 6, 8, 43, 6, 1,
    2, 1, 1, 1, 0, 5, 0], ⟨45, 69⟩⟩

theorem snmpV3_agree_request :
    ∃ signed m, encodeMessage 1 (.secured .authNoPriv) true sampleUsm sampleScopedPdu = .ok sampleEncoded ∧
      sampleEncoded.sign sampleHmac (List.replicate 20 0x0B) .hmacSha256 = .ok signed ∧ decodeMessage signed = .ok m ∧
      m.verify sampleHmac (List.replicate 20 0x0B) .hmacSha256 = .ok true := by
  have hencoded : encodeMessage 1 (.secured .authNoPriv) true sampleUsm sampleScopedPdu = .ok sampleEncoded := by
    decide
  obtain ⟨-, hsigned⟩ := snmpV3_agree sampleHmac 1 (.secured .authNoPriv) true sampleUsm sampleScopedPdu sampleEncoded
    (fun _ => ⟨_, _, _, _, _, rfl⟩) hencoded
  obtain ⟨-, signed, m, -, hsign, hdecode, -, -, -, hverify⟩ :=
    hsigned .authNoPriv rfl (List.replicate 20 0x0B) .hmacSha256
  exact ⟨signed, m, hencoded, hsign, hdecode, hverify⟩

end Idnx
