import Idnx.Probes.Layout
import Idnx.Probes.Readers

/-!
# What a decoded SNMPv3 message locates

`decodeMessage` hands on places in the datagram, and these are later zeroed and verified in it. The elements it reads
fill the containers they are read from (`Fills`): the message fills the datagram, four elements fill the message, four
the global data, one sequence the security parameters and six that sequence (`MessageLayout.Fits`). So no range it
reports leaves the element around it, and the lengths of the parameters are those of the flags (`WellFormed`).
-/

namespace Idnx

open Outcome

/-! ## Elements at a place -/

/-- An element of the message from `start` on: its contents lie behind a tag and a length, and end where it does. -/
structure Tlv.LiesAt (tlv : Tlv) (bytes : Bytes) (start : Nat) : Prop where
  header : start + 2 ≤ tlv.content.start
  contents : tlv.content.start ≤ tlv.content.stop
  stop : tlv.stop = tlv.content.stop
  inside : tlv.stop ≤ bytes.length
  element : IsTlv tlv.tag ((bytes.drop tlv.content.start).take tlv.content.len)
    ((bytes.drop start).take (tlv.stop - start))

/-- The elements lie one behind the other and fill the bytes `start..stop`. -/
def Fills (bytes : Bytes) (stop : Nat) : Nat → List Tlv → Prop
  | start, [] => start = stop
  | start, tlv :: rest => tlv.LiesAt bytes start ∧ Fills bytes stop tlv.stop rest

def ByteRange.Inside (inner outer : ByteRange) : Prop :=
  outer.start ≤ inner.start ∧ inner.start ≤ inner.stop ∧ inner.stop ≤ outer.stop

section Fills

variable {bytes : Bytes} {start stop : Nat} {tlvs : List Tlv} {tlv : Tlv}

theorem Fills.le (h : Fills bytes stop start tlvs) : start ≤ stop := by
  induction tlvs generalizing start with
  | nil => exact Nat.le_of_eq h
  | cons tlv rest ih =>
    have hrest := ih h.2
    have hheader := h.1.header
    have hcontents := h.1.contents
    have hstop := h.1.stop
    omega

/-- The contents of an element lie inside what the elements fill. -/
theorem Fills.inside (h : Fills bytes stop start tlvs) (hmem : tlv ∈ tlvs) : tlv.content.Inside ⟨start, stop⟩ := by
  induction tlvs generalizing start with
  | nil => cases hmem
  | cons first rest ih =>
    have hheader := h.1.header
    have hcontents := h.1.contents
    have hstop := h.1.stop
    have hrest := h.2.le
    obtain rfl | hmem := List.mem_cons.mp hmem
    · exact ⟨by dsimp only; omega, hcontents, by dsimp only; omega⟩
    · obtain ⟨hlo, hmid, hhi⟩ := ih h.2 hmem
      dsimp only at hlo hhi
      exact ⟨by dsimp only; omega, hmid, hhi⟩

end Fills

/-! ## What the readers locate -/

section Readers

variable {bytes : Bytes} {start limit : Nat}

/-- A length is read from octets that say it, before the limit. -/
theorem safe_readLength (hstart : start < limit) (hlimit : limit ≤ bytes.length) (what : Text) :
    Safe (fun read => ∃ octets, LengthOctets read.1 octets ∧ bytes.drop start = octets ++ bytes.drop read.2 ∧
      read.2 = start + octets.length ∧ start < read.2 ∧ read.2 ≤ limit) (readLength bytes start limit what) := by
  have halike := alike_length hstart hlimit what what
  cases hread : readLength bytes start limit what with
  | panic =>
    rw [hread] at halike
    exact absurd halike id
  | err e => trivial
  | ok read =>
    rw [hread] at halike
    cases hfound : Reader.length ⟨bytes.take limit, start⟩ what with
    | panic =>
      rw [hfound] at halike
      exact absurd halike id
    | err e =>
      rw [hfound] at halike
      exact absurd halike id
    | ok found =>
      rw [hfound] at halike
      obtain ⟨rfl, hlt, hle⟩ := halike
      obtain ⟨octets, hoctets, hahead, -, hcursor⟩ := Reader.length_inv hfound
      refine ⟨octets, hoctets, ?_, hcursor, hlt, hle⟩
      -- the same octets stand in the whole message
      dsimp only [Reader.ahead] at hahead hcursor
      have hoctets' : octets = (bytes.drop start).take octets.length := by
        have htake := congrArg (List.take octets.length) hahead
        rw [List.take_left, List.drop_take, List.take_take, Nat.min_eq_left (by omega)] at htake
        exact htake.symm
      calc bytes.drop start
          = (bytes.drop start).take octets.length ++ (bytes.drop start).drop octets.length :=
            (List.take_append_drop _ _).symm
        _ = octets ++ bytes.drop read.2 := by rw [← hoctets', List.drop_drop, hcursor]

/-- An element is read where it lies, before the limit. -/
theorem safe_readTlv (bytes : Bytes) (start limit : Nat) (what : Text) :
    Safe (fun tlv => tlv.LiesAt bytes start ∧ tlv.stop ≤ limit ∧ limit ≤ bytes.length)
      (readTlv bytes start limit what) := by
  unfold readTlv
  refine (safe_require _ _).bind fun _ hstart => ?_
  refine (safe_index (by omega)).bind fun tag htag => ?_
  refine (safe_require _ _).bind fun _ hlength => ?_
  refine (safe_readLength hlength hstart.2 what).bind fun read hread => ?_
  obtain ⟨length, cursor⟩ := read
  obtain ⟨octets, hoctets, hdrop, hcursor, -, hle⟩ := hread
  dsimp only at hoctets hdrop hcursor hle
  refine (safe_okOr _ _).bind fun stop hstop => ?_
  obtain rfl : cursor + length = stop := by
    split at hstop
    · exact Option.some.inj hstop
    · cases hstop
  refine (safe_require _ _).bind fun _ hinside => ?_
  have hpos : 0 < octets.length := by
    obtain ⟨-, rfl⟩ | ⟨k, -, -, -, rfl⟩ := hoctets
    · exact Nat.one_pos
    · exact Nat.succ_pos _
  refine ⟨⟨?_, ?_, rfl, ?_, octets, ?_, ?_⟩, hinside, hstart.2⟩
  · dsimp only
    omega
  · exact Nat.le_add_right cursor length
  · exact Nat.le_trans hinside hstart.2
  · show LengthOctets ((bytes.drop cursor).take (cursor + length - cursor)).length octets
    rwa [List.length_take, List.length_drop, Nat.add_sub_cancel_left, Nat.min_eq_left (by omega)]
  · show (bytes.drop start).take (cursor + length - start) =
      tag :: octets ++ (bytes.drop cursor).take (cursor + length - cursor)
    obtain ⟨hlt, rfl⟩ := List.getElem?_eq_some_iff.mp htag
    have hlen : cursor + length - start = octets.length + length + 1 := by omega
    rw [List.drop_eq_getElem_cons hlt, hdrop, hlen, List.take_succ_cons, List.take_length_add_append,
      Nat.add_sub_cancel_left]
    rfl

theorem safe_expect (bytes : Bytes) (start limit : Nat) (tag : UInt8) (what : Text) :
    Safe (fun tlv => tlv.LiesAt bytes start ∧ tlv.stop ≤ limit ∧ tlv.tag = tag) (expect bytes start limit tag what) := by
  unfold expect
  refine (safe_readTlv bytes start limit what).bind fun tlv htlv => ?_
  refine (safe_require _ _).bind fun _ htag => ?_
  exact ⟨htlv.1, htlv.2.1, htag⟩

theorem safe_readInteger {tlv : Tlv} (h : tlv.LiesAt bytes start) (what : Text) :
    Safe (fun _ => True) (readInteger bytes tlv what) := by
  unfold readInteger
  have hinside := h.inside
  rw [h.stop] at hinside
  refine (safe_slice h.contents hinside).bind fun raw _ => ?_
  refine (safe_require _ _).bind fun _ _ => ?_
  trivial

end Readers

/-! ## The whole message -/

/-- The elements of a message: its own, the five around and in the global data, the security parameters and what is in
them, and the data. -/
structure MessageLayout where
  message : Tlv
  version : Tlv
  header : Tlv
  messageId : Tlv
  maxSize : Tlv
  flags : Tlv
  securityModel : Tlv
  params : Tlv
  usm : Tlv
  engineId : Tlv
  engineBoots : Tlv
  engineTime : Tlv
  userName : Tlv
  authentication : Tlv
  privacy : Tlv
  data : Tlv

/-- Every container of the message is filled by its elements, to its last byte. -/
structure MessageLayout.Fits (l : MessageLayout) (datagram : Bytes) : Prop where
  whole : Fills datagram datagram.length 0 [l.message]
  message : Fills datagram l.message.content.stop l.message.content.start [l.version, l.header, l.params, l.data]
  header : Fills datagram l.header.content.stop l.header.content.start
    [l.messageId, l.maxSize, l.flags, l.securityModel]
  params : Fills datagram l.params.content.stop l.params.content.start [l.usm]
  usm : Fills datagram l.usm.content.stop l.usm.content.start
    [l.engineId, l.engineBoots, l.engineTime, l.userName, l.authentication, l.privacy]
  tags : [l.message, l.header, l.params, l.usm].map Tlv.tag = [tagSequence, tagSequence, tagOctetString, tagSequence]

/-- The parameters are those of the level the flags claim, and that is never privacy without authentication. -/
structure Consistent (flags : UInt8) (usm : UsmParameters) : Prop where
  level : flags &&& Flags.priv ≠ 0 → flags &&& Flags.auth ≠ 0
  authentication : usm.authentication.length = if flags &&& Flags.auth ≠ 0 then AuthProtocol.hmacSha256.tagLen else 0
  privacy : usm.privacy.length = if flags &&& Flags.priv ≠ 0 then aesSaltLen else 0
  counters : (usm.engineBoots.toNat : Int) ≤ maxCounter ∧ (usm.engineTime.toNat : Int) ≤ maxCounter

/-- What a decoded message says of the datagram is so: the ranges are those of its elements, each inside the one
around it, and its parameters are those of its level. -/
structure DecodedMessage.WellFormed (m : DecodedMessage) (datagram : Bytes) (l : MessageLayout) : Prop where
  whole : m.datagram = datagram
  fits : l.Fits datagram
  flags : l.flags.content.len = 1 ∧ datagram[l.flags.content.start]? = some m.flags
  consistent : Consistent m.flags m.usm
  encrypted : m.encrypted = decide (m.flags &&& Flags.priv ≠ 0)
  authenticationRange : m.authenticationRange = l.authentication.content ∧
    (slice datagram m.authenticationRange.start m.authenticationRange.stop : Outcome Text _) = .ok m.usm.authentication
  authenticationInside : m.authenticationRange.Inside l.usm.content ∧ l.usm.content.Inside l.params.content ∧
    l.params.content.Inside l.message.content
  /-- The contents of an octet string if they are encrypted, else a sequence from its tag on. -/
  scopedPduRange : if m.encrypted then l.data.tag = tagOctetString ∧ m.scopedPduRange = l.data.content
    else l.data.tag = tagSequence ∧ m.scopedPduRange = ⟨l.params.stop, l.data.stop⟩
  scopedPduInside : m.scopedPduRange.Inside l.message.content
  messageInside : l.message.content.Inside ⟨0, datagram.length⟩

theorem safe_checkMessageInvariants (messageId maxSize : Int) (flags : UInt8) (securityModel : Int)
    (usm : UsmParameters) :
    Safe (fun _ => Consistent flags usm) (checkMessageInvariants messageId maxSize flags securityModel usm) := by
  unfold checkMessageInvariants
  refine (safe_require _ _).bind fun _ _ => (safe_require _ _).bind fun _ _ => (safe_require _ _).bind fun _ _ => ?_
  refine (safe_require _ _).bind fun _ hlevel => (safe_require _ _).bind fun _ _ =>
    (safe_require _ _).bind fun _ hcounters => ?_
  refine (safe_require _ _).bind fun _ hauth => (safe_require _ _).bind fun _ hpriv => ?_
  have hconsistent : Consistent flags usm := ⟨fun h => not_not.mp fun h' => hlevel ⟨h, h'⟩, hauth, hpriv, hcounters⟩
  split
  · refine (safe_require _ _).bind fun _ _ => (safe_require _ _).mono fun _ _ => hconsistent
  · exact hconsistent

theorem safe_locateScopedPdu (encrypted : Bool) (data : Tlv) (start : Nat) :
    Safe (fun range => if encrypted then data.tag = tagOctetString ∧ range = data.content
      else data.tag = tagSequence ∧ range = ⟨start, data.stop⟩) (locateScopedPdu encrypted data start) := by
  unfold locateScopedPdu
  cases encrypted with
  | true =>
    by_cases htag : data.tag = tagOctetString
    · rw [if_pos ⟨rfl, htag⟩]
      exact ⟨htag, rfl⟩
    · rw [if_neg fun h => htag h.2, if_neg fun h => absurd h.1 (by decide)]
      trivial
  | false =>
    by_cases htag : data.tag = tagSequence
    · rw [if_neg fun h => absurd h.1 (by decide), if_pos ⟨rfl, htag⟩]
      exact ⟨htag, rfl⟩
    · rw [if_neg fun h => absurd h.1 (by decide), if_neg fun h => htag h.2]
      trivial

/-- The data, with its tag or without it, lies behind the parameters and inside the message. -/
theorem MessageLayout.Fits.data_inside {l : MessageLayout} {datagram : Bytes} (h : l.Fits datagram) {encrypted : Bool}
    {range : ByteRange}
    (hrange : if encrypted then l.data.tag = tagOctetString ∧ range = l.data.content
      else l.data.tag = tagSequence ∧ range = ⟨l.params.stop, l.data.stop⟩) : range.Inside l.message.content := by
  obtain ⟨-, -, hparams, hdata, -⟩ := h.message
  have hcontent : l.data.content.Inside l.message.content := h.message.inside (by simp)
  have hbefore : l.params.content.Inside l.message.content := h.message.inside (by simp)
  cases encrypted with
  | true =>
    rw [if_pos rfl] at hrange
    rw [hrange.2]
    exact hcontent
  | false =>
    rw [if_neg (by decide)] at hrange
    rw [hrange.2, hparams.stop, hdata.stop]
    have hheader := hdata.header
    rw [hparams.stop] at hheader
    exact ⟨Nat.le_trans hbefore.1 hbefore.2.1, by have := hcontent.2.1; dsimp only; omega, hcontent.2.2⟩

theorem Tlv.LiesAt.safe_contents {bytes : Bytes} {start : Nat} {tlv : Tlv} (h : tlv.LiesAt bytes start) :
    Safe (fun piece => (slice bytes tlv.content.start tlv.content.stop : Outcome Text _) = .ok piece)
      (slice bytes tlv.content.start tlv.content.stop : Outcome Text _) := by
  have hinside := h.inside
  rw [h.stop] at hinside
  unfold slice
  rw [if_pos ⟨h.contents, hinside⟩]
  rfl

/-- What decoding locates, element by element. -/
theorem safe_decodeMessage (datagram : Bytes) :
    Safe (fun m => ∃ l, m.WellFormed datagram l) (decodeMessage datagram) := by
  unfold decodeMessage
  refine (safe_require _ _).bind fun _ _ => ?_
  refine (safe_expect _ _ _ _ _).bind fun message hmessage => ?_
  refine (safe_require _ _).bind fun _ hwhole => ?_
  refine (safe_expect _ _ _ _ _).bind fun version hversion => ?_
  refine (safe_readInteger hversion.1 _).bind fun _ _ => (safe_require _ _).bind fun _ _ => ?_
  refine (safe_expect _ _ _ _ _).bind fun header hheader => ?_
  -- the global data
  refine (safe_expect _ _ _ _ _).bind fun messageId hid => ?_
  refine (safe_readInteger hid.1 _).bind fun idValue _ => ?_
  refine (safe_expect _ _ _ _ _).bind fun maxSize hmax => ?_
  refine (safe_expect _ _ _ _ _).bind fun flagsTlv hflags => ?_
  refine (safe_require _ _).bind fun _ hone => ?_
  have hflagsAt : flagsTlv.content.start < datagram.length := by
    have hinside := hflags.1.inside
    have hstop := hflags.1.stop
    unfold ByteRange.len at hone
    omega
  refine (safe_index hflagsAt).bind fun flags hflag => ?_
  refine (safe_expect _ _ _ _ _).bind fun model hmodel => ?_
  refine (safe_readInteger hmodel.1 _).bind fun modelValue _ => (safe_require _ _).bind fun _ hheaderEnd => ?_
  refine (safe_readInteger hmax.1 _).bind fun maxSizeValue _ => (safe_require _ _).bind fun _ _ => ?_
  -- the security parameters
  refine (safe_expect _ _ _ _ _).bind fun params hparams => ?_
  refine (safe_expect _ _ _ _ _).bind fun usm husm => ?_
  refine (safe_expect _ _ _ _ _).bind fun engine hengine => (safe_expect _ _ _ _ _).bind fun boots hboots => ?_
  refine (safe_expect _ _ _ _ _).bind fun time htime => (safe_expect _ _ _ _ _).bind fun user huser => ?_
  refine (safe_expect _ _ _ _ _).bind fun auth hauth => (safe_expect _ _ _ _ _).bind fun priv hpriv => ?_
  refine (safe_require _ _).bind fun _ hends => ?_
  obtain ⟨husmEnd, hparamsEnd⟩ := not_or.mp hends
  refine (safe_readInteger hboots.1 _).bind fun _ _ => (safe_readInteger htime.1 _).bind fun _ _ => ?_
  refine (safe_require _ _).bind fun _ _ => ?_
  refine hengine.1.safe_contents.bind fun engineId _ => huser.1.safe_contents.bind fun userName _ => ?_
  refine hauth.1.safe_contents.bind fun authentication hauthentication => ?_
  refine hpriv.1.safe_contents.bind fun privacy _ => ?_
  refine (safe_checkMessageInvariants _ _ _ _ _).bind fun _ hconsistent => ?_
  -- the data
  refine (safe_readTlv _ _ _ _).bind fun data hdata => (safe_require _ _).bind fun _ hdataEnd => ?_
  refine (safe_locateScopedPdu _ _ _).bind fun range hrange => (safe_require _ _).bind fun _ _ => ?_
  let l : MessageLayout := ⟨message, version, header, messageId, maxSize, flagsTlv, model, params, usm, engine,
    boots, time, user, auth, priv, data⟩
  have hfits : l.Fits datagram := {
    whole := ⟨hmessage.1, hwhole⟩
    message := ⟨hversion.1, hheader.1, hparams.1, hdata.1, hdataEnd⟩
    header := ⟨hid.1, hmax.1, hflags.1, hmodel.1, hheaderEnd⟩
    params := ⟨husm.1, not_not.mp hparamsEnd⟩
    usm := ⟨hengine.1, hboots.1, htime.1, huser.1, hauth.1, hpriv.1, not_not.mp husmEnd⟩
    tags := by simp [l, hmessage.2.2, hheader.2.2, hparams.2.2, husm.2.2] }
  refine ⟨l, rfl, hfits, ⟨hone, hflag⟩, hconsistent, rfl, ⟨rfl, hauthentication⟩, ⟨?_, ?_, ?_⟩, hrange, ?_, ?_⟩
  · exact hfits.usm.inside (by simp [l])
  · exact hfits.params.inside (by simp [l])
  · exact hfits.message.inside (by simp [l])
  · exact hfits.data_inside hrange
  · exact hfits.whole.inside (by simp [l])

/-- **Decoding is well formed on all inputs.** Of no datagram is a byte read that it does not have: it is refused, or
every range that is reported lies in its element and that in the message, every container is filled by its elements,
and the parameters have the lengths of the level. -/
theorem decodeMessage_well_formed (datagram : Bytes) :
    (∃ reason, decodeMessage datagram = .err reason) ∨
      ∃ m l, decodeMessage datagram = .ok m ∧ m.WellFormed datagram l := by
  have hsafe := safe_decodeMessage datagram
  cases hdecode : decodeMessage datagram with
  | ok m =>
    rw [hdecode] at hsafe
    obtain ⟨l, hl⟩ := hsafe
    exact .inr ⟨m, l, rfl, hl⟩
  | err reason => exact .inl ⟨reason, rfl⟩
  | panic =>
    rw [hdecode] at hsafe
    exact absurd hsafe id

end Idnx
