import Idnx.Federation.Qualified
import Idnx.Output.Safe
import Mathlib.Logic.Relation

/-!
# Finding peers on the link

A peer publishes its identity and port as a TXT string (`advertisement`). `advertisementsIn` looks for such strings in
a packet without taking its records apart: it reads an octet as the length of a string, looks at the string and goes
on behind it, or at the next octet if there is no such string.

* what is found are the strings at the places where it stops (`mem_advertisementsIn`), with their control characters
  replaced;
* if it stops at the first of a record's strings, it finds every advertisement among them (`discovery_finds`). It need
  not stop there: the type of a TXT record is taken for a length (`txt_record_jumped_over`).
-/

set_option maxRecDepth 4000

namespace Idnx

/-- The service peers advertise and look for (`SERVICE`). -/
def serviceName : Text := "_idnx._tcp.local"

variable {crypto : Ed25519}

/-- The TXT record a peer publishes about itself. -/
def advertisement (identity : PeerId crypto) (port : UInt16) : Text :=
  ("id=" : Text) ++ identity.toHex ++ " port=" ++ Text.ofNat port.toNat

/-- Writes a DNS name. -/
def encodeName (name : Text) : Bytes :=
  ((Text.split '.' name).flatMap fun label =>
    if label.isEmpty then []
    else
      let bytes := Text.asBytes label
      UInt8.ofNat (min bytes.length 63) :: bytes.take (min bytes.length 63)) ++ [0]

/-- What is found in one string. -/
def advertised (bytes : Bytes) : List Text :=
  match Text.fromUtf8 bytes with
  | some text => if Text.startsWith text "id=" then [Text.sanitize text] else []
  | none => []

/-- The loop of `advertisements_in`, from an index on. Every turn moves the index. -/
def scanFrom (packet : Bytes) : Nat → Nat → List Text
  | 0, _ => []
  | fuel + 1, index =>
    match packet[index]? with
    | none => []
    | some b =>
      let length := b.toNat
      let index := index + 1
      if length = 0 ∨ index + length > packet.length then scanFrom packet fuel index
      else advertised ((packet.drop index).take length) ++ scanFrom packet fuel (index + length)

/-- The advertisements in a packet. -/
def advertisementsIn (packet : Bytes) : List Text := scanFrom packet packet.length 0

/-! ## Where the scan stops -/

/-- A string with its length in front of it. -/
def lengthPrefixed (bytes : Bytes) : Bytes := UInt8.ofNat bytes.length :: bytes

/-- The packet holds a string at this place, with its length in front. -/
def StringAt (packet : Bytes) (i : Nat) (bytes : Bytes) : Prop :=
  ∃ front back, packet = front ++ lengthPrefixed bytes ++ back ∧ front.length = i ∧ bytes.length < 256

/-- Where the scan goes on. -/
def ScanStep (packet : Bytes) (i j : Nat) : Prop :=
  ∃ b, packet[i]? = some b ∧ j = if b.toNat = 0 ∨ i + 1 + b.toNat > packet.length then i + 1 else i + 1 + b.toNat

instance (packet : Bytes) (i j : Nat) : Decidable (ScanStep packet i j) :=
  match h : packet[i]? with
  | none => .isFalse fun ⟨_, hb, _⟩ => nomatch h.symm.trans hb
  | some b => decidable_of_iff
      (j = if b.toNat = 0 ∨ i + 1 + b.toNat > packet.length then i + 1 else i + 1 + b.toNat)
      ⟨fun hj => ⟨b, h, hj⟩, fun ⟨_, hb, hj⟩ => Option.some.inj (h.symm.trans hb) ▸ hj⟩

/-- The scan gets from a place to another. -/
def ScanReaches (packet : Bytes) : Nat → Nat → Prop := Relation.ReflTransGen (ScanStep packet)

section Scan

variable {packet bytes : Bytes} {i j : Nat}

/-- A string at a place is what lies behind its length. -/
theorem stringAt_iff : StringAt packet i bytes ↔
    ∃ b, packet[i]? = some b ∧ bytes.length = b.toNat ∧ i + 1 + b.toNat ≤ packet.length ∧
      (packet.drop (i + 1)).take b.toNat = bytes := by
  constructor
  · rintro ⟨front, back, rfl, rfl, hshort⟩
    have hlen : (UInt8.ofNat bytes.length).toNat = bytes.length := by
      rw [UInt8.toNat_ofNat']
      omega
    refine ⟨UInt8.ofNat bytes.length, ?_, hlen.symm, ?_, ?_⟩
    · simp [lengthPrefixed]
    · simp only [hlen, lengthPrefixed, List.length_append, List.length_cons]
      omega
    · rw [hlen, List.append_assoc, ← List.drop_drop, List.drop_left]
      simp [lengthPrefixed]
  · rintro ⟨b, hb, hlen, hfits, hbytes⟩
    obtain ⟨hlt, rfl⟩ := List.getElem?_eq_some_iff.mp hb
    have hshort := packet[i].toNat_lt
    refine ⟨packet.take i, (packet.drop (i + 1)).drop packet[i].toNat, ?_, by rw [List.length_take]; omega, by omega⟩
    unfold lengthPrefixed
    rw [hlen, UInt8.ofNat_toNat, List.append_assoc, List.cons_append, ← hbytes, List.take_append_drop,
      ← List.drop_eq_getElem_cons hlt, List.take_append_drop]

/-- Behind its end a packet holds nothing, and the scan stays there. -/
theorem not_stringAt_of_none (hnone : packet[i]? = none) (h : ScanReaches packet i j) :
    ¬ StringAt packet j bytes := by
  obtain rfl | ⟨k, ⟨b, hb, -⟩, -⟩ := h.cases_head
  · intro hat
    rw [stringAt_iff] at hat
    obtain ⟨b, hb, -⟩ := hat
    rw [hnone] at hb
    cases hb
  · rw [hnone] at hb
    cases hb

/-- From a place the scan finds what is there and what it finds from the next place on. -/
theorem exists_reaches_iff {b : UInt8} (hb : packet[i]? = some b) {next : Nat}
    (hnext : next = if b.toNat = 0 ∨ i + 1 + b.toNat > packet.length then i + 1 else i + 1 + b.toNat)
    (P : Bytes → Prop) :
    (∃ j bytes, ScanReaches packet i j ∧ StringAt packet j bytes ∧ P bytes) ↔
      (∃ bytes, StringAt packet i bytes ∧ P bytes) ∨
        ∃ j bytes, ScanReaches packet next j ∧ StringAt packet j bytes ∧ P bytes := by
  constructor
  · rintro ⟨j, bytes, hreaches, hat, hP⟩
    obtain rfl | ⟨k, ⟨b', hb', hk⟩, hrest⟩ := hreaches.cases_head
    · exact .inl ⟨bytes, hat, hP⟩
    · obtain rfl : b = b' := Option.some.inj (hb.symm.trans hb')
      rw [← hnext] at hk
      rw [hk] at hrest
      exact .inr ⟨j, bytes, hrest, hat, hP⟩
  · rintro (⟨bytes, hat, hP⟩ | ⟨j, bytes, hreaches, hat, hP⟩)
    · exact ⟨i, bytes, .refl, hat, hP⟩
    · exact ⟨j, bytes, .head ⟨b, hb, hnext⟩ hreaches, hat, hP⟩

theorem advertised_nil : advertised [] = [] := rfl

/-- What the loop finds is what is advertised at the places it gets to, as long as it has turns for all of them. -/
theorem mem_scanFrom {fuel : Nat} (hfuel : packet.length ≤ i + fuel) (text : Text) :
    text ∈ scanFrom packet fuel i ↔ ∃ j bytes, ScanReaches packet i j ∧ StringAt packet j bytes ∧
    text ∈ advertised bytes := by
  have hend : ∀ {k : Nat}, packet[k]? = none →
      ¬ ∃ j bytes, ScanReaches packet k j ∧ StringAt packet j bytes ∧ text ∈ advertised bytes := by
    rintro k hnone ⟨j, bytes, hreaches, hat, -⟩
    exact not_stringAt_of_none hnone hreaches hat
  induction fuel generalizing i with
  | zero => exact ⟨nofun, fun h => absurd h (hend (List.getElem?_eq_none (by omega)))⟩
  | succ fuel ih =>
    unfold scanFrom
    cases hb : packet[i]? with
    | none => exact ⟨nofun, fun h => absurd h (hend hb)⟩
    | some b =>
      dsimp only
      split_ifs with hpass
      · rw [exists_reaches_iff hb (if_pos hpass).symm]
        refine (ih (i := i + 1) (by omega)).trans ?_
        refine ⟨.inr, fun h => h.resolve_left ?_⟩
        -- a string that would pass the end is not there, and an empty one advertises nothing
        rintro ⟨bytes, hat, htext⟩
        rw [stringAt_iff] at hat
        obtain ⟨b', hb', hlen, hfits, -⟩ := hat
        obtain rfl : b = b' := Option.some.inj (hb.symm.trans hb')
        obtain rfl : bytes = [] := List.eq_nil_of_length_eq_zero (by omega)
        rw [advertised_nil] at htext
        cases htext
      · rw [exists_reaches_iff hb (if_neg hpass).symm, List.mem_append]
        have hthere : StringAt packet i ((packet.drop (i + 1)).take b.toNat) := by
          rw [stringAt_iff]
          refine ⟨b, hb, ?_, by omega, rfl⟩
          rw [List.length_take, List.length_drop]
          omega
        refine or_congr ⟨fun htext => ⟨_, hthere, htext⟩, ?_⟩ (ih (by omega))
        rintro ⟨bytes, hat, htext⟩
        rw [stringAt_iff] at hat
        obtain ⟨b', hb', -, -, rfl⟩ := hat
        obtain rfl : b = b' := Option.some.inj (hb.symm.trans hb')
        exact htext

/-- **What is found are the strings where the scan stops** that begin with `id=`, with control characters replaced. -/
theorem mem_advertisementsIn {text : Text} : text ∈ advertisementsIn packet ↔
    ∃ i content, ScanReaches packet 0 i ∧ StringAt packet i (Text.asBytes content) ∧
      Text.startsWith content "id=" = true ∧ text = Text.sanitize content := by
  unfold advertisementsIn
  rw [mem_scanFrom (by omega)]
  constructor
  · rintro ⟨i, bytes, hreaches, hat, htext⟩
    unfold advertised at htext
    cases hcontent : Text.fromUtf8 bytes with
    | none =>
      rw [hcontent] at htext
      cases htext
    | some content =>
      rw [hcontent] at htext
      dsimp only at htext
      split_ifs at htext with hstart
      · rw [← Text.fromUtf8_eq_some.mp hcontent] at hat
        exact ⟨i, content, hreaches, hat, hstart, List.mem_singleton.mp htext⟩
      · cases htext
  · rintro ⟨i, content, hreaches, hat, hstart, rfl⟩
    refine ⟨i, _, hreaches, hat, ?_⟩
    unfold advertised
    rw [Text.fromUtf8_asBytes]
    dsimp only
    rw [if_pos hstart]
    exact List.mem_singleton_self _

/-! ## The strings of a record -/

/-- A string that is there is passed over as a whole. -/
theorem scanStep_of_stringAt (h : StringAt packet i bytes) : ScanStep packet i (i + 1 + bytes.length) := by
  rw [stringAt_iff] at h
  obtain ⟨b, hb, hlen, hfits, -⟩ := h
  refine ⟨b, hb, ?_⟩
  rw [hlen]
  split_ifs
  · omega
  · rfl

/-- The strings behind one another are all stopped at, once the first is. -/
theorem reaches_each {front back : Bytes} {strings : List Bytes}
    (hpacket : packet = front ++ strings.flatMap lengthPrefixed ++ back) (hshort : ∀ s ∈ strings, s.length < 256)
    (hfirst : ScanReaches packet 0 front.length) (hmem : bytes ∈ strings) :
    ∃ i, ScanReaches packet 0 i ∧ StringAt packet i bytes := by
  induction strings generalizing front with
  | nil => cases hmem
  | cons s strings ih =>
    rw [List.forall_mem_cons] at hshort
    rw [List.flatMap_cons] at hpacket
    have hat : StringAt packet front.length s :=
      ⟨front, strings.flatMap lengthPrefixed ++ back, by rw [hpacket]; simp only [List.append_assoc], rfl, hshort.1⟩
    obtain rfl | hlater := List.mem_cons.mp hmem
    · exact ⟨front.length, hfirst, hat⟩
    · refine @ih (front ++ lengthPrefixed s) ?_ hshort.2 ?_ hlater
      · rw [hpacket]
        simp only [List.append_assoc]
      · have hlen : (front ++ lengthPrefixed s).length = front.length + 1 + s.length := by
          simp only [lengthPrefixed, List.length_append, List.length_cons]
          omega
        rw [hlen]
        exact hfirst.tail (scanStep_of_stringAt hat)

end Scan

/-! ## Advertisements -/

/-- Text without control characters is left as it is. -/
theorem Text.sanitize_of_clean {t : Text} (h : Text.Clean t) : Text.sanitize t = t := by
  unfold Text.sanitize
  conv_rhs => rw [← List.map_id t]
  refine List.map_congr_left fun c hc => ?_
  have hcontrol := h c hc
  have htab : ¬ c = '\t' := by
    rintro rfl
    exact absurd hcontrol (by decide)
  rw [if_neg htab, if_neg (by rw [hcontrol]; exact Bool.false_ne_true)]
  rfl

theorem clean_advertisement (identity : PeerId crypto) (port : UInt16) :
    Text.Clean (advertisement identity port) := by
  have hdigit : ∀ n < 16, Text.isControl (Nat.digitChar n) = false := by decide
  have hhex : Text.Clean identity.toHex := forall_mem_toHex hdigit identity
  unfold advertisement
  rw [Text.clean_append, Text.clean_append, Text.clean_append]
  exact ⟨⟨⟨by decide, hhex⟩, by decide⟩, Text.clean_ofNat _⟩

theorem startsWith_advertisement (identity : PeerId crypto) (port : UInt16) :
    Text.startsWith (advertisement identity port) "id=" = true := by
  unfold advertisement Text.startsWith
  rw [List.append_assoc, List.append_assoc, List.isPrefixOf_iff_prefix]
  exact List.prefix_append _ _

/-- **Discovery finds the advertisements of a record whose strings it stops at**, as they were published, and finds
nothing but the strings of the packet, with their control characters replaced. -/
theorem discovery_finds {packet front back : Bytes} {strings : List Bytes}
    (hpacket : packet = front ++ strings.flatMap lengthPrefixed ++ back) (hshort : ∀ s ∈ strings, s.length < 256)
    (hfirst : ScanReaches packet 0 front.length) :
    (∀ (identity : PeerId crypto) (port : UInt16), Text.asBytes (advertisement identity port) ∈ strings →
      advertisement identity port ∈ advertisementsIn packet) ∧
    ∀ text ∈ advertisementsIn packet, ∃ i content, StringAt packet i (Text.asBytes content) ∧
      Text.startsWith content "id=" = true ∧ text = Text.sanitize content := by
  constructor
  · intro identity port hmem
    obtain ⟨i, hreaches, hat⟩ := reaches_each hpacket hshort hfirst hmem
    have hclean := Text.sanitize_of_clean (clean_advertisement identity port)
    exact mem_advertisementsIn.mpr ⟨i, _, hreaches, hat, startsWith_advertisement identity port, hclean.symm⟩
  · intro text htext
    obtain ⟨i, content, -, hat, hstart, he⟩ := mem_advertisementsIn.mp htext
    exact ⟨i, content, hat, hstart, he⟩

/-! ## Responses -/

/-- A resource record of a DNS message. -/
structure ResourceRecord where
  name : Text
  kind : UInt16
  dnsClass : UInt16
  ttl : UInt32
  data : Bytes

def ResourceRecord.encode (r : ResourceRecord) : Bytes :=
  encodeName r.name ++ beBytes 2 r.kind.toNat ++ beBytes 2 r.dnsClass.toNat ++ beBytes 4 r.ttl.toNat ++
    beBytes 2 r.data.length ++ r.data

/-- A response: its header, which counts the answers, and the answers. -/
def mdnsResponse (id flags : UInt16) (answers : List ResourceRecord) : Bytes :=
  beBytes 2 id.toNat ++ beBytes 2 flags.toNat ++ beBytes 2 0 ++ beBytes 2 answers.length ++ beBytes 2 0 ++
    beBytes 2 0 ++ answers.flatMap ResourceRecord.encode

/-- A TXT record with these strings. -/
def txtRecord (name : Text) (ttl : UInt32) (strings : List Bytes) : ResourceRecord :=
  ⟨name, 16, 0x8001, ttl, strings.flatMap lengthPrefixed⟩

/-- The packet is a response with a TXT record of these strings. -/
def CarriesStrings (packet : Bytes) (strings : List Bytes) : Prop :=
  ∃ id flags name ttl before after, packet = mdnsResponse id flags (before ++ txtRecord name ttl strings :: after) ∧
    (∀ s ∈ strings, s.length < 256) ∧ (∀ r ∈ before ++ txtRecord name ttl strings :: after, r.data.length < 2 ^ 16) ∧
    (before ++ txtRecord name ttl strings :: after).length < 2 ^ 16

/-- A response of a peer with nothing but its advertisement. -/
def plainResponse : Bytes :=
  mdnsResponse 0 0x8400 [txtRecord serviceName 120 [Text.asBytes (advertisement samplePeer 7373)]]

/-- A response in which a name begins like an advertisement and holds an escape character. -/
def escapedResponse : Bytes := mdnsResponse 0 0x8400 [txtRecord "id=\x1b.local" 120 [[]]]

/-- The advertisement of a plain response is not found: the type of its record, 16, is taken for the length of a
string, and behind that string the scan is in the middle of it. And what is found in the other is in no packet: its
escape character is replaced. -/
theorem txt_record_jumped_over :
    (CarriesStrings plainResponse [Text.asBytes (advertisement samplePeer 7373)] ∧
      advertisement samplePeer 7373 ∉ advertisementsIn plainResponse) ∧
    CarriesStrings escapedResponse [[]] ∧ ("id=\ufffd" : Text) ∈ advertisementsIn escapedResponse ∧
      ∀ i, ¬ StringAt escapedResponse i (Text.asBytes "id=\ufffd") := by
  refine ⟨⟨⟨0, 0x8400, serviceName, 120, [], [], rfl, ?_, ?_, ?_⟩, ?_⟩, ⟨0, 0x8400, _, 120, [], [], rfl, ?_, ?_, ?_⟩,
    ?_, ?_⟩
  · decide
  · decide
  · decide
  · decide
  · decide
  · decide
  · decide
  · decide
  · rintro i ⟨front, back, he, -⟩
    have hmem : (0xEF : UInt8) ∈ escapedResponse := by
      rw [he]
      exact List.mem_append_left _ (List.mem_append_right _ (by decide))
    exact absurd hmem (by decide)

/-- A response of a peer with a string of seven bytes in front of its advertisement. -/
def alignedResponse : Bytes :=
  mdnsResponse 0 0x8400 [txtRecord serviceName 120 [Text.asBytes "txtvers",
  Text.asBytes (advertisement samplePeer 7373)]]

/-- There the string of sixteen bytes ends where the advertisement begins, and it is found. -/
theorem discovery_finds_aligned : advertisement samplePeer 7373 ∈ advertisementsIn alignedResponse := by
  have hpath : List.IsChain (ScanStep alignedResponse) [0, 1, 2, 3, 4, 5, 6, 7, 9, 10, 11, 12, 18, 23, 29, 30, 31,
    48] := by
    decide
  have hreaches : ScanReaches alignedResponse 0 (alignedResponse.take 48).length :=
    List.relationReflTransGen_of_exists_isChain_cons _ hpath (by decide)
  have hpacket : alignedResponse = alignedResponse.take 48 ++
      [Text.asBytes (advertisement samplePeer 7373)].flatMap lengthPrefixed ++ [] := by decide
  exact (discovery_finds hpacket (by decide) hreaches).1 samplePeer 7373 List.mem_cons_self

end Idnx
