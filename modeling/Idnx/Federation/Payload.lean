import Idnx.Federation.Identity
import Idnx.Federation.Wire

/-!
# What an identity key signs

One key signs three kinds of message: the evidence a peer publishes (`signingPayload`), the ephemeral key it opens a
session with (`signedEphemeral`), and the nonce a relay challenges it with (`challengePayload`). A good signature says
one thing only: the message of a publication gives back every field of it, record by record, and no message of one
kind is a message of another (`signed_payloads_unambiguous`).

The JSON of one record is the serialisation library's business and a parameter, `toVec`.
-/

namespace Idnx

/-! ## The three messages -/

section Messages

variable (toVec : WireEvidence → Option Bytes)

def pushField (payload bytes : Bytes) : Bytes := payload ++ beBytes 8 bytes.length ++ bytes

/-- One record's bytes; a record that cannot be written counts as empty (`unwrap_or_default`). -/
def encodeRecord (wire : WireEvidence) : Bytes := (toVec wire).getD []

/-- The first bytes of the message of a publication. -/
def federationLabel : Bytes := Text.asBytes "idnx-federation-v1\n"

/-- The bytes a publication is signed over. -/
def signingPayload (schemaVersion : UInt16) (peer vantage : Text) (sequence publishedAt : UInt64)
    (records : List WireEvidence) : Bytes :=
  let payload := federationLabel
  let payload := payload ++ beBytes 2 schemaVersion.toNat
  let payload := pushField payload peer.asBytes
  let payload := pushField payload vantage.asBytes
  let payload := payload ++ beBytes 8 sequence.toNat
  let payload := payload ++ beBytes 8 publishedAt.toNat
  let payload := payload ++ beBytes 8 records.length
  records.foldl (fun payload wire => pushField payload (encodeRecord toVec wire)) payload

end Messages

/-- The bytes signed over an ephemeral key. -/
def signedEphemeral (ephemeral : Vector UInt8 32) : Bytes := Text.asBytes "idnx-ephemeral-v1\n" ++ ephemeral.toList

/-- The bytes a client signs to prove its identity to a relay. -/
def challengePayload (nonce : Bytes) : Bytes := Text.asBytes "idnx-relay-challenge-v1\n" ++ nonce

/-! ## The message of a publication, piece by piece -/

section Pieces

variable {toVec : WireEvidence → Option Bytes}

theorem foldl_pushField (payload : Bytes) (records : List WireEvidence) :
    records.foldl (fun payload wire => pushField payload (encodeRecord toVec wire)) payload =
      payload ++ records.flatMap fun wire => field 8 (encodeRecord toVec wire) := by
  induction records generalizing payload with
  | nil => simp
  | cons wire records ih =>
    rw [List.foldl_cons, ih, List.flatMap_cons]
    simp only [pushField, field, List.append_assoc]

theorem signingPayload_eq (schemaVersion : UInt16) (peer vantage : Text) (sequence publishedAt : UInt64)
    (records : List WireEvidence) :
    signingPayload toVec schemaVersion peer vantage sequence publishedAt records =
      federationLabel ++ (beBytes 2 schemaVersion.toNat ++ (field 8 peer.asBytes ++ (field 8 vantage.asBytes ++
        (beBytes 8 sequence.toNat ++ (beBytes 8 publishedAt.toNat ++ (beBytes 8 records.length ++
          records.flatMap fun wire => field 8 (encodeRecord toVec wire))))))) := by
  rw [signingPayload, foldl_pushField]
  simp only [pushField, field, List.append_assoc]

theorem delimited_u16 : Delimited (fun _ : UInt16 => True) fun x => beBytes 2 x.toNat :=
  (delimited_beBytes 2).comp (fun x _ => by have := x.toNat_lt; omega) fun _ _ _ _ h => UInt16.toNat_inj.mp h

theorem delimited_u64 : Delimited (fun _ : UInt64 => True) fun x => beBytes 8 x.toNat :=
  (delimited_beBytes 8).comp (fun x _ => by have := x.toNat_lt; omega) fun _ _ _ _ h => UInt64.toNat_inj.mp h

theorem delimited_text : Delimited (fun t : Text => t.asBytes.length < 2 ^ 63) fun t => field 8 t.asBytes :=
  (delimited_field 8).comp (fun t ht => by omega) fun _ _ _ _ h => Text.asBytes_inj h

end Pieces

/-! ## Publications -/

/-- What a peer publishes, as far as the signature covers it. Every buffer is one the program can hold: none is longer
than the largest signed word. -/
structure Publication (toVec : WireEvidence → Option Bytes) where
  schemaVersion : UInt16
  peer : Text
  vantage : Text
  sequence : UInt64
  publishedAt : UInt64
  records : List WireEvidence
  peer_fits : peer.asBytes.length < 2 ^ 63
  vantage_fits : vantage.asBytes.length < 2 ^ 63
  records_fits : records.length < 2 ^ 63
  encoded_fits : ∀ wire ∈ records, (encodeRecord toVec wire).length < 2 ^ 63

/-- The records can be written, and no two of them are written the same way. -/
structure JsonFaithful (toVec : WireEvidence → Option Bytes) (records : List WireEvidence) : Prop where
  total : ∀ wire ∈ records, (toVec wire).isSome
  inj : ∀ v ∈ records, ∀ w ∈ records, toVec v = toVec w → v = w

variable {toVec : WireEvidence → Option Bytes}

theorem JsonFaithful.encodeRecord_inj {records : List WireEvidence} (h : JsonFaithful toVec records)
    {v w : WireEvidence} (hv : v ∈ records) (hw : w ∈ records) (he : encodeRecord toVec v = encodeRecord toVec w) :
    v = w := by
  obtain ⟨a, ha⟩ := Option.isSome_iff_exists.mp (h.total v hv)
  obtain ⟨b, hb⟩ := Option.isSome_iff_exists.mp (h.total w hw)
  refine h.inj v hv w hw ?_
  simp only [encodeRecord, ha, hb, Option.getD_some] at he
  rw [ha, hb, he]

namespace Publication

/-- The message the publication is signed over. -/
def payload (p : Publication toVec) : Bytes :=
  signingPayload toVec p.schemaVersion p.peer p.vantage p.sequence p.publishedAt p.records

/-- The message gives back the fields, read from the front. -/
theorem payload_inj {p q : Publication toVec} (hjson : JsonFaithful toVec (p.records ++ q.records))
    (h : p.payload = q.payload) : p = q := by
  cases p with
  | mk schema peer vantage sequence published records hpeer hvantage hrecords hencoded =>
  cases q with
  | mk schema' peer' vantage' sequence' published' records' hpeer' hvantage' hrecords' hencoded' =>
  unfold payload at h
  rw [signingPayload_eq, signingPayload_eq] at h
  have h₁ := List.append_cancel_left h
  obtain ⟨rfl, h₂⟩ := delimited_u16 trivial trivial h₁
  obtain ⟨rfl, h₃⟩ := delimited_text hpeer hpeer' h₂
  obtain ⟨rfl, h₄⟩ := delimited_text hvantage hvantage' h₃
  obtain ⟨rfl, h₅⟩ := delimited_u64 trivial trivial h₄
  obtain ⟨rfl, h₆⟩ := delimited_u64 trivial trivial h₅
  -- the number of records comes before the first of them, so both sides cut the rest into as many pieces
  obtain ⟨hlen, h₇⟩ := delimited_beBytes 8 (a := records.length) (b := records'.length) (by omega) (by omega) h₆
  have hrecord : Delimited (fun wire => wire ∈ records ++ records' ∧ (encodeRecord toVec wire).length < 2 ^ 63)
      fun wire => field 8 (encodeRecord toVec wire) :=
    (delimited_field 8).comp (fun wire hw => by omega) fun _ _ hv hw he => hjson.encodeRecord_inj hv.1 hw.1 he
  obtain ⟨rfl, -⟩ := delimited_flatMap (x := []) (y := []) hrecord hlen
    (fun wire hw => ⟨List.mem_append_left _ hw, hencoded wire hw⟩)
    (fun wire hw => ⟨List.mem_append_right _ hw, hencoded' wire hw⟩) (by simpa using h₇)
  rfl

theorem payload_eq_label (p : Publication toVec) : ∃ rest, p.payload = federationLabel ++ rest := by
  rw [payload, signingPayload_eq]
  exact ⟨_, rfl⟩

end Publication

/-- **A signed message says one thing.** Two publications with one message are one publication, the ordered list of
records included, and the message is neither that of a session's ephemeral key nor the answer to a relay; nor are the
last two ever the same. -/
theorem signed_payloads_unambiguous (p q : Publication toVec) (hjson : JsonFaithful toVec (p.records ++ q.records)) :
    (p.payload = q.payload → p = q) ∧ (∀ ephemeral, p.payload ≠ signedEphemeral ephemeral) ∧
      (∀ nonce, p.payload ≠ challengePayload nonce) ∧
      ∀ ephemeral nonce, signedEphemeral ephemeral ≠ challengePayload nonce := by
  obtain ⟨rest, hrest⟩ := p.payload_eq_label
  refine ⟨Publication.payload_inj hjson, ?_, ?_, ?_⟩
  · intro ephemeral
    rw [hrest]
    exact append_ne_of_labels (by decide) _ _
  · intro nonce
    rw [hrest]
    exact append_ne_of_labels (by decide) _ _
  · intro ephemeral nonce
    exact append_ne_of_labels (by decide) _ _

/-- A record, and the JSON the program writes for it. -/
def tagSeen : WireEvidence where
  fact := .vlan 7
  source := "lldp"
  confidence := "observed"
  vantage := "en0"
  observedAt := 0
  detail := none

def tagSeenJson (wire : WireEvidence) : Option Bytes :=
  if wire = tagSeen then
    some (Text.asBytes ("\x7b\"fact\":\x7b\"kind\":\"vlan\",\"id\":7\x7d,\"source\":\"lldp\",\"confidence\":\"observed\"," ++
      "\"vantage\":\"en0\",\"observed_at\":0\x7d"))
  else none

/-- The record published under a sequence number. -/
def tagPublished (sequence : UInt64) : Publication tagSeenJson where
  schemaVersion := 1
  peer := "5d2f"
  vantage := "en0"
  sequence := sequence
  publishedAt := 1700000000
  records := [tagSeen]
  peer_fits := by decide
  vantage_fits := by decide
  records_fits := by decide
  encoded_fits := by decide

theorem tagPublished_payload_ne :
    JsonFaithful tagSeenJson ((tagPublished 1).records ++ (tagPublished 2).records) ∧
      (tagPublished 1).payload ≠ (tagPublished 2).payload := by
  have hjson : JsonFaithful tagSeenJson ((tagPublished 1).records ++ (tagPublished 2).records) :=
    ⟨by decide, by decide⟩
  refine ⟨hjson, ?_⟩
  intro h
  have he := (signed_payloads_unambiguous (tagPublished 1) (tagPublished 2) hjson).1 h
  have hs : (1 : UInt64) = 2 := congrArg Publication.sequence he
  exact absurd hs (by decide)

end Idnx
