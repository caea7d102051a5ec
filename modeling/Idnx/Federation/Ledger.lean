import Idnx.Federation.Payload
import Idnx.Lib.Map
import Idnx.Lib.Run
import Mathlib.Data.List.Destutter

/-!
# Accepting evidence from peers

The ledger is the boundary between what other machines assert and what this one records. A bundle is verified, its
peer must be paired, its sequence new, and every record readable; then the peer is reserved for it
(`PeerLedger.prepare`) until the receipt is committed or abandoned.

* `prepare_cases`: a bundle is refused and nothing changes, or it passed every check and its peer is reserved;
* `prepare_all_or_nothing`: an accepted bundle passed every check and became one stamped record for each of its own.
-/

namespace Idnx

/-- What the program takes from outside: the signature library, the text of addresses, the JSON of a record. -/
structure Libraries where
  crypto : Ed25519
  text : NetText
  toVec : WireEvidence → Option Bytes

variable {libs : Libraries}

/-! ## Bundles -/

/-- The version of the wire format (`SCHEMA_VERSION`). -/
def schemaVersion : UInt16 := 1

/-- A peer's published evidence, signed. -/
structure EvidenceBundle where
  schemaVersion : UInt16
  peer : Text
  vantage : Text
  sequence : UInt64
  publishedAt : UInt64
  records : List WireEvidence
  signature : Text

inductive BundleError where
  | unsupportedSchema (version : UInt16)
  | identity (error : IdentityError)
  deriving DecidableEq, Repr

namespace EvidenceBundle

/-- The message the bundle's signature is over. -/
def payload (libs : Libraries) (bundle : EvidenceBundle) : Bytes :=
  signingPayload libs.toVec bundle.schemaVersion bundle.peer bundle.vantage bundle.sequence bundle.publishedAt
    bundle.records

/-- The peer that signed the bundle, if the signature holds. -/
def verify (libs : Libraries) (bundle : EvidenceBundle) : Except BundleError (PeerId libs.crypto) :=
  if bundle.schemaVersion ≠ Idnx.schemaVersion then .error (.unsupportedSchema bundle.schemaVersion)
  else
    match PeerId.fromHex bundle.peer with
    | .error e => .error (.identity e)
    | .ok peer =>
      match decodeHex bundle.signature with
      | none => .error (.identity .badSignature)
      | some signature =>
        match peer.verify (bundle.payload libs) signature with
        | .error e => .error (.identity e)
        | .ok () => .ok peer

/-- The bundle speaks this version of the format and carries a good signature of `peer` over its own message. -/
structure SignedBy (bundle : EvidenceBundle) (peer : PeerId libs.crypto) : Prop where
  schema : bundle.schemaVersion = Idnx.schemaVersion
  key : PeerId.fromHex bundle.peer = .ok peer
  signature : ∃ signature, decodeHex bundle.signature = some signature ∧ signature.length = 64 ∧
    libs.crypto.verify peer.bytes (bundle.payload libs) signature = true

theorem verify_eq_ok_iff {bundle : EvidenceBundle} {peer : PeerId libs.crypto} :
    bundle.verify libs = .ok peer ↔ bundle.SignedBy peer := by
  constructor
  · intro h
    unfold verify at h
    split at h
    · cases h
    · rename_i hschema
      split at h
      · cases h
      · rename_i key hkey
        split at h
        · cases h
        · rename_i signature hsig
          split at h
          · cases h
          · rename_i hverify
            cases h
            refine ⟨of_not_not hschema, hkey, signature, hsig, ?_⟩
            unfold PeerId.verify at hverify
            split at hverify
            · assumption
            · cases hverify
  · rintro ⟨hschema, hkey, signature, hsig, hlen, hgood⟩
    simp only [verify, hschema, hkey, hsig, PeerId.verify, hlen, hgood, ne_eq, not_true_eq_false, if_false, and_self,
      if_true]

end EvidenceBundle

/-! ## The ledger -/

/-- Why a bundle was not accepted. -/
inductive RejectReason where
  | unverifiable (error : BundleError)
  | notPaired (peer : Text)
  | stale (seen offered : UInt64)
  | busy (peer : Text)
  | undecodable (reasons : List Text)
  deriving DecidableEq, Repr

/-- A verified bundle whose evidence is ready, but which the ledger has not yet committed. -/
structure Prepared (crypto : Ed25519) where
  peer : PeerId crypto
  vantage : Text
  sequence : UInt64
  evidence : List TopologyEvidence
  token : UInt64

/-- Proof that a particular transaction is the one being finished. -/
structure Receipt (crypto : Ed25519) where
  peer : PeerId crypto
  sequence : UInt64
  token : UInt64
  deriving DecidableEq

def Prepared.receipt {crypto : Ed25519} (prepared : Prepared crypto) : Receipt crypto :=
  ⟨prepared.peer, prepared.sequence, prepared.token⟩

/-- Paired peers, what was accepted from them, and the reservations held, each under the peer's hexadecimal key. -/
structure PeerLedger (crypto : Ed25519) where
  trusted : Map Text (PeerId crypto) := ∅
  highestSequence : Map Text UInt64 := ∅
  inFlight : Map Text UInt64 := ∅
  nextToken : UInt64 := 0

namespace PeerLedger

section Decoding

variable (lib : NetText) (origin : PeerOrigin)

/-- One record of the loop: the evidence so far and the errors so far. -/
def decodeStep (acc : Option (List TopologyEvidence × List Text)) (wire : WireEvidence) :
    Option (List TopologyEvidence × List Text) :=
  match acc with
  | none => none
  | some (evidence, undecodable) =>
    match wire.toEvidence lib with
    | .ok converted => some (evidence ++ [converted.fromPeer origin], undecodable)
    | .err error => some (evidence, undecodable ++ [error.toText])
    | .panic => none

/-- All records of a bundle, or `none` where converting one of them panics. -/
def decodeRecords (records : List WireEvidence) : Option (List TopologyEvidence × List Text) :=
  records.foldl (decodeStep lib origin) (some ([], []))

end Decoding

variable {crypto : Ed25519} (ledger : PeerLedger crypto)

def pair (peer : PeerId crypto) : PeerLedger crypto :=
  { ledger with trusted := AList.insert peer.toHex peer ledger.trusted }

def isPaired (peer : PeerId crypto) : Bool := peer.toHex ∈ ledger.trusted

theorem isPaired_pair (peer : PeerId crypto) : (ledger.pair peer).isPaired peer = true :=
  decide_eq_true ((AList.mem_insert _).mpr (.inl rfl))

/-- The sequence already accepted from this key, where the offered one is not above it. -/
def staleAgainst (key : Text) (offered : UInt64) : Option UInt64 :=
  (AList.lookup key ledger.highestSequence).filter fun seen => offered ≤ seen

/-- Verifies, authorises and converts a bundle, and reserves its peer; the sequence is not recorded as seen. -/
def prepare (ledger : PeerLedger libs.crypto) (bundle : EvidenceBundle) :
    Outcome RejectReason (Prepared libs.crypto) × PeerLedger libs.crypto :=
  match bundle.verify libs with
  | .error e => (.err (.unverifiable e), ledger)
  | .ok peer =>
    if ¬ ledger.isPaired peer then (.err (.notPaired peer.toHex), ledger)
    else
      let key := peer.toHex
      match ledger.staleAgainst key bundle.sequence with
      | some seen => (.err (.stale seen bundle.sequence), ledger)
      | none =>
        match decodeRecords libs.text
          ⟨key, bundle.vantage, bundle.sequence.toNat, bundle.publishedAt.toNat⟩ bundle.records with
        | none => (.panic, ledger)
        | some (evidence, undecodable) =>
          if undecodable ≠ [] then
            -- sorted, then the repeats that now stand side by side are dropped
            (.err (.undecodable ((undecodable.insertionSort fun a b => (compare a b).isLE).destutter (· ≠ ·))),
              ledger)
          else if key ∈ ledger.inFlight then (.err (.busy key), ledger)
          else
            let token := ledger.nextToken + 1
            (.ok ⟨peer, bundle.vantage, bundle.sequence, evidence, token⟩,
              { ledger with nextToken := token, inFlight := AList.insert key token ledger.inFlight })

/-- Whether the receipt owns the reservation its peer has now. -/
def owns (receipt : Receipt crypto) : Bool :=
  AList.lookup receipt.peer.toHex ledger.inFlight = some receipt.token

/-- Raise the cursor of a key, from nothing or from what it was; it never goes down. -/
def raiseCursor (key : Text) (sequence : UInt64) : PeerLedger crypto :=
  { ledger with
    highestSequence := Map.upd ledger.highestSequence key fun old =>
      if sequence > old.getD 0 then sequence else old.getD 0 }

/-- Give the reservation of a key back. -/
def release (key : Text) : PeerLedger crypto := { ledger with inFlight := AList.erase key ledger.inFlight }

/-- Records a bundle as seen and releases its reservation, for the receipt that owns it. -/
def commit (receipt : Receipt crypto) : Bool × PeerLedger crypto :=
  if ledger.owns receipt then
    (true, (ledger.raiseCursor receipt.peer.toHex receipt.sequence).release receipt.peer.toHex)
  else (false, ledger)

/-- Releases a reservation without recording the bundle as seen. -/
def abandon (receipt : Receipt crypto) : Bool × PeerLedger crypto :=
  if ledger.owns receipt then (true, ledger.release receipt.peer.toHex) else (false, ledger)

/-- Seeds the replay cursor from durable state. -/
def restoreCursor (peer : PeerId crypto) (sequence : UInt64) : PeerLedger crypto :=
  ledger.raiseCursor peer.toHex sequence

end PeerLedger

/-! ## What `prepare` does -/

/-- The origin a bundle's records are stamped with. -/
def EvidenceBundle.origin (bundle : EvidenceBundle) (peer : PeerId libs.crypto) : PeerOrigin :=
  ⟨peer.toHex, bundle.vantage, bundle.sequence.toNat, bundle.publishedAt.toNat⟩

/-- `evidence` is what `records` say, record by record, stamped with `origin`. -/
def Stamped (lib : NetText) (origin : PeerOrigin) (records : List WireEvidence) (evidence : List TopologyEvidence) :
    Prop :=
  List.Forall₂ (fun wire ev => ∃ converted, wire.toEvidence lib = .ok converted ∧ ev = converted.fromPeer origin)
    records evidence

section Loop

variable {lib : NetText} {origin : PeerOrigin} {records : List WireEvidence}

theorem foldl_decodeStep_none : records.foldl (PeerLedger.decodeStep lib origin) none = none := by
  induction records with
  | nil => rfl
  | cons wire records ih => exact ih

/-- From any point of the loop: an error found is never forgotten, and each record that reads adds its own. -/
theorem foldl_decodeStep_iff {before evidence : List TopologyEvidence} {failed : List Text} :
    records.foldl (PeerLedger.decodeStep lib origin) (some (before, failed)) = some (evidence, []) ↔
      failed = [] ∧ ∃ more, Stamped lib origin records more ∧ evidence = before ++ more := by
  induction records generalizing before failed with
  | nil =>
    constructor
    · intro h
      cases h
      exact ⟨rfl, [], .nil, by simp⟩
    · rintro ⟨rfl, more, hmore, rfl⟩
      cases hmore
      simp
  | cons wire records ih =>
    rw [List.foldl_cons]
    cases hwire : wire.toEvidence lib with
    | ok converted =>
      have hstep : PeerLedger.decodeStep lib origin (some (before, failed)) wire =
          some (before ++ [converted.fromPeer origin], failed) := by simp only [PeerLedger.decodeStep, hwire]
      rw [hstep, ih]
      constructor
      · rintro ⟨rfl, more, hmore, rfl⟩
        exact ⟨rfl, converted.fromPeer origin :: more, .cons ⟨converted, hwire, rfl⟩ hmore, by simp⟩
      · rintro ⟨rfl, more, hmore, rfl⟩
        obtain _ | ⟨⟨c, hc, rfl⟩, hrest⟩ := hmore
        rename_i more
        cases hwire.symm.trans hc
        exact ⟨rfl, more, hrest, by simp⟩
    | err error =>
      have hstep : PeerLedger.decodeStep lib origin (some (before, failed)) wire =
          some (before, failed ++ [error.toText]) := by simp only [PeerLedger.decodeStep, hwire]
      rw [hstep, ih]
      constructor
      · rintro ⟨h, -⟩
        simp at h
      · rintro ⟨-, more, hmore, -⟩
        obtain _ | ⟨⟨c, hc, -⟩, -⟩ := hmore
        cases hwire.symm.trans hc
    | panic =>
      have hstep : PeerLedger.decodeStep lib origin (some (before, failed)) wire = none := by
        simp only [PeerLedger.decodeStep, hwire]
      rw [hstep, foldl_decodeStep_none]
      constructor
      · intro h; cases h
      · rintro ⟨-, more, hmore, -⟩
        obtain _ | ⟨⟨c, hc, -⟩, -⟩ := hmore
        cases hwire.symm.trans hc

/-- The loop ends without an error exactly when every record reads. -/
theorem decodeRecords_eq_some_iff {evidence : List TopologyEvidence} :
    PeerLedger.decodeRecords lib origin records = some (evidence, []) ↔ Stamped lib origin records evidence := by
  rw [PeerLedger.decodeRecords, foldl_decodeStep_iff]
  constructor
  · rintro ⟨-, more, hmore, rfl⟩
    exact hmore
  · intro h
    exact ⟨rfl, evidence, h, rfl⟩

theorem Stamped.isRemote {evidence : List TopologyEvidence} (h : Stamped lib origin records evidence)
    {ev : TopologyEvidence} (hev : ev ∈ evidence) : ev.origin = some origin ∧ ev.isRemote = true := by
  induction h with
  | nil => cases hev
  | cons hfirst hrest ih =>
    rcases List.mem_cons.mp hev with rfl | hev
    · obtain ⟨converted, -, rfl⟩ := hfirst
      exact ⟨rfl, rfl⟩
    · exact ih hev

end Loop

/-- The checks a bundle has to pass, in the words of the ledger before the call. -/
structure Acceptable (ledger : PeerLedger libs.crypto) (bundle : EvidenceBundle) (peer : PeerId libs.crypto) :
    Prop where
  signed : bundle.SignedBy peer
  paired : ledger.isPaired peer = true
  fresh : ∀ seen, AList.lookup peer.toHex ledger.highestSequence = some seen → seen < bundle.sequence
  free : peer.toHex ∉ ledger.inFlight

theorem staleAgainst_eq_none_iff {crypto : Ed25519} {ledger : PeerLedger crypto} {key : Text} {offered : UInt64} :
    ledger.staleAgainst key offered = none ↔
      ∀ seen, AList.lookup key ledger.highestSequence = some seen → seen < offered := by
  unfold PeerLedger.staleAgainst
  simp [Option.filter_eq_none_iff]

/-- What an accepted bundle leaves behind: a new token, held for the peer. -/
def PeerLedger.reserve {crypto : Ed25519} (ledger : PeerLedger crypto) (peer : PeerId crypto) : PeerLedger crypto :=
  { ledger with
    nextToken := ledger.nextToken + 1
    inFlight := AList.insert peer.toHex (ledger.nextToken + 1) ledger.inFlight }

/-- A bundle that passes every check and whose records all read is accepted. -/
theorem prepare_of_acceptable {ledger : PeerLedger libs.crypto} {bundle : EvidenceBundle} {peer : PeerId libs.crypto}
    {evidence : List TopologyEvidence} (h : Acceptable ledger bundle peer)
    (hrecords : Stamped libs.text (bundle.origin peer) bundle.records evidence) :
    ledger.prepare bundle =
      (.ok ⟨peer, bundle.vantage, bundle.sequence, evidence, ledger.nextToken + 1⟩, ledger.reserve peer) := by
  have hverify := EvidenceBundle.verify_eq_ok_iff.mpr h.signed
  have hstale := staleAgainst_eq_none_iff.mpr h.fresh
  have hdecode := decodeRecords_eq_some_iff.mpr hrecords
  unfold EvidenceBundle.origin at hdecode
  simp only [PeerLedger.prepare, hverify, h.paired, not_true_eq_false, if_false, hstale, hdecode, ne_eq, h.free,
    PeerLedger.reserve]

/-- **What `prepare` does.** It refuses or panics and touches nothing, or it accepts a bundle that passes every check,
converts every record and takes the next token. -/
theorem prepare_cases (ledger : PeerLedger libs.crypto) (bundle : EvidenceBundle) :
    (∃ reason, ledger.prepare bundle = (.err reason, ledger)) ∨ ledger.prepare bundle = (.panic, ledger) ∨
      ∃ peer evidence, Acceptable ledger bundle peer ∧
        Stamped libs.text (bundle.origin peer) bundle.records evidence ∧
        ledger.prepare bundle =
          (.ok ⟨peer, bundle.vantage, bundle.sequence, evidence, ledger.nextToken + 1⟩, ledger.reserve peer) := by
  cases hverify : bundle.verify libs with
  | error e => exact .inl ⟨_, by simp only [PeerLedger.prepare, hverify]; rfl⟩
  | ok peer =>
    by_cases hpaired : ledger.isPaired peer = true
    swap
    · exact .inl ⟨_, by simp only [PeerLedger.prepare, hverify, hpaired]; rfl⟩
    cases hstale : ledger.staleAgainst peer.toHex bundle.sequence with
    | some seen =>
      exact .inl ⟨_, by
        simp only [PeerLedger.prepare, hverify, hpaired, not_true_eq_false, if_false, hstale]; rfl⟩
    | none =>
      cases hdecode : PeerLedger.decodeRecords libs.text (bundle.origin peer) bundle.records with
      | none =>
        unfold EvidenceBundle.origin at hdecode
        refine .inr (.inl ?_)
        simp only [PeerLedger.prepare, hverify, hpaired, not_true_eq_false, if_false, hstale, hdecode]
      | some decoded =>
        obtain ⟨evidence, undecodable⟩ := decoded
        by_cases hall : undecodable = []
        swap
        · unfold EvidenceBundle.origin at hdecode
          exact .inl ⟨_, by
            simp only [PeerLedger.prepare, hverify, hpaired, not_true_eq_false, if_false, hstale, hdecode, ne_eq,
              hall, not_false_eq_true, if_true]
            rfl⟩
        subst hall
        by_cases hfree : peer.toHex ∈ ledger.inFlight
        · unfold EvidenceBundle.origin at hdecode
          exact .inl ⟨_, by
            simp only [PeerLedger.prepare, hverify, hpaired, not_true_eq_false, if_false, hstale, hdecode, ne_eq,
              hfree, if_true]
            rfl⟩
        · have hok : Acceptable ledger bundle peer :=
            ⟨EvidenceBundle.verify_eq_ok_iff.mp hverify, hpaired, staleAgainst_eq_none_iff.mp hstale, hfree⟩
          have hrecords := decodeRecords_eq_some_iff.mp hdecode
          exact .inr (.inr ⟨peer, evidence, hok, hrecords, prepare_of_acceptable hok hrecords⟩)

/-- **Acceptance is all or nothing.** A bundle is accepted only if its peer is paired and signed it, its sequence is
above what was committed, nothing else of that peer is reserved, and every record reads; the evidence is then one
record for each of the bundle's, in order, each stamped with where it came from. A call that is not accepted, a panic
included, leaves the ledger as it was. -/
theorem prepare_all_or_nothing (ledger : PeerLedger libs.crypto) (bundle : EvidenceBundle) :
    (∀ prepared, (ledger.prepare bundle).1 = .ok prepared →
      Acceptable ledger bundle prepared.peer ∧
      Stamped libs.text (bundle.origin prepared.peer) bundle.records prepared.evidence ∧
      prepared.evidence.length = bundle.records.length ∧
      ∀ ev ∈ prepared.evidence, ev.origin = some (bundle.origin prepared.peer) ∧ ev.isRemote = true) ∧
    ((∀ prepared, (ledger.prepare bundle).1 ≠ .ok prepared) → (ledger.prepare bundle).2 = ledger) := by
  obtain ⟨reason, h⟩ | h | ⟨peer, evidence, hok, hrecords, h⟩ := prepare_cases ledger bundle
  · rw [h]
    exact ⟨fun prepared hp => (by cases hp), fun _ => rfl⟩
  · rw [h]
    exact ⟨fun prepared hp => (by cases hp), fun _ => rfl⟩
  · rw [h]
    constructor
    · intro prepared hp
      cases hp
      exact ⟨hok, hrecords, hrecords.length_eq.symm, fun ev hev => hrecords.isRemote hev⟩
    · intro hne
      exact absurd rfl (hne _)

/-! ## A bundle -/

/-- A key, and its signature of the bundle below. -/
def sampleKey : Bytes :=
  [0xd7, 0x5a, 0x98, 0x01, 0x82, 0xb1, 0x0a, 0xb7, 0xd5, 0x4b, 0xfe, 0xd3, 0xc9, 0x64, 0x07, 0x3a,
    0x0e, 0xe1, 0x72, 0xf3, 0xda, 0xa6, 0x23, 0x25, 0xaf, 0x02, 0x1a, 0x68, 0xf7, 0x07, 0x51, 0x1a]

def sampleSignature : Bytes :=
  [0x24, 0xd7, 0x13, 0x49, 0x30, 0xbd, 0x71, 0x57, 0xf9, 0xf0, 0x25, 0xc8, 0x9b, 0xf6, 0xa6, 0x69,
    0x33, 0x95, 0x08, 0x55, 0x45, 0x47, 0xbe, 0x89, 0x5a, 0x6e, 0xfc, 0x6d, 0xc9, 0x40, 0x70, 0x7b,
    0x20, 0x56, 0xf6, 0xb1, 0x27, 0x76, 0x8b, 0x8b, 0x83, 0x10, 0xf1, 0xcf, 0xb9, 0x5e, 0x44, 0x15,
    0x9d, 0x99, 0x4b, 0xed, 0x85, 0xa5, 0x6c, 0x8d, 0x73, 0x61, 0x40, 0x26, 0x0b, 0xb8, 0x36, 0x03]

/-- One record, signed. -/
def sampleBundle : EvidenceBundle where
  schemaVersion := 1
  peer := encodeHex sampleKey
  vantage := "en0"
  sequence := 5
  publishedAt := 1700000000
  records := [tagSeen]
  signature := encodeHex sampleSignature

/-- Libraries that know this key, its signature and the JSON of the record. -/
def sampleLibs : Libraries where
  crypto :=
    { validKey := fun key => key = sampleKey
      verify := fun key message signature => key = sampleKey ∧ signature = sampleSignature ∧
        message = signingPayload tagSeenJson 1 (encodeHex sampleKey) "en0" 5 1700000000 [tagSeen] }
  text := ⟨fun _ => none, fun _ => none, fun c => 32 ≤ c.toNat ∧ c.toNat < 127⟩
  toVec := tagSeenJson

def samplePeer : PeerId sampleLibs.crypto where
  bytes := sampleKey
  length_eq := rfl
  valid := by simp [sampleLibs]

theorem sampleBundle_signed : sampleBundle.SignedBy samplePeer where
  schema := rfl
  key := samplePeer.fromHex_toHex
  signature := ⟨sampleSignature, decodeHex_encodeHex _, rfl, by
    simp [sampleLibs, samplePeer, sampleBundle, EvidenceBundle.payload]⟩

/-- The record of the bundle, read back. -/
def sampleEvidence : TopologyEvidence where
  fact := .vlan 7
  source := .lldp
  confidence := .observed
  vantage := "en0"
  origin := some (sampleBundle.origin samplePeer)

theorem sampleBundle_stamped :
    Stamped sampleLibs.text (sampleBundle.origin samplePeer) sampleBundle.records [sampleEvidence] :=
  .cons ⟨{ sampleEvidence with origin := none }, by decide, rfl⟩ .nil

/-- A ledger that trusts the peer and has nothing of it reserved or committed accepts the bundle. -/
theorem prepare_sampleBundle (ledger : PeerLedger sampleLibs.crypto) (hpaired : ledger.isPaired samplePeer = true)
    (hfresh : AList.lookup samplePeer.toHex ledger.highestSequence = none)
    (hfree : samplePeer.toHex ∉ ledger.inFlight) :
    ledger.prepare sampleBundle =
      (.ok ⟨samplePeer, "en0", 5, [sampleEvidence], ledger.nextToken + 1⟩, ledger.reserve samplePeer) :=
  prepare_of_acceptable ⟨sampleBundle_signed, hpaired, fun seen h =>
    by simp [hfresh] at h, hfree⟩ sampleBundle_stamped

theorem sampleBundle_all_or_nothing :
    (({} : PeerLedger sampleLibs.crypto).prepare sampleBundle).2 = {} ∧
      Acceptable (({} : PeerLedger sampleLibs.crypto).pair samplePeer) sampleBundle samplePeer ∧
      sampleEvidence.isRemote = true := by
  have hrefused : ({} : PeerLedger sampleLibs.crypto).prepare sampleBundle =
      (.err (.notPaired samplePeer.toHex), {}) := by
    have hverify := EvidenceBundle.verify_eq_ok_iff.mpr sampleBundle_signed
    simp only [PeerLedger.prepare, hverify]
    rfl
  have haccepted := prepare_sampleBundle (({} : PeerLedger sampleLibs.crypto).pair samplePeer)
    (PeerLedger.isPaired_pair _ _) rfl (by simp [PeerLedger.pair])
  refine ⟨?_, ?_, ?_⟩
  · refine (prepare_all_or_nothing {} sampleBundle).2 ?_
    intro prepared
    rw [hrefused]
    simp
  · exact ((prepare_all_or_nothing (({} : PeerLedger sampleLibs.crypto).pair samplePeer) sampleBundle).1 _
      (by rw [haccepted])).1
  · exact (((prepare_all_or_nothing (({} : PeerLedger sampleLibs.crypto).pair samplePeer) sampleBundle).1 _
      (by rw [haccepted])).2.2.2 sampleEvidence (by simp)).2

end Idnx
