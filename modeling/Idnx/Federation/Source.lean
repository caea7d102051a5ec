import Idnx.Federation.Ledger
import Idnx.Lib.Run
import Mathlib.Data.List.Perm.Basic

/-!
# Evidence from peers as a continuous source

Transport tasks deliver what the ledger accepted; the engine drains it, and finishes the source once. A delivery takes
three steps, each under a lock of its own or atomic: the decision whether it is queued, the count of its records, and
the entry of its peer and vantage in the report. Between any two of them other deliveries, drains and the finish may
come.

* `HandoffSound`: what holds between any two steps;
* `source_hands_off`: what was queued is handed over once and in order, nothing else is, and the counts are those of
  what was queued once no delivery is under way, as long as the counters have not come round
  (`counts_lag_and_wrap`: what is not promised).
-/

namespace Idnx

variable {crypto : Ed25519}

/-! ## The source -/

/-- An accepted bundle's evidence. -/
structure Accepted (crypto : Ed25519) where
  peer : PeerId crypto
  vantage : Text
  sequence : UInt64
  evidence : List TopologyEvidence
  deriving DecidableEq

/-- What happened with one peer. -/
structure PeerOutcome (crypto : Ed25519) where
  peer : PeerId crypto
  vantage : Text
  bundles : UInt64
  records : UInt64
  rejected : List Text
  deriving DecidableEq

/-- One bundle more, with its records; `usize` has sixty-four bits. -/
def PeerOutcome.addBundle (records : Nat) (o : PeerOutcome crypto) : PeerOutcome crypto :=
  { o with bundles := o.bundles + 1, records := o.records + UInt64.ofNat records }

/-- One refusal more. -/
def PeerOutcome.addRejected (reason : Text) (o : PeerOutcome crypto) : PeerOutcome crypto :=
  { o with rejected := o.rejected ++ [reason] }

inductive Delivery where
  | queued
  | declined
  deriving DecidableEq, Repr

def BundleError.toText : BundleError → Text
  | .unsupportedSchema version => ("unsupported federation schema version " : Text) ++ Text.ofNat version.toNat
  | .identity e => e.toText

def RejectReason.toText : RejectReason → Text
  | .unverifiable e => ("unverifiable: " : Text) ++ e.toText
  | .notPaired peer => ("not paired with peer " : Text) ++ peer.take 16
  | .stale seen offered => ("stale: sequence " : Text) ++ Text.ofNat offered.toNat ++ (" at or below " : Text) ++
      Text.ofNat seen.toNat ++ (" already accepted" : Text)
  | .busy peer => ("another transaction for peer " : Text) ++ peer.take 16 ++ (" is still in flight" : Text)
  | .undecodable reasons => ("undecodable: " : Text) ++ List.intercalate ("; " : Text) reasons ++
      (" (this build is older than the peer's)" : Text)

/-- Evidence accepted from peers, waiting to enter the graph. -/
structure FederationSource (crypto : Ed25519) where
  pending : List TopologyEvidence := []
  stopped : Bool := false
  outcomes : List (PeerOutcome crypto) := []
  acceptedRecords : UInt64 := 0

/-- Changes the first entry of a peer and vantage, or enters one. -/
def amendOutcome (peer : PeerId crypto) (vantage : Text) (f : PeerOutcome crypto → PeerOutcome crypto) :
    List (PeerOutcome crypto) → List (PeerOutcome crypto)
  | [] => [f ⟨peer, vantage, 0, 0, []⟩]
  | o :: outcomes =>
    if o.peer = peer ∧ o.vantage = vantage then f o :: outcomes else o :: amendOutcome peer vantage f outcomes

namespace FederationSource

variable (source : FederationSource crypto)

/-- `deliver`, up to the decision: the check and the queueing are under one lock. -/
def enqueue (accepted : Accepted crypto) : Delivery × FederationSource crypto :=
  if source.stopped then (.declined, source)
  else (.queued, { source with pending := source.pending ++ accepted.evidence })

/-- `deliver`, the counter: `fetch_add`, which wraps. -/
def count (accepted : Accepted crypto) : FederationSource crypto :=
  { source with acceptedRecords := source.acceptedRecords + UInt64.ofNat accepted.evidence.length }

/-- `deliver`, the report. -/
def report (accepted : Accepted crypto) : FederationSource crypto :=
  { source with
    outcomes := amendOutcome accepted.peer accepted.vantage (.addBundle accepted.evidence.length) source.outcomes }

/-- The whole of `deliver`, if nothing comes in between. -/
def deliver (accepted : Accepted crypto) : Delivery × FederationSource crypto :=
  match source.enqueue accepted with
  | (.declined, source) => (.declined, source)
  | (.queued, source) => (.queued, (source.count accepted).report accepted)

/-- Records a bundle that was refused. -/
def reject (peer : Option (PeerId crypto)) (vantage : Text) (reason : RejectReason) : FederationSource crypto :=
  match peer with
  | none => source
  | some peer => { source with outcomes := amendOutcome peer vantage (.addRejected reason.toText) source.outcomes }

def hadPeers : Bool := source.outcomes ≠ []

/-- Takes what is waiting. -/
def drain : List TopologyEvidence × FederationSource crypto := (source.pending, { source with pending := [] })

/-- Takes what is waiting and stops. -/
def finish : List TopologyEvidence × FederationSource crypto :=
  (source.pending, { source with pending := [], stopped := true })

end FederationSource

/-! ## Deliveries under way -/

/-- A delivery that is queued and has not returned: its records are still to be counted, or only to be reported. -/
inductive Flight (crypto : Ed25519) where
  | counting (accepted : Accepted crypto)
  | reporting (accepted : Accepted crypto)
  deriving DecidableEq

def Flight.accepted : Flight crypto → Accepted crypto
  | .counting accepted => accepted
  | .reporting accepted => accepted

/-- The source and the deliveries under way, with every decision made and every batch handed over so far. -/
structure Handoff (crypto : Ed25519) where
  source : FederationSource crypto := {}
  inFlight : List (Flight crypto) := []
  decisions : List (Accepted crypto × Delivery) := []
  batches : List (List TopologyEvidence) := []

inductive HandoffStep (crypto : Ed25519) where
  | deliver (accepted : Accepted crypto)
  | count (flight : Nat)
  | report (flight : Nat)
  | drain
  | finish
  | reject (peer : Option (PeerId crypto)) (vantage : Text) (reason : RejectReason)

namespace Handoff

def step (s : Handoff crypto) : HandoffStep crypto → Handoff crypto
  | .deliver accepted =>
    match s.source.enqueue accepted with
    | (.declined, source) => { s with source, decisions := s.decisions ++ [(accepted, .declined)] }
    | (.queued, source) =>
      { s with
        source
        inFlight := s.inFlight ++ [.counting accepted]
        decisions := s.decisions ++ [(accepted, .queued)] }
  | .count i =>
    match s.inFlight[i]? with
    | some (.counting accepted) =>
      { s with source := s.source.count accepted, inFlight := s.inFlight.set i (.reporting accepted) }
    | _ => s
  | .report i =>
    match s.inFlight[i]? with
    | some (.reporting accepted) =>
      { s with source := s.source.report accepted, inFlight := s.inFlight.eraseIdx i }
    | _ => s
  | .drain =>
    let (batch, source) := s.source.drain
    { s with source, batches := s.batches ++ [batch] }
  | .finish =>
    let (batch, source) := s.source.finish
    { s with source, batches := s.batches ++ [batch] }
  | .reject peer vantage reason => { s with source := s.source.reject peer vantage reason }

/-- The deliveries reported as queued, in order. -/
def queued (s : Handoff crypto) : List (Accepted crypto) :=
  s.decisions.filterMap fun d => if d.2 = .queued then some d.1 else none

end Handoff

/-- The records of some deliveries. -/
def deliveredRecords (deliveries : List (Accepted crypto)) : Nat := (deliveries.map fun a => a.evidence.length).sum

/-- The deliveries of one peer and vantage. -/
def fromVantage (peer : PeerId crypto) (vantage : Text) (deliveries : List (Accepted crypto)) :
    List (Accepted crypto) :=
  deliveries.filter fun a => a.peer = peer ∧ a.vantage = vantage

/-- A list of steps taken from the empty source. -/
def handoff (steps : List (HandoffStep crypto)) : Handoff crypto := run Handoff.step {} steps

/-! ## Entries of the report -/

section Outcomes

variable (peer : PeerId crypto) (vantage : Text) {f : PeerOutcome crypto → PeerOutcome crypto}

/-- The entry of a peer and vantage. -/
def entryOf (peer : PeerId crypto) (vantage : Text) (outcomes : List (PeerOutcome crypto)) :
    Option (PeerOutcome crypto) :=
  outcomes.find? fun o => o.peer = peer ∧ o.vantage = vantage

/-- What the entry says, or nothing. -/
def reportedOf (peer : PeerId crypto) (vantage : Text) (outcomes : List (PeerOutcome crypto)) : PeerOutcome crypto :=
  (entryOf peer vantage outcomes).getD ⟨peer, vantage, 0, 0, []⟩

/-- An amended report: the entry in question is there and is the old one amended, the others are as they were. -/
theorem entryOf_amend (hf : ∀ o, (f o).peer = o.peer ∧ (f o).vantage = o.vantage) (p : PeerId crypto) (v : Text)
    (outcomes : List (PeerOutcome crypto)) :
    entryOf p v (amendOutcome peer vantage f outcomes) =
      if p = peer ∧ v = vantage then some (f (reportedOf peer vantage outcomes)) else entryOf p v outcomes := by
  induction outcomes with
  | nil =>
    unfold amendOutcome entryOf reportedOf
    rw [List.find?_singleton]
    obtain ⟨hp, hv⟩ := hf ⟨peer, vantage, 0, 0, []⟩
    rw [hp, hv]
    by_cases h : p = peer ∧ v = vantage
    · obtain ⟨rfl, rfl⟩ := h
      simp [entryOf]
    · rw [if_neg (fun hc => h ⟨(of_decide_eq_true hc).1.symm, (of_decide_eq_true hc).2.symm⟩), if_neg h]
      rfl
  | cons o outcomes ih =>
    unfold reportedOf entryOf at *
    rw [amendOutcome]
    obtain ⟨hp, hv⟩ := hf o
    by_cases ho : o.peer = peer ∧ o.vantage = vantage
    · obtain ⟨rfl, rfl⟩ := ho
      rw [if_pos ⟨rfl, rfl⟩, List.find?_cons, hp, hv]
      by_cases h : p = o.peer ∧ v = o.vantage
      · obtain ⟨rfl, rfl⟩ := h
        simp
      · have hne : ¬ (o.peer = p ∧ o.vantage = v) := fun hc => h ⟨hc.1.symm, hc.2.symm⟩
        simp [h, hne]
    · rw [if_neg ho, List.find?_cons, List.find?_cons, List.find?_cons]
      by_cases h : o.peer = p ∧ o.vantage = v
      · have hne : ¬ (p = peer ∧ v = vantage) := fun hc => ho ⟨h.1.trans hc.1, h.2.trans hc.2⟩
        simp [h, hne]
      · simp only [h, ho, decide_false]
        exact ih

theorem reportedOf_amend (hf : ∀ o, (f o).peer = o.peer ∧ (f o).vantage = o.vantage) (p : PeerId crypto) (v : Text)
    (outcomes : List (PeerOutcome crypto)) :
    reportedOf p v (amendOutcome peer vantage f outcomes) =
      if p = peer ∧ v = vantage then f (reportedOf p v outcomes) else reportedOf p v outcomes := by
  unfold reportedOf
  rw [entryOf_amend peer vantage hf]
  split_ifs with h
  · obtain ⟨rfl, rfl⟩ := h
    rfl
  · rfl

theorem isSome_entryOf_amend (hf : ∀ o, (f o).peer = o.peer ∧ (f o).vantage = o.vantage) (p : PeerId crypto)
    (v : Text)
    (outcomes : List (PeerOutcome crypto)) :
    (entryOf p v (amendOutcome peer vantage f outcomes)).isSome ↔
      (p = peer ∧ v = vantage) ∨ (entryOf p v outcomes).isSome := by
  rw [entryOf_amend peer vantage hf]
  split_ifs with h
  · simp [h]
  · simp [h]

/-- No peer and vantage is entered twice. -/
theorem keys_amend (hf : ∀ o, (f o).peer = o.peer ∧ (f o).vantage = o.vantage) {outcomes : List (PeerOutcome crypto)}
    (h : (outcomes.map fun o => (o.peer, o.vantage)).Nodup) :
    ((amendOutcome peer vantage f outcomes).map fun o => (o.peer, o.vantage)).Nodup ∧
      ∀ k ∈ (amendOutcome peer vantage f outcomes).map fun o => (o.peer, o.vantage),
        k = (peer, vantage) ∨ k ∈ outcomes.map fun o => (o.peer, o.vantage) := by
  induction outcomes with
  | nil =>
    obtain ⟨hp, hv⟩ := hf ⟨peer, vantage, 0, 0, []⟩
    simp [amendOutcome, hp, hv]
  | cons o outcomes ih =>
    obtain ⟨hp, hv⟩ := hf o
    rw [List.map_cons, List.nodup_cons] at h
    unfold amendOutcome
    split_ifs with ho
    · simp only [List.map_cons, hp, hv, List.nodup_cons]
      exact ⟨h, fun k hk => .inr hk⟩
    · obtain ⟨hnodup, hkeys⟩ := ih h.2
      simp only [List.map_cons, List.nodup_cons]
      refine ⟨⟨fun hmem => ?_, hnodup⟩, fun k hk => ?_⟩
      · rcases hkeys _ hmem with hk | hk
        · cases hk
          exact ho ⟨rfl, rfl⟩
        · exact h.1 hk
      · rcases List.mem_cons.mp hk with rfl | hk
        · exact .inr List.mem_cons_self
        · exact (hkeys k hk).imp_right (List.mem_cons_of_mem _)

theorem of_entryOf {outcomes : List (PeerOutcome crypto)} {p : PeerId crypto} {v : Text} {o : PeerOutcome crypto}
    (h : entryOf p v outcomes = some o) : o ∈ outcomes ∧ o.peer = p ∧ o.vantage = v := by
  unfold entryOf at h
  have hkey := List.find?_some h
  exact ⟨List.mem_of_find?_eq_some h, of_decide_eq_true hkey⟩

/-- Without double entries every entry is found. -/
theorem entryOf_of_mem {outcomes : List (PeerOutcome crypto)} (h : (outcomes.map fun o => (o.peer, o.vantage)).Nodup)
    {o : PeerOutcome crypto} (ho : o ∈ outcomes) : entryOf o.peer o.vantage outcomes = some o := by
  induction outcomes with
  | nil => cases ho
  | cons x outcomes ih =>
    rw [List.map_cons, List.nodup_cons] at h
    unfold entryOf at ih ⊢
    rw [List.find?_cons]
    rcases List.mem_cons.mp ho with rfl | ho
    · simp
    · have hne : ¬ (x.peer = o.peer ∧ x.vantage = o.vantage) := by
        intro hc
        refine h.1 (List.mem_map.mpr ⟨o, ho, ?_⟩)
        rw [hc.1, hc.2]
      rw [decide_eq_false hne]
      exact ih h.2 ho

end Outcomes

/-! ## What holds between any two steps -/

/-- The deliveries under way whose records are not counted yet. -/
def uncounted (flights : List (Flight crypto)) : List (Accepted crypto) :=
  flights.filterMap fun
    | .counting accepted => some accepted
    | .reporting _ => none

theorem deliveredRecords_append (as bs : List (Accepted crypto)) :
    deliveredRecords (as ++ bs) = deliveredRecords as + deliveredRecords bs := by
  simp [deliveredRecords]

theorem deliveredRecords_perm {as bs : List (Accepted crypto)} (h : as.Perm bs) :
    deliveredRecords as = deliveredRecords bs :=
  (h.map _).sum_nat

theorem fromVantage_append (p : PeerId crypto) (v : Text) (as bs : List (Accepted crypto)) :
    fromVantage p v (as ++ bs) = fromVantage p v as ++ fromVantage p v bs :=
  List.filter_append as bs

theorem fromVantage_singleton (p : PeerId crypto) (v : Text) (a : Accepted crypto) :
    fromVantage p v [a] = if p = a.peer ∧ v = a.vantage then [a] else [] := by
  unfold fromVantage
  by_cases h : p = a.peer ∧ v = a.vantage
  · obtain ⟨rfl, rfl⟩ := h
    simp
  · have hne : ¬ (a.peer = p ∧ a.vantage = v) := fun hc => h ⟨hc.1.symm, hc.2.symm⟩
    rw [if_neg h, List.filter_singleton, decide_eq_false hne]
    rfl

theorem deliveredRecords_fromVantage_le (p : PeerId crypto) (v : Text) (deliveries : List (Accepted crypto)) :
    deliveredRecords (fromVantage p v deliveries) ≤ deliveredRecords deliveries := by
  induction deliveries with
  | nil => exact Nat.le_refl _
  | cons a deliveries ih =>
    have happend := fromVantage_append p v [a] deliveries
    rw [List.singleton_append, fromVantage_singleton] at happend
    rw [happend, deliveredRecords_append]
    show _ ≤ a.evidence.length + deliveredRecords deliveries
    split_ifs
    · show a.evidence.length + 0 + _ ≤ _
      omega
    · show 0 + _ ≤ _
      omega

/-- What holds after every step: batches and queue together are what was queued, in order; a stopped source holds
nothing; and the counters, with the deliveries under way, come to what was queued, as far as sixty-four bits go. -/
structure HandoffSound (s : Handoff crypto) : Prop where
  order : s.batches.flatten ++ s.source.pending = s.queued.flatMap Accepted.evidence
  stopped : s.source.stopped = true → s.source.pending = []
  counted : (s.source.acceptedRecords.toNat + deliveredRecords (uncounted s.inFlight)) % 2 ^ 64 =
    deliveredRecords s.queued % 2 ^ 64
  keys : (s.source.outcomes.map fun o => (o.peer, o.vantage)).Nodup
  bundles : ∀ p v, ((reportedOf p v s.source.outcomes).bundles.toNat +
    (fromVantage p v (s.inFlight.map Flight.accepted)).length) % 2 ^ 64 = (fromVantage p v s.queued).length % 2 ^ 64
  records : ∀ p v, ((reportedOf p v s.source.outcomes).records.toNat +
    deliveredRecords (fromVantage p v (s.inFlight.map Flight.accepted))) % 2 ^ 64 =
      deliveredRecords (fromVantage p v s.queued) % 2 ^ 64
  entered : ∀ a ∈ s.queued, (entryOf a.peer a.vantage s.source.outcomes).isSome ∨ a ∈ s.inFlight.map Flight.accepted

namespace HandoffSound

variable {s : Handoff crypto}

theorem queued_declined (source : FederationSource crypto) (flights : List (Flight crypto)) (a : Accepted crypto) :
    Handoff.queued ⟨source, flights, s.decisions ++ [(a, .declined)], s.batches⟩ = s.queued := by
  unfold Handoff.queued
  rw [List.filterMap_append]
  exact List.append_nil _

theorem queued_queued (source : FederationSource crypto) (flights : List (Flight crypto)) (a : Accepted crypto) :
    Handoff.queued ⟨source, flights, s.decisions ++ [(a, .queued)], s.batches⟩ = s.queued ++ [a] := by
  unfold Handoff.queued
  rw [List.filterMap_append]
  rfl

theorem deliver (h : HandoffSound s) (a : Accepted crypto) : HandoffSound (s.step (.deliver a)) := by
  unfold Handoff.step FederationSource.enqueue
  by_cases hstop : s.source.stopped = true
  · simp only [hstop, if_true]
    have hq := queued_declined (s := s) s.source s.inFlight a
    refine ⟨?_, h.stopped, ?_, h.keys, ?_, ?_, ?_⟩ <;> rw [hq]
    · exact h.order
    · exact h.counted
    · exact h.bundles
    · exact h.records
    · exact h.entered
  · simp only [if_neg hstop]
    have hq := queued_queued (s := s) { s.source with pending := s.source.pending ++ a.evidence }
      (s.inFlight ++ [.counting a]) a
    refine ⟨?_, fun hs => absurd hs hstop, ?_, h.keys, fun p v => ?_, fun p v => ?_, fun b hb => ?_⟩
    · rw [hq, List.flatMap_append, List.flatMap_singleton, ← h.order, List.append_assoc]
    · -- the records are counted later
      have hcounted := h.counted
      rw [hq, uncounted, List.filterMap_append, deliveredRecords_append, deliveredRecords_append]
      show (s.source.acceptedRecords.toNat + (deliveredRecords
        (uncounted s.inFlight) + deliveredRecords [a])) % 2 ^ 64 = _
      omega
    · have hbundles := h.bundles p v
      rw [hq, List.map_append, fromVantage_append, fromVantage_append, List.length_append, List.length_append]
      show ((reportedOf p v s.source.outcomes).bundles.toNat +
        ((fromVantage p v (s.inFlight.map Flight.accepted)).length + (fromVantage p v [a]).length)) % 2 ^ 64 = _
      omega
    · have hrecords := h.records p v
      rw [hq, List.map_append, fromVantage_append, fromVantage_append, deliveredRecords_append,
        deliveredRecords_append]
      show ((reportedOf p v s.source.outcomes).records.toNat +
        (deliveredRecords (fromVantage p v (s.inFlight.map Flight.accepted)) + deliveredRecords
        (fromVantage p v [a]))) %
          2 ^ 64 = _
      omega
    · rw [hq] at hb
      rw [List.map_append]
      rcases List.mem_append.mp hb with hb | hb
      · exact (h.entered b hb).imp_right (List.mem_append_left _)
      · exact .inr (List.mem_append_right _ hb)

theorem count (h : HandoffSound s) (i : Nat) : HandoffSound (s.step (.count i)) := by
  dsimp only [Handoff.step]
  split
  · rename_i a hi
    obtain ⟨hlt, hget⟩ := List.getElem?_eq_some_iff.mp hi
    -- the delivery stays under way
    have hmap : (s.inFlight.set i (.reporting a)).map Flight.accepted = s.inFlight.map Flight.accepted := by
      refine List.ext_getElem? fun j => ?_
      rw [List.getElem?_map, List.getElem?_map, List.getElem?_set]
      split_ifs with hj
      · rw [← hj, hi]
        rfl
      · rfl
    have hbefore : deliveredRecords (uncounted s.inFlight) =
        a.evidence.length + deliveredRecords (uncounted (s.inFlight.eraseIdx i)) := by
      have hperm := List.getElem_cons_eraseIdx_perm hlt
      rw [hget] at hperm
      have hrecords : deliveredRecords (uncounted (.counting a :: s.inFlight.eraseIdx i)) =
          deliveredRecords (uncounted s.inFlight) := deliveredRecords_perm (hperm.filterMap _)
      rw [← hrecords]
      rfl
    have hafter : deliveredRecords (uncounted (s.inFlight.set i (.reporting a))) =
        deliveredRecords (uncounted (s.inFlight.eraseIdx i)) := by
      exact deliveredRecords_perm ((List.set_perm_cons_eraseIdx hlt (.reporting a)).filterMap _)
    refine ⟨h.order, h.stopped, ?_, h.keys, ?_, ?_, ?_⟩
    · have hcounted := h.counted
      show ((s.source.acceptedRecords + UInt64.ofNat a.evidence.length).toNat + _) % 2 ^ 64 = _
      rw [hafter, UInt64.toNat_add, UInt64.toNat_ofNat']
      rw [hbefore] at hcounted
      show _ = deliveredRecords s.queued % 2 ^ 64
      omega
    · rw [hmap]
      exact h.bundles
    · rw [hmap]
      exact h.records
    · rw [hmap]
      exact h.entered
  · exact h

/-- A delivery is entered in the report and returns. -/
theorem report (h : HandoffSound s) (i : Nat) : HandoffSound (s.step (.report i)) := by
  dsimp only [Handoff.step]
  split
  · rename_i a hi
    obtain ⟨hlt, hget⟩ := List.getElem?_eq_some_iff.mp hi
    have hperm := List.getElem_cons_eraseIdx_perm hlt
    rw [hget] at hperm
    have hkey : ∀ o : PeerOutcome crypto, (o.addBundle a.evidence.length).peer = o.peer ∧
        (o.addBundle a.evidence.length).vantage = o.vantage := fun _ => ⟨rfl, rfl⟩
    have huncounted : (uncounted (s.inFlight.eraseIdx i)).Perm (uncounted s.inFlight) := by
      have hfilter : (uncounted (.reporting a :: s.inFlight.eraseIdx i)).Perm (uncounted s.inFlight) :=
        hperm.filterMap _
      exact hfilter
    -- of the deliveries under way, this one is taken out
    have hflights : ∀ p v, (fromVantage p v [a] ++ fromVantage p v ((s.inFlight.eraseIdx i).map Flight.accepted)).Perm
        (fromVantage p v (s.inFlight.map Flight.accepted)) := by
      intro p v
      rw [← fromVantage_append]
      exact (hperm.map Flight.accepted).filter _
    refine ⟨h.order, h.stopped, ?_, (keys_amend a.peer a.vantage hkey h.keys).1, fun p v => ?_, fun p v => ?_,
      fun b hb => ?_⟩
    · show (s.source.acceptedRecords.toNat + deliveredRecords (uncounted (s.inFlight.eraseIdx i))) % 2 ^ 64 = _
      rw [deliveredRecords_perm huncounted]
      exact h.counted
    · have hbundles := h.bundles p v
      have hlen := (hflights p v).length_eq
      rw [List.length_append, fromVantage_singleton] at hlen
      dsimp only [FederationSource.report]
      rw [reportedOf_amend a.peer a.vantage hkey]
      show _ = (fromVantage p v s.queued).length % 2 ^ 64
      split_ifs at hlen ⊢
      · dsimp only [PeerOutcome.addBundle]
        rw [UInt64.toNat_add, UInt64.toNat_one]
        rw [List.length_singleton] at hlen
        omega
      · rw [List.length_nil] at hlen
        omega
    · have hrecords := h.records p v
      have hsum := deliveredRecords_perm (hflights p v)
      rw [deliveredRecords_append, fromVantage_singleton] at hsum
      dsimp only [FederationSource.report]
      rw [reportedOf_amend a.peer a.vantage hkey]
      show _ = deliveredRecords (fromVantage p v s.queued) % 2 ^ 64
      split_ifs at hsum ⊢
      · dsimp only [PeerOutcome.addBundle]
        rw [UInt64.toNat_add, UInt64.toNat_ofNat']
        rw [show deliveredRecords [a] = a.evidence.length from rfl] at hsum
        omega
      · rw [show deliveredRecords ([] : List (Accepted crypto)) = 0 from rfl] at hsum
        omega
    · dsimp only [FederationSource.report]
      rw [isSome_entryOf_amend a.peer a.vantage hkey]
      rcases h.entered b hb with he | he
      · exact .inl (.inr he)
      · rcases List.mem_cons.mp ((hperm.map Flight.accepted).mem_iff.mpr he) with rfl | hmem
        · exact .inl (.inl ⟨rfl, rfl⟩)
        · exact .inr hmem
  · exact h

/-- A refusal changes no count. -/
theorem reject (h : HandoffSound s) (peer : Option (PeerId crypto)) (vantage : Text) (reason : RejectReason) :
    HandoffSound (s.step (.reject peer vantage reason)) := by
  cases peer with
  | none => exact h
  | some peer =>
    have hkey : ∀ o : PeerOutcome crypto, (o.addRejected reason.toText).peer = o.peer ∧
        (o.addRejected reason.toText).vantage = o.vantage := fun _ => ⟨rfl, rfl⟩
    have hsame : ∀ p v, (reportedOf p v (amendOutcome peer vantage
      (.addRejected reason.toText) s.source.outcomes)).bundles =
          (reportedOf p v s.source.outcomes).bundles ∧
        (reportedOf p v (amendOutcome peer vantage (.addRejected reason.toText) s.source.outcomes)).records =
          (reportedOf p v s.source.outcomes).records := by
      intro p v
      rw [reportedOf_amend peer vantage hkey]
      split_ifs <;> exact ⟨rfl, rfl⟩
    refine ⟨h.order, h.stopped, h.counted, (keys_amend peer vantage hkey h.keys).1, fun p v => ?_, fun p v => ?_,
      fun b hb => ?_⟩
    · dsimp only [Handoff.step, FederationSource.reject]
      rw [(hsame p v).1]
      exact h.bundles p v
    · dsimp only [Handoff.step, FederationSource.reject]
      rw [(hsame p v).2]
      exact h.records p v
    · dsimp only [Handoff.step, FederationSource.reject]
      rw [isSome_entryOf_amend peer vantage hkey]
      exact (h.entered b hb).imp_left .inr

theorem drain (h : HandoffSound s) : HandoffSound (s.step .drain) := by
  refine ⟨?_, fun _ => rfl, h.counted, h.keys, h.bundles, h.records, h.entered⟩
  have horder := h.order
  show (s.batches ++ [s.source.pending]).flatten ++ [] = s.queued.flatMap Accepted.evidence
  rw [List.append_nil, List.flatten_concat, horder]

theorem finish (h : HandoffSound s) : HandoffSound (s.step .finish) := by
  refine ⟨?_, fun _ => rfl, h.counted, h.keys, h.bundles, h.records, h.entered⟩
  have horder := h.order
  show (s.batches ++ [s.source.pending]).flatten ++ [] = s.queued.flatMap Accepted.evidence
  rw [List.append_nil, List.flatten_concat, horder]

end HandoffSound

theorem handoffSound_handoff (steps : List (HandoffStep crypto)) : HandoffSound (handoff steps) := by
  refine run_induction (P := fun _ s => HandoffSound s) _ ?_ (fun _ a h => ?_) steps
  · exact ⟨rfl, fun _ => rfl, rfl, .nil, fun _ _ => rfl, fun _ _ => rfl, fun _ hb => nomatch hb⟩
  · cases a with
    | deliver a => exact h.deliver a
    | count i => exact h.count i
    | report i => exact h.report i
    | drain => exact h.drain
    | finish => exact h.finish
    | reject peer vantage reason => exact h.reject peer vantage reason

/-- A stopped source stays stopped, and nothing is queued any more. -/
theorem run_stopped {s : Handoff crypto} (h : s.source.stopped = true) (steps : List (HandoffStep crypto)) :
    (run Handoff.step s steps).source.stopped = true ∧ (run Handoff.step s steps).queued = s.queued := by
  refine run_induction (P := fun _ (t : Handoff crypto) => t.source.stopped = true ∧ t.queued = s.queued) _ ⟨h, rfl⟩
    (fun _ a ht => ?_) steps
  generalize run Handoff.step s _ = t at ht ⊢
  obtain ⟨hstop, hq⟩ := ht
  cases a with
  | deliver a =>
    have hstep : t.step (.deliver a) = { t with decisions := t.decisions ++ [(a, .declined)] } := by
      simp [Handoff.step, FederationSource.enqueue, hstop]
    rw [hstep]
    exact ⟨hstop, (HandoffSound.queued_declined t.source t.inFlight a).trans hq⟩
  | count i =>
    dsimp only [Handoff.step]
    split <;> exact ⟨hstop, hq⟩
  | report i =>
    dsimp only [Handoff.step]
    split <;> exact ⟨hstop, hq⟩
  | drain => exact ⟨hstop, hq⟩
  | finish => exact ⟨rfl, hq⟩
  | reject peer vantage reason => cases peer <;> exact ⟨hstop, hq⟩

/-- A delivery with nothing in between is `deliver`. -/
theorem handoff_deliver (s : Handoff crypto) (h : s.inFlight = []) (a : Accepted crypto) :
    (run Handoff.step s [.deliver a, .count 0, .report 0]).source = (s.source.deliver a).2 := by
  unfold FederationSource.deliver FederationSource.enqueue
  cases hstop : s.source.stopped with
  | true => simp [run, Handoff.step, FederationSource.enqueue, hstop, h]
  | false => simp [run, Handoff.step, FederationSource.enqueue, hstop, h]

/-! ## The hand-off -/

/-- **Hand-off.** However deliveries, drains and the finish interleave: the batches handed over and what still waits
are together the records of the queued deliveries, each once and in order, and nothing else; after the finish nothing
waits and nothing more is queued. Once no delivery is under way, and as long as fewer than `2 ^ 64` bundles and
records were queued, the counter is the number of records queued, and the report has for every peer and vantage one
entry, with its queued bundles and their records. -/
theorem source_hands_off (steps : List (HandoffStep crypto)) :
    (handoff steps).batches.flatten ++ (handoff steps).source.pending =
    (handoff steps).queued.flatMap Accepted.evidence ∧ (∀ before after, steps = before ++ .finish :: after →
      (handoff steps).source.pending = [] ∧ (handoff steps).queued = (handoff before).queued) ∧
    ((handoff steps).inFlight = [] → deliveredRecords (handoff steps).queued < 2 ^ 64 →
      (handoff steps).source.acceptedRecords.toNat = deliveredRecords (handoff steps).queued) ∧
    ((handoff steps).inFlight = [] → deliveredRecords (handoff steps).queued < 2 ^ 64 →
      (handoff steps).queued.length < 2 ^ 64 →
      ((handoff steps).source.outcomes.map fun o => (o.peer, o.vantage)).Nodup ∧
        (∀ o ∈ (handoff steps).source.outcomes,
          o.bundles.toNat = (fromVantage o.peer o.vantage (handoff steps).queued).length ∧
            o.records.toNat = deliveredRecords (fromVantage o.peer o.vantage (handoff steps).queued)) ∧
        ∀ a ∈ (handoff steps).queued, ∃ o ∈ (handoff steps).source.outcomes, o.peer = a.peer ∧
        o.vantage = a.vantage) := by
  have h := handoffSound_handoff steps
  refine ⟨h.order, fun before after hsteps => ?_, fun hidle hrecords => ?_, fun hidle hrecords hbundles => ?_⟩
  · have hrun : handoff steps = run Handoff.step ((handoff before).step .finish) after := by
      rw [hsteps]
      exact run_append _ _ _ _
    obtain ⟨hstop, hq⟩ := run_stopped (s := (handoff before).step .finish) rfl after
    rw [← hrun] at hstop hq
    exact ⟨h.stopped hstop, hq⟩
  · have hcounted := h.counted
    have hlt := (handoff steps).source.acceptedRecords.toNat_lt
    rw [hidle] at hcounted
    simp only [uncounted, List.filterMap_nil, deliveredRecords, List.map_nil, List.sum_nil, Nat.add_zero] at hcounted
    rw [Nat.mod_eq_of_lt hlt] at hcounted
    rw [hcounted]
    exact Nat.mod_eq_of_lt hrecords
  · refine ⟨h.keys, fun o ho => ?_, fun a ha => ?_⟩
    · have hentry : reportedOf o.peer o.vantage (handoff steps).source.outcomes = o := by
        rw [reportedOf, entryOf_of_mem h.keys ho]
        rfl
      have hb := h.bundles o.peer o.vantage
      have hr := h.records o.peer o.vantage
      rw [hentry, hidle] at hb hr
      simp only [List.map_nil, fromVantage, List.filter_nil, List.length_nil, deliveredRecords, List.sum_nil,
        Nat.add_zero] at hb hr
      have hble : (fromVantage o.peer o.vantage (handoff steps).queued).length ≤ (handoff steps).queued.length :=
        List.length_filter_le _ _
      have hrle := deliveredRecords_fromVantage_le o.peer o.vantage (handoff steps).queued
      rw [Nat.mod_eq_of_lt o.bundles.toNat_lt] at hb
      rw [Nat.mod_eq_of_lt o.records.toNat_lt] at hr
      exact ⟨hb.trans (Nat.mod_eq_of_lt (hble.trans_lt hbundles)),
        hr.trans (Nat.mod_eq_of_lt (hrle.trans_lt hrecords))⟩
    · rcases h.entered a ha with he | he
      · obtain ⟨o, ho⟩ := Option.isSome_iff_exists.mp he
        exact ⟨o, of_entryOf ho⟩
      · rw [hidle] at he
        cases he

/-! ## What is not promised -/

section Limits

/-- A delivery of one record. -/
def oneRecord : Accepted sampleLibs.crypto := ⟨samplePeer, "en0", 5, [sampleEvidence]⟩

/-- The delivery made `n` times over, each time drained. -/
def oneRecordRounds : Nat → List (HandoffStep sampleLibs.crypto)
  | 0 => []
  | n + 1 => oneRecordRounds n ++ [.deliver oneRecord, .count 0, .report 0, .drain]

theorem handoff_oneRecordRounds (n : Nat) :
    (handoff (oneRecordRounds n)).source.acceptedRecords = UInt64.ofNat n ∧
      (handoff (oneRecordRounds n)).source.stopped = false ∧ (handoff (oneRecordRounds n)).inFlight = [] ∧
      deliveredRecords (handoff (oneRecordRounds n)).queued = n := by
  induction n with
  | zero => exact ⟨rfl, rfl, rfl, rfl⟩
  | succ n ih =>
    obtain ⟨hcount, hstop, hidle, hqueued⟩ := ih
    have hrun : handoff (oneRecordRounds (n + 1)) =
        run Handoff.step (handoff (oneRecordRounds n)) [.deliver oneRecord, .count 0, .report 0, .drain] :=
      run_append _ _ _ _
    rw [hrun]
    generalize handoff (oneRecordRounds n) = s at *
    have hstep : s.step (.deliver oneRecord) = ⟨{ s.source with pending := s.source.pending ++ oneRecord.evidence },
        [.counting oneRecord], s.decisions ++ [(oneRecord, .queued)], s.batches⟩ := by
      simp [Handoff.step, FederationSource.enqueue, hstop, hidle]
    rw [run_cons, hstep]
    refine ⟨?_, hstop, rfl, ?_⟩
    · show s.source.acceptedRecords + UInt64.ofNat 1 = _
      rw [hcount, ← UInt64.ofNat_add]
    · refine (congrArg deliveredRecords (HandoffSound.queued_queued s.source s.inFlight oneRecord)).trans ?_
      rw [deliveredRecords_append, hqueued]
      rfl

/-- A drain may hand over records that are not counted yet; and the counter comes round. -/
theorem counts_lag_and_wrap :
    ((handoff [.deliver oneRecord, .drain]).batches = [[sampleEvidence]] ∧
      (handoff [.deliver oneRecord, .drain]).source.acceptedRecords = 0) ∧
    ∃ steps : List (HandoffStep sampleLibs.crypto), (handoff steps).inFlight = [] ∧
      (handoff steps).source.acceptedRecords.toNat ≠ deliveredRecords (handoff steps).queued := by
  refine ⟨⟨rfl, rfl⟩, oneRecordRounds (2 ^ 64), ?_⟩
  obtain ⟨hcount, -, hidle, hqueued⟩ := handoff_oneRecordRounds (2 ^ 64)
  refine ⟨hidle, ?_⟩
  rw [hcount, hqueued]
  decide

theorem source_hands_off_one :
    (handoff [.deliver oneRecord, .drain, .count 0, .report 0, .finish]).source.acceptedRecords.toNat = 1 :=
  (source_hands_off [.deliver oneRecord, .drain, .count 0, .report 0, .finish]).2.2.1 rfl (by decide)

end Limits

end Idnx
