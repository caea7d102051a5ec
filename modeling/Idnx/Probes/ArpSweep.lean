import Idnx.Lib.Answers
import Idnx.Probes.Arp
import Idnx.Probes.Walks

/-!
# A sweep of ARP requests

One channel carries the requests for many addresses, and what arrives is read once for all of them. A frame is counted
as a candidate if it is an ARP reply to this station (`isCandidateReply`), and as correlated once for each request it
answers (`parseArpReply`). The answers are candidates, and a frame answers one request at most, so what the sweep
reports as rejected are the candidates that answer none (`arp_correlation`).
-/

namespace Idnx

open Outcome

variable {ε : Type}

/-- What running one probe amounted to. -/
inductive AttemptOutcome (α : Type) where
  | unavailable (reason : Text)
  | notApplicable (reason : Text)
  | notSent (reason : Text)
  | noResponse (sent : Text)
  | invalidResponse (sent : Text) (rejected : Nat)
  | answered (sent : Text) (result : α)

/-- A hardware address. -/
structure Mac where
  octets : Bytes
  length : octets.length = 6
  deriving DecidableEq

/-- The broadcast request, padded to the shortest frame Ethernet carries. -/
def ArpQuery.requestFrame (query : ArpQuery) : Bytes :=
  let frame := List.replicate 6 0xff ++ query.senderMac ++ [0x08, 0x06] ++ [0x00, 0x01] ++ [0x08, 0x00] ++ [6] ++ [4] ++
    [0x00, 0x01] ++ query.senderMac ++ beBytes 4 query.senderIp.toNat ++ List.replicate 6 0 ++
    beBytes 4 query.targetIp.toNat
  (frame ++ List.replicate 60 0).take 60

/-- Whether a frame is an ARP reply addressed to this station. -/
def isCandidateReply (frame senderMac : Bytes) : Outcome ε Bool := do
  if frame.length < 22 then return false
  let destination ← slice frame 0 6
  if destination ≠ senderMac then return false
  let ethertype ← u16At frame 12
  if ethertype = 0x8100 then
    if frame.length < 12 + 12 then return false
    let ethertype ← u16At frame 16
    return ethertype = 0x0806 ∧ readU16 frame (16 + 8) = some 2
  return ethertype = 0x0806 ∧ readU16 frame (12 + 8) = some 2

/-- Whether a frame is an ARP request this station sent. -/
def isOurRequest (frame senderMac : Bytes) : Bool :=
  42 ≤ frame.length ∧ (frame.drop 6).take 6 = senderMac ∧ (frame.drop 12).take 2 = [0x08, 0x06] ∧
    (frame.drop 20).take 2 = [0x00, 0x01]

/-! ## The sweep -/

/-- What has been heard so far. -/
structure ArpTally where
  replies : List ArpReply := []
  candidates : Nat := 0
  correlated : Nat := 0

/-- A reply is recorded once for its address and its station. -/
def recordReply : List ArpReply → ArpReply → List ArpReply := recordOnce fun reply => (reply.address, reply.mac)

/-- Holds a frame against every request that was sent. -/
def ArpTally.correlate (frame : Bytes) : List ArpQuery → ArpTally → Outcome ε ArpTally
  | [], tally => .ok tally
  | query :: queries, tally => do
    match ← (parseArpReply frame query).toOption with
    | some reply =>
      ArpTally.correlate frame queries
        { tally with correlated := tally.correlated + 1, replies := recordReply tally.replies reply }
    | none => ArpTally.correlate frame queries tally

/-- One frame: a candidate is counted once, whatever it answers. -/
def ArpTally.hear (senderMac : Bytes) (sentQueries : List ArpQuery) (tally : ArpTally) (frame : Bytes) :
    Outcome ε ArpTally := do
  let candidate ← isCandidateReply frame senderMac
  ArpTally.correlate frame sentQueries
    (if candidate then { tally with candidates := tally.candidates + 1 } else tally)

def ArpTally.hearAll (senderMac : Bytes) (sentQueries : List ArpQuery) : List Bytes → ArpTally → Outcome ε ArpTally
  | [], tally => .ok tally
  | frame :: frames, tally => do
    let tally ← tally.hear senderMac sentQueries frame
    ArpTally.hearAll senderMac sentQueries frames tally

/-- What one sweep asked and what answered. -/
structure ArpSweep where
  asked : List Ipv4Addr
  replies : List ArpReply
  framesSeen : Nat
  candidates : Nat
  rejected : Nat
  locallyObserved : Nat

/-- Addresses that more than one station answered for, with every hardware address that did. -/
def ArpSweep.contested (sweep : ArpSweep) : List (Ipv4Addr × List Bytes) :=
  (collectAll (sweep.replies.map fun reply => (reply.address, reply.mac))).filter fun group => 1 < group.2.length

/-- A link-layer channel: what becomes of each write, the frames it delivers, and a fault that ended the reading. -/
structure LinkChannel where
  send : Nat → Bytes → Except Text Unit
  delivered : List Bytes
  fault : Option Text

/-- Sends requests until one is refused. With those sent, why it was. -/
def LinkChannel.sendAll (channel : LinkChannel) : Nat → List ArpQuery → List ArpQuery × Option Text
  | _, [] => ([], none)
  | n, query :: queries =>
    match channel.send n query.requestFrame with
    | .ok _ =>
      let (sentQueries, refused) := channel.sendAll (n + 1) queries
      (query :: sentQueries, refused)
    | .error reason => ([], some reason)

/-- The addresses of the link that are asked. -/
def onLink (network : Ipv4Net) (senderIp : Ipv4Addr) (targets : List Ipv4Addr) : List Ipv4Addr :=
  targets.filter fun address => network.toNet.contains (.v4 address) ∧ address ≠ senderIp

def queriesFor (mac : Mac) (senderIp : Ipv4Addr) (addresses : List Ipv4Addr) : List ArpQuery :=
  addresses.map fun targetIp => { senderMac := mac.octets, senderIp, targetIp, hardware := mac.length }

/-- What a second channel saw of our own requests. -/
def observation (observer : Option LinkChannel) (senderMac : Bytes) (asked : Nat) : Nat × Text :=
  match observer with
  | some observer =>
    let locallyObserved := observer.delivered.countP fun frame => isOurRequest frame senderMac
    (locallyObserved, if 0 < locallyObserved then
        ("locally observed outbound (" : Text) ++ Text.ofNat locallyObserved ++ (" of " : Text) ++ Text.ofNat asked ++
          (")" : Text)
      else ("no outbound request observed locally" : Text))
  | none => (0, ("outbound observation unavailable" : Text))

/-- What the sweep comes to, once its requests are sent. -/
def listen (network : Ipv4Net) (senderMac : Bytes) (channel : LinkChannel) (observer : Option LinkChannel)
    (sentQueries : List ArpQuery) : Outcome ε (AttemptOutcome ArpSweep) := do
  let asked := sentQueries.map ArpQuery.targetIp
  let sent := ("BPF accepted " : Text) ++ Text.ofNat asked.length ++ (" ARP request(s) for " : Text) ++
    network.toNet.toText
  let (locallyObserved, observed) := observation observer senderMac asked.length
  let tally ← ArpTally.hearAll senderMac sentQueries channel.delivered {}
  let framesSeen := channel.delivered.length
  let rejected := tally.candidates - tally.correlated
  let diagnostics := sent ++ ("; " : Text) ++ observed ++ ("; " : Text) ++ Text.ofNat framesSeen ++
    (" frame(s) read, " : Text) ++ Text.ofNat tally.candidates ++ (" ARP candidate(s), " : Text) ++
    Text.ofNat tally.correlated ++ (" correlated" : Text) ++
    (match channel.fault with
    | some fault => ("; channel fault: " : Text) ++ fault
    | none => [])
  match tally.replies, channel.fault with
  | [], some fault => return .notSent (sent ++ ("; " : Text) ++ fault)
  | [], none =>
    return if 0 < tally.candidates then .invalidResponse diagnostics tally.candidates else .noResponse diagnostics
  | _ :: _, _ =>
    return .answered diagnostics
      { asked, replies := tally.replies, framesSeen, candidates := tally.candidates, rejected, locallyObserved }

/-- Asks every named address of the link to identify itself, over one channel. -/
def sweepLiveness (interface : Text) (network : Ipv4Net) (senderIp : Ipv4Addr) (targets : List Ipv4Addr)
    (interfaceMac : Option Mac) (opened : Except Text LinkChannel) (observer : Option LinkChannel) :
    Outcome ε (AttemptOutcome ArpSweep) :=
  match onLink network senderIp targets, interfaceMac, opened with
  | [], _, _ => .ok (.notApplicable (("no address to ask on " : Text) ++ network.toNet.toText ++
      ("; ARP is link-scoped and resolves nothing beyond it" : Text)))
  | _ :: _, none, _ => .ok (.notSent (interface ++ (" has no hardware address to send from" : Text)))
  | _ :: _, some _, .error reason => .ok (.unavailable reason)
  | target :: others, some mac, .ok channel =>
    match channel.sendAll 0 (queriesFor mac senderIp (target :: others)) with
    | ([], refused) => .ok (.notSent (refused.getD ("no request could be transmitted" : Text)))
    | (sentQueries, _) => listen network mac.octets channel observer sentQueries

/-! ## Candidates -/

/-- The frame is an ARP reply to this hardware address, untagged or behind one tag. -/
def IsCandidate (frame senderMac : Bytes) : Prop :=
  22 ≤ frame.length ∧ frame.take 6 = senderMac ∧
    if word (frame.getD 12 0) (frame.getD 13 0) = 0x8100 then
      24 ≤ frame.length ∧ word (frame.getD 16 0) (frame.getD 17 0) = 0x0806 ∧ readU16 frame 24 = some 2
    else word (frame.getD 12 0) (frame.getD 13 0) = 0x0806 ∧ readU16 frame 20 = some 2

instance decidable_isCandidate (frame senderMac : Bytes) : Decidable (IsCandidate frame senderMac) := by
  unfold IsCandidate
  infer_instance

theorem isCandidateReply_eq (frame senderMac : Bytes) :
    (isCandidateReply frame senderMac : Outcome ε _) = .ok (decide (IsCandidate frame senderMac)) := by
  unfold isCandidateReply
  by_cases hlen : frame.length < 22
  case pos =>
    rw [if_pos hlen, decide_eq_false fun h => absurd h.1 (Nat.not_le_of_lt hlen)]
    rfl
  rw [if_neg hlen, show (6 : Nat) = 0 + 6 from rfl, slice_eq (by omega), ok_bind, List.drop_zero]
  by_cases hdestination : frame.take 6 = senderMac
  case neg =>
    rw [if_pos (by exact hdestination), decide_eq_false fun h => hdestination h.2.1]
    rfl
  rw [if_neg (not_not_intro hdestination), u16At_eq (by omega), ok_bind]
  unfold IsCandidate
  by_cases htagged : word (frame.getD 12 0) (frame.getD 13 0) = 0x8100
  · simp only [if_pos htagged]
    by_cases hshort : frame.length < 24
    · rw [if_pos hshort, decide_eq_false fun h => absurd h.2.2.1 (Nat.not_le_of_lt hshort)]
      rfl
    · rw [if_neg hshort, u16At_eq (by omega), ok_bind]
      simp only [Nat.le_of_not_lt hlen, hdestination, Nat.le_of_not_lt hshort, true_and]
      rfl
  · simp only [if_neg htagged]
    simp only [Nat.le_of_not_lt hlen, hdestination, true_and]
    rfl

/-- The operation of an answer, where the frame has it. -/
theorem AnswersQuery.operation {frame : Bytes} {query : ArpQuery} {k : Nat} (h : AnswersQuery (frame.drop k) query) :
    readU16 frame (k + 6) = some 2 := by
  have hlen := h.long
  rw [List.length_drop] at hlen
  have htwo : ((frame.drop k).drop 6).take 2 = [0x00, 0x02] := by
    have hheader := congrArg (List.drop 6) h.header
    rw [List.drop_take] at hheader
    exact hheader
  rw [List.drop_drop] at htwo
  rw [readU16_eq (by omega), (take_two_iff (by omega) 0x00 0x02).mp htwo]
  rfl

/-- **An answer is a candidate**, however it is tagged. -/
theorem isCandidate_of_parse {frame : Bytes} {query : ArpQuery} {reply : ArpReply}
    (h : parseArpReply frame query = .ok reply) : IsCandidate frame query.senderMac := by
  rcases parseArpReply_eq_ok.mp h with ⟨h, -⟩ | ⟨h, -⟩
  · have hlen := h.arp.long
    rw [List.length_drop] at hlen
    have harp := (take_two_iff (by omega) _ _).mp h.ethertype
    refine ⟨by omega, h.destination, ?_⟩
    rw [harp, if_neg (by decide)]
    exact ⟨rfl, h.arp.operation⟩
  · have hlen := h.arp.long
    rw [List.length_drop] at hlen
    have h8100 : word (frame.getD 12 0) (frame.getD 13 0) = 0x8100 := (take_two_iff (by omega) 0x81 0x00).mp h.tag
    have harp := (take_two_iff (by omega) _ _).mp h.ethertype
    refine ⟨by omega, h.destination, ?_⟩
    rw [if_pos h8100]
    exact ⟨by omega, harp, h.arp.operation⟩

/-- What is accepted is of the address that was asked for. -/
theorem address_of_parse {frame : Bytes} {query : ArpQuery} {reply : ArpReply}
    (h : parseArpReply frame query = .ok reply) : reply.address = query.targetIp := by
  rcases parseArpReply_eq_ok.mp h with ⟨-, rfl⟩ | ⟨-, rfl⟩
  · rfl
  · rfl

/-- The address a packet answers for. -/
theorem AnswersQuery.targetIp_eq {arp : Bytes} {query query' : ArpQuery} (h : AnswersQuery arp query)
    (h' : AnswersQuery arp query') : query.targetIp = query'.targetIp :=
  BitVec.eq_of_toNat_eq (beBytes_inj query.targetIp.isLt query'.targetIp.isLt (h.sender.symm.trans h'.sender))

/-- A frame answers for one address. -/
theorem targetIp_of_parse {frame : Bytes} {query query' : ArpQuery} {reply reply' : ArpReply}
    (h : parseArpReply frame query = .ok reply) (h' : parseArpReply frame query' = .ok reply') :
    query.targetIp = query'.targetIp := by
  have happart : ([0x81, 0x00] : Bytes) ≠ [0x08, 0x06] := by decide
  rcases parseArpReply_eq_ok.mp h with ⟨h, -⟩ | ⟨h, -⟩
  · rcases parseArpReply_eq_ok.mp h' with ⟨h', -⟩ | ⟨h', -⟩
    · exact h.arp.targetIp_eq h'.arp
    · exact absurd (h'.tag.symm.trans h.ethertype) happart
  · rcases parseArpReply_eq_ok.mp h' with ⟨h', -⟩ | ⟨h', -⟩
    · exact absurd (h.tag.symm.trans h'.ethertype) happart
    · exact h.arp.targetIp_eq h'.arp

/-! ## The tally -/

theorem safe_readArpReply (arp : Bytes) (query : ArpQuery) : Safe (fun _ => True) (readArpReply arp query) := by
  refine (safe_require _ _).bind fun _ hlen => (safe_u16At (by omega)).bind fun _ _ => ?_
  refine (safe_require _ _).bind fun _ _ => (safe_u16At (by omega)).bind fun _ _ => ?_
  refine (safe_require _ _).bind fun _ _ => (safe_index (by omega)).bind fun _ _ => ?_
  refine (safe_index (by omega)).bind fun _ _ => (safe_require _ _).bind fun _ _ => ?_
  refine (safe_u16At (by omega)).bind fun _ _ => (safe_require _ _).bind fun _ _ => ?_
  refine (safe_slice (by omega) (by omega)).bind fun senderMac hmac => (safe_ipv4At (by omega)).bind fun _ _ => ?_
  have hsize := length_slice_of_le hmac (by omega)
  refine (safe_slice (by omega) (by omega)).bind fun _ _ => (safe_ipv4At (by omega)).bind fun _ _ => ?_
  refine (safe_require _ _).bind fun _ _ => (safe_require _ _).bind fun _ _ => (safe_require _ _).bind fun _ _ => ?_
  exact (safe_index (by omega)).bind fun _ _ => (safe_require _ _).bind fun _ _ => trivial

theorem safe_parseArpReply (frame : Bytes) (query : ArpQuery) :
    Safe (fun _ => True) (parseArpReply frame query) := by
  have htag (h : 14 ≤ frame.length) : Safe (fun _ => True) (replyTag frame) := by
    refine (safe_u16At (by omega)).bind fun _ _ => ?_
    split
    · refine (safe_require _ _).bind fun _ _ => (safe_u16At (by omega)).bind fun _ _ => ?_
      exact (safe_u16At (by omega)).bind fun _ _ => trivial
    · trivial
  refine (safe_require _ _).bind fun _ hlen => (safe_slice (by omega) (by omega)).bind fun _ _ => ?_
  refine (safe_require _ _).bind fun _ _ => (htag hlen).bind fun tag _ => (safe_require _ _).bind fun _ _ => ?_
  exact (safe_okOr _ _).bind fun arp _ => (safe_readArpReply arp query).bind fun _ _ => trivial

/-- The answer to a query that a frame is, if it is one. -/
def accepted (frame : Bytes) (query : ArpQuery) : Option ArpReply :=
  match parseArpReply frame query with
  | .ok reply => some reply
  | _ => none

theorem accepted_eq_some {frame : Bytes} {query : ArpQuery} {reply : ArpReply} :
    accepted frame query = some reply ↔ parseArpReply frame query = .ok reply := by
  unfold accepted
  cases parseArpReply frame query with
  | ok found => rw [Option.some_inj, Outcome.ok.injEq]
  | err e => exact ⟨nofun, nofun⟩
  | panic => exact ⟨nofun, nofun⟩

/-- A tally with the answers of one frame more. -/
def ArpTally.withAnswers (tally : ArpTally) (answers : List ArpReply) : ArpTally :=
  { tally with replies := answers.foldl recordReply tally.replies, correlated := tally.correlated + answers.length }

theorem correlate_eq (frame : Bytes) (queries : List ArpQuery) (tally : ArpTally) :
    (ArpTally.correlate frame queries tally : Outcome ε _) =
      .ok (tally.withAnswers (queries.filterMap (accepted frame))) := by
  induction queries generalizing tally with
  | nil => rfl
  | cons query queries ih =>
    have hsafe := (safe_parseArpReply frame query).ne_panic
    rw [ArpTally.correlate]
    cases hparse : parseArpReply frame query with
    | ok reply =>
      rw [List.filterMap_cons_some (accepted_eq_some.mpr hparse)]
      show ArpTally.correlate frame queries _ = _
      rw [ih, ArpTally.withAnswers, ArpTally.withAnswers, List.length_cons, List.foldl_cons, Nat.add_assoc,
        Nat.add_comm 1]
    | err e =>
      have hnone : accepted frame query = none := by
        unfold accepted
        rw [hparse]
      rw [List.filterMap_cons_none hnone]
      exact ih tally
    | panic => exact absurd hparse hsafe

/-- A frame answers at most one of several requests for different addresses. -/
theorem length_accepted {queries : List ArpQuery} (hdistinct : (queries.map ArpQuery.targetIp).Nodup) (frame : Bytes) :
    (queries.filterMap (accepted frame)).length =
      if ∃ query ∈ queries, (accepted frame query).isSome then 1 else 0 := by
  induction queries with
  | nil => rfl
  | cons query queries ih =>
    rw [List.map_cons, List.nodup_cons] at hdistinct
    cases haccepted : accepted frame query with
    | none =>
      rw [List.filterMap_cons_none haccepted, ih hdistinct.2]
      simp [haccepted]
    | some reply =>
      have hothers : queries.filterMap (accepted frame) = [] := by
        refine List.filterMap_eq_nil_iff.mpr fun other hother => Option.eq_none_iff_forall_not_mem.mpr fun reply' h' => ?_
        have hsame := targetIp_of_parse (accepted_eq_some.mp haccepted) (accepted_eq_some.mp h')
        exact hdistinct.1 (hsame ▸ List.mem_map_of_mem hother)
      rw [List.filterMap_cons_some haccepted, hothers, if_pos ⟨query, List.mem_cons_self, by rw [haccepted]; rfl⟩]
      rfl

/-- Whether a frame answers one of the requests. -/
def answersOne (queries : List ArpQuery) (frame : Bytes) : Bool := queries.any fun query => (accepted frame query).isSome

/-- The candidates among the frames that answer no request. -/
def unanswering (senderMac : Bytes) (queries : List ArpQuery) (frames : List Bytes) : Nat :=
  frames.countP fun frame =>
    (isCandidateReply frame senderMac : Outcome Unit _) = .ok true ∧ answersOne queries frame = false

theorem countP_split {α : Type} {p q : α → Bool} (h : ∀ a, q a = true → p a = true) (l : List α) :
    l.countP p = l.countP q + l.countP fun a => p a ∧ q a = false := by
  induction l with
  | nil => rfl
  | cons a l ih =>
    rw [List.countP_cons, List.countP_cons, List.countP_cons, ih]
    have ha := h a
    cases hp : p a <;> cases hq : q a <;> simp_all <;> omega

section Run

variable {senderMac : Bytes} {queries : List ArpQuery}

/-- From one tally to another, having heard some frames: they are counted once as candidates and once as answers, and
what is new among the replies is of an address that was asked for. -/
structure Tallies (senderMac : Bytes) (queries : List ArpQuery) (frames : List Bytes) (tally tally' : ArpTally) : Prop where
  candidates : tally'.candidates = tally.candidates + frames.countP fun frame => IsCandidate frame senderMac
  correlated : tally'.correlated = tally.correlated + frames.countP (answersOne queries)
  replies : ∀ reply ∈ tally'.replies, reply ∈ tally.replies ∨ ∃ query ∈ queries, reply.address = query.targetIp
  silent : tally'.replies = [] → tally.replies = [] ∧ frames.countP (answersOne queries) = 0

variable (senderMac) in
/-- One frame. -/
theorem hear_eq (hdistinct : (queries.map ArpQuery.targetIp).Nodup) (tally : ArpTally) (frame : Bytes) :
    ∃ tally', (tally.hear senderMac queries frame : Outcome ε _) = .ok tally' ∧
      Tallies senderMac queries [frame] tally tally' := by
  have hanswers : [frame].countP (answersOne queries) = (queries.filterMap (accepted frame)).length := by
    rw [length_accepted hdistinct, List.countP_singleton]
    simp only [answersOne, List.any_eq_true]
  unfold ArpTally.hear
  rw [isCandidateReply_eq, ok_bind, correlate_eq]
  refine ⟨_, rfl, ?_⟩
  generalize hcounted : (if decide (IsCandidate frame senderMac) = true then
    { tally with candidates := tally.candidates + 1 } else tally) = counted
  have hcandidates : counted.candidates = tally.candidates + [frame].countP fun frame => IsCandidate frame senderMac := by
    rw [← hcounted, List.countP_singleton]
    split <;> rfl
  have hreplies : counted.replies = tally.replies := by
    rw [← hcounted]
    split <;> rfl
  have hcorrelated : counted.correlated = tally.correlated := by
    rw [← hcounted]
    split <;> rfl
  refine ⟨hcandidates, ?_, fun reply hreply => ?_, fun hnone => ?_⟩
  · rw [hanswers]
    exact congrArg (· + _) hcorrelated
  · rcases mem_record hreply with hreply | hreply
    · exact .inl (hreplies ▸ hreply)
    · obtain ⟨query, hquery, haccepted⟩ := List.mem_filterMap.mp hreply
      exact .inr ⟨query, hquery, address_of_parse (accepted_eq_some.mp haccepted)⟩
  · obtain ⟨hbefore, hnew⟩ := record_eq_nil hnone
    rw [hanswers, hnew]
    exact ⟨hreplies ▸ hbefore, rfl⟩

variable (senderMac) in
/-- All frames, one after the other. -/
theorem hearAll_eq (hdistinct : (queries.map ArpQuery.targetIp).Nodup) (frames : List Bytes) (tally : ArpTally) :
    ∃ tally', (ArpTally.hearAll senderMac queries frames tally : Outcome ε _) = .ok tally' ∧
      Tallies senderMac queries frames tally tally' := by
  induction frames generalizing tally with
  | nil => exact ⟨tally, rfl, rfl, rfl, fun _ h => .inl h, fun h => ⟨h, rfl⟩⟩
  | cons frame frames ih =>
    obtain ⟨heard, hheard, hfirst⟩ := hear_eq (ε := ε) senderMac hdistinct tally frame
    obtain ⟨tally', htally', hrest⟩ := ih heard
    have hsplit : ∀ p : Bytes → Bool, (frame :: frames).countP p = [frame].countP p + frames.countP p := fun p => by
      rw [← List.countP_append, List.singleton_append]
    refine ⟨tally', by rw [ArpTally.hearAll, hheard, ok_bind, htally'], ?_, ?_, fun reply hreply => ?_, fun hnone => ?_⟩
    · rw [hrest.candidates, hfirst.candidates, hsplit, Nat.add_assoc]
    · rw [hrest.correlated, hfirst.correlated, hsplit, Nat.add_assoc]
    · rcases hrest.replies reply hreply with hreply | hreply
      · exact hfirst.replies reply hreply
      · exact .inr hreply
    · obtain ⟨hheard, hzero⟩ := hrest.silent hnone
      obtain ⟨htally, hzero'⟩ := hfirst.silent hheard
      exact ⟨htally, by rw [hsplit, hzero, hzero']⟩

/-- An answer to a request of this station is a candidate. -/
theorem isCandidate_of_answersOne (hmac : ∀ query ∈ queries, query.senderMac = senderMac) {frame : Bytes}
    (h : answersOne queries frame = true) : IsCandidate frame senderMac := by
  obtain ⟨query, hquery, hanswer⟩ := List.any_eq_true.mp h
  obtain ⟨reply, hreply⟩ := Option.isSome_iff_exists.mp hanswer
  exact hmac query hquery ▸ isCandidate_of_parse (accepted_eq_some.mp hreply)

/-- **What the sweep counts**: the candidates are the answers and those that answer none. -/
theorem Tallies.rejected (hmac : ∀ query ∈ queries, query.senderMac = senderMac) {frames : List Bytes} {tally : ArpTally}
    (h : Tallies senderMac queries frames {} tally) :
    tally.candidates = tally.correlated + unanswering senderMac queries frames := by
  have hsplit := countP_split (p := fun frame => decide (IsCandidate frame senderMac)) (q := answersOne queries)
    (fun frame hframe => decide_eq_true (isCandidate_of_answersOne hmac hframe)) frames
  rw [h.candidates, h.correlated, Nat.zero_add, Nat.zero_add, hsplit]
  unfold unanswering
  simp only [isCandidateReply_eq, Outcome.ok.injEq]

end Run

/-! ## The requests that were sent -/

section Sent

variable {channel : LinkChannel} {mac : Mac} {senderIp : Ipv4Addr} {addresses : List Ipv4Addr}

/-- What was sent is a first part of what was to be sent. -/
theorem sendAll_start (channel : LinkChannel) (n : Nat) (queries : List ArpQuery) :
    (channel.sendAll n queries).1 <+: queries := by
  induction queries generalizing n with
  | nil => exact List.prefix_refl []
  | cons query queries ih =>
    rw [LinkChannel.sendAll]
    split
    · exact List.prefix_cons_inj query |>.mpr (ih (n + 1))
    · exact List.nil_prefix

theorem targetIp_queriesFor : (queriesFor mac senderIp addresses).map ArpQuery.targetIp = addresses := by
  unfold queriesFor
  rw [List.map_map]
  exact List.map_id _

variable (channel mac senderIp addresses) in
theorem senderMac_of_sent (n : Nat) : ∀ query ∈ (channel.sendAll n (queriesFor mac senderIp addresses)).1,
    query.senderMac = mac.octets := by
  intro query hquery
  obtain ⟨_, -, rfl⟩ := List.mem_map.mp ((sendAll_start channel n _).subset hquery)
  rfl

/-- The addresses asked for are the first of those to ask for. -/
theorem asked_start {n : Nat} :
    (channel.sendAll n (queriesFor mac senderIp addresses)).1.map ArpQuery.targetIp <+: addresses := by
  have h := (sendAll_start channel n (queriesFor mac senderIp addresses)).map ArpQuery.targetIp
  rwa [targetIp_queriesFor] at h

end Sent

/-- The sweep says how many candidates answered none of its requests, and has bindings only of what it asked for. -/
def AccountsFor (senderMac : Bytes) (sentQueries : List ArpQuery) (frames : List Bytes) :
    AttemptOutcome ArpSweep → Prop
  | .answered _ sweep =>
    sweep.asked = sentQueries.map ArpQuery.targetIp ∧ sweep.rejected = unanswering senderMac sentQueries frames ∧
      ∀ reply ∈ sweep.replies, reply.address ∈ sweep.asked
  | .invalidResponse _ rejected => rejected = unanswering senderMac sentQueries frames
  | _ => True

theorem listen_accounts (network : Ipv4Net) {senderMac : Bytes} (channel : LinkChannel) (observer : Option LinkChannel)
    {sentQueries : List ArpQuery} (hmac : ∀ query ∈ sentQueries, query.senderMac = senderMac)
    (hdistinct : (sentQueries.map ArpQuery.targetIp).Nodup) :
    ∃ outcome, (listen network senderMac channel observer sentQueries : Outcome ε _) = .ok outcome ∧
      AccountsFor senderMac sentQueries channel.delivered outcome := by
  obtain ⟨tally, htally, hheard⟩ := hearAll_eq (ε := ε) senderMac hdistinct channel.delivered {}
  have hcount := hheard.rejected hmac
  unfold listen
  simp only [htally, ok_bind]
  split
  · exact ⟨_, rfl, trivial⟩
  case h_2 hnone hfault =>
    refine ⟨_, rfl, ?_⟩
    split
    · have hzero := (hheard.silent hnone).2
      have hcorrelated : tally.correlated = 0 := by rw [hheard.correlated, hzero]
      show tally.candidates = _
      omega
    · trivial
  case h_3 first others hreplies =>
    refine ⟨_, rfl, rfl, ?_, fun reply hreply => ?_⟩
    · show tally.candidates - tally.correlated = _
      omega
    · obtain ⟨query, hquery, haddress⟩ := (hheard.replies reply hreply).resolve_left List.not_mem_nil
      rw [haddress]
      exact List.mem_map_of_mem hquery

/-- **Answers, candidates and what is rejected.** A frame is accepted exactly if it answers the query, untagged or
behind one tag; it is a candidate then. So a sweep over different addresses counts as rejected just the candidates that
answer none of its requests, with nothing to saturate, and what it binds it has asked for. -/
theorem arp_correlation :
    (∀ frame query, (∃ reply, parseArpReply frame query = .ok reply) ↔
      AnswersUntagged frame query ∨ AnswersTagged frame query) ∧
    (∀ frame query reply, parseArpReply frame query = .ok reply →
      (isCandidateReply frame query.senderMac : Outcome Empty _) = .ok true) ∧
    (∀ (senderMac : Bytes) (sentQueries : List ArpQuery) (frames : List Bytes),
      (∀ query ∈ sentQueries, query.senderMac = senderMac) → (sentQueries.map ArpQuery.targetIp).Nodup →
      ∃ tally, (ArpTally.hearAll senderMac sentQueries frames {} : Outcome Empty _) = .ok tally ∧
        tally.correlated ≤ tally.candidates ∧
        tally.candidates - tally.correlated = unanswering senderMac sentQueries frames) ∧
    ∀ (interface : Text) (network : Ipv4Net) (senderIp : Ipv4Addr) (targets : List Ipv4Addr) (mac : Mac)
      (channel : LinkChannel) (observer : Option LinkChannel), targets.Nodup →
      ∃ sentQueries outcome, sentQueries.map ArpQuery.targetIp <+: onLink network senderIp targets ∧
        (sweepLiveness interface network senderIp targets (some mac) (.ok channel) observer : Outcome Empty _) =
          .ok outcome ∧
        AccountsFor mac.octets sentQueries channel.delivered outcome := by
  refine ⟨fun frame query => ?_, fun frame query reply h => ?_, fun senderMac sentQueries frames hmac hdistinct => ?_,
    fun interface network senderIp targets mac channel observer hnodup => ?_⟩
  · simp only [parseArpReply_eq_ok, exists_or, exists_and_left, exists_eq, and_true]
  · rw [isCandidateReply_eq, decide_eq_true (isCandidate_of_parse h)]
  · obtain ⟨tally, htally, hheard⟩ := hearAll_eq (ε := Empty) senderMac hdistinct frames {}
    have hcount := hheard.rejected hmac
    exact ⟨tally, htally, by omega, by omega⟩
  · unfold sweepLiveness
    cases hasked : onLink network senderIp targets with
    | nil => exact ⟨[], _, List.prefix_refl [], rfl, trivial⟩
    | cons target others =>
      have hfirst : ((channel.sendAll 0 (queriesFor mac senderIp (target :: others))).1.map ArpQuery.targetIp) <+:
          target :: others := asked_start
      have hdistinct : (target :: others).Nodup := hasked ▸ hnodup.filter _
      have hmac := senderMac_of_sent channel mac senderIp (target :: others) 0
      dsimp only
      generalize channel.sendAll 0 (queriesFor mac senderIp (target :: others)) = sent at hfirst hmac
      obtain ⟨sentQueries, refused⟩ := sent
      cases sentQueries with
      | nil => exact ⟨[], _, hfirst, rfl, trivial⟩
      | cons query queries =>
        obtain ⟨outcome, houtcome, haccounts⟩ :=
          listen_accounts (ε := Empty) network channel observer hmac (hfirst.sublist.nodup hdistinct)
        exact ⟨query :: queries, outcome, hfirst, houtcome, haccounts⟩

/-! ### A reply from a group address -/

/-- The frame is an untagged ARP reply of which every address is the exchange's, whatever the station it names. -/
structure MatchesExchange (frame : Bytes) (query : ArpQuery) : Prop where
  destination : frame.take 6 = query.senderMac
  source : (frame.drop 6).take 6 = (frame.drop 22).take 6
  ethertype : (frame.drop 12).take 2 = [0x08, 0x06]
  long : 28 ≤ (frame.drop 14).length
  header : (frame.drop 14).take 8 = [0x00, 0x01, 0x08, 0x00, 6, 4, 0x00, 0x02]
  sender : (frame.drop 28).take 4 = beBytes 4 query.targetIp.toNat
  targetMac : (frame.drop 32).take 6 = query.senderMac
  target : (frame.drop 38).take 4 = beBytes 4 query.senderIp.toNat

/-- Station 02:11:22:33:44:55 asks for 192.168.1.1. -/
def whoHas : ArpQuery where
  senderMac := [0x02, 0x11, 0x22, 0x33, 0x44, 0x55]
  senderIp := .new 192 168 1 10
  targetIp := .new 192 168 1 1
  hardware := rfl

/-- 192.168.1.1 is said to be at 01:00:5e:00:00:fb. -/
def groupReply : Bytes :=
  [0x02, 0x11, 0x22, 0x33, 0x44, 0x55, 0x01, 0x00, 0x5e, 0x00, 0x00, 0xfb, 0x08, 0x06, 0x00, 0x01, 0x08, 0x00, 6, 4,
   0x00, 0x02, 0x01, 0x00, 0x5e, 0x00, 0x00, 0xfb, 192, 168, 1, 1, 0x02, 0x11, 0x22, 0x33, 0x44, 0x55, 192, 168, 1, 10]

theorem group_reply_refused :
    MatchesExchange groupReply whoHas ∧ ¬ ∃ reply, parseArpReply groupReply whoHas = .ok reply := by
  refine ⟨⟨by decide, by decide, by decide, by decide, by decide, by decide, by decide, by decide⟩, ?_⟩
  rintro ⟨reply, h⟩
  rcases parseArpReply_eq_ok.mp h with ⟨h, -⟩ | ⟨h, -⟩
  · exact absurd h.arp.station.1 (by decide)
  · exact absurd h.tag (by decide)

end Idnx
