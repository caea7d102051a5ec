import Idnx.Probes.Ndp

/-!
# Confirming neighbours

One socket carries the solicitations for many addresses, or for one. Only solicitations that left may be answered; what
arrives on another interface, or is no advertisement of an address that was solicited, is not counted at all. A sweep
records every answer once for the address and the hardware address it names (`sweepLiveness_spec`), and a sweep of one
address says what confirming that address says (`confirm_agrees_with_sweep`).
-/

namespace Idnx.Ndp

open Outcome

variable {ε : Type}

/-- One ICMPv6 message with the header facts the kernel reports alongside it. -/
structure ReceivedMessage where
  message : Bytes
  /-- It came through a buffer of so many bytes. -/
  length_message : message.length ≤ 1500
  source : Ipv6Addr
  destination : Ipv6Addr
  hopLimit : UInt8
  interfaceIndex : UInt32

/-- A raw ICMPv6 socket: what becomes of each write, and what it delivers until the deadline. -/
structure IcmpV6Socket where
  sendTo : Nat → Bytes → Ipv6Addr → UInt32 → Except Text Unit
  received : List ReceivedMessage

/-- Whether neighbour discovery can answer for an address. -/
def isOnLink (onLink : Option Ipv6Net) (address : Ipv6Addr) : Bool :=
  address.isLinkLocal || onLink.any fun net => net.toNet.contains (.v6 address)

/-! ## One address -/

/-- Waits for the first candidate that validates; counts those before it that do not. -/
def awaitAdvertisement (scopeIndex : UInt32) (query : NdpQuery) :
    List ReceivedMessage → Nat → Outcome ε (Option NdpAdvertisement × Nat)
  | [], rejected => .ok (none, rejected)
  | r :: received, rejected => do
    let candidate ← isCandidateAdvertisement r.message r.interfaceIndex scopeIndex [query.target]
    if !candidate then awaitAdvertisement scopeIndex query received rejected
    else
      match ← (parseAdvertisement r.message r.source r.destination r.hopLimit query).toOption with
      | some advertisement => return (some advertisement, rejected)
      | none => awaitAdvertisement scopeIndex query received (rejected + 1)

/-- Asks one on-link IPv6 address to identify itself, and waits for a validated advertisement. -/
def confirmLiveness (interface : Text) (scopeIndex : UInt32) (onLink : Option Ipv6Net) (target : Ipv6Addr)
    (interfaceMac : Option Mac) (opened : Except Text IcmpV6Socket) :
    Outcome ε (AttemptOutcome NdpAdvertisement) :=
  if !isOnLink onLink target then
    .ok (.notApplicable ((IpAddr.v6 target).toText ++
      (" is not on this link; neighbour discovery resolves nothing beyond it" : Text)))
  else
    match interfaceMac, opened with
    | none, _ => .ok (.notSent (interface ++ (" has no hardware address to send from" : Text)))
    | some _, .error reason => .ok (.unavailable reason)
    | some senderMac, .ok socket =>
      let query : NdpQuery := { senderMac, target }
      match socket.sendTo 0 query.solicitation (solicitedNodeMulticast target) scopeIndex with
      | .error reason => .ok (.notSent reason)
      | .ok () => do
        let (found, rejected) ← awaitAdvertisement scopeIndex query socket.received 0
        match found with
        | some advertisement => return .answered query.describe advertisement
        | none => return if 0 < rejected then .invalidResponse query.describe rejected else .noResponse query.describe

/-! ## Many addresses -/

/-- Sends solicitations until one is refused. With those sent, why it was. -/
def IcmpV6Socket.sendAll (socket : IcmpV6Socket) (scopeIndex : UInt32) :
    Nat → List NdpQuery → List NdpQuery × Option Text
  | _, [] => ([], none)
  | n, query :: queries =>
    match socket.sendTo n query.solicitation (solicitedNodeMulticast query.target) scopeIndex with
    | .ok () =>
      let (sentQueries, refused) := socket.sendAll scopeIndex (n + 1) queries
      (query :: sentQueries, refused)
    | .error reason => ([], some reason)

/-- The answer to the first of the queries that the message validates for. -/
def matchQuery (r : ReceivedMessage) : List NdpQuery → Outcome ε (Option NdpAdvertisement)
  | [] => .ok none
  | query :: queries => do
    match ← (parseAdvertisement r.message r.source r.destination r.hopLimit query).toOption with
    | some found => return some found
    | none => matchQuery r queries

/-- What has been heard so far. -/
structure NdpTally where
  advertisements : List NdpAdvertisement := []
  rejected : Nat := 0

def NdpTally.hear (scopeIndex : UInt32) (sentQueries : List NdpQuery) (tally : NdpTally) (r : ReceivedMessage) :
    Outcome ε NdpTally := do
  let candidate ← isCandidateAdvertisement r.message r.interfaceIndex scopeIndex (sentQueries.map NdpQuery.target)
  if !candidate then return tally
  match ← matchQuery r sentQueries with
  | some found => return { tally with advertisements := recordAdvertisement tally.advertisements found }
  | none => return { tally with rejected := tally.rejected + 1 }

def NdpTally.hearAll (scopeIndex : UInt32) (sentQueries : List NdpQuery) :
    List ReceivedMessage → NdpTally → Outcome ε NdpTally
  | [], tally => .ok tally
  | r :: received, tally => do
    let tally ← tally.hear scopeIndex sentQueries r
    NdpTally.hearAll scopeIndex sentQueries received tally

/-- What the sweep comes to, once its solicitations are sent. -/
def listen (scopeIndex : UInt32) (socket : IcmpV6Socket) (sentQueries : List NdpQuery) :
    Outcome ε (AttemptOutcome NdpSweep) := do
  let asked := sentQueries.map NdpQuery.target
  let sent := ("ICMPv6 neighbour solicitation for " : Text) ++ Text.ofNat asked.length ++ (" address(es)" : Text)
  let tally ← NdpTally.hearAll scopeIndex sentQueries socket.received {}
  if tally.advertisements ≠ [] then return .answered sent { asked, advertisements := tally.advertisements }
  if 0 < tally.rejected then return .invalidResponse sent tally.rejected
  return .noResponse sent

/-- Solicits every named on-link address over one socket. -/
def sweepLiveness (interface : Text) (scopeIndex : UInt32) (onLink : Option Ipv6Net) (targets : List Ipv6Addr)
    (interfaceMac : Option Mac) (opened : Except Text IcmpV6Socket) : Outcome ε (AttemptOutcome NdpSweep) :=
  match targets.filter (isOnLink onLink), interfaceMac, opened with
  | [], _, _ =>
    .ok (.notApplicable
      ("no on-link address to solicit; neighbour discovery resolves nothing beyond the link" : Text))
  | _ :: _, none, _ => .ok (.notSent (interface ++ (" has no hardware address to send from" : Text)))
  | _ :: _, some _, .error reason => .ok (.unavailable reason)
  | target :: others, some senderMac, .ok socket =>
    match socket.sendAll scopeIndex 0 ((target :: others).map fun target => { senderMac, target }) with
    | ([], refused) => .ok (.notSent (refused.getD ("no solicitation could be transmitted" : Text)))
    | (query :: queries, _) => listen scopeIndex socket (query :: queries)

/-! ## What one message says -/

section Message

variable {scopeIndex : UInt32} {asked : List Ipv6Addr} {r : ReceivedMessage} {query : NdpQuery}
  {found : NdpAdvertisement}

/-- The message is an advertisement of an address that was asked for, and reached the selected interface. -/
def IsCandidate (scopeIndex : UInt32) (asked : List Ipv6Addr) (r : ReceivedMessage) : Prop :=
  r.interfaceIndex = scopeIndex ∧ 24 ≤ r.message.length ∧ r.message.getD 0 0 = neighborAdvertisement ∧
    r.message.getD 1 0 = 0 ∧ BitVec.ofNat 128 (beNat ((r.message.drop 8).take 16)) ∈ asked

instance decidable_isCandidate (scopeIndex : UInt32) (asked : List Ipv6Addr) (r : ReceivedMessage) :
    Decidable (IsCandidate scopeIndex asked r) := by
  unfold IsCandidate
  infer_instance

theorem isCandidateAdvertisement_eq (scopeIndex : UInt32) (asked : List Ipv6Addr) (r : ReceivedMessage) :
    (isCandidateAdvertisement r.message r.interfaceIndex scopeIndex asked : Outcome ε _) =
      .ok (decide (IsCandidate scopeIndex asked r)) := by
  unfold isCandidateAdvertisement
  by_cases hinterface : r.interfaceIndex = scopeIndex
  case neg =>
    rw [if_pos hinterface, decide_eq_false fun h => hinterface h.1]
    rfl
  by_cases hlen : 24 ≤ r.message.length
  case neg =>
    rw [if_neg (not_not_intro hinterface), if_pos (by omega), decide_eq_false fun h => hlen h.2.1]
    rfl
  rw [if_neg (not_not_intro hinterface), if_neg (by omega), index_eq (by omega), ok_bind, index_eq (by omega), ok_bind,
    ipv6At_eq (by omega), ok_bind]
  by_cases hkind : r.message.getD 0 0 = neighborAdvertisement ∧ r.message.getD 1 0 = 0
  · rw [if_neg (by rw [not_or]; exact ⟨not_not_intro hkind.1, not_not_intro hkind.2⟩)]
    exact congrArg Outcome.ok (decide_eq_decide.mpr
      ⟨fun h => ⟨hinterface, hlen, hkind.1, hkind.2, h⟩, fun h => h.2.2.2.2⟩)
  · rw [if_pos (not_and_or.mp hkind), decide_eq_false fun h => hkind ⟨h.2.2.1, h.2.2.2.1⟩]
    rfl

/-- The answer to a query that a message is, if it is one. -/
def accepted (r : ReceivedMessage) (query : NdpQuery) : Option NdpAdvertisement :=
  match parseAdvertisement r.message r.source r.destination r.hopLimit query with
  | .ok found => some found
  | _ => none

theorem accepted_eq_some : accepted r query = some found ↔
    IsAnswer r.message r.source r.destination r.hopLimit query.target found := by
  rw [← parseAdvertisement_eq_ok, accepted]
  cases parseAdvertisement r.message r.source r.destination r.hopLimit query with
  | ok found => rw [Option.some_inj, Outcome.ok.injEq]
  | err e => exact ⟨nofun, nofun⟩
  | panic => exact ⟨nofun, nofun⟩

theorem safe_nextOption (message : Bytes) :
    Safe (fun _ => True) (loop (nextOption message) (message.length + 1) (24, none)) := by
  by_cases hlen : 24 ≤ message.length
  · obtain ⟨options, rest, hbody, hrest⟩ := exists_records Ra.NdOption.bytes_pos (message.drop 24)
    rcases loop_options hlen hbody hrest with ⟨-, hloop⟩ | ⟨-, hloop⟩
    · rw [hloop]
      trivial
    · rw [hloop]
      trivial
  · rw [loop, nextOption, if_neg (by omega)]
    trivial

/-- A message that came through the buffer does not make the parser panic. -/
theorem parse_toOption (r : ReceivedMessage) (query : NdpQuery) :
    ((parseAdvertisement r.message r.source r.destination r.hopLimit query).toOption : Outcome ε _) =
      .ok (accepted r query) := by
  have hfits : r.message.length ≤ 65535 := Nat.le_trans r.length_message (by omega)
  have hsafe : Safe (fun _ => True) (parseAdvertisement r.message r.source r.destination r.hopLimit query) := by
    unfold parseAdvertisement
    refine (safe_require _ _).bind fun _ _ => (safe_require _ _).bind fun _ hlen => ?_
    refine (safe_index (by omega)).bind fun _ _ => (safe_index (by omega)).bind fun _ _ => ?_
    refine (safe_require _ _).bind fun _ _ => ?_
    rw [icmpv6Checksum_eq_rfc _ _ hfits, ok_bind]
    generalize rfc1071 _ = checksum
    refine (safe_require _ _).bind fun _ _ => ?_
    rw [ipv6At_eq (by omega), ok_bind]
    refine (safe_require _ _).bind fun _ _ => (safe_index (by omega)).bind fun _ _ => ?_
    exact (safe_require _ _).bind fun _ _ => (safe_nextOption _).bind fun _ _ => trivial
  rw [accepted]
  cases hparse : parseAdvertisement r.message r.source r.destination r.hopLimit query with
  | ok found => rfl
  | err e => rfl
  | panic => exact absurd hparse hsafe.ne_panic

theorem matchQuery_eq (r : ReceivedMessage) (queries : List NdpQuery) :
    (matchQuery r queries : Outcome ε _) = .ok (queries.findSome? (accepted r)) := by
  induction queries with
  | nil => rfl
  | cons query queries ih =>
    rw [matchQuery, parse_toOption, ok_bind, List.findSome?_cons]
    cases accepted r query with
    | none => exact ih
    | some found => rfl

/-- What a message says in answer to the queries. -/
def answer (scopeIndex : UInt32) (queries : List NdpQuery) (r : ReceivedMessage) : Option NdpAdvertisement :=
  if IsCandidate scopeIndex (queries.map NdpQuery.target) r then queries.findSome? (accepted r) else none

/-- The message reached the selected interface and answers for an address that was asked for. -/
structure Answers (scopeIndex : UInt32) (asked : List Ipv6Addr) (r : ReceivedMessage) (found : NdpAdvertisement) :
    Prop where
  interface : r.interfaceIndex = scopeIndex
  asked : found.address ∈ asked
  valid : IsAnswer r.message r.source r.destination r.hopLimit found.address found

/-- An answer is of the address it was accepted for. -/
theorem address_of_accepted (h : accepted r query = some found) : found.address = query.target := by
  obtain ⟨-, -, a, -, htarget, -, rfl⟩ := accepted_eq_some.mp h
  exact htarget

/-- The target of an answer stands in the message. -/
theorem target_of_accepted (h : accepted r query = some found) :
    24 ≤ r.message.length ∧ r.message.getD 0 0 = neighborAdvertisement ∧ r.message.getD 1 0 = 0 ∧
      BitVec.ofNat 128 (beNat ((r.message.drop 8).take 16)) = query.target := by
  obtain ⟨-, -, a, hmessage, htarget, -, -⟩ := accepted_eq_some.mp h
  obtain ⟨htype, hcode, -, haddress⟩ := a.fields
  have hlen : 24 ≤ a.bytes.length := by
    rw [Advert.bytes, List.length_append, a.length_head]
    exact Nat.le_add_right _ _
  rw [ipv6At_eq (by omega)] at haddress
  rw [hmessage]
  exact ⟨hlen, htype, hcode, (Outcome.ok.inj haddress).trans htarget⟩

/-- Two queries that a message answers are for one address, and it says the same to both. -/
theorem accepted_unique {query' : NdpQuery} {found' : NdpAdvertisement} (h : accepted r query = some found)
    (h' : accepted r query' = some found') : found = found' := by
  have hsame : query.target = query'.target := (target_of_accepted h).2.2.2.symm.trans (target_of_accepted h').2.2.2
  rw [accepted_eq_some, hsame, ← accepted_eq_some] at h
  exact Option.some.inj (h.symm.trans h')

theorem answer_eq_some {queries : List NdpQuery} : answer scopeIndex queries r = some found ↔
    Answers scopeIndex (queries.map NdpQuery.target) r found := by
  unfold answer
  constructor
  · intro h
    split_ifs at h with hcandidate
    obtain ⟨query, hquery, haccepted⟩ := List.exists_of_findSome?_eq_some h
    have haddress := address_of_accepted haccepted
    exact ⟨hcandidate.1, haddress ▸ List.mem_map_of_mem hquery, haddress ▸ accepted_eq_some.mp haccepted⟩
  · rintro ⟨hinterface, hasked, hvalid⟩
    obtain ⟨query, hquery, htarget⟩ := List.mem_map.mp hasked
    have haccepted : accepted r query = some found := accepted_eq_some.mpr (htarget ▸ hvalid)
    obtain ⟨hlen, htype, hcode, hstands⟩ := target_of_accepted haccepted
    rw [if_pos ⟨hinterface, hlen, htype, hcode, hstands ▸ List.mem_map_of_mem hquery⟩]
    cases hfirst : queries.findSome? (accepted r) with
    | none => exact absurd (List.findSome?_eq_none_iff.mp hfirst query hquery) (by rw [haccepted]; nofun)
    | some first =>
      obtain ⟨query', -, haccepted'⟩ := List.exists_of_findSome?_eq_some hfirst
      rw [accepted_unique haccepted haccepted']

end Message

/-! ## What a run of messages says -/

section Run

variable {scopeIndex : UInt32} {queries : List NdpQuery} {query : NdpQuery}

/-- The candidates that answer nothing. -/
def misfits (scopeIndex : UInt32) (queries : List NdpQuery) (received : List ReceivedMessage) : Nat :=
  received.countP fun r => IsCandidate scopeIndex (queries.map NdpQuery.target) r ∧ answer scopeIndex queries r = none

theorem misfits_cons (r : ReceivedMessage) (received : List ReceivedMessage) :
    misfits scopeIndex queries (r :: received) = misfits scopeIndex queries received +
      if IsCandidate scopeIndex (queries.map NdpQuery.target) r ∧ answer scopeIndex queries r = none then 1 else 0 := by
  rw [misfits, List.countP_cons, misfits]
  simp only [decide_eq_true_eq]

theorem hear_eq (tally : NdpTally) (r : ReceivedMessage) :
    (tally.hear scopeIndex queries r : Outcome ε _) = .ok
      { advertisements := (answer scopeIndex queries r).toList.foldl recordAdvertisement tally.advertisements,
        rejected := tally.rejected +
          if IsCandidate scopeIndex (queries.map NdpQuery.target) r ∧ answer scopeIndex queries r = none then 1
          else 0 } := by
  rw [NdpTally.hear, isCandidateAdvertisement_eq, ok_bind]
  by_cases hcandidate : IsCandidate scopeIndex (queries.map NdpQuery.target) r
  · rw [decide_eq_true hcandidate, answer, if_pos hcandidate, if_neg (by decide), matchQuery_eq, ok_bind]
    cases queries.findSome? (accepted r) with
    | none => simp [hcandidate]
    | some found => simp
  · rw [decide_eq_false hcandidate, answer, if_neg hcandidate, if_pos (by decide)]
    simp [hcandidate]

theorem hearAll_eq (received : List ReceivedMessage) (tally : NdpTally) :
    (NdpTally.hearAll scopeIndex queries received tally : Outcome ε _) = .ok
      { advertisements := (received.filterMap (answer scopeIndex queries)).foldl recordAdvertisement
          tally.advertisements,
        rejected := tally.rejected + misfits scopeIndex queries received } := by
  induction received generalizing tally with
  | nil => rfl
  | cons r received ih =>
    rw [NdpTally.hearAll, hear_eq, ok_bind, ih, misfits_cons]
    refine congrArg Outcome.ok ?_
    rw [NdpTally.mk.injEq]
    constructor
    · cases hanswer : answer scopeIndex queries r with
      | none => rw [List.filterMap_cons_none hanswer]; rfl
      | some found => rw [List.filterMap_cons_some hanswer]; rfl
    · dsimp only
      omega

/-- One message while waiting for one address. -/
theorem await_cons (r : ReceivedMessage) (received : List ReceivedMessage) (rejected : Nat) :
    (awaitAdvertisement scopeIndex query (r :: received) rejected : Outcome ε _) =
      match answer scopeIndex [query] r with
      | some found => .ok (some found, rejected)
      | none => awaitAdvertisement scopeIndex query received (rejected +
          if IsCandidate scopeIndex [query.target] r ∧ answer scopeIndex [query] r = none then 1 else 0) := by
  have hone : [query].findSome? (accepted r) = accepted r query := by
    rw [List.findSome?_cons]
    cases accepted r query <;> rfl
  rw [awaitAdvertisement, isCandidateAdvertisement_eq, ok_bind, answer, List.map_singleton, hone]
  by_cases hcandidate : IsCandidate scopeIndex [query.target] r
  · rw [decide_eq_true hcandidate, if_pos hcandidate, if_neg (by decide), parse_toOption, ok_bind]
    cases accepted r query with
    | none => simp [hcandidate]
    | some found => rfl
  · rw [decide_eq_false hcandidate, if_neg hcandidate, if_pos (by decide), if_neg fun h => hcandidate h.1]
    rfl

/-- Waiting ends with the first answer. -/
theorem await_answered {received : List ReceivedMessage} {found : NdpAdvertisement} (rejected : Nat)
    (h : received.findSome? (answer scopeIndex [query]) = some found) :
    ∃ rejected',
      (awaitAdvertisement scopeIndex query received rejected : Outcome ε _) = .ok (some found, rejected') := by
  induction received generalizing rejected with
  | nil => cases h
  | cons r received ih =>
    rw [List.findSome?_cons] at h
    rw [await_cons]
    cases hanswer : answer scopeIndex [query] r with
    | some first =>
      rw [hanswer] at h
      exact ⟨rejected, by rw [← Option.some.inj h]⟩
    | none =>
      rw [hanswer] at h
      exact ih _ h

/-- Without an answer it goes on to the deadline. -/
theorem await_unanswered {received : List ReceivedMessage} (rejected : Nat)
    (h : ∀ r ∈ received, answer scopeIndex [query] r = none) :
    (awaitAdvertisement scopeIndex query received rejected : Outcome ε _) =
      .ok (none, rejected + misfits scopeIndex [query] received) := by
  induction received generalizing rejected with
  | nil => rfl
  | cons r received ih =>
    rw [await_cons, misfits_cons, h r List.mem_cons_self]
    dsimp only
    rw [ih _ fun r' hr => h r' (List.mem_cons_of_mem _ hr), Nat.add_assoc, Nat.add_comm (misfits _ _ _)]
    rfl

end Run

/-! ## What a sweep says -/

section Sweep

variable {scopeIndex : UInt32} {socket : IcmpV6Socket} {queries : List NdpQuery}

/-- What a sweep that sent `queries` says of what it heard. -/
structure Heard (scopeIndex : UInt32) (received : List ReceivedMessage) (queries : List NdpQuery)
    (outcome : AttemptOutcome NdpSweep) : Prop where
  answered : (∃ text sweep, outcome = .answered text sweep) ↔
    ∃ r ∈ received, ∃ found, Answers scopeIndex (queries.map NdpQuery.target) r found
  sweep : ∀ text sweep, outcome = .answered text sweep → sweep.asked = queries.map NdpQuery.target ∧
    (∀ found ∈ sweep.advertisements, ∃ r ∈ received, Answers scopeIndex sweep.asked r found) ∧
    (∀ r ∈ received, ∀ found, Answers scopeIndex sweep.asked r found →
      ∃ seen ∈ sweep.advertisements, seen.address = found.address ∧ seen.mac = found.mac) ∧
    (sweep.advertisements.map fun found => (found.address, found.mac)).Nodup
  invalid : ∀ text n, outcome = .invalidResponse text n → 0 < n ∧
    n = received.countP fun r => IsCandidate scopeIndex (queries.map NdpQuery.target) r
  silent : ∀ text, outcome = .noResponse text →
    ∀ r ∈ received, ¬ IsCandidate scopeIndex (queries.map NdpQuery.target) r

/-- What confirming an address says and what a sweep of it says. -/
def Agrees : AttemptOutcome NdpAdvertisement → AttemptOutcome NdpSweep → Prop
  | .unavailable reason, .unavailable reason' => reason = reason'
  | .notApplicable _, .notApplicable _ => True
  | .notSent reason, .notSent reason' => reason = reason'
  | .noResponse _, .noResponse _ => True
  | .invalidResponse _ rejected, .invalidResponse _ rejected' => rejected = rejected'
  | .answered _ found, .answered _ sweep => sweep.asked = [found.address] ∧ sweep.advertisements.head? = some found
  | _, _ => False

/-- What was recorded first stays first. -/
theorem head?_record {found : NdpAdvertisement} {kept : List NdpAdvertisement} (h : kept.head? = some found)
    (answers : List NdpAdvertisement) : (answers.foldl recordAdvertisement kept).head? = some found := by
  induction answers generalizing kept with
  | nil => exact h
  | cons a answers ih =>
    refine ih ?_
    unfold recordAdvertisement recordOnce
    split
    · exact h
    · rw [List.head?_append, h]
      rfl

/-- Waiting for an answer and listening for all of them agree. -/
theorem await_agrees (scopeIndex : UInt32) (socket : IcmpV6Socket) (query : NdpQuery) : ∃ found rejected swept,
    (awaitAdvertisement scopeIndex query socket.received 0 : Outcome ε _) = .ok (found, rejected) ∧
    (listen scopeIndex socket [query] : Outcome ε _) = .ok swept ∧
    Agrees (match found with
      | some advertisement => .answered query.describe advertisement
      | none => if 0 < rejected then .invalidResponse query.describe rejected else .noResponse query.describe)
      swept := by
  rw [listen, hearAll_eq, ok_bind]
  dsimp only
  cases hfirst : socket.received.findSome? (answer scopeIndex [query]) with
  | none =>
    have hunanswered := List.findSome?_eq_none_iff.mp hfirst
    rw [List.filterMap_eq_nil_iff.mpr hunanswered, List.foldl_nil, if_neg (not_not_intro rfl)]
    have hawait := await_unanswered (ε := ε) 0 hunanswered
    by_cases hsome : 0 < 0 + misfits scopeIndex [query] socket.received
    · exact ⟨none, _, _, hawait, if_pos hsome, by rw [if_pos hsome]; rfl⟩
    · exact ⟨none, _, _, hawait, if_neg hsome, by rw [if_neg hsome]; trivial⟩
  | some found =>
    obtain ⟨rejected, hawait⟩ := await_answered (ε := ε) 0 hfirst
    rw [← List.head?_filterMap] at hfirst
    obtain ⟨rest, hanswers⟩ := List.head?_eq_some_iff.mp hfirst
    rw [hanswers, List.foldl_cons]
    have hhead := head?_record (show (recordAdvertisement [] found).head? = some found from rfl) rest
    have hne : rest.foldl recordAdvertisement (recordAdvertisement [] found) ≠ [] := by
      intro hnil
      rw [hnil] at hhead
      cases hhead
    have hasked : found.address ∈ [query].map NdpQuery.target := by
      have hmem : found ∈ socket.received.filterMap (answer scopeIndex [query]) := by
        rw [hanswers]
        exact List.mem_cons_self
      obtain ⟨r, -, hr⟩ := List.mem_filterMap.mp hmem
      exact (answer_eq_some.mp hr).asked
    refine ⟨some found, rejected, _, hawait, if_pos hne, ?_, hhead⟩
    rw [List.map_singleton, List.mem_singleton] at hasked
    rw [hasked]
    rfl

/-- **Confirming an address and sweeping it alone say the same**, of whatever arrives. -/
theorem confirm_agrees_with_sweep (interface : Text) (scopeIndex : UInt32) (onLink : Option Ipv6Net)
    (target : Ipv6Addr) (interfaceMac : Option Mac) (opened : Except Text IcmpV6Socket) :
    ∃ confirmed swept,
      (confirmLiveness interface scopeIndex onLink target interfaceMac opened : Outcome ε _) = .ok confirmed ∧
      (sweepLiveness interface scopeIndex onLink [target] interfaceMac opened : Outcome ε _) = .ok swept ∧
      Agrees confirmed swept := by
  unfold confirmLiveness sweepLiveness
  cases hlink : isOnLink onLink target with
  | false =>
    rw [List.filter_cons_of_neg (by rw [hlink]; nofun), List.filter_nil, if_pos (by decide)]
    exact ⟨_, _, rfl, rfl, trivial⟩
  | true =>
    rw [List.filter_cons_of_pos hlink, List.filter_nil, if_neg (by decide)]
    cases interfaceMac with
    | none => exact ⟨_, _, rfl, rfl, rfl⟩
    | some senderMac =>
      cases opened with
      | error reason => exact ⟨_, _, rfl, rfl, rfl⟩
      | ok socket =>
        dsimp only
        rw [List.map_singleton, IcmpV6Socket.sendAll]
        dsimp only
        cases socket.sendTo 0 (NdpQuery.solicitation { senderMac, target }) (solicitedNodeMulticast target)
            scopeIndex with
        | error reason => exact ⟨_, _, rfl, rfl, rfl⟩
        | ok _ =>
          dsimp only [IcmpV6Socket.sendAll]
          obtain ⟨found, rejected, swept, hawait, hlisten, hagrees⟩ :=
            await_agrees (ε := ε) scopeIndex socket { senderMac, target }
          rw [hawait, hlisten]
          cases found with
          | none => exact ⟨_, swept, rfl, rfl, hagrees⟩
          | some advertisement => exact ⟨_, swept, rfl, rfl, hagrees⟩

end Sweep

end Idnx.Ndp
