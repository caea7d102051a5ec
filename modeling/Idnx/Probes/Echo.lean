import Idnx.Probes.ArpSweep
import Idnx.Probes.Path

/-!
# Asking one address for an echo

An echo is answered by the Echo Reply to it that comes from the address that was asked, with or without an IP header in
front, and by nothing else (`echo_answered_iff`). A socket that would not open, an echo that was not sent and silence
are told apart.
-/

namespace Idnx

/-- Whether a request actually reached the wire. -/
def AttemptOutcome.transmitted {α : Type} : AttemptOutcome α → Bool
  | .noResponse _ => true
  | .invalidResponse _ _ => true
  | .answered _ _ => true
  | _ => false

/-- The validated reply, if there was one. -/
def AttemptOutcome.result {α : Type} : AttemptOutcome α → Option α
  | .answered _ result => some result
  | _ => none

/-- Why nothing was transmitted, where nothing was. -/
def AttemptOutcome.describeFailure {α : Type} : AttemptOutcome α → Option Text
  | .unavailable reason => some reason
  | .notApplicable reason => some reason
  | .notSent reason => some reason
  | _ => none

/-- A reason is given where nothing was transmitted, and only there. -/
theorem AttemptOutcome.describeFailure_eq_none {α : Type} {outcome : AttemptOutcome α} :
    outcome.describeFailure = none ↔ outcome.transmitted = true := by
  cases outcome <;> simp [AttemptOutcome.describeFailure, AttemptOutcome.transmitted]

/-- Whether a datagram is the Echo Reply belonging to one specific probe: its source must be the address asked. -/
def isExactReply (datagram : Bytes) (identifier sequence : UInt16) (sender target : Ipv4Addr) : Bool :=
  if sender ≠ target then false
  else
    match icmpMessage datagram with
    | none => false
    | some icmp =>
      if icmp.length < 8 ∨ icmp.getD 0 0 ≠ 0 ∨ icmp.getD 1 0 ≠ 0 then false
      else
        UInt16.ofNat (beNat [icmp.getD 4 0, icmp.getD 5 0]) = identifier ∧
          UInt16.ofNat (beNat [icmp.getD 6 0, icmp.getD 7 0]) = sequence

/-- An ICMP datagram socket: whether it could be bound, whether the echo left, and what arrived until the deadline. -/
structure EchoSocket where
  bound : Bool
  sent : Bool
  received : List ReceivedDatagram

/-- Asks one address to answer for itself. -/
def echo (target : Ipv4Addr) (identifier sequence : UInt16) (opened : Option EchoSocket) : AttemptOutcome Ipv4Addr :=
  match opened with
  | none => .unavailable ("an ICMP datagram socket could not be opened on this host" : Text)
  | some socket =>
    if !socket.bound then .notSent ("the ICMP socket could not be bound to the selected interface" : Text)
    else if !socket.sent then
      .notSent (("the echo request to " : Text) ++ (IpAddr.v4 target).toText ++ (" could not be sent" : Text))
    else
      let sent := ("ICMP echo request to " : Text) ++ (IpAddr.v4 target).toText
      if socket.received.any fun r => isExactReply (r.datagram.take 1500) identifier sequence r.sender target then
        .answered sent target
      else .noResponse sent

/-! ## What is a reply -/

/-- An Echo Reply with an identifier and a sequence, behind an IP header or not. -/
structure EchoReply (identifier sequence : UInt16) where
  outer : Bytes
  outer_eq : outer = [] ∨ IsIpv4Header outer
  checksum : Bytes
  length_checksum : checksum.length = 2
  more : Bytes

def EchoReply.bytes {identifier sequence : UInt16} (r : EchoReply identifier sequence) : Bytes :=
  r.outer ++ (0 :: 0 :: r.checksum ++ (beBytes 2 identifier.toNat ++ (beBytes 2 sequence.toNat ++ r.more)))

section Reply

variable {identifier sequence : UInt16} {datagram : Bytes} {sender target : Ipv4Addr}

/-- The word that two bytes of a message say. -/
theorem getD_word_iff {icmp : Bytes} {k : Nat} (h : k + 2 ≤ icmp.length) (x : UInt16) :
    UInt16.ofNat (beNat [icmp.getD k 0, icmp.getD (k + 1) 0]) = x ↔ (icmp.drop k).take 2 = beBytes 2 x.toNat := by
  rw [take_two h]
  exact word_eq_iff rfl x

/-- **What is the reply to a probe.** -/
theorem isExactReply_iff : isExactReply datagram identifier sequence sender target = true ↔
    sender = target ∧ ∃ r : EchoReply identifier sequence, datagram = r.bytes := by
  unfold isExactReply
  by_cases hsender : sender = target
  case neg =>
    rw [if_pos hsender]
    exact ⟨fun h => absurd h (by decide), fun h => absurd h.1 hsender⟩
  rw [if_neg (not_not_intro hsender), and_iff_right hsender]
  constructor
  · intro h
    split at h
    case h_1 => cases h
    case h_2 icmp hicmp =>
      split_ifs at h with hfront
      obtain ⟨hlen, htype, hcode⟩ : 8 ≤ icmp.length ∧ icmp.getD 0 0 = 0 ∧ icmp.getD 1 0 = 0 := by
        simpa only [not_or, not_lt, Decidable.not_not] using hfront
      obtain ⟨hid, hsequence⟩ := of_decide_eq_true h
      rw [getD_word_iff (by omega)] at hid hsequence
      obtain ⟨outer, houter, rfl⟩ := icmpMessage_eq_some hicmp
      have hbyte : ∀ i, i < icmp.length → icmp.drop i = icmp.getD i 0 :: icmp.drop (i + 1) := by
        intro i h
        rw [List.getD_eq_getElem _ _ h, ← List.drop_eq_getElem_cons h]
      have hzero := hbyte 0 (by omega)
      have hone := hbyte 1 (by omega)
      rw [htype, List.drop_zero] at hzero
      rw [hcode] at hone
      refine ⟨⟨outer, houter, (icmp.drop 2).take 2, ?_, icmp.drop 8⟩, ?_⟩
      · rw [List.length_take, List.length_drop]
        omega
      · rw [EchoReply.bytes, ← hid, ← hsequence, List.cons_append, List.cons_append, ← drop_cut icmp 6,
          ← drop_cut icmp 4, ← drop_cut icmp 2, ← hone, ← hzero]
  · rintro ⟨r, rfl⟩
    rw [EchoReply.bytes, List.cons_append, icmpMessage_append r.outer_eq (by decide)]
    dsimp only
    generalize hicmp : 0 :: (0 :: r.checksum ++ (beBytes 2 identifier.toNat ++ (beBytes 2 sequence.toNat ++ r.more))) =
      icmp
    have hself : Holds icmp 0 (0 :: 0 :: r.checksum ++ (beBytes 2 identifier.toNat ++ (beBytes 2 sequence.toNat ++
        r.more))) := by
      rw [← hicmp]
      exact Holds.self _
    have hwords : Holds icmp 4 (beBytes 2 identifier.toNat ++ (beBytes 2 sequence.toNat ++ r.more)) := by
      have hwords := hself.right
      rwa [List.length_cons, List.length_cons, r.length_checksum] at hwords
    have hsequence : Holds icmp 6 (beBytes 2 sequence.toNat) := by
      have hsequence := hwords.right.left
      rwa [length_beBytes] at hsequence
    have hlen := hsequence.length_le
    rw [length_beBytes] at hlen
    have hzero : icmp.getD 0 0 = 0 ∧ icmp.getD 1 0 = 0 := by
      rw [← hicmp]
      exact ⟨rfl, rfl⟩
    rw [if_neg (by rw [not_or, not_or]; exact ⟨by omega, not_not_intro hzero.1, not_not_intro hzero.2⟩),
      decide_eq_true_eq, getD_word_iff (by omega), getD_word_iff (by omega)]
    exact ⟨by simpa using hwords.left.drop_take, by simpa using hsequence.drop_take⟩

end Reply

/-- **When an echo counts as answered**: the echo left, and a datagram that arrived in time is its reply and comes
from the address that was asked. -/
theorem echo_answered_iff {target result : Ipv4Addr} {identifier sequence : UInt16} {opened : Option EchoSocket} :
    (echo target identifier sequence opened).result = some result ↔ result = target ∧
      ∃ socket, opened = some socket ∧ socket.bound = true ∧ socket.sent = true ∧
        ∃ r ∈ socket.received, r.sender = target ∧
          ∃ reply : EchoReply identifier sequence, r.datagram.take 1500 = reply.bytes := by
  unfold echo
  cases opened with
  | none => simp [AttemptOutcome.result]
  | some socket =>
    simp only [Option.some.injEq, exists_eq_left']
    cases hbound : socket.bound with
    | false => simp [AttemptOutcome.result]
    | true =>
      cases hsent : socket.sent with
      | false => simp [AttemptOutcome.result]
      | true =>
        rw [if_neg (by decide), if_neg (by decide)]
        have hany : (socket.received.any fun r =>
            isExactReply (r.datagram.take 1500) identifier sequence r.sender target) = true ↔
            ∃ r ∈ socket.received, r.sender = target ∧
              ∃ reply : EchoReply identifier sequence, r.datagram.take 1500 = reply.bytes := by
          rw [List.any_eq_true]
          exact exists_congr fun r => and_congr_right fun _ => isExactReply_iff
        rw [and_iff_right rfl, and_iff_right rfl, ← hany]
        by_cases hreply : (socket.received.any fun r =>
            isExactReply (r.datagram.take 1500) identifier sequence r.sender target) = true
        · rw [if_pos hreply]
          exact ⟨fun h => ⟨(Option.some.inj h).symm, hreply⟩, fun h => congrArg some h.1.symm⟩
        · rw [if_neg hreply]
          exact ⟨fun h => (Option.some_ne_none _ h.symm).elim, fun h => absurd h.2 hreply⟩

/-- When an echo was transmitted. -/
theorem echo_transmitted_iff {target : Ipv4Addr} {identifier sequence : UInt16} {opened : Option EchoSocket} :
    (echo target identifier sequence opened).transmitted = true ↔
      ∃ socket, opened = some socket ∧ socket.bound = true ∧ socket.sent = true := by
  unfold echo
  cases opened with
  | none => simp [AttemptOutcome.transmitted]
  | some socket =>
    simp only [Option.some.injEq, exists_eq_left']
    cases socket.bound with
    | false => simp [AttemptOutcome.transmitted]
    | true =>
      cases socket.sent with
      | false => simp [AttemptOutcome.transmitted]
      | true =>
        rw [if_neg (by decide), if_neg (by decide)]
        split <;> simp [AttemptOutcome.transmitted]

end Idnx
