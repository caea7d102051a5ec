import Idnx.Federation.Ledger

/-!
# Reservations over whole runs

Several connections call one ledger in any order: they pair, prepare, commit, abandon and restore cursors, and they
may come back with a receipt that was used or released long ago. A run keeps the ledger, the receipts it issued, which
of them made the reservation each peer holds now, and what was committed.

* `ledger_step_cases`: the six things a call can do;
* `reservationInv_run`: tokens tell the receipts apart as long as the counter has not come round, so a reservation is
  given back by the receipt that made it, and what a peer commits grows;
* `ledger_safe`: the safety of every run, and `late_restore_and_wrapped_token`: what is not promised.
-/

namespace Idnx

variable {libs : Libraries}

/-- A call on the ledger. A receipt is named by its place among those issued: the program cannot make one up, but it
may keep, copy and use again any it was given. -/
inductive LedgerCall (libs : Libraries) where
  | pair (peer : PeerId libs.crypto)
  | prepare (bundle : EvidenceBundle)
  | commit (index : Nat)
  | abandon (index : Nat)
  | restoreCursor (peer : PeerId libs.crypto) (sequence : UInt64)

/-- A ledger with its history: the receipts it issued, for each reserved key the receipt that made the reservation,
and the receipts committed, first to last. -/
structure LedgerRun (crypto : Ed25519) where
  ledger : PeerLedger crypto := {}
  issued : List (Receipt crypto) := []
  maker : Map Text Nat := ∅
  committed : List (Receipt crypto) := []

namespace LedgerRun

def step (s : LedgerRun libs.crypto) : LedgerCall libs → LedgerRun libs.crypto
  | .pair peer => { s with ledger := s.ledger.pair peer }
  | .prepare bundle =>
    match s.ledger.prepare bundle with
    | (.ok prepared, ledger) =>
      { s with
        ledger := ledger
        issued := s.issued ++ [prepared.receipt]
        maker := AList.insert prepared.peer.toHex s.issued.length s.maker }
    | (_, ledger) => { s with ledger := ledger }
  | .commit index =>
    match s.issued[index]? with
    | none => s
    | some receipt =>
      match s.ledger.commit receipt with
      | (true, ledger) =>
        { s with
          ledger := ledger
          maker := AList.erase receipt.peer.toHex s.maker
          committed := s.committed ++ [receipt] }
      | (false, ledger) => { s with ledger := ledger }
  | .abandon index =>
    match s.issued[index]? with
    | none => s
    | some receipt =>
      match s.ledger.abandon receipt with
      | (true, ledger) => { s with ledger := ledger, maker := AList.erase receipt.peer.toHex s.maker }
      | (false, ledger) => { s with ledger := ledger }
  | .restoreCursor peer sequence => { s with ledger := s.ledger.restoreCursor peer sequence }

/-- The sequences committed for a peer, first to last. -/
def committedBy (s : LedgerRun libs.crypto) (peer : PeerId libs.crypto) : List UInt64 :=
  (s.committed.filter fun receipt => receipt.peer = peer).map Receipt.sequence

end LedgerRun

/-- The run from an empty ledger. -/
def ledgerRun (history : List (LedgerCall libs)) : LedgerRun libs.crypto := run LedgerRun.step {} history

theorem ledgerRun_concat (history : List (LedgerCall libs)) (call : LedgerCall libs) :
    ledgerRun (history ++ [call]) = (ledgerRun history).step call := run_concat _ _ _ _

/-! ## What a call can do -/

/-- The six things a call can do. -/
inductive LedgerStep (s : LedgerRun libs.crypto) : LedgerCall libs → LedgerRun libs.crypto → Prop
  | unchanged {call} (hcall : ∀ peer sequence, call ≠ .restoreCursor peer sequence) : LedgerStep s call s
  | paired {peer} : LedgerStep s (.pair peer) { s with ledger := s.ledger.pair peer }
  | reserved {bundle peer} (hok : Acceptable s.ledger bundle peer) :
      LedgerStep s (.prepare bundle)
        { s with
          ledger := s.ledger.reserve peer
          issued := s.issued ++ [⟨peer, bundle.sequence, s.ledger.nextToken + 1⟩]
          maker := AList.insert peer.toHex s.issued.length s.maker }
  | committed {index receipt} (hissued : s.issued[index]? = some receipt) (howns : s.ledger.owns receipt = true) :
      LedgerStep s (.commit index)
        { s with
          ledger := (s.ledger.raiseCursor receipt.peer.toHex receipt.sequence).release receipt.peer.toHex
          maker := AList.erase receipt.peer.toHex s.maker
          committed := s.committed ++ [receipt] }
  | abandoned {index receipt} (hissued : s.issued[index]? = some receipt) (howns : s.ledger.owns receipt = true) :
      LedgerStep s (.abandon index)
        { s with
          ledger := s.ledger.release receipt.peer.toHex
          maker := AList.erase receipt.peer.toHex s.maker }
  | restored {peer sequence} :
      LedgerStep s (.restoreCursor peer sequence) { s with ledger := s.ledger.restoreCursor peer sequence }

theorem ledger_step_cases (s : LedgerRun libs.crypto) (call : LedgerCall libs) : LedgerStep s call (s.step call) := by
  cases call with
  | pair peer => exact .paired
  | prepare bundle =>
    have hrefused : LedgerStep s (.prepare bundle) s := .unchanged (by simp)
    obtain ⟨reason, h⟩ | h | ⟨peer, evidence, hok, -, h⟩ := prepare_cases s.ledger bundle
    · rw [LedgerRun.step, h]; exact hrefused
    · rw [LedgerRun.step, h]; exact hrefused
    · rw [LedgerRun.step, h]; exact .reserved hok
  | commit index =>
    cases hissued : s.issued[index]? with
    | none =>
      rw [LedgerRun.step, hissued]
      exact .unchanged (by simp)
    | some receipt =>
      cases howns : s.ledger.owns receipt with
      | true =>
        simp only [LedgerRun.step, hissued, PeerLedger.commit, howns, if_true]
        exact .committed hissued howns
      | false =>
        simp only [LedgerRun.step, hissued, PeerLedger.commit, howns]
        exact .unchanged (by simp)
  | abandon index =>
    cases hissued : s.issued[index]? with
    | none =>
      rw [LedgerRun.step, hissued]
      exact .unchanged (by simp)
    | some receipt =>
      cases howns : s.ledger.owns receipt with
      | true =>
        simp only [LedgerRun.step, hissued, PeerLedger.abandon, howns, if_true]
        exact .abandoned hissued howns
      | false =>
        simp only [LedgerRun.step, hissued, PeerLedger.abandon, howns]
        exact .unchanged (by simp)
  | restoreCursor peer sequence => exact .restored

/-! ## Cursors -/

namespace PeerLedger

variable {crypto : Ed25519} {ledger : PeerLedger crypto} {key : Text} {sequence : UInt64}

/-- The cursor of a key is at `sequence` or above. -/
def Reaches (ledger : PeerLedger crypto) (key : Text) (sequence : UInt64) : Prop :=
  ∃ top, AList.lookup key ledger.highestSequence = some top ∧ sequence ≤ top

theorem reaches_raiseCursor (ledger : PeerLedger crypto) (key : Text) (sequence : UInt64) :
    (ledger.raiseCursor key sequence).Reaches key sequence := by
  refine ⟨_, by rw [raiseCursor, Map.lookup_upd, if_pos rfl], ?_⟩
  split
  · exact UInt64.le_refl _
  · rename_i h
    exact UInt64.not_lt.mp h

/-- Raising a cursor lowers none. -/
theorem Reaches.raiseCursor {key' : Text} {sequence' : UInt64} (h : ledger.Reaches key sequence) :
    (ledger.raiseCursor key' sequence').Reaches key sequence := by
  obtain ⟨top, htop, hle⟩ := h
  by_cases hkey : key = key'
  · subst hkey
    refine ⟨_, by rw [PeerLedger.raiseCursor, Map.lookup_upd, if_pos rfl], ?_⟩
    rw [htop, Option.getD_some]
    split
    · rename_i hlt
      exact UInt64.le_of_lt (UInt64.lt_of_le_of_lt hle hlt)
    · exact hle
  · exact ⟨top, by rw [PeerLedger.raiseCursor, Map.lookup_upd, if_neg hkey, htop], hle⟩

end PeerLedger

/-! ## The invariant -/

/-- The `index`-th receipt was issued by a `prepare` of the history, above every cursor restored for its
peer before. -/
def MadeAbove (history : List (LedgerCall libs)) (index : Nat) (receipt : Receipt libs.crypto) : Prop :=
  ∃ before bundle after, history = before ++ .prepare bundle :: after ∧ (ledgerRun before).issued.length = index ∧
    (ledgerRun (before ++ [.prepare bundle])).issued[index]? = some receipt ∧
    ∀ cursor, .restoreCursor receipt.peer cursor ∈ before → cursor < receipt.sequence

theorem MadeAbove.concat {history : List (LedgerCall libs)} {index : Nat} {receipt : Receipt libs.crypto}
    (h : MadeAbove history index receipt) (call : LedgerCall libs) : MadeAbove (history ++ [call]) index receipt := by
  obtain ⟨before, bundle, after, rfl, hindex, hissued, habove⟩ := h
  exact ⟨before, bundle, after ++ [call], by simp, hindex, hissued, habove⟩

/-- Tokens count the receipts, the reservations in force are those of their makers, and each is above whatever its
peer has committed. -/
structure ReservationInv (history : List (LedgerCall libs)) (s : LedgerRun libs.crypto) : Prop where
  next_eq : s.ledger.nextToken = UInt64.ofNat s.issued.length
  token_eq : ∀ (index : Nat) (receipt), s.issued[index]? = some receipt → receipt.token = UInt64.ofNat (index + 1)
  held : ∀ key, AList.lookup key s.ledger.inFlight = (AList.lookup key s.maker).map fun i => UInt64.ofNat (i + 1)
  made : ∀ (key : Text) (index : Nat), AList.lookup key s.maker = some index → ∃ receipt,
    s.issued[index]? = some receipt ∧ receipt.peer.toHex = key ∧ ∀ c ∈ s.committed, c.peer = receipt.peer →
    c.sequence < receipt.sequence
  covered : ∀ receipt ∈ s.committed, s.ledger.Reaches receipt.peer.toHex receipt.sequence
  restored : ∀ peer cursor, .restoreCursor peer cursor ∈ history → s.ledger.Reaches peer.toHex cursor
  increasing : s.committed.Pairwise fun c d => c.peer = d.peer → c.sequence < d.sequence
  above : ∀ (index : Nat) (receipt), s.issued[index]? = some receipt → MadeAbove history index receipt
  known : ∀ receipt ∈ s.committed, ∃ index : Nat, s.issued[index]? = some receipt

section Steps

variable {history : List (LedgerCall libs)} {s : LedgerRun libs.crypto}

/-- As long as the counter has not come round, the receipt that owns a reservation is the one that made it. -/
theorem ReservationInv.maker_of_owns (h : ReservationInv history s) (hbound : s.issued.length ≤ 2 ^ 64) {index : Nat}
    {receipt : Receipt libs.crypto} (hissued : s.issued[index]? = some receipt)
    (howns : s.ledger.owns receipt = true) : AList.lookup receipt.peer.toHex s.maker = some index := by
  have hlookup := of_decide_eq_true howns
  rw [h.held, Option.map_eq_some_iff] at hlookup
  obtain ⟨j, hj, htoken⟩ := hlookup
  rw [h.token_eq index receipt hissued] at htoken
  obtain ⟨r, hr, -, -⟩ := h.made _ j hj
  have hi : index < s.issued.length := (List.getElem?_eq_some_iff.mp hissued).1
  have hj' : j < s.issued.length := (List.getElem?_eq_some_iff.mp hr).1
  have hmod := congrArg UInt64.toNat htoken
  rw [UInt64.toNat_ofNat', UInt64.toNat_ofNat'] at hmod
  rw [hj, show j = index by omega]

theorem reservationInv_nil : ReservationInv ([] : List (LedgerCall libs)) {} where
  next_eq := rfl
  token_eq := by simp
  held := by intro key; rfl
  made := by intro key index h; cases h
  covered := by simp
  restored := by simp
  increasing := List.Pairwise.nil
  above := by simp
  known := by simp

theorem restored_of_ne {call : LedgerCall libs} (hcall : ∀ peer sequence, call ≠ .restoreCursor peer sequence)
    {peer : PeerId libs.crypto} {cursor : UInt64} (h : .restoreCursor peer cursor ∈ history ++ [call]) :
    .restoreCursor peer cursor ∈ history := by
  rcases List.mem_append.mp h with h | h
  · exact h
  · exact absurd (List.mem_singleton.mp h).symm (hcall peer cursor)

theorem ReservationInv.reserve (h : ReservationInv history s) (hs : s = ledgerRun history) {bundle : EvidenceBundle}
    {peer : PeerId libs.crypto} (hok : Acceptable s.ledger bundle peer) (hstep : s.step (.prepare bundle) =
      { s with
        ledger := s.ledger.reserve peer
        issued := s.issued ++ [⟨peer, bundle.sequence, s.ledger.nextToken + 1⟩]
        maker := AList.insert peer.toHex s.issued.length s.maker }) :
    ReservationInv (history ++ [LedgerCall.prepare bundle]) (s.step (.prepare bundle)) := by
  have hnext : s.ledger.nextToken + 1 = UInt64.ofNat (s.issued.length + 1) := by
    rw [h.next_eq, UInt64.ofNat_add]; rfl
  -- a receipt of the new list is an old one or the one just issued
  have hget : ∀ {index : Nat} {receipt}, (s.issued ++ [⟨peer, bundle.sequence, s.ledger.nextToken + 1⟩])[index]? =
      some receipt → s.issued[index]? = some receipt ∨
        (index = s.issued.length ∧ receipt = ⟨peer, bundle.sequence, s.ledger.nextToken + 1⟩) := by
    intro index receipt hi
    rcases Nat.lt_or_ge index s.issued.length with hlt | hge
    · rw [List.getElem?_append_left hlt] at hi
      exact .inl hi
    · rw [List.getElem?_append_right hge] at hi
      have hi₀ := (List.getElem?_eq_some_iff.mp hi).1
      simp only [List.length_singleton] at hi₀
      rw [show index - s.issued.length = 0 by omega] at hi
      exact .inr ⟨by omega, by simpa using hi.symm⟩
  have habove : ∀ cursor, .restoreCursor peer cursor ∈ history → cursor < bundle.sequence := by
    intro cursor hc
    obtain ⟨top, htop, hle⟩ := h.restored peer cursor hc
    exact UInt64.lt_of_le_of_lt hle (hok.fresh top htop)
  have hstep' := hstep
  rw [hs, ← ledgerRun_concat] at hstep'
  rw [hstep]
  refine ⟨?_, ?_, ?_, ?_, h.covered, ?_, h.increasing, ?_, ?_⟩
  · simpa [PeerLedger.reserve] using hnext
  · intro index receipt hi
    rcases hget hi with hi | ⟨rfl, rfl⟩
    · exact h.token_eq index receipt hi
    · exact hnext
  · intro key
    simp only [PeerLedger.reserve, Map.lookup_insert_ite, h.held]
    split
    · simp [hnext]
    · rfl
  · intro key index hi
    rw [Map.lookup_insert_ite] at hi
    split at hi
    · rename_i hkey
      cases hi
      refine ⟨⟨peer, bundle.sequence, s.ledger.nextToken + 1⟩, by simp, hkey.symm, ?_⟩
      intro c hc hpeer
      obtain ⟨top, htop, hle⟩ := h.covered c hc
      rw [hpeer] at htop
      exact UInt64.lt_of_le_of_lt hle (hok.fresh top htop)
    · obtain ⟨receipt, hr, hkey, hless⟩ := h.made key index hi
      have hlt : index < s.issued.length := (List.getElem?_eq_some_iff.mp hr).1
      exact ⟨receipt, by rw [List.getElem?_append_left hlt, hr], hkey, hless⟩
  · intro p cursor hp
    exact h.restored p cursor (restored_of_ne (by simp) hp)
  · intro index receipt hi
    rcases hget hi with hi | ⟨rfl, rfl⟩
    · exact (h.above index receipt hi).concat _
    · refine ⟨history, bundle, [], rfl, by rw [← hs], ?_, habove⟩
      rw [hstep', ← hs]
      simp
  · intro receipt hr
    obtain ⟨index, hi⟩ := h.known receipt hr
    have hlt : index < s.issued.length := (List.getElem?_eq_some_iff.mp hi).1
    exact ⟨index, by rw [List.getElem?_append_left hlt, hi]⟩

/-- Giving a reservation back: the other keys keep theirs, and their makers. -/
theorem ReservationInv.release (h : ReservationInv history s) (receipt : Receipt libs.crypto) (call : LedgerCall libs)
    (hcall : ∀ peer sequence, call ≠ .restoreCursor peer sequence) :
    ReservationInv (history ++ [call])
      { s with
        ledger := s.ledger.release receipt.peer.toHex
        maker := AList.erase receipt.peer.toHex s.maker } := by
  refine ⟨h.next_eq, h.token_eq, ?_, ?_, h.covered, ?_, h.increasing, ?_, h.known⟩
  · intro key
    simp only [PeerLedger.release, Map.lookup_erase_ite, h.held]
    split <;> rfl
  · intro key index hi
    rw [Map.lookup_erase_ite] at hi
    split at hi
    · cases hi
    · exact h.made key index hi
  · intro peer cursor hp
    exact h.restored peer cursor (restored_of_ne hcall hp)
  · intro index receipt hi
    exact (h.above index receipt hi).concat _

/-- Raising a cursor touches nothing else. -/
theorem ReservationInv.raiseCursor (h : ReservationInv history s) (key : Text) (sequence : UInt64) :
    ReservationInv history { s with ledger := s.ledger.raiseCursor key sequence } where
  next_eq := h.next_eq
  token_eq := h.token_eq
  held := h.held
  made := h.made
  covered := fun receipt hr => (h.covered receipt hr).raiseCursor
  restored := fun peer cursor hp => (h.restored peer cursor hp).raiseCursor
  increasing := h.increasing
  above := h.above
  known := h.known

theorem ReservationInv.commit (h : ReservationInv history s) (hbound : s.issued.length ≤ 2 ^ 64) {index : Nat}
    {receipt : Receipt libs.crypto} (hissued : s.issued[index]? = some receipt)
    (howns : s.ledger.owns receipt = true) :
    ReservationInv (history ++ [LedgerCall.commit index])
      { s with
        ledger := (s.ledger.raiseCursor receipt.peer.toHex receipt.sequence).release receipt.peer.toHex
        maker := AList.erase receipt.peer.toHex s.maker
        committed := s.committed ++ [receipt] } := by
  have hmaker := h.maker_of_owns hbound hissued howns
  have hless : ∀ c ∈ s.committed, c.peer = receipt.peer → c.sequence < receipt.sequence := by
    obtain ⟨r, hr, -, hless⟩ := h.made _ index hmaker
    rw [hissued, Option.some.injEq] at hr
    rwa [← hr] at hless
  have hrel := (h.raiseCursor receipt.peer.toHex receipt.sequence).release receipt (.commit index)
    (by simp)
  refine ⟨hrel.next_eq, hrel.token_eq, hrel.held, ?_, ?_, hrel.restored, ?_, hrel.above, ?_⟩
  · intro key i hi
    obtain ⟨r, hr, hkey, hr'⟩ := hrel.made key i hi
    refine ⟨r, hr, hkey, ?_⟩
    intro c hc hpeer
    rcases List.mem_append.mp hc with hc | hc
    · exact hr' c hc hpeer
    · -- the receipt just committed gave its reservation back, so `r` is another peer's
      rw [List.mem_singleton.mp hc] at hpeer
      rw [Map.lookup_erase_ite, if_pos (by rw [← hkey, hpeer])] at hi
      cases hi
  · intro c hc
    rcases List.mem_append.mp hc with hc | hc
    · exact hrel.covered c hc
    · rw [List.mem_singleton.mp hc]
      exact s.ledger.reaches_raiseCursor _ _
  · rw [List.pairwise_append]
    refine ⟨h.increasing, List.pairwise_singleton _ _, ?_⟩
    intro c hc d hd hpeer
    rw [List.mem_singleton.mp hd] at hpeer ⊢
    exact hless c hc hpeer
  · intro c hc
    rcases List.mem_append.mp hc with hc | hc
    · exact h.known c hc
    · exact ⟨index, by rw [List.mem_singleton.mp hc, hissued]⟩

/-- **What one call preserves.** -/
theorem ReservationInv.step (h : ReservationInv history s) (hs : s = ledgerRun history)
    (hbound : s.issued.length ≤ 2 ^ 64) (call : LedgerCall libs) :
    ReservationInv (history ++ [call]) (s.step call) := by
  have hcases := ledger_step_cases s call
  generalize hs' : s.step call = s' at hcases
  cases hcases with
  | unchanged hcall =>
    exact ⟨h.next_eq, h.token_eq, h.held, h.made, h.covered,
      fun peer cursor hp => h.restored peer cursor (restored_of_ne hcall hp), h.increasing,
      fun index receipt hi => (h.above index receipt hi).concat _, h.known⟩
  | paired =>
    exact ⟨h.next_eq, h.token_eq, h.held, h.made, h.covered,
      fun peer cursor hp => h.restored peer cursor (restored_of_ne (by simp) hp), h.increasing,
      fun index receipt hi => (h.above index receipt hi).concat _, h.known⟩
  | reserved hok =>
    rw [← hs']
    exact h.reserve hs hok hs'
  | committed hissued howns => exact h.commit hbound hissued howns
  | abandoned hissued howns => exact h.release _ _ (by simp)
  | restored =>
    rename_i peer sequence
    have hraise := h.raiseCursor peer.toHex sequence
    refine ⟨h.next_eq, h.token_eq, h.held, h.made, hraise.covered, ?_, h.increasing,
      fun index receipt hi => (h.above index receipt hi).concat _, h.known⟩
    intro p cursor hp
    rcases List.mem_append.mp hp with hp | hp
    · exact hraise.restored p cursor hp
    · cases List.mem_singleton.mp hp
      exact s.ledger.reaches_raiseCursor _ _

/-- Receipts are only added. -/
theorem issued_length_le_step (call : LedgerCall libs) : s.issued.length ≤ (s.step call).issued.length := by
  have hcases := ledger_step_cases s call
  generalize s.step call = s' at hcases
  cases hcases <;> simp

end Steps

/-- **What a whole run preserves.** -/
theorem reservationInv_run (history : List (LedgerCall libs)) (hbound : (ledgerRun history).issued.length ≤ 2 ^ 64) :
    ReservationInv history (ledgerRun history) := by
  induction history using List.reverseRecOn with
  | nil => exact reservationInv_nil
  | append_singleton history call ih =>
    rw [ledgerRun_concat] at hbound ⊢
    have hbound' := Nat.le_trans (issued_length_le_step call) hbound
    exact (ih hbound').step rfl hbound' call

/-! ## Safety -/

/-- What is promised of a ledger with the given history. -/
structure LedgerSafe (history : List (LedgerCall libs)) (s : LedgerRun libs.crypto) : Prop where
  /-- A peer has at most one reservation outstanding: one receipt at most can finish it. -/
  one_reservation : ∀ (i j : Nat) (r t), s.issued[i]? = some r → s.issued[j]? = some t → r.peer = t.peer →
    s.ledger.owns r = true → s.ledger.owns t = true → i = j
  /-- What is committed for a peer grows strictly, so that no sequence is committed twice. -/
  increasing : ∀ peer, (s.committedBy peer).Pairwise (· < ·)
  never_twice : (s.committed.map fun receipt => (receipt.peer, receipt.sequence)).Nodup
  /-- A committed sequence is above every cursor restored for its peer before its reservation was made. -/
  above_restored : ∀ receipt ∈ s.committed, ∃ index, MadeAbove history index receipt
  /-- A reservation is held exactly while it has a maker, and only the maker's receipt commits or abandons it. -/
  held_iff : ∀ key, key ∈ s.ledger.inFlight ↔ key ∈ s.maker
  own_receipt : ∀ (index : Nat) (receipt), s.issued[index]? = some receipt →
    ((s.ledger.commit receipt).1 = true ∨ (s.ledger.abandon receipt).1 = true) →
    AList.lookup receipt.peer.toHex s.maker = some index
  /-- No call but the maker's own commit or abandon takes a reservation away. -/
  kept : ∀ (key : Text) (index : Nat) (call), AList.lookup key s.maker = some index →
    AList.lookup key (s.step call).maker = some index ∨ call = .commit index ∨ call = .abandon index
  /-- Only the commit of the maker's own receipt, or a restore, moves a cursor. -/
  cursors : ∀ call : LedgerCall libs,
    (∀ (index : Nat) (receipt), call = .commit index → s.issued[index]? = some receipt →
      AList.lookup receipt.peer.toHex s.maker ≠ some index) →
    (∀ peer cursor, call ≠ .restoreCursor peer cursor) →
    (s.step call).ledger.highestSequence = s.ledger.highestSequence

theorem committedBy_pairwise {s : LedgerRun libs.crypto}
    (h : s.committed.Pairwise fun c d => c.peer = d.peer → c.sequence < d.sequence) (peer : PeerId libs.crypto) :
    (s.committedBy peer).Pairwise (· < ·) := by
  rw [LedgerRun.committedBy, List.pairwise_map, List.pairwise_filter]
  refine h.imp ?_
  intro c d hlt hc hd
  exact hlt ((of_decide_eq_true hc).trans (of_decide_eq_true hd).symm)

theorem committed_nodup {s : LedgerRun libs.crypto}
    (h : s.committed.Pairwise fun c d => c.peer = d.peer → c.sequence < d.sequence) :
    (s.committed.map fun receipt => (receipt.peer, receipt.sequence)).Nodup := by
  rw [List.Nodup, List.pairwise_map]
  refine h.imp ?_
  intro c d hlt he
  obtain ⟨hpeer, hseq⟩ := Prod.mk.inj he
  exact UInt64.lt_irrefl _ (hseq ▸ hlt hpeer)

/-- Committing and abandoning succeed for the receipt that owns the reservation. -/
theorem finish_eq_true_iff {crypto : Ed25519} {ledger : PeerLedger crypto} {receipt : Receipt crypto} :
    ((ledger.commit receipt).1 = true ∨ (ledger.abandon receipt).1 = true) ↔ ledger.owns receipt = true := by
  unfold PeerLedger.commit PeerLedger.abandon
  cases ledger.owns receipt <;> simp

/-- **Every run is safe**, whatever the order of the calls and whichever receipts they come back with, until the
counter of tokens comes round. -/
theorem ledger_safe (history : List (LedgerCall libs)) (hbound : (ledgerRun history).issued.length ≤ 2 ^ 64) :
    LedgerSafe history (ledgerRun history) := by
  have h := reservationInv_run history hbound
  generalize ledgerRun history = s at h hbound
  refine ⟨?_, committedBy_pairwise h.increasing, committed_nodup h.increasing, ?_, ?_, ?_, ?_, ?_⟩
  · intro i j r t hi hj hpeer hr ht
    have hri := h.maker_of_owns hbound hi hr
    have htj := h.maker_of_owns hbound hj ht
    rw [hpeer, htj, Option.some.injEq] at hri
    exact hri.symm
  · intro receipt hr
    obtain ⟨index, hi⟩ := h.known receipt hr
    exact ⟨index, h.above index receipt hi⟩
  · intro key
    rw [← AList.lookup_isSome, ← AList.lookup_isSome, h.held, Option.isSome_map]
  · intro index receipt hi hfinish
    exact h.maker_of_owns hbound hi (finish_eq_true_iff.mp hfinish)
  · intro key index call hkey
    have hcases := ledger_step_cases s call
    generalize s.step call = s' at hcases
    -- the two steps that give a reservation back do so for the key of the receipt they were called with
    have herase : ∀ {i : Nat} {receipt}, s.issued[i]? = some receipt → s.ledger.owns receipt = true →
        AList.lookup key (AList.erase receipt.peer.toHex s.maker) = some index ∨ i = index := by
      intro i receipt hissued howns
      have hmaker := h.maker_of_owns hbound hissued howns
      by_cases he : key = receipt.peer.toHex
      · rw [← he, hkey, Option.some.injEq] at hmaker
        exact .inr hmaker.symm
      · rw [Map.lookup_erase_ite, if_neg he]
        exact .inl hkey
    cases hcases with
    | unchanged => exact .inl hkey
    | paired => exact .inl hkey
    | reserved hok =>
      refine .inl ?_
      rw [Map.lookup_insert_ite, if_neg]
      · exact hkey
      · rintro rfl
        refine hok.free ?_
        rw [← AList.lookup_isSome, h.held, hkey]
        rfl
    | committed hissued howns =>
      rcases herase hissued howns with hl | rfl
      · exact .inl hl
      · exact .inr (.inl rfl)
    | abandoned hissued howns =>
      rcases herase hissued howns with hl | rfl
      · exact .inl hl
      · exact .inr (.inr rfl)
    | restored => exact .inl hkey
  · intro call hforeign hrestore
    have hcases := ledger_step_cases s call
    generalize s.step call = s' at hcases
    cases hcases with
    | unchanged => rfl
    | paired => rfl
    | reserved => rfl
    | committed hissued howns => exact absurd (h.maker_of_owns hbound hissued howns) (hforeign _ _ rfl hissued)
    | abandoned => rfl
    | restored => exact absurd rfl (hrestore _ _)

/-! ## What is not promised -/

/-- Nothing of the sample peer is reserved or committed, after `n` receipts. -/
structure Idle (n : Nat) (s : LedgerRun sampleLibs.crypto) : Prop where
  paired : s.ledger.isPaired samplePeer = true
  fresh : AList.lookup samplePeer.toHex s.ledger.highestSequence = none
  free : samplePeer.toHex ∉ s.ledger.inFlight
  next_eq : s.ledger.nextToken = UInt64.ofNat n
  issued : s.issued.length = n
  first : 0 < n → s.issued[0]? = some ⟨samplePeer, 5, 1⟩
  committed : s.committed = []

/-- The state once the sample bundle has been prepared. -/
theorem Idle.prepare {n : Nat} {s : LedgerRun sampleLibs.crypto} (h : Idle n s) :
    s.step (.prepare sampleBundle) =
      { s with
        ledger := s.ledger.reserve samplePeer
        issued := s.issued ++ [⟨samplePeer, 5, UInt64.ofNat (n + 1)⟩]
        maker := AList.insert samplePeer.toHex n s.maker } := by
  rw [LedgerRun.step, prepare_sampleBundle _ h.paired h.fresh h.free]
  simp only [h.next_eq, h.issued, Prepared.receipt, UInt64.ofNat_add]
  rfl

theorem Idle.getElem?_issued {n : Nat} {s : LedgerRun sampleLibs.crypto} (h : Idle n s) :
    (s.issued ++ [(⟨samplePeer, 5, UInt64.ofNat (n + 1)⟩ : Receipt sampleLibs.crypto)])[n]? =
      some ⟨samplePeer, 5, UInt64.ofNat (n + 1)⟩ := by
  rw [List.getElem?_append_right (Nat.le_of_eq h.issued), h.issued, Nat.sub_self]
  rfl

theorem Idle.lookup_reserve {n : Nat} {s : LedgerRun sampleLibs.crypto} (h : Idle n s) :
    AList.lookup samplePeer.toHex (s.ledger.reserve samplePeer).inFlight = some (UInt64.ofNat (n + 1)) := by
  rw [PeerLedger.reserve, AList.lookup_insert, h.next_eq, UInt64.ofNat_add]
  rfl

/-- A bundle prepared and abandoned leaves the ledger as it was but for the counter. -/
theorem Idle.round {n : Nat} {s : LedgerRun sampleLibs.crypto} (h : Idle n s) :
    Idle (n + 1) ((s.step (.prepare sampleBundle)).step (.abandon n)) := by
  have howns : (s.ledger.reserve samplePeer).owns ⟨samplePeer, 5, UInt64.ofNat (n + 1)⟩ = true :=
    decide_eq_true h.lookup_reserve
  rw [h.prepare]
  simp only [LedgerRun.step, h.getElem?_issued, PeerLedger.abandon, howns, if_true]
  refine ⟨h.paired, h.fresh, ?_, ?_, ?_, ?_, h.committed⟩
  · rw [PeerLedger.release, ← AList.lookup_eq_none, AList.lookup_erase]
  · rw [PeerLedger.release, PeerLedger.reserve, h.next_eq, UInt64.ofNat_add]
    rfl
  · rw [List.length_append, h.issued]
    rfl
  · intro _
    rcases Nat.eq_zero_or_pos n with rfl | hn
    · rw [List.length_eq_zero_iff.mp h.issued]
      rfl
    · rw [List.getElem?_append_left (by rw [h.issued]; exact hn)]
      exact h.first hn

/-- `n` times the same bundle, prepared and abandoned. -/
def sampleRounds (n : Nat) : List (LedgerCall sampleLibs) :=
  .pair samplePeer :: (List.range n).flatMap fun i => [.prepare sampleBundle, .abandon i]

theorem idle_sampleRounds (n : Nat) : Idle n (ledgerRun (sampleRounds n)) := by
  induction n with
  | zero =>
    exact ⟨PeerLedger.isPaired_pair _ _, rfl, by simp [ledgerRun, sampleRounds, LedgerRun.step, PeerLedger.pair], rfl,
      rfl, by omega, rfl⟩
  | succ n ih =>
    have hrounds : sampleRounds (n + 1) =
        (sampleRounds n ++ [LedgerCall.prepare sampleBundle]) ++ [LedgerCall.abandon n] := by
      simp [sampleRounds, List.range_succ]
    rw [hrounds, ledgerRun_concat, ledgerRun_concat]
    exact ih.round

/-- A cursor restored while a bundle is in flight is not taken back, but the bundle is still committed below it; and
once the counter of tokens has come round, the first receipt commits the reservation of a later one. -/
theorem late_restore_and_wrapped_token :
    (5 ∈ (ledgerRun (sampleRounds 0 ++ [.prepare sampleBundle] ++ [.restoreCursor samplePeer 9] ++
      [.commit 0])).committedBy samplePeer ∧ ¬ (9 : UInt64) < 5) ∧
    ∃ (history : List (LedgerCall sampleLibs)) (index maker : Nat) (receipt : Receipt sampleLibs.crypto),
      (ledgerRun history).issued[index]? = some receipt ∧ ((ledgerRun history).ledger.commit receipt).1 = true ∧
      AList.lookup receipt.peer.toHex (ledgerRun history).maker = some maker ∧ index ≠ maker := by
  constructor
  · have h := idle_sampleRounds 0
    have hnil := List.length_eq_zero_iff.mp h.issued
    have howns : ((((ledgerRun (sampleRounds 0)).ledger.reserve samplePeer).restoreCursor samplePeer 9).owns
        ⟨samplePeer, 5, UInt64.ofNat (0 + 1)⟩) = true := decide_eq_true h.lookup_reserve
    refine ⟨?_, by decide⟩
    rw [ledgerRun_concat, ledgerRun_concat, ledgerRun_concat, h.prepare]
    simp only [LedgerRun.step, hnil, List.nil_append, List.getElem?_cons_zero, PeerLedger.commit, howns, if_true,
      LedgerRun.committedBy]
    simp
  · -- the receipt of the first round has the token of the round after the counter is back at nought
    have h := idle_sampleRounds (2 ^ 64)
    have htoken : UInt64.ofNat (2 ^ 64 + 1) = 1 := by decide
    refine ⟨sampleRounds (2 ^ 64) ++ [LedgerCall.prepare sampleBundle], 0, 2 ^ 64, ⟨samplePeer, 5, 1⟩, ?_, ?_, ?_,
      by decide⟩
    · rw [ledgerRun_concat, h.prepare]
      rw [List.getElem?_append_left (by rw [h.issued]; decide)]
      exact h.first (by decide)
    · rw [ledgerRun_concat, h.prepare, PeerLedger.commit, if_pos]
      rw [← htoken]
      exact decide_eq_true h.lookup_reserve
    · rw [ledgerRun_concat, h.prepare]
      exact AList.lookup_insert _

theorem ledger_safe_sample :
    (ledgerRun (sampleRounds 1 ++ [.prepare sampleBundle] ++ [.commit 1])).issued.length ≤ 2 ^ 64 ∧
      LedgerSafe (sampleRounds 1 ++ [.prepare sampleBundle] ++ [.commit 1])
        (ledgerRun (sampleRounds 1 ++ [.prepare sampleBundle] ++ [.commit 1])) ∧
      (ledgerRun (sampleRounds 1 ++ [.prepare sampleBundle] ++ [.commit 1])).committedBy samplePeer = [5] := by
  have h := idle_sampleRounds 1
  have howns : ((ledgerRun (sampleRounds 1)).ledger.reserve samplePeer).owns ⟨samplePeer, 5, UInt64.ofNat (1 + 1)⟩ =
      true := decide_eq_true h.lookup_reserve
  have hrun : ledgerRun (sampleRounds 1 ++ [LedgerCall.prepare sampleBundle] ++ [LedgerCall.commit 1]) =
      ((ledgerRun (sampleRounds 1)).step (.prepare sampleBundle)).step (.commit 1) := by
    rw [ledgerRun_concat, ledgerRun_concat]
  have hlen : (ledgerRun (sampleRounds 1 ++ [LedgerCall.prepare sampleBundle] ++
      [LedgerCall.commit 1])).issued.length ≤ 2 ^ 64 := by
    rw [hrun, h.prepare]
    simp only [LedgerRun.step, h.getElem?_issued, PeerLedger.commit, howns, if_true, List.length_append, h.issued]
    decide
  refine ⟨hlen, ledger_safe _ hlen, ?_⟩
  rw [hrun, h.prepare]
  simp only [LedgerRun.step, h.getElem?_issued, PeerLedger.commit, howns, if_true, LedgerRun.committedBy, h.committed]
  simp

end Idnx
