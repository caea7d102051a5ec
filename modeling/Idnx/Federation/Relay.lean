import Idnx.Federation.Limits
import Idnx.Lib.Framing
import Idnx.Lib.Map
import Idnx.Lib.Run
import Mathlib.Data.List.MinMax

/-!
# The relay's queue

Envelopes wait in mailboxes until they are collected. Everything is bounded: envelopes per mailbox, bytes in total,
mailboxes in total, age. Old envelopes are dropped to make room for new ones, and a running total of the bytes says
when there is room; it is adjusted in four places.

* `held_deposit`, `held_collect`: what a call leaves in each mailbox;
* `relay_bounded`: the total is exact, no subtraction from it comes out short, every bound holds, and there is always
  room to be made for an envelope that is not too large.
-/

namespace Idnx

/-! ## Bounds -/

/-- Envelopes held for one mailbox (`MAX_QUEUED_ENVELOPES`). -/
def maxQueuedEnvelopes : Nat := 256

/-- Bytes held across all mailboxes (`MAX_TOTAL_BYTES`). -/
def maxTotalBytes : Nat := 256 * 1024 * 1024

/-- Mailboxes held at once (`MAX_MAILBOXES`). -/
def maxMailboxes : Nat := 4096

/-- How long an envelope is held, in nanoseconds (`ENVELOPE_TTL`). -/
def envelopeTtl : Nat := 24 * 60 * 60 * 10 ^ 9

inductive RelayError where
  | limit (error : LimitError)
  | full (what : Text)
  | unauthenticated
  deriving DecidableEq, Repr

def RelayError.toText : RelayError → Text
  | .limit e => e.toText
  | .full what => ("relay is at its " : Text) ++ what ++ (" limit" : Text)
  | .unauthenticated => "client did not prove it holds the identity it claimed"

/-! ## The queue -/

/-- One held envelope, with the time it was deposited. -/
structure Held where
  bytes : Bytes
  deposited : Nat
  deriving DecidableEq, Repr

/-- Envelopes waiting for collection. `short` is not the program's: it records whether a subtraction from the total
ever saturated. -/
structure RelayQueue where
  mailboxes : Map Text (List Held) := ∅
  totalBytes : Nat := 0
  short : Bool := false

/-- The order in which a hash map is iterated: any order of its keys. -/
structure HashOrder where
  names : Map Text (List Held) → List Text
  perm : ∀ m, (names m).Perm m.keys

/-- The keys in the order in which they were put in. -/
def HashOrder.keys : HashOrder := ⟨AList.keys, fun _ => .refl _⟩

/-- The mailboxes with the time of their first envelope. -/
def HashOrder.fronts (order : HashOrder) (m : Map Text (List Held)) : List (Text × Nat) :=
  (order.names m).filterMap fun name => ((m.lookup name).bind List.head?).map fun held => (name, held.deposited)

/-- The first mailbox, in the given order, whose first envelope is oldest. -/
def HashOrder.oldest (order : HashOrder) (m : Map Text (List Held)) : Option Text :=
  ((order.fronts m).argmin Prod.snd).map Prod.fst

/-- The mailboxes with one of them cut down; an empty one is removed. -/
def cutTo (m : Map Text (List Held)) (name : Text) (rest : List Held) : Map Text (List Held) :=
  if rest = [] then m.erase name else m.insert name rest

namespace RelayQueue

variable (q : RelayQueue)

/-- The envelopes waiting in a mailbox. -/
def held (mailbox : Text) : List Held := (q.mailboxes.lookup mailbox).getD []

/-- `total_bytes.saturating_sub(size)`. -/
def subtract (size : Nat) : RelayQueue :=
  { q with totalBytes := q.totalBytes - size, short := q.short || q.totalBytes < size }

/-- The bytes of a list of envelopes. -/
def sizeOf (queue : List Held) : Nat := (queue.map fun h => h.bytes.length).sum

/-- What `retain` keeps of a mailbox at time `now`. -/
def fresh (ttl now : Nat) (queue : List Held) : List Held := queue.filter fun h => now - h.deposited < ttl

/-- Discards the envelopes older than `ttl` and adds up the rest anew. -/
def expireOlderThan (ttl now : Nat) : RelayQueue :=
  let mailboxes := q.mailboxes.retain fun queue =>
    if fresh ttl now queue = [] then none else some (fresh ttl now queue)
  { q with mailboxes, totalBytes := mailboxes.total sizeOf }

def expire (now : Nat) : RelayQueue := q.expireOlderThan envelopeTtl now

/-- Removes the single oldest envelope; nothing to remove is `none`. -/
def discardOldest (order : HashOrder) : Option RelayQueue :=
  match order.oldest q.mailboxes with
  | none => none
  | some name =>
    match q.mailboxes.lookup name with
    | some (dropped :: rest) =>
      some { q.subtract dropped.bytes.length with mailboxes := cutTo q.mailboxes name rest }
    | _ => none

/-- How many envelopes there are. -/
def envelopes : Nat := q.mailboxes.total List.length

variable {q}

theorem discardOldest_eq_some {order : HashOrder} {q' : RelayQueue} (h : q.discardOldest order = some q') :
    ∃ name dropped rest, q.mailboxes.lookup name = some (dropped :: rest) ∧
      q' = { q.subtract dropped.bytes.length with mailboxes := cutTo q.mailboxes name rest } := by
  unfold discardOldest at h
  split at h
  · cases h
  · rename_i name _
    split at h
    · rename_i dropped rest hl
      exact ⟨name, dropped, rest, hl, (Option.some.inj h).symm⟩
    · cases h

/-- The weight of the mailboxes when one of them is cut down. -/
theorem total_cut (w : List Held → Nat) (hw : w [] = 0) {m : Map Text (List Held)} {name : Text} {queue : List Held}
    (rest : List Held) (h : m.lookup name = some queue) :
    Map.total w (cutTo m name rest) + w queue = Map.total w m + w rest := by
  unfold cutTo
  have he := Map.total_erase w m name
  rw [h, Option.map_some, Option.getD_some] at he
  split_ifs with hr
  · rw [hr, hw]
    exact he
  · rw [Map.total_insert]
    omega

theorem envelopes_discardOldest {order : HashOrder} {q' : RelayQueue} (h : q.discardOldest order = some q') :
    q'.envelopes < q.envelopes := by
  obtain ⟨name, dropped, rest, hl, rfl⟩ := discardOldest_eq_some h
  have hcut := total_cut List.length rfl rest hl
  rw [List.length_cons] at hcut
  show Map.total List.length (cutTo q.mailboxes name rest) < Map.total List.length q.mailboxes
  omega

variable (q)

/-- Discards the oldest envelopes until there is room for `size` bytes more; false if there is nothing left to
discard. -/
def makeRoom (order : HashOrder) (size : Nat) (q : RelayQueue) : Bool × RelayQueue :=
  if q.totalBytes + size > maxTotalBytes then
    match _h : q.discardOldest order with
    | some q' => makeRoom order size q'
    | none => (false, q)
  else (true, q)
termination_by q.envelopes
decreasing_by exact envelopes_discardOldest _h

/-- Appends an envelope to its mailbox; a full mailbox loses its oldest. -/
def push (mailbox : Text) (held : Held) : RelayQueue :=
  let queue := q.held mailbox
  let (q, queue) :=
    match queue with
    | dropped :: rest =>
      if queue.length ≥ maxQueuedEnvelopes then (q.subtract dropped.bytes.length, rest) else (q, queue)
    | [] => (q, queue)
  { q with
    mailboxes := q.mailboxes.insert mailbox (queue ++ [held])
    totalBytes := q.totalBytes + held.bytes.length }

/-- Accepts an envelope for a mailbox. The clock is read twice: for the age of what is held, and for the envelope. -/
def deposit (order : HashOrder) (now stamp : Nat) (mailbox : Text) (envelope : Bytes) :
    Except RelayError Unit × RelayQueue :=
  match checkFrameLength envelope.length maxEnvelopeBytes with
  | .error e => (.error (.limit e), q)
  | .ok () =>
    let q := q.expire now
    if mailbox ∉ q.mailboxes ∧ q.mailboxes.keys.length ≥ maxMailboxes then (.error (.full "mailboxes"), q)
    else
      match q.makeRoom order envelope.length with
      | (false, q) => (.error (.full "bytes"), q)
      | (true, q) => (.ok (), q.push mailbox ⟨envelope, stamp⟩)

/-- Takes everything waiting in a mailbox. -/
def collect (now : Nat) (mailbox : Text) : List Bytes × RelayQueue :=
  let q := q.expire now
  let held := q.held mailbox
  let q := { q with mailboxes := q.mailboxes.erase mailbox }
  (held.map Held.bytes, held.foldl (fun q h => q.subtract h.bytes.length) q)

/-! ## What a call leaves in each mailbox -/

variable {q}

theorem held_cut {m : Map Text (List Held)} {name box : Text} {rest : List Held} :
    (AList.lookup box (cutTo m name rest)).getD [] = if box = name then rest else (m.lookup box).getD [] := by
  unfold cutTo
  split_ifs with hr hb hb
  · rw [hb, hr, AList.lookup_erase]
    rfl
  · rw [AList.lookup_erase_ne hb]
  · rw [hb, AList.lookup_insert]
    rfl
  · rw [AList.lookup_insert_ne hb]

theorem held_expire (now : Nat) (box : Text) : (q.expire now).held box = fresh envelopeTtl now (q.held box) := by
  unfold expire expireOlderThan held
  rw [Map.lookup_retain]
  cases q.mailboxes.lookup box with
  | none => rfl
  | some queue =>
    rw [Option.bind_some]
    split_ifs with h
    · exact h.symm
    · rfl

/-- Discarding takes from the front of a mailbox. -/
theorem held_discardOldest {order : HashOrder} {q' : RelayQueue} (h : q.discardOldest order = some q') (box : Text) :
    q'.held box <:+ q.held box := by
  obtain ⟨name, dropped, rest, hl, rfl⟩ := discardOldest_eq_some h
  have hheld : RelayQueue.held { q.subtract dropped.bytes.length with mailboxes := cutTo q.mailboxes name rest } box =
      if box = name then rest else q.held box := held_cut
  rw [hheld]
  split_ifs with hb
  · rw [held, hb, hl]
    exact List.suffix_cons dropped rest
  · exact List.suffix_rfl

theorem held_makeRoom (order : HashOrder) (size : Nat) (q : RelayQueue) (box : Text) :
    (makeRoom order size q).2.held box <:+ q.held box := by
  fun_induction makeRoom order size q with
  | case1 q _ q' h ih => exact ih.trans (held_discardOldest h box)
  | case2 q => exact List.suffix_rfl
  | case3 q => exact List.suffix_rfl

/-- An envelope is appended to what its mailbox holds, or to all but the oldest of it. -/
theorem push_cases (q : RelayQueue) (mailbox : Text) (held : Held) :
    ((q.held mailbox).length < maxQueuedEnvelopes ∧
      q.push mailbox held = { q with
        mailboxes := q.mailboxes.insert mailbox (q.held mailbox ++ [held])
        totalBytes := q.totalBytes + held.bytes.length }) ∨
    ∃ dropped rest, q.held mailbox = dropped :: rest ∧ (q.held mailbox).length ≥ maxQueuedEnvelopes ∧
      q.push mailbox held = { q.subtract dropped.bytes.length with
        mailboxes := q.mailboxes.insert mailbox (rest ++ [held])
        totalBytes := (q.subtract dropped.bytes.length).totalBytes + held.bytes.length } := by
  unfold push
  cases hq : q.held mailbox with
  | nil => exact .inl ⟨by decide, rfl⟩
  | cons dropped rest =>
    by_cases hfull : (dropped :: rest).length ≥ maxQueuedEnvelopes
    · exact .inr ⟨dropped, rest, rfl, hfull, by simp only [if_pos hfull]; rfl⟩
    · exact .inl ⟨by omega, by simp only [if_neg hfull]⟩

theorem held_push (mailbox : Text) (held : Held) (box : Text) :
    ∃ kept, kept <:+ q.held box ∧ (q.push mailbox held).held box = if box = mailbox then kept ++
    [held] else kept := by
  have hinsert : ∀ queue, ((q.mailboxes.insert mailbox (queue ++ [held])).lookup box).getD [] =
      if box = mailbox then queue ++ [held] else q.held box := by
    intro queue
    rw [Map.lookup_insert_ite]
    split_ifs <;> rfl
  by_cases hb : box = mailbox
  · subst hb
    rcases push_cases q box held with ⟨-, h⟩ | ⟨dropped, rest, hq, -, h⟩ <;> rw [h]
    · exact ⟨_, List.suffix_rfl, hinsert _⟩
    · exact ⟨rest, hq ▸ List.suffix_cons dropped rest, (hinsert rest).trans (by rw [if_pos rfl, if_pos rfl])⟩
  · refine ⟨q.held box, List.suffix_rfl, ?_⟩
    rw [if_neg hb]
    rcases push_cases q mailbox held with ⟨-, h⟩ | ⟨dropped, rest, -, -, h⟩ <;> rw [h]
    · exact (hinsert _).trans (if_neg hb)
    · exact (hinsert _).trans (if_neg hb)

/-- A deposit is refused for its size, refused because there are too many mailboxes, or its envelope is appended once
there is room. -/
theorem deposit_cases (q : RelayQueue) (order : HashOrder) (now stamp : Nat) (mailbox : Text) (envelope : Bytes) :
    (maxEnvelopeBytes < envelope.length ∧ ∃ e, q.deposit order now stamp mailbox envelope = (.error e, q)) ∨
    (envelope.length ≤ maxEnvelopeBytes ∧
      ((mailbox ∉ (q.expire now).mailboxes ∧ (q.expire now).mailboxes.keys.length ≥ maxMailboxes ∧
          ∃ e, q.deposit order now stamp mailbox envelope = (.error e, q.expire now)) ∨
        ((mailbox ∈ (q.expire now).mailboxes ∨ (q.expire now).mailboxes.keys.length < maxMailboxes) ∧
          ∃ q', (makeRoom order envelope.length (q.expire now) = (false, q') ∧
              ∃ e, q.deposit order now stamp mailbox envelope = (.error e, q')) ∨
            (makeRoom order envelope.length (q.expire now) = (true, q') ∧
              q.deposit order now stamp mailbox envelope = (.ok (), q'.push mailbox ⟨envelope, stamp⟩))))) := by
  by_cases hsize : envelope.length ≤ maxEnvelopeBytes
  · refine .inr ⟨hsize, ?_⟩
    unfold deposit
    rw [checkFrameLength_eq_ok.mpr hsize]
    by_cases hfull : mailbox ∉ (q.expire now).mailboxes ∧ (q.expire now).mailboxes.keys.length ≥ maxMailboxes
    · exact .inl ⟨hfull.1, hfull.2, .full "mailboxes", if_pos hfull⟩
    · refine .inr ⟨by by_contra hno; push Not at hno; exact hfull hno, ?_⟩
      simp only [if_neg hfull]
      rcases hroom : makeRoom order envelope.length (q.expire now) with ⟨room, q'⟩
      cases room with
      | false => exact ⟨q', .inl ⟨rfl, _, rfl⟩⟩
      | true => exact ⟨q', .inr ⟨rfl, rfl⟩⟩
  · have herr : checkFrameLength envelope.length maxEnvelopeBytes = .error
      (.tooLarge maxEnvelopeBytes envelope.length) :=
      if_pos (by omega)
    refine .inl ⟨by omega, .limit (.tooLarge maxEnvelopeBytes envelope.length), ?_⟩
    unfold deposit
    rw [herr]

/-- If there is room already then nothing has to go. -/
theorem deposit_of_room {q : RelayQueue} {now : Nat} {mailbox : Text} {envelope : Bytes}
    (hsize : envelope.length ≤ maxEnvelopeBytes)
    (hbox : mailbox ∈ (q.expire now).mailboxes ∨ (q.expire now).mailboxes.keys.length < maxMailboxes)
    (hroom : (q.expire now).totalBytes + envelope.length ≤ maxTotalBytes) (order : HashOrder) (stamp : Nat) :
    q.deposit order now stamp mailbox envelope = (.ok (), (q.expire now).push mailbox ⟨envelope, stamp⟩) := by
  have hmade : makeRoom order envelope.length (q.expire now) = (true, q.expire now) := by
    rw [makeRoom, if_neg (by omega)]
  rcases deposit_cases q order now stamp mailbox envelope with
    ⟨h, -⟩ | ⟨-, ⟨hno, hfull, -⟩ | ⟨-, q', ⟨h, -⟩ | ⟨h, he⟩⟩⟩
  · omega
  · exact absurd (hbox.resolve_left hno) (by omega)
  · rw [hmade] at h
    cases h
  · rw [hmade] at h
    cases h
    exact he

/-- A deposit keeps the end of what is not too old in each mailbox, and an accepted envelope comes last in its own. -/
theorem held_deposit (q : RelayQueue) (order : HashOrder) (now stamp : Nat) (mailbox : Text) (envelope : Bytes)
    (box : Text) :
    ((q.deposit order now stamp mailbox envelope).1 = .ok () ∧
      ∃ kept, kept <:+ fresh envelopeTtl now (q.held box) ∧
        (q.deposit order now stamp mailbox envelope).2.held box =
          if box = mailbox then kept ++ [⟨envelope, stamp⟩] else kept) ∨
    ((∃ e, (q.deposit order now stamp mailbox envelope).1 = .error e) ∧
      ((q.deposit order now stamp mailbox envelope).2.held box = q.held box ∨
        (q.deposit order now stamp mailbox envelope).2.held box <:+ fresh envelopeTtl now (q.held box))) := by
  have hroom := held_makeRoom order envelope.length (q.expire now) box
  rw [held_expire] at hroom
  rcases deposit_cases q order now stamp mailbox envelope with
    ⟨-, e, h⟩ | ⟨-, ⟨-, -, e, h⟩ | ⟨-, q', ⟨hq', e, h⟩ | ⟨hq', h⟩⟩⟩ <;> rw [h]
  · exact .inr ⟨⟨e, rfl⟩, .inl rfl⟩
  · exact .inr ⟨⟨e, rfl⟩, .inr (held_expire now box ▸ List.suffix_rfl)⟩
  · rw [hq'] at hroom
    exact .inr ⟨⟨e, rfl⟩, .inr hroom⟩
  · rw [hq'] at hroom
    obtain ⟨kept, hkept, hpush⟩ := held_push (q := q') mailbox ⟨envelope, stamp⟩ box
    exact .inl ⟨rfl, kept, hkept.trans hroom, hpush⟩

theorem mailboxes_foldl_subtract (queue : List Held) (q : RelayQueue) :
    (queue.foldl (fun q h => q.subtract h.bytes.length) q).mailboxes = q.mailboxes := by
  induction queue generalizing q with
  | nil => rfl
  | cons h queue ih => rw [List.foldl_cons, ih]; rfl

/-- A collection returns what is not too old in its mailbox and leaves nothing there. -/
theorem held_collect (now : Nat) (mailbox : Text) :
    (q.collect now mailbox).1 = (fresh envelopeTtl now (q.held mailbox)).map Held.bytes ∧
      ∀ box, (q.collect now mailbox).2.held box =
        if box = mailbox then [] else fresh envelopeTtl now (q.held box) := by
  refine ⟨by rw [collect, held_expire], fun box => ?_⟩
  unfold collect
  rw [held, mailboxes_foldl_subtract, Map.lookup_erase_ite]
  split_ifs with hb
  · rfl
  · exact held_expire now box

/-! ## The bounds -/

/-- What holds of every queue: the total is exact and no subtraction from it has come out short, and everything is
within its bound. -/
structure Bounded (q : RelayQueue) : Prop where
  total : q.totalBytes = q.mailboxes.total sizeOf
  exact : q.short = false
  bytes : q.totalBytes ≤ maxTotalBytes
  boxes : q.mailboxes.keys.length ≤ maxMailboxes
  nonempty : ∀ box queue, q.mailboxes.lookup box = some queue → queue ≠ []
  depth : ∀ box queue, q.mailboxes.lookup box = some queue → queue.length ≤ maxQueuedEnvelopes
  size : ∀ box queue, q.mailboxes.lookup box = some queue → ∀ h ∈ queue, h.bytes.length ≤ maxEnvelopeBytes

theorem sizeOf_cons (h : Held) (queue : List Held) : sizeOf (h :: queue) = h.bytes.length + sizeOf queue := rfl

theorem sizeOf_append (queue queue' : List Held) : sizeOf (queue ++ queue') = sizeOf queue + sizeOf queue' := by
  unfold sizeOf
  rw [List.map_append, List.sum_append]

theorem sizeOf_fresh_le (ttl now : Nat) (queue : List Held) : sizeOf (fresh ttl now queue) ≤ sizeOf queue := by
  induction queue with
  | nil => exact Nat.le_refl _
  | cons h queue ih =>
    unfold fresh at ih ⊢
    rw [List.filter_cons, sizeOf_cons]
    split_ifs
    · rw [sizeOf_cons]
      omega
    · omega

/-- Cutting a mailbox down adds none. -/
theorem length_keys_cut {m : Map Text (List Held)} {name : Text} (rest : List Held) (h : name ∈ m) :
    (cutTo m name rest).keys.length = m.keys.length - if rest = [] then 1 else 0 := by
  unfold cutTo
  split_ifs
  · exact Map.length_keys_erase h
  · exact Map.length_keys_insert rest h

theorem lookup_cut {m : Map Text (List Held)} {name box : Text} {rest queue : List Held}
    (h : AList.lookup box (cutTo m name rest) = some queue) :
    (box = name ∧ queue = rest ∧ rest ≠ []) ∨ (box ≠ name ∧ m.lookup box = some queue) := by
  unfold cutTo at h
  split_ifs at h with hr
  · rw [Map.lookup_erase_ite] at h
    split_ifs at h with hb
    exact .inr ⟨hb, h⟩
  · rw [Map.lookup_insert_ite] at h
    split_ifs at h with hb
    · exact .inl ⟨hb, (Option.some.inj h).symm, hr⟩
    · exact .inr ⟨hb, h⟩

namespace Bounded

theorem expire (h : Bounded q) (now : Nat) : Bounded (q.expire now) := by
  have hlookup : ∀ box queue, (q.expire now).mailboxes.lookup box = some queue →
      ∃ queue₀, q.mailboxes.lookup box = some queue₀ ∧ queue = fresh envelopeTtl now queue₀ ∧ queue ≠ [] := by
    intro box queue hq
    unfold RelayQueue.expire expireOlderThan at hq
    simp only [Map.lookup_retain] at hq
    obtain ⟨queue₀, hq₀, hf⟩ := Option.bind_eq_some_iff.mp hq
    split_ifs at hf with hne
    cases hf
    exact ⟨queue₀, hq₀, rfl, hne⟩
  have htotal : (q.expire now).totalBytes ≤ q.totalBytes := by
    rw [h.total]
    refine Map.total_retain_le ?_ q.mailboxes
    intro v v' hv
    split_ifs at hv
    cases hv
    exact sizeOf_fresh_le _ _ v
  refine ⟨rfl, h.exact, htotal.trans h.bytes, (Map.length_keys_retain_le _ _).trans h.boxes, ?_, ?_, ?_⟩
  · intro box queue hq
    obtain ⟨_, _, _, hne⟩ := hlookup box queue hq
    exact hne
  · intro box queue hq
    obtain ⟨queue₀, hq₀, rfl, -⟩ := hlookup box queue hq
    exact (List.length_filter_le _ _).trans (h.depth box queue₀ hq₀)
  · intro box queue hq e he
    obtain ⟨queue₀, hq₀, rfl, -⟩ := hlookup box queue hq
    exact h.size box queue₀ hq₀ e (List.mem_of_mem_filter he)

theorem discardOldest {order : HashOrder} {q' : RelayQueue} (h : Bounded q) (hd : q.discardOldest order = some q') :
    Bounded q' := by
  obtain ⟨name, dropped, rest, hl, rfl⟩ := discardOldest_eq_some hd
  have hcut := total_cut sizeOf rfl rest hl
  rw [sizeOf_cons, ← h.total] at hcut
  have hle : dropped.bytes.length ≤ q.totalBytes := by
    have := Map.le_total (w := sizeOf) hl
    rw [sizeOf_cons, ← h.total] at this
    omega
  refine ⟨?_, ?_, ?_, ?_, ?_, ?_, ?_⟩
  · show q.totalBytes - dropped.bytes.length = Map.total sizeOf (cutTo q.mailboxes name rest)
    omega
  · simp [subtract, h.exact, hle]
  · exact (Nat.sub_le _ _).trans h.bytes
  · exact (length_keys_cut rest (Map.mem_of_lookup hl)).le.trans ((Nat.sub_le _ _).trans h.boxes)
  · intro box queue hq
    rcases lookup_cut hq with ⟨-, rfl, hr⟩ | ⟨-, hq⟩
    · exact hr
    · exact h.nonempty box queue hq
  · intro box queue hq
    rcases lookup_cut hq with ⟨-, rfl, -⟩ | ⟨-, hq⟩
    · exact (Nat.le_succ _).trans (h.depth name _ hl)
    · exact h.depth box queue hq
  · intro box queue hq e he
    rcases lookup_cut hq with ⟨-, rfl, -⟩ | ⟨-, hq⟩
    · exact h.size name _ hl e (List.mem_cons_of_mem _ he)
    · exact h.size box queue hq e he

/-- As long as bytes are held there is something to discard. -/
theorem discardOldest_isSome (h : Bounded q) (order : HashOrder) (hpos : 0 < q.totalBytes) :
    ∃ q', q.discardOldest order = some q' := by
  rw [h.total] at hpos
  obtain ⟨box, queue, hq, -⟩ := Map.exists_of_total_pos hpos
  obtain ⟨head, tail, rfl⟩ := List.exists_cons_of_ne_nil (h.nonempty box queue hq)
  have hmem : (box, head.deposited) ∈ order.fronts q.mailboxes := by
    refine List.mem_filterMap.mpr ⟨box, (order.perm _).mem_iff.mpr (AList.mem_keys.mp (Map.mem_of_lookup hq)), ?_⟩
    rw [hq]
    rfl
  cases ha : (order.fronts q.mailboxes).argmin Prod.snd with
  | none =>
    rw [List.argmin_eq_none.mp ha] at hmem
    cases hmem
  | some p =>
    -- the oldest front is the front of a mailbox
    obtain ⟨name, -, hn⟩ := List.mem_filterMap.mp (List.argmin_mem ha)
    obtain ⟨dropped, hhead, rfl⟩ := Option.map_eq_some_iff.mp hn
    obtain ⟨found, hfound, hhead⟩ := Option.bind_eq_some_iff.mp hhead
    have hoption : order.oldest q.mailboxes = some name := by rw [HashOrder.oldest, ha]; rfl
    unfold RelayQueue.discardOldest
    rw [hoption]
    cases found with
    | nil => cases hhead
    | cons dropped rest => simp only [hfound]; exact ⟨_, rfl⟩

/-- **Room is always made.** The mailbox of the envelope may go in the process, but then there is a place for it. -/
theorem makeRoom (h : Bounded q) (order : HashOrder) {size : Nat} (hsize : size ≤ maxTotalBytes) {mailbox : Text}
    (hbox : mailbox ∈ q.mailboxes ∨ q.mailboxes.keys.length < maxMailboxes) :
    ∃ q', makeRoom order size q = (true, q') ∧ Bounded q' ∧ q'.totalBytes + size ≤ maxTotalBytes ∧
      (mailbox ∈ q'.mailboxes ∨ q'.mailboxes.keys.length < maxMailboxes) := by
  fun_induction RelayQueue.makeRoom order size q with
  | case1 q hover q' hd ih =>
    refine ih (h.discardOldest hd) ?_
    obtain ⟨name, dropped, rest, hl, rfl⟩ := discardOldest_eq_some hd
    have hname := Map.mem_of_lookup hl
    have hlen := length_keys_cut rest hname
    have hpos : 0 < q.mailboxes.keys.length := List.length_pos_of_mem (AList.mem_keys.mp hname)
    have hboxes := h.boxes
    by_cases hr : rest = []
    · rw [if_pos hr] at hlen
      exact .inr (by simp only []; omega)
    · rw [if_neg hr] at hlen
      refine hbox.imp (fun hm => ?_) (fun hm => ?_)
      · simp only [cutTo, if_neg hr]
        exact (AList.mem_insert _).mpr (.inr hm)
      · simp only []
        omega
  | case2 q hover hd =>
    obtain ⟨q', hq'⟩ := h.discardOldest_isSome order (by omega)
    rw [hd] at hq'
    cases hq'
  | case3 q hroom => exact ⟨q, rfl, h, by omega, hbox⟩

/-- A new envelope for which there is room, in its own mailbox or a new one. -/
theorem push (h : Bounded q) {mailbox : Text} {held : Held} (hroom : q.totalBytes + held.bytes.length ≤ maxTotalBytes)
    (hsize : held.bytes.length ≤ maxEnvelopeBytes)
    (hbox : mailbox ∈ q.mailboxes ∨ q.mailboxes.keys.length < maxMailboxes) : Bounded (q.push mailbox held) := by
  -- what the mailbox holds already, as far as it is kept, comes before the new envelope
  have hkept : ∀ e ∈ q.held mailbox, e.bytes.length ≤ maxEnvelopeBytes := by
    intro e he
    unfold RelayQueue.held at he
    cases hq : q.mailboxes.lookup mailbox with
    | none => rw [hq] at he; cases he
    | some queue => rw [hq] at he; exact h.size mailbox queue hq e he
  have htotal : Map.total sizeOf (q.mailboxes.erase mailbox) + sizeOf (q.held mailbox) = q.totalBytes := by
    have he := Map.total_erase sizeOf q.mailboxes mailbox
    rw [← h.total] at he
    rw [← he, RelayQueue.held]
    cases q.mailboxes.lookup mailbox <;> rfl
  have hboxes : ∀ queue, (q.mailboxes.insert mailbox queue).keys.length ≤ maxMailboxes := by
    intro queue
    by_cases hm : mailbox ∈ q.mailboxes
    · exact (Map.length_keys_insert queue hm).le.trans h.boxes
    · rw [Map.length_keys_insert_new queue hm]
      exact hbox.resolve_left hm
  -- the mailboxes after the insertion of `kept ++ [held]`, for a part `kept` of the old contents
  have hlookup : ∀ kept : List Held, kept.length < maxQueuedEnvelopes → (∀ e ∈ kept, e ∈ q.held mailbox) →
      ∀ box queue, (q.mailboxes.insert mailbox (kept ++ [held])).lookup box = some queue →
        queue ≠ [] ∧ queue.length ≤ maxQueuedEnvelopes ∧ ∀ e ∈ queue, e.bytes.length ≤ maxEnvelopeBytes := by
    intro kept hlen hsub box queue hq
    rw [Map.lookup_insert_ite] at hq
    split_ifs at hq with hb
    · cases hq
      refine ⟨by simp, by rw [List.length_append]; exact hlen, fun e he => ?_⟩
      rcases List.mem_append.mp he with he | he
      · exact hkept e (hsub e he)
      · rw [List.mem_singleton.mp he]
        exact hsize
    · exact ⟨h.nonempty box queue hq, h.depth box queue hq, h.size box queue hq⟩
  rcases push_cases q mailbox held with ⟨hlen, he⟩ | ⟨dropped, rest, hq, hlen, he⟩ <;> rw [he]
  · have hfind := hlookup (q.held mailbox) hlen (fun e he => he)
    refine ⟨?_, h.exact, hroom, hboxes _, fun box queue hq => (hfind box queue hq).1,
      fun box queue hq => (hfind box queue hq).2.1, fun box queue hq => (hfind box queue hq).2.2⟩
    show q.totalBytes + held.bytes.length =
      Map.total sizeOf (q.mailboxes.insert mailbox (q.held mailbox ++ [held]))
    rw [Map.total_insert, sizeOf_append]
    show _ = _ + (held.bytes.length + 0) + _
    omega
  · have hdepth : rest.length < maxQueuedEnvelopes := by
      cases hm : q.mailboxes.lookup mailbox with
      | none => rw [RelayQueue.held, hm] at hq; cases hq
      | some queue =>
        have hle := h.depth mailbox queue hm
        rw [RelayQueue.held, hm] at hq
        rw [show queue = dropped :: rest from hq, List.length_cons] at hle
        omega
    have hsub : ∀ e ∈ rest, e ∈ q.held mailbox := fun e he => hq ▸ List.mem_cons_of_mem _ he
    have hfind := hlookup rest hdepth hsub
    rw [hq, sizeOf_cons] at htotal
    refine ⟨?_, ?_, ?_, hboxes _, fun box queue hq => (hfind box queue hq).1,
      fun box queue hq => (hfind box queue hq).2.1, fun box queue hq => (hfind box queue hq).2.2⟩
    · rw [Map.total_insert, sizeOf_append]
      show q.totalBytes - dropped.bytes.length + held.bytes.length = _ + (held.bytes.length + 0) + _
      omega
    · have : ¬ q.totalBytes < dropped.bytes.length := by omega
      simp [subtract, h.exact, this]
    · show q.totalBytes - dropped.bytes.length + held.bytes.length ≤ maxTotalBytes
      omega

theorem deposit (h : Bounded q) (order : HashOrder) (now stamp : Nat) (mailbox : Text) (envelope : Bytes) :
    Bounded (q.deposit order now stamp mailbox envelope).2 := by
  have hexp := h.expire now
  rcases deposit_cases q order now stamp mailbox envelope with
    ⟨-, e, he⟩ | ⟨hsize, ⟨-, -, e, he⟩ | ⟨hbox, q', hq'⟩⟩
  · rw [he]
    exact h
  · rw [he]
    exact hexp
  · have hfits : envelope.length ≤ maxTotalBytes := hsize.trans (by decide)
    obtain ⟨q'', hmade, hb, hroom, hbox'⟩ := hexp.makeRoom order hfits hbox
    rcases hq' with ⟨hmade', -⟩ | ⟨hmade', he⟩
    · rw [hmade] at hmade'
      cases hmade'
    · rw [hmade] at hmade'
      cases hmade'
      rw [he]
      exact hb.push hroom hsize hbox'

end Bounded

/-- Subtracting what is there one envelope after the other. -/
theorem foldl_subtract (queue : List Held) (q : RelayQueue) (h : sizeOf queue ≤ q.totalBytes) :
    (queue.foldl (fun q h => q.subtract h.bytes.length) q).totalBytes = q.totalBytes - sizeOf queue ∧
      (queue.foldl (fun q h => q.subtract h.bytes.length) q).short = q.short := by
  induction queue generalizing q with
  | nil => exact ⟨rfl, rfl⟩
  | cons e queue ih =>
    rw [sizeOf_cons] at h ⊢
    have hrest : sizeOf queue ≤ (q.subtract e.bytes.length).totalBytes := by
      show _ ≤ q.totalBytes - e.bytes.length
      omega
    obtain ⟨ht, hs⟩ := ih (q.subtract e.bytes.length) hrest
    have hno : ¬ q.totalBytes < e.bytes.length := by omega
    refine ⟨ht.trans ?_, hs.trans ?_⟩
    · show q.totalBytes - e.bytes.length - sizeOf queue = _
      omega
    · simp [subtract, hno]

theorem Bounded.collect (h : Bounded q) (now : Nat) (mailbox : Text) : Bounded (q.collect now mailbox).2 := by
  have hexp := h.expire now
  unfold RelayQueue.collect
  generalize q.expire now = q at hexp ⊢
  have htotal : Map.total sizeOf (q.mailboxes.erase mailbox) + sizeOf (q.held mailbox) = q.totalBytes := by
    have he := Map.total_erase sizeOf q.mailboxes mailbox
    rw [← hexp.total] at he
    rw [← he, RelayQueue.held]
    cases q.mailboxes.lookup mailbox <;> rfl
  obtain ⟨ht, hs⟩ := foldl_subtract (q.held mailbox) { q with mailboxes := q.mailboxes.erase mailbox }
    (show _ ≤ q.totalBytes by omega)
  have hlookup : ∀ {box queue}, (q.mailboxes.erase mailbox).lookup box = some queue →
      q.mailboxes.lookup box = some queue := by
    intro box queue hq
    rw [Map.lookup_erase_ite] at hq
    split_ifs at hq
    exact hq
  refine ⟨?_, hs.trans hexp.exact, ?_, ?_, ?_, ?_, ?_⟩
  · rw [ht, mailboxes_foldl_subtract]
    show q.totalBytes - sizeOf (q.held mailbox) = Map.total sizeOf (q.mailboxes.erase mailbox)
    omega
  · rw [ht]
    exact (Nat.sub_le _ _).trans hexp.bytes
  · rw [mailboxes_foldl_subtract]
    exact (Map.length_keys_erase_le q.mailboxes mailbox).trans hexp.boxes
  · rw [mailboxes_foldl_subtract]
    exact fun box queue hq => hexp.nonempty box queue (hlookup hq)
  · rw [mailboxes_foldl_subtract]
    exact fun box queue hq => hexp.depth box queue (hlookup hq)
  · rw [mailboxes_foldl_subtract]
    exact fun box queue hq => hexp.size box queue (hlookup hq)

end RelayQueue

/-! ## Every run -/

/-- A call on the queue, with the readings of the clock and the iteration order of the hash map during it. -/
inductive RelayCall where
  | deposit (order : HashOrder) (now stamp : Nat) (mailbox : Text) (envelope : Bytes)
  | collect (now : Nat) (mailbox : Text)

def RelayQueue.step (q : RelayQueue) : RelayCall → RelayQueue
  | .deposit order now stamp mailbox envelope => (q.deposit order now stamp mailbox envelope).2
  | .collect now mailbox => (q.collect now mailbox).2

/-- The queue after a list of calls. -/
def relayRun (calls : List RelayCall) : RelayQueue := run RelayQueue.step {} calls

theorem bounded_relayRun (calls : List RelayCall) : (relayRun calls).Bounded := by
  refine run_induction (P := fun _ q => q.Bounded) RelayQueue.step ?_ (fun h call hq => ?_) calls
  · refine ⟨rfl, rfl, Nat.zero_le _, Nat.zero_le _, ?_, ?_, ?_⟩
    · intro box queue hq; cases hq
    · intro box queue hq; cases hq
    · intro box queue hq; cases hq
  · cases call with
    | deposit order now stamp mailbox envelope => exact hq.deposit order now stamp mailbox envelope
    | collect now mailbox => exact hq.collect now mailbox

/-- **The queue stays within its bounds.** After every run the total is exact and everything is within its bound, and
whatever envelope of an admitted size comes next, the loop that makes room for it ends with the room it needs. -/
theorem relay_bounded (calls : List RelayCall) :
    (relayRun calls).Bounded ∧ ∀ order now size, size ≤ maxEnvelopeBytes →
      ∃ q, RelayQueue.makeRoom order size ((relayRun calls).expire now) = (true, q) ∧ q.Bounded ∧
        q.totalBytes + size ≤ maxTotalBytes := by
  refine ⟨bounded_relayRun calls, fun order now size hsize => ?_⟩
  have hexp := (bounded_relayRun calls).expire now
  have hfits : size ≤ maxTotalBytes := hsize.trans (by decide)
  obtain ⟨mailbox, hbox⟩ : ∃ mailbox, mailbox ∈ ((relayRun calls).expire now).mailboxes ∨
      ((relayRun calls).expire now).mailboxes.keys.length < maxMailboxes := by
    cases hkeys : ((relayRun calls).expire now).mailboxes.keys with
    | nil => exact ⟨[], .inr (by decide)⟩
    | cons name rest => exact ⟨name, .inl (AList.mem_keys.mpr (hkeys ▸ List.mem_cons_self))⟩
  obtain ⟨q, hmade, hq, hroom, -⟩ := hexp.makeRoom order hfits hbox
  exact ⟨q, hmade, hq, hroom⟩

theorem relay_bounded_largest :
    ∃ q, RelayQueue.makeRoom .keys maxEnvelopeBytes ((relayRun [.deposit .keys 0 0 "m" [7]]).expire 1) = (true, q) ∧
      q.Bounded ∧ q.totalBytes + maxEnvelopeBytes ≤ maxTotalBytes :=
  (relay_bounded [.deposit .keys 0 0 "m" [7]]).2 .keys 1 maxEnvelopeBytes (Nat.le_refl _)

end Idnx
