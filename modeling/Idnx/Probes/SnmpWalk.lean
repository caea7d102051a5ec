import Idnx.Probes.Snmp

/-!
# Walking a subtree

`snmpRequest` sends one request and accepts the first datagram of its target that answers it; `snmpWalkTarget` repeats
it, each time with the identifier of the row before. What the network does in a step is an `SnmpExchange`.

* `walkStep_cases`: everything a step can do, and `walkLoop_walked`, what any walk keeps;
* `Honest`: an agent that answers from a finite table, and `walkLoop_of_honest`, the walk of its subtree;
* `snmp_walk`: both for a whole walk.
-/

namespace Idnx

open Outcome

/-! ## The order of identifiers -/

namespace Oid

/-- The order of identifiers: by the first component that differs, a beginning before what it begins. -/
def lt : Oid → Oid → Bool
  | [], [] => false
  | [], _ :: _ => true
  | _ :: _, [] => false
  | a :: as, b :: bs => if a.toNat < b.toNat then true else if b.toNat < a.toNat then false else lt as bs

theorem cons_lt_cons {a b : UInt32} {as bs : Oid} :
    lt (a :: as) (b :: bs) = true ↔ a.toNat < b.toNat ∨ (a = b ∧ lt as bs = true) := by
  rw [← UInt32.toNat_inj]
  simp only [lt]
  split
  · simp [*]
  · split
    · simp only [Bool.false_eq_true, false_iff]
      omega
    · rename_i hnot hnot'
      have heq : a.toNat = b.toNat := by omega
      simp [heq]

theorem lt_irrefl (a : Oid) : lt a a = false := by
  induction a with
  | nil => rfl
  | cons x a ih => simp [lt, ih]

theorem lt_trans {a b c : Oid} (hab : lt a b = true) (hbc : lt b c = true) : lt a c = true := by
  induction a generalizing b c with
  | nil =>
    cases c with
    | nil => cases b <;> cases hbc
    | cons z c => rfl
  | cons x a ih =>
    cases b with
    | nil => cases hab
    | cons y b =>
      cases c with
      | nil => cases hbc
      | cons z c =>
        rw [cons_lt_cons] at hab hbc ⊢
        rcases hab with hxy | ⟨rfl, hab⟩
        · rcases hbc with hyz | ⟨rfl, hbc⟩
          · exact .inl (Nat.lt_trans hxy hyz)
          · exact .inl hxy
        · rcases hbc with hyz | ⟨rfl, hbc⟩
          · exact .inl hyz
          · exact .inr ⟨rfl, ih hab hbc⟩

theorem startsWith_nil (a : Oid) : a.startsWith [] = true := by
  simp [startsWith]

theorem startsWith_cons {a x : UInt32} {as xs : Oid} :
    startsWith (a :: as) (x :: xs) = true ↔ a = x ∧ startsWith as xs = true := by
  simp only [startsWith, List.length_cons, Nat.add_lt_add_iff_right]
  split
  · simp
  · simp

theorem nil_startsWith {x : UInt32} {xs : Oid} : startsWith [] (x :: xs) = false := by
  simp [startsWith]

/-- Between the beginning and what it begins there is only what it begins. -/
theorem startsWith_of_between {start a b : Oid} (hb : b.startsWith start = true) (hstart : lt a start = false)
    (hab : lt a b = true) : a.startsWith start = true := by
  induction start generalizing a b with
  | nil => exact startsWith_nil a
  | cons x start ih =>
    cases b with
    | nil => rw [nil_startsWith] at hb; cases hb
    | cons y b =>
      cases a with
      | nil => cases hstart
      | cons z a =>
        rw [startsWith_cons] at hb ⊢
        rw [cons_lt_cons] at hab
        rw [← Bool.not_eq_true, cons_lt_cons, not_or] at hstart
        obtain ⟨rfl, hb⟩ := hb
        rcases hab with hzy | ⟨rfl, hab⟩
        · exact absurd hzy hstart.1
        · refine ⟨rfl, ih hb ?_ hab⟩
          rw [← Bool.not_eq_true]
          exact fun hlt => hstart.2 ⟨rfl, hlt⟩

end Oid

/-! ## One request -/

/-- An address and a port. -/
inductive SocketAddr where
  | v4 (addr : Ipv4Addr) (port : UInt16)
  | v6 (addr : Ipv6Addr) (port : UInt16)
  deriving DecidableEq, Repr

/-- Where a conversation goes, and which device it is about. -/
structure SnmpTarget where
  device : Ipv4Addr
  transportAddr : Ipv4Addr
  transportPort : UInt16
  community : Text
  deriving DecidableEq, Repr

def SnmpTarget.dest (target : SnmpTarget) : SocketAddr := .v4 target.transportAddr target.transportPort

/-- One return of the socket before the request's time is up. -/
inductive Received where
  | datagram (source : SocketAddr) (bytes : Bytes)
  /-- The platform refuses what is larger than the buffer. -/
  | oversized
  | failed (error : Text)
  deriving DecidableEq, Repr

/-- What the surroundings do in one step: whether the walk's time is up, the clock, the socket, and what arrives
before the request's time is up for the bytes that were sent. -/
structure SnmpExchange where
  expired : Bool
  bound : Except Text Unit
  clock : Nat
  sent : Bytes → Except Text Unit
  received : Bytes → List Received

/-- The largest response that is read (`MAX_RESPONSE_BYTES`). -/
def maxResponseBytes : Nat := 8192

def oversizedResponse : Text :=
  ("response exceeds the " : Text) ++ Text.ofNat maxResponseBytes ++ "-byte bound this reads"

/-- The clock in nanoseconds mixed with the identifier; only the lowest 31 bits are kept. -/
def requestId (clock : Nat) (oid : Oid) : Int32 :=
  Int32.ofNat ((clock ^^^ ((oid.map UInt32.toNat).sum <<< 16)) % 2 ^ 31)

/-- The checks of an answer against the request it answers. -/
def validateResponse (target : SnmpTarget) (pduType : UInt8) (oid : Oid) (id : Int32) (message : SnmpMessage) :
    Outcome Text SnmpMessage := do
  require (message.version = 1)
    (("response used SNMP version " : Text) ++ Text.ofInt message.version.toInt ++ " where v2c was asked")
  require (message.community = target.community) "response carried a different community"
  require (message.pdu.pduType = pduGetResponse)
    (("response was PDU type " : Text) ++ tagText message.pdu.pduType ++ ", not a GetResponse")
  require (message.pdu.requestId = id) "response did not carry the request id it answers"
  require (¬ (message.pdu.errorStatus = 0 ∧ message.pdu.varbinds.length ≠ 1))
    (("response carried " : Text) ++ Text.ofNat message.pdu.varbinds.length ++ " varbinds where one OID was asked")
  require (¬ (pduType = pduGetRequest ∧ message.pdu.errorStatus = 0 ∧
      (message.pdu.varbinds.head?.map Prod.fst) ≠ some oid))
    "response answered about a different OID than the one asked"
  .ok message

/-- Waits for the first datagram from the target; the others are skipped. -/
def awaitResponse (target : SnmpTarget) (pduType : UInt8) (oid : Oid) (id : Int32) :
    List Received → Outcome Text SnmpMessage
  | [] => .err "SNMP request timed out"
  | .oversized :: _ => .err oversizedResponse
  | .failed error :: _ => .err (("UDP recv error: " : Text) ++ error)
  | .datagram source bytes :: rest =>
    if source = target.dest then do
      -- the buffer holds one byte more than the bound
      let received := bytes.take (maxResponseBytes + 1)
      require (received.length ≤ maxResponseBytes) oversizedResponse
      let message ← decodeSnmpResponse received
      validateResponse target pduType oid id message
    else awaitResponse target pduType oid id rest

def snmpRequest (target : SnmpTarget) (pduType : UInt8) (oid : Oid) (e : SnmpExchange) : Outcome Text SnmpMessage :=
  match e.bound with
  | .error error => .err (("UDP bind error: " : Text) ++ error)
  | .ok _ =>
    let id := requestId e.clock oid
    let request := buildSnmpRequest 1 target.community id pduType oid
    match e.sent request with
    | .error error => .err (("UDP send error: " : Text) ++ error)
    | .ok _ => awaitResponse target pduType oid id (e.received request)

/-! ## The walk -/

/-- Why a walk stopped. -/
inductive WalkEnd where
  | endOfMibView
  | leftSubtree
  | agentError (status : Int32)
  | oidDidNotAdvance
  | invalid (reason : Text)
  | bounded (bound : Text)
  deriving DecidableEq, Repr

/-- The rows a walk collected, and why it stopped. -/
structure Walk where
  rows : List (Oid × BerValue)
  stop : WalkEnd
  deriving DecidableEq, Repr

/-- Whether the walk saw the whole subtree. -/
def Walk.complete (walk : Walk) : Bool := walk.stop = .endOfMibView ∨ walk.stop = .leftSubtree

/-- How one step of the walk ends. -/
inductive WalkStep where
  | stop (why : WalkEnd)
  | row (oid : Oid) (value : BerValue)
  deriving DecidableEq, Repr

/-- The answer to one request, from the row last seen. -/
def walkAnswer (root current : Oid) (message : SnmpMessage) : WalkStep :=
  if message.pdu.errorStatus ≠ 0 then .stop (.agentError message.pdu.errorStatus)
  else
    match message.pdu.varbinds.head? with
    | none => .stop (.invalid "response carried no varbind")
    | some (next, value) =>
      if value.isEndOfMibView then .stop .endOfMibView
      else if value.isAbsent then .stop .leftSubtree
      else if ¬ next.startsWith root then .stop .leftSubtree
      else if ¬ current.lt next then .stop .oidDidNotAdvance
      else .row next value

def walkStep (target : SnmpTarget) (root current : Oid) (e : SnmpExchange) : Outcome Text WalkStep :=
  if e.expired then .ok (.stop (.bounded "the walk's total time budget"))
  else
    match snmpRequest target pduGetNextRequest current e with
    | .panic => .panic
    | .err reason => .ok (.stop (.invalid reason))
    | .ok message => .ok (walkAnswer root current message)

/-- The steps that are left, from the row last seen. -/
def walkLoop (target : SnmpTarget) (root : Oid) (world : Nat → SnmpExchange) :
    Nat → Nat → Oid → List (Oid × BerValue) → Outcome Text Walk
  | 0, _, _, rows => .ok ⟨rows, .bounded "the walk's step limit"⟩
  | left + 1, step, current, rows => do
    match ← walkStep target root current (world step) with
    | .stop why => .ok ⟨rows, why⟩
    | .row next value => walkLoop target root world left (step + 1) next (rows ++ [(next, value)])

/-- Walks a subtree; `world` says what happens in each step. -/
def snmpWalkTarget (target : SnmpTarget) (root : Oid) (world : Nat → SnmpExchange) (maxSteps : Nat) :
    Outcome Text Walk :=
  walkLoop target root world maxSteps 0 root []

/-! ## What any agent can do -/

section AnyAgent

variable {target : SnmpTarget} {pduType : UInt8} {root oid current : Oid} {id : Int32}

theorem safe_validateResponse (message : SnmpMessage) :
    Safe (fun m => m.pdu.errorStatus = 0 → m.pdu.varbinds.length = 1)
      (validateResponse target pduType oid id message) := by
  unfold validateResponse
  refine (safe_require _ _).bind fun _ _ => (safe_require _ _).bind fun _ _ => (safe_require _ _).bind fun _ _ => ?_
  refine (safe_require _ _).bind fun _ _ => (safe_require _ _).bind fun _ hone => (safe_require _ _).bind fun _ _ =>
    ?_
  exact fun hzero => Classical.not_not.mp fun hne => hone ⟨hzero, hne⟩

theorem safe_awaitResponse (received : List Received) :
    Safe (fun m => m.pdu.errorStatus = 0 → m.pdu.varbinds.length = 1)
      (awaitResponse target pduType oid id received) := by
  induction received with
  | nil => trivial
  | cons event rest ih =>
    cases event with
    | oversized => trivial
    | failed error => trivial
    | datagram source bytes =>
      unfold awaitResponse
      split
      · refine (safe_require _ _).bind fun _ _ => (safe_decodeSnmpResponse _).bind fun message _ => ?_
        exact safe_validateResponse message
      · exact ih

/-- A request ends with an error or an answer; without an error status the answer has one varbind. -/
theorem safe_snmpRequest (target : SnmpTarget) (pduType : UInt8) (oid : Oid) (e : SnmpExchange) :
    Safe (fun m => m.pdu.errorStatus = 0 → m.pdu.varbinds.length = 1) (snmpRequest target pduType oid e) := by
  unfold snmpRequest
  split
  · trivial
  · dsimp only
    split
    · trivial
    · exact safe_awaitResponse _

/-- The agent's answer ends the subtree: a marker, or an identifier outside. -/
def AnswersEnd (target : SnmpTarget) (root current : Oid) (e : SnmpExchange) : Prop :=
  ∃ message next value, snmpRequest target pduGetNextRequest current e = .ok message ∧ message.pdu.errorStatus = 0 ∧
    message.pdu.varbinds = [(next, value)] ∧
    (value.isEndOfMibView = true ∨ value.isAbsent = true ∨ next.startsWith root = false)

/-- What an answer can do: end the walk, complete only if it ends the subtree, or give one row further in it. -/
theorem walkAnswer_cases (root current : Oid) {message : SnmpMessage}
    (hone : message.pdu.errorStatus = 0 → message.pdu.varbinds.length = 1) :
    (∃ why, walkAnswer root current message = .stop why ∧ ∀ rows, Walk.complete ⟨rows, why⟩ = true →
      ∃ next value, message.pdu.errorStatus = 0 ∧ message.pdu.varbinds = [(next, value)] ∧
        (value.isEndOfMibView = true ∨ value.isAbsent = true ∨ next.startsWith root = false)) ∨
    ∃ next value, walkAnswer root current message = .row next value ∧ value.isEndOfMibView = false ∧
      value.isAbsent = false ∧ next.startsWith root = true ∧ current.lt next = true := by
  unfold walkAnswer
  split
  · exact .inl ⟨_, rfl, fun rows h => by simp [Walk.complete] at h⟩
  rename_i hzero
  have hzero := Classical.not_not.mp hzero
  obtain ⟨⟨next, value⟩, hrow⟩ := List.length_eq_one_iff.mp (hone hzero)
  rw [hrow]
  dsimp only [List.head?_cons]
  split
  · rename_i hend
    exact .inl ⟨_, rfl, fun _ _ => ⟨next, value, hzero, rfl, .inl hend⟩⟩
  rename_i hend
  split
  · rename_i habsent
    exact .inl ⟨_, rfl, fun _ _ => ⟨next, value, hzero, rfl, .inr (.inl habsent)⟩⟩
  rename_i habsent
  split
  · rename_i hout
    exact .inl ⟨_, rfl, fun _ _ => ⟨next, value, hzero, rfl, .inr (.inr (eq_false_of_ne_true hout))⟩⟩
  rename_i hunder
  split
  · exact .inl ⟨_, rfl, fun rows h => by simp [Walk.complete] at h⟩
  rename_i hlt
  exact .inr ⟨next, value, rfl, eq_false_of_ne_true hend, eq_false_of_ne_true habsent, Classical.not_not.mp hunder,
    Classical.not_not.mp hlt⟩

/-- Everything one step can do. -/
theorem walkStep_cases (target : SnmpTarget) (root current : Oid) (e : SnmpExchange) :
    (∃ why, walkStep target root current e = .ok (.stop why) ∧ ∀ rows, Walk.complete ⟨rows, why⟩ = true →
      AnswersEnd target root current e) ∨
    ∃ next value, walkStep target root current e = .ok (.row next value) ∧ value.isEndOfMibView = false ∧
      value.isAbsent = false ∧ next.startsWith root = true ∧ current.lt next = true := by
  have hsafe := safe_snmpRequest target pduGetNextRequest current e
  unfold walkStep
  split
  · exact .inl ⟨_, rfl, fun rows h => by simp [Walk.complete] at h⟩
  split
  · rename_i hpanic
    rw [hpanic] at hsafe
    exact hsafe.elim
  · exact .inl ⟨_, rfl, fun rows h => by simp [Walk.complete] at h⟩
  rename_i message hmessage
  rw [hmessage] at hsafe
  obtain ⟨why, hwhy, hend⟩ | ⟨next, value, hrow, hrest⟩ := walkAnswer_cases root current hsafe
  · refine .inl ⟨why, by rw [hwhy], fun rows h => ?_⟩
    obtain ⟨next, value, hanswer⟩ := hend rows h
    exact ⟨message, next, value, hmessage, hanswer⟩
  · exact .inr ⟨next, value, by rw [hrow], hrest⟩

/-- The row last seen; the root before there is one. -/
def lastOid (root : Oid) (rows : List (Oid × BerValue)) : Oid := (rows.getLast?.map Prod.fst).getD root

/-- What holds of the rows while a walk runs. -/
structure Walked (root : Oid) (rows : List (Oid × BerValue)) : Prop where
  increasing : rows.Pairwise fun a b => a.1.lt b.1 = true
  under : ∀ row ∈ rows, row.1.startsWith root = true
  unmarked : ∀ row ∈ rows, row.2.isEndOfMibView = false ∧ row.2.isAbsent = false
  /-- Every row is the last one or before it. -/
  last : ∀ row ∈ rows, row.1 = lastOid root rows ∨ row.1.lt (lastOid root rows) = true

theorem walked_nil (root : Oid) : Walked root [] := ⟨.nil, nofun, nofun, nofun⟩

theorem lastOid_concat (root : Oid) (rows : List (Oid × BerValue)) (row : Oid × BerValue) :
    lastOid root (rows ++ [row]) = row.1 := by
  simp [lastOid]

theorem Walked.concat {rows : List (Oid × BerValue)} (h : Walked root rows) {next : Oid} {value : BerValue}
    (hend : value.isEndOfMibView = false) (habsent : value.isAbsent = false) (hunder : next.startsWith root = true)
    (hlt : (lastOid root rows).lt next = true) : Walked root (rows ++ [(next, value)]) := by
  have hbefore : ∀ row ∈ rows, row.1.lt next = true := by
    intro row hrow
    rcases h.last row hrow with heq | hless
    · rw [heq]
      exact hlt
    · exact Oid.lt_trans hless hlt
  refine ⟨?_, ?_, ?_, ?_⟩
  · refine List.pairwise_append.mpr ⟨h.increasing, List.pairwise_singleton _ _, fun a ha b hb => ?_⟩
    rw [List.mem_singleton.mp hb]
    exact hbefore a ha
  · intro row hrow
    rcases List.mem_append.mp hrow with hrow | hrow
    · exact h.under row hrow
    · rw [List.mem_singleton.mp hrow]
      exact hunder
  · intro row hrow
    rcases List.mem_append.mp hrow with hrow | hrow
    · exact h.unmarked row hrow
    · rw [List.mem_singleton.mp hrow]
      exact ⟨hend, habsent⟩
  · intro row hrow
    rw [lastOid_concat]
    rcases List.mem_append.mp hrow with hrow | hrow
    · exact .inr (hbefore row hrow)
    · rw [List.mem_singleton.mp hrow]
      exact .inl rfl

/-- Whatever the agents do, the walk returns; it keeps what holds of its rows, takes no more steps than there are, and
is complete only if the last answer ends the subtree. -/
theorem walkLoop_walked (target : SnmpTarget) (world : Nat → SnmpExchange) (left : Nat) {rows : List (Oid × BerValue)}
    (h : Walked root rows) :
    ∃ walk, walkLoop target root world left rows.length (lastOid root rows) rows = .ok walk ∧ Walked root walk.rows ∧
      walk.rows.length ≤ rows.length + left ∧
      (walk.complete = true → AnswersEnd target root (lastOid root walk.rows) (world walk.rows.length)) := by
  induction left generalizing rows with
  | zero => exact ⟨_, rfl, h, Nat.le_refl _, fun hc => by simp [Walk.complete] at hc⟩
  | succ left ih =>
    obtain ⟨why, hstep, hend⟩ | ⟨next, value, hstep, hnotEnd, hnotAbsent, hunder, hlt⟩ :=
      walkStep_cases target root (lastOid root rows) (world rows.length)
    · refine ⟨⟨rows, why⟩, ?_, h, Nat.le_add_right _ _, hend rows⟩
      unfold walkLoop
      rw [hstep, ok_bind]
    · obtain ⟨walk, hwalk, hwalked, hlen, hcomplete⟩ := ih (h.concat hnotEnd hnotAbsent hunder hlt)
      rw [lastOid_concat, List.length_append, List.length_singleton] at hwalk
      rw [List.length_append, List.length_singleton] at hlen
      refine ⟨walk, ?_, hwalked, by omega, hcomplete⟩
      unfold walkLoop
      rw [hstep, ok_bind]
      exact hwalk

end AnyAgent

/-! ## Honest agents -/

/-- One instance of a table: its name and its value as it is written. -/
structure MibEntry where
  oid : Oid
  tag : UInt8
  value : Bytes
  deriving DecidableEq, Repr

/-- A finite table in the order of its names, with names the codec carries and values that are no markers. -/
structure Mib where
  entries : List MibEntry
  increasing : entries.Pairwise fun a b => a.oid.lt b.oid = true
  carried : ∀ e ∈ entries, e.oid.Carried
  unmarked : ∀ e ∈ entries, e.tag ≠ tagEndOfMibView ∧ e.tag ≠ tagNoSuchObject ∧ e.tag ≠ tagNoSuchInstance

namespace Mib

variable (mib : Mib)

/-- The first entry behind an identifier. -/
def next (oid : Oid) : Option MibEntry := mib.entries.find? fun e => oid.lt e.oid

/-- The entries of the subtree behind an identifier. -/
def rest (root oid : Oid) : List MibEntry := mib.entries.filter fun e => e.oid.startsWith root && oid.lt e.oid

/-- The entries of the subtree below its root. -/
def below (root : Oid) : List MibEntry := mib.rest root root

end Mib

/-- What one UDP datagram holds. -/
def maxDatagramBytes : Nat := 65507

/-- In this step there is time, the socket works, and the agent answers every request for what comes behind the root
or an entry: with the next entry of its table, or with the end of its view. Datagrams of others may arrive before. -/
structure Honest (mib : Mib) (target : SnmpTarget) (root : Oid) (e : SnmpExchange) : Prop where
  inTime : e.expired = false
  bound : e.bound = .ok ()
  answers : ∀ request id oid, oid ∈ root :: mib.entries.map MibEntry.oid → request.length ≤ maxDatagramBytes →
    IsMessage 1 target.community pduGetNextRequest id 0 0 oid tagNull [] request →
    e.sent request = .ok () ∧ ∃ strays reply after, e.received request = strays ++
      .datagram target.dest reply :: after ∧ (∀ r ∈ strays, ∃ source bytes, r = .datagram source bytes ∧
      source ≠ target.dest) ∧ reply.length ≤ maxResponseBytes ∧
      match mib.next oid with
      | some entry => IsMessage 1 target.community pduGetResponse id 0 0 entry.oid entry.tag entry.value reply
      | none => IsMessage 1 target.community pduGetResponse id 0 0 oid tagEndOfMibView [] reply

section HonestAgent

variable {mib : Mib} {target : SnmpTarget} {root current : Oid} {e : SnmpExchange}

theorem awaitResponse_strays {pduType : UInt8} {oid : Oid} {id : Int32} {strays rest : List Received}
    (h : ∀ r ∈ strays, ∃ source bytes, r = .datagram source bytes ∧ source ≠ target.dest) :
    awaitResponse target pduType oid id (strays ++ rest) = awaitResponse target pduType oid id rest := by
  induction strays with
  | nil => rfl
  | cons r strays ih =>
    obtain ⟨source, bytes, rfl, hne⟩ := h r List.mem_cons_self
    rw [List.cons_append]
    conv_lhs => unfold awaitResponse
    rw [if_neg hne]
    exact ih fun r hr => h r (List.mem_cons_of_mem _ hr)

/-- A whole answer to a request for the next row is accepted. -/
theorem awaitResponse_of_isMessage {oid found : Oid} {id : Int32} {tag : UInt8} {value reply : Bytes} {v : BerValue}
    (hfound : found.Carried) (hv : decodeValue tag value = .ok v) (hlen : reply.length ≤ maxResponseBytes)
    (hreply : IsMessage 1 target.community pduGetResponse id 0 0 found tag value reply) (after : List Received) :
    awaitResponse target pduGetNextRequest oid id (.datagram target.dest reply :: after) =
      .ok ⟨1, target.community, ⟨pduGetResponse, id, 0, 0, [(found, v)]⟩⟩ := by
  have htake : reply.take (maxResponseBytes + 1) = reply := List.take_of_length_le (by omega)
  unfold awaitResponse
  rw [if_pos rfl]
  dsimp only
  rw [htake, require_of hlen, ok_bind, decodeSnmpResponse_of_isMessage (decodeOidValue_oidBody hfound) hv hreply,
    ok_bind]
  unfold validateResponse
  rw [require_of rfl, ok_bind, require_of rfl, ok_bind, require_of rfl, ok_bind, require_of rfl, ok_bind,
    require_of (by simp), ok_bind, require_of (fun h => absurd h.1 (by decide)), ok_bind]

/-- The answer of an honest agent reaches the walk. -/
theorem snmpRequest_of_honest (h : Honest mib target root e) (hroot : root.Carried)
    (hasked : current ∈ root :: mib.entries.map MibEntry.oid)
    (hfits : ∀ id, (buildSnmpRequest 1 target.community id pduGetNextRequest current).length ≤ maxDatagramBytes) :
    ∃ found v message, snmpRequest target pduGetNextRequest current e = .ok message ∧ message.pdu.errorStatus = 0 ∧
      message.pdu.varbinds = [(found, v)] ∧
      match mib.next current with
      | some entry => found = entry.oid ∧ decodeValue entry.tag entry.value = .ok v
      | none => v = .unknown tagEndOfMibView [] := by
  have hcarried : ∀ oid ∈ root :: mib.entries.map MibEntry.oid, oid.Carried := by
    intro oid hoid
    rcases List.mem_cons.mp hoid with rfl | hoid
    · exact hroot
    · obtain ⟨entry, hentry, rfl⟩ := List.mem_map.mp hoid
      exact mib.carried entry hentry
  have hlen := hfits (requestId e.clock current)
  obtain ⟨hsent, strays, reply, after, hreceived, hstrays, hreplyLen, hreply⟩ := h.answers _ _ current hasked hlen
    (isMessage_buildSnmpRequest (Nat.lt_of_le_of_lt hlen (by decide)))
  have hrequest : snmpRequest target pduGetNextRequest current e =
      awaitResponse target pduGetNextRequest current (requestId e.clock current)
      (.datagram target.dest reply :: after) := by
    unfold snmpRequest
    rw [h.bound]
    dsimp only
    rw [hsent]
    dsimp only
    rw [hreceived, awaitResponse_strays hstrays]
  cases hnext : mib.next current with
  | none =>
    rw [hnext] at hreply
    exact ⟨current, _, _, hrequest.trans (awaitResponse_of_isMessage
      (hcarried current hasked) rfl hreplyLen hreply after), rfl, rfl, rfl⟩
  | some entry =>
    rw [hnext] at hreply
    have hentry : entry ∈ mib.entries := List.mem_of_find?_eq_some hnext
    obtain ⟨v, hv, -⟩ := exists_decodeValue entry.tag entry.value
    exact ⟨entry.oid, v, _,
      hrequest.trans (awaitResponse_of_isMessage (mib.carried entry hentry) hv hreplyLen hreply after), rfl, rfl,
      rfl, hv⟩

/-- The steps an honest agent makes the walk take. -/
theorem walkStep_of_honest (h : Honest mib target root e) (hroot : root.Carried)
    (hasked : current ∈ root :: mib.entries.map MibEntry.oid)
    (hfits : ∀ id, (buildSnmpRequest 1 target.community id pduGetNextRequest current).length ≤ maxDatagramBytes) :
    match mib.next current with
    | none => walkStep target root current e = .ok (.stop .endOfMibView)
    | some entry =>
      if entry.oid.startsWith root then
        ∃ v, decodeValue entry.tag entry.value = .ok v ∧ walkStep target root current e = .ok (.row entry.oid v)
      else walkStep target root current e = .ok (.stop .leftSubtree) := by
  obtain ⟨found, v, message, hmessage, hzero, hone, hfound⟩ := snmpRequest_of_honest h hroot hasked hfits
  have hstep : walkStep target root current e = .ok (walkAnswer root current message) := by
    unfold walkStep
    rw [h.inTime, hmessage]
    rfl
  rw [hstep]
  unfold walkAnswer
  rw [if_neg (not_not_intro hzero), hone]
  dsimp only [List.head?_cons]
  cases hnext : mib.next current with
  | none =>
    rw [hnext] at hfound
    rw [hfound]
    rfl
  | some entry =>
    rw [hnext] at hfound
    obtain ⟨rfl, hv⟩ := hfound
    have hlt : current.lt entry.oid = true := by simpa using List.find?_some hnext
    obtain ⟨hnotEnd, hnotObject, hnotInstance⟩ := mib.unmarked entry (List.mem_of_find?_eq_some hnext)
    obtain ⟨v', hv', htag⟩ := exists_decodeValue entry.tag entry.value
    obtain rfl : v = v' := Outcome.ok.inj (hv.symm.trans hv')
    have hend : v.isEndOfMibView = false := by
      cases v with
      | unknown t b => exact decide_eq_false fun ht => hnotEnd (by rw [← htag t b rfl, ht])
      | _ => rfl
    have habsent : v.isAbsent = false := by
      cases v with
      | unknown t b =>
        have ht := htag t b rfl
        simp [BerValue.isAbsent, ht, hnotObject, hnotInstance]
      | _ => rfl
    dsimp only
    split
    · exact ⟨v, hv, by simp [hend, habsent]⟩
    · simp [hend, habsent]

/-- Behind the next entry there is what is behind an identifier, without that entry. -/
theorem filter_of_find? {l : List MibEntry} (hsorted : l.Pairwise fun a b => a.oid.lt b.oid = true) {oid : Oid}
    {entry : MibEntry} (h : l.find? (fun e => oid.lt e.oid) = some entry) :
    l.filter (fun e => oid.lt e.oid) = entry :: l.filter fun e => entry.oid.lt e.oid := by
  induction l with
  | nil => cases h
  | cons a l ih =>
    obtain ⟨hbefore, hsorted⟩ := List.pairwise_cons.mp hsorted
    cases ha : oid.lt a.oid with
    | true =>
      rw [List.find?_cons_of_pos (p := fun e : MibEntry => oid.lt e.oid) ha] at h
      obtain rfl := Option.some.inj h
      rw [List.filter_cons_of_pos (p := fun e : MibEntry => oid.lt e.oid) ha,
        List.filter_cons_of_neg (by rw [Oid.lt_irrefl]; decide)]
      congr 1
      exact List.filter_congr fun x hx => by rw [hbefore x hx, Oid.lt_trans ha (hbefore x hx)]
    | false =>
      have hne : ¬ oid.lt a.oid = true := by rw [ha]; decide
      rw [List.find?_cons_of_neg (p := fun e : MibEntry => oid.lt e.oid) hne] at h
      have hlt := hbefore entry (List.mem_of_find?_eq_some h)
      have hback : ¬ entry.oid.lt a.oid = true := by
        intro hgt
        have := Oid.lt_trans hlt hgt
        rw [Oid.lt_irrefl] at this
        cases this
      rw [List.filter_cons_of_neg (p := fun e : MibEntry => oid.lt e.oid) hne,
        List.filter_cons_of_neg (p := fun e : MibEntry => entry.oid.lt e.oid) hback, ih hsorted h]

theorem Mib.rest_of_next_none (h : mib.next current = none) : mib.rest root current = [] := by
  refine List.filter_eq_nil_iff.mpr fun entry hentry hboth => ?_
  have := List.find?_eq_none.mp h entry hentry
  simp_all

theorem Mib.rest_of_next_some {entry : MibEntry} (h : mib.next current = some entry) :
    mib.rest root current =
      if entry.oid.startsWith root then entry :: mib.rest root entry.oid else mib.rest root entry.oid := by
  unfold Mib.rest
  rw [← List.filter_filter, filter_of_find? mib.increasing h, List.filter_cons, ← List.filter_filter]

/-- Behind an entry outside the subtree there is nothing of the subtree. -/
theorem Mib.rest_of_outside {entry : MibEntry} (hout : ¬ entry.oid.startsWith root = true)
    (hge : entry.oid.lt root = false) : mib.rest root entry.oid = [] := by
  refine List.filter_eq_nil_iff.mpr fun x _ hboth => ?_
  rw [Bool.and_eq_true] at hboth
  exact hout (Oid.startsWith_of_between hboth.1 hge hboth.2)

/-- From any row on, the walk collects the rest of the subtree and is complete. -/
theorem walkLoop_of_honest {world : Nat → SnmpExchange} (h : ∀ step, Honest mib target root (world step))
    (hroot : root.Carried)
    (hfits : ∀ oid ∈ root :: mib.entries.map MibEntry.oid, ∀ id,
      (buildSnmpRequest 1 target.community id pduGetNextRequest oid).length ≤ maxDatagramBytes)
    {left : Nat} (step : Nat) (rows : List (Oid × BerValue)) (hasked : current ∈ root :: mib.entries.map MibEntry.oid)
    (hge : current.lt root = false) (hleft : (mib.rest root current).length < left) :
    ∃ more why, walkLoop target root world left step current rows = .ok ⟨rows ++ more, why⟩ ∧
      Walk.complete ⟨rows ++ more, why⟩ = true ∧
      more.map (fun row => (row.1, Outcome.ok row.2)) =
        (mib.rest root current).map fun e => (e.oid, decodeValue e.tag e.value) := by
  induction left generalizing current step rows with
  | zero => omega
  | succ left ih =>
    have hstep := walkStep_of_honest (h step) hroot hasked (hfits current hasked)
    cases hnext : mib.next current with
    | none =>
      rw [hnext] at hstep
      refine ⟨[], .endOfMibView, ?_, rfl, by rw [Mib.rest_of_next_none hnext]; rfl⟩
      unfold walkLoop
      rw [hstep, ok_bind, List.append_nil]
    | some entry =>
      rw [hnext] at hstep
      dsimp only at hstep
      have hentry : entry ∈ mib.entries := List.mem_of_find?_eq_some hnext
      have hlt : current.lt entry.oid = true := by simpa using List.find?_some hnext
      have hge' : entry.oid.lt root = false := by
        refine eq_false_of_ne_true fun hback => ?_
        rw [Oid.lt_trans hlt hback] at hge
        cases hge
      rw [Mib.rest_of_next_some hnext] at hleft ⊢
      split at hstep
      · rename_i hunder
        rw [if_pos hunder] at hleft ⊢
        rw [List.length_cons] at hleft
        obtain ⟨v, hv, hstep⟩ := hstep
        obtain ⟨more, why, hwalk, hcomplete, hmap⟩ := ih (step + 1) (rows ++ [(entry.oid, v)])
          (List.mem_cons_of_mem _ (List.mem_map_of_mem hentry)) hge' (by omega)
        rw [List.append_assoc] at hwalk hcomplete
        refine ⟨(entry.oid, v) :: more, why, ?_, hcomplete, ?_⟩
        · unfold walkLoop
          rw [hstep, ok_bind]
          exact hwalk
        · rw [List.map_cons, List.map_cons, hmap, hv]
      · rename_i hout
        rw [if_neg hout, Mib.rest_of_outside hout hge']
        refine ⟨[], .leftSubtree, ?_, rfl, rfl⟩
        unfold walkLoop
        rw [hstep, ok_bind, List.append_nil]

end HonestAgent

/-- The walk against any agents: it returns; its rows increase, lie in the subtree, are no markers and are no more
than the steps; and it is complete only if the last answer was a marker or an identifier outside the subtree. Against
an honest agent with fewer rows below the root than there are steps, it returns these rows in order and
is complete. -/
theorem snmp_walk (target : SnmpTarget) (root : Oid) (world : Nat → SnmpExchange) (maxSteps : Nat) :
    ∃ walk, snmpWalkTarget target root world maxSteps = .ok walk ∧
      walk.rows.Pairwise (fun a b => a.1.lt b.1 = true) ∧
      (∀ row ∈ walk.rows, row.1.startsWith root = true ∧ row.2.isEndOfMibView = false ∧ row.2.isAbsent = false) ∧
      walk.rows.length ≤ maxSteps ∧
      (walk.complete = true → AnswersEnd target root (lastOid root walk.rows) (world walk.rows.length)) ∧
      ∀ mib : Mib, root.Carried → (∀ step, Honest mib target root (world step)) →
        (∀ oid ∈ root :: mib.entries.map MibEntry.oid, ∀ id,
          (buildSnmpRequest 1 target.community id pduGetNextRequest oid).length ≤ maxDatagramBytes) →
        (mib.below root).length < maxSteps →
        walk.complete = true ∧ walk.rows.map (fun row => (row.1, Outcome.ok row.2)) =
          (mib.below root).map fun e => (e.oid, decodeValue e.tag e.value) := by
  obtain ⟨walk, hwalk, hwalked, hlen, hcomplete⟩ := walkLoop_walked target world maxSteps (walked_nil root)
  refine ⟨walk, hwalk, hwalked.increasing, fun row hrow => ⟨hwalked.under row hrow, hwalked.unmarked row hrow⟩,
    by simpa using hlen, hcomplete, ?_⟩
  intro mib hroot hhonest hfits hfew
  obtain ⟨more, why, hmore, hdone, hrows⟩ := walkLoop_of_honest hhonest hroot hfits 0 [] List.mem_cons_self
    (Oid.lt_irrefl root) hfew
  obtain rfl : walk = ⟨more, why⟩ := Outcome.ok.inj (hwalk.symm.trans hmore)
  exact ⟨hdone, hrows⟩

/-! ## An agent with a table -/

/-- What an agent with a table sends for a request. -/
def tableReply (mib : Mib) (community : Text) (id : Int32) (oid : Oid) : Bytes :=
  match mib.next oid with
  | some entry => buildMessage 1 community pduGetResponse id entry.oid entry.tag entry.value
  | none => buildMessage 1 community pduGetResponse id oid tagEndOfMibView []

/-- A network on which the target answers every request it can read as `reply` says. -/
def answering (target : SnmpTarget) (reply : Int32 → Oid → Bytes) : SnmpExchange where
  expired := false
  bound := .ok ()
  clock := 0
  sent := fun _ => .ok ()
  received := fun request =>
    match decodeSnmpResponse request with
    | .ok ⟨_, _, ⟨_, id, _, _, [(oid, _)]⟩⟩ => [.datagram target.dest (reply id oid)]
    | _ => []

/-- An agent with a table is honest as long as its answers fit. -/
theorem honest_answering {mib : Mib} {target : SnmpTarget} {root : Oid} (hroot : root.Carried)
    (hoids : ∀ oid ∈ root :: mib.entries.map MibEntry.oid, (oidBody oid).length ≤ 1000)
    (hvalues : ∀ e ∈ mib.entries, e.value.length ≤ 1000) (hcommunity : target.community.asBytes.length ≤ 1000) :
    Honest mib target root (answering target (tableReply mib target.community)) := by
  refine ⟨rfl, rfl, fun request id oid hasked hlen hrequest => ?_⟩
  have hcarried : oid.Carried := by
    rcases List.mem_cons.mp hasked with rfl | hasked
    · exact hroot
    · obtain ⟨entry, hentry, rfl⟩ := List.mem_map.mp hasked
      exact mib.carried entry hentry
  have hdecode := decodeSnmpResponse_of_isMessage (decodeOidValue_oidBody hcarried) (v := .null) rfl hrequest
  have hreceived : (answering target (tableReply mib target.community)).received request =
      [.datagram target.dest (tableReply mib target.community id oid)] := by
    unfold answering
    dsimp only
    rw [hdecode]
  refine ⟨rfl, [], _, [], hreceived, nofun, ?_⟩
  unfold tableReply
  cases hnext : mib.next oid with
  | none =>
    have hshort := length_buildMessage_le 1 target.community pduGetResponse id oid tagEndOfMibView []
    have hoid := hoids oid hasked
    rw [List.length_nil] at hshort
    dsimp only
    exact ⟨by unfold maxResponseBytes; omega, isMessage_buildMessage (by omega)⟩
  | some entry =>
    have hshort := length_buildMessage_le 1 target.community pduGetResponse id entry.oid entry.tag entry.value
    have hentry : entry ∈ mib.entries := List.mem_of_find?_eq_some hnext
    have hoid := hoids entry.oid (List.mem_cons_of_mem _ (List.mem_map_of_mem hentry))
    have hvalue := hvalues entry hentry
    dsimp only
    exact ⟨by unfold maxResponseBytes; omega, isMessage_buildMessage (by omega)⟩

def sampleTarget : SnmpTarget := ⟨Ipv4Addr.new 192 0 2 1, Ipv4Addr.new 192 0 2 1, 161, "public"⟩

/-- The `system` group. -/
def sampleRoot : Oid := [1, 3, 6, 1, 2, 1, 1]

/-- Two instances of the group, and one behind it. -/
def sampleMib : Mib where
  entries := [⟨[1, 3, 6, 1, 2, 1, 1, 1, 0], tagOctetString, [0x72, 0x31]⟩,
    ⟨[1, 3, 6, 1, 2, 1, 1, 3, 0], tagTimeTicks, [7]⟩, ⟨[1, 3, 6, 1, 2, 1, 2, 1, 0], tagInteger, [2]⟩]
  increasing := by decide
  carried := by
    simp only [List.forall_mem_cons]
    exact ⟨⟨1, 3, _, rfl, by decide, by decide⟩, ⟨1, 3, _, rfl, by decide, by decide⟩,
      ⟨1, 3, _, rfl, by decide, by decide⟩, nofun⟩
  unmarked := by decide

/-- The walk of the group returns its two rows. -/
theorem snmp_walk_system :
    ∃ walk, snmpWalkTarget sampleTarget sampleRoot (fun _ =>
    answering sampleTarget (tableReply sampleMib "public")) 10 =
        .ok walk ∧ walk.complete = true ∧ walk.rows =
      [([1, 3, 6, 1, 2, 1, 1, 1, 0], .octetString [0x72, 0x31]), ([1, 3, 6, 1, 2, 1, 1, 3, 0], .timeTicks 7)] := by
  have hroot : sampleRoot.Carried := ⟨1, 3, _, rfl, by decide, by decide⟩
  obtain ⟨walk, hwalk, -, -, -, -, hhonest⟩ := snmp_walk sampleTarget sampleRoot
    (fun _ => answering sampleTarget (tableReply sampleMib "public")) 10
  obtain ⟨hcomplete, hrows⟩ := hhonest sampleMib hroot
    (fun _ => honest_answering hroot (by decide) (by decide) (by decide))
    (fun oid hoid id => by
      have hlen := (by decide : ∀ oid ∈ sampleRoot :: sampleMib.entries.map MibEntry.oid, (oidBody oid).length ≤ 1000) oid hoid
      have hcommunity : sampleTarget.community.asBytes.length = 6 := by decide
      have hshort := length_buildMessage_le 1 sampleTarget.community pduGetNextRequest id oid tagNull []
      rw [← buildSnmpRequest_eq, List.length_nil] at hshort
      unfold maxDatagramBytes
      omega)
    (by decide)
  refine ⟨walk, hwalk, hcomplete, ?_⟩
  have htable : (sampleMib.below sampleRoot).map (fun e => (e.oid, decodeValue e.tag e.value)) =
      [([1, 3, 6, 1, 2, 1, 1, 1, 0], .octetString [0x72, 0x31]), ([1, 3, 6, 1, 2, 1, 1, 3, 0], .timeTicks 7)].map
        (fun row => (row.1, Outcome.ok row.2)) := by decide
  refine (List.map_inj_right fun x y hxy => ?_).mp (hrows.trans htable)
  obtain ⟨h1, h2⟩ := Prod.mk.inj hxy
  exact Prod.ext h1 (Outcome.ok.inj h2)

/-- An agent that answers every request with the marker of an object it does not have, inside the subtree. -/
def absentReply (id : Int32) (_ : Oid) : Bytes :=
  buildMessage 1 "public" pduGetResponse id [1, 3, 6, 1, 2, 1, 1, 1, 0] tagNoSuchObject []

/-- A table with an instance at the root of the walk itself. -/
def rootMib : Mib where
  entries := [⟨sampleRoot, tagInteger, [1]⟩, ⟨[1, 3, 6, 1, 2, 1, 1, 1, 0], tagInteger, [2]⟩]
  increasing := by decide
  carried := by
    simp only [List.forall_mem_cons]
    exact ⟨⟨1, 3, _, rfl, by decide, by decide⟩, ⟨1, 3, _, rfl, by decide, by decide⟩, nofun⟩
  unmarked := by decide

/-- A walk may be complete though its only answer lay in the subtree and did not end the view; and it leaves out an
instance at the root itself, which is in the subtree. -/
theorem absent_marker_completes_and_root_is_skipped :
    (snmpWalkTarget sampleTarget sampleRoot (fun _ => answering sampleTarget absentReply) 10 = .ok
      ⟨[], .leftSubtree⟩ ∧ Walk.complete ⟨[], .leftSubtree⟩ = true ∧
      snmpRequest sampleTarget pduGetNextRequest sampleRoot (answering sampleTarget absentReply) =
        .ok ⟨1, "public", ⟨pduGetResponse, requestId 0 sampleRoot, 0, 0,
          [([1, 3, 6, 1, 2, 1, 1, 1, 0], .unknown tagNoSuchObject [])]⟩⟩ ∧
      Oid.startsWith [1, 3, 6, 1, 2, 1, 1, 1, 0] sampleRoot = true ∧
      BerValue.isEndOfMibView (.unknown tagNoSuchObject []) = false) ∧
    snmpWalkTarget sampleTarget sampleRoot (fun _ => answering sampleTarget (tableReply rootMib "public")) 10 =
        .ok ⟨[([1, 3, 6, 1, 2, 1, 1, 1, 0], .integer 2)], .endOfMibView⟩ ∧
      (rootMib.entries.filter fun e => e.oid.startsWith sampleRoot).length = 2 := by
  decide +kernel

end Idnx
