import Idnx.Federation.Payload
import Idnx.Federation.Relay

/-!
# The relay's clients

A connection starts with a challenge and can do nothing until it has signed it. From then on every request is made in
the name of the identity that signed, and the mailbox of a request is derived from that identity and the one it names.
The digest is the hash library's and a parameter.

* `mailboxInput_inj`: what is hashed says who deposits and for whom;
* `Traced`: everything the server holds goes back to a request in its log;
* `relay_isolated`: so a client receives only what was left for it by the peer it asks about, and a client that has
  not signed its challenge neither receives nor changes anything.
-/

set_option maxRecDepth 4000

namespace Idnx

variable {crypto : Ed25519} (sha256 : Bytes → Bytes)

/-! ## Mailboxes -/

/-- The bytes that are hashed for the mailbox of a pair. -/
def mailboxInput (sender recipient : PeerId crypto) : Bytes :=
  Text.asBytes "idnx-relay-mailbox-v1" ++ Text.asBytes sender.toHex ++ Text.asBytes "->" ++
    Text.asBytes recipient.toHex

/-- The mailbox one peer deposits into for another. -/
def mailbox (sender recipient : PeerId crypto) : Text :=
  encodeHex ((sha256 (mailboxInput sender recipient)).take 16)

theorem PeerId.length_asBytes_toHex (peer : PeerId crypto) : (Text.asBytes peer.toHex).length = 64 := by
  rw [toHex, length_asBytes_encodeHex, peer.length_eq]

theorem PeerId.asBytes_toHex_inj {p q : PeerId crypto} (h : Text.asBytes p.toHex = Text.asBytes q.toHex) : p = q := by
  have hp := decodePairs_encodeHex p.bytes
  have hq := decodePairs_encodeHex q.bytes
  unfold toHex at h
  rw [h, hq] at hp
  cases p
  cases q
  cases hp
  rfl

/-- Both identities can be read off, and which of them deposits. -/
theorem mailboxInput_inj {s r s' r' : PeerId crypto} (h : mailboxInput s r = mailboxInput s' r') :
    s = s' ∧ r = r' := by
  unfold mailboxInput at h
  rw [List.append_assoc, List.append_assoc, List.append_assoc, List.append_assoc] at h
  obtain ⟨hs, h⟩ := List.append_inj (List.append_cancel_left h)
    (by rw [s.length_asBytes_toHex, s'.length_asBytes_toHex])
  exact ⟨PeerId.asBytes_toHex_inj hs, PeerId.asBytes_toHex_inj (List.append_cancel_left h)⟩

/-! ## Requests -/

inductive RelayRequest where
  | authenticate (peer signature : Text)
  | deposit (recipient envelope : Text)
  | collect (sender : Text)
  deriving DecidableEq, Repr

inductive RelayResponse where
  | challenge (nonce : Text)
  | authenticated
  | accepted
  | envelopes (envelopes : List Text)
  | refused (reason : Text)
  deriving DecidableEq, Repr

/-- One connection: the challenge it was sent and the identity that has signed it. -/
structure RelayClient (crypto : Ed25519) where
  nonce : Bytes
  identity : Option (PeerId crypto) := none

def refused (error : RelayError) : RelayResponse := .refused error.toText

namespace RelayClient

variable (client : RelayClient crypto)

def challenge : RelayResponse := .challenge (encodeHex client.nonce)

def authenticate (peer signature : Text) : Except RelayError (RelayClient crypto) :=
  match PeerId.fromHex peer with
  | .error _ => .error .unauthenticated
  | .ok peer =>
    match decodeHex signature with
    | none => .error .unauthenticated
    | some signature =>
      match peer.verify (challengePayload client.nonce) signature with
      | .error _ => .error .unauthenticated
      | .ok () => .ok { client with identity := some peer }

/-- Handles one request against a queue. The order is that of the hash map, the times are the clock's readings. -/
def handle (order : HashOrder) (now stamp : Nat) (request : RelayRequest) (queue : RelayQueue) :
    RelayResponse × RelayClient crypto × RelayQueue :=
  match request with
  | .authenticate peer signature =>
    match client.authenticate peer signature with
    | .ok client => (.authenticated, client, queue)
    | .error e => (.refused e.toText, client, queue)
  | .deposit recipient envelope =>
    match client.identity with
    | none => (refused .unauthenticated, client, queue)
    | some identity =>
      match PeerId.fromHex recipient, decodeHex envelope with
      | .ok recipient, some bytes =>
        match queue.deposit order now stamp (mailbox sha256 identity recipient) bytes with
        | (.ok (), queue) => (.accepted, client, queue)
        | (.error e, queue) => (refused e, client, queue)
      | _, _ => (refused .unauthenticated, client, queue)
  | .collect sender =>
    match client.identity with
    | none => (refused .unauthenticated, client, queue)
    | some identity =>
      match PeerId.fromHex sender with
      | .error _ => (refused .unauthenticated, client, queue)
      | .ok sender =>
        let (envelopes, queue) := queue.collect now (mailbox sha256 sender identity)
        (.envelopes (envelopes.map encodeHex), client, queue)

/-- A request is a good answer to the challenge, or it is refused and changes nothing, or it is a deposit or a
collection by a client that has an identity, in the mailbox of the two. -/
theorem handle_cases (order : HashOrder) (now stamp : Nat) (request : RelayRequest) (queue : RelayQueue) :
    (∃ peer text signature bytes, request = .authenticate text signature ∧ PeerId.fromHex text = .ok peer ∧
      decodeHex signature = some bytes ∧ peer.verify (challengePayload client.nonce) bytes = .ok () ∧
      client.handle sha256 order now stamp request queue =
        (.authenticated, { client with identity := some peer }, queue)) ∨
    (∃ reason, client.handle sha256 order now stamp request queue = (.refused reason, client, queue)) ∨
    (∃ sender recipient name text bytes, client.identity = some sender ∧ request = .deposit name text ∧
      PeerId.fromHex name = .ok recipient ∧ decodeHex text = some bytes ∧
      ((queue.deposit order now stamp (mailbox sha256 sender recipient) bytes).1 = .ok () ∧
          client.handle sha256 order now stamp request queue =
            (.accepted, client, (queue.deposit order now stamp (mailbox sha256 sender recipient) bytes).2) ∨
        ∃ reason, (∃ e, (queue.deposit order now stamp (mailbox sha256 sender recipient) bytes).1 = .error e) ∧
          client.handle sha256 order now stamp request queue =
            (.refused reason, client, (queue.deposit order now stamp (mailbox sha256 sender recipient) bytes).2))) ∨
    ∃ sender recipient name, client.identity = some recipient ∧ request = .collect name ∧
      PeerId.fromHex name = .ok sender ∧ client.handle sha256 order now stamp request queue =
        (.envelopes ((queue.collect now (mailbox sha256 sender recipient)).1.map encodeHex), client,
          (queue.collect now (mailbox sha256 sender recipient)).2) := by
  cases request with
  | authenticate text signature =>
    cases hname : (PeerId.fromHex text : Except _ (PeerId crypto)) with
    | error e => exact .inr (.inl ⟨_, by simp only [handle, authenticate, hname]; rfl⟩)
    | ok peer =>
      cases hbytes : decodeHex signature with
      | none => exact .inr (.inl ⟨_, by simp only [handle, authenticate, hname, hbytes]; rfl⟩)
      | some bytes =>
        cases hverify : peer.verify (challengePayload client.nonce) bytes with
        | error e => exact .inr (.inl ⟨_, by simp only [handle, authenticate, hname, hbytes, hverify]; rfl⟩)
        | ok =>
          exact .inl ⟨peer, text, signature, bytes, rfl, hname, hbytes, hverify, by
            simp only [handle, authenticate, hname, hbytes, hverify]⟩
  | deposit name text =>
    cases hid : client.identity with
    | none => exact .inr (.inl ⟨_, by simp only [handle, hid]; rfl⟩)
    | some sender =>
      cases hname : (PeerId.fromHex name : Except _ (PeerId crypto)) with
      | error e => exact .inr (.inl ⟨_, by simp only [handle, hid, hname]; rfl⟩)
      | ok recipient =>
        cases hbytes : decodeHex text with
        | none => exact .inr (.inl ⟨_, by simp only [handle, hid, hname, hbytes]; rfl⟩)
        | some bytes =>
          refine .inr (.inr (.inl ⟨sender, recipient, name, text, bytes, rfl, rfl, hname, hbytes, ?_⟩))
          simp only [handle, hid, hname, hbytes]
          rcases queue.deposit order now stamp (mailbox sha256 sender recipient) bytes with ⟨⟨e⟩ | ⟨⟩, queue'⟩
          · exact .inr ⟨e.toText, ⟨e, rfl⟩, rfl⟩
          · exact .inl ⟨rfl, rfl⟩
  | collect name =>
    cases hid : client.identity with
    | none => exact .inr (.inl ⟨_, by simp only [handle, hid]; rfl⟩)
    | some recipient =>
      cases hname : (PeerId.fromHex name : Except _ (PeerId crypto)) with
      | error e => exact .inr (.inl ⟨_, by simp only [handle, hid, hname]; rfl⟩)
      | ok sender =>
        exact .inr (.inr (.inr ⟨sender, recipient, name, rfl, rfl, hname, by simp only [handle, hid, hname]⟩))

end RelayClient

/-! ## The server -/

/-- One request and its answer, with the client as it was before and the queue before and after. -/
structure Exchange (crypto : Ed25519) where
  connection : Nat
  client : RelayClient crypto
  request : RelayRequest
  response : RelayResponse
  before : RelayQueue
  after : RelayQueue

/-- The queue all connections share, the connections, and what was said on them. -/
structure RelayServer (crypto : Ed25519) where
  queue : RelayQueue := {}
  clients : List (RelayClient crypto) := []
  log : List (Exchange crypto) := []

/-- Someone connects and is sent a challenge, or says something. -/
inductive RelayAction where
  | connect (nonce : Bytes)
  | request (connection : Nat) (order : HashOrder) (now stamp : Nat) (request : RelayRequest)

def RelayServer.step (s : RelayServer crypto) : RelayAction → RelayServer crypto
  | .connect nonce => { s with clients := s.clients ++ [{ nonce }] }
  | .request i order now stamp request =>
    match s.clients[i]? with
    | none => s
    | some client =>
      let (response, client', queue) := client.handle sha256 order now stamp request s.queue
      { queue
        clients := s.clients.set i client'
        log := s.log ++ [⟨i, client, request, response, s.queue, queue⟩] }

/-- The server after a list of actions, in whatever order the connections take them. -/
def serve (actions : List RelayAction) : RelayServer crypto := run (RelayServer.step sha256) {} actions

/-- The identities a request names. -/
def RelayRequest.names : RelayRequest → Text
  | .authenticate peer _ => peer
  | .deposit recipient _ => recipient
  | .collect sender => sender

/-- A client signed the challenge of its connection as `peer`. -/
def Exchange.Authenticates (e : Exchange crypto) (peer : PeerId crypto) : Prop :=
  ∃ text signature bytes, e.request = .authenticate text signature ∧ PeerId.fromHex text = .ok peer ∧
    decodeHex signature = some bytes ∧ peer.verify (challengePayload e.client.nonce) bytes = .ok () ∧
    e.response = .authenticated

/-- A client authenticated as `sender` left an envelope for `recipient`. -/
def Exchange.Deposits (e : Exchange crypto) (sender recipient : PeerId crypto) (envelope : Bytes) : Prop :=
  e.client.identity = some sender ∧ ∃ name text, e.request = .deposit name text ∧
    PeerId.fromHex name = .ok recipient ∧ decodeHex text = some envelope ∧ e.response = .accepted

/-- No two of the identities' pairs share a mailbox by chance. -/
def CollisionFree (peers : List (PeerId crypto)) : Prop :=
  ∀ s ∈ peers, ∀ r ∈ peers, ∀ s' ∈ peers, ∀ r' ∈ peers,
    (sha256 (mailboxInput s r)).take 16 = (sha256 (mailboxInput s' r')).take 16 →
      mailboxInput s r = mailboxInput s' r'

/-- The identities named in a list of actions. -/
def peersOf (actions : List RelayAction) : List (PeerId crypto) :=
  actions.filterMap fun
    | .connect _ => none
    | .request _ _ _ _ request => (PeerId.fromHex request.names).toOption

/-! ## Everything goes back to a request -/

variable {sha256}

/-- What holds of an exchange, given those before it: an identity comes from a signed challenge of the same
connection; without one nothing happens; and what is handed out was deposited in the mailbox that is collected. -/
structure Answered (sha256 : Bytes → Bytes) (earlier : List (Exchange crypto)) (e : Exchange crypto) : Prop where
  identity : ∀ peer, e.client.identity = some peer →
    ∃ e' ∈ earlier, e'.connection = e.connection ∧ e'.client.nonce = e.client.nonce ∧ e'.Authenticates peer
  idle : e.client.identity = none → e.after = e.before ∧ ∀ out, e.response ≠ .envelopes out
  envelopes : ∀ recipient name sender out, e.client.identity = some recipient → e.request = .collect name →
    PeerId.fromHex name = .ok sender → e.response = .envelopes out → ∀ text ∈ out,
      ∃ bytes, text = encodeHex bytes ∧ ∃ e' ∈ earlier, ∃ s r, e'.Deposits s r bytes ∧
        mailbox sha256 s r = mailbox sha256 sender recipient

/-- What holds of the server after every run. -/
structure Traced (sha256 : Bytes → Bytes) (actions : List RelayAction) (s : RelayServer crypto) : Prop where
  clients : ∀ i client, s.clients[i]? = some client → ∀ peer, client.identity = some peer →
    ∃ e ∈ s.log, e.connection = i ∧ e.client.nonce = client.nonce ∧ e.Authenticates peer
  held : ∀ box, ∀ h ∈ s.queue.held box, ∃ e ∈ s.log, ∃ sender recipient, e.Deposits sender recipient h.bytes ∧
    mailbox sha256 sender recipient = box
  log : ∀ n e, s.log[n]? = some e → Answered sha256 (s.log.take n) e
  named : ∀ e ∈ s.log, ∀ peer : PeerId crypto, PeerId.fromHex e.request.names = .ok peer → peer ∈ peersOf actions

namespace Traced

variable {actions : List RelayAction} {s : RelayServer crypto}

theorem peersOf_append (as bs : List RelayAction) :
    (peersOf (as ++ bs) : List (PeerId crypto)) = peersOf as ++ peersOf bs :=
  List.filterMap_append

theorem connect (h : Traced sha256 actions s) (nonce : Bytes) :
    Traced sha256 (actions ++ [.connect nonce]) (s.step sha256 (.connect nonce)) := by
  refine ⟨fun i client hi peer hpeer => ?_, h.held, h.log, fun e he peer hpeer => ?_⟩
  · rcases Nat.lt_or_ge i s.clients.length with hlt | hge
    · exact h.clients i client (by rwa [RelayServer.step, List.getElem?_append_left hlt] at hi) peer hpeer
    · -- the new connection has no identity
      rw [RelayServer.step, List.getElem?_append_right hge, List.getElem?_singleton] at hi
      split_ifs at hi
      cases hi
      cases hpeer
  · rw [peersOf_append]
    exact List.mem_append_left _ (h.named e he peer hpeer)

/-- One exchange more. -/
theorem exchange (h : Traced sha256 actions s) {client' : RelayClient crypto} {e : Exchange crypto} {a : RelayAction}
    (hclient : ∀ peer, client'.identity = some peer →
      client'.nonce = e.client.nonce ∧ (e.client.identity = some peer ∨ e.Authenticates peer))
    (hheld : ∀ box, ∀ q ∈ e.after.held box, q ∈ s.queue.held box ∨
      ∃ sender recipient, e.Deposits sender recipient q.bytes ∧ mailbox sha256 sender recipient = box)
    (hanswered : Answered sha256 s.log e)
    (hnamed : ∀ peer : PeerId crypto, PeerId.fromHex e.request.names = .ok peer → peer ∈ peersOf [a]) :
    Traced sha256 (actions ++ [a]) ⟨e.after, s.clients.set e.connection client', s.log ++ [e]⟩ := by
  refine ⟨fun i client hi peer hpeer => ?_, fun box q hq => ?_, fun n x hn => ?_, fun x hx peer hpeer => ?_⟩
  · -- the connection that spoke, or another
    rw [List.getElem?_set] at hi
    split_ifs at hi with hsame hlt
    · cases hi
      obtain ⟨hnonce, hid | hauth⟩ := hclient peer hpeer
      · obtain ⟨x, hx, hconn, hnonce', hx'⟩ := hanswered.identity peer hid
        exact ⟨x, List.mem_append_left _ hx, hconn.trans hsame, hnonce'.trans hnonce.symm, hx'⟩
      · exact ⟨e, List.mem_append_right _ List.mem_cons_self, hsame, hnonce.symm, hauth⟩
    · obtain ⟨x, hx, hx'⟩ := h.clients i client hi peer hpeer
      exact ⟨x, List.mem_append_left _ hx, hx'⟩
  · rcases hheld box q hq with hq | ⟨sender, recipient, hq⟩
    · obtain ⟨x, hx, hx'⟩ := h.held box q hq
      exact ⟨x, List.mem_append_left _ hx, hx'⟩
    · exact ⟨e, List.mem_append_right _ List.mem_cons_self, sender, recipient, hq⟩
  · rcases Nat.lt_or_ge n s.log.length with hlt | hge
    · rw [List.getElem?_append_left hlt] at hn
      rw [List.take_append_of_le_length hlt.le]
      exact h.log n x hn
    · rw [List.getElem?_append_right hge, List.getElem?_singleton] at hn
      split_ifs at hn with heq
      cases hn
      rw [show n = s.log.length by omega, List.take_left']
      · exact hanswered
      · rfl
  · rw [peersOf_append]
    rcases List.mem_append.mp hx with hx | hx
    · exact List.mem_append_left _ (h.named x hx peer hpeer)
    · cases List.mem_singleton.mp hx
      exact List.mem_append_right _ (hnamed peer hpeer)

theorem request (h : Traced sha256 actions s) (i : Nat) (order : HashOrder) (now stamp : Nat)
    (request : RelayRequest) :
    Traced sha256 (actions ++ [.request i order now stamp request])
      (s.step sha256 (.request i order now stamp request)) := by
  cases hi : s.clients[i]? with
  | none =>
    simp only [RelayServer.step, hi]
    refine ⟨h.clients, h.held, h.log, fun e he peer hpeer => ?_⟩
    rw [peersOf_append]
    exact List.mem_append_left _ (h.named e he peer hpeer)
  | some client =>
    have hnamed : ∀ peer : PeerId crypto, PeerId.fromHex request.names = .ok peer →
        peer ∈ peersOf [RelayAction.request i order now stamp request] := by
      intro peer hpeer
      simp [peersOf, hpeer, Except.toOption]
    have hidentity := h.clients i client hi
    rcases client.handle_cases sha256 order now stamp request s.queue with
      ⟨peer, text, signature, bytes, rfl, hname, hbytes, hverify, hhandle⟩ | ⟨reason, hhandle⟩ |
      ⟨sender, recipient, name, text, bytes, hid, rfl, hname, hbytes, hdeposit⟩ |
      ⟨sender, recipient, name, hid, rfl, hname, hhandle⟩
    · simp only [RelayServer.step, hi, hhandle]
      refine h.exchange (e := ⟨i, client, _, _, s.queue, s.queue⟩) ?_ (fun box q hq => .inl hq)
        ⟨hidentity, ?_, ?_⟩ hnamed
      · intro peer' hpeer'
        cases hpeer'
        exact ⟨rfl, .inr ⟨text, signature, bytes, rfl, hname, hbytes, hverify, rfl⟩⟩
      · exact fun _ => ⟨rfl, fun out hout => nomatch hout⟩
      · intro recipient name sender out _ hreq
        cases hreq
    · simp only [RelayServer.step, hi, hhandle]
      refine h.exchange (e := ⟨i, client, _, _, s.queue, s.queue⟩) (fun peer hpeer => ⟨rfl, .inl hpeer⟩)
        (fun box q hq => .inl hq) ⟨hidentity, fun _ => ⟨rfl, fun out hout => nomatch hout⟩, ?_⟩ hnamed
      intro recipient name sender out _ _ _ hout
      cases hout
    · -- a deposit: the envelope joins what is held, if it is accepted
      have hheld := s.queue.held_deposit order now stamp (mailbox sha256 sender recipient) bytes
      rcases hdeposit with ⟨hok, hhandle⟩ | ⟨reason, ⟨err, herr⟩, hhandle⟩
      · simp only [RelayServer.step, hi, hhandle]
        refine h.exchange (e := ⟨i, client, _, _, s.queue, _⟩) (fun peer hpeer => ⟨rfl, .inl hpeer⟩) ?_
          ⟨hidentity, ?_, ?_⟩ hnamed
        · intro box q hq
          rcases hheld box with ⟨-, kept, hkept, heq⟩ | ⟨⟨err, herr⟩, -⟩
          · have hold : ∀ q ∈ kept, q ∈ s.queue.held box := fun q hq => List.mem_of_mem_filter (hkept.subset hq)
            rw [heq] at hq
            split_ifs at hq with hbox
            · rcases List.mem_append.mp hq with hq | hq
              · exact .inl (hold q hq)
              · rw [List.mem_singleton.mp hq]
                exact .inr ⟨sender, recipient, ⟨hid, name, text, rfl, hname, hbytes, rfl⟩, hbox.symm⟩
            · exact .inl (hold q hq)
          · rw [hok] at herr
            cases herr
        · intro hnone
          rw [hid] at hnone
          cases hnone
        · intro recipient' name' sender' out _ hreq
          cases hreq
      · simp only [RelayServer.step, hi, hhandle]
        refine h.exchange (e := ⟨i, client, _, _, s.queue, _⟩) (fun peer hpeer => ⟨rfl, .inl hpeer⟩) ?_
          ⟨hidentity, ?_, ?_⟩ hnamed
        · intro box q hq
          rcases hheld box with ⟨hok, -⟩ | ⟨-, heq | hkept⟩
          · rw [hok] at herr
            cases herr
          · exact .inl (heq ▸ hq)
          · exact .inl (List.mem_of_mem_filter (hkept.subset hq))
        · intro hnone
          rw [hid] at hnone
          cases hnone
        · intro recipient' name' sender' out _ hreq
          cases hreq
    · -- a collection hands out what its mailbox holds
      obtain ⟨hout, hheld⟩ := s.queue.held_collect now (mailbox sha256 sender recipient)
      simp only [RelayServer.step, hi, hhandle]
      refine h.exchange (e := ⟨i, client, _, _, s.queue, _⟩) (fun peer hpeer => ⟨rfl, .inl hpeer⟩) ?_
        ⟨hidentity, ?_, ?_⟩ hnamed
      · intro box q hq
        rw [hheld box] at hq
        split_ifs at hq
        · cases hq
        · exact .inl (List.mem_of_mem_filter hq)
      · intro hnone
        rw [hid] at hnone
        cases hnone
      · intro recipient' name' sender' out hid' hreq hname' hresponse t ht
        rw [hid] at hid'
        cases hid'
        cases hreq
        rw [hname] at hname'
        cases hname'
        cases hresponse
        obtain ⟨bytes, hbytes, rfl⟩ := List.mem_map.mp ht
        rw [hout] at hbytes
        obtain ⟨q, hq, rfl⟩ := List.mem_map.mp hbytes
        exact ⟨q.bytes, rfl, h.held _ q (List.mem_of_mem_filter hq)⟩

end Traced

/-- After every run. -/
theorem traced_serve (actions : List RelayAction) :
    Traced sha256 actions (serve sha256 actions : RelayServer crypto) := by
  refine run_induction (P := fun actions s => Traced sha256 actions s) _ ?_ (fun h a hs => ?_) actions
  · refine ⟨fun i client hi => ?_, fun box q hq => ?_, fun n e hn => ?_, fun e he => ?_⟩
    · cases hi
    · cases hq
    · cases hn
    · cases he
  · cases a with
    | connect nonce => exact hs.connect nonce
    | request i order now stamp request => exact hs.request i order now stamp request

/-! ## Isolation -/

/-- An identity in the log is one of those named. -/
theorem Traced.identity_named {actions : List RelayAction} {s : RelayServer crypto} (h : Traced sha256 actions s)
    {e : Exchange crypto} (he : e ∈ s.log) {peer : PeerId crypto} (hpeer : e.client.identity = some peer) :
    peer ∈ peersOf actions := by
  obtain ⟨n, hn⟩ := List.mem_iff_getElem?.mp he
  obtain ⟨e', he', -, -, text, signature, bytes, hreq, hname, -⟩ := (h.log n e hn).identity peer hpeer
  exact h.named e' (List.mem_of_mem_take he') peer (by rw [hreq]; exact hname)

/-- **Isolation.** An envelope handed to a client authenticated as `I` that asks about `F` was left for `I` by a
client authenticated as `F`; to be authenticated is to have signed the challenge of one's connection; and a connection
that has not signed its challenge neither changes the queue nor receives an envelope. -/
theorem relay_isolated (sha256 : Bytes → Bytes) (actions : List RelayAction)
    (hfree : CollisionFree sha256 (peersOf actions : List (PeerId crypto))) (n : Nat) (e : Exchange crypto)
    (hn : (serve sha256 actions : RelayServer crypto).log[n]? = some e) :
    (∀ I F name out, e.client.identity = some I → e.request = .collect name → PeerId.fromHex name = .ok F →
      e.response = .envelopes out → ∀ text ∈ out, ∃ envelope, text = encodeHex envelope ∧
        ∃ e' ∈ (serve sha256 actions).log.take n, e'.Deposits F I envelope) ∧
    (∀ I, e.client.identity = some I → ∃ e' ∈ (serve sha256 actions).log.take n,
      e'.connection = e.connection ∧ e'.client.nonce = e.client.nonce ∧ e'.Authenticates I) ∧
    ((∀ e' ∈ (serve sha256 actions : RelayServer crypto).log.take n, e'.connection = e.connection → ∀ I,
      ¬ e'.Authenticates I) → e.after = e.before ∧ ∀ out, e.response ≠ .envelopes out) := by
  have htraced : Traced sha256 actions (serve sha256 actions : RelayServer crypto) := traced_serve actions
  have hmem : e ∈ (serve sha256 actions : RelayServer crypto).log := List.mem_of_getElem? hn
  have hanswered := htraced.log n e hn
  refine ⟨?_, hanswered.identity, ?_⟩
  · intro I F name out hid hreq hname hresponse text htext
    obtain ⟨bytes, rfl, e', he', s, r, hdeposits, hbox⟩ :=
      hanswered.envelopes I name F out hid hreq hname hresponse text htext
    have hmem' := List.mem_of_mem_take he'
    obtain ⟨hs, name', text', hreq', hname', -⟩ := id hdeposits
    -- one mailbox, so one input, so one pair
    have hinput : mailboxInput s r = mailboxInput F I := by
      refine hfree s ?_ r ?_ F ?_ I ?_ (encodeHex_inj hbox)
      · exact htraced.identity_named hmem' hs
      · exact htraced.named e' hmem' r (by rw [hreq']; exact hname')
      · exact htraced.named e hmem F (by rw [hreq]; exact hname)
      · exact htraced.identity_named hmem hid
    obtain ⟨rfl, rfl⟩ := mailboxInput_inj hinput
    exact ⟨bytes, rfl, e', he', hdeposits⟩
  · intro hnone
    refine hanswered.idle ?_
    cases hid : e.client.identity with
    | none => rfl
    | some peer =>
      obtain ⟨e', he', hconn, -, hauth⟩ := hanswered.identity peer hid
      exact absurd hauth (hnone e' he' hconn peer)

/-! ## Two clients -/

section Sample

/-- The first key's signature of the challenge of thirty-two ones. -/
def aliceSignature : Bytes :=
  [0x16, 0x25, 0x57, 0xf3, 0x26, 0x17, 0xd6, 0x9f, 0x0d, 0xa6, 0x37, 0xc3, 0x29, 0x27, 0x44, 0xdd,
    0x21, 0x2f, 0xc9, 0x26, 0x12, 0xf4, 0x2e, 0x65, 0x8f, 0x14, 0x87, 0x68, 0xe6, 0xd2, 0xd3, 0x46,
    0xba, 0xec, 0xd5, 0x6a, 0x3e, 0x35, 0xe2, 0xdb, 0x99, 0x5d, 0x38, 0x7c, 0x6b, 0xf5, 0xc3, 0xac,
    0xd6, 0xd6, 0x96, 0x37, 0xeb, 0x35, 0x34, 0x0b, 0x12, 0x97, 0xf0, 0x4f, 0xbe, 0xdd, 0x55, 0x01]

/-- The second key's signature of the challenge of thirty-two twos. -/
def bobSignature : Bytes :=
  [0x3d, 0x8e, 0xd8, 0x8b, 0xed, 0x11, 0xcd, 0x1e, 0xdb, 0xb4, 0xa6, 0x26, 0x90, 0xf6, 0x2b, 0xc9,
    0x78, 0x52, 0x8f, 0x61, 0x07, 0x2f, 0x7f, 0x94, 0xec, 0x7f, 0x33, 0x1d, 0x02, 0x54, 0x8e, 0x2e,
    0x97, 0x11, 0xec, 0x59, 0xa5, 0xf4, 0xcc, 0xf7, 0x80, 0xcb, 0x55, 0xfd, 0x6b, 0xc7, 0xc0, 0x28,
    0x6a, 0x77, 0x72, 0x8f, 0x0f, 0xf5, 0xfb, 0x75, 0xa9, 0xea, 0x2d, 0x88, 0x85, 0x06, 0xd9, 0x07]

def aliceNonce : Bytes := List.replicate 32 1

def bobNonce : Bytes := List.replicate 32 2

/-- A library that knows the two keys and the two signatures. -/
def twoKeys : Ed25519 where
  validKey := fun key => key = aliceKey ∨ key = bobKey
  verify := fun key message signature =>
    (key = aliceKey ∧ message = challengePayload aliceNonce ∧ signature = aliceSignature) ∨
      (key = bobKey ∧ message = challengePayload bobNonce ∧ signature = bobSignature)

def alice : PeerId twoKeys := ⟨aliceKey, length_aliceKey, rfl⟩

def bob : PeerId twoKeys := ⟨bobKey, length_bobKey, rfl⟩

/-- The digests of the four pairs. -/
def pairDigest (input : Bytes) : Bytes :=
  if input = mailboxInput alice bob then
    [0x82, 0x97, 0xcc, 0x7c, 0x5a, 0x37, 0x4d, 0x78, 0x96, 0xe5, 0x08, 0x2f, 0x43, 0x03, 0x32, 0xdf,
      0xa1, 0x46, 0xd5, 0xf1, 0x6c, 0x50, 0x05, 0x82, 0xe4, 0x62, 0xad, 0x51, 0x54, 0x1e, 0x8e, 0xb4]
  else if input = mailboxInput bob alice then
    [0x4f, 0x66, 0xe9, 0xf4, 0xe1, 0x86, 0x81, 0x18, 0x3c, 0xc0, 0x66, 0x46, 0xb9, 0x5a, 0x91, 0xa5,
      0xae, 0x55, 0x5a, 0x4f, 0x0a, 0x23, 0x0b, 0xab, 0xae, 0x2a, 0x72, 0x37, 0x18, 0x31, 0xa5, 0x8a]
  else if input = mailboxInput alice alice then
    [0x42, 0xcf, 0xc5, 0x05, 0x2d, 0x97, 0xb9, 0x6f, 0x51, 0x45, 0x63, 0x74, 0x47, 0x6e, 0x8b, 0x88,
      0xaf, 0x39, 0xbe, 0x4d, 0x7a, 0xb6, 0xe3, 0x3c, 0x4f, 0x9c, 0x31, 0xb2, 0xce, 0x37, 0x53, 0x4a]
  else
    [0x44, 0x43, 0xe0, 0xc5, 0x77, 0x0c, 0xdf, 0xdd, 0xb7, 0xe3, 0xd2, 0x9f, 0x77, 0xe6, 0x74, 0x38,
      0xe8, 0x6b, 0x37, 0x71, 0x95, 0x25, 0x19, 0x67, 0xd8, 0x7e, 0xd4, 0x6a, 0x58, 0x18, 0x09, 0xf4]

/-- Both connect and prove who they are; the first leaves an envelope for the second, which collects it. -/
def aliceToBob : List RelayAction :=
  [.connect aliceNonce, .connect bobNonce,
    .request 0 .keys 0 0 (.authenticate alice.toHex (encodeHex aliceSignature)),
    .request 1 .keys 0 0 (.authenticate bob.toHex (encodeHex bobSignature)),
    .request 0 .keys 0 0 (.deposit bob.toHex "07"),
    .request 1 .keys 1 1 (.collect alice.toHex)]

theorem peersOf_aliceToBob : peersOf aliceToBob = [alice, bob, bob, alice] := by
  simp [peersOf, aliceToBob, RelayRequest.names, PeerId.fromHex_toHex, Except.toOption]

theorem collisionFree_aliceToBob : CollisionFree pairDigest (peersOf aliceToBob : List (PeerId twoKeys)) := by
  rw [peersOf_aliceToBob]
  unfold CollisionFree
  decide

/-- The log's last entry. -/
theorem log_aliceToBob : ∃ e, (serve pairDigest aliceToBob : RelayServer twoKeys).log[3]? = some e ∧
    e.client.identity = some bob ∧ e.request = .collect alice.toHex ∧ e.response = .envelopes ["07"] := by
  have halice : alice.verify (challengePayload aliceNonce) aliceSignature = .ok () := by decide
  have hbob : bob.verify (challengePayload bobNonce) bobSignature = .ok () := by decide
  have hbytes : decodeHex "07" = some [7] := by decide
  simp only [serve, aliceToBob, run_cons, run_nil, RelayServer.step, List.nil_append, List.cons_append,
    List.getElem?_cons_zero, List.getElem?_cons_succ, RelayClient.handle, RelayClient.authenticate,
    PeerId.fromHex_toHex, decodeHex_encodeHex, halice, hbob, hbytes, List.set_cons_zero, List.set_cons_succ]
  rw [RelayQueue.deposit_of_room (by decide) (.inr (by decide)) (by decide)]
  exact ⟨_, rfl, rfl, rfl, congrArg RelayResponse.envelopes (by decide)⟩

theorem relay_isolated_alice : ∃ e ∈ (serve pairDigest aliceToBob : RelayServer twoKeys).log.take 3,
    e.Deposits alice bob [7] := by
  obtain ⟨e, he, hid, hreq, hresponse⟩ := log_aliceToBob
  obtain ⟨envelope, htext, hdeposits⟩ :=
    (relay_isolated pairDigest aliceToBob collisionFree_aliceToBob 3 e he).1 bob alice alice.toHex ["07"] hid hreq
      alice.fromHex_toHex hresponse "07" List.mem_cons_self
  have henvelope : [7] = envelope := encodeHex_inj ((by decide : encodeHex [7] = "07").trans htext)
  rw [henvelope]
  exact hdeposits

end Sample

end Idnx
