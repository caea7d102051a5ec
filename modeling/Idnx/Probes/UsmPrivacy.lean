import Idnx.Lib.Feedback
import Idnx.Probes.SnmpV3
import Idnx.Probes.UsmKeys
import Mathlib.Data.List.Nodup

/-!
# Privacy of the user-based security model

A passphrase's key is localised to one engine, and what a message carries is enciphered under the first sixteen octets
of it, by AES in cipher feedback behind a start block of the engine's boots, its time and a salt. What is encrypted is
decrypted again under the same key, counters and salt (`decrypt_encrypt`), and a run of an engine's state, whatever it
hears in between, hands out no start block twice (`start_blocks_once`).
-/

namespace Idnx

open Outcome

/-- The privacy algorithms. -/
inductive PrivProtocol where
  | aesCfb128
  deriving DecidableEq, Repr

/-- AES-128: blocks of sixteen bytes, under any key. -/
structure BlockCipher where
  encryptBlock : Bytes → Bytes → Bytes
  length_encryptBlock : ∀ key block, (encryptBlock key block).length = 16

/-! ## Keys -/

/-- Localises a key to one engine. -/
def localizeKey (hash : Hasher) (master engineId : Bytes) : AuthProtocol → Bytes
  | .hmacSha256 => hash.finalize (hash.update (hash.update (hash.update hash.new master) engineId) master)

/-- The authentication key of a user at an engine. -/
def deriveAuthKey (hash : Hasher) (authPassphrase engineId : Bytes) (protocol : AuthProtocol) : Outcome Text Bytes := do
  let master ← passwordToKey hash authPassphrase
  return localizeKey hash master engineId protocol

/-- The privacy key of a user at an engine: the first sixteen octets of the localised key of the privacy passphrase. -/
def derivePrivacyKey (hash : Hasher) (privacyPassphrase engineId : Bytes) (authProtocol : AuthProtocol) :
    PrivProtocol → Outcome Text Bytes
  | .aesCfb128 => do
    let master ← passwordToKey hash privacyPassphrase
    let localized := localizeKey hash master engineId authProtocol
    return localized.take 16

/-! ## Encryption -/

/-- The start block of a message. -/
def privacyIv (engineBoots engineTime : UInt32) (salt : Bytes) : Bytes :=
  beBytes 4 engineBoots.toNat ++ beBytes 4 engineTime.toNat ++ salt

theorem xor_xor (a b : UInt8) : a ^^^ b ^^^ b = a := by
  rw [UInt8.xor_assoc, UInt8.xor_self, UInt8.xor_zero]

/-- Cipher feedback over whole blocks under one key. -/
def BlockCipher.cfb (cipher : BlockCipher) (key : Bytes) : Feedback UInt8 where
  mix := (· ^^^ ·)
  mix_mix := xor_xor
  size := 16
  image := cipher.encryptBlock key
  length_image := cipher.length_encryptBlock key

/-- Encrypts a scoped PDU; the salt is sent beside it. -/
def encrypt (cipher : BlockCipher) (key : Bytes) (engineBoots engineTime : UInt32) (salt plaintext : Bytes) :
    Except Text Bytes :=
  let iv := privacyIv engineBoots engineTime salt
  if key.length = 16 then .ok ((cipher.cfb key).encipher plaintext.length iv plaintext)
  else .error "the privacy key is not 128 bits"

/-- Decrypts a scoped PDU. -/
def decrypt (cipher : BlockCipher) (key : Bytes) (engineBoots engineTime : UInt32) (salt ciphertext : Bytes) :
    Except Text Bytes :=
  let iv := privacyIv engineBoots engineTime salt
  if key.length = 16 then .ok ((cipher.cfb key).decipher ciphertext.length iv ciphertext)
  else .error "the privacy key is not 128 bits"

section Encryption

variable {hash : Hasher} {cipher : BlockCipher} {key salt plaintext ciphertext : Bytes} {boots time : UInt32}

/-- Of an accepted passphrase, under a hash of at least sixteen octets, the privacy key is one that encrypts. -/
theorem length_derivePrivacyKey (hfinal : ∀ s, 16 ≤ (hash.finalize s).length) {passphrase engineId : Bytes}
    {authProtocol : AuthProtocol} {protocol : PrivProtocol}
    (h : derivePrivacyKey hash passphrase engineId authProtocol protocol = .ok key) : key.length = 16 := by
  cases protocol
  cases authProtocol
  obtain ⟨master, -, hkey⟩ := bind_eq_ok.mp h
  have hlen := hfinal (hash.update (hash.update (hash.update hash.new master) engineId) master)
  rw [← Outcome.ok.inj hkey, List.length_take]
  show min 16 (hash.finalize _).length = 16
  omega

theorem encrypt_eq_ok : encrypt cipher key boots time salt plaintext = .ok ciphertext ↔
    key.length = 16 ∧
      (cipher.cfb key).encipher plaintext.length (privacyIv boots time salt) plaintext = ciphertext := by
  unfold encrypt
  dsimp only
  split_ifs with hkey
  · simp [hkey]
  · simp [hkey]

/-- The ciphertext is as long as the text. -/
theorem length_encrypt (h : encrypt cipher key boots time salt plaintext = .ok ciphertext) :
    ciphertext.length = plaintext.length := by
  rw [encrypt_eq_ok] at h
  obtain ⟨-, rfl⟩ := h
  exact Feedback.length_encipher (Nat.zero_lt_succ 15) le_rfl

/-- **What is encrypted is decrypted again.** -/
theorem decrypt_encrypt (h : encrypt cipher key boots time salt plaintext = .ok ciphertext) :
    decrypt cipher key boots time salt ciphertext = .ok plaintext := by
  have hlen := length_encrypt h
  rw [encrypt_eq_ok] at h
  obtain ⟨hkey, rfl⟩ := h
  unfold decrypt
  dsimp only
  rw [if_pos hkey, hlen, Feedback.decipher_encipher (Nat.zero_lt_succ 15) le_rfl]

end Encryption

/-! ## Start blocks -/

/-- Start blocks with different salts are different, whatever the counters are. -/
theorem salt_of_privacyIv {boots time boots' time' : UInt32} {salt salt' : Bytes}
    (h : privacyIv boots time salt = privacyIv boots' time' salt') : salt = salt' := by
  have hfront : (beBytes 4 boots.toNat ++ beBytes 4 time.toNat).length =
      (beBytes 4 boots'.toNat ++ beBytes 4 time'.toNat).length := by
    rw [List.length_append, List.length_append, length_beBytes, length_beBytes, length_beBytes, length_beBytes]
  exact (List.append_inj h hfront).2

/-- What happens to an engine's state: a start block is made of some counters and the next salt, or an authenticated
message is absorbed. -/
inductive EngineEvent where
  | encrypts (engineBoots engineTime : UInt32)
  | absorbs (m : Authenticated)

/-- An engine's state and the start blocks it has handed out. -/
structure StartBlocks where
  engine : Usm.EngineState
  blocks : List Bytes

def StartBlocks.step (s : StartBlocks) : EngineEvent → StartBlocks
  | .encrypts boots time =>
    let (salt, engine) := s.engine.nextSalt
    match salt with
    | .ok salt => ⟨engine, s.blocks ++ [privacyIv boots time salt]⟩
    | .error _ => ⟨engine, s.blocks⟩
  | .absorbs m => { s with engine := s.engine.absorb m }

/-- The `k`-th salt behind a counter. -/
def saltBehind (counter : UInt64) (k : Nat) : Bytes := beBytes 8 (counter + UInt64.ofNat (k + 1)).toNat

theorem saltBehind_inj {counter : UInt64} {i j : Nat} (hi : i + 1 < 2 ^ 64) (hj : j + 1 < 2 ^ 64)
    (h : saltBehind counter i = saltBehind counter j) : i = j := by
  have hsame := beBytes_inj (UInt64.toNat_lt _) (UInt64.toNat_lt _) h
  rw [UInt64.toNat_inj, UInt64.add_right_inj] at hsame
  have hnat := congrArg UInt64.toNat hsame
  rw [UInt64.toNat_ofNat_of_lt' hi, UInt64.toNat_ofNat_of_lt' hj] at hnat
  omega

/-- The salts of the blocks handed out are the first ones behind the counter the state started from, and the state
counts them. -/
structure StartBlocks.Counted (start : SaltSource) (s : StartBlocks) : Prop where
  counter : s.engine.salts.counter = start.counter + UInt64.ofNat s.blocks.length
  issued : s.engine.salts.issued.toNat = start.issued.toNat + s.blocks.length
  salts : s.blocks.map (fun block => block.drop 8) = (List.range s.blocks.length).map (saltBehind start.counter)

theorem drop_privacyIv (boots time : UInt32) (salt : Bytes) : (privacyIv boots time salt).drop 8 = salt :=
  List.drop_left' (by rw [List.length_append, length_beBytes, length_beBytes])

theorem salts_absorb (engine : Usm.EngineState) (m : Authenticated) : (engine.absorb m).salts = engine.salts := by
  unfold Usm.EngineState.absorb Usm.EngineState.absorbAuthenticated
  split_ifs <;> rfl

theorem StartBlocks.Counted.step {start : SaltSource} {s : StartBlocks} (h : s.Counted start) (event : EngineEvent) :
    (s.step event).Counted start := by
  cases event with
  | absorbs m =>
    refine ⟨?_, ?_, h.salts⟩
    · exact (congrArg SaltSource.counter (salts_absorb s.engine m)).trans h.counter
    · exact (congrArg (fun salts => salts.issued.toNat) (salts_absorb s.engine m)).trans h.issued
  | encrypts boots time =>
    unfold StartBlocks.step Usm.EngineState.nextSalt
    by_cases hmore : s.engine.salts.issued.toNat < 2 ^ 64 - 1
    case neg =>
      rw [SaltSource.takeSalt_of_not_lt hmore]
      exact ⟨h.counter, h.issued, h.salts⟩
    rw [SaltSource.takeSalt_of_lt hmore]
    have hnext : s.engine.salts.counter + 1 = start.counter + UInt64.ofNat (s.blocks.length + 1) := by
      rw [h.counter, UInt64.ofNat_add, UInt64.add_assoc]
      rfl
    refine ⟨?_, ?_, ?_⟩
    · dsimp only
      rw [List.length_append, hnext]
      rfl
    · dsimp only
      have hissued := h.issued
      rw [List.length_append, List.length_singleton, UInt64.toNat_add, show (1 : UInt64).toNat = 1 from rfl]
      omega
    · dsimp only
      rw [List.map_append, h.salts, List.length_append, List.length_singleton, List.range_succ, List.map_append,
        List.map_singleton, drop_privacyIv, hnext]
      rfl

/-- **No start block is handed out twice**, whatever counters go into the blocks and whatever is heard in between. -/
theorem start_blocks_once (engine : Usm.EngineState) (events : List EngineEvent) :
    (run StartBlocks.step ⟨engine, []⟩ events).blocks.Nodup := by
  have hcounted : (run StartBlocks.step ⟨engine, []⟩ events).Counted engine.salts := by
    refine run_induction StartBlocks.step (P := fun _ s => s.Counted engine.salts) ⟨?_, rfl, rfl⟩
      (fun _ event h => h.step event) events
    exact (UInt64.add_zero _).symm
  obtain ⟨-, hissued, hsalts⟩ := hcounted
  have hbound := (run StartBlocks.step ⟨engine, []⟩ events).engine.salts.issued.toNat_lt
  refine List.Nodup.of_map (fun block => block.drop 8) ?_
  rw [hsalts]
  refine List.Nodup.map_on (fun i hi j hj h => ?_) List.nodup_range
  rw [List.mem_range] at hi hj
  exact saltBehind_inj (by omega) (by omega) h

end Idnx
