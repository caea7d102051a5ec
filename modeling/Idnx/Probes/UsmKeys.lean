import Idnx.Lib.Outcome
import Idnx.Probes.UsmState
import Mathlib.Data.List.GetD

/-!
# Keys and salts of the user-based security model

A passphrase is stretched into a key by hashing a megabyte of it, repeated: the loop hands the hash whole passphrases
and the beginning of one (`stretch_feeds`). Privacy salts are counted from a random start; a source gives each of them
once and then refuses (`takes_getElem?`, `salt_once`).
-/

namespace Idnx

open Outcome

/-! ## Stretching -/

/-- A hash that is fed piece by piece. -/
structure Hasher where
  State : Type
  new : State
  update : State → Bytes → State
  finalize : State → Bytes

/-- The shortest passphrase that is accepted (`MIN_PASSPHRASE_OCTETS`). -/
def minPassphraseOctets : Nat := 8

/-- The octets that are hashed (`EXPANDED`). -/
def expandedOctets : Nat := 1048576

/-- A turn of the loop: feeds the passphrase, or as much of it as is missing. -/
def feed (hash : Hasher) (password : Bytes) :
    Nat × hash.State → Outcome Text (Turn (Nat × hash.State) hash.State)
  | (written, hasher) =>
    if written < expandedOctets then do
      let take := min (expandedOctets - written) password.length
      let piece ← slice password 0 take
      return .next (written + take, hash.update hasher piece)
    else .ok (.done hasher)

/-- Expands a passphrase into a master key. -/
def passwordToKey (hash : Hasher) (password : Bytes) : Outcome Text Bytes := do
  require (minPassphraseOctets ≤ password.length)
    ("passphrase shorter than the " ++ Text.ofNat minPassphraseOctets ++ " octets RFC 3414 requires")
  let hasher ← loop (feed hash password) (expandedOctets + 1) (0, hash.new)
  return hash.finalize hasher

section Stretching

variable {hash : Hasher} {password : Bytes} {written fuel : Nat}

/-- The passphrase repeated, from one place on. -/
def repeated (password : Bytes) (start count : Nat) : Bytes :=
  (List.range' start count).map fun i => password.getD (i % password.length) 0

theorem repeated_add (start m n : Nat) :
    repeated password start (m + n) = repeated password start m ++ repeated password (start + m) n := by
  rw [repeated, ← List.range'_append_1, List.map_append]
  rfl

/-- Where the passphrase starts over, its beginning comes next. -/
theorem take_eq_repeated {count : Nat} (hstart : written % password.length = 0) (hcount : count ≤ password.length) :
    password.take count = repeated password written count := by
  refine List.ext_getElem? fun k => ?_
  rw [repeated, List.getElem?_map, List.getElem?_take]
  by_cases hk : k < count
  · have hlt : k < password.length := Nat.lt_of_lt_of_le hk hcount
    have hplace : (written + 1 * k) % password.length = k := by
      rw [Nat.one_mul, Nat.add_mod, hstart, Nat.zero_add, Nat.mod_mod, Nat.mod_eq_of_lt hlt]
    rw [if_pos hk, List.getElem?_range' hk, Option.map_some, hplace, List.getElem?_eq_getElem hlt,
      List.getD_eq_getElem _ _ hlt]
  · rw [if_neg hk, List.getElem?_eq_none (by rw [List.length_range']; omega)]
    rfl

/-- **The loop feeds the passphrase repeated**: from a place where it starts over, or from the end. -/
theorem stretch_feeds (hpos : 0 < password.length) (hstart : written % password.length = 0 ∨ written = expandedOctets)
    (hwritten : written ≤ expandedOctets) (hfuel : expandedOctets - written < fuel) (hasher : hash.State) :
    ∃ pieces : List Bytes, loop (feed hash password) fuel (written, hasher) = .ok (pieces.foldl hash.update hasher) ∧
      pieces.flatten = repeated password written (expandedOctets - written) := by
  induction fuel generalizing written hasher with
  | zero => omega
  | succ fuel ih =>
    by_cases hmore : written < expandedOctets
    case neg =>
      refine ⟨[], ?_, ?_⟩
      · rw [loop, feed, if_neg hmore]
        rfl
      · rw [show expandedOctets - written = 0 by omega]
        rfl
    obtain ⟨take, htake⟩ : ∃ take, take = min (expandedOctets - written) password.length := ⟨_, rfl⟩
    have hslice : (slice password 0 take : Outcome Text _) = .ok (password.take take) := by
      unfold slice
      rw [if_pos ⟨Nat.zero_le _, by omega⟩, Nat.sub_zero, List.drop_zero]
    have hturn : feed hash password (written, hasher) =
        .ok (.next (written + take, hash.update hasher (password.take take))) := by
      rw [feed, if_pos hmore, ← htake]
      dsimp only
      rw [hslice]
      rfl
    -- the whole passphrase was taken, or all that was missing
    have hnext : (written + take) % password.length = 0 ∨ written + take = expandedOctets := by
      by_cases hwhole : take = password.length
      · left
        rw [hwhole, Nat.add_mod_right, hstart.resolve_right (by omega)]
      · right
        omega
    obtain ⟨pieces, hloop, hpieces⟩ := ih hnext (by omega) (by omega) (hash.update hasher (password.take take))
    refine ⟨password.take take :: pieces, ?_, ?_⟩
    · rw [loop_next hturn, hloop]
      rfl
    · rw [List.flatten_cons, hpieces, take_eq_repeated (hstart.resolve_right (by omega)) (by omega), ← repeated_add]
      congr 1
      omega

end Stretching

/-! ## Salts -/

namespace SaltSource

/-- The results of taking a salt `n` times. -/
def takes : Nat → SaltSource → List (Except Text Bytes)
  | 0, _ => []
  | n + 1, salts => salts.takeSalt.1 :: takes n salts.takeSalt.2

variable {salts : SaltSource} {n k : Nat}

/-- What a source says when it is exhausted. -/
def exhausted : Text := "the privacy salt sequence for this engine is exhausted"

theorem takeSalt_of_lt (h : salts.issued.toNat < 2 ^ 64 - 1) :
    salts.takeSalt = (.ok (beBytes 8 (salts.counter + 1).toNat), ⟨salts.counter + 1, salts.issued + 1⟩) :=
  if_neg (Nat.ne_of_lt h)

theorem takeSalt_of_not_lt (h : ¬ salts.issued.toNat < 2 ^ 64 - 1) : salts.takeSalt = (.error exhausted, salts) := by
  have hlt := salts.issued.toNat_lt
  exact if_pos (by omega)

/-- **The salts of a source are the numbers behind its counter**, until as many as there are have been issued. -/
theorem takes_getElem? (hk : k < n) :
    (salts.takes n)[k]? = some (if salts.issued.toNat + k < 2 ^ 64 - 1 then
      .ok (beBytes 8 (salts.counter + UInt64.ofNat (k + 1)).toNat) else .error exhausted) := by
  induction n generalizing salts k with
  | zero => omega
  | succ n ih =>
    rw [takes]
    by_cases hissued : salts.issued.toNat < 2 ^ 64 - 1
    · rw [takeSalt_of_lt hissued]
      have hnext : (salts.issued + 1).toNat = salts.issued.toNat + 1 := by
        rw [UInt64.toNat_add, show (1 : UInt64).toNat = 1 from rfl]
        omega
      cases k with
      | zero =>
        rw [if_pos (by omega)]
        rfl
      | succ k =>
        rw [List.getElem?_cons_succ, ih (Nat.lt_of_succ_lt_succ hk)]
        dsimp only
        rw [hnext, show salts.issued.toNat + 1 + k = salts.issued.toNat + (k + 1) by omega, UInt64.add_assoc,
          show (1 : UInt64) + UInt64.ofNat (k + 1) = UInt64.ofNat (k + 1 + 1) by
            rw [UInt64.ofNat_add (k + 1) 1, UInt64.add_comm]
            rfl]
    · rw [takeSalt_of_not_lt hissued, if_neg (by omega)]
      cases k with
      | zero => rfl
      | succ k =>
        rw [List.getElem?_cons_succ, ih (Nat.lt_of_succ_lt_succ hk)]
        exact congrArg some (if_neg (by dsimp only; omega))

/-- **No salt is issued twice.** -/
theorem salt_once {i j : Nat} {salt : Bytes} (hi : (salts.takes n)[i]? = some (.ok salt))
    (hj : (salts.takes n)[j]? = some (.ok salt)) : i = j := by
  have hlen : ∀ (n : Nat) (s : SaltSource), (takes n s).length = n := by
    intro n
    induction n with
    | zero => exact fun _ => rfl
    | succ n ih => exact fun s => congrArg Nat.succ (ih _)
  have hin : ∀ {k}, (salts.takes n)[k]? = some (.ok salt) → k < n := by
    intro k hk
    have := (List.getElem?_eq_some_iff.mp hk).1
    rwa [hlen] at this
  have hissued : ∀ {k}, (salts.takes n)[k]? = some (.ok salt) →
      k + 1 < 2 ^ 64 ∧ beBytes 8 (salts.counter + UInt64.ofNat (k + 1)).toNat = salt := by
    intro k hk
    rw [takes_getElem? (hin hk), Option.some.injEq] at hk
    split at hk
    · exact ⟨by omega, Except.ok.inj hk⟩
    · cases hk
  obtain ⟨hilt, hi⟩ := hissued hi
  obtain ⟨hjlt, hj⟩ := hissued hj
  have hsame := beBytes_inj (UInt64.toNat_lt _) (UInt64.toNat_lt _) (hi.trans hj.symm)
  rw [UInt64.toNat_inj, UInt64.add_right_inj] at hsame
  have hnat := congrArg UInt64.toNat hsame
  rw [UInt64.toNat_ofNat_of_lt' hilt, UInt64.toNat_ofNat_of_lt' hjlt] at hnat
  omega

end SaltSource

/-- **The key is the hash of the passphrase repeated to 2^20 octets, and no salt is issued twice**: of a source the
first salts, up to 2^64 - 1 of them, are all different, and from then on it fails. -/
theorem usm_keys_and_salts (hash : Hasher) (password : Bytes) (salts : SaltSource) (n : Nat) :
    (minPassphraseOctets ≤ password.length → ∃ pieces : List Bytes,
      passwordToKey hash password = .ok (hash.finalize (pieces.foldl hash.update hash.new)) ∧
        pieces.flatten.length = 2 ^ 20 ∧
        ∀ i < 2 ^ 20, pieces.flatten[i]? = password[i % password.length]?) ∧
      (∀ (i j : Nat) (salt : Bytes), (salts.takes n)[i]? = some (.ok salt) → (salts.takes n)[j]? = some (.ok salt) →
        i = j) ∧
      ∀ i < n, (∃ salt, (salts.takes n)[i]? = some (.ok salt)) ↔ salts.issued.toNat + i < 2 ^ 64 - 1 := by
  refine ⟨fun hlen => ?_, fun i j salt => SaltSource.salt_once, fun i hi => ?_⟩
  · have hpos : 0 < password.length := Nat.lt_of_lt_of_le (by decide) hlen
    obtain ⟨pieces, hloop, hpieces⟩ := stretch_feeds hpos (.inl (Nat.zero_mod _)) (Nat.zero_le _)
      (show expandedOctets - 0 < expandedOctets + 1 from Nat.lt_succ_self _) hash.new
    refine ⟨pieces, ?_, ?_, fun i hi => ?_⟩
    · rw [passwordToKey, require_of hlen, ok_bind, hloop]
      rfl
    · rw [hpieces, repeated, List.length_map, List.length_range']
      rfl
    · rw [hpieces, repeated, List.getElem?_map, List.getElem?_range' (show i < expandedOctets - 0 from hi),
        Option.map_some, Nat.one_mul, Nat.zero_add, List.getD_eq_getElem _ _ (Nat.mod_lt _ hpos),
        List.getElem?_eq_getElem (Nat.mod_lt _ hpos)]
  · rw [SaltSource.takes_getElem? hi]
    split
    case isTrue h => exact ⟨fun _ => h, fun _ => ⟨_, rfl⟩⟩
    case isFalse h => exact ⟨fun ⟨salt, hsalt⟩ => absurd (Option.some.inj hsalt) nofun, fun h' => absurd h' h⟩

end Idnx
