import Mathlib.Algebra.Group.Nat.Defs
import Mathlib.Data.List.Basic
import Mathlib.Data.List.Induction

/-!
# Byte strings that can be cut again

A code `enc : α → Bytes` is *delimited* on a set of values when a string that starts with the code of one of them
tells which one it is and where the code ends (`Delimited`). Codes of one fixed length are delimited
(`Delimited.of_length`), a length in front makes any injective code delimited (`delimited_field`), and pieces written
one after the other stay delimited (`delimited_flatMap`). Two strings that start with different labels, neither of
them the beginning of the other, differ whatever follows (`append_ne_of_labels`).
-/

namespace Idnx

/-- A byte string. -/
abbrev Bytes := List UInt8

/-- The last `n` bytes of a number, the most significant first. -/
def beBytes : Nat → Nat → Bytes
  | 0, _ => []
  | n + 1, x => beBytes n (x / 256) ++ [UInt8.ofNat x]

@[simp] theorem length_beBytes (n x : Nat) : (beBytes n x).length = n := by
  induction n generalizing x with
  | zero => rfl
  | succ n ih => simp [beBytes, ih]

/-- `n` bytes hold the numbers below `256 ^ n`. -/
theorem beBytes_inj {n x y : Nat} (hx : x < 256 ^ n) (hy : y < 256 ^ n) (h : beBytes n x = beBytes n y) : x = y := by
  induction n generalizing x y with
  | zero => omega
  | succ n ih =>
    obtain ⟨hinit, hlast⟩ := List.append_inj' h rfl
    have hdiv : x / 256 = y / 256 := by
      refine ih ?_ ?_ hinit
      · rw [pow_succ] at hx; omega
      · rw [pow_succ] at hy; omega
    have hmod : x % 256 = y % 256 := by
      have := congrArg UInt8.toNat (List.singleton_inj.mp hlast)
      simpa using this
    omega

/-- The number a byte string says, the most significant byte first. -/
def beNat (bytes : Bytes) : Nat := bytes.foldl (fun n b => n * 256 + b.toNat) 0

theorem beNat_beBytes {n x : Nat} (hx : x < 256 ^ n) : beNat (beBytes n x) = x := by
  induction n generalizing x with
  | zero => rw [pow_zero] at hx; rw [show x = 0 by omega]; rfl
  | succ n ih =>
    rw [pow_succ] at hx
    have hinit := ih (x := x / 256) (by omega)
    unfold beNat at hinit ⊢
    rw [beBytes, List.foldl_append, hinit]
    show x / 256 * 256 + (UInt8.ofNat x).toNat = x
    rw [UInt8.toNat_ofNat']
    omega

theorem beNat_concat (bytes : Bytes) (b : UInt8) : beNat (bytes ++ [b]) = beNat bytes * 256 + b.toNat := by
  unfold beNat
  rw [List.foldl_append]
  rfl

theorem beNat_lt (bytes : Bytes) : beNat bytes < 256 ^ bytes.length := by
  induction bytes using List.reverseRecOn with
  | nil => exact Nat.one_pos
  | append_singleton bytes b ih =>
    have hb := b.toNat_lt
    rw [beNat_concat, List.length_append, List.length_singleton, pow_succ]
    omega

/-- A byte string is what its number is written as. -/
theorem beBytes_beNat (bytes : Bytes) : beBytes bytes.length (beNat bytes) = bytes := by
  induction bytes using List.reverseRecOn with
  | nil => rfl
  | append_singleton bytes b ih =>
    have hb := b.toNat_lt
    have hdiv : (beNat bytes * 256 + b.toNat) / 256 = beNat bytes := by omega
    have hlast : UInt8.ofNat (beNat bytes * 256 + b.toNat) = b := by
      apply UInt8.toNat_inj.mp
      rw [UInt8.toNat_ofNat']
      omega
    rw [beNat_concat, List.length_append, List.length_singleton, beBytes, hdiv, ih, hlast]

/-- The last bytes of a multiple of a power of 256 are zero. -/
theorem beBytes_mul_pow (n k x : Nat) : beBytes (n + k) (x * 256 ^ k) = beBytes n x ++ List.replicate k 0 := by
  induction k with
  | zero => rw [Nat.pow_zero, Nat.mul_one, List.replicate_zero, List.append_nil, Nat.add_zero]
  | succ k ih =>
    have hdiv : x * 256 ^ (k + 1) / 256 = x * 256 ^ k := by
      rw [Nat.pow_succ, ← Nat.mul_assoc, Nat.mul_div_cancel _ (by decide)]
    have hlast : UInt8.ofNat (x * 256 ^ (k + 1)) = 0 := by
      apply UInt8.toNat_inj.mp
      rw [UInt8.toNat_ofNat', Nat.pow_succ, ← Nat.mul_assoc, Nat.mul_mod_left]
      rfl
    rw [← Nat.add_assoc, beBytes, hdiv, hlast, ih, List.append_assoc, List.replicate_succ']

theorem ofNat_beBytes {w n : Nat} (hw : 256 ^ n = 2 ^ w) (a : BitVec w) :
    BitVec.ofNat w (beNat (beBytes n a.toNat)) = a := by
  rw [beNat_beBytes (by rw [hw]; exact a.isLt), BitVec.ofNat_toNat, BitVec.setWidth_eq]

theorem beBytes_ofNat {w n : Nat} (hw : 256 ^ n = 2 ^ w) {bytes : Bytes} (h : bytes.length = n) :
    beBytes n (BitVec.ofNat w (beNat bytes)).toNat = bytes := by
  subst h
  rw [BitVec.toNat_ofNat, Nat.mod_eq_of_lt (by rw [← hw]; exact beNat_lt bytes), beBytes_beNat]

section Delimited

variable {α β : Type}

/-- A string that starts with the code of a value in `S` tells the value and the rest. -/
def Delimited (S : α → Prop) (enc : α → Bytes) : Prop :=
  ∀ ⦃a b : α⦄ ⦃x y : Bytes⦄, S a → S b → enc a ++ x = enc b ++ y → a = b ∧ x = y

variable {S : α → Prop} {T : β → Prop} {enc : α → Bytes} {enc' : β → Bytes}

/-- Codes that are all of one length end where that length says. -/
theorem Delimited.of_length {n : Nat} (hlen : ∀ a, S a → (enc a).length = n)
    (hinj : ∀ a b, S a → S b → enc a = enc b → a = b) : Delimited S enc := by
  intro a b x y ha hb h
  obtain ⟨he, hr⟩ := List.append_inj h (by rw [hlen a ha, hlen b hb])
  exact ⟨hinj a b ha hb he, hr⟩

theorem delimited_beBytes (n : Nat) : Delimited (· < 256 ^ n) (beBytes n) :=
  Delimited.of_length (n := n) (fun a _ => length_beBytes n a) fun _ _ ha hb h => beBytes_inj ha hb h

/-- A byte string behind its length, in `n` bytes. -/
def field (n : Nat) (bytes : Bytes) : Bytes := beBytes n bytes.length ++ bytes

theorem delimited_field (n : Nat) : Delimited (fun bytes : Bytes => bytes.length < 256 ^ n) (field n) := by
  intro a b x y ha hb h
  unfold field at h
  rw [List.append_assoc, List.append_assoc] at h
  obtain ⟨hlen, hrest⟩ := delimited_beBytes n ha hb h
  exact List.append_inj hrest hlen

/-- A value that is first turned into a delimited code. -/
theorem Delimited.comp {g : α → β} (h : Delimited T enc') (hST : ∀ a, S a → T (g a))
    (hinj : ∀ a b, S a → S b → g a = g b → a = b) : Delimited S fun a => enc' (g a) := by
  intro a b x y ha hb he
  obtain ⟨hg, hr⟩ := h (hST a ha) (hST b hb) he
  exact ⟨hinj a b ha hb hg, hr⟩

/-- As many pieces as both sides know there are. -/
theorem delimited_flatMap (h : Delimited S enc) {as bs : List α} {x y : Bytes} (hlen : as.length = bs.length)
    (ha : ∀ a ∈ as, S a) (hb : ∀ b ∈ bs, S b) (he : as.flatMap enc ++ x = bs.flatMap enc ++ y) : as = bs ∧ x = y := by
  induction as generalizing bs with
  | nil =>
    obtain rfl : bs = [] := List.length_eq_zero_iff.mp hlen.symm
    exact ⟨rfl, he⟩
  | cons a as ih =>
    cases bs with
    | nil => cases hlen
    | cons b bs =>
      rw [List.flatMap_cons, List.flatMap_cons, List.append_assoc, List.append_assoc] at he
      obtain ⟨rfl, hrest⟩ := h (ha a List.mem_cons_self) (hb b List.mem_cons_self) he
      obtain ⟨rfl, rfl⟩ := ih (Nat.succ.inj hlen) (fun c hc => ha c (List.mem_cons_of_mem _ hc))
        (fun c hc => hb c (List.mem_cons_of_mem _ hc)) hrest
      exact ⟨rfl, rfl⟩

end Delimited

/-- Labels that differ within the length of the shorter one keep apart whatever is written behind them. -/
theorem append_ne_of_labels {l m : Bytes} (h : l.take m.length ≠ m.take l.length) (x y : Bytes) :
    l ++ x ≠ m ++ y := by
  intro he
  refine h ?_
  have hl : (l ++ x).take (min l.length m.length) = l.take m.length := by
    rw [List.take_append_of_le_length (Nat.min_le_left _ _)]
    exact (List.take_eq_take_iff.mpr (by omega))
  have hm : (m ++ y).take (min l.length m.length) = m.take l.length := by
    rw [List.take_append_of_le_length (Nat.min_le_right _ _)]
    exact (List.take_eq_take_iff.mpr (by omega))
  rw [← hl, ← hm, he]

end Idnx
