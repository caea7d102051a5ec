import Idnx.Lib.Text

/-!
# Reading UTF-8 that may be broken

`Text.fromUtf8Lossy` is `String::from_utf8_lossy`: every character of well-formed UTF-8, and one replacement character
for each longest piece that could have begun one. Text that was written as UTF-8 is read back
(`fromUtf8Lossy_asBytes`).
-/

namespace Idnx.Text

/-- U+FFFD. -/
def replacement : Char := Char.ofNat 0xFFFD

/-- A byte `10xxxxxx`. -/
def isContinuation (b : Nat) : Bool := 0x80 ≤ b && b ≤ 0xBF

/-- The second byte of three: no overlong form and no surrogate. -/
def isSecondOfThree (b0 b1 : Nat) : Bool :=
  if b0 = 0xE0 then 0xA0 ≤ b1 && b1 ≤ 0xBF
  else if b0 = 0xED then 0x80 ≤ b1 && b1 ≤ 0x9F
  else isContinuation b1

/-- The second byte of four: no overlong form and nothing above U+10FFFF. -/
def isSecondOfFour (b0 b1 : Nat) : Bool :=
  if b0 = 0xF0 then 0x90 ≤ b1 && b1 ≤ 0xBF
  else if b0 = 0xF4 then 0x80 ≤ b1 && b1 ≤ 0x8F
  else isContinuation b1

/-- The character a byte begins, and how many of the bytes behind it belong to it; a byte that is missing counts as
`0`. -/
def utf8Step (b0 : Nat) (rest : List UInt8) : Char × Nat :=
  let b1 := (rest.getD 0 0).toNat
  let b2 := (rest.getD 1 0).toNat
  let b3 := (rest.getD 2 0).toNat
  if b0 < 0x80 then (Char.ofNat b0, 0)
  else if 0xC2 ≤ b0 ∧ b0 ≤ 0xDF then
    if isContinuation b1 then (Char.ofNat (b0 % 32 * 64 + b1 % 64), 1) else (replacement, 0)
  else if 0xE0 ≤ b0 ∧ b0 ≤ 0xEF then
    if isSecondOfThree b0 b1 then
      if isContinuation b2 then (Char.ofNat ((b0 % 16 * 64 + b1 % 64) * 64 + b2 % 64), 2) else (replacement, 1)
    else (replacement, 0)
  else if 0xF0 ≤ b0 ∧ b0 ≤ 0xF4 then
    if isSecondOfFour b0 b1 then
      if isContinuation b2 then
        if isContinuation b3 then (Char.ofNat (((b0 % 8 * 64 + b1 % 64) * 64 + b2 % 64) * 64 + b3 % 64), 3)
        else (replacement, 2)
      else (replacement, 1)
    else (replacement, 0)
  else (replacement, 0)

/-- At most `n` characters. -/
def lossyLoop : Nat → List UInt8 → Text
  | 0, _ => []
  | _ + 1, [] => []
  | n + 1, b :: rest =>
    let (c, more) := utf8Step b.toNat rest
    c :: lossyLoop n (rest.drop more)

/-- `String::from_utf8_lossy`; there are no more characters than bytes. -/
def fromUtf8Lossy (bytes : List UInt8) : Text := lossyLoop bytes.length bytes

section Step

variable {v : Nat} (rest : List UInt8)

theorem utf8Step_one (h : v < 0x80) : utf8Step v rest = (Char.ofNat v, 0) := by
  unfold utf8Step
  exact if_pos h

theorem utf8Step_two {b1 : UInt8} (hlo : 0x80 ≤ v) (hhi : v ≤ 0x7FF) (h1 : b1.toNat = v % 64 + 0x80) :
    utf8Step (v / 64 % 32 + 0xC0) (b1 :: rest) = (Char.ofNat v, 1) := by
  have hcont : isContinuation b1.toNat = true := by
    simp only [isContinuation, Bool.and_eq_true, decide_eq_true_eq]
    omega
  unfold utf8Step
  simp only [List.getD_cons_zero]
  rw [if_neg (by omega), if_pos (by omega), if_pos hcont,
    show (v / 64 % 32 + 0xC0) % 32 * 64 + b1.toNat % 64 = v by omega]

theorem utf8Step_three {b1 b2 : UInt8} (hlo : 0x800 ≤ v) (hhi : v ≤ 0xFFFF) (hvalid : v < 0xD800 ∨ 0xDFFF < v)
    (h1 : b1.toNat = v / 64 % 64 + 0x80) (h2 : b2.toNat = v % 64 + 0x80) :
    utf8Step (v / 4096 % 16 + 0xE0) (b1 :: b2 :: rest) = (Char.ofNat v, 2) := by
  have hsecond : isSecondOfThree (v / 4096 % 16 + 0xE0) b1.toNat = true := by
    unfold isSecondOfThree isContinuation
    split
    · simp only [Bool.and_eq_true, decide_eq_true_eq]
      omega
    · split
      · simp only [Bool.and_eq_true, decide_eq_true_eq]
        omega
      · simp only [Bool.and_eq_true, decide_eq_true_eq]
        omega
  have hcont : isContinuation b2.toNat = true := by
    simp only [isContinuation, Bool.and_eq_true, decide_eq_true_eq]
    omega
  unfold utf8Step
  simp only [List.getD_cons_zero, List.getD_cons_succ]
  rw [if_neg (by omega), if_neg (by omega), if_pos (by omega), if_pos hsecond, if_pos hcont,
    show ((v / 4096 % 16 + 0xE0) % 16 * 64 + b1.toNat % 64) * 64 + b2.toNat % 64 = v by omega]

theorem utf8Step_four {b1 b2 b3 : UInt8} (hlo : 0x10000 ≤ v) (hhi : v < 0x110000)
    (h1 : b1.toNat = v / 4096 % 64 + 0x80) (h2 : b2.toNat = v / 64 % 64 + 0x80) (h3 : b3.toNat = v % 64 + 0x80) :
    utf8Step (v / 262144 % 8 + 0xF0) (b1 :: b2 :: b3 :: rest) = (Char.ofNat v, 3) := by
  have hsecond : isSecondOfFour (v / 262144 % 8 + 0xF0) b1.toNat = true := by
    unfold isSecondOfFour isContinuation
    split
    · simp only [Bool.and_eq_true, decide_eq_true_eq]
      omega
    · split
      · simp only [Bool.and_eq_true, decide_eq_true_eq]
        omega
      · simp only [Bool.and_eq_true, decide_eq_true_eq]
        omega
  have hcont : ∀ b : UInt8, b.toNat = v / 64 % 64 + 0x80 ∨ b.toNat = v % 64 + 0x80 →
    isContinuation b.toNat = true := by
    intro b hb
    simp only [isContinuation, Bool.and_eq_true, decide_eq_true_eq]
    omega
  unfold utf8Step
  simp only [List.getD_cons_zero, List.getD_cons_succ]
  rw [if_neg (by omega), if_neg (by omega), if_neg (by omega), if_pos (by omega), if_pos hsecond,
    if_pos (hcont b2 (.inl h2)), if_pos (hcont b3 (.inr h3)),
    show (((v / 262144 % 8 + 0xF0) % 8 * 64 + b1.toNat % 64) * 64 + b2.toNat % 64) * 64 + b3.toNat % 64 = v by omega]

end Step

/-- A character is read back in front of anything. -/
theorem utf8Step_utf8EncodeChar (c : Char) (rest : List UInt8) :
    ∃ b more, String.utf8EncodeChar c = b :: more ∧ utf8Step b.toNat (more ++ rest) = (c, more.length) := by
  have hc : c.toNat < 0xD800 ∨ (0xDFFF < c.toNat ∧ c.toNat < 0x110000) := c.valid
  have hbyte : ∀ n, n < 256 → (UInt8.ofNat n).toNat = n := by
    intro n hn
    rw [UInt8.toNat_ofNat']
    omega
  unfold String.utf8EncodeChar
  rw [show c.val.toNat = c.toNat from rfl]
  dsimp only
  split
  · refine ⟨_, _, rfl, ?_⟩
    rw [hbyte _ (by omega), utf8Step_one _ (by omega), Char.ofNat_toNat]
    rfl
  · split
    · refine ⟨_, _, rfl, ?_⟩
      rw [hbyte _ (by omega)]
      exact (utf8Step_two _ (by omega) (by omega) (hbyte _ (by omega))).trans (by rw [Char.ofNat_toNat]; rfl)
    · split
      · refine ⟨_, _, rfl, ?_⟩
        rw [hbyte _ (by omega)]
        exact (utf8Step_three _ (by omega) (by omega) (by omega) (hbyte _ (by omega)) (hbyte _ (by omega))).trans
          (by rw [Char.ofNat_toNat]; rfl)
      · refine ⟨_, _, rfl, ?_⟩
        rw [hbyte _ (by omega)]
        exact (utf8Step_four _ (by omega) (by omega) (hbyte _ (by omega)) (hbyte _ (by omega))
          (hbyte _ (by omega))).trans
          (by rw [Char.ofNat_toNat]; rfl)

theorem lossyLoop_asBytes {n : Nat} {t : Text} (h : t.length ≤ n) : lossyLoop n (asBytes t) = t := by
  induction t generalizing n with
  | nil => cases n <;> rfl
  | cons c t ih =>
    obtain ⟨m, rfl⟩ : ∃ m, n = m + 1 := ⟨n - 1, by simp at h; omega⟩
    obtain ⟨b, more, hencode, hstep⟩ := utf8Step_utf8EncodeChar c (asBytes t)
    have hbytes : asBytes (c :: t) = b :: (more ++ asBytes t) := by
      unfold asBytes
      rw [List.flatMap_cons, hencode]
      rfl
    rw [hbytes]
    simp only [lossyLoop, hstep]
    rw [List.drop_left, ih (by simpa using h)]

theorem length_le_asBytes (t : Text) : t.length ≤ (asBytes t).length := by
  induction t with
  | nil => exact Nat.le_refl _
  | cons c t ih =>
    obtain ⟨b, more, hencode, -⟩ := utf8Step_utf8EncodeChar c []
    unfold asBytes at ih ⊢
    rw [List.flatMap_cons, hencode, List.length_append, List.length_cons, List.length_cons]
    omega

/-- Text is read back from its bytes. -/
theorem fromUtf8Lossy_asBytes (t : Text) : fromUtf8Lossy (asBytes t) = t := lossyLoop_asBytes (length_le_asBytes t)

/-- The text that bytes are, if they are UTF-8 (`std::str::from_utf8`). -/
def fromUtf8 (bytes : List UInt8) : Option Text :=
  if asBytes (fromUtf8Lossy bytes) = bytes then some (fromUtf8Lossy bytes) else none

theorem fromUtf8_asBytes (t : Text) : fromUtf8 (asBytes t) = some t := by
  unfold fromUtf8
  rw [fromUtf8Lossy_asBytes, if_pos rfl]

theorem fromUtf8_eq_some {bytes : List UInt8} {t : Text} : fromUtf8 bytes = some t ↔ asBytes t = bytes := by
  constructor
  · intro h
    unfold fromUtf8 at h
    split_ifs at h with hvalid
    rw [← Option.some.inj h]
    exact hvalid
  · rintro rfl
    exact fromUtf8_asBytes t

end Idnx.Text
