import Mathlib.Data.List.Basic

/-!
# Text

A string is its list of characters. The functions are those of the standard string type that the program uses:
splitting at a separator, ASCII case, search, and reading and writing numbers.
-/

namespace Idnx

/-- A string. -/
abbrev Text := List Char

instance : Coe String Text := ⟨String.toList⟩

namespace Text

/-- What holds of every character of a text is decided along the text: there are too many characters to try
them all. -/
instance (priority := high) decidableForallMem (P : Char → Prop) [DecidablePred P] (t : List Char) :
    Decidable (∀ c ∈ t, P c) := List.decidableBAll P t

instance lawfulBEq : LawfulBEq Text := inferInstance

/-- The text before and after the first `sep`, if there is one. -/
def splitOnce (sep : Char) : Text → Option (Text × Text)
  | [] => none
  | c :: cs => if c = sep then some ([], cs) else (splitOnce sep cs).map fun ab => (c :: ab.1, ab.2)

theorem splitOnce_nil (sep : Char) : splitOnce sep [] = none := rfl

theorem splitOnce_cons (sep c : Char) (t : Text) : splitOnce sep (c :: t) =
    if c = sep then some ([], t) else (splitOnce sep t).map fun ab => (c :: ab.1, ab.2) := rfl

theorem splitOnce_eq_none {sep : Char} {t : Text} : splitOnce sep t = none ↔ sep ∉ t := by
  induction t with
  | nil => simp [splitOnce_nil]
  | cons c t ih =>
    by_cases h : c = sep
    · simp [splitOnce_cons, h]
    · simp [splitOnce_cons, h, ih, Ne.symm h]

theorem splitOnce_append {sep : Char} {a : Text} (h : sep ∉ a) (b : Text) :
    splitOnce sep (a ++ sep :: b) = some (a, b) := by
  induction a with
  | nil => simp [splitOnce_cons]
  | cons c a ih =>
    obtain ⟨hc, ha⟩ := not_or.mp fun hmem => h (List.mem_cons.mpr hmem)
    rw [List.cons_append, splitOnce_cons, if_neg (Ne.symm hc), ih ha, Option.map_some]

/-- A split is at the first separator. -/
theorem eq_of_splitOnce {sep : Char} {t a b : Text} (h : splitOnce sep t = some (a, b)) :
    t = a ++ sep :: b ∧ sep ∉ a := by
  induction t generalizing a with
  | nil => cases h
  | cons c t ih =>
    rw [splitOnce_cons] at h
    split_ifs at h with hc
    · cases h
      rw [hc]
      exact ⟨rfl, List.not_mem_nil⟩
    · obtain ⟨⟨a', b'⟩, hsplit, he⟩ := Option.map_eq_some_iff.mp h
      cases he
      obtain ⟨rfl, hsep⟩ := ih hsplit
      refine ⟨rfl, fun hmem => ?_⟩
      rcases List.mem_cons.mp hmem with rfl | hmem
      · exact hc rfl
      · exact hsep hmem

/-- A text that ends in a tag of fixed width and a short name is taken apart in one way: a second tag would begin
inside the first. -/
theorem tagged_inj {a b p q v w : Text} {mark sep : Char} (hlen : p.length = q.length) (hv : v.length ≤ p.length)
    (hw : w.length ≤ q.length) (hp : sep ∉ p) (hq : sep ∉ q)
    (h : a ++ mark :: (p ++ sep :: v) = b ++ mark :: (q ++ sep :: w)) : a = b ∧ p = q ∧ v = w := by
  -- one direction of the overlap; the other is its mirror image
  have hclear : ∀ {a b p q v w e : Text}, p.length = q.length → v.length ≤ p.length → sep ∉ q →
      b ++ mark :: q = (a ++ mark :: p) ++ e → sep :: v = e ++ sep :: w → e = [] := by
    intro a b p q v w e hlen hv hq htags hrest
    cases e with
    | nil => rfl
    | cons c e =>
      obtain ⟨rfl, hname⟩ := List.cons_eq_cons.mp hrest
      have hshort : (sep :: e).length ≤ q.length := by
        have hcount := congrArg List.length (show v = e ++ sep :: w from hname)
        rw [List.length_append, List.length_cons] at hcount
        rw [List.length_cons]
        omega
      have hsuffix : sep :: e <:+ q :=
        List.suffix_of_suffix_length_le ⟨a ++ mark :: p, htags.symm⟩ ⟨b ++ [mark], by simp⟩ hshort
      exact absurd (hsuffix.subset List.mem_cons_self) hq
  have hwhole : (a ++ mark :: p) ++ sep :: v = (b ++ mark :: q) ++ sep :: w := by simpa using h
  have htags : a ++ mark :: p = b ++ mark :: q := by
    rcases List.append_eq_append_iff.mp hwhole with ⟨e, htags, hrest⟩ | ⟨e, htags, hrest⟩
    · rw [htags, hclear hlen hv hq htags hrest, List.append_nil]
    · rw [htags, hclear hlen.symm hw hp htags hrest, List.append_nil]
  rw [htags] at hwhole
  obtain ⟨hab, hpq⟩ := List.append_inj' htags (by simp [hlen])
  exact ⟨hab, (List.cons.inj hpq).2, (List.cons.inj (List.append_cancel_left hwhole)).2⟩

/-- The pieces between the separators; there is always at least one. -/
def split (sep : Char) (t : Text) : List Text := t.splitOn sep

theorem head?_split (sep : Char) (t : Text) : (split sep t).head? = some (t.takeWhile (· != sep)) := by
  unfold split
  induction t with
  | nil => rfl
  | cons c t ih =>
    rw [List.splitOn_cons_eq_if_modifyHead]
    by_cases hc : c = sep
    · simp [hc]
    · rw [if_neg (by simpa using hc), List.takeWhile_cons, if_pos (by simpa using hc)]
      cases hs : t.splitOn sep with
      | nil => exact absurd hs (List.splitOn_ne_nil sep t)
      | cons piece pieces =>
        rw [hs] at ih
        simpa using ih

/-- Every character of a text is a separator or in a piece. -/
theorem mem_split (sep : Char) {c : Char} {t : Text} (h : c ∈ t) : c = sep ∨ ∃ piece ∈ split sep t, c ∈ piece := by
  unfold split
  induction t with
  | nil => cases h
  | cons d t ih =>
    rw [List.splitOn_cons_eq_if_modifyHead]
    by_cases hd : d = sep
    · rw [if_pos (by simpa using hd)]
      rcases List.mem_cons.mp h with rfl | h
      · exact .inl hd
      · exact (ih h).imp_right fun ⟨piece, hp, hc⟩ => ⟨piece, List.mem_cons_of_mem _ hp, hc⟩
    · rw [if_neg (by simpa using hd)]
      cases hs : t.splitOn sep with
      | nil => exact absurd hs (List.splitOn_ne_nil sep t)
      | cons first rest =>
        rw [List.modifyHead_cons]
        rcases List.mem_cons.mp h with rfl | h
        · exact .inr ⟨_, List.mem_cons_self, List.mem_cons_self⟩
        · refine (ih h).imp_right fun ⟨piece, hp, hc⟩ => ?_
          rw [hs] at hp
          rcases List.mem_cons.mp hp with rfl | hp
          · exact ⟨_, List.mem_cons_self, List.mem_cons_of_mem _ hc⟩
          · exact ⟨piece, List.mem_cons_of_mem _ hp, hc⟩

def toAsciiLowercase (t : Text) : Text := t.map Char.toLower

/-- The lower case of a letter is not an upper-case letter. -/
theorem toLower_toLower (c : Char) : c.toLower.toLower = c.toLower := by
  by_cases h : c.val ≥ 'A'.val ∧ c.val ≤ 'Z'.val
  · have hval : c.toLower.val = c.val + ('a'.val - 'A'.val) := congrArg Char.val (dif_pos h)
    have hlo : 65 ≤ c.val.toNat := UInt32.le_iff_toNat_le.mp h.1
    have hhi : c.val.toNat ≤ 90 := UInt32.le_iff_toNat_le.mp h.2
    have hnat : c.toLower.val.toNat = c.val.toNat + 32 := by
      rw [hval, UInt32.toNat_add, show ('a'.val - 'A'.val).toNat = 32 from rfl]
      omega
    have hno : ¬ (c.toLower.val ≥ 'A'.val ∧ c.toLower.val ≤ 'Z'.val) := by
      rintro ⟨-, hz⟩
      have : c.toLower.val.toNat ≤ 90 := UInt32.le_iff_toNat_le.mp hz
      omega
    exact dif_neg hno
  · have hc : c.toLower = c := dif_neg h
    rw [hc, hc]

theorem toAsciiLowercase_idem (t : Text) : t.toAsciiLowercase.toAsciiLowercase = t.toAsciiLowercase := by
  unfold toAsciiLowercase
  rw [List.map_map]
  exact List.map_congr_left fun c _ => toLower_toLower c

/-- Whether `needle` occurs in `t`. -/
def contains (t needle : Text) : Bool := t.tails.any fun u => needle.isPrefixOf u

def startsWith (t needle : Text) : Bool := needle.isPrefixOf t

/-- The characters with the Unicode property `White_Space` (`char::is_whitespace`). -/
def isWhitespace (c : Char) : Bool :=
  let v := c.toNat
  9 ≤ v && v ≤ 13 || [0x20, 0x85, 0xA0, 0x1680, 0x2028, 0x2029, 0x202F, 0x205F, 0x3000].contains v ||
    0x2000 ≤ v && v ≤ 0x200A

/-- The text without the white space at its two ends. -/
def trim (t : Text) : Text := ((t.dropWhile isWhitespace).reverse.dropWhile isWhitespace).reverse

/-! ## Bytes -/

/-- The UTF-8 bytes (`str::as_bytes`). -/
def asBytes (t : Text) : List UInt8 := t.flatMap String.utf8EncodeChar

theorem asBytes_inj {t u : Text} (h : asBytes t = asBytes u) : t = u := by
  have henc : t.utf8Encode = u.utf8Encode := by
    unfold List.utf8Encode
    exact congrArg List.toByteArray h
  have hdec := congrArg ByteArray.utf8Decode? henc
  rw [List.utf8Decode?_utf8Encode, List.utf8Decode?_utf8Encode, Option.some.injEq] at hdec
  simpa using congrArg Array.toList hdec

/-! ## Numbers -/

/-- The value of a hexadecimal digit. -/
def hexDigit (c : Char) : Option Nat :=
  if '0' ≤ c ∧ c ≤ '9' then some (c.toNat - '0'.toNat)
  else if 'a' ≤ c ∧ c ≤ 'f' then some (c.toNat - 'a'.toNat + 10)
  else if 'A' ≤ c ∧ c ≤ 'F' then some (c.toNat - 'A'.toNat + 10)
  else none

/-- The number with the given hexadecimal digits, most significant first, as long as it stays below `bound`. -/
def hexValue (bound : Nat) : Nat → Text → Option Nat
  | acc, [] => some acc
  | acc, c :: cs =>
    match hexDigit c with
    | some d => if 16 * acc + d < bound then hexValue bound (16 * acc + d) cs else none
    | none => none

/-- `u8::from_str_radix(t, 16)`: at least one digit, a leading `+` allowed, an error on overflow. -/
def parseHexU8 (t : Text) : Option Nat :=
  match t with
  | [] => none
  | '+' :: [] => none
  | '+' :: cs => hexValue 256 0 cs
  | cs => hexValue 256 0 cs

theorem hexValue_eq_none {c : Char} {t : Text} (hc : c ∈ t) (hdigit : hexDigit c = none) (bound acc : Nat) :
    hexValue bound acc t = none := by
  induction t generalizing acc with
  | nil => cases hc
  | cons d t ih =>
    rw [hexValue]
    rcases List.mem_cons.mp hc with rfl | hc
    · rw [hdigit]
    · split
      · split_ifs
        · exact ih hc _
        · rfl
      · rfl

/-- A text with a character that is neither a digit nor a sign is no number. -/
theorem parseHexU8_eq_none {c : Char} {t : Text} (hc : c ∈ t) (hdigit : hexDigit c = none) (hsign : c ≠ '+') :
    parseHexU8 t = none := by
  unfold parseHexU8
  split
  · rfl
  · rfl
  · exact hexValue_eq_none ((List.mem_cons.mp hc).resolve_left hsign) hdigit _ _
  · exact hexValue_eq_none hc hdigit _ _

/-- A number in decimal. -/
def ofNat (n : Nat) : Text := Nat.toDigits 10 n

theorem ofNat_inj {m n : Nat} (h : ofNat m = ofNat n) : m = n := by
  have hvalue := congrArg (Nat.ofDigitChars 10 · 0) h
  simpa only [ofNat, Nat.ofDigitChars_ten_toDigits] using hvalue

/-- An integer in decimal. -/
def ofInt : Int → Text
  | .ofNat n => ofNat n
  | .negSucc n => '-' :: ofNat (n + 1)

/-- A number in lower-case hexadecimal. -/
def hexOfNat (n : Nat) : Text := Nat.toDigits 16 n

end Text

/-- The two digits of a byte, `{byte:02x}`. -/
def hexByte (b : UInt8) : Text := [Nat.digitChar (b.toNat / 16), Nat.digitChar (b.toNat % 16)]

/-- What holds of the sixteen digits holds of the two of a byte. -/
theorem forall_mem_hexByte {P : Char → Prop} (h : ∀ n < 16, P (Nat.digitChar n)) (b : UInt8) :
    ∀ c ∈ hexByte b, P c := by
  have hb := b.toNat_lt
  intro c hc
  simp only [hexByte, List.mem_cons, List.not_mem_nil, or_false] at hc
  rcases hc with rfl | rfl
  · exact h _ (by omega)
  · exact h _ (by omega)

theorem hexByte_inj {a b : UInt8} (h : hexByte a = hexByte b) : a = b := by
  have hdigit : ∀ m < 16, ∀ n < 16, Nat.digitChar m = Nat.digitChar n → m = n := by decide
  have ha := a.toNat_lt
  have hb := b.toNat_lt
  simp only [hexByte, List.cons.injEq, and_true] at h
  have hhi := hdigit _ (by omega) _ (by omega) h.1
  have hlo := hdigit _ (by omega) _ (by omega) h.2
  exact UInt8.toNat_inj.mp (by omega)

def encodeHex (bytes : List UInt8) : Text := bytes.flatMap hexByte

end Idnx
