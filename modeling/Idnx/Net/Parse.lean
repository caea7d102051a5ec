import Idnx.Net.Display
import Mathlib.Data.Nat.Digits.Defs

/-!
# Reading an address

The reader of addresses of the standard library (`IpAddr.fromStr`): decimal octets between dots, hexadecimal groups
between colons with at most one gap, the last two groups in either form. What it needs is that each address is read
back from its own text (`fromStr_toText`), and from the text in which the last groups of an address without a network
are dotted (`fromStr_compatible`).
-/

namespace Idnx

namespace Text

/-- The value of a digit (`char::to_digit`). -/
def toDigit (radix : Nat) (c : Char) : Option Nat := (hexDigit c).filter (· < radix)

/-- The digits in front of a text. -/
def leadingDigits (radix : Nat) (t : Text) : Text := t.takeWhile fun c => (toDigit radix c).isSome

def digitsValue (radix : Nat) (t : Text) : Nat := t.foldl (fun acc c => radix * acc + (toDigit radix c).getD 0) 0

/-- Reads a number below `bound` of at most `maxDigits` digits. -/
def readNumber (radix maxDigits : Nat) (allowZeroPrefix : Bool) (bound : Nat) (t : Text) : Option (Nat × Text) :=
  let digits := leadingDigits radix t
  if digits.length > maxDigits ∨ digits = [] then none
  else if !allowZeroPrefix ∧ digits.head? = some '0' ∧ digits.length > 1 then none
  else if digitsValue radix digits < bound then some (digitsValue radix digits, t.drop digits.length)
  else none

def readGivenChar (c : Char) : Text → Option Text
  | [] => none
  | d :: t => if d = c then some t else none

/-- Reads what stands behind a separator, or at the start. -/
def readSeparator {α : Type} (sep : Char) (index : Nat) (inner : Text → Option (α × Text)) (t : Text) :
    Option (α × Text) :=
  if 0 < index then (readGivenChar sep t).bind inner else inner t

end Text

open Text

namespace Ipv4Addr

def readAddr (t : Text) : Option (Ipv4Addr × Text) := do
  let octet := readNumber 10 3 false 256
  let (a, t) ← readSeparator '.' 0 octet t
  let (b, t) ← readSeparator '.' 1 octet t
  let (c, t) ← readSeparator '.' 2 octet t
  let (d, t) ← readSeparator '.' 3 octet t
  return (.new a b c d, t)

end Ipv4Addr

namespace Ipv6Addr

/-- Reads groups, `left` at most, until there is none. The last two may be an IPv4 address; then they end the
groups. -/
def readGroups : (left index : Nat) → Text → List Nat × Bool × Text
  | 0, _, t => ([], false, t)
  | left + 1, index, t =>
    match if 0 < left then readSeparator ':' index Ipv4Addr.readAddr t else none with
    | some (v4, t) => ([v4.octet 0 * 256 + v4.octet 1, v4.octet 2 * 256 + v4.octet 3], true, t)
    | none =>
      match readSeparator ':' index (readNumber 16 4 true 65536) t with
      | some (group, t) =>
        let (groups, ipv4, t) := readGroups left (index + 1) t
        (group :: groups, ipv4, t)
      | none => ([], false, t)

def readAddr (t : Text) : Option (Ipv6Addr × Text) :=
  let (head, headIpv4, t) := readGroups 8 0 t
  if head.length = 8 then some (.new head, t)
  -- an IPv4 part is not allowed before the gap
  else if headIpv4 then none
  else do
    let t ← readGivenChar ':' t
    let t ← readGivenChar ':' t
    -- the gap is at least one group
    let (tail, _, t) := readGroups (8 - (head.length + 1)) 0 t
    return (.new (head ++ List.replicate (8 - head.length - tail.length) 0 ++ tail), t)

end Ipv6Addr

/-- An address of either family, and nothing behind it. -/
def IpAddr.fromStr (t : Text) : Option IpAddr :=
  match (Ipv4Addr.readAddr t).map (Prod.map IpAddr.v4 id) <|> (Ipv6Addr.readAddr t).map (Prod.map IpAddr.v6 id) with
  | some (addr, []) => some addr
  | _ => none

/-! ## Numbers -/

namespace Text

/-- What follows a number: nothing, or what is no digit. -/
def Ends (radix : Nat) (rest : Text) : Prop := ∀ c, rest.head? = some c → toDigit radix c = none

theorem ends_nil (radix : Nat) : Ends radix [] := nofun

theorem ends_cons {radix : Nat} {c : Char} (h : toDigit radix c = none) (t : Text) : Ends radix (c :: t) :=
  fun _ hd => Option.some.inj hd ▸ h

theorem toDigit_digitChar {radix d : Nat} (hradix : radix ≤ 16) (hd : d < radix) :
    toDigit radix (Nat.digitChar d) = some d := by
  have hdigit : ∀ d < 16, hexDigit (Nat.digitChar d) = some d := by decide
  rw [toDigit, hdigit d (by omega), Option.filter_some, if_pos (by simpa using hd)]

theorem isSome_of_mem_toDigits {radix n : Nat} (h₁ : 1 < radix) (h₂ : radix ≤ 16) :
    ∀ c ∈ Nat.toDigits radix n, (toDigit radix c).isSome = true :=
  forall_mem_toDigits h₁ (fun d hd => by rw [toDigit_digitChar h₂ hd]; rfl) n

theorem takeWhile_append_of_ends {p : Char → Bool} {digits rest : Text} (hdigits : ∀ c ∈ digits, p c = true)
    (hrest : ∀ c, rest.head? = some c → p c = false) : (digits ++ rest).takeWhile p = digits := by
  rw [List.takeWhile_append_of_pos hdigits]
  cases rest with
  | nil => simp
  | cons c rest => rw [List.takeWhile_cons_of_neg (by rw [hrest c rfl]; decide), List.append_nil]

theorem leadingDigits_toDigits {radix : Nat} (h₁ : 1 < radix) (h₂ : radix ≤ 16) (n : Nat) {rest : Text}
    (hrest : Ends radix rest) : leadingDigits radix (Nat.toDigits radix n ++ rest) = Nat.toDigits radix n :=
  takeWhile_append_of_ends (isSome_of_mem_toDigits h₁ h₂) fun c hc => by rw [hrest c hc]; rfl

theorem digitsValue_toDigits {radix : Nat} (h₁ : 1 < radix) (h₂ : radix ≤ 16) (n : Nat) :
    digitsValue radix (Nat.toDigits radix n) = n := by
  induction n using Nat.strong_induction_on with
  | _ n ih =>
    rw [Nat.toDigits_eq_if h₁]
    split_ifs with hn
    · rw [digitsValue, List.foldl_cons, List.foldl_nil, toDigit_digitChar h₂ hn, Nat.mul_zero, Nat.zero_add]
      rfl
    · have hdiv := ih (n / radix) (Nat.div_lt_self (by omega) h₁)
      rw [digitsValue] at hdiv
      rw [digitsValue, List.foldl_append, hdiv, List.foldl_cons, List.foldl_nil,
        toDigit_digitChar h₂ (Nat.mod_lt n (by omega))]
      exact Nat.div_add_mod n radix

/-- Only zero begins with a zero. -/
theorem head?_toDigits {radix : Nat} (h₁ : 1 < radix) {n : Nat} (h : (Nat.toDigits radix n).head? = some '0') :
    n = 0 := by
  induction n using Nat.strong_induction_on with
  | _ n ih =>
    rw [Nat.toDigits_eq_if h₁] at h
    split_ifs at h with hn
    · exact Nat.digitChar_eq_zero.mp (Option.some.inj h)
    · rw [List.head?_append_of_ne_nil _ Nat.toDigits_ne_nil] at h
      have hzero := ih _ (Nat.div_lt_self (by omega) h₁) h
      have hpos := Nat.div_pos (Nat.le_of_not_lt hn) (by omega)
      omega

/-- **A number is read back from its digits.** -/
theorem readNumber_toDigits {radix maxDigits bound n : Nat} (h₁ : 1 < radix) (h₂ : radix ≤ 16)
    (hpos : 0 < maxDigits) (hdigits : n < radix ^ maxDigits) (hbound : n < bound) (allowZeroPrefix : Bool) {rest : Text}
    (hrest : Ends radix rest) :
    readNumber radix maxDigits allowZeroPrefix bound (Nat.toDigits radix n ++ rest) = some (n, rest) := by
  have hlen : (Nat.toDigits radix n).length ≤ maxDigits := Nat.toDigits_length radix n maxDigits hpos hdigits
  have hzero : ¬ (!allowZeroPrefix ∧ (Nat.toDigits radix n).head? = some '0' ∧ (Nat.toDigits radix n).length > 1) := by
    rintro ⟨-, hhead, hlong⟩
    rw [head?_toDigits h₁ hhead, Nat.toDigits_zero] at hlong
    cases Nat.lt_irrefl _ hlong
  unfold readNumber
  dsimp only
  rw [leadingDigits_toDigits h₁ h₂ n hrest, digitsValue_toDigits h₁ h₂, if_neg, if_neg hzero, if_pos hbound,
    List.drop_left]
  rintro (hlong | hnil)
  · omega
  · exact Nat.toDigits_ne_nil hnil

/-- Where no digit stands there is no number. -/
theorem readNumber_eq_none {radix : Nat} {t : Text} (h : Ends radix t) (maxDigits bound : Nat) (allow : Bool) :
    readNumber radix maxDigits allow bound t = none := by
  have hnil : leadingDigits radix t = [] := by
    cases t with
    | nil => rfl
    | cons c t => exact List.takeWhile_cons_of_neg (by rw [h c rfl]; decide)
  unfold readNumber
  dsimp only
  rw [hnil, if_pos (.inr rfl)]

/-- What is left behind a number is what is left behind its digits. -/
theorem readNumber_rest {radix maxDigits bound n : Nat} {allow : Bool} {t rest : Text}
    (h : readNumber radix maxDigits allow bound t = some (n, rest)) :
    rest = t.dropWhile fun c => (toDigit radix c).isSome := by
  unfold readNumber at h
  dsimp only at h
  split_ifs at h
  have hsplit : t = leadingDigits radix t ++ t.dropWhile fun c => (toDigit radix c).isSome :=
    List.takeWhile_append_dropWhile.symm
  rw [← (Prod.mk.inj (Option.some.inj h)).2]
  exact (congrArg (List.drop (leadingDigits radix t).length) hsplit).trans (List.drop_left' rfl)

theorem readGivenChar_cons (c : Char) (t : Text) : readGivenChar c (c :: t) = some t := if_pos rfl

theorem readGivenChar_eq_none {c : Char} {t : Text} (h : t.head? ≠ some c) : readGivenChar c t = none := by
  cases t with
  | nil => rfl
  | cons d t => exact if_neg fun hd => h (congrArg some hd)

end Text

/-! ## IPv4 -/

namespace Ipv4Addr

theorem new_octets (a : Ipv4Addr) : Ipv4Addr.new (a.octet 0) (a.octet 1) (a.octet 2) (a.octet 3) = a := by
  have hlt := a.isLt
  apply BitVec.eq_of_toNat_eq
  rw [Ipv4Addr.new, BitVec.toNat_ofNat]
  simp only [octet, Nat.reduceSub, Nat.reducePow] at hlt ⊢
  omega

theorem octet_lt (a : Ipv4Addr) (i : Nat) : a.octet i < 256 := Nat.mod_lt _ (by decide)

/-- **An address is read back from its text.** -/
theorem readAddr_toText (a : Ipv4Addr) {rest : Text} (h : Ends 10 rest) :
    readAddr (a.toText ++ rest) = some (a, rest) := by
  have hdot : ∀ t, Ends 10 ('.' :: t) := ends_cons (by decide)
  have hoctet : ∀ i t, Ends 10 t → readNumber 10 3 false 256 (Text.ofNat (a.octet i) ++ t) = some (a.octet i, t) :=
    fun i t ht => readNumber_toDigits (by decide) (by decide) (by decide)
      (Nat.lt_trans (a.octet_lt i) (by decide)) (a.octet_lt i) false ht
  have hsep : ∀ i t, 0 < i → Ends 10 t →
      readSeparator '.' i (readNumber 10 3 false 256) ('.' :: (Text.ofNat (a.octet i) ++ t)) = some (a.octet i, t) := by
    intro i t hi ht
    rw [readSeparator, if_pos hi, readGivenChar_cons]
    exact hoctet i t ht
  have hfirst : ∀ t, Ends 10 t →
      readSeparator '.' 0 (readNumber 10 3 false 256) (Text.ofNat (a.octet 0) ++ t) = some (a.octet 0, t) :=
    fun t ht => hoctet 0 t ht
  unfold readAddr toText
  simp only [List.append_assoc, List.cons_append, hfirst _ (hdot _), hsep 1 _ (by decide) (hdot _),
    hsep 2 _ (by decide) (hdot _), hsep 3 _ (by decide) h, Option.bind_eq_bind, Option.bind_some, new_octets]
  rfl

/-- A hexadecimal group is not the first octet of an address: there is no dot behind its decimal digits. -/
theorem readAddr_hexOfNat (n : Nat) {rest : Text} (h : Ends 10 rest) (hdot : rest.head? ≠ some '.') :
    readAddr (Text.hexOfNat n ++ rest) = none := by
  have hnodot : ((Text.hexOfNat n ++ rest).dropWhile fun c => (toDigit 10 c).isSome).head? ≠ some '.' := by
    rw [List.dropWhile_append]
    split
    case isTrue =>
      cases rest with
      | nil => exact nofun
      | cons c rest =>
        rw [List.dropWhile_cons_of_neg (by rw [h c rfl]; decide)]
        exact hdot
    case isFalse hne =>
      rw [List.isEmpty_iff] at hne
      rw [List.head?_append_of_ne_nil _ hne]
      intro hhead
      have hmem := (List.dropWhile_sublist _).subset (List.mem_of_head? hhead)
      exact (forall_mem_hexOfNat n '.' hmem).2.1 rfl
  unfold readAddr
  cases hfirst : readNumber 10 3 false 256 (Text.hexOfNat n ++ rest) with
  | none => simp [readSeparator, hfirst]
  | some first =>
    obtain ⟨a, t⟩ := first
    rw [← readNumber_rest hfirst] at hnodot
    simp [readSeparator, hfirst, readGivenChar_eq_none hnodot]

/-- Nor is a colon. -/
theorem readAddr_eq_none {t : Text} (h : Ends 10 t) : readAddr t = none := by
  unfold readAddr
  simp [readSeparator, readNumber_eq_none h]

end Ipv4Addr

/-! ## IPv6 -/

namespace Ipv6Addr

/-- The separator in front of a group. -/
def separator (index : Nat) : Text := if 0 < index then [':'] else []

theorem readSeparator_separator {α : Type} (index : Nat) (inner : Text → Option (α × Text)) (t : Text) :
    readSeparator ':' index inner (separator index ++ t) = inner t := by
  unfold readSeparator separator
  split_ifs
  · rw [List.singleton_append, readGivenChar_cons, Option.bind_some]
  · rw [List.nil_append]

/-- What may stand behind a group. -/
def EndsGroup (rest : Text) : Prop := rest = [] ∨ rest.head? = some ':'

theorem EndsGroup.ends {rest : Text} (h : EndsGroup rest) :
    Ends 16 rest ∧ Ends 10 rest ∧ rest.head? ≠ some '.' := by
  rcases h with rfl | hcolon
  · exact ⟨ends_nil 16, ends_nil 10, nofun⟩
  · cases rest with
    | nil => cases hcolon
    | cons c rest =>
      cases Option.some.inj hcolon
      exact ⟨ends_cons (by decide) rest, ends_cons (by decide) rest, by rw [hcolon]; decide⟩

/-- One group is read, if there is room for it. -/
theorem readGroups_group {left index g : Nat} (hg : g < 65536) {rest : Text} (hrest : EndsGroup rest) :
    readGroups (left + 1) index (separator index ++ (Text.hexOfNat g ++ rest)) =
      (g :: (readGroups left (index + 1) rest).1, (readGroups left (index + 1) rest).2) := by
  obtain ⟨h16, h10, hdot⟩ := hrest.ends
  have hnumber : readNumber 16 4 true 65536 (Text.hexOfNat g ++ rest) = some (g, rest) :=
    readNumber_toDigits (by decide) (by decide) (by decide) hg hg true h16
  rw [readGroups, readSeparator_separator, readSeparator_separator, Ipv4Addr.readAddr_hexOfNat g h10 hdot, ite_self,
    hnumber]

/-- The text of groups behind a group. -/
def moreGroups (gs : List Nat) : Text := gs.flatMap fun g => ':' :: Text.hexOfNat g

theorem joinGroups_cons (g : Nat) (gs : List Nat) : joinGroups (g :: gs) = Text.hexOfNat g ++ moreGroups gs := by
  induction gs generalizing g with
  | nil => rfl
  | cons g' gs ih =>
    have hnext : joinGroups (g :: g' :: gs) = Text.hexOfNat g ++ [':'] ++ joinGroups (g' :: gs) :=
      List.intercalate_cons_cons
    rw [hnext, ih, moreGroups, moreGroups, List.flatMap_cons, List.append_assoc]
    rfl

theorem endsGroup_moreGroups (gs : List Nat) {rest : Text} (h : EndsGroup rest) :
    EndsGroup (moreGroups gs ++ rest) := by
  cases gs with
  | nil => exact h
  | cons g gs => exact .inr rfl

/-- **Groups are read one after the other**, and then what stands behind them. -/
theorem readGroups_moreGroups {gs : List Nat} {left index : Nat} (hgs : ∀ g ∈ gs, g < 65536) (hlen : gs.length ≤ left)
    (hindex : 0 < index) {rest : Text} (hrest : EndsGroup rest) :
    readGroups left index (moreGroups gs ++ rest) =
      (gs ++ (readGroups (left - gs.length) (index + gs.length) rest).1,
        (readGroups (left - gs.length) (index + gs.length) rest).2) := by
  induction gs generalizing left index with
  | nil => rfl
  | cons g gs ih =>
    obtain ⟨hg, hgs⟩ := List.forall_mem_cons.mp hgs
    rw [List.length_cons] at hlen ⊢
    obtain ⟨room, rfl⟩ := Nat.exists_eq_add_of_le' (Nat.lt_of_lt_of_le (Nat.succ_pos _) hlen)
    have hgroup := @readGroups_group room index g hg _ (endsGroup_moreGroups gs hrest)
    rw [separator, if_pos hindex] at hgroup
    rw [moreGroups, List.flatMap_cons, List.append_assoc, List.cons_append]
    refine hgroup.trans ?_
    rw [ih hgs (by omega) (Nat.succ_pos index), show room + 1 - (gs.length + 1) = room - gs.length by omega,
      show index + (gs.length + 1) = index + 1 + gs.length by omega]
    rfl

theorem readGroups_joinGroups {gs : List Nat} {left : Nat} (hgs : ∀ g ∈ gs, g < 65536) (hlen : gs.length ≤ left)
    {rest : Text} (hrest : EndsGroup rest) :
    readGroups left 0 (joinGroups gs ++ rest) =
      (gs ++ (readGroups (left - gs.length) gs.length rest).1, (readGroups (left - gs.length) gs.length rest).2) := by
  cases gs with
  | nil => rfl
  | cons g gs =>
    obtain ⟨hg, hgs⟩ := List.forall_mem_cons.mp hgs
    rw [List.length_cons] at hlen ⊢
    obtain ⟨room, rfl⟩ := Nat.exists_eq_add_of_le' (Nat.lt_of_lt_of_le (Nat.succ_pos _) hlen)
    rw [joinGroups_cons, List.append_assoc]
    refine (@readGroups_group room 0 g hg _ (endsGroup_moreGroups gs hrest)).trans ?_
    rw [readGroups_moreGroups hgs (by omega) (by decide) hrest,
      show room + 1 - (gs.length + 1) = room - gs.length by omega, Nat.zero_add, Nat.add_comm 1]
    rfl

/-- The groups end with the text. -/
theorem readGroups_nil (left index : Nat) : readGroups left index [] = ([], false, []) := by
  cases left with
  | zero => rfl
  | succ left =>
    have hnone : ∀ {α : Type} (inner : Text → Option (α × Text)), inner [] = none →
        readSeparator ':' index inner [] = none := by
      intro α inner h
      unfold readSeparator
      split_ifs
      · rfl
      · exact h
    rw [readGroups, hnone _ (Ipv4Addr.readAddr_eq_none (ends_nil 10)), ite_self,
      hnone _ (readNumber_eq_none (ends_nil 16) 4 65536 true)]

/-- The groups end at a gap. -/
theorem readGroups_gap (left index : Nat) (t : Text) :
    readGroups left index (':' :: ':' :: t) = ([], false, ':' :: ':' :: t) := by
  cases left with
  | zero => rfl
  | succ left =>
    have hnone : ∀ {α : Type} (inner : Text → Option (α × Text)), (∀ t, inner (':' :: t) = none) →
        readSeparator ':' index inner (':' :: ':' :: t) = none := by
      intro α inner h
      unfold readSeparator
      split_ifs
      · rw [readGivenChar_cons]
        exact h t
      · exact h _
    rw [readGroups, hnone _ fun t => Ipv4Addr.readAddr_eq_none (ends_cons (by decide) t), ite_self,
      hnone _ fun t => readNumber_eq_none (ends_cons (by decide) t) 4 65536 true]

/-- The two groups an IPv4 address takes. -/
def ipv4Groups (v4 : Ipv4Addr) : List Nat := [v4.octet 0 * 256 + v4.octet 1, v4.octet 2 * 256 + v4.octet 3]

theorem readGroups_ipv4 (left index : Nat) (v4 : Ipv4Addr) :
    readGroups (left + 2) index (separator index ++ v4.toText) = (ipv4Groups v4, true, []) := by
  have hread := v4.readAddr_toText (ends_nil 10)
  rw [List.append_nil] at hread
  rw [readGroups, if_pos (Nat.succ_pos left), readSeparator_separator, hread]
  rfl

/-! ### Whole addresses -/

theorem segment_lt (a : Ipv6Addr) : ∀ g ∈ a.segments, g < 65536 := by
  intro g hg
  obtain ⟨i, -, rfl⟩ := List.mem_map.mp hg
  exact Nat.mod_lt _ (by decide)

/-- An address is made of its groups. -/
theorem new_segments (a : Ipv6Addr) : Ipv6Addr.new a.segments = a := by
  have hlt := a.isLt
  have hstep : ∀ k, a.toNat / 65536 ^ (k + 1) * 65536 + a.toNat / 65536 ^ k % 65536 = a.toNat / 65536 ^ k := by
    intro k
    rw [Nat.pow_succ, ← Nat.div_div_eq_div_mul, Nat.mul_comm]
    exact Nat.div_add_mod _ _
  have hfirst : a.toNat / 65536 ^ 7 % 65536 = a.toNat / 65536 ^ 7 := Nat.mod_eq_of_lt (by omega)
  apply BitVec.eq_of_toNat_eq
  rw [Ipv6Addr.new, BitVec.toNat_ofNat]
  simp only [segments, segment, List.range, List.range.loop, List.map_cons, List.map_nil, List.foldl_cons,
    List.foldl_nil]
  rw [Nat.zero_mul, Nat.zero_add, hfirst, hstep 6, hstep 5, hstep 4, hstep 3, hstep 2, hstep 1, hstep 0, Nat.pow_zero,
    Nat.div_one]
  exact Nat.mod_eq_of_lt hlt

theorem readAddr_full {gs : List Nat} (hgs : ∀ g ∈ gs, g < 65536) (hlen : gs.length = 8) :
    readAddr (joinGroups gs) = some (.new gs, []) := by
  have hread := readGroups_joinGroups hgs (Nat.le_of_eq hlen) (.inl rfl)
  rw [List.append_nil, readGroups_nil, List.append_nil] at hread
  unfold readAddr
  rw [hread]
  exact if_pos hlen

/-- Behind a gap the rest of the address is read. -/
theorem readAddr_gap {head tail : List Nat} (hhead : ∀ g ∈ head, g < 65536) (hroom : head.length < 8) {t : Text}
    {ipv4 : Bool} (ht : readGroups (8 - (head.length + 1)) 0 t = (tail, ipv4, [])) :
    readAddr (joinGroups head ++ ':' :: ':' :: t) =
      some (.new (head ++ List.replicate (8 - head.length - tail.length) 0 ++ tail), []) := by
  have hread := @readGroups_joinGroups head 8 hhead (Nat.le_of_lt hroom) (':' :: ':' :: t) (.inr rfl)
  rw [readGroups_gap, List.append_nil] at hread
  unfold readAddr
  rw [hread]
  dsimp only
  rw [if_neg (Nat.ne_of_lt hroom), if_neg Bool.false_ne_true, readGivenChar_cons, Option.bind_eq_bind, Option.bind_some,
    readGivenChar_cons, Option.bind_some, ht]
  rfl

/-- The text does not start like an IPv4 address. -/
theorem ipv4_readAddr_eq_none (gs : List Nat) {rest : Text} (h : EndsGroup rest) :
    Ipv4Addr.readAddr (joinGroups gs ++ rest) = none := by
  cases gs with
  | nil => exact Ipv4Addr.readAddr_eq_none h.ends.2.1
  | cons g gs =>
    obtain ⟨-, h10, hdot⟩ := (endsGroup_moreGroups gs h).ends
    rw [joinGroups_cons, List.append_assoc]
    exact Ipv4Addr.readAddr_hexOfNat g h10 hdot

/-- The last two groups, where the others are zero but for the one before them. -/
theorem new_ipv4Groups {a : Ipv6Addr} {g : Nat} (h : a.toNat / 2 ^ 32 = g) :
    Ipv6Addr.new (List.replicate 5 0 ++ g :: ipv4Groups (BitVec.ofNat 32 a.toNat)) = a := by
  have hlt := a.isLt
  have hlow := (BitVec.ofNat 32 a.toNat : Ipv4Addr).isLt
  apply BitVec.eq_of_toNat_eq
  rw [Ipv6Addr.new, BitVec.toNat_ofNat]
  simp only [ipv4Groups, Ipv4Addr.octet, BitVec.toNat_ofNat, List.replicate, List.cons_append, List.nil_append,
    List.foldl_cons, List.foldl_nil, Nat.reduceSub, Nat.reducePow] at h hlow ⊢
  omega

theorem readAddr_compatible (v4 : Ipv4Addr) :
    readAddr (("::" : Text) ++ v4.toText) = some (.new (List.replicate 5 0 ++ 0 :: ipv4Groups v4), []) :=
  @readAddr_gap [] _ nofun (by decide) _ _ (readGroups_ipv4 5 0 v4)

theorem readAddr_mapped (v4 : Ipv4Addr) :
    readAddr (("::ffff:" : Text) ++ v4.toText) = some (.new (List.replicate 5 0 ++ 0xffff :: ipv4Groups v4), []) := by
  have htail := @readGroups_joinGroups [0xffff] 7 (by decide) (by decide) (':' :: v4.toText) (.inr rfl)
  have hipv4 : readGroups (7 - [0xffff].length) [0xffff].length (':' :: v4.toText) = (ipv4Groups v4, true, []) :=
    readGroups_ipv4 4 1 v4
  rw [hipv4] at htail
  exact @readAddr_gap [] _ nofun (by decide) _ _ htail

/-- **An address is read back from its text**, which is not that of an IPv4 address. -/
theorem readAddr_toText (a : Ipv6Addr) : Ipv4Addr.readAddr a.toText = none ∧ readAddr a.toText = some (a, []) := by
  rcases toText_cases a with ⟨hmapped, ht⟩ | ⟨left, zeros, right, hzeros, hsegs, ht⟩ | ht
  · rw [ht]
    refine ⟨ipv4_readAddr_eq_none [] (.inr rfl), (readAddr_mapped _).trans ?_⟩
    rw [new_ipv4Groups hmapped]
  · have hlt := segment_lt a
    have hlen := length_segments a
    rw [hsegs] at hlt hlen
    simp only [List.length_append, List.length_replicate] at hlen
    have hleft : ∀ g ∈ left, g < 65536 := fun g hg =>
      hlt g (List.mem_append_left _ (List.mem_append_left _ hg))
    have hright : ∀ g ∈ right, g < 65536 := fun g hg => hlt g (List.mem_append_right _ hg)
    have htail := @readGroups_joinGroups right (8 - (left.length + 1)) hright (by omega) [] (.inl rfl)
    rw [readGroups_nil, List.append_nil, List.append_nil] at htail
    have hread := readAddr_gap hleft (by omega) htail
    rw [show 8 - left.length - right.length = zeros by omega, ← hsegs, new_segments] at hread
    rw [ht]
    exact ⟨ipv4_readAddr_eq_none left (.inr rfl), hread⟩
  · have hread := readAddr_full (segment_lt a) (length_segments a)
    have hnone := ipv4_readAddr_eq_none a.segments (.inl rfl)
    rw [new_segments] at hread
    rw [List.append_nil] at hnone
    rw [ht]
    exact ⟨hnone, hread⟩

end Ipv6Addr

namespace IpAddr

theorem fromStr_v6 {t : Text} {a : Ipv6Addr} (hnot : Ipv4Addr.readAddr t = none)
    (hread : Ipv6Addr.readAddr t = some (a, [])) : fromStr t = some (.v6 a) := by
  unfold fromStr
  rw [hnot, hread]
  rfl

/-- **Each address is read back from its text.** -/
theorem fromStr_toText (a : IpAddr) : fromStr a.toText = some a := by
  cases a with
  | v4 a =>
    have hread := a.readAddr_toText (ends_nil 10)
    rw [List.append_nil] at hread
    unfold fromStr
    rw [show (IpAddr.v4 a).toText = a.toText from rfl, hread]
    rfl
  | v6 a => exact fromStr_v6 a.readAddr_toText.1 a.readAddr_toText.2

/-- The last two groups may be dotted where all others are zero. -/
theorem fromStr_compatible {a : Ipv6Addr} (h : a.toNat / 2 ^ 32 = 0) :
    fromStr (("::" : Text) ++ Ipv4Addr.toText (BitVec.ofNat 32 a.toNat)) = some (.v6 a) := by
  refine fromStr_v6 (Ipv6Addr.ipv4_readAddr_eq_none [] (.inr rfl)) ((Ipv6Addr.readAddr_compatible _).trans ?_)
  rw [Ipv6Addr.new_ipv4Groups h]

end IpAddr

end Idnx
