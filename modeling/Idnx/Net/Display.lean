import Idnx.Net.Address

/-!
# What an address prints

The text of an address or of a prefix tells which one it is (`IpAddr.toText_inj`, `IpNet.toText_inj`): the groups of
an IPv6 address can be read off its text, also when a run of zeros has been left out of it. And it holds no other
characters than hexadecimal digits, `.`, `:` and `/`.
-/

namespace Idnx

/-- A number is determined by its digits. -/
theorem eq_of_digits {base k a b : Nat} (ha : a < base ^ k) (hb : b < base ^ k)
    (h : ∀ i < k, a / base ^ i % base = b / base ^ i % base) : a = b := by
  induction k generalizing a b with
  | zero =>
    rw [Nat.pow_zero] at ha hb
    omega
  | succ k ih =>
    rw [Nat.pow_succ] at ha hb
    have hdiv : a / base = b / base := by
      refine ih (Nat.div_lt_of_lt_mul (by rwa [Nat.mul_comm])) (Nat.div_lt_of_lt_mul (by rwa [Nat.mul_comm])) ?_
      intro i hi
      have hnext := h (i + 1) (by omega)
      rwa [Nat.pow_succ', ← Nat.div_div_eq_div_mul, ← Nat.div_div_eq_div_mul] at hnext
    have hmod : a % base = b % base := by simpa using h 0 (by omega)
    rw [← Nat.div_add_mod a base, ← Nat.div_add_mod b base, hdiv, hmod]

namespace Text

/-- What holds of the digits of a base holds of every character of a number. -/
theorem forall_mem_toDigits {P : Char → Prop} {base : Nat} (hbase : 1 < base) (h : ∀ d < base, P (Nat.digitChar d))
    (n : Nat) : ∀ c ∈ Nat.toDigits base n, P c := by
  induction n using Nat.strong_induction_on with
  | _ n ih =>
    rw [Nat.toDigits_eq_if hbase]
    split_ifs with hn
    · simpa using h n hn
    · intro c hc
      rcases List.mem_append.mp hc with hc | hc
      · exact ih _ (Nat.div_lt_self (by omega) hbase) c hc
      · rw [List.mem_singleton.mp hc]
        exact h _ (Nat.mod_lt _ (by omega))

theorem hexOfNat_inj {m n : Nat} (h : hexOfNat m = hexOfNat n) : m = n := by
  have hdigit : ∀ a < 16, ∀ b < 16, Nat.digitChar a = Nat.digitChar b → a = b := by decide
  unfold hexOfNat at h
  induction m using Nat.strong_induction_on generalizing n with
  | _ m ih =>
    rw [Nat.toDigits_eq_if (n := m) (by decide), Nat.toDigits_eq_if (n := n) (by decide)] at h
    split_ifs at h with hm hn hn
    · exact hdigit m hm n hn (List.singleton_inj.mp h)
    · have hlen := congrArg List.length h
      simp at hlen
    · have hlen := congrArg List.length h
      simp at hlen
    · obtain ⟨hhigh, hlow⟩ := List.append_inj' h rfl
      have hdiv := ih (m / 16) (by omega) hhigh
      have hmod := hdigit _ (Nat.mod_lt _ (by decide)) _ (Nat.mod_lt _ (by decide)) (List.singleton_inj.mp hlow)
      omega

end Text

/-- The characters an address is written in. -/
def addressChars : List Char := "0123456789abcdef.:".toList

theorem mem_addressChars_of_digit : ∀ d < 16, Nat.digitChar d ∈ addressChars ∧ Nat.digitChar d ≠ '.' ∧
    Nat.digitChar d ≠ ':' := by
  decide

theorem forall_mem_hexOfNat (n : Nat) : ∀ c ∈ Text.hexOfNat n, c ∈ addressChars ∧ c ≠ '.' ∧ c ≠ ':' :=
  Text.forall_mem_toDigits (P := fun c => c ∈ addressChars ∧ c ≠ '.' ∧ c ≠ ':') (by decide)
    mem_addressChars_of_digit n

theorem forall_mem_ofNat (n : Nat) : ∀ c ∈ Text.ofNat n, c ∈ addressChars ∧ c ≠ '.' ∧ c ≠ ':' :=
  Text.forall_mem_toDigits (P := fun c => c ∈ addressChars ∧ c ≠ '.' ∧ c ≠ ':') (by decide)
    (fun d hd => mem_addressChars_of_digit d (by omega)) n

namespace Ipv4Addr

variable {a b : Ipv4Addr}

theorem toText_inj (h : a.toText = b.toText) : a = b := by
  have hdot : ∀ n, '.' ∉ Text.ofNat n := fun n hmem => (forall_mem_ofNat n _ hmem).2.1 rfl
  -- the octets are cut off at the dots, one after the other
  have hcut : ∀ {m n : Nat} {t u : Text}, Text.ofNat m ++ '.' :: t = Text.ofNat n ++ '.' :: u → m = n ∧ t = u := by
    intro m n t u he
    have hsplit := congrArg (Text.splitOnce '.') he
    rw [Text.splitOnce_append (hdot m), Text.splitOnce_append (hdot n), Option.some.injEq, Prod.mk.injEq] at hsplit
    exact ⟨Text.ofNat_inj hsplit.1, hsplit.2⟩
  simp only [toText, List.append_assoc, List.cons_append] at h
  obtain ⟨h0, h⟩ := hcut h
  obtain ⟨h1, h⟩ := hcut h
  obtain ⟨h2, h⟩ := hcut h
  have h3 := Text.ofNat_inj h
  apply BitVec.eq_of_toNat_eq
  refine @eq_of_digits 256 4 _ _ a.isLt b.isLt fun i hi => ?_
  match i, hi with
  | 0, _ => exact h3
  | 1, _ => exact h2
  | 2, _ => exact h1
  | 3, _ => exact h0

theorem forall_mem_toText (a : Ipv4Addr) : ∀ c ∈ a.toText, c ∈ addressChars ∧ c ≠ ':' := by
  have hoct : ∀ n, ∀ c ∈ Text.ofNat n, c ∈ addressChars ∧ c ≠ ':' :=
    fun n c hc => ⟨(forall_mem_ofNat n c hc).1, (forall_mem_ofNat n c hc).2.2⟩
  have hdot : '.' ∈ addressChars ∧ '.' ≠ ':' := by decide
  simp only [toText, List.forall_mem_append, List.forall_mem_cons]
  exact ⟨⟨⟨hoct _, hdot, hoct _⟩, hdot, hoct _⟩, hdot, hoct _⟩

end Ipv4Addr

namespace Ipv6Addr

variable {a b : Ipv6Addr}

theorem segments_inj (h : a.segments = b.segments) : a = b := by
  have hseg : ∀ i < 8, segment a i = segment b i := by
    intro i hi
    have hget := congrArg (fun gs : List Nat => gs.getD i 0) h
    simpa [segments, hi] using hget
  apply BitVec.eq_of_toNat_eq
  refine @eq_of_digits 65536 8 _ _ a.isLt b.isLt fun i hi => ?_
  have hi' := hseg (7 - i) (by omega)
  rwa [segment, segment, show 7 - (7 - i) = i by omega] at hi'

/-! ## The run of zeros that is left out -/

/-- The groups from `run.1` on, `run.2` of them, are zero. -/
def ZeroRun (gs : List Nat) (run : Nat × Nat) : Prop :=
  ∃ left right, gs = left ++ List.replicate run.2 0 ++ right ∧ left.length = run.1

theorem ZeroRun.append {gs : List Nat} {run : Nat × Nat} (h : ZeroRun gs run) (more : List Nat) :
    ZeroRun (gs ++ more) run := by
  obtain ⟨left, right, rfl, hlen⟩ := h
  exact ⟨left, right ++ more, by simp, hlen⟩

/-- What `zeroRun` finds is a run of zeros: so is the best one so far, and the current one, which ends where
it looks. -/
theorem zeroRun_spec (gs pre : List Nat) (cur best : Nat × Nat)
    (hcur : cur.2 = 0 ∨ ∃ left, pre = left ++ List.replicate cur.2 0 ∧ left.length = cur.1)
    (hbest : ZeroRun pre best) :
    ZeroRun (pre ++ gs) (zeroRun gs pre.length cur best) := by
  induction gs generalizing pre cur best with
  | nil => simpa [zeroRun] using hbest
  | cons g gs ih =>
    have hnext : pre ++ g :: gs = (pre ++ [g]) ++ gs := by simp
    have hlen : pre.length + 1 = (pre ++ [g]).length := by simp
    rw [zeroRun, hnext, hlen]
    by_cases hg : g = 0
    · subst hg
      rw [if_pos rfl]
      -- the current run, one zero longer or just begun
      have hgrown : ∃ left, pre ++ [0] =
          left ++ List.replicate (if cur.2 = 0 then (pre.length, 1) else (cur.1, cur.2 + 1)).2 0 ∧
            left.length = (if cur.2 = 0 then (pre.length, 1) else (cur.1, cur.2 + 1)).1 := by
        split_ifs with hstart
        · exact ⟨pre, rfl, rfl⟩
        · obtain ⟨left, rfl, hleft⟩ := hcur.resolve_left hstart
          exact ⟨left, by rw [List.append_assoc, ← List.replicate_succ'], hleft⟩
      generalize (if cur.2 = 0 then (pre.length, 1) else (cur.1, cur.2 + 1)) = grown at hgrown ⊢
      refine ih _ _ _ (.inr hgrown) ?_
      split_ifs
      · obtain ⟨left, heq, hleft⟩ := hgrown
        exact ⟨left, [], by simpa using heq, hleft⟩
      · exact hbest.append _
    · rw [if_neg hg]
      exact ih _ _ _ (.inl rfl) (hbest.append _)

/-! ## Reading the groups off the text -/

theorem colon_not_mem_hexOfNat (n : Nat) : ':' ∉ Text.hexOfNat n := fun h => (forall_mem_hexOfNat n _ h).2.2 rfl

theorem split_joinGroups {gs : List Nat} (h : gs ≠ []) : Text.split ':' (joinGroups gs) = gs.map Text.hexOfNat := by
  refine List.splitOn_intercalate ':' ?_ (by simpa using h)
  simp only [List.mem_map]
  rintro _ ⟨n, -, rfl⟩
  exact colon_not_mem_hexOfNat n

/-- The pieces before the first empty one are the groups on the left of the gap. -/
theorem takeWhile_split_joinGroups (gs : List Nat) (rest : List Text) :
    (Text.split ':' (joinGroups gs) ++ [] :: rest).takeWhile (· ≠ []) = gs.map Text.hexOfNat := by
  by_cases h : gs = []
  · subst h
    rfl
  · rw [split_joinGroups h, List.takeWhile_append_of_pos]
    · simp
    · simp only [List.mem_map]
      rintro _ ⟨n, -, rfl⟩
      simp [Text.hexOfNat]

/-- The three ways an address is written. -/
theorem toText_cases (a : Ipv6Addr) :
    (a.toNat / 2 ^ 32 = 0xffff ∧ a.toText = "::ffff:".toList ++ Ipv4Addr.toText (BitVec.ofNat 32 a.toNat)) ∨
      (∃ left zeros right, 1 < zeros ∧ a.segments = left ++ List.replicate zeros 0 ++ right ∧
        a.toText = joinGroups left ++ ':' :: ':' :: joinGroups right) ∨
      a.toText = joinGroups a.segments := by
  unfold toText
  dsimp only
  split_ifs with hmapped hrun
  · left
    refine ⟨?_, rfl⟩
    simp only [segments, segment, List.range, List.range.loop, List.map_cons, List.map_nil, List.take_succ_cons,
      List.take_zero, List.cons.injEq, and_true, List.getD_cons_succ, List.getD_cons_zero, Nat.reduceSub,
      Nat.reducePow]
      at hmapped
    have hlt := a.isLt
    omega
  · right; left
    have hspec := zeroRun_spec a.segments [] (0, 0) (0, 0) (.inl rfl) ⟨[], [], rfl, rfl⟩
    obtain ⟨left, right, heq, hlen⟩ := hspec
    rw [List.length_nil, List.nil_append] at heq
    rw [List.length_nil] at hlen
    generalize zeroRun a.segments 0 (0, 0) (0, 0) = run at hrun heq hlen ⊢
    refine ⟨left, run.2, right, hrun, heq, ?_⟩
    have htake : a.segments.take run.1 = left := by
      rw [heq, List.append_assoc]
      exact List.take_left' hlen
    have hdrop : a.segments.drop (run.1 + run.2) = right := by
      rw [heq]
      exact List.drop_left' (by simpa using hlen)
    rw [htake, hdrop, List.append_assoc]
    rfl
  · exact .inr (.inr rfl)

theorem forall_mem_joinGroups (gs : List Nat) : ∀ c ∈ joinGroups gs, c ∈ addressChars ∧ c ≠ '.' := by
  intro c hc
  rcases Text.mem_split ':' hc with rfl | ⟨piece, hpiece, hmem⟩
  · decide
  · by_cases h : gs = []
    · subst h
      cases hc
    · rw [split_joinGroups h] at hpiece
      obtain ⟨n, -, rfl⟩ := List.mem_map.mp hpiece
      exact ⟨(forall_mem_hexOfNat n c hmem).1, (forall_mem_hexOfNat n c hmem).2.1⟩

theorem joinGroups_inj {gs hs : List Nat} (h : joinGroups gs = joinGroups hs) : gs = hs := by
  have hpieces := congrArg (fun t => (Text.split ':' t ++ [[]]).takeWhile (· ≠ [])) h
  rw [takeWhile_split_joinGroups, takeWhile_split_joinGroups] at hpieces
  exact List.map_injective_iff.mpr (fun _ _ => Text.hexOfNat_inj) hpieces

theorem split_gap (left right : List Nat) : Text.split ':' (joinGroups left ++ ':' :: ':' :: joinGroups right) =
    Text.split ':' (joinGroups left) ++ [] :: Text.split ':' (joinGroups right) := by
  unfold Text.split
  rw [List.splitOn_append_cons_self, List.splitOn_cons_eq_if_modifyHead, if_pos (beq_self_eq_true _)]

/-- The text of an address with a gap tells the groups on either side of it. -/
theorem gap_inj {left right left' right' : List Nat}
    (h : joinGroups left ++ ':' :: ':' :: joinGroups right = joinGroups left' ++ ':' :: ':' :: joinGroups right') :
    left = left' ∧ right = right' := by
  have hsplit := congrArg (Text.split ':') h
  rw [split_gap, split_gap] at hsplit
  have hbefore := congrArg (List.takeWhile (· ≠ [])) hsplit
  rw [takeWhile_split_joinGroups, takeWhile_split_joinGroups] at hbefore
  have hleft : left = left' := List.map_injective_iff.mpr (fun _ _ => Text.hexOfNat_inj) hbefore
  subst hleft
  have hafter : joinGroups right = joinGroups right' := by simpa using h
  exact ⟨rfl, joinGroups_inj hafter⟩

/-- An address with a gap is not written like one with all its groups. -/
theorem gap_ne_joinGroups (left right : List Nat) {gs : List Nat} (hgs : gs ≠ []) :
    joinGroups left ++ ':' :: ':' :: joinGroups right ≠ joinGroups gs := by
  intro h
  have hsplit := congrArg (Text.split ':') h
  rw [split_gap, split_joinGroups hgs] at hsplit
  have hempty : ([] : Text) ∈ gs.map Text.hexOfNat := hsplit ▸ List.mem_append_right _ List.mem_cons_self
  obtain ⟨n, -, hn⟩ := List.mem_map.mp hempty
  exact Nat.toDigits_ne_nil hn

theorem length_segments (a : Ipv6Addr) : a.segments.length = 8 := by simp [segments]

theorem dot_mem_mapped (a : Ipv4Addr) : '.' ∈ "::ffff:".toList ++ a.toText := by
  simp [Ipv4Addr.toText]

theorem toText_inj (h : a.toText = b.toText) : a = b := by
  have hjoined : ∀ gs, '.' ∉ joinGroups gs := fun gs hmem => (forall_mem_joinGroups gs _ hmem).2 rfl
  have hgap : ∀ left right, '.' ∉ joinGroups left ++ ':' :: ':' :: joinGroups right := by
    intro left right hmem
    simp only [List.mem_append, List.mem_cons, hjoined, or_false, false_or] at hmem
    revert hmem
    decide
  have hsegs : ∀ c : Ipv6Addr, c.segments ≠ [] := fun c hnil => by simpa [hnil] using length_segments c
  rcases toText_cases a with ⟨ha, hta⟩ | ⟨la, za, ra, -, ha, hta⟩ | hta <;>
    rcases toText_cases b with ⟨hb, htb⟩ | ⟨lb, zb, rb, -, hb, htb⟩ | htb <;> rw [hta, htb] at h
  · have hlow := Ipv4Addr.toText_inj (List.append_cancel_left h)
    have hmod := congrArg BitVec.toNat hlow
    simp only [BitVec.toNat_ofNat] at hmod
    exact BitVec.eq_of_toNat_eq (by omega)
  · exact absurd (h ▸ dot_mem_mapped _) (hgap _ _)
  · exact absurd (h ▸ dot_mem_mapped _) (hjoined _)
  · exact absurd (h ▸ dot_mem_mapped _) (hgap _ _)
  · obtain ⟨rfl, rfl⟩ := gap_inj h
    -- the zeros left out are what is missing to eight groups
    have hlen := (length_segments a).trans (length_segments b).symm
    rw [ha, hb] at hlen
    simp only [List.length_append, List.length_replicate] at hlen
    have hzeros : za = zb := by omega
    exact segments_inj (by rw [ha, hb, hzeros])
  · exact absurd h (gap_ne_joinGroups _ _ (hsegs b))
  · exact absurd (h ▸ dot_mem_mapped _) (hjoined _)
  · exact absurd h.symm (gap_ne_joinGroups _ _ (hsegs a))
  · exact segments_inj (joinGroups_inj h)

theorem forall_mem_toText (a : Ipv6Addr) : ∀ c ∈ a.toText, c ∈ addressChars := by
  have hcolon : ':' ∈ addressChars := by decide
  rcases toText_cases a with ⟨-, ht⟩ | ⟨left, -, right, -, -, ht⟩ | ht <;> rw [ht]
  · rw [List.forall_mem_append]
    exact ⟨by decide, fun c hc => (Ipv4Addr.forall_mem_toText _ c hc).1⟩
  · simp only [List.forall_mem_append, List.forall_mem_cons]
    exact ⟨fun c hc => (forall_mem_joinGroups _ c hc).1, hcolon, hcolon, fun c hc => (forall_mem_joinGroups _ c hc).1⟩
  · exact fun c hc => (forall_mem_joinGroups _ c hc).1

theorem colon_mem_toText (a : Ipv6Addr) : ':' ∈ a.toText := by
  rcases toText_cases a with ⟨-, ht⟩ | ⟨left, -, right, -, -, ht⟩ | ht <;> rw [ht]
  · exact List.mem_append_left _ (by decide)
  · exact List.mem_append_right _ List.mem_cons_self
  · by_contra hno
    have hne : a.segments ≠ [] := fun hnil => by simpa [hnil] using length_segments a
    have hlen := congrArg List.length (split_joinGroups hne)
    rw [Text.split, List.splitOn_eq_singleton hno, List.length_map, length_segments] at hlen
    cases hlen

end Ipv6Addr

/-- **The text of an address tells which address it is.** -/
theorem IpAddr.toText_inj {a b : IpAddr} (h : a.toText = b.toText) : a = b := by
  cases a with
  | v4 a =>
    cases b with
    | v4 b => rw [Ipv4Addr.toText_inj h]
    | v6 b =>
      have hcolon : ':' ∈ a.toText := by rw [show a.toText = b.toText from h]; exact b.colon_mem_toText
      exact absurd rfl (a.forall_mem_toText ':' hcolon).2
  | v6 a =>
    cases b with
    | v4 b =>
      have hcolon : ':' ∈ b.toText := by rw [← show a.toText = b.toText from h]; exact a.colon_mem_toText
      exact absurd rfl (b.forall_mem_toText ':' hcolon).2
    | v6 b => rw [Ipv6Addr.toText_inj h]

theorem IpAddr.forall_mem_toText (a : IpAddr) : ∀ c ∈ a.toText, c ∈ addressChars := by
  cases a with
  | v4 a => exact fun c hc => (a.forall_mem_toText c hc).1
  | v6 a => exact a.forall_mem_toText

theorem IpAddr.not_mem_toText {c : Char} (hc : c ∉ addressChars) (a : IpAddr) : c ∉ a.toText :=
  fun hmem => hc (a.forall_mem_toText c hmem)

theorem IpNet.forall_mem_toText (net : IpNet) : ∀ c ∈ net.toText, c ∈ '/' :: addressChars := by
  unfold IpNet.toText
  simp only [List.forall_mem_append, List.forall_mem_cons]
  exact ⟨fun c hc => .tail _ (net.addr.forall_mem_toText c hc), .head _,
    fun c hc => .tail _ (forall_mem_ofNat _ c hc).1⟩

/-- **The text of a prefix tells which prefix it is**, host bits included. -/
theorem IpNet.toText_inj {p q : IpNet} (h : p.toText = q.toText) : p = q := by
  have hslash : '/' ∉ addressChars := by decide
  have hcut := congrArg (Text.splitOnce '/') h
  rw [IpNet.toText, IpNet.toText, Text.splitOnce_append (IpAddr.not_mem_toText hslash _),
    Text.splitOnce_append (IpAddr.not_mem_toText hslash _), Option.some.injEq, Prod.mk.injEq] at hcut
  have haddr := IpAddr.toText_inj hcut.1
  have hlen := Text.ofNat_inj hcut.2
  cases p with
  | v4 a m =>
    cases q with
    | v4 b n =>
      cases haddr
      rw [Fin.ext hlen]
    | v6 b n => cases haddr
  | v6 a m =>
    cases q with
    | v4 b n => cases haddr
    | v6 b n =>
      cases haddr
      rw [Fin.ext hlen]

end Idnx
