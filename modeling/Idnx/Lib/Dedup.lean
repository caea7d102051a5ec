import Mathlib.Data.List.Destutter

/-!
# Dropping repetitions

`destutter` drops what repeats the key of the element before it. Every key survives (`exists_mem_destutter`), and in a
list sorted by some rank of the keys each key survives once, unless another key of the list has its rank
(`countP_key_le_one`). In general a key survives more than once exactly when another stands between two elements that
have it (`nodup_destutter_iff`). `keepFirst` keeps of every key the first element that has it.
-/

namespace Idnx

variable {α κ τ : Type} [DecidableEq κ] {key : α → κ} {l : List α}

/-- What is dropped comes after an element with its key that is not. -/
theorem exists_mem_destutter'_before (key : α → κ) (l : List α) (a x : α) (hx : x = a ∨ x ∈ l) :
    ∃ y ∈ l.destutter' (fun a b => key a ≠ key b) a, key y = key x ∧ (y = x ∨ [y, x].Sublist (a :: l)) := by
  induction l generalizing a with
  | nil =>
    obtain rfl : x = a := by simpa using hx
    exact ⟨x, by simp, rfl, .inl rfl⟩
  | cons b l ih =>
    have hfirst : a ∈ (b :: l).destutter' (fun a b => key a ≠ key b) a := List.mem_destutter' _ _ _
    rcases hx with rfl | hx
    · exact ⟨x, hfirst, rfl, .inl rfl⟩
    · by_cases hab : key a ≠ key b
      · obtain ⟨y, hy, hk, hbefore⟩ := ih b (by simpa using hx)
        rw [List.destutter'_cons, if_pos hab]
        exact ⟨y, List.mem_cons_of_mem _ hy, hk, hbefore.imp_right fun h => h.cons a⟩
      · rcases List.mem_cons.mp hx with rfl | hx
        · refine ⟨a, hfirst, not_not.mp hab, .inr ?_⟩
          exact List.Sublist.cons_cons a (List.singleton_sublist.mpr List.mem_cons_self)
        · obtain ⟨y, hy, hk, hbefore⟩ := ih a (.inr hx)
          rw [List.destutter'_cons, if_neg hab]
          refine ⟨y, hy, hk, hbefore.imp_right fun h => h.trans ?_⟩
          exact List.Sublist.cons_cons a (List.sublist_cons_self b l)

theorem exists_mem_destutter_before (key : α → κ) {x : α} (hx : x ∈ l) :
    ∃ y ∈ l.destutter (fun a b => key a ≠ key b), key y = key x ∧ (y = x ∨ [y, x].Sublist l) := by
  cases l with
  | nil => cases hx
  | cons a l => exact exists_mem_destutter'_before key l a x (by simpa using hx)

/-- Every key of the list survives. -/
theorem exists_mem_destutter (key : α → κ) {x : α} (hx : x ∈ l) :
    ∃ y ∈ l.destutter (fun a b => key a ≠ key b), key y = key x := by
  obtain ⟨y, hy, hk, -⟩ := exists_mem_destutter_before key hx
  exact ⟨y, hy, hk⟩

/-- Dropping repetitions of the element before drops no element. -/
theorem mem_destutter_ne {l : List κ} {x : κ} : x ∈ l.destutter (· ≠ ·) ↔ x ∈ l := by
  refine ⟨fun h => (List.destutter_sublist _ l).subset h, fun h => ?_⟩
  obtain ⟨y, hy, hk⟩ := exists_mem_destutter id h
  rw [← show y = x from hk]
  exact hy

/-- In a list sorted by the rank of the keys in which no key repeats the one before, a key whose rank no other key of
the list has is there at most once. -/
theorem countP_key_le_one [Ord τ] [Std.TransOrd τ] [Std.LawfulEqOrd τ] {rank : κ → τ} {k : κ}
    (hsorted : l.Pairwise fun a b => (compare (rank (key a)) (rank (key b))).isLE = true)
    (hchain : l.IsChain fun a b => key a ≠ key b) (htwin : ∀ a ∈ l, rank (key a) = rank k → key a = k) :
    l.countP (fun a => key a = k) ≤ 1 := by
  induction l with
  | nil => simp
  | cons a l ih =>
    rw [List.pairwise_cons] at hsorted
    have hrest := ih hsorted.2 hchain.tail fun b hb => htwin b (List.mem_cons_of_mem _ hb)
    by_cases hak : key a = k
    · -- the next element has another key, and the sort leaves no way back to `k`
      suffices l.countP (fun b => key b = k) = 0 by simp [hak, this]
      rw [List.countP_eq_zero]
      intro c hc
      simp only [decide_eq_true_eq]
      intro hck
      cases l with
      | nil => cases hc
      | cons b l =>
        have hab : key a ≠ key b := (List.isChain_cons_cons.mp hchain).1
        have hle : (compare (rank (key a)) (rank (key b))).isLE = true := hsorted.1 b List.mem_cons_self
        have hge : (compare (rank (key b)) (rank k)).isLE = true := by
          rcases List.mem_cons.mp hc with rfl | hc'
          · rw [hck]
            exact Std.ReflOrd.isLE_rfl
          · rw [← hck]
            exact (List.pairwise_cons.mp hsorted.2).1 c hc'
        rw [hak] at hle
        have heq : rank (key b) = rank k := Std.LawfulEqOrd.eq_of_compare (Std.OrientedCmp.isLE_antisymm hge hle)
        exact hab (hak.trans (htwin b (by simp) heq).symm)
    · simpa [hak] using hrest

/-! ## Keys that survive once -/

/-- A key comes back after another one. -/
def ComesBack (key : α → κ) (l : List α) : Prop :=
  ∃ a b c, [a, b, c].Sublist l ∧ key a = key c ∧ key b ≠ key a

/-- A key that comes back survives twice. -/
theorem not_nodup_destutter' (key : α → κ) (l : List α) (x : α) (h : ComesBack key (x :: l)) :
    ¬ ((l.destutter' (fun a b => key a ≠ key b) x).map key).Nodup := by
  induction l generalizing x with
  | nil =>
    obtain ⟨a, b, c, hsub, -⟩ := h
    simpa using hsub.length_le
  | cons y l ih =>
    obtain ⟨a, b, c, hsub, hac, hba⟩ := h
    by_cases hxy : key x ≠ key y
    · rw [List.destutter'_cons, if_pos hxy, List.map_cons, List.nodup_cons]
      rintro ⟨hnew, hrest⟩
      rcases List.sublist_cons_iff.mp hsub with hsub | ⟨rest, hrest', hsub⟩
      · exact ih y ⟨a, b, c, hsub, hac, hba⟩ hrest
      · cases hrest'
        -- the key of `x` comes back behind it
        have hc : c ∈ y :: l := hsub.subset (by simp)
        obtain ⟨z, hz, hkz, -⟩ := exists_mem_destutter'_before key l y c (by simpa using hc)
        exact hnew (List.mem_map.mpr ⟨z, hz, hkz.trans hac.symm⟩)
    · rw [List.destutter'_cons, if_neg hxy]
      have hkey : key x = key y := not_not.mp hxy
      refine ih x ?_
      rcases List.sublist_cons_iff.mp hsub with hsub | ⟨rest, hrest, hsub⟩
      · rcases List.sublist_cons_iff.mp hsub with hsub | ⟨rest, hrest, hsub⟩
        · exact ⟨a, b, c, hsub.cons x, hac, hba⟩
        · cases hrest
          exact ⟨x, b, c, hsub.cons_cons x, hkey.trans hac, fun h => hba (h.trans hkey)⟩
      · cases hrest
        rcases List.sublist_cons_iff.mp hsub with hsub | ⟨rest, hrest, hsub⟩
        · exact ⟨x, b, c, hsub.cons_cons x, hac, hba⟩
        · cases hrest
          exact absurd hkey.symm hba

omit [DecidableEq κ] in
/-- Where no key repeats the one before it, a key that is there twice comes back. -/
theorem comesBack_of_not_nodup (hchain : l.IsChain fun a b => key a ≠ key b) (h : ¬ (l.map key).Nodup) :
    ComesBack key l := by
  induction l with
  | nil => exact absurd List.nodup_nil h
  | cons x l ih =>
    rw [List.map_cons, List.nodup_cons, not_and_or, not_not] at h
    rcases h with hx | hrest
    · obtain ⟨c, hc, hkc⟩ := List.mem_map.mp hx
      cases l with
      | nil => cases hc
      | cons y l =>
        have hxy := (List.isChain_cons_cons.mp hchain).1
        rcases List.mem_cons.mp hc with rfl | hc
        · exact absurd hkc.symm hxy
        · refine ⟨x, y, c, ?_, hkc.symm, Ne.symm hxy⟩
          exact List.Sublist.cons_cons x (List.Sublist.cons_cons y (List.singleton_sublist.mpr hc))
    · obtain ⟨a, b, c, hsub, hk⟩ := ih hchain.tail hrest
      exact ⟨a, b, c, hsub.cons x, hk⟩

/-- **Keys survive once** exactly when none comes back after another. -/
theorem nodup_destutter_iff (key : α → κ) (l : List α) :
    ((l.destutter fun a b => key a ≠ key b).map key).Nodup ↔ ¬ ComesBack key l := by
  constructor
  · intro hnodup hback
    cases l with
    | nil =>
      obtain ⟨a, b, c, hsub, -⟩ := hback
      simpa using hsub.length_le
    | cons x l => exact not_nodup_destutter' key l x hback hnodup
  · intro hback
    by_contra hnodup
    obtain ⟨a, b, c, hsub, hk⟩ := comesBack_of_not_nodup (List.isChain_destutter _ _) hnodup
    exact hback ⟨a, b, c, hsub.trans (List.destutter_sublist _ _), hk⟩

/-! ## The first of every key -/

/-- Keeps the elements whose key is not among the `seen` ones or that of an earlier element. -/
def keepFirst (key : α → κ) : List α → List κ → List α
  | [], _ => []
  | a :: as, seen => if key a ∈ seen then keepFirst key as seen else a :: keepFirst key as (key a :: seen)

theorem mem_of_mem_keepFirst {seen : List κ} {x : α} (h : x ∈ keepFirst key l seen) : x ∈ l := by
  induction l generalizing seen with
  | nil => cases h
  | cons a l ih =>
    unfold keepFirst at h
    split at h
    · exact List.mem_cons_of_mem _ (ih h)
    · rcases List.mem_cons.mp h with rfl | h
      · exact List.mem_cons_self
      · exact List.mem_cons_of_mem _ (ih h)

/-- Every key that was not seen before survives. -/
theorem exists_mem_keepFirst {seen : List κ} {x : α} (hx : x ∈ l) (hseen : key x ∉ seen) :
    ∃ y ∈ keepFirst key l seen, key y = key x := by
  induction l generalizing seen with
  | nil => cases hx
  | cons a l ih =>
    unfold keepFirst
    by_cases hxa : key x = key a
    · rw [if_neg (by rwa [← hxa])]
      exact ⟨a, List.mem_cons_self, hxa.symm⟩
    · have hxl : x ∈ l := by
        rcases List.mem_cons.mp hx with rfl | hx
        · exact absurd rfl hxa
        · exact hx
      split
      · exact ih hxl hseen
      · obtain ⟨y, hy, hk⟩ := ih hxl (List.not_mem_cons_of_ne_of_not_mem hxa hseen)
        exact ⟨y, List.mem_cons_of_mem _ hy, hk⟩

/-- Only repetitions are dropped. -/
theorem mem_keepFirst_id {l : List κ} {x : κ} : x ∈ keepFirst id l [] ↔ x ∈ l := by
  refine ⟨mem_of_mem_keepFirst, fun h => ?_⟩
  obtain ⟨y, hy, hk⟩ := @exists_mem_keepFirst κ κ _ id l [] x h List.not_mem_nil
  rw [← show y = x from hk]
  exact hy

end Idnx
