import Idnx.Lib.Map

/-!
# Moving the entries of a map

`relocate` takes one entry of a map to another key, where it joins the entry that is there, or drops it; `relocateAll`
does so for a list of keys. What is asked about the result is asked of the entries that went into it:

* `exists_relocateAll`: for a property that a join has exactly when one of its two parts has it;
* `exists_relocateAll_of_stays`: for a property that a join inherits from the entry that was there;
* `first_relocateAll`: for a value that a join inherits from the entry that was there, or came first;
* `findSome_relocateAll`: for an optional value that a join takes from the entry that was there, if it has one;
* `forall_relocateAll`: for a property of every entry that joins keep;
* `lookup_relocateAll_of_untouched`: a key that no entry leaves or joins keeps its entry.

`rename` replaces a name by the one it is listed with.
-/

namespace Idnx

section Rename

variable {K : Type} [DecidableEq K]

/-- The name `k` is listed with first, else `k` itself. -/
def rename : List (K × K) → K → K
  | [], k => k
  | a :: as, k => if k = a.1 then a.2 else rename as k

variable {as : List (K × K)} {k : K}

theorem rename_of_not_mem (h : ∀ a ∈ as, a.1 ≠ k) : rename as k = k := by
  induction as with
  | nil => rfl
  | cons a as ih =>
    rw [rename, if_neg (h a List.mem_cons_self).symm]
    exact ih fun b hb => h b (List.mem_cons_of_mem _ hb)

theorem rename_of_mem (h : ∃ a ∈ as, a.1 = k) : (k, rename as k) ∈ as := by
  induction as with
  | nil => obtain ⟨a, ha, -⟩ := h; cases ha
  | cons a as ih =>
    unfold rename
    split_ifs with hk
    · subst hk; exact List.mem_cons_self
    · refine List.mem_cons_of_mem _ (ih ?_)
      obtain ⟨b, hb, he⟩ := h
      rcases List.mem_cons.mp hb with rfl | hb
      · exact absurd he.symm hk
      · exact ⟨b, hb, he⟩

end Rename

namespace Map

variable {K V : Type} [DecidableEq K] (join : V → V → V) (moved : V → V)

/-- Takes the entry at `k` to `dest`: it joins the entry there, or is put there as `moved` makes it. Without a `dest`
the entry is dropped. -/
def relocate (dest : K → Option K) (m : Map K V) (k : K) : Map K V :=
  match AList.lookup k m with
  | none => m
  | some v =>
    match dest k with
    | none => AList.erase k m
    | some k' => Map.upd (AList.erase k m) k' fun
      | some t => join t v
      | none => moved v

/-- Relocates the entries at `ks`, one after the other. -/
def relocateAll (dest : K → Option K) (ks : List K) (m : Map K V) : Map K V :=
  ks.foldl (relocate join moved dest) m

variable {join moved} {dest : K → Option K} {m : Map K V} {k j : K}

/-- A key that is neither left nor joined keeps its entry. -/
theorem lookup_relocate_of_ne (hk : j ≠ k) (hd : dest k ≠ some j) :
    AList.lookup j (relocate join moved dest m k) = AList.lookup j m := by
  unfold relocate
  split
  · rfl
  · split
    · rw [lookup_erase_ite, if_neg hk]
    · rename_i k' hk'
      have hne : j ≠ k' := fun he => hd (by rw [hk', he])
      rw [lookup_upd, if_neg hne, lookup_erase_ite, if_neg hk]

/-- The entry at the key that is left is gone. -/
theorem lookup_relocate_self (hd : dest k ≠ some k) : AList.lookup k (relocate join moved dest m k) = none := by
  unfold relocate
  split
  · assumption
  · split
    · simp
    · rename_i k' hk'
      have hne : k ≠ k' := fun he => hd (by rw [hk', ← he])
      rw [lookup_upd, if_neg hne, lookup_erase_ite, if_pos rfl]

/-- The entry at the key that is joined. -/
theorem lookup_relocate_dest (hd : dest k = some j) (hk : j ≠ k) :
    AList.lookup j (relocate join moved dest m k) =
      match AList.lookup k m with
      | none => AList.lookup j m
      | some v => some (match AList.lookup j m with
        | some t => join t v
        | none => moved v) := by
  unfold relocate
  cases hv : AList.lookup k m with
  | none => rfl
  | some v => simp only [hd, lookup_upd, if_true, lookup_erase_ite, if_neg hk]

theorem lookup_relocateAll_of_untouched {ks : List K} (hk : j ∉ ks) (hd : ∀ k ∈ ks, dest k ≠ some j) :
    AList.lookup j (relocateAll join moved dest ks m) = AList.lookup j m := by
  induction ks generalizing m with
  | nil => rfl
  | cons k ks ih =>
    simp only [List.mem_cons, not_or] at hk
    have h := ih (m := relocate join moved dest m k) hk.2 (fun i hi => hd i (List.mem_cons_of_mem _ hi))
    exact h.trans (lookup_relocate_of_ne hk.1 (hd k List.mem_cons_self))

/-- A relocated entry is gone, unless another one joins its key. -/
theorem lookup_relocateAll_of_mem {ks : List K} (hk : j ∈ ks) (hd : ∀ k ∈ ks, dest k ≠ some j) :
    AList.lookup j (relocateAll join moved dest ks m) = none := by
  induction ks generalizing m with
  | nil => cases hk
  | cons k ks ih =>
    have hd' : ∀ i ∈ ks, dest i ≠ some j := fun i hi => hd i (List.mem_cons_of_mem _ hi)
    by_cases hj : j ∈ ks
    · exact ih hj hd'
    · have hjk : j = k := by
        rcases List.mem_cons.mp hk with h | h
        · exact h
        · exact absurd h hj
      subst hjk
      exact (lookup_relocateAll_of_untouched hj hd').trans (lookup_relocate_self (hd j List.mem_cons_self))

section Properties

variable {Φ : V → Prop}

/-- One relocation, asked about a property that joins split. -/
theorem exists_relocate (hjoin : ∀ t v, Φ (join t v) ↔ Φ t ∨ Φ v) (hmoved : ∀ v, Φ (moved v) ↔ Φ v)
    (hk : dest k ≠ some k) :
    (∃ v, AList.lookup j (relocate join moved dest m k) = some v ∧ Φ v) ↔
      (dest k = some j ∧ ∃ v, AList.lookup k m = some v ∧ Φ v) ∨ (j ≠ k ∧ ∃ v, AList.lookup j m = some v ∧ Φ v) := by
  by_cases hj : j = k
  · subst hj
    simp [lookup_relocate_self hk, hk]
  · by_cases hd : dest k = some j
    · rw [lookup_relocate_dest hd hj]
      cases hv : AList.lookup k m with
      | none => simp [hj]
      | some v =>
        cases ht : AList.lookup j m with
        | none => simp [hd, hmoved]
        | some t => simp [hd, hj, hjoin, or_comm]
    · rw [lookup_relocate_of_ne hj hd]
      simp [hd, hj]

/-- **A property that joins split** holds of the entry at `j` exactly when it holds of an entry that went there. -/
theorem exists_relocateAll {ks : List K} (hjoin : ∀ t v, Φ (join t v) ↔ Φ t ∨ Φ v) (hmoved : ∀ v, Φ (moved v) ↔ Φ v)
    (hnd : ks.Nodup) (hd : ∀ k ∈ ks, ∀ i ∈ ks, dest k ≠ some i) :
    (∃ v, AList.lookup j (relocateAll join moved dest ks m) = some v ∧ Φ v) ↔
      (∃ k ∈ ks, dest k = some j ∧ ∃ v, AList.lookup k m = some v ∧ Φ v) ∨
        (j ∉ ks ∧ ∃ v, AList.lookup j m = some v ∧ Φ v) := by
  induction ks generalizing m with
  | nil => simp [relocateAll]
  | cons k ks ih =>
    obtain ⟨hk, hnd⟩ := List.nodup_cons.mp hnd
    have hself : dest k ≠ some k := hd k List.mem_cons_self k List.mem_cons_self
    have hstep := ih (m := relocate join moved dest m k) hnd
      (fun i hi l hl => hd i (List.mem_cons_of_mem _ hi) l (List.mem_cons_of_mem _ hl))
    -- the entries still to be relocated are where they were
    have hrest : ∀ i ∈ ks, AList.lookup i (relocate join moved dest m k) = AList.lookup i m := by
      intro i hi
      refine lookup_relocate_of_ne (fun he => hk (he ▸ hi)) (hd k List.mem_cons_self i (List.mem_cons_of_mem _ hi))
    have hmoves : (∃ i ∈ ks, dest i = some j ∧ ∃ v, AList.lookup i (relocate join moved dest m k) = some v ∧ Φ v) ↔
        ∃ i ∈ ks, dest i = some j ∧ ∃ v, AList.lookup i m = some v ∧ Φ v := by
      constructor
      · rintro ⟨i, hi, hij, hv⟩
        exact ⟨i, hi, hij, by rwa [hrest i hi] at hv⟩
      · rintro ⟨i, hi, hij, hv⟩
        exact ⟨i, hi, hij, by rwa [hrest i hi]⟩
    refine hstep.trans ?_
    rw [hmoves, exists_relocate hjoin hmoved hself]
    constructor
    · rintro (⟨i, hi, hij, hv⟩ | ⟨hj, ⟨hkj, hv⟩ | ⟨hjk, hv⟩⟩)
      · exact .inl ⟨i, List.mem_cons_of_mem _ hi, hij, hv⟩
      · exact .inl ⟨k, List.mem_cons_self, hkj, hv⟩
      · exact .inr ⟨by simp [hjk, hj], hv⟩
    · rintro (⟨i, hi, hij, hv⟩ | ⟨hj, hv⟩)
      · rcases List.mem_cons.mp hi with rfl | hi
        · exact .inr ⟨fun hjks => hd i List.mem_cons_self j (List.mem_cons_of_mem _ hjks) hij, .inl ⟨hij, hv⟩⟩
        · exact .inl ⟨i, hi, hij, hv⟩
      · simp only [List.mem_cons, not_or] at hj
        exact .inr ⟨hj.2, .inr ⟨hj.1, hv⟩⟩

/-- **A property that stays with the entry that was there** is not changed by what joins it. -/
theorem exists_relocateAll_of_stays {ks : List K} (hjoin : ∀ t v, Φ (join t v) ↔ Φ t) (hj : j ∈ m) (hk : j ∉ ks) :
    (∃ v, AList.lookup j (relocateAll join moved dest ks m) = some v ∧ Φ v) ↔
      ∃ v, AList.lookup j m = some v ∧ Φ v := by
  induction ks generalizing m with
  | nil => rfl
  | cons k ks ih =>
    simp only [List.mem_cons, not_or] at hk
    obtain ⟨t, ht⟩ := mem_iff_lookup.mp hj
    -- one relocation: the entry at `j` is as it was, or joined
    have hone : AList.lookup j (relocate join moved dest m k) = some t ∨
        ∃ v, AList.lookup j (relocate join moved dest m k) = some (join t v) := by
      by_cases hd : dest k = some j
      · rw [lookup_relocate_dest hd hk.1, ht]
        cases AList.lookup k m with
        | none => exact .inl rfl
        | some v => exact .inr ⟨v, rfl⟩
      · rw [lookup_relocate_of_ne hk.1 hd, ht]
        exact .inl rfl
    have hmem : j ∈ relocate join moved dest m k := by
      rcases hone with h | ⟨v, h⟩
      · exact mem_of_lookup h
      · exact mem_of_lookup h
    refine (ih hmem hk.2).trans ?_
    rcases hone with h | ⟨v, h⟩
    · simp [h, ht]
    · simp [h, ht, hjoin]

/-- A property of all entries that joining and moving keep. -/
theorem forall_relocateAll {ks : List K} (hjoin : ∀ t v, Φ t → Φ v → Φ (join t v)) (hmoved : ∀ v, Φ v → Φ (moved v))
    (h : ∀ k v, AList.lookup k m = some v → Φ v) :
    ∀ k v, AList.lookup k (relocateAll join moved dest ks m) = some v → Φ v := by
  induction ks generalizing m with
  | nil => exact h
  | cons k ks ih =>
    refine ih (m := relocate join moved dest m k) fun i v hv => ?_
    unfold relocate at hv
    split at hv
    · exact h i v hv
    · rename_i u hu
      have herase : ∀ w, AList.lookup i (AList.erase k m) = some w → Φ w := by
        intro w hw
        rw [lookup_erase_ite] at hw
        split_ifs at hw
        exact h i w hw
      split at hv
      · exact herase v hv
      · rw [lookup_upd] at hv
        split_ifs at hv with hi
        · subst hi
          cases ht : AList.lookup i (AList.erase k m) with
          | none => rw [ht] at hv; cases hv; exact hmoved u (h k u hu)
          | some t => rw [ht] at hv; cases hv; exact hjoin t u (herase t ht) (h k u hu)
        · exact herase v hv

end Properties

/-- **A value that joins inherit from the entry that was there** comes from the entry at the key itself or, if there
was none, from an entry that was moved there. -/
theorem first_relocateAll {C : Type} (value : V → C) (hjoin : ∀ t v, value (join t v) = value t)
    (hmoved : ∀ v, value (moved v) = value v) {ks : List K} (hnd : ks.Nodup)
    (hd : ∀ k ∈ ks, ∀ i ∈ ks, dest k ≠ some i)
    {v : V} (hv : AList.lookup j (relocateAll join moved dest ks m) = some v) :
    (∃ t, AList.lookup j m = some t ∧ j ∉ ks ∧ value v = value t) ∨
      (AList.lookup j m = none ∧ ∃ k ∈ ks, dest k = some j ∧ ∃ u, AList.lookup k m = some u ∧ value v = value u) := by
  induction ks generalizing m with
  | nil => exact .inl ⟨v, hv, by simp, rfl⟩
  | cons k ks ih =>
    obtain ⟨hk, hnd⟩ := List.nodup_cons.mp hnd
    have hself : dest k ≠ some k := hd k List.mem_cons_self k List.mem_cons_self
    have hrest : ∀ i ∈ ks, AList.lookup i (relocate join moved dest m k) = AList.lookup i m := by
      intro i hi
      exact lookup_relocate_of_ne (fun he => hk (he ▸ hi)) (hd k List.mem_cons_self i (List.mem_cons_of_mem _ hi))
    have hj : j ∉ k :: ks := by
      intro hmem
      rw [lookup_relocateAll_of_mem hmem fun i hi he => hd i hi j hmem he] at hv
      cases hv
    simp only [List.mem_cons, not_or] at hj
    rcases ih (m := relocate join moved dest m k) hnd
        (fun i hi l hl => hd i (List.mem_cons_of_mem _ hi) l (List.mem_cons_of_mem _ hl)) hv with
      ⟨t, ht, -, hval⟩ | ⟨hnone, i, hi, hdi, u, hu, hval⟩
    · by_cases hdk : dest k = some j
      · rw [lookup_relocate_dest hdk hj.1] at ht
        cases hu : AList.lookup k m with
        | none =>
          rw [hu] at ht
          exact .inl ⟨t, ht, by simp [hj.1, hj.2], hval⟩
        | some u =>
          rw [hu] at ht
          cases hjm : AList.lookup j m with
          | none =>
            rw [hjm] at ht
            cases ht
            exact .inr ⟨rfl, k, List.mem_cons_self, hdk, u, hu, hval.trans (hmoved u)⟩
          | some t₀ =>
            rw [hjm] at ht
            cases ht
            exact .inl ⟨t₀, rfl, by simp [hj.1, hj.2], hval.trans (hjoin t₀ u)⟩
      · rw [lookup_relocate_of_ne hj.1 hdk] at ht
        exact .inl ⟨t, ht, by simp [hj.1, hj.2], hval⟩
    · rw [hrest i hi] at hu
      have hjm : AList.lookup j m = none := by
        by_cases hdk : dest k = some j
        · rw [lookup_relocate_dest hdk hj.1] at hnone
          cases hkm : AList.lookup k m with
          | none => rw [hkm] at hnone; exact hnone
          | some w => rw [hkm] at hnone; cases hnone
        · rwa [lookup_relocate_of_ne hj.1 hdk] at hnone
      exact .inr ⟨hjm, i, List.mem_cons_of_mem _ hi, hdi, u, hu, hval⟩

/-- **An optional value of which joins keep the first** is that of the first entry that has one: the entry at the key
itself, then those that went there, in the order in which they were moved. -/
theorem findSome_relocateAll {C : Type} (value : V → Option C)
    (hjoin : ∀ t v, value (join t v) = (value t).or (value v))
    {ks : List K} (hnd : ks.Nodup) (hd : ∀ k ∈ ks, ∀ i ∈ ks, dest k ≠ some i) (hj : j ∈ m) (hks : j ∉ ks) :
    (AList.lookup j (relocateAll join moved dest ks m)).bind value =
      (j :: ks.filter fun k => dest k = some j).findSome? fun k => (AList.lookup k m).bind value := by
  induction ks generalizing m with
  | nil => simp [relocateAll]
  | cons k ks ih =>
    obtain ⟨hk, hnd⟩ := List.nodup_cons.mp hnd
    simp only [List.mem_cons, not_or] at hks
    have hrest : ∀ i ∈ ks, AList.lookup i (relocate join moved dest m k) = AList.lookup i m := by
      intro i hi
      exact lookup_relocate_of_ne (fun he => hk (he ▸ hi)) (hd k List.mem_cons_self i (List.mem_cons_of_mem _ hi))
    have hothers : (ks.filter fun i => dest i = some j).findSome?
          (fun i => (AList.lookup i (relocate join moved dest m k)).bind value) =
        (ks.filter fun i => dest i = some j).findSome? fun i => (AList.lookup i m).bind value := by
      rw [← List.head?_filterMap, ← List.head?_filterMap]
      exact congrArg List.head? (List.filterMap_congr fun i hi => by rw [hrest i (List.mem_of_mem_filter hi)])
    obtain ⟨t, ht⟩ := mem_iff_lookup.mp hj
    have hmem : j ∈ relocate join moved dest m k := by
      by_cases hdk : dest k = some j
      · have h := @lookup_relocate_dest K V _ join moved dest m k j hdk hks.1
        rw [ht] at h
        cases hv : AList.lookup k m with
        | none => rw [hv] at h; exact mem_of_lookup h
        | some v => rw [hv] at h; exact mem_of_lookup h
      · exact mem_of_lookup ((lookup_relocate_of_ne hks.1 hdk).trans ht)
    refine (ih (m := relocate join moved dest m k) hnd
      (fun i hi l hl => hd i (List.mem_cons_of_mem _ hi) l (List.mem_cons_of_mem _ hl)) hmem hks.2).trans ?_
    rw [List.findSome?_cons, List.findSome?_cons, hothers]
    by_cases hdk : dest k = some j
    · rw [lookup_relocate_dest hdk hks.1, ht, List.filter_cons_of_pos (by simpa using hdk), List.findSome?_cons]
      cases hv : AList.lookup k m with
      | none => rfl
      | some v =>
        simp only [Option.bind_some, hjoin]
        cases value t with
        | some c => rfl
        | none => rfl
    · rw [lookup_relocate_of_ne hks.1 hdk, List.filter_cons_of_neg (by simpa using hdk)]

end Map

end Idnx
