import Mathlib.Algebra.GroupWithZero.Nat
import Mathlib.Data.List.AList
import Mathlib.Data.List.Sort

/-!
# Finite maps

A map is an association list without repeated keys (`AList`). `modify` changes the value of a key that is there
(`get_mut`), `upd` gives a key a new value computed from the old one, present or not (`entry`), `retain` keeps what a
function keeps of each value, and `sortedKeys` lists the keys in increasing order, the order in which an ordered map
is iterated. `total` adds up a weight of the values.
-/

namespace Idnx

/-- A finite map from `K` to `V`. -/
abbrev Map (K V : Type) := AList (fun _ : K => V)

namespace Map

variable {K V : Type} [DecidableEq K]

theorem lookup_insert_ite (m : Map K V) (k j : K) (v : V) :
    AList.lookup j (AList.insert k v m) = if j = k then some v else AList.lookup j m := by
  by_cases h : j = k
  · subst h; simp
  · simp [AList.lookup_insert_ne h, h]

theorem lookup_erase_ite (m : Map K V) (k j : K) :
    AList.lookup j (AList.erase k m) = if j = k then none else AList.lookup j m := by
  by_cases h : j = k
  · subst h; simp
  · simp [AList.lookup_erase_ne h, h]

/-- The keys are the ones with a value. -/
theorem mem_iff_lookup {m : Map K V} {k : K} : k ∈ m ↔ ∃ v, AList.lookup k m = some v := by
  rw [← AList.lookup_isSome, Option.isSome_iff_exists]

theorem mem_of_lookup {m : Map K V} {k : K} {v : V} (h : AList.lookup k m = some v) : k ∈ m :=
  mem_iff_lookup.mpr ⟨v, h⟩

/-- Apply `f` to the value at `k`, if there is one. -/
def modify (m : Map K V) (k : K) (f : V → V) : Map K V :=
  match AList.lookup k m with
  | some v => AList.insert k (f v) m
  | none => m

theorem lookup_modify (m : Map K V) (k j : K) (f : V → V) :
    AList.lookup j (m.modify k f) = if j = k then (AList.lookup k m).map f else AList.lookup j m := by
  unfold modify
  cases h : AList.lookup k m with
  | none =>
    by_cases hj : j = k
    · subst hj; simp [h]
    · simp [hj]
  | some v => simp [lookup_insert_ite]

@[simp] theorem mem_modify {m : Map K V} {k j : K} {f : V → V} : j ∈ m.modify k f ↔ j ∈ m := by
  rw [← AList.lookup_isSome, ← AList.lookup_isSome, lookup_modify]
  by_cases h : j = k
  · subst h; simp
  · simp [h]

/-- Give `k` the value `f` computes from the value it had. -/
def upd (m : Map K V) (k : K) (f : Option V → V) : Map K V := AList.insert k (f (AList.lookup k m)) m

theorem lookup_upd (m : Map K V) (k j : K) (f : Option V → V) :
    AList.lookup j (m.upd k f) = if j = k then some (f (AList.lookup k m)) else AList.lookup j m :=
  lookup_insert_ite m k j _

@[simp] theorem mem_upd {m : Map K V} {k j : K} {f : Option V → V} : j ∈ m.upd k f ↔ j = k ∨ j ∈ m :=
  AList.mem_insert m

/-- The keys in increasing order. -/
def sortedKeys [Ord K] (m : Map K V) : List K := m.keys.insertionSort (fun a b => (compare a b).isLE)

omit [DecidableEq K] in
@[simp] theorem mem_sortedKeys [Ord K] {m : Map K V} {k : K} : k ∈ m.sortedKeys ↔ k ∈ m := by
  rw [sortedKeys, List.mem_insertionSort, AList.mem_keys]

omit [DecidableEq K] in
theorem sortedKeys_nodup [Ord K] (m : Map K V) : m.sortedKeys.Nodup :=
  (List.perm_insertionSort _ _).nodup_iff.mpr m.keys_nodup

/-- What `f` keeps of the value of an entry. -/
def keepEntry (f : V → Option V) (e : Sigma fun _ : K => V) : Option (Sigma fun _ : K => V) :=
  (f e.2).map fun v => ⟨e.1, v⟩

omit [DecidableEq K] in
theorem keys_filterMap_sublist (f : V → Option V) (es : List (Sigma fun _ : K => V)) :
    (List.keys (es.filterMap (keepEntry f))).Sublist (List.keys es) := by
  induction es with
  | nil => exact .slnil
  | cons e es ih =>
    rw [List.filterMap_cons, keepEntry]
    cases f e.2 with
    | none => exact ih.cons _
    | some v => exact ih.cons_cons _

/-- What `f` keeps of each value, without the keys it keeps nothing of (`HashMap::retain`). -/
def retain (m : Map K V) (f : V → Option V) : Map K V :=
  ⟨m.entries.filterMap (keepEntry f), (keys_filterMap_sublist f m.entries).nodup m.nodupKeys⟩

theorem lookup_retain (m : Map K V) (f : V → Option V) (k : K) :
    AList.lookup k (m.retain f) = (AList.lookup k m).bind f := by
  ext v
  rw [← Option.mem_def, AList.mem_lookup_iff, ← Option.mem_def, Option.mem_bind_iff]
  simp only [retain, keepEntry, List.mem_filterMap, Option.map_eq_some_iff, AList.mem_lookup_iff]
  constructor
  · rintro ⟨⟨k', v₀⟩, he, w, hw, h⟩
    cases h
    exact ⟨v₀, he, hw⟩
  · rintro ⟨v₀, he, hv⟩
    exact ⟨⟨k, v₀⟩, he, v, hv, rfl⟩

omit [DecidableEq K] in
theorem length_keys_retain_le (m : Map K V) (f : V → Option V) : (m.retain f).keys.length ≤ m.keys.length :=
  (keys_filterMap_sublist f m.entries).length_le

/-! ## Counting keys -/

theorem length_keys_erase {m : Map K V} {k : K} (h : k ∈ m) : (AList.erase k m).keys.length = m.keys.length - 1 := by
  rw [AList.keys_erase]
  exact List.length_erase_of_mem (AList.mem_keys.mp h)

theorem length_keys_erase_le (m : Map K V) (k : K) : (AList.erase k m).keys.length ≤ m.keys.length := by
  rw [AList.keys_erase]
  exact List.length_erase_le

theorem length_keys_insert {m : Map K V} {k : K} (v : V) (h : k ∈ m) :
    (AList.insert k v m).keys.length = m.keys.length := by
  have hpos : 0 < m.keys.length := List.length_pos_of_mem (AList.mem_keys.mp h)
  rw [AList.keys_insert, List.length_cons, List.length_erase_of_mem (AList.mem_keys.mp h)]
  omega

theorem length_keys_insert_new {m : Map K V} {k : K} (v : V) (h : k ∉ m) :
    (AList.insert k v m).keys.length = m.keys.length + 1 := by
  rw [AList.keys_insert, List.length_cons, List.erase_of_not_mem (fun hk => h (AList.mem_keys.mpr hk))]

/-! ## Adding up -/

/-- The weights of all values together. -/
def total (w : V → Nat) (m : Map K V) : Nat := (m.entries.map fun e => w e.2).sum

/-- What a key contributes to the total is gone when the key is erased. -/
theorem total_erase (w : V → Nat) (m : Map K V) (k : K) :
    total w (AList.erase k m) + ((AList.lookup k m).map w).getD 0 = total w m := by
  obtain ⟨es, hes⟩ := m
  show ((List.kerase k es).map fun e => w e.2).sum + ((List.dlookup k es).map w).getD 0 = (es.map fun e => w e.2).sum
  clear hes
  induction es with
  | nil => rfl
  | cons e es ih =>
    by_cases h : k = e.1
    · subst h
      rw [List.kerase_cons_eq rfl, List.dlookup_cons_eq, List.map_cons, List.sum_cons, Option.map_some,
        Option.getD_some, Nat.add_comm]
    · rw [List.kerase_cons_ne h, List.dlookup_cons_ne _ e h, List.map_cons, List.map_cons, List.sum_cons,
        List.sum_cons, Nat.add_assoc, ih]

theorem total_insert (w : V → Nat) (m : Map K V) (k : K) (v : V) :
    total w (AList.insert k v m) = w v + total w (AList.erase k m) := rfl

omit [DecidableEq K] in
theorem total_retain_le {w : V → Nat} {f : V → Option V} (hf : ∀ v v', f v = some v' → w v' ≤ w v) (m : Map K V) :
    total w (m.retain f) ≤ total w m := by
  show ((m.entries.filterMap (keepEntry f)).map fun e => w e.2).sum ≤ (m.entries.map fun e => w e.2).sum
  induction m.entries with
  | nil => exact Nat.le_refl _
  | cons e es ih =>
    rw [List.filterMap_cons, keepEntry, List.map_cons, List.sum_cons]
    cases hv : f e.2 with
    | none => exact ih.trans (Nat.le_add_left _ _)
    | some v =>
      have := hf e.2 v hv
      simp only [Option.map_some, List.map_cons, List.sum_cons]
      omega

/-- A value weighs no more than all of them. -/
theorem le_total {w : V → Nat} {m : Map K V} {k : K} {v : V} (h : AList.lookup k m = some v) : w v ≤ total w m := by
  have he := total_erase w m k
  rw [h, Option.map_some, Option.getD_some] at he
  omega

theorem exists_of_total_pos {w : V → Nat} {m : Map K V} (h : 0 < total w m) :
    ∃ k v, AList.lookup k m = some v ∧ 0 < w v := by
  obtain ⟨n, hn, hpos⟩ := List.sum_pos_iff_exists_pos_nat.mp h
  obtain ⟨e, he, rfl⟩ := List.mem_map.mp hn
  exact ⟨e.1, e.2, AList.mem_lookup_iff.mpr he, hpos⟩

end Map

end Idnx
