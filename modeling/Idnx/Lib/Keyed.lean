import Idnx.Lib.Map

/-!
# Folds that go key by key

A fold over entries each of which touches what is looked up at one key does at every key what the entries of that key do
(`look_foldl_keyed`), so with one entry a key it does each of them once (`filter_keyed`), and where an entry gives way
to the first stronger one, that one is kept (`foldl_keepStrong`). Entries that change no value
of a map beyond a relation leave all values within it (`Map.Within`).
-/

namespace Idnx

section Keyed

variable {K W E σ : Type} [DecidableEq K] {step : σ → E → σ} {key : E → K} {g : E → W → W}

/-- **What a fold does at a key**: what the entries of the key do. -/
theorem look_foldl_keyed (look : σ → K → W)
    (hstep : ∀ s e j, look (step s e) j = if j = key e then g e (look s j) else look s j)
    (l : List E) (s : σ) (j : K) :
    look (l.foldl step s) j = (l.filter fun e => key e = j).foldl (fun v e => g e v) (look s j) := by
  induction l generalizing s with
  | nil => rfl
  | cons e l ih =>
    rw [List.foldl_cons, ih, hstep]
    by_cases h : key e = j
    · rw [if_pos h.symm, List.filter_cons_of_pos (by simpa using h), List.foldl_cons]
    · rw [if_neg (Ne.symm h), List.filter_cons_of_neg (by simpa using h)]

/-- Of entries made for distinct keys, each key has its own. -/
theorem filter_keyed {β : Type} {keys : List K} (hnodup : keys.Nodup) (f : K → Option β) (j : K) :
    ((keys.filterMap fun k => (f k).map fun b => (k, b)).filter fun e => e.1 = j) =
      if j ∈ keys then ((f j).map fun b => (j, b)).toList else [] := by
  induction keys with
  | nil => rfl
  | cons k keys ih =>
    obtain ⟨hk, hnodup⟩ := List.nodup_cons.mp hnodup
    have hhead : ((k :: keys).filterMap fun k => (f k).map fun b => (k, b)) =
        ((f k).map fun b => (k, b)).toList ++ keys.filterMap fun k => (f k).map fun b => (k, b) := by
      cases h : f k with
      | none => rw [List.filterMap_cons_none (by rw [h]; rfl)]; rfl
      | some b => rw [List.filterMap_cons_some (by rw [h]; rfl)]; rfl
    rw [hhead, List.filter_append, ih hnodup]
    by_cases hj : k = j
    · subst hj
      rw [if_neg hk, if_pos List.mem_cons_self, List.append_nil, List.filter_eq_self]
      intro e he
      obtain ⟨b, -, rfl⟩ := Option.map_eq_some_iff.mp (Option.mem_toList.mp he)
      exact decide_eq_true rfl
    · have hnone : (((f k).map fun b => (k, b)).toList.filter fun e => e.1 = j) = [] := by
        rw [List.filter_eq_nil_iff]
        intro e he
        obtain ⟨b, -, rfl⟩ := Option.map_eq_some_iff.mp (Option.mem_toList.mp he)
        simpa using hj
      rw [hnone, List.nil_append]
      simp only [List.mem_cons, show (j = k) = False from eq_false (Ne.symm hj), false_or]

omit [DecidableEq K] in
theorem mem_keyed {β : Type} {keys : List K} {f : K → Option β} {k : K} {b : β} :
    ((k, b) ∈ keys.filterMap fun k => (f k).map fun b => (k, b)) ↔ k ∈ keys ∧ f k = some b := by
  simp only [List.mem_filterMap, Option.map_eq_some_iff, Prod.mk.injEq]
  constructor
  · rintro ⟨k', hk', b', hb', rfl, rfl⟩
    exact ⟨hk', hb'⟩
  · rintro ⟨hk, hb⟩
    exact ⟨k, hk, b, hb, rfl, rfl⟩

/-- The elements of a list without repetitions stand where they first stand. -/
theorem zipIdx_eq_map_idxOf {keys : List K} (hnodup : keys.Nodup) :
    keys.zipIdx = keys.map fun k => (k, keys.idxOf k) := by
  refine List.ext_getElem (by simp) fun i hi hi' => ?_
  rw [List.getElem_zipIdx, List.getElem_map, hnodup.idxOf_getElem, Nat.zero_add]

/-- Of entries with distinct keys, the one of a key is found. -/
theorem find?_key_eq_some {key : E → K} {l : List E} (h : (l.map key).Nodup) {k : K} {e : E} :
    l.find? (fun x => key x = k) = some e ↔ e ∈ l ∧ key e = k := by
  constructor
  · intro hfind
    exact ⟨List.mem_of_find?_eq_some hfind, by simpa using List.find?_some hfind⟩
  · rintro ⟨he, rfl⟩
    have hsome : (l.find? fun x => key x = key e).isSome = true := List.find?_isSome.mpr ⟨e, he, by simp⟩
    obtain ⟨found, hfound⟩ := Option.isSome_iff_exists.mp hsome
    have hkey : key found = key e := by simpa using List.find?_some hfound
    rw [hfound, List.inj_on_of_nodup_map h (List.mem_of_find?_eq_some hfound) he hkey]

end Keyed

/-! ## The first strong entry -/

section Strong

variable {α : Type} (strong : α → Bool)

/-- The first entry is kept, unless a later one is the first that is strong. -/
def keepStrong (kept : Option α) (a : α) : Option α :=
  match kept with
  | none => some a
  | some b => if strong a && !strong b then some a else some b

theorem foldl_keepStrong_some (b : α) (l : List α) :
    l.foldl (keepStrong strong) (some b) = if strong b then some b else l.find? strong <|> some b := by
  induction l generalizing b with
  | nil => split_ifs <;> rfl
  | cons a l ih =>
    rw [List.foldl_cons, keepStrong]
    cases hb : strong b with
    | true => rw [Bool.not_true, Bool.and_false, if_neg (by decide), ih, if_pos hb, if_pos rfl]
    | false =>
      cases ha : strong a with
      | true => rw [if_pos (by decide), ih, if_pos ha, List.find?_cons_of_pos ha]; rfl
      | false =>
        rw [if_neg (by decide), ih, if_neg (by rw [hb]; decide), List.find?_cons_of_neg (by rw [ha]; decide)]
        rfl

/-- What is kept of a list: its first strong entry, or its first. -/
theorem foldl_keepStrong (l : List α) : l.foldl (keepStrong strong) none = (l.find? strong <|> l.head?) := by
  cases l with
  | nil => rfl
  | cons a l =>
    rw [List.foldl_cons, keepStrong, foldl_keepStrong_some, List.head?_cons, List.find?_cons]
    cases strong a <;> rfl

end Strong

/-! ## Values that stay within a relation -/

namespace Map

variable {K V : Type} [DecidableEq K] {R : V → V → Prop} {m m' m'' : Map K V}

/-- The second map has the keys of the first, and their values are related. -/
def Within (R : V → V → Prop) (m m' : Map K V) : Prop := ∀ k, Option.Rel R (AList.lookup k m) (AList.lookup k m')

theorem Within.refl (hrefl : ∀ v, R v v) (m : Map K V) : m.Within R m := fun k => by
  cases AList.lookup k m with
  | none => exact .none
  | some v => exact .some (hrefl v)

theorem Within.trans (htrans : ∀ u v w, R u v → R v w → R u w) (h : m.Within R m') (h' : m'.Within R m'') :
    m.Within R m'' := by
  intro k
  have h := h k
  have h' := h' k
  generalize AList.lookup k m = a at h
  generalize AList.lookup k m' = b at h h'
  generalize AList.lookup k m'' = c at h'
  cases h with
  | none => exact h'
  | some hab =>
    cases h' with
    | some hbc => exact .some (htrans _ _ _ hab hbc)

theorem within_modify (hrefl : ∀ v, R v v) (m : Map K V) (k : K) {f : V → V} (hf : ∀ v, R v (f v)) :
    m.Within R (m.modify k f) := by
  intro j
  rw [lookup_modify]
  split_ifs with h
  · subst h
    cases AList.lookup j m with
    | none => exact .none
    | some v => exact .some (hf v)
  · exact Within.refl hrefl m j

/-- Every value is changed. -/
def mapValues (m : Map K V) (f : V → V) : Map K V := m.retain fun v => some (f v)

theorem within_mapValues (m : Map K V) {f : V → V} (hf : ∀ v, R v (f v)) : m.Within R (m.mapValues f) := by
  intro k
  rw [mapValues, lookup_retain]
  cases AList.lookup k m with
  | none => exact .none
  | some v => exact .some (hf v)

theorem within_foldl {E : Type} (hrefl : ∀ v, R v v) (htrans : ∀ u v w, R u v → R v w → R u w)
    {step : Map K V → E → Map K V} (hstep : ∀ (m : Map K V) e, m.Within R (step m e)) (l : List E) (m : Map K V) :
    m.Within R (l.foldl step m) := by
  induction l generalizing m with
  | nil => exact .refl hrefl m
  | cons e l ih => exact .trans htrans (hstep m e) (ih _)

theorem Within.mem_iff (h : m.Within R m') (k : K) : k ∈ m' ↔ k ∈ m := by
  have h := h k
  rw [← AList.lookup_isSome, ← AList.lookup_isSome]
  generalize AList.lookup k m = a at h
  generalize AList.lookup k m' = b at h
  cases h <;> rfl

/-- The values of a map. -/
def values (m : Map K V) : List V := m.entries.map fun e => e.2

theorem mem_values {v : V} : v ∈ m.values ↔ ∃ k, AList.lookup k m = some v := by
  rw [values, List.mem_map]
  constructor
  · rintro ⟨e, he, rfl⟩
    exact ⟨e.1, AList.mem_lookup_iff.mpr he⟩
  · rintro ⟨k, hk⟩
    exact ⟨⟨k, v⟩, AList.mem_lookup_iff.mp hk, rfl⟩

end Map

end Idnx
