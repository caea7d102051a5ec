import Mathlib.Data.List.Induction
import Mathlib.Data.List.Nodup

/-!
# Recording and collecting answers

Answers come in one by one. `recordOnce` keeps of each key the first answer that has it: what is kept has every key
that came in, once (`mem_map_record`, `nodup_record`). `collect` puts together what was said under each key
(`mem_collectAll`), and a key has two things said of it exactly when two different ones were (`exists_collected_iff`).
-/

namespace Idnx

variable {α κ μ : Type} [DecidableEq κ] {key : α → κ} {a : α} {kept : List α}

/-! ## Recording each key once -/

/-- Keeps an answer, unless one with its key was kept before. -/
def recordOnce (key : α → κ) (kept : List α) (a : α) : List α :=
  if kept.any fun seen => key seen = key a then kept else kept ++ [a]

theorem mem_recordOnce {b : α} (h : b ∈ recordOnce key kept a) : b ∈ kept ∨ b = a := by
  unfold recordOnce at h
  split at h
  · exact .inl h
  · exact (List.mem_append.mp h).imp_right List.mem_singleton.mp

theorem map_recordOnce (key : α → κ) (kept : List α) (a : α) :
    (recordOnce key kept a).map key = if key a ∈ kept.map key then kept.map key else kept.map key ++ [key a] := by
  have hseen : (kept.any fun seen => decide (key seen = key a)) = true ↔ key a ∈ kept.map key := by
    simp only [List.any_eq_true, decide_eq_true_eq, List.mem_map]
  unfold recordOnce
  by_cases h : key a ∈ kept.map key
  · rw [if_pos h, if_pos (hseen.mpr h)]
  · rw [if_neg h, if_neg (mt hseen.mp h), List.map_append, List.map_singleton]

/-- Nothing is kept that did not come in. -/
theorem mem_record {b : α} {l : List α} (h : b ∈ l.foldl (recordOnce key) kept) : b ∈ kept ∨ b ∈ l := by
  induction l generalizing kept with
  | nil => exact .inl h
  | cons a l ih =>
    rcases ih h with h | h
    · exact (mem_recordOnce h).imp_right fun h => List.mem_cons.mpr (.inl h)
    · exact .inr (List.mem_cons_of_mem _ h)

/-- The keys are those that came in. -/
theorem mem_map_record {k : κ} {l : List α} :
    k ∈ (l.foldl (recordOnce key) kept).map key ↔ k ∈ kept.map key ∨ k ∈ l.map key := by
  induction l generalizing kept with
  | nil => rw [List.foldl_nil, List.map_nil, or_iff_left List.not_mem_nil]
  | cons a l ih =>
    rw [List.foldl_cons, ih, map_recordOnce, List.map_cons, List.mem_cons]
    split
    case isTrue hseen =>
      refine ⟨fun h => h.imp_right .inr, fun h => ?_⟩
      rcases h with h | rfl | h
      · exact .inl h
      · exact .inl hseen
      · exact .inr h
    case isFalse => rw [List.mem_append, List.mem_singleton, or_assoc]

/-- No key is kept twice. -/
theorem nodup_record {l : List α} (h : (kept.map key).Nodup) : ((l.foldl (recordOnce key) kept).map key).Nodup := by
  induction l generalizing kept with
  | nil => exact h
  | cons a l ih =>
    refine ih ?_
    rw [map_recordOnce]
    split
    case isTrue => exact h
    case isFalse hnew => exact List.nodup_append'.mpr ⟨h, List.nodup_singleton _, by simpa using hnew⟩

/-- Answers that are their own keys. -/
theorem mem_record_id {k : κ} {l : List κ} : k ∈ l.foldl (recordOnce id) [] ↔ k ∈ l := by
  have h : k ∈ (l.foldl (recordOnce id) []).map id ↔ k ∈ ([] : List κ).map id ∨ k ∈ l.map id := mem_map_record
  simpa only [List.map_id, List.map_nil, List.not_mem_nil, false_or] using h

theorem nodup_record_id (l : List κ) : (l.foldl (recordOnce id) []).Nodup := by
  have h : ((l.foldl (recordOnce id) []).map id).Nodup := nodup_record List.nodup_nil
  rwa [List.map_id] at h

theorem record_eq_nil {l : List α} (h : l.foldl (recordOnce key) kept = []) : kept = [] ∧ l = [] := by
  induction l generalizing kept with
  | nil => exact ⟨h, rfl⟩
  | cons a l ih =>
    have hnone := congrArg (List.map key) (ih h).1
    rw [map_recordOnce, List.map_nil] at hnone
    split at hnone
    case isTrue hseen => exact absurd (hnone ▸ hseen) List.not_mem_nil
    case isFalse => exact absurd hnone (List.append_ne_nil_of_right_ne_nil _ (List.cons_ne_nil _ _))

/-! ## Collecting what was said under each key -/

/-- Adds one thing said to those under its key. -/
def collect : List (κ × List μ) → κ × μ → List (κ × List μ)
  | [], said => [(said.1, [said.2])]
  | group :: groups, said =>
    if group.1 = said.1 then (group.1, group.2 ++ [said.2]) :: groups else group :: collect groups said

def collectAll (l : List (κ × μ)) : List (κ × List μ) := l.foldl collect []

/-- What was said under a key. -/
def saidOf (l : List (κ × μ)) (k : κ) : List μ := (l.filter fun said => said.1 = k).map Prod.snd

theorem mem_saidOf {l : List (κ × μ)} {k : κ} {m : μ} : m ∈ saidOf l k ↔ (k, m) ∈ l := by
  simp [saidOf]

theorem saidOf_concat (l : List (κ × μ)) (k : κ) (said : κ × μ) :
    saidOf (l ++ [said]) k = if said.1 = k then saidOf l k ++ [said.2] else saidOf l k := by
  unfold saidOf
  rw [List.filter_append, List.filter_singleton]
  by_cases h : said.1 = k
  · simp [h]
  · simp [h]

theorem saidOf_eq_nil {l : List (κ × μ)} {k : κ} (h : k ∉ l.map Prod.fst) : saidOf l k = [] := by
  refine List.eq_nil_iff_forall_not_mem.mpr fun m hm => ?_
  rw [mem_saidOf] at hm
  exact h (List.mem_map.mpr ⟨(k, m), hm, rfl⟩)

section Collect

variable {keys : List κ} {f : κ → List μ} {k₀ : κ} {m : μ}

theorem collect_of_not_mem (h : k₀ ∉ keys) :
    collect (keys.map fun k => (k, f k)) (k₀, m) = (keys.map fun k => (k, f k)) ++ [(k₀, [m])] := by
  induction keys with
  | nil => rfl
  | cons k keys ih =>
    rw [List.mem_cons, not_or] at h
    rw [List.map_cons, collect, if_neg (Ne.symm h.1), ih h.2, List.cons_append]

theorem collect_of_mem (hnodup : keys.Nodup) (h : k₀ ∈ keys) :
    collect (keys.map fun k => (k, f k)) (k₀, m) =
      keys.map fun k => (k, if k₀ = k then f k ++ [m] else f k) := by
  induction keys with
  | nil => cases h
  | cons k keys ih =>
    obtain ⟨hk, hrest⟩ := List.nodup_cons.mp hnodup
    rw [List.map_cons, collect, List.map_cons]
    by_cases hsame : k = k₀
    · subst hsame
      have hothers : (keys.map fun j => (j, f j)) = keys.map fun j => (j, if k = j then f j ++ [m] else f j) := by
        refine List.map_congr_left fun j hj => ?_
        rw [if_neg fun heq : k = j => hk (heq ▸ hj)]
      rw [if_pos rfl, if_pos rfl, hothers]
    · rw [if_neg hsame, if_neg (Ne.symm hsame), ih hrest ((List.mem_cons.mp h).resolve_left (Ne.symm hsame))]

end Collect

/-- **What is collected**: under each key that came up, everything that was said under it. -/
theorem collectAll_eq (l : List (κ × μ)) :
    collectAll l = ((l.map Prod.fst).foldl (recordOnce id) []).map fun k => (k, saidOf l k) := by
  induction l using List.reverseRecOn with
  | nil => rfl
  | append_singleton l said ih =>
    obtain ⟨k₀, m⟩ := said
    have hkeys := nodup_record_id (l.map Prod.fst)
    have hsaid : ∀ k, saidOf (l ++ [(k₀, m)]) k = if k₀ = k then saidOf l k ++ [m] else saidOf l k :=
      fun k => saidOf_concat l k (k₀, m)
    have hstep := map_recordOnce id ((l.map Prod.fst).foldl (recordOnce id) []) k₀
    rw [List.map_id, List.map_id] at hstep
    rw [collectAll, List.foldl_concat, ← collectAll, ih, List.map_append, List.map_singleton, List.foldl_concat, hstep]
    simp only [hsaid, id_eq]
    by_cases hold : k₀ ∈ (l.map Prod.fst).foldl (recordOnce id) []
    · rw [if_pos hold, collect_of_mem hkeys hold]
    · have hothers : (((l.map Prod.fst).foldl (recordOnce id) []).map fun k => (k, saidOf l k)) =
          ((l.map Prod.fst).foldl (recordOnce id) []).map fun k =>
            (k, if k₀ = k then saidOf l k ++ [m] else saidOf l k) := by
        refine List.map_congr_left fun k hk => ?_
        rw [if_neg fun heq : k₀ = k => hold (heq ▸ hk)]
      have hnew : k₀ ∉ l.map Prod.fst := by rwa [mem_record_id] at hold
      rw [if_neg hold, collect_of_not_mem hold, List.map_append, List.map_singleton, if_pos rfl, hothers,
        saidOf_eq_nil hnew, List.nil_append]

theorem mem_collectAll {l : List (κ × μ)} {k : κ} {ms : List μ} :
    (k, ms) ∈ collectAll l ↔ ms = saidOf l k ∧ ms ≠ [] := by
  rw [collectAll_eq, List.mem_map]
  constructor
  · rintro ⟨k', hk', hpair⟩
    obtain ⟨rfl, rfl⟩ := Prod.mk.inj hpair
    rw [mem_record_id] at hk'
    obtain ⟨⟨_, m⟩, hsaid, rfl⟩ := List.mem_map.mp hk'
    rw [← mem_saidOf] at hsaid
    exact ⟨rfl, List.ne_nil_of_mem hsaid⟩
  · rintro ⟨rfl, hne⟩
    obtain ⟨m, hm⟩ := List.exists_mem_of_ne_nil _ hne
    rw [mem_saidOf] at hm
    refine ⟨k, ?_, rfl⟩
    rw [mem_record_id]
    exact List.mem_map.mpr ⟨(k, m), hm, rfl⟩

/-- Something is said twice under a key exactly if two different things are, where nothing is said again. -/
theorem exists_collected_iff {l : List (κ × μ)} (hnodup : l.Nodup) (k : κ) :
    (∃ ms, (k, ms) ∈ (collectAll l).filter fun group => 1 < group.2.length) ↔
      ∃ a b, (k, a) ∈ l ∧ (k, b) ∈ l ∧ a ≠ b := by
  have hsaid : (saidOf l k).Nodup := by
    refine List.Nodup.map_on (fun x hx y hy hxy => ?_) (hnodup.filter _)
    have hx := (List.mem_filter.mp hx).2
    have hy := (List.mem_filter.mp hy).2
    exact Prod.ext ((of_decide_eq_true hx).trans (of_decide_eq_true hy).symm) hxy
  have hlong : (∃ ms, (k, ms) ∈ (collectAll l).filter fun group => 1 < group.2.length) ↔ 1 < (saidOf l k).length := by
    simp only [List.mem_filter, mem_collectAll, decide_eq_true_eq]
    constructor
    · rintro ⟨ms, ⟨rfl, -⟩, hlen⟩
      exact hlen
    · intro hlen
      exact ⟨_, ⟨rfl, List.ne_nil_of_length_pos (Nat.lt_of_succ_lt hlen)⟩, hlen⟩
  rw [hlong]
  constructor
  · intro hlen
    match hms : saidOf l k with
    | [] => rw [hms] at hlen; exact absurd hlen (Nat.not_lt_zero 1)
    | [m] => rw [hms] at hlen; exact absurd hlen (Nat.lt_irrefl 1)
    | a :: b :: ms =>
      rw [hms] at hsaid
      have ha : a ∈ saidOf l k := by rw [hms]; exact List.mem_cons_self
      have hb : b ∈ saidOf l k := by rw [hms]; exact List.mem_cons_of_mem _ List.mem_cons_self
      rw [mem_saidOf] at ha hb
      refine ⟨a, b, ha, hb, ?_⟩
      rintro rfl
      exact (List.nodup_cons.mp hsaid).1 List.mem_cons_self
  · rintro ⟨a, b, ha, hb, hne⟩
    rw [← mem_saidOf] at ha hb
    match hms : saidOf l k with
    | [] => rw [hms] at ha; cases ha
    | [m] =>
      rw [hms] at ha hb
      exact absurd ((List.mem_singleton.mp ha).trans (List.mem_singleton.mp hb).symm) hne
    | _ :: _ :: _ => exact Nat.succ_lt_succ (Nat.succ_pos _)

end Idnx
