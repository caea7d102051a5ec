import Idnx.Lib.Dedup
import Idnx.Lib.Grouping
import Idnx.Output.Report

/-!
# Folding the accounts of a network

Every pass over a network gives an account of it, and a run folds the accounts into one (`NetworkReachability.merge`,
`recordReachability`). Which addresses answered, which were probed, how many probes never left and what state that
makes does not depend on how the accounts were put together. The number of answers shown is the length of a list,
which a merge rids of repetitions and a lone account brings as it is.
-/

namespace Idnx

namespace NetworkReachability

/-- A completed sweep; what answered is folded into what was probed. -/
def ofProbed (responders probed : List IpAddr) (notSent : Nat) (reasons : List Text) : NetworkReachability where
  responders := responders
  probed := probed.toFinset ∪ responders.toFinset
  notSent := notSent
  reasons := reasons
  discovery := []

/-- Nothing was probed, and why (`not_enumerated`). -/
def ofNotEnumerated (reason : Text) : NetworkReachability where
  responders := []
  probed := ∅
  notSent := 0
  reasons := [reason]
  discovery := []

/-- Records how the network came to be known. -/
def discoveredBy (r : NetworkReachability) (how : Text) : NetworkReachability :=
  { r with discovery := r.discovery ++ [how] }

/-- Folds another account of the same network into this one. -/
def merge (r other : NetworkReachability) : NetworkReachability where
  responders := ((r.responders ++ other.responders).insertionSort fun a b => a ≤ b).destutter (· ≠ ·)
  probed := r.probed ∪ other.probed
  notSent := r.notSent + other.notSent
  reasons := (r.reasons ++ other.reasons).destutter (· ≠ ·)
  discovery := (r.discovery ++ other.discovery).destutter (· ≠ ·)

end NetworkReachability

/-- What a network probed from here is called: the prefix, in this machine's domain. -/
def NetworkRef.ofProbed (net : IpNet) : NetworkRef := ⟨net, networkRealm net .localRealm⟩

/-- Folds one account into the run's; the first account of a network is kept as it is. -/
def recordOutcome (held : Map NetworkRef NetworkReachability) (produced : IpNet × NetworkReachability) :
    Map NetworkRef NetworkReachability :=
  held.upd (.ofProbed produced.1) fun
    | some held => held.merge produced.2
    | none => produced.2

/-- Folds what a provider reports of networks into the run's. -/
def recordReachability (held : Map NetworkRef NetworkReachability) (produced : List (IpNet × NetworkReachability)) :
    Map NetworkRef NetworkReachability :=
  produced.foldl recordOutcome held

/-- The accounts a provider can make: one of the two kinds, and then how the network came to be known. -/
inductive NetworkReachability.Made : NetworkReachability → Prop
  | ofProbed (responders probed : List IpAddr) (notSent : Nat) (reasons : List Text) :
    Made (.ofProbed responders probed notSent reasons)
  | ofNotEnumerated (reason : Text) : Made (.ofNotEnumerated reason)
  | discoveredBy {r : NetworkReachability} (how : Text) (h : Made r) : Made (r.discoveredBy how)

/-- Nobody makes an account in which an address answered that was not probed. -/
theorem NetworkReachability.Made.asked {r : NetworkReachability} (h : r.Made) : ∀ a ∈ r.responders, a ∈ r.probed := by
  induction h with
  | ofProbed responders probed notSent reasons =>
    exact fun a ha => Finset.mem_union_right _ (List.mem_toFinset.mpr ha)
  | ofNotEnumerated reason => exact nofun
  | discoveredBy how h ih => exact ih

/-! ## One merge -/

section Merge

variable {r other : NetworkReachability}

theorem mem_responders_merge {a : IpAddr} :
    a ∈ (r.merge other).responders ↔ a ∈ r.responders ∨ a ∈ other.responders := by
  unfold NetworkReachability.merge
  rw [mem_destutter_ne, List.mem_insertionSort, List.mem_append]

theorem mem_probed_merge {a : IpAddr} : a ∈ (r.merge other).probed ↔ a ∈ r.probed ∨ a ∈ other.probed :=
  Finset.mem_union

/-- A sorted list has no address come back. -/
theorem nodup_destutter_sorted {l : List IpAddr} (hsorted : l.Pairwise (· ≤ ·)) : (l.destutter (· ≠ ·)).Nodup := by
  have hnodup := (nodup_destutter_iff id l).mpr ?_
  · simpa using hnodup
  · rintro ⟨a, b, c, hsub, hac, hba⟩
    have hordered := hsorted.sublist hsub
    simp only [List.pairwise_cons, List.mem_cons, List.not_mem_nil, or_false, forall_eq_or_imp, forall_eq] at hordered
    have hcb : b ≤ a := by
      rw [show a = c from hac]
      exact hordered.2.1
    exact hba (le_antisymm hcb hordered.1.1)

theorem nodup_responders_merge (r other : NetworkReachability) : (r.merge other).responders.Nodup :=
  nodup_destutter_sorted (List.pairwise_insertionSort _ _)

end Merge

/-! ## Every order and grouping -/

/-- What the account of a network owes to the passes it was put together from. -/
structure HonestAccount (passes : List NetworkReachability) : Prop where
  /-- The order and grouping do not matter. -/
  same : ∀ t t' : Grouping NetworkReachability, t.items.Perm passes → t'.items.Perm passes →
    (t.value .merge).responders.toFinset = (t'.value .merge).responders.toFinset ∧
    (t.value .merge).probed = (t'.value .merge).probed ∧ (t.value .merge).notSent = (t'.value .merge).notSent ∧
    (t.value .merge).state = (t'.value .merge).state
  /-- Who answered was asked. -/
  asked : ∀ t : Grouping NetworkReachability, t.items.Perm passes →
    ∀ a ∈ (t.value .merge).responders, a ∈ (t.value .merge).probed
  /-- No more answers are counted than addresses probed. -/
  counted : ∀ t : Grouping NetworkReachability, t.items.Perm passes →
    (t.value .merge).responders.length ≤ (t.value .merge).attempted
  reachable : ∀ t : Grouping NetworkReachability, t.items.Perm passes →
    ((t.value .merge).state = .reachable ↔ ∃ p ∈ passes, p.responders ≠ [])
  /-- What a run records of a network is one of these. -/
  recorded : ∀ (produced : List (IpNet × NetworkReachability)) (network : NetworkRef) (outcome : NetworkReachability),
    ((produced.filter fun e => NetworkRef.ofProbed e.1 = network).map Prod.snd).Perm passes →
    (recordReachability ∅ produced).lookup network = some outcome →
    ∃ t : Grouping NetworkReachability, t.items.Perm passes ∧ t.value .merge = outcome

section Groupings

variable {t t' : Grouping NetworkReachability} {passes : List NetworkReachability}

theorem mem_responders_value {a : IpAddr} : a ∈ (t.value .merge).responders ↔ ∃ p ∈ t.items, a ∈ p.responders :=
  t.holds_value_iff (P := fun r => a ∈ r.responders) fun _ _ => mem_responders_merge

theorem mem_probed_value {a : IpAddr} : a ∈ (t.value .merge).probed ↔ ∃ p ∈ t.items, a ∈ p.probed :=
  t.holds_value_iff (P := fun r => a ∈ r.probed) fun _ _ => mem_probed_merge

theorem notSent_value : (t.value .merge).notSent = (t.items.map NetworkReachability.notSent).sum :=
  t.sum_value fun _ _ => rfl

/-- The state says no more than who answered and who was asked. -/
theorem state_congr {r r' : NetworkReachability} (hresponders : r.responders.toFinset = r'.responders.toFinset)
    (hprobed : r.probed = r'.probed) : r.state = r'.state := by
  have hempty : r.responders.isEmpty = r'.responders.isEmpty := by
    rw [Bool.eq_iff_iff, List.isEmpty_iff, List.isEmpty_iff, ← List.toFinset_eq_empty_iff, hresponders,
      List.toFinset_eq_empty_iff]
  unfold NetworkReachability.state
  rw [hempty, hprobed]

theorem state_eq_reachable {r : NetworkReachability} : r.state = .reachable ↔ r.responders ≠ [] := by
  unfold NetworkReachability.state
  cases r.responders with
  | nil => by_cases h : r.probed.Nonempty <;> simp [h]
  | cons a l => simp

theorem value_same (h : t.items.Perm t'.items) :
    (t.value .merge).responders.toFinset = (t'.value .merge).responders.toFinset ∧
    (t.value .merge).probed = (t'.value .merge).probed ∧ (t.value .merge).notSent = (t'.value .merge).notSent ∧
    (t.value .merge).state = (t'.value .merge).state := by
  have hresponders : (t.value .merge).responders.toFinset = (t'.value .merge).responders.toFinset := by
    ext a
    simp only [List.mem_toFinset, mem_responders_value, h.mem_iff]
  have hprobed : (t.value .merge).probed = (t'.value .merge).probed := by
    ext a
    simp only [mem_probed_value, h.mem_iff]
  refine ⟨hresponders, hprobed, ?_, state_congr hresponders hprobed⟩
  rw [notSent_value, notSent_value]
  exact (h.map _).sum_eq

theorem value_reachable : (t.value .merge).state = .reachable ↔ ∃ p ∈ t.items, p.responders ≠ [] := by
  rw [state_eq_reachable]
  refine t.holds_value_iff (P := fun r => r.responders ≠ []) fun r other => ?_
  simp only [ne_eq, List.eq_nil_iff_forall_not_mem, mem_responders_merge, not_forall, not_not, exists_or]

end Groupings

/-! ## What a run records -/

section Record

variable {network : NetworkRef}

/-- The accounts of one network, in the order they came in. -/
def accountsOf (network : NetworkRef) (produced : List (IpNet × NetworkReachability)) : List NetworkReachability :=
  (produced.filter fun e => NetworkRef.ofProbed e.1 = network).map Prod.snd

theorem accountsOf_cons_of_eq {e : IpNet × NetworkReachability} (produced : List (IpNet × NetworkReachability))
    (he : NetworkRef.ofProbed e.1 = network) :
    accountsOf network (e :: produced) = e.2 :: accountsOf network produced := by
  rw [accountsOf, List.filter_cons_of_pos (by simpa using he)]
  rfl

theorem accountsOf_cons_of_ne {e : IpNet × NetworkReachability} (produced : List (IpNet × NetworkReachability))
    (he : NetworkRef.ofProbed e.1 ≠ network) : accountsOf network (e :: produced) = accountsOf network produced := by
  rw [accountsOf, List.filter_cons_of_neg (by simpa using he)]
  rfl

theorem lookup_recordOutcome_of_eq {held : Map NetworkRef NetworkReachability} {e : IpNet × NetworkReachability}
    (he : NetworkRef.ofProbed e.1 = network) :
    (recordOutcome held e).lookup network = some (((held.lookup network).map (·.merge e.2)).getD e.2) := by
  unfold recordOutcome
  rw [Map.lookup_upd, if_pos he.symm, he]
  cases held.lookup network <;> rfl

theorem lookup_recordOutcome_of_ne {held : Map NetworkRef NetworkReachability} {e : IpNet × NetworkReachability}
    (he : NetworkRef.ofProbed e.1 ≠ network) : (recordOutcome held e).lookup network = held.lookup network := by
  unfold recordOutcome
  rw [Map.lookup_upd, if_neg (Ne.symm he)]

theorem lookup_recordReachability_of_held {held : Map NetworkRef NetworkReachability} {r : NetworkReachability}
    (produced : List (IpNet × NetworkReachability)) (h : held.lookup network = some r) :
    (recordReachability held produced).lookup network = some ((accountsOf network produced).foldl .merge r) := by
  induction produced generalizing held r with
  | nil => exact h
  | cons e produced ih =>
    show (recordReachability (recordOutcome held e) produced).lookup network = _
    by_cases he : NetworkRef.ofProbed e.1 = network
    · have hstep : (recordOutcome held e).lookup network = some (r.merge e.2) := by
        rw [lookup_recordOutcome_of_eq he, h]
        rfl
      rw [ih hstep, accountsOf_cons_of_eq produced he]
      rfl
    · rw [ih ((lookup_recordOutcome_of_ne he).trans h), accountsOf_cons_of_ne produced he]

/-- The first account of a network is kept as it is, and the others are merged into it in turn. -/
theorem lookup_recordReachability {held : Map NetworkRef NetworkReachability}
    (produced : List (IpNet × NetworkReachability)) (h : held.lookup network = none) :
    (recordReachability held produced).lookup network =
      (accountsOf network produced).head?.map fun first => (accountsOf network produced).tail.foldl .merge first := by
  induction produced generalizing held with
  | nil => exact h
  | cons e produced ih =>
    show (recordReachability (recordOutcome held e) produced).lookup network = _
    by_cases he : NetworkRef.ofProbed e.1 = network
    · have hstep : (recordOutcome held e).lookup network = some e.2 := by
        rw [lookup_recordOutcome_of_eq he, h]
        rfl
      rw [lookup_recordReachability_of_held produced hstep, accountsOf_cons_of_eq produced he]
      rfl
    · rw [ih ((lookup_recordOutcome_of_ne he).trans h), accountsOf_cons_of_ne produced he]

theorem exists_grouping_of_recorded {produced : List (IpNet × NetworkReachability)} {outcome : NetworkReachability}
    (h : (recordReachability ∅ produced).lookup network = some outcome) :
    ∃ t : Grouping NetworkReachability, t.items = accountsOf network produced ∧ t.value .merge = outcome := by
  rw [lookup_recordReachability produced rfl] at h
  cases haccounts : accountsOf network produced with
  | nil =>
    rw [haccounts] at h
    cases h
  | cons first rest =>
    rw [haccounts] at h
    obtain ⟨t, hitems, hvalue⟩ := (Grouping.single first).exists_grouping_foldl NetworkReachability.merge rest
    refine ⟨t, hitems, ?_⟩
    rw [hvalue]
    exact Option.some.inj h

end Record

/-! ## The count of answers -/

/-- **When the account of a network is honest**: exactly when every address that answered some pass was probed by one,
and a pass that stays alone lists no more answers than it probed addresses. -/
theorem honestAccount_iff (passes : List NetworkReachability) :
    HonestAccount passes ↔
      (∀ p ∈ passes, ∀ a ∈ p.responders, ∃ q ∈ passes, a ∈ q.probed) ∧
        ∀ p, passes = [p] → p.responders.length ≤ p.probed.card := by
  constructor
  · intro h
    constructor
    · intro p hp a ha
      -- any grouping will do: take the passes in their own order
      cases passes with
      | nil => cases hp
      | cons first rest =>
        obtain ⟨t, hitems, -⟩ := (Grouping.single first).exists_grouping_foldl NetworkReachability.merge rest
        have hperm : t.items.Perm (first :: rest) := by
          rw [hitems]
          exact List.Perm.refl _
        have hprobed := h.asked t hperm a (mem_responders_value.mpr ⟨p, hperm.mem_iff.mpr hp, ha⟩)
        obtain ⟨q, hq, haq⟩ := mem_probed_value.mp hprobed
        exact ⟨q, hperm.mem_iff.mp hq, haq⟩
    · rintro p rfl
      exact h.counted (.single p) (List.Perm.refl _)
  · rintro ⟨hasked, hlone⟩
    have hsubset : ∀ t : Grouping NetworkReachability, t.items.Perm passes →
        ∀ a ∈ (t.value .merge).responders, a ∈ (t.value .merge).probed := by
      intro t ht a ha
      obtain ⟨p, hp, hap⟩ := mem_responders_value.mp ha
      obtain ⟨q, hq, haq⟩ := hasked p (ht.mem_iff.mp hp) a hap
      exact mem_probed_value.mpr ⟨q, ht.mem_iff.mpr hq, haq⟩
    refine ⟨fun t t' ht ht' => value_same (ht.trans ht'.symm), hsubset, ?_, ?_, ?_⟩
    · intro t ht
      rcases t.value_of_join (P := fun r => r.responders.Nodup) nodup_responders_merge with ⟨p, rfl⟩ | hnodup
      · exact hlone p (List.perm_singleton.mp ht.symm)
      · rw [← List.toFinset_card_of_nodup hnodup]
        refine Finset.card_le_card fun a ha => ?_
        exact hsubset t ht a (List.mem_toFinset.mp ha)
    · intro t ht
      rw [value_reachable]
      simp only [ht.mem_iff]
    · intro produced network outcome hperm hlookup
      obtain ⟨t, hitems, hvalue⟩ := exists_grouping_of_recorded hlookup
      refine ⟨t, ?_, hvalue⟩
      rw [hitems]
      exact hperm

/-- A sweep that lists one address twice among those that answered. -/
theorem answers_counted_twice :
    let pass := NetworkReachability.ofProbed [.v4 (.new 192 0 2 5), .v4 (.new 192 0 2 5)] [.v4 (.new 192 0 2 5)] 0 []
    ¬ HonestAccount [pass] ∧ pass.responders.length = 2 ∧ pass.attempted = 1 := by
  intro pass
  refine ⟨fun h => ?_, rfl, rfl⟩
  have hcount := h.counted (.single pass) (List.Perm.refl _)
  revert hcount
  decide

end Idnx
