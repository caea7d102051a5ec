import Idnx.Topology.Fresh

/-!
# An owner that has answered

A hardware identity that owns a slot and has answered for it keeps the slot against every weaker claim
(`fresh_owner_stays`). What it may lose is its defence: the freshness on record, when it relapses, and the address
itself, when the same address is set aside in another slot. `fresh_owner_defended` says that these are the only two
ways, over whole runs with merges in between.
-/

namespace Idnx

/-- `k` has answered for the slot at some point of the run. -/
def Shown (ops : List GraphOp) (s : Slot) (k : DeviceKey) : Prop :=
  ∃ before ev after, ops = before ++ GraphOp.absorb ev :: after ∧ (build before).claimOf ev = some (s, k) ∧
    bindingFreshness ev.source = freshnessConfirmed

/-- The node of `k` has the address of the slot, and the binding on record is as fresh as an answer. -/
def Defended (g : TopologyGraph) (s : Slot) (k : DeviceKey) : Prop :=
  HoldsAddress g k s.address ∧ (g.addressBinding.lookup s).map bindingFreshness = some freshnessConfirmed

/-- The operation absorbs a record by which `k` relapses or has the address of the slot set aside. -/
def Undermines (g : TopologyGraph) (s : Slot) (k : DeviceKey) : GraphOp → Prop
  | .absorb ev => Relapses g s k ev ∨ SetsAside g k s.address ev
  | .merge => False
  | .finalize => False

instance (g : TopologyGraph) (s : Slot) (k : DeviceKey) (op : GraphOp) : Decidable (Undermines g s k op) :=
  match op with
  | .absorb ev => inferInstanceAs (Decidable (Relapses g s k ev ∨ SetsAside g k s.address ev))
  | .merge => isFalse id
  | .finalize => isFalse id

section Steps

variable {g : TopologyGraph} {s : Slot} {k : DeviceKey}

theorem shown_concat {ops : List GraphOp} {op : GraphOp} :
    Shown (ops ++ [op]) s k ↔ Shown ops s k ∨ ∃ ev, op = .absorb ev ∧ (build ops).claimOf ev = some (s, k) ∧
      bindingFreshness ev.source = freshnessConfirmed := by
  constructor
  · rintro ⟨before, ev, after, he, hc, hf⟩
    rcases List.eq_nil_or_concat after with rfl | ⟨after, last, rfl⟩
    · obtain ⟨rfl, h⟩ := List.append_inj' he rfl
      cases h
      exact .inr ⟨ev, rfl, hc, hf⟩
    · refine .inl ⟨before, ev, after, ?_, hc, hf⟩
      rw [List.concat_eq_append, ← List.cons_append, ← List.append_assoc] at he
      exact (List.append_inj' he rfl).1
  · rintro (⟨before, ev, after, rfl, hc, hf⟩ | ⟨ev, rfl, hc, hf⟩)
    · exact ⟨before, ev, after ++ [op], by simp, hc, hf⟩
    · exact ⟨ops, ev, [], rfl, hc, hf⟩

/-- Who owns the slot after an operation claimed it, or owned it before. -/
theorem owner_apply (hinv : SlotInv g) {op : GraphOp} (ho : (op.apply g).addressOwner.lookup s = some k) :
    (∃ ev, op = .absorb ev ∧ g.claimOf ev = some (s, k)) ∨ g.addressOwner.lookup s = some k := by
  obtain ⟨since, ht⟩ := tenure_of_owner (slotInv_apply hinv op) ho
  rw [tenure_apply hinv] at ht
  cases op with
  | absorb ev =>
    simp only [GraphOp.claimed, TopologyGraph.claimed] at ht
    cases hc : g.claimOf ev with
    | none => rw [hc] at ht; exact .inr (owner_of_tenure hinv ht).1
    | some sk =>
      obtain ⟨slot, key⟩ := sk
      rw [hc] at ht
      dsimp only at ht
      split_ifs at ht with hs
      · subst hs
        by_cases hk : key = k
        · subst hk; exact .inl ⟨ev, rfl, hc⟩
        · exact .inr (owner_of_tenure hinv (Tenure.claim_held_of_ne ht hk)).1
      · exact .inr (owner_of_tenure hinv ht).1
  | merge => exact .inr (owner_of_tenure hinv ht).1
  | finalize => exact .inr (owner_of_tenure hinv ht).1

/-- A claimant that owns the slot afterwards has the address. -/
theorem holdsAddress_of_claim (hinv : SlotInv g) {ev : TopologyEvidence} (hc : g.claimOf ev = some (s, k))
    (ho : (g.absorb ev).addressOwner.lookup s = some k) : HoldsAddress (g.absorb ev) k s.address := by
  -- the mark on the claimant's node could only set the address aside, and then the holder would own the slot
  have hmark : ∀ holder, g.claimMark s k ev.source k ≠ .setAside holder := by
    intro holder' hm
    obtain ⟨slot', key', holder, he, -, hcon, hown, h⟩ : SetsAside g k s.address ev :=
      (setsAside_iff hc).mpr ⟨rfl, holder', hm⟩
    rw [hc] at he
    cases he
    obtain ⟨since, ht⟩ := tenure_of_owner hinv hown
    have hb := (owner_of_tenure hinv ht).2
    rw [hb] at h
    obtain ⟨since', ht'⟩ := tenure_of_owner (slotInv_apply hinv (.absorb ev)) ho
    have hclaim : (Tenure.held holder since).claim bindingPolicy k ev.source = .held k since' := by
      rw [← ht', ← ht]
      show _ = (g.absorb ev).tenure s
      rw [TopologyGraph.tenure_absorb hinv, TopologyGraph.claimed, hc]
      exact (if_pos rfl).symm
    rcases h with ⟨-, hr⟩ | ⟨rfl, hr⟩
    · rcases resolveClaim_cases holder k since ev.source with h | h | h | h | h | h
      · rw [h.1] at hr; cases hr
      · rw [h.1] at hr; cases hr
      · rw [h.1] at hr; cases hr
      · rw [h.1] at hr; cases hr
      · rw [h.2.2.2.2] at hclaim
        cases hclaim
        exact h.2.1 rfl
      · rw [h.1] at hr; cases hr
    · simp [resolveClaim] at hr
  obtain ⟨n, hn⟩ : ∃ n, (g.upsert (.device k) .host ev.confidence (.fromEvidence ev)).nodes.lookup
    (.device k) = some n :=
    ⟨_, by rw [TopologyGraph.lookup_upsert, if_pos rfl]⟩
  rw [TopologyGraph.absorb_of_claimOf hc]
  unfold HoldsAddress
  rw [TopologyGraph.lookup_settleClaim, hn]
  refine ⟨_, rfl, ?_⟩
  have hkeep : g.claimMark s k ev.source k ≠ .keep := by
    unfold TopologyGraph.claimMark
    split
    · simp
    · simp
    · split <;> simp
  show _ ∈ (Mark.apply _ _ n (g.claimMark s k ev.source k)).addresses
  rw [Mark.mem_addresses]
  cases hm : g.claimMark s k ev.source k with
  | keep => exact absurd hm hkeep
  | hold => exact .inl rfl
  | contest => exact .inl rfl
  | setAside holder => exact absurd hm (hmark holder)

/-- The address stays unless the operation undermines it. -/
theorem holdsAddress_apply (hk : k.isMac = true) (h : HoldsAddress g k s.address) {op : GraphOp}
    (hu : ¬Undermines g s k op) : HoldsAddress (op.apply g) k s.address := by
  cases op with
  | absorb ev => exact (holdsAddress_absorb h).mpr fun hs => hu (.inr hs)
  | merge => exact holdsAddress_merge hk h
  | finalize => exact holdsAddress_rekind _ (holdsAddress_rekind _ (holdsAddress_merge hk h))

/-- An operation keeps on record that `k` has answered, unless `k` relapses. -/
theorem records_apply {J : Set DeviceKey} (hinv : SlotInv g) (hJ : ∀ j ∈ J, j.isMac = true)
    (hr : (g.tenure s).Records bindingPolicy J) (op : GraphOp)
    (hl : ∀ ev, op = .absorb ev → ∀ j ∈ J, ¬Relapses g s j ev) :
    ((op.apply g).tenure s).Records bindingPolicy
      {j | j ∈ J ∨ ∃ ev, op = .absorb ev ∧ g.claimOf ev = some (s, j) ∧ j.isMac = true ∧
        bindingFreshness ev.source = freshnessConfirmed} := by
  cases op with
  | absorb ev =>
    refine (records_absorb hinv hJ hr (hl ev rfl)).mono ?_
    rintro j (hj | ⟨ev', he, h⟩)
    · exact .inl hj
    · cases he; exact .inr h
  | merge =>
    rw [tenure_apply hinv]
    refine hr.mono ?_
    rintro j (hj | ⟨ev', he, -⟩)
    · exact hj
    · cases he
  | finalize =>
    rw [tenure_apply hinv]
    refine hr.mono ?_
    rintro j (hj | ⟨ev', he, -⟩)
    · exact hj
    · cases he

/-- Nothing weaker than an answer takes a slot from hardware. -/
theorem owner_absorb_of_weak (hinv : SlotInv g) (hk : k.isMac = true) (ho : g.addressOwner.lookup s = some k)
    {ev : TopologyEvidence} (hw : ∀ key, g.claimOf ev = some (s, key) →
      bindingFreshness ev.source < freshnessConfirmed) :
    (g.absorb ev).addressOwner.lookup s = some k := by
  obtain ⟨since, ht⟩ := tenure_of_owner hinv ho
  have hinv' : SlotInv (g.absorb ev) := slotInv_apply hinv (.absorb ev)
  have ht' : ∃ since', (g.absorb ev).tenure s = .held k since' := by
    rw [TopologyGraph.tenure_absorb hinv]
    unfold TopologyGraph.claimed
    cases hc : g.claimOf ev with
    | none => exact ⟨since, ht⟩
    | some sk =>
      obtain ⟨slot, key⟩ := sk
      dsimp only
      split_ifs with hs
      · subst hs
        rw [ht]
        refine Tenure.claim_weak_holder hk (hw key hc) fun q hq => ?_
        have h₁ : bindingFreshness q ≤ 1 := by
          change bindingFreshness q < 2 at hq
          omega
        have h₂ : 1 ≤ bindingFreshness since := by cases since <;> decide
        exact h₁.trans h₂
      · exact ⟨since, ht⟩
  obtain ⟨since', ht'⟩ := ht'
  exact (owner_of_tenure hinv' ht').1

end Steps

/-! ## Runs -/

/-- The slot a record claims does not depend on the graph. -/
theorem statedClaim_of_claimOf {g : TopologyGraph} {ev : TopologyEvidence} {s : Slot} {key : DeviceKey}
    (h : g.claimOf ev = some (s, key)) : ∃ key', statedClaim ev = some (s, key') := by
  unfold TopologyGraph.claimOf at h
  unfold statedClaim
  split at h
  · rename_i d a hf
    cases h
    exact ⟨d, rfl⟩
  · cases h

/-- **An owner keeps its slot** whatever weaker claims arrive. -/
theorem fresh_owner_stays {ops : List GraphOp} {evs : List TopologyEvidence} {s : Slot} {k : DeviceKey}
    (hk : k.isMac = true) (ho : (build ops).addressOwner.lookup s = some k)
    (hw : ∀ ev ∈ evs, ∀ key, statedClaim ev = some (s, key) → bindingFreshness ev.source < freshnessConfirmed) :
    (build (ops ++ evs.map .absorb)).addressOwner.lookup s = some k := by
  induction evs using List.reverseRecOn with
  | nil => simpa using ho
  | append_singleton evs ev ih =>
    have hown := ih fun ev' hev' => hw ev' (by simp [hev'])
    rw [List.map_append, List.map_singleton, ← List.append_assoc, build_concat]
    refine owner_absorb_of_weak (slotInv_build _) hk hown fun key hc => ?_
    obtain ⟨key', hs⟩ := statedClaim_of_claimOf hc
    exact hw ev (by simp) key' hs

/-- **One operation** keeps the defence of an owner that has answered, unless it undermines it. -/
theorem defended_apply {h : List GraphOp} {op : GraphOp} {s : Slot} {k : DeviceKey} (hk : k.isMac = true)
    (hr : ((build h).tenure s).Records bindingPolicy {j | j = k ∧ Shown h s k})
    (hd : Shown h s k → (build h).addressOwner.lookup s = some k → Defended (build h) s k)
    (hu : Shown h s k → (build h).addressOwner.lookup s = some k → ¬Undermines (build h) s k op) :
    ((op.apply (build h)).tenure s).Records bindingPolicy {j | j = k ∧ Shown (h ++ [op]) s k} ∧
      (Shown (h ++ [op]) s k → (op.apply (build h)).addressOwner.lookup s = some k →
      Defended (op.apply (build h)) s k) := by
  have hinv := slotInv_build h
  have hrec : ((op.apply (build h)).tenure s).Records bindingPolicy {j | j = k ∧ Shown (h ++ [op]) s k} := by
    refine (records_apply hinv ?_ hr op ?_).mono ?_
    · rintro j ⟨rfl, -⟩
      exact hk
    · rintro ev rfl j ⟨rfl, hs⟩ hl
      exact hu hs hl.2.2.1 (.inl hl)
    · rintro j ⟨rfl, hs⟩
      rcases shown_concat.mp hs with hs | ⟨ev, rfl, hc, hf⟩
      · exact .inl ⟨rfl, hs⟩
      · exact .inr ⟨ev, rfl, hc, hk, hf⟩
  refine ⟨hrec, fun hs ho => ⟨?_, ?_⟩⟩
  · by_cases hc : ∃ ev, op = .absorb ev ∧ (build h).claimOf ev = some (s, k)
    · obtain ⟨ev, rfl, hc⟩ := hc
      exact holdsAddress_of_claim hinv hc ho
    · -- the owner was the owner before, and had answered before
      have ho' : (build h).addressOwner.lookup s = some k := by
        rcases owner_apply hinv ho with h | h
        · exact absurd h hc
        · exact h
      have hs' : Shown h s k := by
        rcases shown_concat.mp hs with hs | ⟨ev, he, hcl, -⟩
        · exact hs
        · exact absurd ⟨ev, he, hcl⟩ hc
      exact holdsAddress_apply hk (hd hs' ho').1 (hu hs' ho')
  · obtain ⟨since, ht⟩ := tenure_of_owner (slotInv_apply hinv op) ho
    rw [ht] at hrec
    rw [(owner_of_tenure (slotInv_apply hinv op) ht).2]
    exact congrArg some (hrec k ⟨rfl, hs⟩).2

/-- An operation that undermines the defence of an owner breaks it. -/
theorem not_undermines_of_defended {h : List GraphOp} {op : GraphOp} {s : Slot} {k : DeviceKey}
    (ho : (build h).addressOwner.lookup s = some k) (hd : Defended (build h) s k)
    (hd' : (op.apply (build h)).addressOwner.lookup s = some k → Defended (op.apply (build h)) s k) :
    ¬Undermines (build h) s k op := by
  have hinv := slotInv_build h
  obtain ⟨since, ht⟩ := tenure_of_owner hinv ho
  have hb := (owner_of_tenure hinv ht).2
  cases op with
  | merge => exact fun hf => hf
  | finalize => exact fun hf => hf
  | absorb ev =>
    have hinv' : SlotInv ((build h).absorb ev) := slotInv_apply hinv (.absorb ev)
    rintro (⟨hc, hw, -, -⟩ | ⟨slot, key, holder, hc, ha, hcon, hown, hres⟩)
    · -- a relapse leaves a weaker binding behind
      have ht' : ((build h).absorb ev).tenure s = .held k ev.source := by
        rw [TopologyGraph.tenure_absorb hinv, TopologyGraph.claimed, hc]
        dsimp only
        rw [if_pos rfl, ht, Tenure.claim_self]
      obtain ⟨ho', hb'⟩ := owner_of_tenure hinv' ht'
      have hfresh := (hd' ho').2
      change Option.map bindingFreshness (((build h).absorb ev).addressBinding.lookup s) = _ at hfresh
      rw [hb', Option.map_some, Option.some.injEq] at hfresh
      omega
    · have hslot : slot ≠ s := by
        rintro rfl
        rw [ho] at hown
        cases hown
        rcases hres with ⟨rfl, hr⟩ | ⟨-, hr⟩
        · simp [resolveClaim] at hr
        · -- no claim outranks an answer
          have hsince : bindingFreshness since = freshnessConfirmed := by
            have := hd.2
            rwa [hb, Option.map_some, Option.some.injEq] at this
          rw [hb] at hr
          rcases resolveClaim_cases k key since ev.source with h | h | h | h | h | h
          · rw [h.1] at hr; cases hr
          · rw [h.1] at hr; cases hr
          · rw [h.1] at hr; cases hr
          · have hle := bindingPolicy.rank_le ev.source
            have hlt := h.2.2.2.1
            change bindingFreshness ev.source ≤ freshnessConfirmed at hle
            omega
          · rw [h.1] at hr; cases hr
          · rw [h.1] at hr; cases hr
      have ht' : ((build h).absorb ev).tenure s = .held k since := by
        rw [TopologyGraph.tenure_absorb hinv, TopologyGraph.claimed, hc]
        dsimp only
        rw [if_neg (Ne.symm hslot), ht]
      have hholds : HoldsAddress ((build h).absorb ev) k s.address := (hd' (owner_of_tenure hinv' ht').1).1
      exact (holdsAddress_absorb hd.1).mp hholds ⟨slot, key, holder, hc, ha, hcon, hown, hres⟩

/-- **A remembered claim never displaces a fresh one.** An owner that has answered stays the owner; and all along the
run its node has the address and its binding stays fresh if and only if no step undermines it. -/
theorem fresh_owner_defended (ops : List GraphOp) (evs : List TopologyEvidence) {s : Slot} {k : DeviceKey}
    (hk : k.isMac = true) (ho : (build ops).addressOwner.lookup s = some k)
    (hw : ∀ ev ∈ evs, ∀ key, statedClaim ev = some (s, key) → bindingFreshness ev.source < freshnessConfirmed) :
    (build (ops ++ evs.map .absorb)).addressOwner.lookup s = some k ∧
    (Always GraphOp.apply (fun h g => Shown h s k → g.addressOwner.lookup s = some k → Defended g s k) .new
        (ops ++ evs.map .absorb) ↔
      Along GraphOp.apply (fun h g op => Shown h s k → g.addressOwner.lookup s = some k → ¬Undermines g s k op) .new
        (ops ++ evs.map .absorb)) := by
  refine ⟨fresh_owner_stays hk ho hw, fun hP => ?_, fun hC => ?_⟩
  · refine along_of_always (fun h op h₁ h₂ hs ho => ?_) hP
    exact not_undermines_of_defended ho (h₁ hs ho) (h₂ (shown_concat.mpr (.inl hs)))
  · -- what carries the run: the slot records `k` as soon as `k` has answered
    have hall := always_of_along
      (P := fun h g => (g.tenure s).Records bindingPolicy {j | j = k ∧ Shown h s k} ∧
        (Shown h s k → g.addressOwner.lookup s = some k → Defended g s k))
      (s := TopologyGraph.new) ⟨?_, ?_⟩ (fun h op hP hu => defended_apply hk hP.1 hP.2 hu) hC
    · exact fun before after he => (hall before after he).2
    · rintro j ⟨-, before, ev, after, he, -⟩
      simp at he
    · rintro ⟨before, ev, after, he, -⟩
      simp at he

/-- An answer of one machine, then a cache entry for another: the first keeps the slot and its defence. -/
theorem fresh_owner_defended_against_cache :
    (build [.absorb (sighting hwA (ip 10 0 0 1) .arpProbe none), .absorb (sighting hwB (ip 10 0 0 1) .arpCache none)]
      ).addressOwner.lookup ⟨ip 10 0 0 1, none, .localRealm⟩ = some hwA ∧
    Always GraphOp.apply (fun h g => Shown h ⟨ip 10 0 0 1, none, .localRealm⟩ hwA →
        g.addressOwner.lookup ⟨ip 10 0 0 1, none, .localRealm⟩ = some hwA →
          Defended g ⟨ip 10 0 0 1, none, .localRealm⟩ hwA) .new
      [.absorb (sighting hwA (ip 10 0 0 1) .arpProbe none), .absorb (sighting hwB (ip 10 0 0 1) .arpCache none)] := by
  have h := fresh_owner_defended [.absorb (sighting hwA (ip 10 0 0 1) .arpProbe none)]
    [sighting hwB (ip 10 0 0 1) .arpCache none] (s := ⟨ip 10 0 0 1, none, .localRealm⟩) (k := hwA) rfl
    (by decide) (by
      intro ev hev key _
      rw [List.mem_singleton.mp hev]
      decide)
  refine ⟨h.1, h.2.mpr ?_⟩
  simp only [List.map_cons, List.map_nil, List.cons_append, List.nil_append, along_cons, along_nil, and_true]
  exact ⟨fun _ _ => by decide, fun _ _ => by decide⟩

/-- The machine that answered is seen again in a cache, and the freshness of its answer is forgotten. -/
theorem fresh_binding_forgotten :
    ¬∀ (ops : List GraphOp) (evs : List TopologyEvidence) (s : Slot) (k : DeviceKey), k.isMac = true → Shown ops s k →
      (build ops).addressOwner.lookup s = some k →
      (∀ ev ∈ evs, ∀ key, statedClaim ev = some (s, key) → bindingFreshness ev.source < freshnessConfirmed) →
      (build (ops ++ evs.map .absorb)).addressOwner.lookup s = some k ∧
      Defended (build (ops ++ evs.map .absorb)) s k := by
  intro h
  let ops : List GraphOp := [.absorb (sighting hwA (ip 10 0 0 1) .arpProbe none)]
  have hd := h ops [sighting hwA (ip 10 0 0 1) .arpCache none] ⟨ip 10 0 0 1, none, .localRealm⟩ hwA rfl
    ⟨[], _, [], rfl, by decide, by decide⟩ (by decide) (by
      intro ev hev key _
      rw [List.mem_singleton.mp hev]
      decide)
  have hweak : ((build (ops ++ [sighting hwA (ip 10 0 0 1) .arpCache none].map .absorb)).addressBinding.lookup
      ⟨ip 10 0 0 1, none, .localRealm⟩).map bindingFreshness = some 1 := by decide
  have hfresh := hd.2.2
  rw [hweak] at hfresh
  exact absurd hfresh (by decide)

end Idnx
