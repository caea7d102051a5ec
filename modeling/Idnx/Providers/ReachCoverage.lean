import Idnx.Providers.ReachPass
import Mathlib.Algebra.BigOperators.Group.Finset.Basic
import Mathlib.Algebra.Order.BigOperators.Group.Finset

/-!
# What a pass says of its coverage

A pass reports the `/24`s that were sampled, the `/24`s there are, and whether its budget was exhausted. The first are
counted where they are looked into, the second for the blocks that came up by then, and the third is set by the list
before the first wave, and by a wave that is cut. So each of them misses some cases, and `coverage_honest_iff` says
which.
-/

namespace Idnx

open Outcome

/-! ## The sampled `/24`s -/

/-- The `/24` of an address. -/
def subnetOf (address : Ipv4Addr) : Ipv4Addr := (⟨address, 24⟩ : Ipv4Net).network

/-- The sampled `/24`s are those with a candidate. -/
def SampledExact (known : Finset Ipv4Addr) (limit : Nat) (observed : List Ipv4Addr) : Prop :=
  (candidatesWithCoverage known limit observed).2.sampledSubnets =
    ((candidatesWithCoverage known limit observed).1.map subnetOf).toFinset.card

/-- A `/24` is looked into if those before it leave room for more candidates. -/
def LooksInto (known : Finset Ipv4Addr) (limit : Nat) (observed : List Ipv4Addr) (subnet : Ipv4Net) : Prop :=
  ∃ before after, tour known limit observed = before ++ subnet :: after ∧
    (unknownGateways known before).card < max limit 1

/-- Every `/24` that is looked into has a gateway address that is not known. -/
def NoneHollow (known : Finset Ipv4Addr) (limit : Nat) (observed : List Ipv4Addr) : Prop :=
  ∀ subnet, LooksInto known limit observed subnet → ∃ host ∈ gatewayHosts, hostIn subnet host ∉ known

section Sampled

variable {known : Finset Ipv4Addr} {limit : Nat} {observed : List Ipv4Addr} {l : Listing}

theorem subnetOf_hostIn {block subnet : Ipv4Net} (hblock : block ∈ privateBlocks) (h : subnet ∈ block.subnets 24)
    {host : Nat} (hhost : host ∈ gatewayHosts) : subnetOf (hostIn subnet host) = subnet.network := by
  obtain ⟨-, hend, -⟩ := (mem_subnets (prefixLen_of_mem_privateBlocks hblock)).mp h
  have hlt := host_lt hhost
  apply BitVec.eq_of_toNat_eq
  rw [subnetOf, toNat_network]
  show (hostIn subnet host).toNat / 256 * 256 = subnet.network.toNat
  rw [toNat_hostIn subnet hlt, network_of_mem_subnets hblock h]
  omega

/-- The `/24`s that were looked into are all of the candidates', if each gave one. -/
theorem sampled_iff {nets : List Ipv4Net} (hnets : ∀ subnet ∈ nets, subnet ∈ tour known limit observed)
    (hsubnets : l.subnets = (nets.map Ipv4Net.network).toFinset)
    (hupper : ∀ a ∈ l.ordered, a ∈ unknownGateways known nets) :
    l.subnets.card = (l.ordered.map subnetOf).toFinset.card ↔
      ∀ subnet ∈ nets, ∃ host ∈ gatewayHosts, hostIn subnet host ∈ l.ordered := by
  have hof : ∀ subnet ∈ nets, ∀ host ∈ gatewayHosts, subnetOf (hostIn subnet host) = subnet.network := by
    intro subnet hsubnet host hhost
    obtain ⟨-, -, block, hprivate, -, hin⟩ := mem_tour (hnets subnet hsubnet)
    exact subnetOf_hostIn hprivate hin hhost
  have hsub : (l.ordered.map subnetOf).toFinset ⊆ l.subnets := by
    intro s hs
    rw [List.mem_toFinset, List.mem_map] at hs
    obtain ⟨a, ha, rfl⟩ := hs
    obtain ⟨-, subnet, hsubnet, host, hhost, rfl⟩ := mem_unknownGateways.mp (hupper a ha)
    rw [hof subnet hsubnet host hhost, hsubnets, List.mem_toFinset]
    exact List.mem_map_of_mem hsubnet
  have hcard : l.subnets.card = (l.ordered.map subnetOf).toFinset.card ↔
      l.subnets ⊆ (l.ordered.map subnetOf).toFinset := by
    refine ⟨fun h => (Finset.eq_of_subset_of_card_le hsub h.le).ge, fun h => ?_⟩
    exact congrArg Finset.card (Finset.Subset.antisymm h hsub)
  rw [hcard]
  constructor
  · intro h subnet hsubnet
    have hin : subnet.network ∈ (l.ordered.map subnetOf).toFinset := by
      refine h ?_
      rw [hsubnets, List.mem_toFinset]
      exact List.mem_map_of_mem hsubnet
    rw [List.mem_toFinset, List.mem_map] at hin
    obtain ⟨a, ha, hsame⟩ := hin
    obtain ⟨-, other, hother, host, hhost, rfl⟩ := mem_unknownGateways.mp (hupper a ha)
    rw [hof other hother host hhost] at hsame
    refine ⟨host, hhost, ?_⟩
    rwa [hostIn, ← hsame, ← hostIn]
  · intro h s hs
    rw [hsubnets, List.mem_toFinset, List.mem_map] at hs
    obtain ⟨subnet, hsubnet, rfl⟩ := hs
    obtain ⟨host, hhost, hin⟩ := h subnet hsubnet
    rw [List.mem_toFinset, List.mem_map]
    exact ⟨_, hin, hof subnet hsubnet host hhost⟩

theorem sampledExact_iff : SampledExact known limit observed ↔ NoneHollow known limit observed := by
  obtain ⟨l, blocks, hlist, hend, -⟩ := listing_spec known limit observed
  unfold SampledExact
  rw [hlist]
  show l.subnets.card = (l.ordered.map subnetOf).toFinset.card ↔ _
  rcases hend with htaken | ⟨done, last, rest, htour, hcut⟩
  · rw [sampled_iff (fun _ h => h) htaken.subnets fun a ha => (htaken.mem a).mp ha]
    have hlooks : ∀ subnet, LooksInto known limit observed subnet ↔ subnet ∈ tour known limit observed := by
      intro subnet
      constructor
      · rintro ⟨before, after, htour, -⟩
        rw [htour]
        exact List.mem_append_right _ List.mem_cons_self
      · intro hsubnet
        obtain ⟨before, after, htour⟩ := List.append_of_mem hsubnet
        refine ⟨before, after, htour, lt_of_le_of_lt (Finset.card_le_card (unknownGateways_mono fun s hs => ?_))
          (htaken.card ▸ htaken.short)⟩
        rw [htour]
        exact List.mem_append_left _ hs
    refine forall_congr' fun subnet => ?_
    rw [hlooks subnet]
    refine imp_congr_right fun hsubnet => exists_congr fun host => and_congr_right fun hhost => ?_
    rw [htaken.mem, mem_unknownGateways]
    exact ⟨And.left, fun hunknown => ⟨hunknown, subnet, hsubnet, host, hhost, rfl⟩⟩
  · have hdone : ∀ subnet ∈ done ++ [last], subnet ∈ tour known limit observed := by
      intro subnet hsubnet
      rw [htour]
      simp only [List.mem_append, List.mem_cons, List.not_mem_nil, or_false] at hsubnet ⊢
      tauto
    have hlooks : ∀ subnet, LooksInto known limit observed subnet ↔ subnet ∈ done ++ [last] := by
      intro subnet
      constructor
      · rintro ⟨before, after, htour', hshort⟩
        refine mem_of_not_beyond (htour.symm.trans htour') ?_
        rintro mid rfl
        refine absurd (hcut.le_card fun s hs => ?_) (Nat.not_le_of_lt hshort)
        simp only [List.mem_append, List.mem_cons, List.not_mem_nil, or_false] at hs ⊢
        tauto
      · intro hsubnet
        rcases List.mem_append.mp hsubnet with hsubnet | hsubnet
        · obtain ⟨before, after, rfl⟩ := List.append_of_mem hsubnet
          refine ⟨before, after ++ last :: rest, by rw [htour, List.append_assoc, List.cons_append], ?_⟩
          refine lt_of_le_of_lt (Finset.card_le_card (unknownGateways_mono fun s hs => ?_)) hcut.short
          exact List.mem_append_left _ hs
        · obtain rfl := List.mem_singleton.mp hsubnet
          exact ⟨done, rest, htour, hcut.short⟩
    rw [sampled_iff hdone hcut.subnets hcut.upper]
    refine forall_congr' fun subnet => ?_
    rw [hlooks subnet]
    refine imp_congr_right fun hsubnet => ?_
    constructor
    · rintro ⟨host, hhost, hin⟩
      exact ⟨host, hhost, (mem_unknownGateways.mp (hcut.upper _ hin)).1⟩
    · rintro ⟨host, hhost, hunknown⟩
      rcases List.mem_append.mp hsubnet with hsubnet | hsubnet
      · exact ⟨host, hhost, hcut.lower _ (mem_unknownGateways.mpr ⟨hunknown, subnet, hsubnet, host, hhost, rfl⟩)⟩
      · obtain rfl := List.mem_singleton.mp hsubnet
        exact hcut.gives

end Sampled

/-! ## The `/24`s there are -/

/-- The `/24`s there are are those of the blocks that hold an observed address. -/
def TotalExact (known : Finset Ipv4Addr) (limit : Nat) (observed : List Ipv4Addr) : Prop :=
  (candidatesWithCoverage known limit observed).2.totalSubnets =
    ((privateBlocks.filter fun block => observed.any block.contains).map fun block => (block.subnets 24).length).sum

/-- Every block with an observed address has one that is looked at. -/
def AllBlocksSeen (known : Finset Ipv4Addr) (limit : Nat) (observed : List Ipv4Addr) : Prop :=
  ∀ block ∈ privateBlocks, (∃ address ∈ observed, block.contains address = true) →
    ∃ address, LooksAt known limit observed address ∧ block.contains address = true

theorem totalExact_iff {known : Finset Ipv4Addr} {limit : Nat} {observed : List Ipv4Addr} :
    TotalExact known limit observed ↔ AllBlocksSeen known limit observed := by
  obtain ⟨l, blocks, hlist, -, hnodup, hblocks⟩ := listing_spec known limit observed
  have hsize : ∀ block ∈ privateBlocks, 2 ^ (24 - min block.prefixLen.val 24) = (block.subnets 24).length ∧
      0 < (block.subnets 24).length := by
    intro block hblock
    have hle := prefixLen_of_mem_privateBlocks hblock
    have hlength : (block.subnets 24).length = 2 ^ (24 - block.prefixLen.val) := by
      rw [Ipv4Net.subnets, if_pos (show block.prefixLen ≤ (24 : Fin 33) from hle), List.length_map, List.length_range]
      rfl
    rw [hlength, min_eq_left hle]
    exact ⟨rfl, Nat.two_pow_pos _⟩
  have hseen : ∀ block, block ∈ blocks ↔
      block ∈ privateBlocks ∧ ∃ address, LooksAt known limit observed address ∧ block.contains address = true := by
    intro block
    rw [hblocks]
    constructor
    · rintro ⟨address, hlooks, hsome⟩
      obtain ⟨hprivate, hcontains⟩ := enclosingPrivateBlock_eq_some hsome
      exact ⟨hprivate, address, hlooks, hcontains⟩
    · rintro ⟨hprivate, address, hlooks, hcontains⟩
      exact ⟨address, hlooks, enclosingPrivateBlock_of_contains hprivate hcontains⟩
  have hheld : ∀ block, block ∈ privateBlocks.filter (fun block => observed.any block.contains) ↔
      block ∈ privateBlocks ∧ ∃ address ∈ observed, block.contains address = true := by
    intro block
    rw [List.mem_filter, List.any_eq_true]
  have hsub : blocks.toFinset ⊆ (privateBlocks.filter fun block => observed.any block.contains).toFinset := by
    intro block hblock
    rw [List.mem_toFinset] at hblock ⊢
    obtain ⟨hprivate, address, ⟨seen, rest, rfl, -⟩, hcontains⟩ := (hseen block).mp hblock
    exact (hheld block).mpr ⟨hprivate, address, List.mem_append_right _ List.mem_cons_self, hcontains⟩
  have hsum : (blocks.map fun block => 2 ^ (24 - min block.prefixLen.val 24)).sum =
      blocks.toFinset.sum fun block => (block.subnets 24).length := by
    rw [List.sum_toFinset _ hnodup]
    congr 1
    exact List.map_congr_left fun block hblock => (hsize block ((hseen block).mp hblock).1).1
  unfold TotalExact
  rw [hlist]
  show (blocks.map fun block => 2 ^ (24 - min block.prefixLen.val 24)).sum = _ ↔ _
  rw [hsum, ← List.sum_toFinset _ (List.Nodup.filter _ (by decide : privateBlocks.Nodup))]
  constructor
  · intro heq block hprivate hobserved
    by_contra hunseen
    refine absurd heq (ne_of_lt (Finset.sum_lt_sum_of_subset hsub ?_ ?_ (hsize block hprivate).2 fun _ _ _ =>
      Nat.zero_le _))
    · exact List.mem_toFinset.mpr ((hheld block).mpr ⟨hprivate, hobserved⟩)
    · rw [List.mem_toFinset, hseen]
      exact fun h => hunseen h.2
  · intro hall
    congr 1
    refine Finset.Subset.antisymm hsub fun block hblock => ?_
    rw [List.mem_toFinset] at hblock ⊢
    obtain ⟨hprivate, hobserved⟩ := (hheld block).mp hblock
    exact (hseen block).mpr ⟨hprivate, hall block hprivate hobserved⟩

/-! ## The budget -/

/-- The list is as long as the budget allows, and a gateway address that may be asked is not on it. -/
def CutShort (known : Finset Ipv4Addr) (maxCandidates : Nat) (observed : List Ipv4Addr) : Prop :=
  maxCandidates ≤ (candidatesWithCoverage known maxCandidates observed).1.length ∧
    ∃ a, MayAsk known {address | address ∈ observed} a ∧ a ∉ (candidatesWithCoverage known maxCandidates observed).1

/-- A candidate was left unasked because of the budget: it was kept off the list, or is queued and was not asked. -/
def LeftUnasked (known : Finset Ipv4Addr) (maxCandidates : Nat) (observed : List Ipv4Addr) (pass : ReachPass) : Prop :=
  CutShort known maxCandidates observed ∨ ∃ a ∈ pass.queued, a ∉ pass.sweep.asked

/-- At the end of the pass the flag is set exactly if a candidate was left unasked. -/
def FlagExact (known : Finset Ipv4Addr) (maxCandidates : Nat) (responders : Responders) (observed : List Ipv4Addr) :
    Prop :=
  ∀ pass coverage, (reachabilityPass known maxCandidates responders observed : Outcome Empty _) =
    .ok (some (pass, coverage)) →
      (pass.sweep.budgetExhausted = true ↔ LeftUnasked known maxCandidates observed pass)

/-- There are as many gateway addresses to ask as the budget allows, and the tour comes by all of them. -/
def ExactFit (known : Finset Ipv4Addr) (maxCandidates : Nat) (observed : List Ipv4Addr) : Prop :=
  0 < maxCandidates ∧ (unknownGateways known (tour known maxCandidates observed)).card = maxCandidates ∧
    ∀ a, MayAsk known {address | address ∈ observed} a → a ∈ unknownGateways known (tour known maxCandidates observed)

/-- The list leaves some of the budget, and answers use it up exactly at the end of a wave that queues more. -/
def SpentByAnswers (known : Finset Ipv4Addr) (maxCandidates : Nat) (responders : Responders)
    (observed : List Ipv4Addr) : Prop :=
  (unknownGateways known (tour known maxCandidates observed)).card < maxCandidates ∧
    SpentBetweenWaves (adds known responders) (unknownGateways known (tour known maxCandidates observed)) maxCandidates

section Budget

variable {known : Finset Ipv4Addr} {maxCandidates : Nat} {responders : Responders} {observed : List Ipv4Addr}
  {pass : ReachPass}

/-- No wave was cut so far. -/
def ReachPass.Uncut (known : Finset Ipv4Addr) (maxCandidates : Nat) (responders : Responders)
    (candidates : List Ipv4Addr) (pass : ReachPass) : Prop :=
  (∃ k, AtWave (adds known responders) candidates.toFinset k pass.sweep.asked pass.wave) ∧
    pass.queued = (pass.sweep.asked ++ pass.wave).toFinset ∧
    pass.sweep.budgetExhausted = decide (maxCandidates ≤ candidates.length) ∧ pass.sweep.asked.length ≤ maxCandidates

/-- The last wave was cut. -/
def ReachPass.Cut (known : Finset Ipv4Addr) (maxCandidates : Nat) (responders : Responders)
    (candidates : List Ipv4Addr) (pass : ReachPass) : Prop :=
  pass.sweep.budgetExhausted = true ∧ (∃ a ∈ pass.queued, a ∉ pass.sweep.asked) ∧
    maxCandidates ≤ pass.sweep.asked.length ∧
    ∃ k asked wave, AtWave (adds known responders) candidates.toFinset k asked wave ∧ asked.length < maxCandidates ∧
      maxCandidates < asked.length + wave.length

variable {candidates : List Ipv4Addr}

theorem uncut_start (hnodup : candidates.Nodup) :
    (ReachPass.start maxCandidates candidates).Uncut known maxCandidates responders candidates :=
  ⟨⟨0, atWave_zero hnodup⟩, rfl, rfl, Nat.zero_le _⟩

/-- **One wave** is asked as a whole, or cut. -/
theorem ReachPass.Uncut.turn (h : pass.Uncut known maxCandidates responders candidates)
    (hleft : pass.sweep.asked.length < maxCandidates) :
    (pass.turn known maxCandidates responders).Uncut known maxCandidates responders candidates ∨
      (pass.turn known maxCandidates responders).Cut known maxCandidates responders candidates := by
  obtain ⟨⟨k, hwave⟩, hqueued, hflag, -⟩ := h
  obtain ⟨answers, hturn⟩ := turn_eq known maxCandidates responders pass
  by_cases hfits : pass.wave.length ≤ maxCandidates - pass.sweep.asked.length
  case pos =>
    have hasking : pass.asking maxCandidates = pass.wave := List.take_of_length_le hfits
    have hheard := heard_perm maxCandidates responders pass
    rw [hasking] at hheard
    have hheardIn : ∀ a ∈ pass.heard maxCandidates responders, a ∈ pass.wave := fun a ha =>
      (List.mem_filter.mp (hheard.mem_iff.mp ha)).1
    have hsilent : ∀ a ∈ pass.wave, a ∉ pass.heard maxCandidates responders → adds known responders a = [] :=
      fun a ha hsilent => if_neg fun hanswers =>
        hsilent (hheard.mem_iff.mpr (List.mem_filter.mpr ⟨ha, hanswers⟩))
    have hnext := hwave.step hheardIn hsilent
    refine .inl ?_
    rw [hturn, hasking, hqueued]
    refine ⟨⟨k + 1, hnext⟩, ?_, ?_, ?_⟩
    · exact (Queue.foldl ⟨by rw [List.append_nil], by rw [List.append_nil]; exact hwave.nodup⟩ _).queued
    · show (pass.sweep.budgetExhausted || _) = _
      rw [hflag, decide_eq_false (Nat.not_lt.mpr hfits), Bool.or_false]
    · show (pass.sweep.asked ++ pass.wave).length ≤ maxCandidates
      rw [List.length_append]
      omega
  case neg =>
    have hroom : maxCandidates - pass.sweep.asked.length < pass.wave.length := Nat.lt_of_not_le hfits
    have hlength : (pass.asking maxCandidates).length = maxCandidates - pass.sweep.asked.length :=
      List.length_take_of_le hroom.le
    refine .inr ?_
    rw [hturn]
    refine ⟨?_, ?_, ?_, k, _, _, hwave, hleft, by omega⟩
    · show (pass.sweep.budgetExhausted || _) = true
      rw [decide_eq_true hroom, Bool.or_true]
    · obtain ⟨a, more, hmore⟩ : ∃ a more, pass.wave.drop (maxCandidates - pass.sweep.asked.length) = a :: more :=
        List.exists_cons_of_ne_nil fun hnil => hfits (List.drop_eq_nil_iff.mp hnil)
      have hsplit : pass.sweep.asked ++ pass.wave = pass.sweep.asked ++ pass.asking maxCandidates ++ a :: more := by
        rw [List.append_assoc, ReachPass.asking, ← hmore, List.take_append_drop]
      have hnodup := hwave.nodup
      rw [hsplit] at hnodup
      refine ⟨a, ?_, fun hin => (List.nodup_append'.mp hnodup).2.2 hin List.mem_cons_self⟩
      show a ∈ (((pass.heard maxCandidates responders).flatMap (adds known responders)).foldl enqueue
        (pass.queued, [])).1
      rw [queued_foldl, hqueued, hsplit]
      refine Finset.mem_union_left _ (List.mem_toFinset.mpr ?_)
      exact List.mem_append_right _ List.mem_cons_self
    · show maxCandidates ≤ (pass.sweep.asked ++ pass.asking maxCandidates).length
      rw [List.length_append]
      omega

/-- **How a pass ends.** -/
theorem pass_ends (known : Finset Ipv4Addr) (maxCandidates : Nat) (responders : Responders)
    (observed : List Ipv4Addr) :
    Returns (fun result => ∀ pass coverage, result = some (pass, coverage) →
        (pass.Uncut known maxCandidates responders (candidatesWithCoverage known maxCandidates observed).1 ∧
            (pass.wave = [] ∨ maxCandidates ≤ pass.sweep.asked.length)) ∨
          pass.Cut known maxCandidates responders (candidatesWithCoverage known maxCandidates observed).1)
      (reachabilityPass known maxCandidates responders observed : Outcome Empty _) := by
  have hrun := returns_pass (ε := Empty) known maxCandidates responders observed
    (fun pass =>
      pass.Uncut known maxCandidates responders (candidatesWithCoverage known maxCandidates observed).1 ∨
        pass.Cut known maxCandidates responders (candidatesWithCoverage known maxCandidates observed).1)
    (fun _ => .inl (uncut_start (candidates_sound known maxCandidates observed).1))
    fun pass hpass _ hleft => hpass.elim (fun huncut => huncut.turn hleft) fun hcut =>
      absurd hcut.2.2.1 (Nat.not_le_of_lt hleft)
  refine hrun.mono fun result hresult pass coverage hsome => ?_
  obtain ⟨-, hpass, hstop⟩ := hresult pass coverage hsome
  exact hpass.imp_left fun huncut => ⟨huncut, hstop⟩

/-! ## When the flag is right -/

theorem exactFit_iff : ExactFit known maxCandidates observed ↔
    0 < maxCandidates ∧ (candidatesWithCoverage known maxCandidates observed).1.length = maxCandidates ∧
      ∀ a, MayAsk known {address | address ∈ observed} a →
        a ∈ (candidatesWithCoverage known maxCandidates observed).1 := by
  obtain ⟨hsub, hlength⟩ := length_candidates known maxCandidates observed
  obtain ⟨hnodup, -⟩ := candidates_sound known maxCandidates observed
  have hcard := List.toFinset_card_of_nodup hnodup
  have hsub' : (candidatesWithCoverage known maxCandidates observed).1.toFinset ⊆
      unknownGateways known (tour known maxCandidates observed) := fun a ha => hsub a (List.mem_toFinset.mp ha)
  constructor
  · rintro ⟨hpos, hfit, hall⟩
    have hfull : (candidatesWithCoverage known maxCandidates observed).1.length = maxCandidates := by
      rw [hlength, hfit]
      omega
    refine ⟨hpos, hfull, fun a ha => ?_⟩
    rw [← List.mem_toFinset, Finset.eq_of_subset_of_card_le hsub' (by rw [hcard, hfull, hfit])]
    exact hall a ha
  · rintro ⟨hpos, hfull, hall⟩
    have hsame : unknownGateways known (tour known maxCandidates observed) =
        (candidatesWithCoverage known maxCandidates observed).1.toFinset :=
      Finset.Subset.antisymm (fun a ha => List.mem_toFinset.mpr (hall a (mayAsk_of_tour ha))) hsub'
    refine ⟨hpos, by rw [hsame, hcard, hfull], fun a ha => ?_⟩
    rw [hsame, List.mem_toFinset]
    exact hall a ha

theorem spentByAnswers_iff : SpentByAnswers known maxCandidates responders observed ↔
    (candidatesWithCoverage known maxCandidates observed).1.length < maxCandidates ∧
      SpentBetweenWaves (adds known responders) (candidatesWithCoverage known maxCandidates observed).1.toFinset
        maxCandidates := by
  obtain ⟨hsub, hlength⟩ := length_candidates known maxCandidates observed
  obtain ⟨hnodup, -⟩ := candidates_sound known maxCandidates observed
  have hcard := List.toFinset_card_of_nodup hnodup
  have hsub' : (candidatesWithCoverage known maxCandidates observed).1.toFinset ⊆
      unknownGateways known (tour known maxCandidates observed) := fun a ha => hsub a (List.mem_toFinset.mp ha)
  have hless : (unknownGateways known (tour known maxCandidates observed)).card < maxCandidates ↔
      (candidatesWithCoverage known maxCandidates observed).1.length < maxCandidates := by
    rw [hlength]
    omega
  unfold SpentByAnswers
  rw [← hless]
  refine and_congr_right fun hshort => ?_
  rw [Finset.eq_of_subset_of_card_le hsub' (by rw [hcard, hlength]; omega)]

/-- The addresses that a candidate adds may be asked for the sake of an observed address. -/
theorem mayAsk_of_adds_mayAsk {a target : Ipv4Addr} {addresses : Set Ipv4Addr} (htarget : MayAsk known addresses target)
    (h : a ∈ adds known responders target) : MayAsk known addresses a := by
  obtain ⟨-, block, hprivate, hin, hgateway⟩ := htarget
  obtain ⟨hunknown, block', hprivate', ⟨target', rfl, hcontains'⟩, hgateway'⟩ :=
    mayAsk_of_adds (Set.mem_singleton target) h
  have hcontains := contains_of_isGateway hprivate hgateway
  have hsame : block = block' := Option.some.inj
    ((enclosingPrivateBlock_of_contains hprivate hcontains).symm.trans
      (enclosingPrivateBlock_of_contains hprivate' hcontains'))
  exact ⟨hunknown, block, hprivate, hin, hsame ▸ hgateway'⟩

/-- **One pass.** -/
theorem flag_iff (hsome : (candidatesWithCoverage known maxCandidates observed).1 ≠ [])
    (h : (pass.Uncut known maxCandidates responders (candidatesWithCoverage known maxCandidates observed).1 ∧
        (pass.wave = [] ∨ maxCandidates ≤ pass.sweep.asked.length)) ∨
      pass.Cut known maxCandidates responders (candidatesWithCoverage known maxCandidates observed).1) :
    (pass.sweep.budgetExhausted = true ↔ LeftUnasked known maxCandidates observed pass) ↔
      ¬ ExactFit known maxCandidates observed ∧ ¬ SpentByAnswers known maxCandidates responders observed := by
  obtain ⟨hnodup, hmay⟩ := candidates_sound known maxCandidates observed
  obtain ⟨-, hlength⟩ := length_candidates known maxCandidates observed
  rw [exactFit_iff, spentByAnswers_iff]
  unfold LeftUnasked CutShort
  generalize (candidatesWithCoverage known maxCandidates observed).1 = candidates at *
  have hpos : 0 < candidates.length := List.length_pos_iff.mpr hsome
  have hcard := List.toFinset_card_of_nodup hnodup
  have hstart : ∀ k, candidates.toFinset ⊆ reached (adds known responders) candidates.toFinset (k + 1) := fun k =>
    Finset.subset_union_left
  rcases h with ⟨⟨⟨k, hwave⟩, hqueued, hflag, hbounded⟩, hstop⟩ | ⟨hflag, hleft, -, k, asked, wave, hwave, hlow, hhigh⟩
  · rw [hflag, decide_eq_true_eq]
    by_cases hempty : pass.wave = []
    case pos =>
      -- Everything that was queued was asked.
      rw [hempty] at hwave hqueued
      have hnone : ¬ ∃ a ∈ pass.queued, a ∉ pass.sweep.asked := by
        rintro ⟨a, ha, hnot⟩
        rw [hqueued, List.append_nil, List.mem_toFinset] at ha
        exact hnot ha
      have hall : candidates.length ≤ pass.sweep.asked.length := by
        have hle := Finset.card_le_card (hstart k)
        rwa [hwave.card_queued, hcard, List.length_nil, Nat.add_zero] at hle
      rw [or_iff_left hnone, and_iff_left fun h => hwave.not_spent hbounded h.2]
      constructor
      · rintro h ⟨-, hfull, hallListed⟩
        obtain ⟨-, a, ha, hnot⟩ := h.mp hfull.ge
        exact hnot (hallListed a ha)
      · intro hfit
        refine ⟨fun hle => ⟨hle, ?_⟩, And.left⟩
        by_contra hnot
        push Not at hnot
        exact hfit ⟨by omega, by omega, hnot⟩
    case neg =>
      -- What waits was not asked, and the budget is used up.
      have hspent : pass.sweep.asked.length = maxCandidates :=
        Nat.le_antisymm hbounded (hstop.resolve_left hempty)
      obtain ⟨w, more, hmore⟩ := List.exists_cons_of_ne_nil hempty
      have hw : w ∉ pass.sweep.asked := by
        have hall := hwave.nodup
        rw [hmore] at hall
        exact fun hin => (List.nodup_append'.mp hall).2.2 hin List.mem_cons_self
      have hqueue : w ∈ pass.sweep.asked ++ pass.wave := by
        rw [hmore]
        exact List.mem_append_right _ List.mem_cons_self
      have hleft : ∃ a ∈ pass.queued, a ∉ pass.sweep.asked :=
        ⟨w, by rw [hqueued]; exact List.mem_toFinset.mpr hqueue, hw⟩
      rw [iff_true_right (Or.inr hleft)]
      constructor
      · intro hle
        refine ⟨?_, fun h => absurd h.1 (Nat.not_lt.mpr hle)⟩
        -- All there is to ask would have been asked, and `w` with it.
        rintro ⟨-, hfull, hallListed⟩
        obtain ⟨j, rfl⟩ : ∃ j, k = j + 1 := by
          refine Nat.exists_eq_succ_of_ne_zero ?_
          rintro rfl
          have hnone := hwave.card_asked
          rw [reached, Finset.card_empty] at hnone
          omega
        have hreached : reached (adds known responders) candidates.toFinset (j + 1) = candidates.toFinset :=
          (Finset.eq_of_subset_of_card_le (hstart j) (by rw [hwave.card_asked, hcard]; omega)).symm
        have hnext : w ∈ reached (adds known responders) candidates.toFinset (j + 1 + 1) := by
          rw [← hwave.queued, List.mem_toFinset]
          exact hqueue
        have hnotListed : w ∉ candidates := by
          intro hin
          rw [← List.mem_toFinset, ← hreached, ← hwave.earlier, List.mem_toFinset] at hin
          exact hw hin
        rw [reached, hreached, Finset.mem_union, List.mem_toFinset, or_iff_right hnotListed] at hnext
        obtain ⟨target, htarget, hadds⟩ := Finset.mem_biUnion.mp hnext
        refine hnotListed (hallListed w ?_)
        exact mayAsk_of_adds_mayAsk (hmay target (List.mem_toFinset.mp htarget)) (List.mem_toFinset.mp hadds)
      · rintro ⟨-, hnotSpent⟩
        by_contra hmore
        exact hnotSpent ⟨Nat.lt_of_not_le hmore, hspent ▸ hwave.spent hempty⟩
  · refine iff_of_true (iff_of_true hflag (.inr hleft)) ⟨?_, fun h => hwave.not_spent_within hlow hhigh h.2⟩
    rintro ⟨-, hfull, -⟩
    cases k with
    | zero =>
      have hall := hwave.card_queued
      rw [reached_one, hcard] at hall
      omega
    | succ k =>
      have hle := Finset.card_le_card (hstart k)
      rw [hwave.card_asked, hcard] at hle
      omega

variable (known maxCandidates responders observed) in
/-- A pass over no candidates asks nothing. -/
theorem pass_eq_none_iff : (reachabilityPass known maxCandidates responders observed : Outcome Empty _) = .ok none ↔
    (candidatesWithCoverage known maxCandidates observed).1 = [] := by
  unfold reachabilityPass
  obtain ⟨candidates, coverage, hlist⟩ : ∃ candidates coverage,
      candidatesWithCoverage known maxCandidates observed = (candidates, coverage) := ⟨_, _, rfl⟩
  rw [hlist]
  cases candidates with
  | nil => exact iff_of_true rfl rfl
  | cons candidate candidates =>
    refine iff_of_false (fun h => ?_) (List.cons_ne_nil _ _)
    obtain ⟨last, -, hlast⟩ := bind_eq_ok.mp h
    cases hlast

theorem flagExact_iff : FlagExact known maxCandidates responders observed ↔
    ¬ ExactFit known maxCandidates observed ∧ ¬ SpentByAnswers known maxCandidates responders observed := by
  obtain ⟨result, hresult, hends⟩ := pass_ends known maxCandidates responders observed
  by_cases hsome : (candidatesWithCoverage known maxCandidates observed).1 = []
  case pos =>
    have hnone := (pass_eq_none_iff known maxCandidates responders observed).mpr hsome
    refine iff_of_true (fun pass coverage hrun => ?_) ⟨?_, ?_⟩
    · rw [hnone] at hrun
      cases hrun
    · rw [exactFit_iff, hsome]
      rintro ⟨hpos, hfull, -⟩
      exact absurd hfull hpos.ne
    · rw [spentByAnswers_iff, hsome]
      rintro ⟨-, hspent⟩
      exact (atWave_zero List.nodup_nil).not_spent (Nat.zero_le _) hspent
  case neg =>
    cases result with
    | none => exact absurd ((pass_eq_none_iff known maxCandidates responders observed).mp hresult) hsome
    | some last =>
      obtain ⟨pass, coverage⟩ := last
      rw [← flag_iff hsome (hends pass coverage rfl)]
      constructor
      · intro h
        exact h pass coverage hresult
      · intro h pass' coverage' hrun
        rw [hresult] at hrun
        cases hrun
        exact h

end Budget

/-! ## The report -/

/-- What the pass reports of its coverage is what it covered. -/
def CoverageHonest (known : Finset Ipv4Addr) (maxCandidates : Nat) (responders : Responders)
    (observed : List Ipv4Addr) : Prop :=
  SampledExact known maxCandidates observed ∧ TotalExact known maxCandidates observed ∧
    FlagExact known maxCandidates responders observed

/-- **When the report of the coverage is right.** Each `/24` that is looked into has a gateway address that is not
known; each block with an observed address has one that is looked at; the gateway addresses there are do not just fit
the budget; and answers do not use it up exactly at the end of a wave that queues more. -/
theorem coverage_honest_iff (known : Finset Ipv4Addr) (maxCandidates : Nat) (responders : Responders)
    (observed : List Ipv4Addr) :
    CoverageHonest known maxCandidates responders observed ↔
      NoneHollow known maxCandidates observed ∧ AllBlocksSeen known maxCandidates observed ∧
        ¬ ExactFit known maxCandidates observed ∧ ¬ SpentByAnswers known maxCandidates responders observed :=
  and_congr sampledExact_iff (and_congr totalExact_iff flagExact_iff)

/-- `192.168.1.1` and `192.168.9.1` answer an echo request, nothing else answers. -/
def twoRouters : Responders where
  signals target := some (if target = .new 192 168 1 1 ∨ target = .new 192 168 9 1 then [.icmp] else [])
  arrival wave := wave
  arrival_perm := List.Perm.refl

/-- The pass ended with the address queued, not asked, and the flag not set. -/
def missesQueued (a : Ipv4Addr) : Outcome Empty (Option (ReachPass × Coverage)) → Bool
  | .ok (some (pass, _)) => !pass.sweep.budgetExhausted && decide (a ∈ pass.queued) && decide (a ∉ pass.sweep.asked)
  | _ => false

/-- Nineteen candidates may be asked from `192.168.0.1`: seventeen are listed, and the first router adds the other two.
One of these is the second router, whose neighbours are not asked, and the flag is not set. -/
theorem more_left_unreported :
    ¬ CoverageHonest {.new 192 168 0 1} 19 twoRouters [.new 192 168 0 1] := by
  rintro ⟨-, -, hflag⟩
  have hmisses : missesQueued (.new 192 168 10 1)
      (reachabilityPass {.new 192 168 0 1} 19 twoRouters [.new 192 168 0 1]) = true := by
    decide +kernel
  unfold missesQueued at hmisses
  split at hmisses
  case h_1 pass coverage hpass =>
    simp only [Bool.and_eq_true, Bool.not_eq_true', decide_eq_true_eq] at hmisses
    obtain ⟨⟨hclear, hqueued⟩, hunasked⟩ := hmisses
    have hset := (hflag pass coverage hpass).mpr (.inr ⟨_, hqueued, hunasked⟩)
    rw [hclear] at hset
    cases hset
  case h_2 => cases hmisses

end Idnx
