import Mathlib.Data.Finset.Card
import Mathlib.Data.Finset.Insert
import Mathlib.Data.Set.Insert
import Mathlib.Tactic.Ring

/-!
# Tenure: who holds a name that several may claim

One name (an address, a lease, a slot) may be vacant, held by one key on the strength of some source, or disputed
between several. Sources are ranked, and only a source of the highest rank confirms a claim; keys are hard or soft,
a soft key standing in for a hard one that is not known yet. `Tenure.claim` says what a claim does.

* `Tenure.Wf`: a dispute has at least two claimants (`wf_claim`);
* a dispute is for ever (`claim_disputed`);
* `Lapse`: the holder of a confirmed tenure claims again on a weaker source, and the record forgets that the tenure
  was confirmed. This is the only way a confirmed claim is lost: as long as no claim is a lapse, the tenure
  `Records` every hard key that has made a confirmed claim (`records_claim`), so two of them end in a dispute
  (`Records.disputed`);
* `Settled`: where every claim is confirmed, a dispute is exactly what two hard keys end in (`Settled.disputed_iff`).
-/

namespace Idnx

/-- What is on record about one name. -/
inductive Tenure (K S : Type) where
  | vacant
  | held (holder : K) (since : S)
  | disputed (claimants : Finset K)
  deriving DecidableEq

/-- How sources are ranked and which keys are hard. -/
structure Policy (K S : Type) where
  rank : S → Nat
  confirmed : Nat
  hard : K → Bool
  rank_le : ∀ s, rank s ≤ confirmed

namespace Tenure

variable {K S : Type} [DecidableEq K] (p : Policy K S)

/-- The tenure after `k` claims the name on the strength of `s`. -/
def claim (k : K) (s : S) : Tenure K S → Tenure K S
  | .vacant => .held k s
  | .disputed cs => .disputed (insert k cs)
  | .held h since =>
    if h = k then .held k s
    else if p.hard h ≠ p.hard k then if p.hard k then .held k s else .held h since
    else if p.rank s > p.rank since then .held k s
    else if p.rank s < p.rank since then .held h since
    else if p.confirmed ≤ p.rank s then .disputed {h, k}
    else .held h since

/-- A dispute has at least two claimants. -/
def Wf : Tenure K S → Prop
  | .disputed cs => 1 < cs.card
  | _ => True

/-- `k` is the holder or a claimant. -/
def Mentions (k : K) : Tenure K S → Prop
  | .vacant => False
  | .held h _ => k = h
  | .disputed cs => k ∈ cs

/-- `k` holds the name by a confirmed claim and now claims it on a weaker source. -/
def Lapse (k : K) (s : S) : Tenure K S → Prop
  | .held h since => h = k ∧ p.rank since = p.confirmed ∧ p.rank s < p.confirmed
  | _ => False

/-- The tenure remembers the keys of `J`, all of which have made a confirmed claim. -/
def Records (J : Set K) : Tenure K S → Prop
  | .vacant => ∀ k, k ∉ J
  | .held h since => ∀ k ∈ J, k = h ∧ p.rank since = p.confirmed
  | .disputed cs => ∀ k ∈ J, k ∈ cs

variable {p} {k : K} {s : S} {t : Tenure K S}

/-- A dispute only gains claimants. -/
theorem claim_disputed {cs : Finset K} : (Tenure.disputed cs : Tenure K S).claim p k s = .disputed (insert k cs) :=
    rfl

/-- A claim of the holder renews the tenure on the new source. -/
theorem claim_self {since : S} : (Tenure.held k since).claim p k s = .held k s := by simp [claim]

theorem wf_claim (h : t.Wf) : (t.claim p k s).Wf := by
  cases t with
  | vacant => trivial
  | disputed cs => exact Nat.lt_of_lt_of_le h (Finset.card_le_card (Finset.subset_insert k cs))
  | held holder since =>
    simp only [claim]
    split_ifs with hk hhard hkh hgt hlt hconf
    all_goals try trivial
    show 1 < ({holder, k} : Finset K).card
    rw [Finset.card_pair hk]; omega

/-- A claim puts no one on record but the claimant. -/
theorem mentions_claim {j : K} (h : (t.claim p k s).Mentions j) : j = k ∨ t.Mentions j := by
  cases t with
  | vacant => exact .inl h
  | disputed cs => exact Finset.mem_insert.mp h
  | held holder since =>
    simp only [claim] at h
    split_ifs at h with hk hhard hkh hgt hlt hconf
    · exact .inl h
    · exact .inl h
    · exact .inr h
    · exact .inl h
    · exact .inr h
    · rcases Finset.mem_insert.mp h with h | h
      · exact .inr h
      · exact .inl (Finset.mem_singleton.mp h)
    · exact .inr h

/-- A claim of one key never makes another the holder. -/
theorem claim_held_of_ne {h : K} {since : S} (hc : t.claim p k s = .held h since) (hk : k ≠ h) :
    t = .held h since := by
  cases t with
  | vacant => cases hc; exact absurd rfl hk
  | disputed cs => cases hc
  | held holder since' =>
    simp only [claim] at hc
    split_ifs at hc <;> cases hc <;> first | rfl | exact absurd rfl hk

/-- Whatever its rank, a claim below the highest rank never takes a name from a hard holder. -/
theorem claim_weak_holder {h : K} {since : S} (hh : p.hard h = true) (hs : p.rank s < p.confirmed)
    (hm : ∀ q, p.rank q < p.confirmed → p.rank q ≤ p.rank since) :
    ∃ since', (Tenure.held h since).claim p k s = .held h since' := by
  by_cases hk : h = k
  · subst hk; exact ⟨s, claim_self⟩
  · have h₁ : ¬p.rank s > p.rank since := by have := hm s hs; omega
    have h₂ : ¬p.confirmed ≤ p.rank s := by omega
    refine ⟨since, ?_⟩
    simp only [claim, hk, ↓reduceIte, hh, h₁, h₂]
    cases p.hard k <;> simp

/-- **One claim.** If it is not a lapse of a recorded key, the tenure still records every key it recorded, and the
claimant if the claim is a confirmed one of a hard key. -/
theorem records_claim {J : Set K} (hJ : ∀ j ∈ J, p.hard j = true) (hr : t.Records p J)
    (hl : k ∈ J → ¬t.Lapse p k s) :
    (t.claim p k s).Records p {j | j ∈ J ∨ (j = k ∧ p.hard k = true ∧ p.rank s = p.confirmed)} := by
  cases t with
  | vacant =>
    rintro j (hj | ⟨rfl, -, hs⟩)
    · exact absurd hj (hr j)
    · exact ⟨rfl, hs⟩
  | disputed cs =>
    rintro j (hj | ⟨rfl, -, -⟩)
    · exact Finset.mem_insert_of_mem (hr j hj)
    · exact Finset.mem_insert_self _ _
  | held h since =>
    have hle := p.rank_le s
    have hJh : ∀ j ∈ J, j = h ∧ p.rank since = p.confirmed := hr
    simp only [claim]
    split_ifs with hk hhard hkh hgt hlt hconf
    · -- the holder claims again: no lapse, so a recorded claim is confirmed anew
      subst hk
      rintro j (hj | ⟨rfl, -, hs⟩)
      · refine ⟨(hJh j hj).1, ?_⟩
        by_contra hs
        exact hl ((hJh j hj).1 ▸ hj) ⟨rfl, (hJh j hj).2, by omega⟩
      · exact ⟨rfl, hs⟩
    · -- a hard key replaces a soft one, which cannot have been recorded
      rintro j (hj | ⟨rfl, -, hs⟩)
      · obtain ⟨rfl, -⟩ := hJh j hj
        exact absurd (hJ j hj) (by rw [hkh] at hhard; simpa using hhard)
      · exact ⟨rfl, hs⟩
    · rintro j (hj | ⟨rfl, hh, -⟩)
      · exact hJh j hj
      · exact absurd hh hkh
    · -- the claim outranks the tenure, so the tenure was not confirmed
      rintro j (hj | ⟨rfl, -, hs⟩)
      · have := (hJh j hj).2; omega
      · exact ⟨rfl, hs⟩
    · rintro j (hj | ⟨rfl, -, hs⟩)
      · exact hJh j hj
      · have := p.rank_le since; omega
    · rintro j (hj | ⟨rfl, -, -⟩)
      · rw [(hJh j hj).1]; exact Finset.mem_insert_self _ _
      · exact Finset.mem_insert_of_mem (Finset.mem_singleton_self _)
    · rintro j (hj | ⟨rfl, -, hs⟩)
      · exact hJh j hj
      · omega

omit [DecidableEq K] in
theorem Records.mono {J J' : Set K} (h : t.Records p J) (hJ : J' ⊆ J) : t.Records p J' := by
  cases t with
  | vacant => exact fun k hk => h k (hJ hk)
  | held holder since => exact fun k hk => h k (hJ hk)
  | disputed cs => exact fun k hk => h k (hJ hk)

omit [DecidableEq K] in
/-- Two recorded keys are in dispute. -/
theorem Records.disputed {J : Set K} {a b : K} (h : t.Records p J) (ha : a ∈ J) (hb : b ∈ J) (hab : a ≠ b) :
    ∃ cs, t = .disputed cs ∧ a ∈ cs ∧ b ∈ cs := by
  cases t with
  | vacant => exact absurd ha (h a)
  | held holder since => exact absurd ((h a ha).1.trans (h b hb).1.symm) hab
  | disputed cs => exact ⟨cs, rfl, h a ha, h b hb⟩

/-- **Every lapse can be exploited**: after it, a confirmed claim of another hard key takes the name, and neither the
dispute nor the first claimant is on record. -/
theorem claim_after_lapse {h b : K} {since s c : S} (hl : (Tenure.held h since).Lapse p h s) (hh : p.hard h = true)
    (hb : p.hard b = true) (hc : p.rank c = p.confirmed) (hne : h ≠ b) :
    ((Tenure.held h since).claim p h s).claim p b c = .held b c := by
  have hgt : p.rank c > p.rank s := by have := hl.2.2; omega
  rw [claim_self]
  simp [claim, hne, hh, hb, hgt]

/-! ### Confirmed claims only -/

/-- Where all claims are confirmed, and the hard keys that made some are those of `J` and the soft key `σ`: the tenure
is theirs as long as they are one. -/
def Settled (p : Policy K S) (J : Set K) (σ : K) : Tenure K S → Prop
  | .vacant => J = ∅
  | .held h since => p.rank since = p.confirmed ∧ (J = {h} ∨ J = ∅ ∧ h = σ)
  | .disputed _ => ∃ a ∈ J, ∃ b ∈ J, a ≠ b

variable {J : Set K} {σ : K}

/-- A hard key claims. -/
theorem settled_claim_hard (hσ : p.hard σ = false) (hJ : ∀ j ∈ J, p.hard j = true) (h : t.Settled p J σ)
    (hk : p.hard k = true) (hs : p.rank s = p.confirmed) : (t.claim p k s).Settled p (insert k J) σ := by
  cases t with
  | vacant =>
    obtain rfl : J = ∅ := h
    exact ⟨hs, .inl (by simp)⟩
  | disputed cs =>
    obtain ⟨a, ha, b, hb, hab⟩ := h
    exact ⟨a, .inr ha, b, .inr hb, hab⟩
  | held holder since =>
    obtain ⟨hsince, rfl | ⟨rfl, rfl⟩⟩ := h
    · have hholder : p.hard holder = true := hJ holder rfl
      by_cases hsame : holder = k
      · subst hsame
        rw [claim_self]
        exact ⟨hs, .inl (by simp)⟩
      · have hdispute : (Tenure.held holder since).claim p k s = .disputed {holder, k} := by
          simp [claim, hsame, hholder, hk, hs, hsince]
        rw [hdispute]
        exact ⟨holder, .inr rfl, k, .inl rfl, hsame⟩
    · have hne : holder ≠ k := by
        rintro rfl
        rw [hσ] at hk
        cases hk
      have htaken : (Tenure.held holder since).claim p k s = .held k s := by simp [claim, hne, hσ, hk]
      rw [htaken]
      exact ⟨hs, .inl (by simp)⟩

/-- The soft key claims, or is resolved to the holder. -/
theorem settled_claim_soft (hσ : p.hard σ = false) (hJ : ∀ j ∈ J, p.hard j = true) (h : t.Settled p J σ)
    (hk : k = σ ∨ ∃ since, t = .held k since) (hs : p.rank s = p.confirmed) : (t.claim p k s).Settled p J σ := by
  cases t with
  | vacant =>
    obtain rfl : J = ∅ := h
    obtain rfl : k = σ := hk.resolve_right (by simp)
    exact ⟨hs, .inr ⟨rfl, rfl⟩⟩
  | disputed cs => exact h
  | held holder since =>
    by_cases hsame : holder = k
    · subst hsame
      rw [claim_self]
      exact ⟨hs, h.2⟩
    · obtain rfl : k = σ := hk.resolve_right fun ⟨since', heq⟩ => hsame (by cases heq; rfl)
      obtain ⟨hsince, rfl | ⟨rfl, rfl⟩⟩ := h
      · have hholder : p.hard holder = true := hJ holder rfl
        have hstays : (Tenure.held holder since).claim p k s = .held holder since := by
          simp [claim, hsame, hholder, hσ]
        rw [hstays]
        exact ⟨hsince, .inl rfl⟩
      · exact absurd rfl hsame

omit [DecidableEq K] in
/-- **Confirmed claims end in a dispute** exactly if two hard keys made some. -/
theorem Settled.disputed_iff (h : t.Settled p J σ) : (∃ cs, t = .disputed cs) ↔ ∃ a ∈ J, ∃ b ∈ J, a ≠ b := by
  cases t with
  | vacant =>
    obtain rfl : J = ∅ := h
    exact ⟨nofun, nofun⟩
  | disputed cs => exact iff_of_true ⟨cs, rfl⟩ h
  | held holder since =>
    refine ⟨nofun, fun ⟨a, ha, b, hb, hab⟩ => absurd ?_ hab⟩
    obtain ⟨-, rfl | ⟨rfl, -⟩⟩ := h
    · exact ha.trans hb.symm
    · cases ha

end Tenure

end Idnx
