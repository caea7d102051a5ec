import Idnx.Lib.Outcome
import Idnx.Lib.Waves
import Idnx.Probes.Tour
import Mathlib.Data.List.MinMax

/-!
# The bounded reachability pass

The candidates are asked in waves: a wave is what is queued, cut to what is left of the budget, and each address of it
that answers queues the gateway addresses around it that are neither known nor queued before. Whatever the network
answers, and in whatever order, the pass ends, and asks only what it may (`pass_bounded`).
-/

namespace Idnx

open Outcome

variable {ε : Type}

/-- What answered for a candidate. -/
inductive ResponseSignal where
  | icmp
  | tcpOpen (port : UInt16)
  | tcpRefused (port : UInt16)
  | dns
  | natPmp
  deriving DecidableEq

def ResponseSignal.rank : ResponseSignal → Nat
  | .icmp => 0
  | .tcpOpen _ => 1
  | .tcpRefused _ => 2
  | .dns => 3
  | .natPmp => 4

/-- Which source a set of signals is attributed to. -/
def attribution (signals : List ResponseSignal) : Option ResponseSignal := signals.argmin ResponseSignal.rank

/-- What one bounded pass asked and what answered. -/
structure ReachabilitySweep where
  asked : List Ipv4Addr := []
  responded : List Ipv4Addr := []
  budgetExhausted : Bool := false

/-- Candidates that did not answer; a panic if more answered than were asked. -/
def ReachabilitySweep.silent (sweep : ReachabilitySweep) : Outcome ε Nat :=
  if sweep.responded.length ≤ sweep.asked.length then .ok (sweep.asked.length - sweep.responded.length) else .panic

/-- How the network behaves: the signals each address gives, `none` where the probe is lost, and the order in which the
probes of a wave are through. -/
structure Responders where
  signals : Ipv4Addr → Option (List ResponseSignal)
  arrival : List Ipv4Addr → List Ipv4Addr
  arrival_perm : ∀ wave, (arrival wave).Perm wave

/-- The signals of an address that answers. -/
def Responders.answer (responders : Responders) (target : Ipv4Addr) : Option (List ResponseSignal) :=
  (responders.signals target).filter fun signals => (attribution signals).isSome

/-- The pass between two waves. -/
structure ReachPass where
  sweep : ReachabilitySweep
  queued : Finset Ipv4Addr
  wave : List Ipv4Addr
  answers : List (Ipv4Addr × List ResponseSignal) := []

section Pass

variable (known : Finset Ipv4Addr) (maxCandidates : Nat) (responders : Responders)

/-- Asks the targets of a wave until the budget is used up. With those asked now. -/
def ReachabilitySweep.ask : List Ipv4Addr → ReachabilitySweep → List Ipv4Addr × ReachabilitySweep
  | [], sweep => ([], sweep)
  | target :: wave, sweep =>
    if maxCandidates ≤ sweep.asked.length then ([], { sweep with budgetExhausted := true })
    else
      let (asking, sweep) := ReachabilitySweep.ask wave { sweep with asked := sweep.asked ++ [target] }
      (target :: asking, sweep)

/-- One probe is through. -/
def Responders.hear (state : List Ipv4Addr × List (Ipv4Addr × List ResponseSignal) × List Ipv4Addr)
    (target : Ipv4Addr) : List Ipv4Addr × List (Ipv4Addr × List ResponseSignal) × List Ipv4Addr :=
  match responders.answer target with
  | none => state
  | some signals => (state.1 ++ [target], state.2.1 ++ [(target, signals)], state.2.2 ++ [target])

/-- Queues the gateway addresses around an address that answered. -/
def queueAround (s : Finset Ipv4Addr × List Ipv4Addr) (target : Ipv4Addr) : Finset Ipv4Addr × List Ipv4Addr :=
  (expandAround target).foldl (fun s neighbour => if neighbour ∉ known then enqueue s neighbour else s) s

/-- One wave. -/
def ReachPass.turn (pass : ReachPass) : ReachPass :=
  let (asking, sweep) := ReachabilitySweep.ask maxCandidates pass.wave pass.sweep
  let (responded, answers, respondedThisWave) :=
    (responders.arrival asking).foldl responders.hear (sweep.responded, pass.answers, [])
  let (queued, wave) := respondedThisWave.foldl (queueAround known) (pass.queued, [])
  { sweep := { sweep with responded }, queued, wave, answers }

/-- One turn of the wave loop. -/
def waveTurn (pass : ReachPass) : Outcome ε (Turn ReachPass ReachPass) :=
  if pass.wave ≠ [] ∧ pass.sweep.asked.length < maxCandidates then
    .ok (.next (pass.turn known maxCandidates responders))
  else .ok (.done pass)

/-- The pass before the first wave. -/
def ReachPass.start (candidates : List Ipv4Addr) : ReachPass where
  sweep := { budgetExhausted := maxCandidates ≤ candidates.length }
  queued := candidates.toFinset
  wave := candidates

/-- The pass over the candidates of some observed addresses; `none` if there are none. -/
def reachabilityPass (observed : List Ipv4Addr) : Outcome ε (Option (ReachPass × Coverage)) :=
  match candidatesWithCoverage known maxCandidates observed with
  | ([], _) => .ok none
  | (candidate :: candidates, coverage) => do
    let pass ← loop (waveTurn known maxCandidates responders) (maxCandidates + 1)
      (.start maxCandidates (candidate :: candidates))
    return some (pass, coverage)

end Pass

/-! ## One wave -/

section Turn

variable {known : Finset Ipv4Addr} {maxCandidates : Nat} {responders : Responders} {pass : ReachPass}

/-- What an address that is asked adds to the queue. -/
def adds (known : Finset Ipv4Addr) (responders : Responders) (target : Ipv4Addr) : List Ipv4Addr :=
  if (responders.answer target).isSome then (expandAround target).filter (· ∉ known) else []

/-- The part of the wave that is asked, and of it what answers, as it comes in. -/
def ReachPass.asking (maxCandidates : Nat) (pass : ReachPass) : List Ipv4Addr :=
  pass.wave.take (maxCandidates - pass.sweep.asked.length)

def ReachPass.heard (maxCandidates : Nat) (responders : Responders) (pass : ReachPass) : List Ipv4Addr :=
  (responders.arrival (pass.asking maxCandidates)).filter fun target => (responders.answer target).isSome

theorem ask_eq (wave : List Ipv4Addr) (sweep : ReachabilitySweep) :
    ReachabilitySweep.ask maxCandidates wave sweep =
      (wave.take (maxCandidates - sweep.asked.length),
        { sweep with
          asked := sweep.asked ++ wave.take (maxCandidates - sweep.asked.length)
          budgetExhausted := sweep.budgetExhausted || decide (maxCandidates - sweep.asked.length < wave.length) }) := by
  induction wave generalizing sweep with
  | nil => simp [ReachabilitySweep.ask]
  | cons target wave ih =>
    rw [ReachabilitySweep.ask]
    split
    case isTrue hspent =>
      rw [Nat.sub_eq_zero_of_le hspent, List.take_zero, List.append_nil, List.length_cons,
        decide_eq_true (Nat.succ_pos _), Bool.or_true]
    case isFalse hleft =>
      obtain ⟨room, hroom⟩ : ∃ room, maxCandidates - sweep.asked.length = room + 1 :=
        ⟨maxCandidates - sweep.asked.length - 1, by omega⟩
      have hrest : maxCandidates - (sweep.asked ++ [target]).length = room := by
        rw [List.length_append, List.length_singleton]
        omega
      rw [ih]
      dsimp only
      rw [hrest, hroom, List.take_succ_cons, List.length_cons, List.append_assoc, List.singleton_append]
      simp only [Nat.add_lt_add_iff_right]

theorem responders_hear_eq (responders : Responders) (targets : List Ipv4Addr)
    (state : List Ipv4Addr × List (Ipv4Addr × List ResponseSignal) × List Ipv4Addr) :
    ∃ answers, targets.foldl responders.hear state =
      (state.1 ++ targets.filter fun target => (responders.answer target).isSome, answers,
        state.2.2 ++ targets.filter fun target => (responders.answer target).isSome) := by
  induction targets generalizing state with
  | nil => exact ⟨state.2.1, by simp⟩
  | cons target targets ih =>
    obtain ⟨answers, hrest⟩ := ih (responders.hear state target)
    refine ⟨answers, ?_⟩
    rw [List.foldl_cons, hrest, Responders.hear]
    cases hanswer : responders.answer target with
    | none => simp [hanswer]
    | some signals => simp [hanswer]

theorem queueAround_eq (s : Finset Ipv4Addr × List Ipv4Addr) (target : Ipv4Addr) :
    queueAround known s target = ((expandAround target).filter (· ∉ known)).foldl enqueue s := by
  rw [List.foldl_filter]
  simp only [decide_eq_true_eq]
  rfl

variable (known maxCandidates responders) in
/-- **What one wave does.** -/
theorem turn_eq (pass : ReachPass) :
    ∃ answers, pass.turn known maxCandidates responders =
      { sweep :=
          { asked := pass.sweep.asked ++ pass.asking maxCandidates
            responded := pass.sweep.responded ++ pass.heard maxCandidates responders
            budgetExhausted := pass.sweep.budgetExhausted ||
              decide (maxCandidates - pass.sweep.asked.length < pass.wave.length) }
        queued := (((pass.heard maxCandidates responders).flatMap (adds known responders)).foldl enqueue
          (pass.queued, [])).1
        wave := (((pass.heard maxCandidates responders).flatMap (adds known responders)).foldl enqueue
          (pass.queued, [])).2
        answers } := by
  obtain ⟨answers, hhear⟩ := responders_hear_eq responders (responders.arrival (pass.asking maxCandidates))
    (pass.sweep.responded, pass.answers, [])
  have hqueue : (pass.heard maxCandidates responders).foldl (queueAround known) (pass.queued, []) =
      ((pass.heard maxCandidates responders).flatMap (adds known responders)).foldl enqueue (pass.queued, []) := by
    rw [List.foldl_flatMap]
    refine List.foldl_ext _ _ _ fun s target htarget => ?_
    rw [queueAround_eq, adds, if_pos (List.mem_filter.mp htarget).2]
  refine ⟨answers, ?_⟩
  rw [ReachPass.turn, ask_eq]
  dsimp only
  rw [← ReachPass.asking, hhear]
  dsimp only
  rw [List.nil_append, ← ReachPass.heard, hqueue]

variable (maxCandidates responders) in
theorem heard_perm (pass : ReachPass) :
    (pass.heard maxCandidates responders).Perm
      ((pass.asking maxCandidates).filter fun target => (responders.answer target).isSome) :=
  (responders.arrival_perm _).filter _

theorem mayAsk_of_adds {target a : Ipv4Addr} {addresses : Set Ipv4Addr} (htarget : target ∈ addresses)
    (h : a ∈ adds known responders target) : MayAsk known addresses a := by
  unfold adds at h
  split at h
  case isTrue =>
    obtain ⟨haround, hunknown⟩ := List.mem_filter.mp h
    obtain ⟨block, hprivate, hcontains, hgateway⟩ := mem_expandAround haround
    exact ⟨of_decide_eq_true hunknown, block, hprivate, ⟨target, htarget, hcontains⟩, hgateway⟩
  case isFalse => cases h

theorem MayAsk.mono {a : Ipv4Addr} {addresses more : Set Ipv4Addr} (h : MayAsk known addresses a)
    (hmore : addresses ⊆ more) : MayAsk known more a := by
  obtain ⟨hunknown, block, hprivate, ⟨address, haddress, hcontains⟩, hgateway⟩ := h
  exact ⟨hunknown, block, hprivate, ⟨address, hmore haddress, hcontains⟩, hgateway⟩

end Turn

/-! ## All waves -/

/-- What holds of the pass between any two waves. -/
structure ReachPass.Sound (known : Finset Ipv4Addr) (maxCandidates : Nat) (responders : Responders)
    (observed : List Ipv4Addr) (pass : ReachPass) : Prop where
  nodup : (pass.sweep.asked ++ pass.wave).Nodup
  queued : ∀ a ∈ pass.sweep.asked ++ pass.wave, a ∈ pass.queued
  mayAsk : ∀ a ∈ pass.sweep.asked ++ pass.wave,
    MayAsk known {address | address ∈ observed ∨ address ∈ pass.sweep.responded} a
  responded : pass.sweep.responded.Perm (pass.sweep.asked.filter fun target => (responders.answer target).isSome)
  bounded : pass.sweep.asked.length ≤ maxCandidates

section Waves

variable {known : Finset Ipv4Addr} {maxCandidates : Nat} {responders : Responders} {observed : List Ipv4Addr}
  {pass : ReachPass}

variable (known maxCandidates responders observed) in
theorem sound_start :
    (ReachPass.start maxCandidates (candidatesWithCoverage known maxCandidates observed).1).Sound known maxCandidates
      responders observed := by
  obtain ⟨hnodup, hmay⟩ := candidates_sound known maxCandidates observed
  refine ⟨hnodup, fun a ha => List.mem_toFinset.mpr ha, fun a ha => ?_, List.Perm.refl [], Nat.zero_le _⟩
  exact (hmay a ha).mono fun address haddress => .inl haddress

/-- **One wave.** What is asked was queued once, and what is queued now was not. -/
theorem ReachPass.Sound.turn (h : pass.Sound known maxCandidates responders observed) :
    (pass.turn known maxCandidates responders).Sound known maxCandidates responders observed := by
  obtain ⟨answers, hturn⟩ := turn_eq known maxCandidates responders pass
  have hqueue : Queue pass.queued.toList
      (((pass.heard maxCandidates responders).flatMap (adds known responders)).foldl enqueue (pass.queued, [])) := by
    refine Queue.foldl ⟨?_, ?_⟩ _
    · rw [List.append_nil, Finset.toList_toFinset]
    · rw [List.append_nil]
      exact Finset.nodup_toList _
  have hasking : ∀ a ∈ pass.asking maxCandidates, a ∈ pass.wave := fun a => List.mem_of_mem_take
  have hasked : ∀ a ∈ pass.sweep.asked ++ pass.asking maxCandidates, a ∈ pass.sweep.asked ++ pass.wave := by
    intro a ha
    rw [List.mem_append] at ha ⊢
    exact ha.imp_right (hasking a)
  rw [hturn]
  generalize hstate : ((pass.heard maxCandidates responders).flatMap (adds known responders)).foldl enqueue
    (pass.queued, []) = state at hqueue ⊢
  have hmem : ∀ a, a ∈ state.1 ↔ a ∈ pass.queued ∨ a ∈ state.2 := by
    intro a
    rw [hqueue.queued, List.mem_toFinset, List.mem_append, Finset.mem_toList]
  refine ⟨?_, ?_, ?_, ?_, ?_⟩
  · have hold : (pass.sweep.asked ++ pass.asking maxCandidates).Nodup :=
      h.nodup.sublist (List.Sublist.append_left (List.take_sublist _ _) _)
    obtain ⟨-, hnew, hdisjoint⟩ := List.nodup_append'.mp hqueue.nodup
    refine List.nodup_append'.mpr ⟨hold, hnew, fun a ha hnewa => hdisjoint ?_ hnewa⟩
    exact Finset.mem_toList.mpr (h.queued a (hasked a ha))
  · intro a ha
    rw [hmem]
    rcases List.mem_append.mp ha with ha | ha
    · exact .inl (h.queued a (hasked a ha))
    · exact .inr ha
  · intro a ha
    rcases List.mem_append.mp ha with ha | ha
    · refine (h.mayAsk a (hasked a ha)).mono fun address haddress => haddress.imp_right fun hin => ?_
      exact List.mem_append_left _ hin
    · have hadded : a ∈ (pass.heard maxCandidates responders).flatMap (adds known responders) := by
        have hall := queued_foldl (pass.queued, [])
          ((pass.heard maxCandidates responders).flatMap (adds known responders))
        rw [hstate] at hall
        have hin := (hmem a).mpr (.inr ha)
        rw [hall, Finset.mem_union, List.mem_toFinset] at hin
        refine hin.resolve_left fun hold => ?_
        obtain ⟨-, -, hdisjoint⟩ := List.nodup_append'.mp hqueue.nodup
        exact hdisjoint (Finset.mem_toList.mpr hold) ha
      obtain ⟨target, htarget, hadds⟩ := List.mem_flatMap.mp hadded
      exact mayAsk_of_adds (.inr (List.mem_append_right _ htarget)) hadds
  · rw [List.filter_append]
    exact h.responded.append (heard_perm maxCandidates responders pass)
  · have hlen : (pass.asking maxCandidates).length ≤ maxCandidates - pass.sweep.asked.length :=
      List.length_take_le _ _
    have hbounded := h.bounded
    rw [List.length_append]
    omega

variable (known responders) in
theorem length_asked_turn (hwave : pass.wave ≠ []) (hleft : pass.sweep.asked.length < maxCandidates) :
    pass.sweep.asked.length < (pass.turn known maxCandidates responders).sweep.asked.length := by
  obtain ⟨answers, hturn⟩ := turn_eq known maxCandidates responders pass
  have hpos : 0 < pass.wave.length := List.length_pos_iff.mpr hwave
  rw [hturn]
  dsimp only
  rw [List.length_append, ReachPass.asking, List.length_take]
  omega

/-- **The wave loop**: what one wave keeps holds at the end, and the loop does end. -/
theorem returns_waves {I : ReachPass → Prop}
    (hturn : ∀ pass, I pass → pass.wave ≠ [] → pass.sweep.asked.length < maxCandidates →
      I (pass.turn known maxCandidates responders)) (h : I pass) :
    Returns (fun last => I last ∧ (last.wave = [] ∨ maxCandidates ≤ last.sweep.asked.length))
      (loop (waveTurn known maxCandidates responders) (maxCandidates + 1) pass : Outcome ε _) := by
  refine returns_loop I (fun pass => maxCandidates - pass.sweep.asked.length) (fun pass hpass => ?_) h (by omega)
  unfold waveTurn
  split
  case isTrue hruns =>
    have hmore := length_asked_turn known responders hruns.1 hruns.2
    refine returns_ok ⟨hturn pass hpass hruns.1 hruns.2, ?_⟩
    have hleft := hruns.2
    omega
  case isFalse hends =>
    refine returns_ok ⟨hpass, ?_⟩
    by_cases hwave : pass.wave = []
    · exact .inl hwave
    · exact .inr (Nat.le_of_not_lt fun hleft => hends ⟨hwave, hleft⟩)

variable (known maxCandidates responders observed) in
/-- What a property of the pass needs: that it holds before the first wave, and that a wave keeps it. -/
theorem returns_pass (I : ReachPass → Prop)
    (hstart : (candidatesWithCoverage known maxCandidates observed).1 ≠ [] →
      I (.start maxCandidates (candidatesWithCoverage known maxCandidates observed).1))
    (hturn : ∀ pass, I pass → pass.wave ≠ [] → pass.sweep.asked.length < maxCandidates →
      I (pass.turn known maxCandidates responders)) :
    Returns (fun result => ∀ last coverage, result = some (last, coverage) →
        coverage = (candidatesWithCoverage known maxCandidates observed).2 ∧ I last ∧
          (last.wave = [] ∨ maxCandidates ≤ last.sweep.asked.length))
      (reachabilityPass known maxCandidates responders observed : Outcome ε _) := by
  unfold reachabilityPass
  obtain ⟨candidates, coverage, hlist⟩ : ∃ candidates coverage,
      candidatesWithCoverage known maxCandidates observed = (candidates, coverage) := ⟨_, _, rfl⟩
  rw [hlist] at hstart ⊢
  cases candidates with
  | nil => exact returns_ok nofun
  | cons candidate candidates =>
    refine (returns_waves hturn (hstart (List.cons_ne_nil _ _))).bind fun last hlast => ?_
    refine returns_ok fun last' coverage' hsome => ?_
    obtain ⟨rfl, rfl⟩ := Prod.mk.inj (Option.some.inj hsome)
    exact ⟨rfl, hlast⟩

end Waves

/-! ## What a pass asks -/

/-- The pass asked gateway addresses in the block of an observed or a responding address, none of them known and none
twice, and no more than the budget; those that answered are listed once. -/
structure ReachPass.Bounded (known : Finset Ipv4Addr) (maxCandidates : Nat) (responders : Responders)
    (observed : List Ipv4Addr) (pass : ReachPass) : Prop where
  mayAsk : ∀ a ∈ pass.sweep.asked, MayAsk known {address | address ∈ observed ∨ address ∈ pass.sweep.responded} a
  once : pass.sweep.asked.Nodup
  bounded : pass.sweep.asked.length ≤ maxCandidates
  responded : ∀ a, a ∈ pass.sweep.responded ↔ a ∈ pass.sweep.asked ∧ (responders.answer a).isSome = true
  respondedOnce : pass.sweep.responded.Nodup
  silent : (pass.sweep.silent : Outcome Empty Nat) =
    .ok (pass.sweep.asked.length - pass.sweep.responded.length)

theorem ReachPass.Sound.bounded_of {known : Finset Ipv4Addr} {maxCandidates : Nat} {responders : Responders}
    {observed : List Ipv4Addr} {pass : ReachPass} (h : pass.Sound known maxCandidates responders observed) :
    pass.Bounded known maxCandidates responders observed := by
  have honce : pass.sweep.asked.Nodup := (List.nodup_append.mp h.nodup).1
  refine ⟨fun a ha => h.mayAsk a (List.mem_append_left _ ha), honce, h.bounded, fun a => ?_, ?_, if_pos ?_⟩
  · rw [h.responded.mem_iff, List.mem_filter]
  · exact h.responded.nodup_iff.mpr (honce.filter _)
  · rw [h.responded.length_eq]
    exact List.length_filter_le _ _

/-- **Bounded reachability asks only what it may**, and ends, whatever the network answers. -/
theorem pass_bounded (known : Finset Ipv4Addr) (maxCandidates : Nat) (responders : Responders)
    (observed : List Ipv4Addr) :
    ∃ result, (reachabilityPass known maxCandidates responders observed : Outcome Empty _) = .ok result ∧
      ∀ pass coverage, result = some (pass, coverage) → pass.Bounded known maxCandidates responders observed := by
  obtain ⟨result, hresult, hpass⟩ := returns_pass (ε := Empty) known maxCandidates responders observed
    (ReachPass.Sound known maxCandidates responders observed)
    (fun _ => sound_start known maxCandidates responders observed) fun pass hsound _ _ => hsound.turn
  exact ⟨result, hresult, fun pass coverage hsome => (hpass pass coverage hsome).2.1.bounded_of⟩

end Idnx
