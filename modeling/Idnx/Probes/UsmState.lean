import Idnx.Lib.Framing
import Idnx.Lib.Run
import Idnx.Lib.Text

/-!
# Timeliness of an SNMP engine's messages

A manager keeps the boots and time counters an engine last reported and judges every authenticated message by them. It
starts from what discovery returned, which anyone can forge.

* `Alike`: two states that judge every message alike, now and later;
* `timeliness_from_authenticated_iff`: after the first authenticated message the judgement depends on the
  authenticated messages alone exactly if that message supersedes what discovery returned; `forged_time_remains`: it
  need not.
-/

namespace Idnx

/-- Seconds either side of an engine's clock in which a message is timely (`TIME_WINDOW_SECONDS`). -/
def timeWindowSeconds : Int := 150

/-- The largest value of the boots counter (`BOOTS_CEILING`). -/
def bootsCeiling : UInt32 := 2147483647

inductive Timeliness where
  | inWindow
  | outside
  | unusable
  deriving DecidableEq, Repr

/-- Why an agent sent a Report. -/
inductive ReportReason where
  | unknownEngineId
  | unknownUserName
  | unsupportedSecurityLevel
  | wrongDigest
  | notInTimeWindow
  | decryptionError
  | unknownSecurityModel
  | invalidMessage
  | other
  deriving DecidableEq, Repr

/-- What an unauthenticated discovery exchange established. -/
structure ProvisionalEngine where
  engineId : Bytes
  boots : UInt32
  time : UInt32
  reason : Option ReportReason
  deriving DecidableEq, Repr

/-- Privacy salts, counted from a random start. -/
structure SaltSource where
  counter : UInt64
  issued : UInt64
  deriving DecidableEq, Repr

def SaltSource.takeSalt (salts : SaltSource) : Except Text Bytes × SaltSource :=
  if salts.issued.toNat = 2 ^ 64 - 1 then (.error "the privacy salt sequence for this engine is exhausted", salts)
  else
    let counter := salts.counter + 1
    (.ok (beBytes 8 counter.toNat), ⟨counter, salts.issued + 1⟩)

/-- What a run knows about one engine. The clock is monotonic and counts nanoseconds. -/
structure Usm.EngineState where
  engineId : Bytes
  boots : UInt32
  synchronisedTime : UInt32
  recordedAt : Nat
  highestTime : UInt32
  confirmed : Bool
  salts : SaltSource
  deriving DecidableEq, Repr

namespace Usm.EngineState

/-- The counters of a discovery exchange, unconfirmed. -/
def discovered (engine : ProvisionalEngine) (now : Nat) (seed : UInt64) : Usm.EngineState where
  engineId := engine.engineId
  boots := engine.boots
  synchronisedTime := engine.time
  recordedAt := now
  highestTime := engine.time
  confirmed := false
  salts := ⟨seed, 0⟩

variable (s : Usm.EngineState)

/-- The engine's time as it is estimated: what it last reported and the whole seconds since. -/
def estimatedTime (now : Nat) : Nat :=
  let elapsed := (now - s.recordedAt) / 10 ^ 9
  let sum := min (s.synchronisedTime.toNat + elapsed) (2 ^ 64 - 1)
  min (if sum < 2 ^ 32 then sum else bootsCeiling.toNat) bootsCeiling.toNat

def nextSalt : Except Text Bytes × Usm.EngineState :=
  let (salt, salts) := s.salts.takeSalt
  (salt, { s with salts })

/-- Whether a message's counters place it inside the window. -/
def timeliness (now : Nat) (messageBoots messageTime : UInt32) : Timeliness :=
  if messageBoots = bootsCeiling ∨ s.boots = bootsCeiling then .unusable
  else if messageBoots < s.boots then .outside
  else if messageBoots > s.boots then .outside
  else
    let estimate : Int := s.estimatedTime now
    let reported : Int := messageTime.toNat
    if reported < estimate - timeWindowSeconds then .outside
    else if reported > estimate + timeWindowSeconds then .outside
    else .inWindow

/-- Records the counters of a message that has authenticated. -/
def absorbAuthenticated (now : Nat) (messageBoots messageTime : UInt32) : Usm.EngineState :=
  if messageBoots < s.boots then s
  else if messageBoots > s.boots then
    { s with
      boots := messageBoots
      synchronisedTime := messageTime
      recordedAt := now
      highestTime := messageTime
      confirmed := true }
  else if messageTime > s.highestTime then
    { s with synchronisedTime := messageTime, recordedAt := now, highestTime := messageTime, confirmed := true }
  else { s with confirmed := true }

end Usm.EngineState

/-! ## Runs -/

/-- An authenticated message and when it was absorbed. -/
structure Authenticated where
  boots : UInt32
  time : UInt32
  now : Nat
  deriving DecidableEq, Repr

def Usm.EngineState.absorb (s : Usm.EngineState) (m : Authenticated) : Usm.EngineState :=
  s.absorbAuthenticated m.now m.boots m.time

/-- The state that one authenticated message makes, whatever there was before. -/
def Usm.EngineState.heard (s : Usm.EngineState) (m : Authenticated) : Usm.EngineState :=
  { s with boots := m.boots, synchronisedTime := m.time, recordedAt := m.now, highestTime := m.time, confirmed := true }

/-! ## States that judge alike -/

section Alike

variable {s r : Usm.EngineState}

theorem estimatedTime_eq (s : Usm.EngineState) (now : Nat) :
    s.estimatedTime now = min (s.synchronisedTime.toNat + (now - s.recordedAt) / 10 ^ 9) 2147483647 := by
  unfold Usm.EngineState.estimatedTime
  have hceiling : bootsCeiling.toNat = 2147483647 := rfl
  rw [hceiling]
  dsimp only
  split_ifs <;> omega

theorem estimatedTime_le (s : Usm.EngineState) (now : Nat) : s.estimatedTime now ≤ 2147483647 := by
  rw [estimatedTime_eq]
  omega

/-- A message is timely if its boots are the engine's and its time is near the estimate. -/
theorem timeliness_eq_inWindow {now : Nat} {boots time : UInt32} :
    s.timeliness now boots time = .inWindow ↔ boots = s.boots ∧ boots ≠ bootsCeiling ∧
      s.estimatedTime now ≤ time.toNat + 150 ∧ time.toNat ≤ s.estimatedTime now + 150 := by
  unfold Usm.EngineState.timeliness timeWindowSeconds
  have hcompare : boots = s.boots ↔ ¬ boots < s.boots ∧ ¬ boots > s.boots := by
    rw [gt_iff_lt, UInt32.lt_iff_toNat_lt, UInt32.lt_iff_toNat_lt, ← UInt32.toNat_inj]
    omega
  dsimp only
  split_ifs with hceiling hlt hgt hearly hlate
  · simp only [false_iff]
    rintro ⟨rfl, hne, -⟩
    exact hne (hceiling.elim id id)
  · simp [hcompare, hlt]
  · simp [hcompare, hgt]
  · simp only [false_iff]
    omega
  · simp only [false_iff]
    omega
  · simp only [true_iff]
    refine ⟨hcompare.mpr ⟨hlt, hgt⟩, fun h => hceiling (.inl h), ?_, ?_⟩ <;> omega

/-- Two states with the same boots judge alike if they have the same time from the same moment, or the boots are at
the ceiling, or both times are. The highest time is always the one synchronised to. -/
structure Alike (s r : Usm.EngineState) : Prop where
  boots : s.boots = r.boots
  time : (s.synchronisedTime = r.synchronisedTime ∧ s.recordedAt = r.recordedAt) ∨ s.boots = bootsCeiling ∨
    (bootsCeiling ≤ s.synchronisedTime ∧ bootsCeiling ≤ r.synchronisedTime)
  left : s.highestTime = s.synchronisedTime
  right : r.highestTime = r.synchronisedTime

theorem Alike.timeliness (h : Alike s r) (now : Nat) (boots time : UInt32) :
    s.timeliness now boots time = r.timeliness now boots time := by
  unfold Usm.EngineState.timeliness
  rcases h.time with ⟨htime, hat⟩ | hceiling | ⟨hs, hr⟩
  · have hestimate : s.estimatedTime now = r.estimatedTime now := by
      rw [estimatedTime_eq, estimatedTime_eq, htime, hat]
    rw [h.boots, hestimate]
  · have hceiling' : r.boots = bootsCeiling := h.boots.symm.trans hceiling
    rw [if_pos (.inr hceiling), if_pos (.inr hceiling')]
  · have hestimate : s.estimatedTime now = r.estimatedTime now := by
      rw [UInt32.le_iff_toNat_le, show bootsCeiling.toNat = 2147483647 from rfl] at hs hr
      rw [estimatedTime_eq, estimatedTime_eq]
      omega
    rw [h.boots, hestimate]

/-- Both go on alike: a later message replaces both, or only the one whose time it exceeds, which then stays at the
ceiling. -/
theorem Alike.absorb (h : Alike s r) (m : Authenticated) : Alike (s.absorb m) (r.absorb m) := by
  have hboots := h.boots
  have hright := h.right
  have hleft := h.left
  unfold Usm.EngineState.absorb Usm.EngineState.absorbAuthenticated
  by_cases hlt : m.boots < r.boots
  · rw [if_pos hlt, if_pos (hboots ▸ hlt)]
    exact h
  by_cases hgt : m.boots > r.boots
  · rw [if_neg hlt, if_neg (hboots ▸ hlt), if_pos hgt, if_pos (hboots ▸ hgt)]
    exact ⟨rfl, .inl ⟨rfl, rfl⟩, rfl, rfl⟩
  rw [if_neg hlt, if_neg (hboots ▸ hlt), if_neg hgt, if_neg (hboots ▸ hgt), hleft, hright]
  by_cases hs : m.time > s.synchronisedTime <;> by_cases hr : m.time > r.synchronisedTime
  · rw [if_pos hs, if_pos hr]
    exact ⟨hboots, .inl ⟨rfl, rfl⟩, rfl, rfl⟩
  · rw [if_pos hs, if_neg hr]
    refine ⟨hboots, .inr ?_, rfl, rfl⟩
    rcases h.time with ⟨htime, -⟩ | hceiling | ⟨hsc, hrc⟩
    · exact absurd (htime ▸ hs) hr
    · exact .inl hceiling
    · exact .inr ⟨UInt32.le_trans hsc (UInt32.le_of_lt hs), hrc⟩
  · rw [if_neg hs, if_pos hr]
    refine ⟨hboots, .inr ?_, rfl, rfl⟩
    rcases h.time with ⟨htime, -⟩ | hceiling | ⟨hsc, hrc⟩
    · exact absurd (htime ▸ hr) hs
    · exact .inl hceiling
    · exact .inr ⟨hsc, UInt32.le_trans hrc (UInt32.le_of_lt hr)⟩
  · rw [if_neg hs, if_neg hr]
    exact ⟨hboots, h.time, rfl, rfl⟩

theorem Alike.run (h : Alike s r) (messages : List Authenticated) :
    Alike (Idnx.run Usm.EngineState.absorb s messages) (Idnx.run Usm.EngineState.absorb r messages) := by
  induction messages generalizing s r with
  | nil => exact h
  | cons m messages ih => exact ih (h.absorb m)

end Alike

/-! ## The first authenticated message -/

/-- A message supersedes what discovery returned: its counters are later; or they have the same boots, and these are
at the ceiling, or the message's time is, or the times are the same at the same moment. -/
def Supersedes (first : Authenticated) (engine : ProvisionalEngine) (start : Nat) : Prop :=
  engine.boots < first.boots ∨ (engine.boots = first.boots ∧
    (engine.time < first.time ∨ engine.boots = bootsCeiling ∨ bootsCeiling ≤ first.time ∨
      (engine.time = first.time ∧ start = first.now)))

/-- Decisions after the first authenticated message are those that the authenticated messages make by themselves. The
clock does not run backwards. -/
def FromAuthenticated (first : Authenticated) (engine : ProvisionalEngine) (start : Nat) : Prop :=
  ∀ (seed : UInt64) (rest : List Authenticated) (now : Nat) (boots time : UInt32),
    ((first :: rest).map Authenticated.now ++ [now]).Pairwise (· ≤ ·) →
      (run Usm.EngineState.absorb (.discovered engine start seed) (first :: rest)).timeliness now boots time =
        (run Usm.EngineState.absorb ((Usm.EngineState.discovered engine start seed).heard first) rest).timeliness now boots time

section First

variable {first : Authenticated} {engine : ProvisionalEngine} {start : Nat}

theorem Supersedes.alike (h : Supersedes first engine start) (seed : UInt64) :
    Alike ((Usm.EngineState.discovered engine start seed).absorb first)
      ((Usm.EngineState.discovered engine start seed).heard first) := by
  unfold Usm.EngineState.absorb Usm.EngineState.absorbAuthenticated
  rcases h with hlt | ⟨heq, hcase⟩
  · have hnot : ¬ first.boots < engine.boots := UInt32.lt_asymm hlt
    simp only [Usm.EngineState.discovered, hnot, if_false, gt_iff_lt, hlt, if_true]
    exact ⟨rfl, .inl ⟨rfl, rfl⟩, rfl, rfl⟩
  · have hnot : ¬ first.boots < engine.boots := by rw [heq]; exact UInt32.lt_irrefl _
    have hnot' : ¬ engine.boots < first.boots := by rw [heq]; exact UInt32.lt_irrefl _
    simp only [Usm.EngineState.discovered, hnot, if_false, gt_iff_lt, hnot']
    by_cases htime : engine.time < first.time
    · rw [if_pos htime]
      exact ⟨heq, .inl ⟨rfl, rfl⟩, rfl, rfl⟩
    · rw [if_neg htime]
      refine ⟨heq, ?_, rfl, rfl⟩
      rcases hcase with hlt | hceiling | hceiling | ⟨hsame, hstart⟩
      · exact absurd hlt htime
      · exact .inr (.inl hceiling)
      · exact .inr (.inr ⟨UInt32.le_trans hceiling (UInt32.not_lt.mp htime), hceiling⟩)
      · exact .inl ⟨hsame, hstart⟩

theorem Supersedes.fromAuthenticated (h : Supersedes first engine start) : FromAuthenticated first engine start := by
  intro seed rest now boots time _
  exact ((h.alike seed).run rest).timeliness now boots time

/-- A later estimate accepts a message that an earlier one does not. -/
theorem exists_timeliness_ne {s r : Usm.EngineState} {now : Nat} (hne : s.boots ≠ bootsCeiling)
    (hlt : r.estimatedTime now < s.estimatedTime now) :
    ∃ boots time, s.timeliness now boots time ≠ r.timeliness now boots time := by
  have hle := estimatedTime_le s now
  have htime : (UInt32.ofNat (s.estimatedTime now + 150)).toNat = s.estimatedTime now + 150 := by
    rw [UInt32.toNat_ofNat']
    omega
  refine ⟨s.boots, UInt32.ofNat (s.estimatedTime now + 150), fun h => ?_⟩
  have hs : s.timeliness now s.boots (UInt32.ofNat (s.estimatedTime now + 150)) = .inWindow :=
    timeliness_eq_inWindow.mpr ⟨rfl, hne, by omega, by omega⟩
  rw [h] at hs
  have := (timeliness_eq_inWindow.mp hs).2.2.2
  omega

/-- Nor do different boots judge alike. -/
theorem exists_timeliness_ne_of_boots {s r : Usm.EngineState} (now : Nat) (hboots : s.boots ≠ r.boots) :
    ∃ boots time, s.timeliness now boots time ≠ r.timeliness now boots time := by
  -- the boots that are not at the ceiling, at the estimated time
  have key : ∀ {s r : Usm.EngineState}, s.boots ≠ r.boots → s.boots ≠ bootsCeiling →
      ∃ boots time, s.timeliness now boots time ≠ r.timeliness now boots time := by
    intro s r hboots hne
    have hle := estimatedTime_le s now
    have htime : (UInt32.ofNat (s.estimatedTime now)).toNat = s.estimatedTime now := by
      rw [UInt32.toNat_ofNat']
      omega
    refine ⟨s.boots, UInt32.ofNat (s.estimatedTime now), fun h => ?_⟩
    have hs : s.timeliness now s.boots (UInt32.ofNat (s.estimatedTime now)) = .inWindow :=
      timeliness_eq_inWindow.mpr ⟨rfl, hne, by omega, by omega⟩
    rw [h] at hs
    exact hboots (timeliness_eq_inWindow.mp hs).1
  by_cases hs : s.boots = bootsCeiling
  · obtain ⟨boots, time, h⟩ := key (s := r) (r := s) hboots.symm (fun hr => hboots (hs.trans hr.symm))
    exact ⟨boots, time, h.symm⟩
  · exact key hboots hs

theorem FromAuthenticated.supersedes (hclock : start ≤ first.now) (h : FromAuthenticated first engine start) :
    Supersedes first engine start := by
  by_contra hnot
  rw [Supersedes, not_or] at hnot
  obtain ⟨hge, hcase⟩ := hnot
  -- two states that differ at a moment after the message, with no further message
  have hdiffer : ∀ now, first.now ≤ now →
      ¬ ∃ boots time, ((Usm.EngineState.discovered engine start 0).absorb first).timeliness now boots time ≠
        ((Usm.EngineState.discovered engine start 0).heard first).timeliness now boots time := by
    rintro now hnow ⟨boots, time, hne⟩
    exact hne (h 0 [] now boots time (by simpa using hnow))
  by_cases heq : engine.boots = first.boots
  · obtain ⟨htime, hrest⟩ := not_or.mp fun hc => hcase ⟨heq, hc⟩
    obtain ⟨hceiling, hrest⟩ := not_or.mp hrest
    obtain ⟨hfirst, hstart⟩ := not_or.mp hrest
    have habsorb : (Usm.EngineState.discovered engine start 0).absorb first =
        { Usm.EngineState.discovered engine start 0 with confirmed := true } := by
      unfold Usm.EngineState.absorb Usm.EngineState.absorbAuthenticated
      rw [if_neg (by rw [← heq]; exact UInt32.lt_irrefl _), if_neg (by rw [← heq]; exact UInt32.lt_irrefl _)]
      exact if_neg htime
    rw [UInt32.le_iff_toNat_le, show bootsCeiling.toNat = 2147483647 from rfl] at hfirst
    rw [UInt32.lt_iff_toNat_lt] at htime
    rw [habsorb] at hdiffer
    -- the moment of the message, or the next whole second after discovery
    by_cases hsame : engine.time = first.time
    · have hlt : start < first.now := Nat.lt_of_le_of_ne hclock fun hc => hstart ⟨hsame, hc⟩
      have hk := Nat.div_add_mod (first.now - start + (10 ^ 9 - 1)) (10 ^ 9)
      have hmod := Nat.mod_lt (first.now - start + (10 ^ 9 - 1)) (show 0 < 10 ^ 9 by decide)
      generalize (first.now - start + (10 ^ 9 - 1)) / 10 ^ 9 = k at hk
      refine hdiffer (start + 10 ^ 9 * k) (by omega) (exists_timeliness_ne hceiling ?_)
      rw [estimatedTime_eq, estimatedTime_eq]
      show min (first.time.toNat + (start + 10 ^ 9 * k - first.now) / 10 ^ 9) 2147483647 <
        min (engine.time.toNat + (start + 10 ^ 9 * k - start) / 10 ^ 9) 2147483647
      rw [hsame]
      omega
    · refine hdiffer first.now (Nat.le_refl _) (exists_timeliness_ne hceiling ?_)
      have hne : engine.time.toNat ≠ first.time.toNat := fun hc => hsame (UInt32.toNat_inj.mp hc)
      rw [estimatedTime_eq, estimatedTime_eq]
      show min (first.time.toNat + (first.now - first.now) / 10 ^ 9) 2147483647 <
        min (engine.time.toNat + (first.now - start) / 10 ^ 9) 2147483647
      omega
  · have hlt : first.boots < engine.boots := by
      rw [UInt32.lt_iff_toNat_lt] at hge
      rw [← UInt32.toNat_inj] at heq
      rw [UInt32.lt_iff_toNat_lt]
      omega
    have habsorb : (Usm.EngineState.discovered engine start 0).absorb first =
      Usm.EngineState.discovered engine start 0 := by
      unfold Usm.EngineState.absorb Usm.EngineState.absorbAuthenticated
      exact if_pos hlt
    rw [habsorb] at hdiffer
    exact hdiffer first.now (Nat.le_refl _) (exists_timeliness_ne_of_boots first.now heq)

end First

/-- **What the judgement rests on.** After the first authenticated message, decisions are those that the authenticated
messages make by themselves exactly if that message supersedes what discovery returned; so two runs whose discovery
replies it both supersedes decide alike. -/
theorem timeliness_from_authenticated_iff (first : Authenticated) (start : Nat) (hclock : start ≤ first.now) :
    (∀ engine, FromAuthenticated first engine start ↔ Supersedes first engine start) ∧
    ∀ engine engine', Supersedes first engine start → Supersedes first engine' start →
      ∀ (seed seed' : UInt64) (rest : List Authenticated) (now : Nat) (boots time : UInt32),
        (run Usm.EngineState.absorb (.discovered engine start seed) (first :: rest)).timeliness now boots time =
          (run Usm.EngineState.absorb (.discovered engine' start seed')
          (first :: rest)).timeliness now boots time := by
  refine ⟨fun engine => ⟨fun h => h.supersedes hclock, fun h => h.fromAuthenticated⟩, ?_⟩
  intro engine engine' h h' seed seed' rest now boots time
  have hleft := ((h.alike seed).run rest).timeliness now boots time
  have hright := ((h'.alike seed').run rest).timeliness now boots time
  have hheard : Alike ((Usm.EngineState.discovered engine start seed).heard first)
      ((Usm.EngineState.discovered engine' start seed').heard first) := ⟨rfl, .inl ⟨rfl, rfl⟩, rfl, rfl⟩
  exact hleft.trans (((hheard.run rest).timeliness now boots time).trans hright.symm)

/-- What discovery returned, and the same with a time no authenticated message bears out. -/
def honestReply : ProvisionalEngine := ⟨[0x80, 0, 0x1f, 0x88, 0x80, 1], 3, 0, some .unknownEngineId⟩

def forgedReply : ProvisionalEngine := ⟨[0x80, 0, 0x1f, 0x88, 0x80, 1], 3, 100000, some .unknownEngineId⟩

/-- A forged time is kept after an authenticated message has said otherwise, and locks the engine out. -/
theorem forged_time_remains :
    (run Usm.EngineState.absorb (.discovered honestReply 0 0) [⟨3, 100, 10 ^ 9⟩]).timeliness
      (2 * 10 ^ 9) 3 101 = .inWindow ∧ (run Usm.EngineState.absorb
        (.discovered forgedReply 0 0) [⟨3, 100, 10 ^ 9⟩]).timeliness (2 * 10 ^ 9) 3 101 =
        .outside := by
  decide

theorem timeliness_from_honest_reply :
    Supersedes ⟨3, 100, 10 ^ 9⟩ honestReply 0 ∧ FromAuthenticated ⟨3, 100, 10 ^ 9⟩ honestReply 0 := by
  have h : Supersedes ⟨3, 100, 10 ^ 9⟩ honestReply 0 := .inr ⟨rfl, .inl (by decide)⟩
  exact ⟨h, ((timeliness_from_authenticated_iff ⟨3, 100, 10 ^ 9⟩ 0 (Nat.zero_le _)).1 honestReply).mpr h⟩

end Idnx
