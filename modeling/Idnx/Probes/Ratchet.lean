import Idnx.Probes.Located
import Idnx.Probes.UsmState
import Mathlib.Data.Prod.Lex

/-!
# The clock of an SNMP engine is a ratchet

The counters of an engine, boots first and then the highest time, are ordered lexicographically, and absorbing a
message takes the larger of the state's and the message's (`counters_absorb`). So over a run they are the largest there
has been, and what the state estimates is never below a time it has accepted under the same boots (`engine_ratchet`).
-/

namespace Idnx

open Outcome

/-! ## What discovery returns -/

/-- Reads what a discovery answer establishes. -/
def ProvisionalEngine.fromMessage (message : DecodedMessage) (reason : Option ReportReason) :
    Except Text ProvisionalEngine :=
  let engineId := message.usm.engineId
  if minEngineId ≤ engineId.length ∧ engineId.length ≤ maxEngineId then
    .ok ⟨engineId, message.usm.engineBoots, message.usm.engineTime, reason⟩
  else
    .error (("discovery returned a " : Text) ++ Text.ofNat engineId.length ++ "-octet engine ID; RFC 3411 defines " ++
      Text.ofNat minEngineId ++ "..=" ++ Text.ofNat maxEngineId)

/-- The counters of a message that was decoded are within their range, and discovery takes them as they are. -/
theorem time_le_of_discovery {datagram : Bytes} {m : DecodedMessage} {reason : Option ReportReason}
    {engine : ProvisionalEngine} (hdecode : decodeMessage datagram = .ok m)
    (hengine : ProvisionalEngine.fromMessage m reason = .ok engine) : engine.time.toNat ≤ 2147483647 := by
  have hsafe := safe_decodeMessage datagram
  rw [hdecode] at hsafe
  obtain ⟨l, hl⟩ := hsafe
  obtain ⟨-, htime⟩ := hl.consistent.counters
  unfold ProvisionalEngine.fromMessage at hengine
  dsimp only at hengine
  split at hengine
  · cases hengine
    unfold maxCounter at htime
    dsimp only
    omega
  · cases hengine

/-! ## Counters -/

/-- Boots and highest time of a state, the boots counting first. -/
def Usm.EngineState.counters (s : Usm.EngineState) : Nat ×ₗ Nat := toLex (s.boots.toNat, s.highestTime.toNat)

def Authenticated.counters (m : Authenticated) : Nat ×ₗ Nat := toLex (m.boots.toNat, m.time.toNat)

section Absorb

variable {s : Usm.EngineState} {m : Authenticated}

theorem counters_le_iff : m.counters ≤ s.counters ↔
    m.boots < s.boots ∨ m.boots = s.boots ∧ m.time ≤ s.highestTime := by
  unfold Authenticated.counters Usm.EngineState.counters
  rw [Prod.Lex.toLex_le_toLex, UInt32.lt_iff_toNat_lt, UInt32.le_iff_toNat_le, ← UInt32.toNat_inj]

/-- A message that is not later than the state changes nothing but that the state is confirmed. -/
theorem absorb_of_le (h : m.counters ≤ s.counters) : s.absorb m = s ∨ s.absorb m = { s with confirmed := true } := by
  unfold Usm.EngineState.absorb Usm.EngineState.absorbAuthenticated
  rcases counters_le_iff.mp h with hlt | ⟨heq, hle⟩
  · rw [if_pos hlt]
    exact .inl rfl
  · rw [heq, if_neg (UInt32.lt_irrefl _), if_neg (UInt32.lt_irrefl _), if_neg (UInt32.not_lt.mpr hle)]
    exact .inr rfl

/-- A later message replaces the counters and the clock they run by. -/
theorem absorb_of_lt (h : s.counters < m.counters) : s.absorb m = s.heard m := by
  have hnot : ¬ m.counters ≤ s.counters := not_le.mpr h
  rw [counters_le_iff, not_or] at hnot
  obtain ⟨hge, hequal⟩ := hnot
  unfold Usm.EngineState.absorb Usm.EngineState.absorbAuthenticated Usm.EngineState.heard
  rw [if_neg hge]
  by_cases hgt : m.boots > s.boots
  · rw [if_pos hgt]
  · have heq : m.boots = s.boots := UInt32.le_antisymm (UInt32.not_lt.mp hgt) (UInt32.not_lt.mp hge)
    rw [if_neg hgt, if_pos (UInt32.not_le.mp fun hle => hequal ⟨heq, hle⟩), heq]

/-- Absorbing takes the larger counters. -/
theorem counters_absorb (s : Usm.EngineState) (m : Authenticated) :
    (s.absorb m).counters = max s.counters m.counters := by
  rcases le_or_gt m.counters s.counters with hle | hlt
  · rw [max_eq_left hle]
    rcases absorb_of_le hle with h | h <;> rw [h]
    rfl
  · rw [max_eq_right hlt.le, absorb_of_lt hlt]
    rfl

theorem counters_le_absorb (s : Usm.EngineState) (m : Authenticated) : s.counters ≤ (s.absorb m).counters := by
  rw [counters_absorb]
  exact le_max_left _ _

end Absorb

/-! ## Runs -/

section Runs

variable {s : Usm.EngineState}

theorem counters_le_run (s : Usm.EngineState) (messages : List Authenticated) :
    s.counters ≤ (run Usm.EngineState.absorb s messages).counters := by
  induction messages generalizing s with
  | nil => exact le_refl _
  | cons m messages ih => exact (counters_le_absorb s m).trans (ih (s.absorb m))

/-- What holds between the messages absorbed so far and the state: none has later counters, the highest time is the one
synchronised to, and it is within its range. -/
structure Ratcheted (past : List Authenticated) (s : Usm.EngineState) : Prop where
  latest : ∀ m ∈ past, m.counters ≤ s.counters
  synchronised : s.synchronisedTime = s.highestTime
  bounded : s.highestTime.toNat ≤ 2147483647

theorem Ratcheted.absorb {past : List Authenticated} {m : Authenticated} (h : Ratcheted past s)
    (hm : m.time.toNat ≤ 2147483647) : Ratcheted (past ++ [m]) (s.absorb m) := by
  have hlatest : ∀ x ∈ past ++ [m], x.counters ≤ (s.absorb m).counters := by
    intro x hx
    rw [counters_absorb]
    rcases List.mem_append.mp hx with hx | hx
    · exact le_max_of_le_left (h.latest x hx)
    · rw [List.mem_singleton.mp hx]
      exact le_max_right _ _
  rcases le_or_gt m.counters s.counters with hle | hlt
  · rcases absorb_of_le hle with he | he
    · rw [he] at hlatest ⊢
      exact ⟨hlatest, h.synchronised, h.bounded⟩
    · rw [he] at hlatest ⊢
      exact ⟨hlatest, h.synchronised, h.bounded⟩
  · rw [absorb_of_lt hlt] at hlatest ⊢
    exact ⟨hlatest, rfl, hm⟩

theorem ratcheted_run (h : Ratcheted [] s) {messages : List Authenticated}
    (htimes : ∀ m ∈ messages, m.time.toNat ≤ 2147483647) :
    Ratcheted messages (run Usm.EngineState.absorb s messages) := by
  induction messages using List.reverseRecOn with
  | nil => exact h
  | append_singleton messages m ih =>
    rw [run_concat]
    refine (ih fun x hx => htimes x (List.mem_append_left _ hx)).absorb (htimes m ?_)
    exact List.mem_append_right _ List.mem_cons_self

/-- The estimate lies between the highest time and the largest there is. -/
theorem Ratcheted.le_estimatedTime {past : List Authenticated} (h : Ratcheted past s) (now : Nat) :
    s.highestTime.toNat ≤ s.estimatedTime now := by
  have hbounded := h.bounded
  rw [estimatedTime_eq, h.synchronised]
  omega

theorem Ratcheted.time_le_estimatedTime {past : List Authenticated} {m : Authenticated} (h : Ratcheted past s)
    (hm : m ∈ past) (hboots : m.boots = s.boots) (now : Nat) : m.time.toNat ≤ s.estimatedTime now := by
  rcases counters_le_iff.mp (h.latest m hm) with hlt | ⟨-, hle⟩
  · rw [hboots] at hlt
    exact absurd hlt (UInt32.lt_irrefl _)
  · exact Nat.le_trans (UInt32.le_iff_toNat_le.mp hle) (h.le_estimatedTime now)

end Runs

/-- **The engine's clock is a ratchet.** From what discovery returned, whatever authenticated messages are absorbed and
whenever: the counters never go back; the estimate is never below a time accepted under the same boots, nor above
`2 ^ 31 - 1`; a message that is not later changes no counter; and one with other boots, or more than 150 seconds from
the estimate, is not timely. -/
theorem engine_ratchet {datagram : Bytes} {m : DecodedMessage} {reason : Option ReportReason}
    {engine : ProvisionalEngine} (hdecode : decodeMessage datagram = .ok m)
    (hengine : ProvisionalEngine.fromMessage m reason = .ok engine) (start : Nat) (seed : UInt64)
    (messages : List Authenticated) (htimes : ∀ x ∈ messages, x.time.toNat ≤ 2147483647) :
    let s := run Usm.EngineState.absorb (.discovered engine start seed) messages
    (∀ before after, messages = before ++ after →
      (run Usm.EngineState.absorb (.discovered engine start seed) before).counters ≤ s.counters) ∧
    (∀ now, s.highestTime.toNat ≤ s.estimatedTime now ∧ s.estimatedTime now ≤ 2147483647 ∧
      ∀ x ∈ messages, x.boots = s.boots → x.time.toNat ≤ s.estimatedTime now) ∧
    (∀ x : Authenticated, x.boots < s.boots ∨ x.boots = s.boots ∧ x.time ≤ s.highestTime →
      (s.absorb x).boots = s.boots ∧ (s.absorb x).synchronisedTime = s.synchronisedTime ∧
        (s.absorb x).highestTime = s.highestTime) ∧
    ∀ (now : Nat) (boots time : UInt32), boots ≠ s.boots ∨ time.toNat + 150 < s.estimatedTime now ∨
      s.estimatedTime now + 150 < time.toNat → s.timeliness now boots time ≠ .inWindow := by
  intro s
  have hstart : Ratcheted [] (.discovered engine start seed) := ⟨nofun, rfl, time_le_of_discovery hdecode hengine⟩
  have hs : Ratcheted messages s := ratcheted_run hstart htimes
  refine ⟨?_, ?_, ?_, ?_⟩
  · rintro before after rfl
    dsimp only [s]
    rw [run_append]
    exact counters_le_run _ after
  · intro now
    exact ⟨hs.le_estimatedTime now, estimatedTime_le s now, fun x hx hboots => hs.time_le_estimatedTime hx hboots now⟩
  · intro x hx
    rcases absorb_of_le (counters_le_iff.mpr hx) with h | h
    · rw [h]
      exact ⟨rfl, rfl, rfl⟩
    · rw [h]
      exact ⟨rfl, rfl, rfl⟩
  · intro now boots time hfar hin
    obtain ⟨hboots, -, hearly, hlate⟩ := timeliness_eq_inWindow.mp hin
    rcases hfar with hne | hfar | hfar
    · exact hne hboots
    · omega
    · omega

/-- What the request of `sampleEncoded` decodes to, its digest still zeroes. -/
def sampleDecoded : DecodedMessage :=
  ⟨sampleEncoded.bytes, 1, 5, 3, ⟨[0x80, 0, 0, 0, 1], 1, 100, Text.asBytes "idnx", List.replicate 24 0, []⟩, ⟨45, 69⟩,
    ⟨71, 109⟩, false⟩

theorem engine_ratchet_sample :
    decodeMessage sampleEncoded.bytes = .ok sampleDecoded ∧
      ∀ now, 160 ≤ (run Usm.EngineState.absorb (.discovered ⟨[0x80, 0, 0, 0, 1], 1, 100, none⟩ 0 0)
        [⟨1, 160, 5 * 10 ^ 9⟩]).estimatedTime now := by
  have hdecode : decodeMessage sampleEncoded.bytes = .ok sampleDecoded := by decide
  have hengine : ProvisionalEngine.fromMessage sampleDecoded none = .ok ⟨[0x80, 0, 0, 0, 1], 1, 100, none⟩ := by rfl
  refine ⟨hdecode, fun now => ?_⟩
  obtain ⟨-, hestimate, -⟩ := engine_ratchet hdecode hengine 0 0 [⟨1, 160, 5 * 10 ^ 9⟩] (by decide)
  exact (hestimate now).1

end Idnx
