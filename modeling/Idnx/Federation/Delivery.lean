import Idnx.Federation.Relay
import Mathlib.Data.List.Flatten

/-!
# What the relay delivers

Envelopes get lost on the way: by age, because their mailbox is full, because the relay is full. As long as the clock
does not run backwards what is lost is always the oldest part of a mailbox.

* `Waiting`: what a mailbox holds is the end of what was accepted into it since it was last emptied;
* `relay_delivers`: so a collection returns a suffix of that, and no envelope twice or from another mailbox.
-/

namespace Idnx

/-! ## Events -/

/-- What a call comes to: an envelope is accepted into a mailbox or refused, or a mailbox is emptied. -/
inductive RelayEvent where
  | accepted (mailbox : Text) (envelope : Bytes)
  | refused (error : RelayError)
  | collected (mailbox : Text) (envelopes : List Bytes)
  deriving DecidableEq, Repr

def RelayQueue.event (q : RelayQueue) : RelayCall → RelayEvent
  | .deposit order now stamp mailbox envelope =>
    match (q.deposit order now stamp mailbox envelope).1 with
    | .ok () => .accepted mailbox envelope
    | .error e => .refused e
  | .collect now mailbox => .collected mailbox (q.collect now mailbox).1

/-- The events of a list of calls, one a call. -/
def relayTrace (q : RelayQueue) : List RelayCall → List RelayEvent
  | [] => []
  | call :: calls => q.event call :: relayTrace (q.step call) calls

/-- The events of a run from the empty queue. -/
def relayEvents (calls : List RelayCall) : List RelayEvent := relayTrace {} calls

/-- The clock's readings during a call. -/
def RelayCall.readings : RelayCall → List Nat
  | .deposit _ now stamp _ _ => [now, stamp]
  | .collect now _ => [now]

/-- One event more, with its number, for the envelopes waiting in a mailbox. -/
def RelayEvent.await (box : Text) (waiting : List (Nat × Bytes)) : RelayEvent × Nat → List (Nat × Bytes)
  | (.accepted mailbox envelope, i) => if mailbox = box then waiting ++ [(i, envelope)] else waiting
  | (.refused _, _) => waiting
  | (.collected mailbox _, _) => if mailbox = box then [] else waiting

/-- The envelopes accepted into a mailbox since it was last emptied, in order, with the numbers of their events. -/
def awaiting (box : Text) (events : List RelayEvent) : List (Nat × Bytes) :=
  events.zipIdx.foldl (RelayEvent.await box) []

/-- The envelopes that event `k`, a collection, takes: as many as it returns from the end of those waiting. -/
def taken (events : List RelayEvent) (k : Nat) : List (Nat × Bytes) :=
  match events[k]? with
  | some (.collected box out) =>
    let waiting := awaiting box (events.take k)
    waiting.drop (waiting.length - out.length)
  | _ => []

theorem relayTrace_concat (q : RelayQueue) (calls : List RelayCall) (call : RelayCall) :
    relayTrace q (calls ++ [call]) = relayTrace q calls ++ [(run RelayQueue.step q calls).event call] := by
  induction calls generalizing q with
  | nil => rfl
  | cons c calls ih =>
    rw [List.cons_append, relayTrace, ih]
    rfl

theorem relayTrace_take (q : RelayQueue) (calls : List RelayCall) (k : Nat) :
    (relayTrace q calls).take k = relayTrace q (calls.take k) := by
  induction calls generalizing q k with
  | nil => simp [relayTrace]
  | cons c calls ih =>
    cases k with
    | zero => rfl
    | succ k => rw [relayTrace, List.take_succ_cons, List.take_succ_cons, relayTrace, ih]

theorem relayTrace_getElem? (q : RelayQueue) (calls : List RelayCall) (k : Nat) :
    (relayTrace q calls)[k]? = calls[k]?.map (run RelayQueue.step q (calls.take k)).event := by
  induction calls generalizing q k with
  | nil => rfl
  | cons c calls ih =>
    cases k with
    | zero => rfl
    | succ k =>
      rw [relayTrace, List.getElem?_cons_succ, List.getElem?_cons_succ, List.take_succ_cons, run_cons]
      exact ih (q.step c) k

theorem awaiting_concat (box : Text) (events : List RelayEvent) (event : RelayEvent) :
    awaiting box (events ++ [event]) = RelayEvent.await box (awaiting box events) (event, events.length) := by
  unfold awaiting
  rw [List.zipIdx_append, List.foldl_append, Nat.zero_add]
  rfl

/-- An envelope that is waiting was accepted into the mailbox, which has not been emptied since. -/
theorem of_mem_awaiting {box : Text} {events : List RelayEvent} {i : Nat} {envelope : Bytes}
    (h : (i, envelope) ∈ awaiting box events) :
    events[i]? = some (.accepted box envelope) ∧ ∀ j out, i < j → events[j]? ≠ some (.collected box out) := by
  induction events using List.reverseRecOn with
  | nil => cases h
  | append_singleton events event ih =>
    rw [awaiting_concat] at h
    -- an event that waited already, if the new one does not empty the mailbox
    have hold : (i, envelope) ∈ awaiting box events → (∀ out, event ≠ .collected box out) →
        (events ++ [event])[i]? = some (.accepted box envelope) ∧
          ∀ j out, i < j → (events ++ [event])[j]? ≠ some (.collected box out) := by
      intro hmem hne
      obtain ⟨hi, hj⟩ := ih hmem
      have hlt := (List.getElem?_eq_some_iff.mp hi).1
      refine ⟨by rw [List.getElem?_append_left hlt, hi], fun j out hij hget => ?_⟩
      rcases Nat.lt_or_ge j events.length with hlt' | hge
      · rw [List.getElem?_append_left hlt'] at hget
        exact hj j out hij hget
      · rw [List.getElem?_append_right hge, List.getElem?_singleton] at hget
        split_ifs at hget
        exact hne out (Option.some.inj hget)
    cases event with
    | refused e => exact hold h (by intro out hc; cases hc)
    | accepted mailbox env =>
      unfold RelayEvent.await at h
      dsimp only at h
      split_ifs at h with hb
      · rcases List.mem_append.mp h with h | h
        · exact hold h (by intro out hc; cases hc)
        · cases List.mem_singleton.mp h
          refine ⟨by rw [List.getElem?_concat_length, hb], fun j out hij => ?_⟩
          rw [List.getElem?_eq_none (by rw [List.length_append, List.length_singleton]; omega)]
          exact fun hc => nomatch hc
      · exact hold h (by intro out hc; cases hc)
    | collected mailbox out =>
      unfold RelayEvent.await at h
      dsimp only at h
      split_ifs at h with hb
      · cases h
      · exact hold h (by intro out' hc; cases hc; exact hb rfl)

/-! ## What is waiting -/

/-- In a list in order of age the young ones come last. -/
theorem RelayQueue.fresh_suffix (ttl now : Nat) {queue : List Held}
    (h : queue.Pairwise fun e e' => e.deposited ≤ e'.deposited) : fresh ttl now queue <:+ queue := by
  induction queue with
  | nil => exact List.suffix_rfl
  | cons e queue ih =>
    obtain ⟨he, hq⟩ := List.pairwise_cons.mp h
    unfold fresh at ih ⊢
    rw [List.filter_cons]
    split_ifs with hnow
    · -- if the first is young enough then all are
      have hall : queue.filter (fun h => decide (now - h.deposited < ttl)) = queue := by
        refine List.filter_eq_self.mpr fun e' he' => decide_eq_true ?_
        have hle := he e' he'
        have hlt := of_decide_eq_true hnow
        omega
      exact hall.symm ▸ List.suffix_rfl
    · exact (ih hq).trans (List.suffix_cons e queue)

/-- What holds of every mailbox after a run on a clock that does not run backwards: it holds the end of what was
accepted into it since it was last emptied, in order of age, stamped with readings of the clock. -/
structure Waiting (calls : List RelayCall) (q : RelayQueue) : Prop where
  suffix : ∀ box, (q.held box).map Held.bytes <:+ (awaiting box (relayEvents calls)).map Prod.snd
  sorted : ∀ box, (q.held box).Pairwise fun e e' => e.deposited ≤ e'.deposited
  past : ∀ box, ∀ e ∈ q.held box, e.deposited ∈ calls.flatMap RelayCall.readings

namespace Waiting

variable {calls : List RelayCall}

/-- The part of a mailbox that is young enough. -/
theorem fresh {q : RelayQueue} (h : Waiting calls q) (now : Nat) (box : Text) :
    RelayQueue.fresh envelopeTtl now (q.held box) <:+ q.held box :=
  RelayQueue.fresh_suffix _ _ (h.sorted box)

/-- A call that leaves an end of each mailbox, unless it empties it or appends an envelope to it. -/
theorem concat {q q' : RelayQueue} {call : RelayCall} (h : Waiting calls q) (hrun : relayRun calls = q)
    (hkept : ∀ box, ∃ kept, kept <:+ q.held box ∧
      (q'.held box = kept ∧ (∀ env, q.event call ≠ .accepted box env) ∧ (∀ out, q.event call ≠ .collected box out) ∨
        (q'.held box = [] ∧ ∃ out, q.event call = .collected box out) ∨
        ∃ env stamp, q'.held box = kept ++ [⟨env, stamp⟩] ∧ q.event call = .accepted box env ∧
          stamp ∈ call.readings))
    (hclock : ((calls ++ [call]).flatMap RelayCall.readings).Pairwise (· ≤ ·)) : Waiting (calls ++ [call]) q' := by
  have hevents : relayEvents (calls ++ [call]) = relayEvents calls ++ [q.event call] := by
    rw [← hrun]
    exact relayTrace_concat {} calls call
  rw [List.flatMap_append, List.pairwise_append] at hclock
  have hlater : ∀ t ∈ calls.flatMap RelayCall.readings, ∀ t' ∈ call.readings, t ≤ t' := by
    intro t ht t' ht'
    exact hclock.2.2 t ht t' (by rw [List.flatMap_singleton]; exact ht')
  refine ⟨fun box => ?_, fun box => ?_, fun box => ?_⟩
  all_goals obtain ⟨kept, hsuffix, hcase⟩ := hkept box
  · rw [hevents, awaiting_concat]
    have hbytes := (hsuffix.map Held.bytes).trans (h.suffix box)
    rcases hcase with ⟨hq', ha, hc⟩ | ⟨hq', -⟩ | ⟨env, stamp, hq', ha, -⟩
    · rw [hq']
      cases hev : q.event call with
      | refused e => exact hbytes
      | accepted mailbox env =>
        have hne : mailbox ≠ box := by rintro rfl; exact ha env hev
        simp only [RelayEvent.await, if_neg hne]
        exact hbytes
      | collected mailbox out =>
        have hne : mailbox ≠ box := by rintro rfl; exact hc out hev
        simp only [RelayEvent.await, if_neg hne]
        exact hbytes
    · rw [hq']
      exact List.nil_suffix
    · rw [hq', ha]
      simp only [RelayEvent.await, if_pos, List.map_append]
      exact List.suffix_append_self_iff.mpr hbytes
  · have hkeep := (h.sorted box).sublist hsuffix.sublist
    rcases hcase with ⟨hq', -, -⟩ | ⟨hq', -⟩ | ⟨env, stamp, hq', -, hstamp⟩ <;> rw [hq']
    · exact hkeep
    · exact .nil
    · refine List.pairwise_append.mpr ⟨hkeep, List.pairwise_singleton _ _, fun e he e' he' => ?_⟩
      rw [List.mem_singleton.mp he']
      exact hlater _ (h.past box e (hsuffix.subset he)) _ hstamp
  · intro e he
    rw [List.flatMap_append, List.mem_append]
    rcases hcase with ⟨hq', -, -⟩ | ⟨hq', -⟩ | ⟨env, stamp, hq', -, hstamp⟩ <;> rw [hq'] at he
    · exact .inl (h.past box e (hsuffix.subset he))
    · cases he
    · rcases List.mem_append.mp he with he | he
      · exact .inl (h.past box e (hsuffix.subset he))
      · rw [List.mem_singleton.mp he, List.flatMap_singleton]
        exact .inr hstamp

end Waiting

/-- After every run on such a clock. -/
theorem waiting_relayRun {calls : List RelayCall} (h : (calls.flatMap RelayCall.readings).Pairwise (· ≤ ·)) :
    Waiting calls (relayRun calls) := by
  induction calls using List.reverseRecOn with
  | nil => exact ⟨fun _ => List.nil_suffix, fun _ => .nil, fun _ _ he => nomatch he⟩
  | append_singleton calls call ih =>
    have hw := ih (by rw [List.flatMap_append, List.pairwise_append] at h; exact h.1)
    have hstep : relayRun (calls ++ [call]) = (relayRun calls).step call := run_concat _ _ _ _
    rw [hstep]
    refine hw.concat rfl (fun box => ?_) h
    generalize relayRun calls = q at hw ⊢
    cases call with
    | deposit order now stamp mailbox envelope =>
      rcases q.held_deposit order now stamp mailbox envelope box with
        ⟨hok, kept, hkept, hheld⟩ | ⟨⟨e, herr⟩, hheld⟩
      · have hev : q.event (.deposit order now stamp mailbox envelope) = .accepted mailbox envelope := by
          simp only [RelayQueue.event, hok]
        refine ⟨kept, hkept.trans (hw.fresh now box), ?_⟩
        by_cases hb : box = mailbox
        · rw [if_pos hb] at hheld
          exact .inr (.inr ⟨envelope, stamp, hheld, hb ▸ hev, by simp [RelayCall.readings]⟩)
        · rw [if_neg hb] at hheld
          refine .inl ⟨hheld, fun env hc => ?_, fun out hc => ?_⟩
          · rw [hev] at hc
            cases hc
            exact hb rfl
          · rw [hev] at hc
            cases hc
      · have hev : q.event (.deposit order now stamp mailbox envelope) = .refused e := by
          simp only [RelayQueue.event, herr]
        have hkept : (q.deposit order now stamp mailbox envelope).2.held box <:+ q.held box := by
          rcases hheld with hheld | hheld
          · exact hheld.symm ▸ List.suffix_rfl
          · exact hheld.trans (hw.fresh now box)
        refine ⟨_, hkept, .inl ⟨rfl, ?_, ?_⟩⟩
        · rw [hev]
          intro env hc
          cases hc
        · rw [hev]
          intro out hc
          cases hc
    | collect now mailbox =>
      have hheld := (q.held_collect now mailbox).2 box
      by_cases hb : box = mailbox
      · rw [if_pos hb] at hheld
        exact ⟨[], List.nil_suffix, .inr (.inl ⟨hheld, _, by rw [hb]; rfl⟩)⟩
      · rw [if_neg hb] at hheld
        refine ⟨_, hw.fresh now box, .inl ⟨hheld, (fun _ hc => nomatch hc), fun out hc => ?_⟩⟩
        cases hc
        exact hb rfl

/-! ## Delivery -/

section Delivery

variable {events : List RelayEvent} {k : Nat}

theorem taken_suffix {box : Text} {out : List Bytes} (h : events[k]? = some (.collected box out)) :
    taken events k <:+ awaiting box (events.take k) := by
  simp only [taken, h]
  exact List.drop_suffix _ _

/-- An envelope that a collection takes was accepted earlier, into the mailbox that is collected, and no collection of
that mailbox came in between. -/
theorem of_mem_taken {i : Nat} {envelope : Bytes} (h : (i, envelope) ∈ taken events k) :
    ∃ box out, events[k]? = some (.collected box out) ∧ i < k ∧ events[i]? = some (.accepted box envelope) ∧
      ∀ j out, i < j → j < k → events[j]? ≠ some (.collected box out) := by
  cases hk : events[k]? with
  | none => simp only [taken, hk] at h; cases h
  | some event =>
    cases event with
    | accepted mailbox env => simp only [taken, hk] at h; cases h
    | refused e => simp only [taken, hk] at h; cases h
    | collected box out =>
      obtain ⟨hi, hj⟩ := of_mem_awaiting ((taken_suffix hk).subset h)
      rw [List.getElem?_take] at hi
      split_ifs at hi with hik
      refine ⟨box, out, rfl, hik, hi, fun j out' hij hjk => ?_⟩
      have hnot := hj j out' hij
      rwa [List.getElem?_take, if_pos hjk] at hnot

theorem taken_disjoint {j : Nat} (h : j < k) : (taken events j).Disjoint (taken events k) := by
  intro p hj hk
  obtain ⟨i, envelope⟩ := p
  obtain ⟨box, out, hget, hij, hi, -⟩ := of_mem_taken hj
  obtain ⟨box', -, -, -, hi', hnot⟩ := of_mem_taken hk
  rw [hi] at hi'
  cases hi'
  exact hnot j out hij h hget

end Delivery

/-- **Delivery.** On a clock that does not run backwards, a collection returns, in order, a suffix of the envelopes
accepted into its mailbox since the mailbox was last emptied; no envelope is taken by two collections, and none by a
collection of another mailbox. -/
theorem relay_delivers (calls : List RelayCall) (h : (calls.flatMap RelayCall.readings).Pairwise (· ≤ ·)) :
    (∀ k box out, (relayEvents calls)[k]? = some (.collected box out) →
      (taken (relayEvents calls) k).map Prod.snd = out ∧
        taken (relayEvents calls) k <:+ awaiting box ((relayEvents calls).take k)) ∧
    (∀ j k, j ≠ k → (taken (relayEvents calls) j).Disjoint (taken (relayEvents calls) k)) ∧
    ∀ k box out, (relayEvents calls)[k]? = some (.collected box out) → ∀ p ∈ taken (relayEvents calls) k,
      p.1 < k ∧ (relayEvents calls)[p.1]? = some (.accepted box p.2) := by
  refine ⟨fun k box out hk => ⟨?_, taken_suffix hk⟩, fun j k hjk => ?_, fun k box out hk p hp => ?_⟩
  · -- what the collection finds is the end of what waits
    have hget := relayTrace_getElem? {} calls k
    rw [show relayTrace {} calls = relayEvents calls from rfl, hk] at hget
    obtain ⟨call, hcall, hevent⟩ := Option.map_eq_some_iff.mp hget.symm
    have hw : Waiting (calls.take k) (relayRun (calls.take k)) :=
      waiting_relayRun (h.sublist ((List.take_sublist k calls).flatMap _))
    have hsuffix : out <:+ (awaiting box ((relayEvents calls).take k)).map Prod.snd := by
      rw [show (relayEvents calls).take k = relayEvents (calls.take k) from relayTrace_take {} calls k]
      cases call with
      | deposit order now stamp mailbox envelope =>
        unfold RelayQueue.event at hevent
        dsimp only at hevent
        split at hevent <;> cases hevent
      | collect now mailbox =>
        cases hevent
        rw [(RelayQueue.held_collect now box).1]
        exact ((hw.fresh now box).map Held.bytes).trans (hw.suffix box)
    have hdrop := List.suffix_iff_eq_drop.mp hsuffix
    rw [List.length_map] at hdrop
    simp only [taken, hk]
    rw [List.map_drop, ← hdrop]
  · rcases Nat.lt_or_gt_of_ne hjk with hlt | hgt
    · exact taken_disjoint hlt
    · exact fun p hj hk => taken_disjoint hgt hk hj
  · obtain ⟨i, envelope⟩ := p
    obtain ⟨box', out', hk', hik, hi, -⟩ := of_mem_taken hp
    rw [hk] at hk'
    cases hk'
    exact ⟨hik, hi⟩

theorem relay_delivers_one :
    (taken (relayEvents [.deposit .keys 0 0 "m" [7], .deposit .keys 1 1 "n" [8], .collect 2 "m"]) 2).map Prod.snd =
      [[7]] :=
  ((relay_delivers _ (by decide)).1 2 "m" [[7]] (by
    simp only [relayEvents, relayTrace, RelayQueue.step, RelayQueue.event]
    rw [RelayQueue.deposit_of_room (by decide) (.inr (by decide)) (by decide),
      RelayQueue.deposit_of_room (by decide) (.inr (by decide)) (by decide)]
    decide)).1

end Idnx
