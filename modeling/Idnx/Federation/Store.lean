import Idnx.Federation.Identity
import Idnx.Lib.Run
import Mathlib.Data.Finmap

/-!
# Durable federation state

The identity seed, the paired peers, the outbound sequence and the inbound cursors live in one file, written through a
temporary file and a rename. Any stage of a write may fail, and the process may be restarted between any two calls.

* `persist_cases`: a write replaces the file whole, or leaves it;
* `storeInv_step`: what one call preserves;
* `store_durable`: over every run, memory is what the file says, a failed call changes neither, inbound cursors only
  rise, and outbound numbers only rise as long as the counter is not asked to go past its last value, where it wraps
  (`outbound_wraps`).
-/

namespace Idnx

/-! ## The file -/

/-- The on-disk form. -/
structure StoredState where
  identitySeed : Text := []
  paired : Finmap (fun _ : Text => Text) := ∅
  outboundSequence : UInt64 := 0
  inboundCursor : Finmap (fun _ : Text => UInt64) := ∅
  deriving DecidableEq

/-- How the state is written and read: the serialisation library. -/
structure StateCodec where
  toVecPretty : StoredState → Option Bytes
  fromStr : Bytes → Option StoredState

/-- What was written reads back. -/
def StateCodec.Faithful (codec : StateCodec) : Prop :=
  ∀ state bytes, codec.toVecPretty state = some bytes → codec.fromStr bytes = some state

/-- The state file, and the temporary file a write may have left behind. -/
structure Disk where
  file : Option Bytes
  temporary : Option Bytes := none

/-- Where a write stops: the temporary file cannot be created, takes only part of the bytes, cannot be flushed, or
cannot be renamed into place. -/
inductive WriteFault where
  | create
  | write (taken : Nat)
  | sync
  | rename
  deriving DecidableEq

/-- What goes wrong during one call: where the write stops, if it does, and whether cleaning up after it works. -/
structure Weather where
  fault : Option WriteFault := none
  cleans : Bool := true

/-- The temporary file after `write_private`, and whether the write went through. -/
def writePrivate (fault : Option WriteFault) (contents : Bytes) : Bool × Option Bytes :=
  match fault with
  | some .create => (false, none)
  | some (.write taken) => (false, some (contents.take taken))
  | some .sync => (false, some contents)
  | _ => (true, some contents)

/-- The rename moves the temporary file into place, or does not happen. -/
def replaceFile (fault : Option WriteFault) (disk : Disk) : Bool × Disk :=
  if fault = some .rename then (false, disk) else (true, ⟨disk.temporary, none⟩)

def persist (codec : StateCodec) (weather : Weather) (state : StoredState) (disk : Disk) : Bool × Disk :=
  match codec.toVecPretty state with
  | none => (false, disk)
  | some serialized =>
    let written := writePrivate weather.fault serialized
    let disk := { disk with temporary := written.2 }
    let result := if written.1 then replaceFile weather.fault disk else (false, disk)
    if result.1 then result
    else (false, if weather.cleans then { result.2 with temporary := none } else result.2)

/-! ## The store -/

/-- Federation state, loaded from disk. The key is its thirty-two byte seed. -/
structure FederationStore where
  seed : Bytes
  state : StoredState
  deriving DecidableEq

namespace FederationStore

/-- What opening the store meets: whether the directory can be prepared and the file read, and the seed a new identity
would get. -/
structure Opening where
  directory : Bool := true
  readable : Bool := true
  generated : Vector UInt8 32

/-- The state in the file, an empty one where there is no file. -/
def load (codec : StateCodec) (file : Option Bytes) : Option StoredState :=
  match file with
  | none => some {}
  | some bytes => codec.fromStr bytes

/-- The key of the state, or a new one where it has none; a seed that does not read is an error. -/
def identify (generated : Vector UInt8 32) (state : StoredState) : Option FederationStore :=
  if state.identitySeed = [] then
    some ⟨generated.toList, { state with identitySeed := encodeHex generated.toList }⟩
  else
    match decodeHex state.identitySeed with
    | none => none
    | some seed => if seed.length = 32 then some ⟨seed, state⟩ else none

/-- `open`: nothing is in memory unless all of it worked, the last write included. -/
def openStore (codec : StateCodec) (opening : Opening) (weather : Weather) (disk : Disk) :
    Option FederationStore × Disk :=
  if opening.directory ∧ opening.readable then
    match (load codec disk.file).bind (identify opening.generated) with
    | none => (none, disk)
    | some store =>
      match persist codec weather store.state disk with
      | (true, disk) => (some store, disk)
      | (false, disk) => (none, disk)
  else (none, disk)

/-- Applies a change and writes it, restoring the previous state if the write fails. -/
def commit (codec : StateCodec) (weather : Weather) (change : StoredState → StoredState) (store : FederationStore)
    (disk : Disk) : Bool × FederationStore × Disk :=
  match persist codec weather (change store.state) disk with
  | (true, disk) => (true, { store with state := change store.state }, disk)
  | (false, disk) => (false, store, disk)

variable {crypto : Ed25519}

def pairWith (peer : PeerId crypto) (note : Text) (state : StoredState) : StoredState :=
  { state with paired := state.paired.insert peer.toHex note }

def unpair (peer : PeerId crypto) (state : StoredState) : StoredState :=
  { state with paired := state.paired.erase peer.toHex }

/-- The counter is one machine word: past its last value it starts again at nought. -/
def claimSequence (state : StoredState) : StoredState :=
  { state with outboundSequence := state.outboundSequence + 1 }

def raiseInbound (peer : PeerId crypto) (sequence : UInt64) (state : StoredState) : StoredState :=
  { state with inboundCursor := state.inboundCursor.insert peer.toHex sequence }

/-- Whether the peer's cursor is at `sequence` or above, so that there is nothing to record. -/
def alreadySeen (peer : PeerId crypto) (sequence : UInt64) (state : StoredState) : Bool :=
  (state.inboundCursor.lookup peer.toHex).any fun seen => seen ≥ sequence

end FederationStore

/-! ## Runs -/

/-- A call, with what goes wrong during it. `reopen` is a restart of the process. -/
inductive StoreCall (crypto : Ed25519) where
  | reopen (opening : FederationStore.Opening) (weather : Weather)
  | pair (peer : PeerId crypto) (note : Text) (weather : Weather)
  | unpair (peer : PeerId crypto) (weather : Weather)
  | nextSequence (weather : Weather)
  | recordInbound (peer : PeerId crypto) (sequence : UInt64) (weather : Weather)

/-- The disk, the store while a process has it open, and the outbound numbers handed out, first to last. -/
structure StoreRun where
  disk : Disk
  store : Option FederationStore := none
  handed : List UInt64 := []

namespace StoreRun

variable {crypto : Ed25519} (codec : StateCodec)

/-- A change committed by the open store; without one there is nobody to make the call. -/
def change (weather : Weather) (f : StoredState → StoredState) (s : StoreRun) : Bool × StoreRun :=
  match s.store with
  | none => (false, s)
  | some store =>
    let result := store.commit codec weather f s.disk
    (result.1, { s with store := some result.2.1, disk := result.2.2 })

/-- One call: whether it returned `Ok`, and what it left. -/
def perform (s : StoreRun) : StoreCall crypto → Bool × StoreRun
  | .reopen opening weather =>
    let result := FederationStore.openStore codec opening weather s.disk
    (result.1.isSome, { s with store := result.1, disk := result.2 })
  | .pair peer note weather => s.change codec weather (FederationStore.pairWith peer note)
  | .unpair peer weather => s.change codec weather (FederationStore.unpair peer)
  | .nextSequence weather =>
    let result := s.change codec weather FederationStore.claimSequence
    match result with
    | (true, s) =>
      (true, { s with handed := s.handed ++ (s.store.map fun store => store.state.outboundSequence).toList })
    | (false, s) => (false, s)
  | .recordInbound peer sequence weather =>
    if s.store.any fun store => FederationStore.alreadySeen peer sequence store.state then (true, s)
    else s.change codec weather (FederationStore.raiseInbound peer sequence)

def step (s : StoreRun) (call : StoreCall crypto) : StoreRun := (s.perform codec call).2

/-- The state last written, as the next process would read it. -/
def durable (s : StoreRun) : Option StoredState := s.disk.file.bind codec.fromStr

end StoreRun

/-! ## What a call can do -/

section Steps

variable {crypto : Ed25519} {codec : StateCodec}

/-- A write replaces the file whole, or leaves it. -/
theorem persist_cases (codec : StateCodec) (weather : Weather) (state : StoredState) (disk : Disk) :
    (∃ bytes temporary, codec.toVecPretty state = some bytes ∧
      persist codec weather state disk = (true, ⟨some bytes, temporary⟩)) ∨
    ∃ temporary, persist codec weather state disk = (false, ⟨disk.file, temporary⟩) := by
  cases hbytes : codec.toVecPretty state with
  | none => exact .inr ⟨disk.temporary, by rw [persist, hbytes]⟩
  | some bytes =>
    cases hfault : weather.fault with
    | none => exact .inl ⟨bytes, none, rfl, by simp [persist, hbytes, hfault, writePrivate, replaceFile]⟩
    | some fault =>
      refine .inr ⟨(persist codec weather state disk).2.temporary, ?_⟩
      cases hcleans : weather.cleans <;> cases fault <;>
        simp [persist, hbytes, hfault, hcleans, writePrivate, replaceFile]

/-- The state a call writes, from the state there was, and the numbers it hands out. -/
inductive Written (old : StoredState) : StoreCall crypto → StoredState → List UInt64 → Prop
  | pair {peer note weather} : Written old (.pair peer note weather) (FederationStore.pairWith peer note old) []
  | unpair {peer weather} : Written old (.unpair peer weather) (FederationStore.unpair peer old) []
  | nextSequence {weather} :
      Written old (.nextSequence weather) (FederationStore.claimSequence old) [old.outboundSequence + 1]
  | recordInbound {peer sequence weather} (hnew : FederationStore.alreadySeen peer sequence old = false) :
      Written old (.recordInbound peer sequence weather) (FederationStore.raiseInbound peer sequence old) []

/-- The four things a call can do: nothing, lose the store at a restart, open it, or write a change. -/
inductive StoreStep (codec : StateCodec) (s : StoreRun) : StoreCall crypto → Bool → StoreRun → Prop
  | kept {call ok s'} (hstore : s'.store = s.store) (hfile : s'.disk.file = s.disk.file)
      (hhanded : s'.handed = s.handed) : StoreStep codec s call ok s'
  | closed {opening weather s'} (hstore : s'.store = none) (hfile : s'.disk.file = s.disk.file)
      (hhanded : s'.handed = s.handed) : StoreStep codec s (.reopen opening weather) false s'
  | opened {opening weather s' old store bytes} (hold : FederationStore.load codec s.disk.file = some old)
      (hstate : store.state = { old with identitySeed := store.state.identitySeed })
      (hbytes : codec.toVecPretty store.state = some bytes) (hstore : s'.store = some store)
      (hfile : s'.disk.file = some bytes) (hhanded : s'.handed = s.handed) :
      StoreStep codec s (.reopen opening weather) true s'
  | wrote {call s' store state numbers bytes} (hopen : s.store = some store)
      (hwritten : Written store.state call state numbers) (hbytes : codec.toVecPretty state = some bytes)
      (hstore : s'.store = some { store with state }) (hfile : s'.disk.file = some bytes)
      (hhanded : s'.handed = s.handed ++ numbers) : StoreStep codec s call true s'

theorem identify_eq_some {generated : Vector UInt8 32} {old : StoredState} {store : FederationStore}
    (h : FederationStore.identify generated old = some store) :
    store.state = { old with identitySeed := store.state.identitySeed } := by
  unfold FederationStore.identify at h
  split at h
  · cases h; rfl
  · split at h
    · cases h
    · split at h
      · cases h; rfl
      · cases h

theorem reopen_cases (s : StoreRun) (opening : FederationStore.Opening) (weather : Weather) :
    StoreStep codec s (.reopen opening weather : StoreCall crypto)
      (s.perform codec (.reopen opening weather : StoreCall crypto)).1
      (s.perform codec (.reopen opening weather : StoreCall crypto)).2 := by
  simp only [StoreRun.perform, FederationStore.openStore]
  split
  swap
  · exact .closed rfl rfl rfl
  · cases hload : (FederationStore.load codec s.disk.file).bind (FederationStore.identify opening.generated) with
    | none => exact .closed rfl rfl rfl
    | some store =>
      obtain ⟨old, hold, hid⟩ := Option.bind_eq_some_iff.mp hload
      obtain ⟨bytes, temporary, hbytes, hp⟩ | ⟨temporary, hp⟩ := persist_cases codec weather store.state s.disk
      · simp only [hp]
        exact .opened hold (identify_eq_some hid) hbytes rfl rfl rfl
      · simp only [hp]
        exact .closed rfl rfl rfl

/-- A change is written and remembered, or neither. -/
theorem change_cases (codec : StateCodec) (s : StoreRun) (weather : Weather) (f : StoredState → StoredState) :
    (∃ store bytes temporary, s.store = some store ∧ codec.toVecPretty (f store.state) = some bytes ∧
      s.change codec weather f =
        (true, { s with store := some { store with state := f store.state }, disk := ⟨some bytes, temporary⟩ })) ∨
    ∃ temporary, s.change codec weather f = (false, { s with disk := ⟨s.disk.file, temporary⟩ }) := by
  obtain ⟨disk, store, handed⟩ := s
  cases store with
  | none => exact .inr ⟨disk.temporary, rfl⟩
  | some store =>
    obtain ⟨bytes, temporary, hbytes, hp⟩ | ⟨temporary, hp⟩ :=
      persist_cases codec weather (f store.state) disk
    · refine .inl ⟨store, bytes, temporary, rfl, hbytes, ?_⟩
      simp only [StoreRun.change, FederationStore.commit, hp]
    · refine .inr ⟨temporary, ?_⟩
      simp only [StoreRun.change, FederationStore.commit, hp]

/-- **What a call can do.** -/
theorem store_step_cases (codec : StateCodec) (s : StoreRun) (call : StoreCall crypto) :
    StoreStep codec s call (s.perform codec call).1 (s.step codec call) := by
  cases call with
  | reopen opening weather => exact reopen_cases s opening weather
  | pair peer note weather =>
    obtain ⟨store, bytes, temporary, hopen, hbytes, h⟩ | ⟨temporary, h⟩ :=
      change_cases codec s weather (FederationStore.pairWith peer note)
    · rw [StoreRun.step, StoreRun.perform, h]
      exact .wrote hopen .pair hbytes rfl rfl (by simp)
    · rw [StoreRun.step, StoreRun.perform, h]
      exact .kept rfl rfl rfl
  | unpair peer weather =>
    obtain ⟨store, bytes, temporary, hopen, hbytes, h⟩ | ⟨temporary, h⟩ :=
      change_cases codec s weather (FederationStore.unpair peer)
    · rw [StoreRun.step, StoreRun.perform, h]
      exact .wrote hopen .unpair hbytes rfl rfl (by simp)
    · rw [StoreRun.step, StoreRun.perform, h]
      exact .kept rfl rfl rfl
  | nextSequence weather =>
    obtain ⟨store, bytes, temporary, hopen, hbytes, h⟩ | ⟨temporary, h⟩ :=
      change_cases codec s weather FederationStore.claimSequence
    · simp only [StoreRun.step, StoreRun.perform, h]
      exact .wrote hopen .nextSequence hbytes rfl rfl rfl
    · simp only [StoreRun.step, StoreRun.perform, h]
      exact .kept rfl rfl rfl
  | recordInbound peer sequence weather =>
    by_cases hseen : (s.store.any fun store => FederationStore.alreadySeen peer sequence store.state) = true
    · simp only [StoreRun.step, StoreRun.perform, if_pos hseen]
      exact .kept rfl rfl rfl
    · obtain ⟨store, bytes, temporary, hopen, hbytes, h⟩ | ⟨temporary, h⟩ :=
        change_cases codec s weather (FederationStore.raiseInbound peer sequence)
      · have hnew : FederationStore.alreadySeen peer sequence store.state = false := by
          rw [hopen] at hseen
          simpa using hseen
        simp only [StoreRun.step, StoreRun.perform, if_neg hseen, h]
        exact .wrote hopen (.recordInbound hnew) hbytes rfl rfl (by simp)
      · simp only [StoreRun.step, StoreRun.perform, if_neg hseen, h]
        exact .kept rfl rfl rfl

/-! ## The invariant -/

/-- The cursor of a key as the next process would read it. -/
def StoreRun.cursor (codec : StateCodec) (s : StoreRun) (key : Text) : Option UInt64 :=
  (s.durable codec).bind fun state => state.inboundCursor.lookup key

/-- Memory is what the file says, and the numbers handed out grew up to the one in the file. -/
structure StoreInv (codec : StateCodec) (s : StoreRun) : Prop where
  synced : ∀ store, s.store = some store → s.durable codec = some store.state
  handed_le : ∀ number ∈ s.handed, ∃ state, s.durable codec = some state ∧ number ≤ state.outboundSequence
  increasing : s.handed.Pairwise (· < ·)

/-- The last number the counter can hold. -/
def lastSequence : UInt64 := 18446744073709551615

/-- The call does not ask the counter to go past its last value. -/
def Counts (s : StoreRun) (call : StoreCall crypto) : Prop :=
  ∀ weather store, call = .nextSequence weather → s.store = some store →
    store.state.outboundSequence ≠ lastSequence

theorem lt_add_one_of_ne_last {n : UInt64} (h : n ≠ lastSequence) : n < n + 1 := by
  have hlt := n.toNat_lt
  have hne : n.toNat ≠ 18446744073709551615 := fun he => h (UInt64.toNat_inj.mp he)
  rw [UInt64.lt_iff_toNat_lt, UInt64.toNat_add]
  have h₁ : (1 : UInt64).toNat = 1 := rfl
  omega

variable {s s' : StoreRun} {call : StoreCall crypto} {ok : Bool}

/-- An opened store changes nothing in the file but the seed. -/
theorem durable_of_load {old : StoredState} (hold : FederationStore.load codec s.disk.file = some old)
    {state : StoredState} (h : s.durable codec = some state) : state = old := by
  unfold StoreRun.durable at h
  cases hfile : s.disk.file with
  | none => rw [hfile] at h; cases h
  | some bytes =>
    rw [hfile] at h hold
    exact Option.some.inj (h.symm.trans hold)

theorem durable_eq_of_bytes (hcodec : codec.Faithful) {state : StoredState} {bytes : Bytes}
    (hfile : s.disk.file = some bytes) (hbytes : codec.toVecPretty state = some bytes) :
    s.durable codec = some state := by
  rw [StoreRun.durable, hfile]
  exact hcodec state bytes hbytes

theorem durable_eq_of_file (codec : StateCodec) (hfile : s'.disk.file = s.disk.file) :
    s'.durable codec = s.durable codec := by
  rw [StoreRun.durable, hfile, StoreRun.durable]

/-- Handing out a number: the only one that goes up to the new counter is the new one. -/
theorem Written.outbound {old state : StoredState} {numbers : List UInt64} (h : Written old call state numbers)
    (hcount : ∀ weather, call = .nextSequence weather → old.outboundSequence ≠ lastSequence) :
    old.outboundSequence ≤ state.outboundSequence ∧
      (numbers = [] ∨ numbers = [state.outboundSequence] ∧ old.outboundSequence < state.outboundSequence) := by
  cases h with
  | pair => exact ⟨UInt64.le_refl _, .inl rfl⟩
  | unpair => exact ⟨UInt64.le_refl _, .inl rfl⟩
  | nextSequence =>
    have hlt := lt_add_one_of_ne_last (hcount _ rfl)
    exact ⟨UInt64.le_of_lt hlt, .inr ⟨rfl, hlt⟩⟩
  | recordInbound => exact ⟨UInt64.le_refl _, .inl rfl⟩

/-- **What one call preserves.** -/
theorem storeInv_step (hcodec : codec.Faithful) (h : StoreInv codec s) (hcount : Counts s call)
    (hstep : StoreStep codec s call ok s') : StoreInv codec s' := by
  cases hstep with
  | kept hstore hfile hhanded =>
    have hd := durable_eq_of_file codec hfile
    refine ⟨?_, ?_, ?_⟩
    · rw [hd, hstore]; exact h.synced
    · rw [hd, hhanded]; exact h.handed_le
    · rw [hhanded]; exact h.increasing
  | closed hstore hfile hhanded =>
    have hd := durable_eq_of_file codec hfile
    refine ⟨?_, ?_, ?_⟩
    · intro store hs
      rw [hstore] at hs
      cases hs
    · rw [hd, hhanded]; exact h.handed_le
    · rw [hhanded]; exact h.increasing
  | opened hold hstate hbytes hstore hfile hhanded =>
    rename_i old store bytes
    have hd := durable_eq_of_bytes hcodec hfile hbytes
    refine ⟨?_, ?_, ?_⟩
    · intro st hs
      rw [hstore, Option.some.injEq] at hs
      rw [hd, hs]
    · intro number hn
      rw [hhanded] at hn
      obtain ⟨state, hstate', hle⟩ := h.handed_le number hn
      obtain rfl := durable_of_load hold hstate'
      have hout : store.state.outboundSequence = state.outboundSequence := by rw [hstate]
      exact ⟨store.state, hd, by rw [hout]; exact hle⟩
    · rw [hhanded]; exact h.increasing
  | wrote hopen hwritten hbytes hstore hfile hhanded =>
    rename_i store state numbers bytes
    have hd := durable_eq_of_bytes hcodec hfile hbytes
    have hold := h.synced store hopen
    obtain ⟨hle, hnumbers⟩ := hwritten.outbound fun weather hc => hcount weather store hc hopen
    have hbelow : ∀ number ∈ s.handed, number ≤ store.state.outboundSequence := by
      intro number hn
      obtain ⟨st, hst, hnle⟩ := h.handed_le number hn
      rw [hold, Option.some.injEq] at hst
      rwa [← hst] at hnle
    refine ⟨?_, ?_, ?_⟩
    · intro st hs
      rw [hstore, Option.some.injEq] at hs
      rw [hd, ← hs]
    · intro number hn
      refine ⟨state, hd, ?_⟩
      rw [hhanded, List.mem_append] at hn
      rcases hn with hn | hn
      · exact UInt64.le_trans (hbelow number hn) hle
      · rcases hnumbers with rfl | ⟨rfl, -⟩
        · cases hn
        · rw [List.mem_singleton.mp hn]
          exact UInt64.le_refl _
    · rw [hhanded]
      rcases hnumbers with rfl | ⟨rfl, hlt⟩
      · simpa using h.increasing
      · rw [List.pairwise_append]
        refine ⟨h.increasing, List.pairwise_singleton _ _, ?_⟩
        intro a ha b hb
        rw [List.mem_singleton.mp hb]
        exact UInt64.lt_of_le_of_lt (hbelow a ha) hlt

/-- A call never lowers a cursor. -/
theorem Written.inbound {old state : StoredState} {numbers : List UInt64} (h : Written old call state numbers)
    {key : Text} {seen : UInt64} (hseen : old.inboundCursor.lookup key = some seen) :
    ∃ later, state.inboundCursor.lookup key = some later ∧ seen ≤ later := by
  cases h with
  | pair => exact ⟨seen, hseen, UInt64.le_refl _⟩
  | unpair => exact ⟨seen, hseen, UInt64.le_refl _⟩
  | nextSequence => exact ⟨seen, hseen, UInt64.le_refl _⟩
  | recordInbound hnew =>
    rename_i peer sequence weather
    by_cases hkey : key = peer.toHex
    · subst hkey
      refine ⟨sequence, Finmap.lookup_insert _, ?_⟩
      rw [FederationStore.alreadySeen, hseen] at hnew
      simp only [Option.any_some, ge_iff_le, decide_eq_false_iff_not, UInt64.not_le] at hnew
      exact UInt64.le_of_lt hnew
    · exact ⟨seen, by rw [FederationStore.raiseInbound, Finmap.lookup_insert_of_ne _ hkey, hseen], UInt64.le_refl _⟩

theorem cursor_step (hcodec : codec.Faithful) (h : StoreInv codec s) (hstep : StoreStep codec s call ok s')
    {key : Text} {seen : UInt64} (hseen : s.cursor codec key = some seen) :
    ∃ later, s'.cursor codec key = some later ∧ seen ≤ later := by
  obtain ⟨state, hstate, hlookup⟩ := Option.bind_eq_some_iff.mp hseen
  cases hstep with
  | kept hstore hfile hhanded =>
    exact ⟨seen, by rw [StoreRun.cursor, durable_eq_of_file codec hfile, hstate]; exact hlookup, UInt64.le_refl _⟩
  | closed hstore hfile hhanded =>
    exact ⟨seen, by rw [StoreRun.cursor, durable_eq_of_file codec hfile, hstate]; exact hlookup, UInt64.le_refl _⟩
  | opened hold hstate' hbytes hstore hfile hhanded =>
    rename_i old store bytes
    obtain rfl := durable_of_load hold hstate
    refine ⟨seen, ?_, UInt64.le_refl _⟩
    rw [StoreRun.cursor, durable_eq_of_bytes hcodec hfile hbytes, hstate']
    exact hlookup
  | wrote hopen hwritten hbytes hstore hfile hhanded =>
    rename_i store new numbers bytes
    rw [h.synced store hopen, Option.some.injEq] at hstate
    subst hstate
    obtain ⟨later, hlater, hle⟩ := hwritten.inbound hlookup
    exact ⟨later, by rw [StoreRun.cursor, durable_eq_of_bytes hcodec hfile hbytes]; exact hlater, hle⟩

end Steps

/-! ## Runs -/

section Runs

variable {crypto : Ed25519} {codec : StateCodec}

/-- What is promised after the calls `history` on the disk `disk`. -/
structure StoreDurable (codec : StateCodec) (disk : Disk) (history : List (StoreCall crypto))
    (s : StoreRun) : Prop where
  /-- What is in memory is what the next process would read. -/
  synced : ∀ store, s.store = some store → s.durable codec = some store.state
  /-- A call that fails leaves the file, and the memory of the process that made it. -/
  failed : ∀ call : StoreCall crypto, (s.perform codec call).1 = false →
    (s.step codec call).disk.file = s.disk.file ∧
      ((s.step codec call).store = s.store ∨ ∃ opening weather, call = .reopen opening weather)
  /-- The outbound numbers handed out grow, over restarts too. -/
  increasing : s.handed.Pairwise (· < ·)
  /-- No cursor is lower than it ever was. -/
  cursors : ∀ before after, history = before ++ after → ∀ key seen,
    (run (StoreRun.step codec) { disk := disk } before).cursor codec key = some seen →
    ∃ later, s.cursor codec key = some later ∧ seen ≤ later

theorem storeInv_run (hcodec : codec.Faithful) {disk : Disk} {calls : List (StoreCall crypto)}
    (hcalls : Along (StoreRun.step codec) (fun _ => Counts) { disk := disk } calls) :
    Always (StoreRun.step codec) (fun _ => StoreInv codec) { disk := disk } calls := by
  refine always_of_along ⟨?_, ?_, List.Pairwise.nil⟩ ?_ hcalls
  · intro store h; cases h
  · intro number h; cases h
  · intro history call h hcount
    exact storeInv_step hcodec h hcount (store_step_cases codec _ call)

theorem cursors_run (hcodec : codec.Faithful) {disk : Disk} {calls : List (StoreCall crypto)}
    (hinv : Always (StoreRun.step codec) (fun _ => StoreInv codec) { disk := disk } calls) {before after : List _}
    (hsplit : calls = before ++ after) {key : Text} {seen : UInt64}
    (hseen : (run (StoreRun.step codec) { disk := disk } before).cursor codec key = some seen) :
    ∃ later, (run (StoreRun.step codec) { disk := disk } calls).cursor codec key = some later ∧ seen ≤ later := by
  induction after using List.reverseRecOn generalizing calls with
  | nil =>
    rw [hsplit, List.append_nil]
    exact ⟨seen, hseen, UInt64.le_refl _⟩
  | append_singleton after call ih =>
    rw [← List.append_assoc] at hsplit
    subst hsplit
    obtain ⟨later, hlater, hle⟩ := ih hinv.init rfl
    obtain ⟨last, hlast, hle'⟩ := cursor_step hcodec hinv.init.last (store_step_cases codec _ call) hlater
    rw [run_concat]
    exact ⟨last, hlast, UInt64.le_trans hle hle'⟩

/-- **The store is durable.** Whatever fails and wherever the process is restarted, as long as no number is claimed
past the last one the counter can hold. -/
theorem store_durable (hcodec : codec.Faithful) (disk : Disk) (calls : List (StoreCall crypto))
    (hcalls : Along (StoreRun.step codec) (fun _ => Counts) { disk := disk } calls) :
    Always (StoreRun.step codec) (StoreDurable codec disk) { disk := disk } calls := by
  intro before after hsplit
  subst hsplit
  have hinv := storeInv_run hcodec hcalls.init
  have h := hinv.last
  refine ⟨h.synced, ?_, h.increasing, ?_⟩
  · intro call hfailed
    have hstep := store_step_cases codec (run (StoreRun.step codec) { disk := disk } before) call
    rw [hfailed] at hstep
    cases hstep with
    | kept hstore hfile hhanded => exact ⟨hfile, .inl hstore⟩
    | closed hstore hfile hhanded => exact ⟨hfile, .inr ⟨_, _, rfl⟩⟩
  · intro first rest hrest key seen hseen
    exact cursors_run hcodec hinv hrest hseen

end Runs

/-! ## At the end of the counter -/

def sampleSeed : Bytes :=
  [0x9d, 0x61, 0xb1, 0x9d, 0xef, 0xfd, 0x5a, 0x60, 0xba, 0x84, 0x4a, 0xf4, 0x92, 0xec, 0x2c, 0xc4,
    0x44, 0x49, 0xc5, 0x69, 0x7b, 0x32, 0x69, 0x19, 0x70, 0x3b, 0xac, 0x03, 0x1c, 0xae, 0x7f, 0x60]

/-- An identity that has published up to `number` and never heard of anyone. -/
def publishedUpTo (number : UInt64) : StoredState where
  identitySeed := encodeHex sampleSeed
  outboundSequence := number

/-- The file of that state. -/
def publishedFile (number : UInt64) : Bytes :=
  Text.asBytes ((("\x7b\n  \"identity_seed\": \"" : Text) ++ encodeHex sampleSeed ++
    (("\",\n  \"paired\": \x7b\x7d,\n  \"outbound_sequence\": " : Text))) ++ Text.ofNat number.toNat ++
      (",\n  \"inbound_cursor\": \x7b\x7d\n\x7d" : Text))

/-- The numbers on either side of the end. -/
def lastNumbers : List UInt64 := [18446744073709551614, 18446744073709551615, 0]

/-- A codec that knows the files of those three states. -/
def sampleCodec : StateCodec where
  toVecPretty := fun state =>
    if state.outboundSequence ∈ lastNumbers ∧ state = publishedUpTo state.outboundSequence then
      some (publishedFile state.outboundSequence)
    else none
  fromStr := fun bytes => (lastNumbers.find? fun number => publishedFile number = bytes).map publishedUpTo

theorem publishedFile_inj {m n : UInt64} (h : publishedFile m = publishedFile n) : m = n := by
  have hdigits := List.append_cancel_left (List.append_cancel_right (Text.asBytes_inj h))
  exact UInt64.toNat_inj.mp (Text.ofNat_inj hdigits)

theorem sampleCodec_fromStr {number : UInt64} (h : number ∈ lastNumbers) :
    sampleCodec.fromStr (publishedFile number) = some (publishedUpTo number) := by
  have hfind : (lastNumbers.find? fun n => publishedFile n = publishedFile number) = some number := by
    obtain ⟨n, hn⟩ : ∃ n, (lastNumbers.find? fun n => publishedFile n = publishedFile number) = some n :=
      Option.isSome_iff_exists.mp (List.find?_isSome.mpr ⟨number, h, by simp⟩)
    have heq := publishedFile_inj (by simpa using List.find?_some hn)
    rw [hn, heq]
  simp only [sampleCodec, hfind, Option.map_some]

theorem sampleCodec_toVecPretty {number : UInt64} (h : number ∈ lastNumbers) :
    sampleCodec.toVecPretty (publishedUpTo number) = some (publishedFile number) := if_pos ⟨h, rfl⟩

theorem sampleCodec_faithful : sampleCodec.Faithful := by
  intro state bytes h
  by_cases hs : state.outboundSequence ∈ lastNumbers ∧ state = publishedUpTo state.outboundSequence
  · have hbytes : publishedFile state.outboundSequence = bytes := by
      simpa only [sampleCodec, if_pos hs, Option.some.injEq] using h
    rw [← hbytes, sampleCodec_fromStr hs.1, ← hs.2]
  · simp only [sampleCodec, if_neg hs] at h
    cases h

/-- The store of that state, open and in step with its file. -/
def sampleStore (number : UInt64) (handed : List UInt64) : StoreRun where
  disk := ⟨some (publishedFile number), none⟩
  store := some ⟨sampleSeed, publishedUpTo number⟩
  handed := handed

theorem persist_sample {number : UInt64} (h : number ∈ lastNumbers) (disk : Disk) :
    persist sampleCodec {} (publishedUpTo number) disk = (true, ⟨some (publishedFile number), none⟩) := by
  simp [persist, sampleCodec_toVecPretty h, writePrivate, replaceFile]

theorem reopen_sample {crypto : Ed25519} {number : UInt64} (h : number ∈ lastNumbers) :
    ({ disk := ⟨some (publishedFile number), none⟩ } : StoreRun).step sampleCodec
      (.reopen ⟨true, true, Vector.replicate 32 0⟩ {} : StoreCall crypto) = sampleStore number [] := by
  have hload : (FederationStore.load sampleCodec (some (publishedFile number))).bind
      (FederationStore.identify (Vector.replicate 32 0)) = some ⟨sampleSeed, publishedUpTo number⟩ := by
    have hhex : encodeHex sampleSeed ≠ [] := by decide
    have hseed : (publishedUpTo number).identitySeed ≠ [] := hhex
    rw [FederationStore.load, sampleCodec_fromStr h, Option.bind_some, FederationStore.identify, if_neg hseed]
    simp only [publishedUpTo, decodeHex_encodeHex]
    exact if_pos rfl
  simp only [StoreRun.step, StoreRun.perform, FederationStore.openStore, and_self, if_true, hload, persist_sample h]
  rfl

theorem nextSequence_sample {crypto : Ed25519} {number : UInt64} (h : number + 1 ∈ lastNumbers)
    (handed : List UInt64) :
    (sampleStore number handed).step sampleCodec (.nextSequence {} : StoreCall crypto) =
      sampleStore (number + 1) (handed ++ [number + 1]) := by
  have hclaim : FederationStore.claimSequence (publishedUpTo number) = publishedUpTo (number + 1) := rfl
  simp only [StoreRun.step, StoreRun.perform, StoreRun.change, sampleStore, FederationStore.commit, hclaim,
    persist_sample h]
  rfl

/-- No peer is needed for these calls. -/
def noKeys : Ed25519 := ⟨fun _ => false, fun _ _ _ => false⟩

/-- A restart, and then a number claimed while there is one left. -/
def claimLast : List (StoreCall noKeys) := [.reopen ⟨true, true, Vector.replicate 32 0⟩ {}, .nextSequence {}]

theorem claimLast_durable :
    Along (StoreRun.step sampleCodec) (fun _ => Counts) { disk := ⟨some (publishedFile 18446744073709551614), none⟩ }
      claimLast ∧
    Always (StoreRun.step sampleCodec) (StoreDurable sampleCodec ⟨some (publishedFile 18446744073709551614), none⟩)
      { disk := ⟨some (publishedFile 18446744073709551614), none⟩ } claimLast := by
  have hcalls : Along (StoreRun.step sampleCodec) (fun _ => Counts)
      { disk := ⟨some (publishedFile 18446744073709551614), none⟩ } claimLast := by
    rw [claimLast, along_cons, along_cons, reopen_sample (by decide)]
    refine ⟨?_, ?_, along_nil⟩
    · intro weather store h
      cases h
    · intro weather store _ h
      cases h
      decide
  exact ⟨hcalls, store_durable sampleCodec_faithful _ _ hcalls⟩

/-- The number after the last is nought, and it is handed out. -/
theorem outbound_wraps :
    (run (StoreRun.step sampleCodec) { disk := ⟨some (publishedFile 18446744073709551614), none⟩ }
      (claimLast ++ [.nextSequence {}])).handed = [18446744073709551615, 0] ∧
    ¬ (run (StoreRun.step sampleCodec) { disk := ⟨some (publishedFile 18446744073709551614), none⟩ }
      (claimLast ++ [.nextSequence {}])).handed.Pairwise (· < ·) := by
  have hrun : (run (StoreRun.step sampleCodec) { disk := ⟨some (publishedFile 18446744073709551614), none⟩ }
      (claimLast ++ [.nextSequence {}])).handed = [18446744073709551615, 0] := by
    rw [run_concat, claimLast, run_cons, run_cons, run_nil, reopen_sample (by decide),
      nextSequence_sample (by decide), nextSequence_sample (by decide)]
    rfl
  refine ⟨hrun, ?_⟩
  rw [hrun]
  decide

end Idnx
