import Mathlib.Data.List.Basic

/-!
# Calls that may panic

A call ends with a value, with an error it reports, or with a panic (`Outcome`). Outcomes are sequenced as `do`
blocks; reading a list at a place it does not have panics (`index`, `slice`), and what a list holds at a place is read
back (`Holds.slice`, `copyInto_append`). A `while` loop is a `loop` of turns. `Safe` calls do not panic.
-/

namespace Idnx

/-- How a call ends: with a value, with an error it reports, or with a panic. -/
inductive Outcome (ε α : Type) where
  | ok (value : α)
  | err (error : ε)
  | panic
  deriving DecidableEq, Repr

namespace Outcome

variable {ε α β : Type}

protected def bind (x : Outcome ε α) (f : α → Outcome ε β) : Outcome ε β :=
  match x with
  | .ok a => f a
  | .err e => .err e
  | .panic => .panic

instance : Monad (Outcome ε) where
  pure := .ok
  bind := Outcome.bind

@[simp] theorem pure_eq (a : α) : (pure a : Outcome ε α) = .ok a := rfl

@[simp] theorem ok_bind (a : α) (f : α → Outcome ε β) : (Outcome.ok a >>= f) = f a := rfl

@[simp] theorem err_bind (e : ε) (f : α → Outcome ε β) : (Outcome.err e >>= f) = .err e := rfl

@[simp] theorem panic_bind (f : α → Outcome ε β) : ((Outcome.panic : Outcome ε α) >>= f) = .panic := rfl

@[simp] theorem map_ok (f : α → β) (a : α) : f <$> (Outcome.ok a : Outcome ε α) = .ok (f a) := rfl

@[simp] theorem map_err (f : α → β) (e : ε) : f <$> (Outcome.err e : Outcome ε α) = .err e := rfl

@[simp] theorem map_panic (f : α → β) : f <$> (Outcome.panic : Outcome ε α) = .panic := rfl

/-- A sequence gives a value if both of its parts do. -/
theorem bind_eq_ok {x : Outcome ε α} {f : α → Outcome ε β} {b : β} :
    (x >>= f) = .ok b ↔ ∃ a, x = .ok a ∧ f a = .ok b := by
  cases x with
  | ok a => simp
  | err e => simp
  | panic => simp

theorem ok_ne_panic {a : α} : (.ok a : Outcome ε α) ≠ .panic := nofun

theorem err_ne_panic {e : ε} : (.err e : Outcome ε α) ≠ .panic := nofun

theorem map_eq_panic {f : α → β} {x : Outcome ε α} : f <$> x = .panic ↔ x = .panic := by
  cases x with
  | ok a => exact iff_of_false ok_ne_panic ok_ne_panic
  | err e => exact iff_of_false err_ne_panic err_ne_panic
  | panic => exact ⟨fun _ => rfl, fun _ => rfl⟩

theorem map_eq_ok {f : α → β} {x : Outcome ε α} {b : β} (h : f <$> x = .ok b) : ∃ a, x = .ok a ∧ f a = b := by
  cases x with
  | ok a => exact ⟨a, rfl, Outcome.ok.inj h⟩
  | err e => cases h
  | panic => cases h

theorem bind_bind {γ : Type} (x : Outcome ε α) (f : α → Outcome ε β) (g : β → Outcome ε γ) :
    x >>= f >>= g = x >>= fun a => f a >>= g := by
  cases x with
  | ok a => rfl
  | err e => rfl
  | panic => rfl

/-- The value of an option, or an error if there is none. -/
def okOr (x : Option α) (e : ε) : Outcome ε α :=
  match x with
  | some a => .ok a
  | none => .err e

@[simp] theorem okOr_some (a : α) (e : ε) : okOr (some a) e = .ok a := rfl

@[simp] theorem okOr_none (e : ε) : okOr (none : Option α) e = .err e := rfl

theorem okOr_eq_ok {x : Option α} {e : ε} {a : α} : okOr x e = .ok a ↔ x = some a := by
  cases x with
  | none => exact ⟨nofun, nofun⟩
  | some b => simp

/-- Returns an error unless a condition holds. -/
def require (p : Prop) [Decidable p] (e : ε) : Outcome ε Unit := if p then .ok () else .err e

theorem require_of {p : Prop} [Decidable p] (h : p) (e : ε) : require p e = .ok () := if_pos h

theorem require_eq_ok {p : Prop} [Decidable p] {e : ε} {u : Unit} : require p e = .ok u ↔ p := by
  unfold require
  split
  · simp [*]
  · simp [*]

/-- The element at a place; a panic if the list ends before it. -/
def index (l : List α) (i : Nat) : Outcome ε α :=
  match l[i]? with
  | some a => .ok a
  | none => .panic

/-- The elements of a range; a panic if the range is not inside the list. -/
def slice (l : List α) (start stop : Nat) : Outcome ε (List α) :=
  if start ≤ stop ∧ stop ≤ l.length then .ok ((l.drop start).take (stop - start)) else .panic

/-- The elements from a place on; a panic if the list ends before it. -/
def sliceFrom (l : List α) (start : Nat) : Outcome ε (List α) := slice l start l.length

theorem sliceFrom_append (front back : List α) : (sliceFrom (front ++ back) front.length : Outcome ε _) =
    .ok back := by
  unfold sliceFrom slice
  rw [if_pos ⟨by rw [List.length_append]; omega, Nat.le_refl _⟩, List.drop_left, List.length_append,
    Nat.add_sub_cancel_left, List.take_length]

/-- Writes over the elements of a range; a panic if the range is not inside the list or not as long as what is
written. -/
def copyInto (l : List α) (start stop : Nat) (new : List α) : Outcome ε (List α) :=
  if start ≤ stop ∧ stop ≤ l.length ∧ new.length = stop - start then .ok
  (l.take start ++ new ++ l.drop stop) else .panic

/-- The value as an option: an error that says nothing is `None`. -/
def toOption (x : Outcome Unit α) : Outcome ε (Option α) :=
  match x with
  | .ok a => .ok (some a)
  | .err _ => .ok none
  | .panic => .panic

theorem toOption_eq_panic {x : Outcome Unit α} : (x.toOption : Outcome ε (Option α)) = .panic ↔ x = .panic := by
  cases x with
  | ok a => exact iff_of_false ok_ne_panic ok_ne_panic
  | err e => exact iff_of_false ok_ne_panic err_ne_panic
  | panic => exact ⟨fun _ => rfl, fun _ => rfl⟩

/-- The values a call gives for the elements of a list, in order; elements without one are passed over. -/
def filterMapM (f : α → Outcome ε (Option β)) : List α → Outcome ε (List β)
  | [] => .ok []
  | a :: l => do
    let head ← f a
    let rest ← filterMapM f l
    return head.toList ++ rest

theorem filterMapM_eq_filterMap {f : α → Outcome ε (Option β)} {g : α → Option β} {l : List α}
    (h : ∀ a ∈ l, f a = .ok (g a)) : filterMapM f l = .ok (l.filterMap g) := by
  induction l with
  | nil => rfl
  | cons a l ih =>
    rw [filterMapM, h a List.mem_cons_self, ok_bind, ih fun b hb => h b (List.mem_cons_of_mem a hb), ok_bind]
    cases hg : g a with
    | none => rw [List.filterMap_cons_none hg]; rfl
    | some b => rw [List.filterMap_cons_some hg]; rfl

theorem filterMapM_eq_map {f : α → Outcome ε (Option β)} {g : α → β} {l : List α}
    (h : ∀ a ∈ l, f a = .ok (some (g a))) : filterMapM f l = .ok (l.map g) := by
  rw [filterMapM_eq_filterMap h, List.filterMap_eq_map']

/-- The value of a call, or another if it gives none. -/
def getD (x : Outcome ε α) (d : α) : α :=
  match x with
  | .ok a => a
  | _ => d

@[simp] theorem getD_ok (a d : α) : (Outcome.ok a : Outcome ε α).getD d = a := rfl

/-! ## Loops -/

/-- Where a turn of a loop ends: before the next turn, in a state, or behind the loop, with a value. -/
inductive Turn (σ β : Type) where
  | next (s : σ)
  | done (value : β)

/-- Takes turns until one is the last. A loop still running after `fuel` turns counts as one that never returns. -/
def loop {σ : Type} (body : σ → Outcome ε (Turn σ β)) : Nat → σ → Outcome ε β
  | 0, _ => .panic
  | fuel + 1, s => do
    match ← body s with
    | .next s' => loop body fuel s'
    | .done value => .ok value

theorem loop_next {σ : Type} {body : σ → Outcome ε (Turn σ β)} {s s' : σ} (h : body s = .ok (.next s')) (fuel : Nat) :
    loop body (fuel + 1) s = loop body fuel s' := by
  rw [loop, h]
  rfl

/-! ## Calls that do not panic -/

/-- The call does not panic, and a value it returns has `P`. -/
def Safe (P : α → Prop) : Outcome ε α → Prop
  | .ok a => P a
  | .err _ => True
  | .panic => False

variable {P Q : α → Prop} {x : Outcome ε α}

theorem Safe.mono (h : Safe P x) (hPQ : ∀ a, P a → Q a) : Safe Q x := by
  cases x with
  | ok a => exact hPQ a h
  | err e => trivial
  | panic => exact h

theorem Safe.bind {Q : β → Prop} {f : α → Outcome ε β} (h : Safe P x) (hf : ∀ a, P a → Safe Q (f a)) :
    Safe Q (x >>= f) := by
  cases x with
  | ok a => exact hf a h
  | err e => trivial
  | panic => exact h

theorem safe_okOr (x : Option α) (e : ε) : Safe (fun a => x = some a) (okOr x e) := by
  cases x with
  | none => trivial
  | some a => rfl

theorem Safe.ne_panic (h : Safe P x) : x ≠ .panic := by
  rintro rfl
  exact h

theorem safe_require (p : Prop) [Decidable p] (e : ε) : Safe (fun _ => p) (require p e) := by
  unfold require
  split
  · assumption
  · trivial

/-! ## Calls that end alike -/

/-- Two calls end alike: both with values that `R` relates, or both with an error, whatever the errors say. -/
def Alike (R : α → β → Prop) : Outcome ε α → Outcome ε β → Prop
  | .ok a, .ok b => R a b
  | .err _, .err _ => True
  | _, _ => False

theorem alike_bind {γ δ : Type} {R : α → β → Prop} {S : γ → δ → Prop} {x : Outcome ε α} {y : Outcome ε β}
    {f : α → Outcome ε γ} {g : β → Outcome ε δ} (h : Alike R x y) (hfg : ∀ a b, R a b → Alike S (f a) (g b)) :
    Alike S (x >>= f) (y >>= g) := by
  cases x with
  | ok a =>
    cases y with
    | ok b => exact hfg a b h
    | err e => exact absurd h id
    | panic => exact absurd h id
  | err e =>
    cases y with
    | ok b => exact absurd h id
    | err e' => trivial
    | panic => exact absurd h id
  | panic => exact absurd h id

/-! ## Calls that return -/

/-- The call gives a value, and it has `P`. -/
def Returns (P : α → Prop) (x : Outcome ε α) : Prop := ∃ a, x = .ok a ∧ P a

theorem returns_ok {a : α} (h : P a) : Returns P (.ok a : Outcome ε α) := ⟨a, rfl, h⟩

theorem Returns.mono (h : Returns P x) (hPQ : ∀ a, P a → Q a) : Returns Q x := by
  obtain ⟨a, hx, ha⟩ := h
  exact ⟨a, hx, hPQ a ha⟩

theorem Returns.bind {Q : β → Prop} {f : α → Outcome ε β} (h : Returns P x) (hf : ∀ a, P a → Returns Q (f a)) :
    Returns Q (x >>= f) := by
  obtain ⟨a, rfl, ha⟩ := h
  exact hf a ha

theorem returns_index {l : List α} {i : Nat} (h : i < l.length) :
    Returns (fun a => l[i]? = some a) (index l i : Outcome ε α) := by
  unfold index
  rw [List.getElem?_eq_getElem h]
  exact returns_ok rfl

theorem returns_slice {l : List α} {start stop : Nat} (h : start ≤ stop) (h' : stop ≤ l.length) :
    Returns (fun s => s = (l.drop start).take (stop - start)) (slice l start stop : Outcome ε _) :=
  ⟨_, if_pos ⟨h, h'⟩, rfl⟩

/-- Where a turn ends: `I` of the state before the next turn, `P` of the loop's value. -/
def Turn.Ends {σ : Type} (I : σ → Prop) (P : β → Prop) : Turn σ β → Prop
  | .next s => I s
  | .done value => P value

/-- **A loop returns** if its turns do, keep an invariant and make a measure smaller. -/
theorem returns_loop {σ : Type} {body : σ → Outcome ε (Turn σ β)} {P : β → Prop} (I : σ → Prop) (μ : σ → Nat)
    (hbody : ∀ s, I s → Returns (Turn.Ends (fun s' => I s' ∧ μ s' < μ s) P) (body s)) {fuel : Nat} {s : σ} (h : I s)
    (hfuel : μ s < fuel) : Returns P (loop body fuel s) := by
  induction fuel generalizing s with
  | zero => omega
  | succ fuel ih =>
    rw [loop]
    refine (hbody s h).bind fun turn hturn => ?_
    cases turn with
    | next s' => exact ih hturn.1 (by have := hturn.2; omega)
    | done value => exact returns_ok hturn

/-! ## Calls that return and calls that do not panic -/

theorem Returns.safe (h : Returns P x) : Safe P x := by
  obtain ⟨a, rfl, ha⟩ := h
  exact ha

theorem safe_index {l : List α} {i : Nat} (h : i < l.length) :
    Safe (fun a => l[i]? = some a) (index l i : Outcome ε α) :=
  (returns_index h).safe

theorem safe_slice {l : List α} {start stop : Nat} (h : start ≤ stop) (h' : stop ≤ l.length) :
    Safe (fun s => s = (l.drop start).take (stop - start)) (slice l start stop : Outcome ε _) :=
  (returns_slice h h').safe

theorem returns_sliceFrom {l : List α} {start : Nat} (h : start ≤ l.length) :
    Returns (fun s => s = l.drop start) (sliceFrom l start : Outcome ε _) := by
  refine (returns_slice h (Nat.le_refl _)).mono fun s hs => ?_
  rw [hs, List.take_of_length_le (Nat.le_of_eq List.length_drop)]

theorem safe_sliceFrom {l : List α} {start : Nat} (h : start ≤ l.length) :
    Safe (fun s => s = l.drop start) (sliceFrom l start : Outcome ε _) :=
  (returns_sliceFrom h).safe

/-- As an option every call that does not panic returns. -/
theorem Safe.returns_toOption {x : Outcome Unit α} (h : Safe P x) :
    Returns (fun found => ∀ a ∈ found, P a) (x.toOption : Outcome ε (Option α)) := by
  cases x with
  | ok a =>
    refine returns_ok fun b hb => ?_
    cases hb
    exact h
  | err e => exact returns_ok nofun
  | panic => exact absurd h id

theorem Safe.toOption {x : Outcome Unit α} (h : Safe P x) :
    Safe (fun found => ∀ a ∈ found, P a) (x.toOption : Outcome ε (Option α)) :=
  h.returns_toOption.safe

theorem safe_filterMapM {f : α → Outcome ε (Option β)} {l : List α} (h : ∀ a ∈ l, Safe (fun _ => True) (f a)) :
    Safe (fun _ => True) (filterMapM f l) := by
  induction l with
  | nil => trivial
  | cons a l ih =>
    refine (h a List.mem_cons_self).bind fun head _ => ?_
    exact (ih fun b hb => h b (List.mem_cons_of_mem a hb)).bind fun rest _ => trivial

/-- **A loop does not panic** if its turns do not, keep an invariant and make a measure smaller. -/
theorem safe_loop {σ : Type} {body : σ → Outcome ε (Turn σ β)} {P : β → Prop} (I : σ → Prop) (μ : σ → Nat)
    (hbody : ∀ s, I s → Safe (Turn.Ends (fun s' => I s' ∧ μ s' < μ s) P) (body s)) {fuel : Nat} {s : σ} (h : I s)
    (hfuel : μ s < fuel) : Safe P (loop body fuel s) := by
  induction fuel generalizing s with
  | zero => omega
  | succ fuel ih =>
    rw [loop]
    refine (hbody s h).bind fun turn hturn => ?_
    cases turn with
    | next s' => exact ih hturn.1 (by have := hturn.2; omega)
    | done value => exact hturn

/-- A walk of a list does not panic if its turns do not, and a turn that is not the last starts inside the list and
moves ahead. -/
theorem safe_walk {σ : Type} {l : List α} {body : Nat × σ → Outcome ε (Turn (Nat × σ) β)}
    (hbody : ∀ i s, Safe (Turn.Ends (fun s' => i < l.length ∧ i < s'.1) fun _ => True) (body (i, s))) (start : Nat)
    (s : σ) : Safe (fun _ => True) (loop body (l.length + 1) (start, s)) := by
  refine safe_loop (fun _ => True) (fun s => l.length - s.1) (fun s _ => ?_) trivial (by dsimp only; omega)
  refine (hbody s.1 s.2).mono fun turn hturn => ?_
  cases turn with
  | next s' =>
    have hin : s.1 < l.length := hturn.1
    have hahead : s.1 < s'.1 := hturn.2
    exact ⟨trivial, by omega⟩
  | done value => trivial

/-- A walk of a list returns if its turns do. -/
theorem returns_walk {σ : Type} {l : List α} {body : Nat × σ → Outcome ε (Turn (Nat × σ) β)}
    (hbody : ∀ i s, Returns (Turn.Ends (fun s' => i < l.length ∧ i < s'.1) fun _ => True) (body (i, s))) (start : Nat)
    (s : σ) : Returns (fun _ => True) (loop body (l.length + 1) (start, s)) := by
  refine returns_loop (fun _ => True) (fun s => l.length - s.1) (fun s _ => ?_) trivial (by dsimp only; omega)
  refine (hbody s.1 s.2).mono fun turn hturn => ?_
  cases turn with
  | next s' =>
    have hin : s.1 < l.length := hturn.1
    have hahead : s.1 < s'.1 := hturn.2
    exact ⟨trivial, by omega⟩
  | done value => trivial

/-! ## What a call gives -/

/-- A value the call gives has `P`; it may end without one. -/
def Gives (P : α → Prop) (x : Outcome ε α) : Prop := ∀ a, x = .ok a → P a

theorem gives_ok {a : α} (h : P a) : Gives P (.ok a : Outcome ε α) := by
  intro b hb
  cases hb
  exact h

theorem gives_err (e : ε) : Gives P (.err e : Outcome ε α) := by
  intro b hb
  cases hb

/-- The rule for sequences of which the first call does not matter. -/
theorem gives_bind {Q : β → Prop} {f : α → Outcome ε β} (h : ∀ a, Gives Q (f a)) : Gives Q (x >>= f) := by
  intro b hb
  obtain ⟨a, -, ha⟩ := bind_eq_ok.mp hb
  exact h a b ha

theorem Gives.bind {Q : β → Prop} {f : α → Outcome ε β} (h : Gives P x) (hf : ∀ a, P a → Gives Q (f a)) :
    Gives Q (x >>= f) := by
  intro b hb
  obtain ⟨a, hx, ha⟩ := bind_eq_ok.mp hb
  exact hf a (h a hx) b ha

theorem Gives.map {Q : β → Prop} {f : α → β} (h : Gives P x) (hf : ∀ a, P a → Q (f a)) : Gives Q (f <$> x) := by
  cases x with
  | ok a => exact gives_ok (hf a (h a rfl))
  | err e => exact nofun
  | panic => exact nofun

/-- The rule for values that have the property whatever they are made from. -/
theorem gives_map {Q : β → Prop} {f : α → β} (hf : ∀ a, Q (f a)) (x : Outcome ε α) : Gives Q (f <$> x) := by
  intro b hb
  cases x with
  | ok a =>
    obtain rfl := Outcome.ok.inj hb
    exact hf a
  | err e => cases hb
  | panic => cases hb

theorem Gives.toOption {x : Outcome Unit α} (h : Gives P x) :
    Gives (fun found => ∀ a ∈ found, P a) (x.toOption : Outcome ε (Option α)) := by
  cases x with
  | ok a =>
    refine gives_ok fun b hb => ?_
    cases hb
    exact h a rfl
  | err e => exact gives_ok nofun
  | panic => exact nofun

/-- What a loop gives, if its turns keep an invariant. -/
theorem gives_loop {σ : Type} {body : σ → Outcome ε (Turn σ β)} {P : β → Prop} (I : σ → Prop)
    (hbody : ∀ s, I s → Gives (Turn.Ends I P) (body s)) {fuel : Nat} {s : σ}
    (h : I s) : Gives P (loop body fuel s) := by
  induction fuel generalizing s with
  | zero => exact nofun
  | succ fuel ih =>
    rw [loop]
    refine (hbody s h).bind fun turn hturn => ?_
    cases turn with
    | next s' => exact ih hturn
    | done value => exact gives_ok hturn

end Outcome

/-- The elements of a range, if it is inside the list. -/
def getRange {α : Type} (l : List α) (start stop : Nat) : Option (List α) :=
  if start ≤ stop ∧ stop ≤ l.length then some ((l.drop start).take (stop - start)) else none

/-! ## What a list holds at a place -/

/-- What lies from a place on is its first elements and what lies behind them. -/
theorem drop_cut {α : Type} (l : List α) (i n : Nat) : l.drop i = (l.drop i).take n ++ l.drop (i + n) := by
  rw [← List.drop_drop, List.take_append_drop]

theorem getRange_eq_some {α : Type} {l value : List α} {start stop : Nat} (h : getRange l start stop = some value) :
    start ≤ stop ∧ stop ≤ l.length := by
  unfold getRange at h
  split at h
  · assumption
  · cases h

/-- A range ends behind its elements, and what lies from its start on is these and the rest. -/
theorem drop_of_getRange {α : Type} {l value : List α} {start stop : Nat} (h : getRange l start stop = some value) :
    l.drop start = value ++ l.drop stop ∧ stop = start + value.length ∧ stop ≤ l.length := by
  obtain ⟨hle, hstop⟩ := getRange_eq_some h
  unfold getRange at h
  rw [if_pos ⟨hle, hstop⟩] at h
  obtain rfl := Option.some.inj h
  have hlen : ((l.drop start).take (stop - start)).length = stop - start := by
    rw [List.length_take, List.length_drop]
    omega
  refine ⟨?_, by omega, hstop⟩
  have hsplit := (List.take_append_drop (stop - start) (l.drop start)).symm
  rw [List.drop_drop, show start + (stop - start) = stop by omega] at hsplit
  exact hsplit

section Holds

variable {ε α : Type} {l piece x y : List α} {k : Nat}

/-- The list holds `piece` from place `k` on. -/
def Holds (l : List α) (k : Nat) (piece : List α) : Prop :=
  ∃ before after, l = before ++ piece ++ after ∧ before.length = k

theorem Holds.self (l : List α) : Holds l 0 l := ⟨[], [], by simp, rfl⟩

theorem Holds.length_le (h : Holds l k piece) : k + piece.length ≤ l.length := by
  obtain ⟨before, after, rfl, rfl⟩ := h
  simp only [List.length_append]
  omega

theorem Holds.left (h : Holds l k (x ++ y)) : Holds l k x := by
  obtain ⟨before, after, rfl, rfl⟩ := h
  exact ⟨before, y ++ after, by simp, rfl⟩

theorem Holds.right (h : Holds l k (x ++ y)) : Holds l (k + x.length) y := by
  obtain ⟨before, after, rfl, rfl⟩ := h
  exact ⟨before ++ x, after, by simp, by simp⟩

theorem Holds.getElem? {a : α} (h : Holds l k (a :: y)) : l[k]? = some a := by
  obtain ⟨before, after, rfl, rfl⟩ := h
  simp

theorem Holds.drop_take (h : Holds l k piece) : (l.drop k).take piece.length = piece := by
  obtain ⟨before, after, rfl, rfl⟩ := h
  simp

theorem Holds.drop (h : Holds l k piece) : l.drop k = piece ++ l.drop (k + piece.length) := by
  obtain ⟨before, after, rfl, rfl⟩ := h
  rw [List.append_assoc, List.drop_left, ← List.append_assoc, ← List.length_append, List.drop_left]

theorem holds_of_drop {rest : List α} (hk : k ≤ l.length) (h : l.drop k = piece ++ rest) : Holds l k piece := by
  refine ⟨l.take k, rest, ?_, List.length_take_of_le hk⟩
  rw [List.append_assoc, ← h, List.take_append_drop]

theorem Holds.append (hx : Holds l k x) (hy : Holds l (k + x.length) y) : Holds l k (x ++ y) := by
  have hdrop := hx.drop
  rw [hy.drop, ← List.append_assoc] at hdrop
  exact holds_of_drop (Nat.le_trans (Nat.le_add_right k _) hx.length_le) hdrop

/-- A piece goes on with what stands behind it. -/
theorem Holds.append_take (h : Holds l k piece) (n : Nat) :
    Holds l k (piece ++ (l.drop (k + piece.length)).take n) :=
  h.append (holds_of_drop h.length_le (List.take_append_drop n _).symm)

theorem Holds.slice (h : Holds l k piece) : (Outcome.slice l k (k + piece.length) : Outcome ε (List α)) =
    .ok piece := by
  have hlen := h.length_le
  unfold Outcome.slice
  rw [if_pos ⟨by omega, hlen⟩, show k + piece.length - k = piece.length by omega, h.drop_take]

theorem Holds.getRange (h : Holds l k piece) : Idnx.getRange l k (k + piece.length) = some piece := by
  unfold Idnx.getRange
  rw [if_pos ⟨Nat.le_add_right _ _, h.length_le⟩, Nat.add_sub_cancel_left, h.drop_take]

/-- Writing over a piece leaves what stands around it. -/
theorem copyInto_append {before old after new : List α} (hnew : new.length = old.length) :
    (Outcome.copyInto (before ++ old ++ after) before.length (before.length + old.length) new : Outcome ε (List α)) =
      .ok (before ++ new ++ after) := by
  unfold Outcome.copyInto
  rw [if_pos ⟨by omega, by rw [List.length_append, List.length_append]; omega, by omega⟩]
  have htake : (before ++ old ++ after).take before.length = before := by
    rw [List.append_assoc, List.take_left]
  have hdrop : (before ++ old ++ after).drop (before.length + old.length) = after := by
    rw [← List.length_append, List.drop_left]
  rw [htake, hdrop]

/-- A call behind a place is a call on what is there. -/
theorem index_add {i : Nat} : (Outcome.index l (k + i) : Outcome ε α) = Outcome.index (l.drop k) i := by
  unfold Outcome.index
  rw [List.getElem?_drop]

theorem index_of_drop {a : α} {rest : List α} (h : l.drop k = a :: rest) :
    (Outcome.index l k : Outcome ε α) = .ok a := by
  rw [← Nat.add_zero k, index_add, h]
  rfl

theorem Holds.index {a : α} (h : Holds l k (a :: y)) : (Outcome.index l k : Outcome ε α) = .ok a := by
  unfold Outcome.index
  rw [h.getElem?]

end Holds

end Idnx
