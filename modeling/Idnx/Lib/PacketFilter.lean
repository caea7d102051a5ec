import Idnx.Lib.Framing

/-!
# Classic packet filters

A classic BPF program loads numbers from a packet into an accumulator, compares it with constants to jump ahead, and
returns how many bytes of the packet are delivered: none if it is to be dropped. A load from behind the end of the
packet drops it.

* `Verdict` is the meaning of a program, `verdict` runs it;
* a program that the kernel's check admits (`checked`) has a verdict on every packet (`exists_verdict`), and there is
  only one (`verdict_eq_some_iff`);
* `SockFilter` is an instruction as it is handed to the kernel, `decode` reads it;
* a `Filter` is a program the kernel has admitted; it delivers each packet, or its front, or drops it.
-/

namespace Idnx.PacketFilter

/-! ## Instructions -/

/-- The width of a load. -/
inductive Width where
  | word | half | byte
  deriving DecidableEq, Repr

def Width.bytes : Width → Nat
  | .word => 4
  | .half => 2
  | .byte => 1

/-- How a jump compares the accumulator with its constant. -/
inductive Comparison where
  | equal | greater | greaterEqual | anyBit
  deriving DecidableEq, Repr

def Comparison.holds : Comparison → Nat → Nat → Bool
  | .equal, a, k => a == k
  | .greater, a, k => decide (k < a)
  | .greaterEqual, a, k => decide (k ≤ a)
  | .anyBit, a, k => a &&& k != 0

/-- An instruction. A jump counts from the instruction behind it. -/
inductive Instruction where
  | load (width : Width) (offset : Nat)
  | jump (comparison : Comparison) (k jt jf : Nat)
  | ret (length : Nat)
  deriving DecidableEq, Repr

abbrev Program := List Instruction

/-- What a load finds: a number, the most significant byte first, if the packet has its bytes. -/
def loadAt (packet : Bytes) (width : Width) (offset : Nat) : Option Nat :=
  if offset + width.bytes ≤ packet.length then some (beNat ((packet.drop offset).take width.bytes)) else none

/-! ## Meaning -/

variable {program : Program} {packet : Bytes}

/-- From instruction `pc` with `a` in the accumulator, the program returns `r`. -/
inductive Verdict (program : Program) (packet : Bytes) : Nat → Nat → Nat → Prop
  | load {pc a r w offset v} (hat : program[pc]? = some (.load w offset)) (hin : loadAt packet w offset = some v)
      (h : Verdict program packet (pc + 1) v r) : Verdict program packet pc a r
  | outside {pc a w offset} (hat : program[pc]? = some (.load w offset)) (hout : loadAt packet w offset = none) :
      Verdict program packet pc a 0
  | jump {pc a r c k jt jf} (hat : program[pc]? = some (.jump c k jt jf))
      (h : Verdict program packet (pc + 1 + if c.holds a k then jt else jf) a r) : Verdict program packet pc a r
  | ret {pc a r} (hat : program[pc]? = some (.ret r)) : Verdict program packet pc a r

namespace Verdict

variable {pc a r k jt jf : Nat} {c : Comparison}

theorem taken (hat : program[pc]? = some (.jump c k jt jf)) (hc : c.holds a k = true)
    (h : Verdict program packet (pc + 1 + jt) a r) : Verdict program packet pc a r := by
  refine .jump hat ?_
  rwa [if_pos hc]

theorem notTaken (hat : program[pc]? = some (.jump c k jt jf)) (hc : c.holds a k = false)
    (h : Verdict program packet (pc + 1 + jf) a r) : Verdict program packet pc a r := by
  refine .jump hat ?_
  rwa [if_neg (by rw [hc]; exact Bool.false_ne_true)]

end Verdict

/-- Runs a program for so many instructions. -/
def runFrom (program : Program) (packet : Bytes) : Nat → Nat → Nat → Option Nat
  | 0, _, _ => none
  | fuel + 1, pc, a =>
    match program[pc]? with
    | some (.load width offset) =>
      match loadAt packet width offset with
      | some v => runFrom program packet fuel (pc + 1) v
      | none => some 0
    | some (.jump c k jt jf) => runFrom program packet fuel (pc + 1 + if c.holds a k then jt else jf) a
    | some (.ret length) => some length
    | none => none

/-- The verdict on a packet. No instruction is run twice. -/
def verdict (program : Program) (packet : Bytes) : Option Nat := runFrom program packet program.length 0 0

/-! ## The kernel's check -/

/-- Every instruction but a return is followed by one, and every jump ends inside the program. -/
def checked : Program → Bool
  | [] => true
  | .load _ _ :: rest => 0 < rest.length && checked rest
  | .jump _ _ jt jf :: rest => jt < rest.length && jf < rest.length && checked rest
  | .ret _ :: rest => checked rest

/-- An instruction runs on to places inside the program. -/
def Instruction.StaysBelow (n pc : Nat) : Instruction → Prop
  | .load _ _ => pc + 1 < n
  | .jump _ _ jt jf => pc + 1 + jt < n ∧ pc + 1 + jf < n
  | .ret _ => True

theorem staysBelow_of_checked (h : checked program) {pc : Nat} {i : Instruction} (hat : program[pc]? = some i) :
    i.StaysBelow program.length pc := by
  induction program generalizing pc with
  | nil => cases hat
  | cons first rest ih =>
    have hrest : checked rest := by
      cases first with
      | load w offset =>
        rw [checked, Bool.and_eq_true] at h
        exact h.2
      | jump c k jt jf =>
        rw [checked, Bool.and_eq_true] at h
        exact h.2
      | ret length => exact h
    cases pc with
    | zero =>
      obtain rfl := Option.some.inj hat
      rw [List.length_cons]
      cases first with
      | load w offset =>
        rw [checked, Bool.and_eq_true, decide_eq_true_iff] at h
        show 0 + 1 < rest.length + 1
        omega
      | jump c k jt jf =>
        rw [checked, Bool.and_eq_true, Bool.and_eq_true, decide_eq_true_iff, decide_eq_true_iff] at h
        show 0 + 1 + jt < rest.length + 1 ∧ 0 + 1 + jf < rest.length + 1
        omega
      | ret length => trivial
    | succ pc =>
      have hbelow := ih hrest hat
      rw [List.length_cons]
      cases i with
      | load w offset =>
        show pc + 1 + 1 < rest.length + 1
        have : pc + 1 < rest.length := hbelow
        omega
      | jump c k jt jf =>
        show pc + 1 + 1 + jt < rest.length + 1 ∧ pc + 1 + 1 + jf < rest.length + 1
        have : pc + 1 + jt < rest.length ∧ pc + 1 + jf < rest.length := hbelow
        omega
      | ret length => trivial

/-- **A checked program has a verdict on every packet**: it only runs ahead, and it does not run out. -/
theorem exists_verdict (h : checked program) (packet : Bytes) {pc : Nat} (hpc : pc < program.length) (a : Nat) :
    ∃ r, Verdict program packet pc a r := by
  induction hleft : program.length - pc using Nat.strongRecOn generalizing pc a with
  | _ left ih =>
    subst hleft
    have hat : program[pc]? = some program[pc] := List.getElem?_eq_getElem hpc
    have hbelow := staysBelow_of_checked h hat
    cases hi : program[pc] with
    | load w offset =>
      rw [hi] at hat hbelow
      have hnext : pc + 1 < program.length := hbelow
      cases hload : loadAt packet w offset with
      | none => exact ⟨0, .outside hat hload⟩
      | some v =>
        obtain ⟨r, hr⟩ := ih (program.length - (pc + 1)) (by omega) hnext v rfl
        exact ⟨r, .load hat hload hr⟩
    | jump c k jt jf =>
      rw [hi] at hat hbelow
      obtain ⟨hjt, hjf⟩ : pc + 1 + jt < program.length ∧ pc + 1 + jf < program.length := hbelow
      have hnext : pc + 1 + (if c.holds a k then jt else jf) < program.length := by
        split
        · exact hjt
        · exact hjf
      obtain ⟨r, hr⟩ := ih (program.length - (pc + 1 + if c.holds a k then jt else jf)) (by omega) hnext a rfl
      exact ⟨r, .jump hat hr⟩
    | ret length =>
      rw [hi] at hat
      exact ⟨length, .ret hat⟩

/-! ## Running -/

/-- A run gives what the program means. -/
theorem verdict_of_runFrom {fuel pc a r : Nat} (h : runFrom program packet fuel pc a = some r) :
    Verdict program packet pc a r := by
  induction fuel generalizing pc a with
  | zero => cases h
  | succ fuel ih =>
    rw [runFrom] at h
    split at h
    case h_1 w offset hat =>
      split at h
      case h_1 v hload => exact .load hat hload (ih h)
      case h_2 hload =>
        obtain rfl := Option.some.inj h
        exact .outside hat hload
    case h_2 c k jt jf hat => exact .jump hat (ih h)
    case h_3 length hat =>
      obtain rfl := Option.some.inj h
      exact .ret hat
    case h_4 => cases h

/-- As many instructions as there are behind `pc` are enough. -/
theorem runFrom_of_verdict {fuel pc a r : Nat} (h : Verdict program packet pc a r)
    (hfuel : program.length - pc ≤ fuel) : runFrom program packet fuel pc a = some r := by
  induction h generalizing fuel with
  | @load pc a r w offset v hat hin _ ih =>
    have hlt := (List.getElem?_eq_some_iff.mp hat).1
    obtain ⟨fuel, rfl⟩ : ∃ n, fuel = n + 1 := ⟨fuel - 1, by omega⟩
    rw [runFrom, hat]
    dsimp only
    rw [hin]
    exact ih (by omega)
  | @outside pc a w offset hat hout =>
    have hlt := (List.getElem?_eq_some_iff.mp hat).1
    obtain ⟨fuel, rfl⟩ : ∃ n, fuel = n + 1 := ⟨fuel - 1, by omega⟩
    rw [runFrom, hat]
    dsimp only
    rw [hout]
  | @jump pc a r c k jt jf hat _ ih =>
    have hlt := (List.getElem?_eq_some_iff.mp hat).1
    obtain ⟨fuel, rfl⟩ : ∃ n, fuel = n + 1 := ⟨fuel - 1, by omega⟩
    rw [runFrom, hat]
    exact ih (by omega)
  | @ret pc a r hat =>
    have hlt := (List.getElem?_eq_some_iff.mp hat).1
    obtain ⟨fuel, rfl⟩ : ∃ n, fuel = n + 1 := ⟨fuel - 1, by omega⟩
    rw [runFrom, hat]

/-- **Running a program gives its verdict**, and nothing else is one. -/
theorem verdict_eq_some_iff {r : Nat} : verdict program packet = some r ↔ Verdict program packet 0 0 r :=
  ⟨verdict_of_runFrom, fun h => runFrom_of_verdict h (Nat.sub_le _ _)⟩

/-! ## Instructions as the kernel takes them -/

/-- `struct sock_filter`. -/
structure SockFilter where
  code : UInt16
  jt : UInt8
  jf : UInt8
  k : UInt32
  deriving DecidableEq, Repr

/-- The instruction, if it is one of an absolute load, a comparison with a constant and a return of one. -/
def SockFilter.decode (f : SockFilter) : Option Instruction :=
  match f.code.toNat with
  | 0x20 => some (.load .word f.k.toNat)
  | 0x28 => some (.load .half f.k.toNat)
  | 0x30 => some (.load .byte f.k.toNat)
  | 0x15 => some (.jump .equal f.k.toNat f.jt.toNat f.jf.toNat)
  | 0x25 => some (.jump .greater f.k.toNat f.jt.toNat f.jf.toNat)
  | 0x35 => some (.jump .greaterEqual f.k.toNat f.jt.toNat f.jf.toNat)
  | 0x45 => some (.jump .anyBit f.k.toNat f.jt.toNat f.jf.toNat)
  | 0x06 => some (.ret f.k.toNat)
  | _ => none

/-! ## Attached filters -/

/-- A program the kernel has admitted. -/
structure Filter where
  program : Program
  ne_nil : program ≠ []
  checked : checked program

/-- What is attached when a program is handed to the kernel: nothing if an instruction cannot be read or the check
refuses it. -/
def attach (instructions : List SockFilter) : Option Filter :=
  match instructions.mapM SockFilter.decode with
  | some program => if h : program ≠ [] ∧ checked program then some ⟨program, h.1, h.2⟩ else none
  | none => none

theorem attach_eq_some {instructions : List SockFilter} {program : Program}
    (hdecode : instructions.mapM SockFilter.decode = some program) (hne : program ≠ []) (h : checked program) :
    attach instructions = some ⟨program, hne, h⟩ := by
  rw [attach, hdecode]
  exact dif_pos ⟨hne, h⟩

namespace Filter

variable (f : Filter)

theorem isSome_verdict (packet : Bytes) : (verdict f.program packet).isSome := by
  obtain ⟨r, hr⟩ := exists_verdict f.checked packet (List.length_pos_of_ne_nil f.ne_nil) 0
  rw [verdict_eq_some_iff.mpr hr]
  rfl

/-- How many bytes of a packet are delivered. -/
def verdict (packet : Bytes) : Nat := (PacketFilter.verdict f.program packet).get (f.isSome_verdict packet)

variable {f} {packet : Bytes} {r : Nat}

/-- **The verdict of a filter is what its program means.** -/
theorem verdict_eq_iff : f.verdict packet = r ↔ Verdict f.program packet 0 0 r := by
  rw [← verdict_eq_some_iff, Option.eq_some_iff_get_eq]
  constructor
  · intro h
    exact ⟨f.isSome_verdict packet, h⟩
  · rintro ⟨_, h⟩
    exact h

/-- What is delivered of a packet. -/
def deliver (f : Filter) (packet : Bytes) : Option Bytes :=
  if f.verdict packet = 0 then none else some (packet.take (f.verdict packet))

theorem deliver_of_zero (h : Verdict f.program packet 0 0 0) : f.deliver packet = none :=
  if_pos (verdict_eq_iff.mpr h)

theorem deliver_of_pos (h : Verdict f.program packet 0 0 r) (hr : r ≠ 0) :
    f.deliver packet = some (packet.take r) := by
  rw [deliver, verdict_eq_iff.mpr h, if_neg hr]

end Filter

end Idnx.PacketFilter
