import Idnx.Lib.Text
import Mathlib.Data.List.Range
import Mathlib.Data.Nat.Bits
import Mathlib.Algebra.Order.Ring.Nat

/-!
# Addresses and prefixes

IPv4 and IPv6 addresses as 32 and 128 bits, prefixes as an address with a length that fits it, the classes of the
standard library (`is_private`, `is_link_local`, ...), and how an address is printed.
-/

namespace Idnx

abbrev Ipv4Addr := BitVec 32

abbrev Ipv6Addr := BitVec 128

/-- An address of either family. -/
inductive IpAddr where
  | v4 (addr : Ipv4Addr)
  | v6 (addr : Ipv6Addr)
  deriving DecidableEq, Ord, Repr

instance neZero_33 : NeZero 33 := ⟨by decide⟩

instance neZero_129 : NeZero 129 := ⟨by decide⟩

/-- A prefix: an address, host bits included, and the number of leading bits that name the network. -/
inductive IpNet where
  | v4 (addr : Ipv4Addr) (len : Fin 33)
  | v6 (addr : Ipv6Addr) (len : Fin 129)
  deriving DecidableEq, Ord, Repr

namespace IpNet

def addr : IpNet → IpAddr
  | .v4 a _ => .v4 a
  | .v6 a _ => .v6 a

def prefixLen : IpNet → Nat
  | .v4 _ n => n
  | .v6 _ n => n

end IpNet

namespace Ipv4Addr

/-- The address `a.b.c.d`. -/
def new (a b c d : Nat) : Ipv4Addr := BitVec.ofNat 32 (((a * 256 + b) * 256 + c) * 256 + d)

/-- The octets, first to last. -/
def octet (a : Ipv4Addr) (i : Nat) : Nat := a.toNat / 256 ^ (3 - i) % 256

def isUnspecified (a : Ipv4Addr) : Bool := a.toNat == 0

def isLoopback (a : Ipv4Addr) : Bool := octet a 0 == 127

def isLinkLocal (a : Ipv4Addr) : Bool := octet a 0 == 169 && octet a 1 == 254

def isMulticast (a : Ipv4Addr) : Bool := 224 ≤ octet a 0 && octet a 0 ≤ 239

def isBroadcast (a : Ipv4Addr) : Bool := a.toNat == 2 ^ 32 - 1

def isPrivate (a : Ipv4Addr) : Bool :=
  octet a 0 == 10 || (octet a 0 == 172 && 16 ≤ octet a 1 && octet a 1 ≤ 31) || (octet a 0 == 192 && octet a 1 == 168)

def toText (a : Ipv4Addr) : Text :=
  Text.ofNat (octet a 0) ++ '.' :: Text.ofNat (octet a 1) ++ '.' :: Text.ofNat (octet a 2) ++
    '.' :: Text.ofNat (octet a 3)

end Ipv4Addr

namespace Ipv6Addr

/-- The address with the given eight groups. -/
def new (s : List Nat) : Ipv6Addr := BitVec.ofNat 128 (s.foldl (fun acc g => acc * 65536 + g) 0)

/-- The sixteen-bit groups, first to last. -/
def segment (a : Ipv6Addr) (i : Nat) : Nat := a.toNat / 65536 ^ (7 - i) % 65536

def segments (a : Ipv6Addr) : List Nat := (List.range 8).map (segment a)

def isUnspecified (a : Ipv6Addr) : Bool := a.toNat == 0

def isLoopback (a : Ipv6Addr) : Bool := a.toNat == 1

def isMulticast (a : Ipv6Addr) : Bool := segment a 0 / 256 == 0xff

/-- `fe80::/10`, as `net::endpoint` and `topology::graph` both write it out. -/
def isLinkLocal (a : Ipv6Addr) : Bool := segment a 0 &&& 0xffc0 == 0xfe80

/-- The first longest run of zero groups, as its start and length. -/
def zeroRun : List Nat → (i : Nat) → (cur best : Nat × Nat) → Nat × Nat
  | [], _, _, best => best
  | g :: gs, i, cur, best =>
    if g = 0 then
      let cur := if cur.2 = 0 then (i, 1) else (cur.1, cur.2 + 1)
      zeroRun gs (i + 1) cur (if cur.2 > best.2 then cur else best)
    else zeroRun gs (i + 1) (0, 0) best

def joinGroups (gs : List Nat) : Text := List.intercalate [':'] (gs.map Text.hexOfNat)

def toText (a : Ipv6Addr) : Text :=
  let gs := segments a
  if gs.take 5 = [0, 0, 0, 0, 0] ∧ gs.getD 5 0 = 0xffff then
    ("::ffff:" : Text) ++ Ipv4Addr.toText (BitVec.ofNat 32 a.toNat)
  else
    let (start, len) := zeroRun gs 0 (0, 0) (0, 0)
    if len > 1 then joinGroups (gs.take start) ++ ("::" : Text) ++ joinGroups (gs.drop (start + len))
    else joinGroups gs

end Ipv6Addr

def IpAddr.toText : IpAddr → Text
  | .v4 a => a.toText
  | .v6 a => a.toText

namespace IpNet

def toText (net : IpNet) : Text := net.addr.toText ++ '/' :: Text.ofNat net.prefixLen

/-- Whether the two addresses agree on everything but the last `k` bits. -/
def sameBlock {w : Nat} (k : Nat) (a b : BitVec w) : Bool := a.toNat / 2 ^ k == b.toNat / 2 ^ k

/-- The addresses of the network: those that agree with the prefix on its leading bits (`IpNet::contains`). -/
def contains : IpNet → IpAddr → Bool
  | .v4 a n, .v4 b => sameBlock (32 - n) a b
  | .v6 a n, .v6 b => sameBlock (128 - n) a b
  | _, _ => false

/-- The address with its last `k` bits cleared. -/
def clearBits {w : Nat} (k : Nat) (a : BitVec w) : BitVec w := BitVec.ofNat w (a.toNat / 2 ^ k * 2 ^ k)

/-- The prefix without its host bits. -/
def trunc : IpNet → IpNet
  | .v4 a n => .v4 (clearBits (32 - n) a) n
  | .v6 a n => .v6 (clearBits (128 - n) a) n

section Blocks

variable {w k l : Nat} {a b : BitVec w}

theorem sameBlock_iff {x : BitVec w} :
    sameBlock k a x = true ↔ a.toNat / 2 ^ k * 2 ^ k ≤ x.toNat ∧ x.toNat < a.toNat / 2 ^ k * 2 ^ k + 2 ^ k := by
  have hk : 0 < 2 ^ k := Nat.two_pow_pos k
  unfold sameBlock
  rw [beq_iff_eq, eq_comm, Nat.div_eq_iff hk]
  constructor <;> rintro ⟨h₁, h₂⟩ <;> exact ⟨by omega, by omega⟩

/-- A block ends below the end of the address space. -/
theorem block_le (hk : k ≤ w) : a.toNat / 2 ^ k * 2 ^ k + 2 ^ k ≤ 2 ^ w := by
  obtain ⟨d, rfl⟩ := Nat.exists_eq_add_of_le hk
  have hlt : a.toNat < 2 ^ k * 2 ^ d := by rw [← Nat.pow_add]; exact a.isLt
  have hdiv : a.toNat / 2 ^ k < 2 ^ d := Nat.div_lt_of_lt_mul hlt
  calc a.toNat / 2 ^ k * 2 ^ k + 2 ^ k = (a.toNat / 2 ^ k + 1) * 2 ^ k := by rw [Nat.succ_mul]
    _ ≤ 2 ^ d * 2 ^ k := Nat.mul_le_mul_right _ hdiv
    _ = 2 ^ (k + d) := by rw [← Nat.pow_add, Nat.add_comm]

/-- A block is known by its addresses: they give its start and its size. -/
theorem block_ext (hk : k ≤ w) (hl : l ≤ w) (h : ∀ x : BitVec w, sameBlock k a x = sameBlock l b x) :
    k = l ∧ a.toNat / 2 ^ k * 2 ^ k = b.toNat / 2 ^ l * 2 ^ l := by
  have hmem : ∀ n < 2 ^ w, (a.toNat / 2 ^ k * 2 ^ k ≤ n ∧ n < a.toNat / 2 ^ k * 2 ^ k + 2 ^ k) ↔
      (b.toNat / 2 ^ l * 2 ^ l ≤ n ∧ n < b.toNat / 2 ^ l * 2 ^ l + 2 ^ l) := by
    intro n hn
    have hx := h (BitVec.ofNat w n)
    rw [Bool.eq_iff_iff, sameBlock_iff, sameBlock_iff, BitVec.toNat_ofNat, Nat.mod_eq_of_lt hn] at hx
    exact hx
  have ha := block_le (a := a) hk
  have hb := block_le (a := b) hl
  have hpk : 0 < 2 ^ k := Nat.two_pow_pos k
  have hpl : 0 < 2 ^ l := Nat.two_pow_pos l
  have h₁ := hmem (a.toNat / 2 ^ k * 2 ^ k) (by omega)
  have h₂ := hmem (b.toNat / 2 ^ l * 2 ^ l) (by omega)
  have h₃ := hmem (a.toNat / 2 ^ k * 2 ^ k + 2 ^ k - 1) (by omega)
  have h₄ := hmem (b.toNat / 2 ^ l * 2 ^ l + 2 ^ l - 1) (by omega)
  have hstart : a.toNat / 2 ^ k * 2 ^ k = b.toNat / 2 ^ l * 2 ^ l := by omega
  have hsize : 2 ^ k = 2 ^ l := by omega
  exact ⟨Nat.pow_right_injective (le_refl 2) hsize, hstart⟩

theorem toNat_clearBits : (clearBits k a).toNat = a.toNat / 2 ^ k * 2 ^ k := by
  have hle : a.toNat / 2 ^ k * 2 ^ k ≤ a.toNat := Nat.div_mul_le_self _ _
  rw [clearBits, BitVec.toNat_ofNat, Nat.mod_eq_of_lt (by have := a.isLt; omega)]

/-- The cleared bits are zero. -/
theorem getLsbD_clearBits {i : Nat} (h : i < k) : (clearBits k a).getLsbD i = false := by
  rw [← BitVec.testBit_toNat, toNat_clearBits, Nat.testBit_mul_two_pow, decide_eq_false (Nat.not_le_of_lt h),
    Bool.false_and]

/-- Clearing the last bits does not leave the block. -/
theorem sameBlock_clearBits (x : BitVec w) : sameBlock k (clearBits k a) x = sameBlock k a x := by
  rw [sameBlock, toNat_clearBits, Nat.mul_div_cancel _ (Nat.two_pow_pos k), sameBlock]

end Blocks

/-- **Two prefixes have the same addresses exactly when they differ in host bits only.** -/
theorem contains_eq_iff {p q : IpNet} : p.contains = q.contains ↔ p.trunc = q.trunc := by
  have hone : ∀ {w n m : Nat} (a b : BitVec w), n ≤ w → m ≤ w →
      (∀ x, sameBlock (w - n) a x = sameBlock (w - m) b x) → n = m ∧ clearBits (w - n) a = clearBits (w - m) b := by
    intro w n m a b hn hm h
    obtain ⟨hk, hstart⟩ := block_ext (Nat.sub_le w n) (Nat.sub_le w m) h
    refine ⟨by omega, BitVec.eq_of_toNat_eq ?_⟩
    rw [toNat_clearBits, toNat_clearBits, hstart]
  cases p with
  | v4 a n =>
    cases q with
    | v4 b m =>
      constructor
      · intro h
        obtain ⟨hn, hc⟩ := hone a b (by omega) (by omega) fun x => congrFun h (.v4 x)
        rw [trunc, trunc, hc, Fin.ext hn]
      · intro h
        simp only [trunc, v4.injEq] at h
        obtain ⟨hc, rfl⟩ := h
        funext x
        cases x with
        | v4 x => rw [contains, contains, ← sameBlock_clearBits, hc, sameBlock_clearBits]
        | v6 x => rfl
    | v6 b m =>
      constructor
      · intro h
        have hx := congrFun h (.v4 a)
        simp [contains, sameBlock] at hx
      · intro h; cases h
  | v6 a n =>
    cases q with
    | v4 b m =>
      constructor
      · intro h
        have hx := congrFun h (.v6 a)
        simp [contains, sameBlock] at hx
      · intro h; cases h
    | v6 b m =>
      constructor
      · intro h
        obtain ⟨hn, hc⟩ := hone a b (by omega) (by omega) fun x => congrFun h (.v6 x)
        rw [trunc, trunc, hc, Fin.ext hn]
      · intro h
        simp only [trunc, v6.injEq] at h
        obtain ⟨hc, rfl⟩ := h
        funext x
        cases x with
        | v4 x => rfl
        | v6 x => rw [contains, contains, ← sameBlock_clearBits, hc, sameBlock_clearBits]

end IpNet

/-! ## Prefixes of one family -/

/-- An IPv4 prefix (`ipnet::Ipv4Net`). -/
structure Ipv4Net where
  addr : Ipv4Addr
  prefixLen : Fin 33
  deriving DecidableEq, Repr

namespace Ipv4Net

/-- A length of more than thirty-two bits is refused. -/
def new (addr : Ipv4Addr) (len : Nat) : Option Ipv4Net := if h : len < 33 then some ⟨addr, ⟨len, h⟩⟩ else none

theorem new_of_lt (addr : Ipv4Addr) {len : Nat} (h : len < 33) : new addr len = some ⟨addr, Fin.ofNat 33 len⟩ := by
  unfold new
  rw [dif_pos h]
  congr
  exact (Nat.mod_eq_of_lt h).symm

def trunc (net : Ipv4Net) : Ipv4Net := { net with addr := IpNet.clearBits (32 - net.prefixLen) net.addr }

def toNet (net : Ipv4Net) : IpNet := .v4 net.addr net.prefixLen

end Ipv4Net

/-- An IPv6 prefix (`ipnet::Ipv6Net`). -/
structure Ipv6Net where
  addr : Ipv6Addr
  prefixLen : Fin 129
  deriving DecidableEq, Repr

namespace Ipv6Net

def new (addr : Ipv6Addr) (len : Nat) : Option Ipv6Net := if h : len < 129 then some ⟨addr, ⟨len, h⟩⟩ else none

theorem new_of_lt (addr : Ipv6Addr) {len : Nat} (h : len < 129) : new addr len = some ⟨addr, Fin.ofNat 129 len⟩ := by
  unfold new
  rw [dif_pos h]
  congr
  exact (Nat.mod_eq_of_lt h).symm

def trunc (net : Ipv6Net) : Ipv6Net := { net with addr := IpNet.clearBits (128 - net.prefixLen) net.addr }

def toNet (net : Ipv6Net) : IpNet := .v6 net.addr net.prefixLen

end Ipv6Net

/-! ## Masks -/

/-- `leading_ones` of a machine word. -/
def leadingOnes {w : Nat} (bits : BitVec w) : Nat := ((List.range w).takeWhile fun i => bits.getMsbD i).length

/-- `trailing_zeros` of a machine word. -/
def trailingZeros {w : Nat} (bits : BitVec w) : Nat := ((List.range w).takeWhile fun i => !bits.getLsbD i).length

/-- The prefix length a netmask represents, if it is a run of ones followed by a run of zeros. -/
def contiguousPrefixLen (netmask : Ipv4Addr) : Option Nat :=
  if leadingOnes netmask + trailingZeros netmask = 32 then some (leadingOnes netmask) else none

example : (IpAddr.v4 (.new 10 0 0 9)).toText = "10.0.0.9".toList := by decide
example : (IpAddr.v6 (.new [0xfe80, 0, 0, 0, 0, 0, 0, 1])).toText = "fe80::1".toList := by decide

end Idnx
