import Idnx.Net.Address
import Mathlib.Data.Finset.Card
import Mathlib.Data.List.Sort

/-!
# Candidates for router interfaces

`candidatesWithCoverage` lists gateway addresses of `/24`s in the private blocks that hold an observed address: of the
`/24`s around each observed address first, then of a sample of each block, until the list is as long as the limit.
`expandAround` lists those around an address that answered. All of these `/24`s are inside a private block
(`mem_neighbourhoods`, `mem_sampleOf`).
-/

namespace Idnx

namespace Ipv4Net

/-- The address without its host bits. -/
def network (net : Ipv4Net) : Ipv4Addr := net.trunc.addr

def contains (net : Ipv4Net) (address : Ipv4Addr) : Bool := net.toNet.contains (.v4 address)

/-- The prefixes of the given length within this one, in order; none if that is not longer. -/
def subnets (net : Ipv4Net) (len : Fin 33) : List Ipv4Net :=
  if net.prefixLen ≤ len then
    (List.range (2 ^ (len.val - net.prefixLen.val))).map fun i =>
      ⟨BitVec.ofNat 32 (net.network.toNat + i * 2 ^ (32 - len.val)), len⟩
  else []

end Ipv4Net

/-- Every `step`-th element, from the first on. -/
def stepBy {α : Type} (step : Nat) : (skip : Nat) → List α → List α
  | _, [] => []
  | 0, a :: l => a :: stepBy step (step - 1) l
  | skip + 1, _ :: l => stepBy step skip l

theorem mem_of_mem_stepBy {α : Type} {step skip : Nat} {l : List α} {a : α} (h : a ∈ stepBy step skip l) : a ∈ l := by
  induction l generalizing skip with
  | nil => cases skip <;> exact h
  | cons b l ih =>
    cases skip with
    | zero => exact List.mem_cons.mpr ((List.mem_cons.mp h).imp_right ih)
    | succ skip => exact List.mem_cons_of_mem _ (ih h)

/-! ## The candidates -/

/-- Addresses within a `/24` where a router interface is conventionally configured. -/
def gatewayHosts : List Nat := [1, 254]

/-- The private blocks a candidate may come from. -/
def privateBlocks : List Ipv4Net := [⟨.new 10 0 0 0, 8⟩, ⟨.new 172 16 0 0, 12⟩, ⟨.new 192 168 0 0, 16⟩]

/-- The private block containing an address, if any. -/
def enclosingPrivateBlock (address : Ipv4Addr) : Option Ipv4Net :=
  privateBlocks.find? fun block => block.contains address

/-- A specific host address inside a `/24`. -/
def hostIn (subnet : Ipv4Net) (host : Nat) : Ipv4Addr :=
  .new (subnet.network.octet 0) (subnet.network.octet 1) (subnet.network.octet 2) host

/-- The `/24`s immediately around an observed address, inside its private block. -/
def neighbourhoods (address : Ipv4Addr) (block : Ipv4Net) : List Ipv4Net :=
  (List.range 17).filterMap fun offset =>
    let third := (address.octet 2 : Int) + ((offset : Int) - 8)
    if 0 ≤ third ∧ third ≤ 255 then
      let candidate := Ipv4Addr.new (address.octet 0) (address.octet 1) third.toNat 0
      if block.contains candidate then (Ipv4Net.new candidate 24).map Ipv4Net.trunc else none
    else none

/-- The gateway addresses to add once an address answers. -/
def expandAround (address : Ipv4Addr) : List Ipv4Addr :=
  match enclosingPrivateBlock address with
  | none => []
  | some block =>
    (neighbourhoods address block).flatMap fun subnet => (gatewayHosts.map (hostIn subnet)).filter (· ≠ address)

/-- How much of the candidate space the budget actually covered. -/
structure Coverage where
  sampledSubnets : Nat
  totalSubnets : Nat
  deriving DecidableEq

/-- The candidates so far, and the `/24`s looked into for them. -/
structure Listing where
  ordered : List Ipv4Addr := []
  seen : Finset Ipv4Addr := ∅
  subnets : Finset Ipv4Addr := ∅

section Candidates

variable (known : Finset Ipv4Addr) (limit : Nat)

/-- Lists the hosts of a `/24` that are neither known nor listed. With whether the limit is reached. -/
def Listing.takeHosts (subnet : Ipv4Net) : List Nat → Listing → Bool × Listing
  | [], l => (false, l)
  | host :: hosts, l =>
    let address := hostIn subnet host
    if address ∈ known ∨ address ∈ l.seen then Listing.takeHosts subnet hosts l
    else
      let l := { l with seen := insert address l.seen, ordered := l.ordered ++ [address] }
      if limit ≤ l.ordered.length then (true, l) else Listing.takeHosts subnet hosts l

def Listing.take (subnet : Ipv4Net) (l : Listing) : Bool × Listing :=
  Listing.takeHosts known limit subnet gatewayHosts { l with subnets := insert subnet.network l.subnets }

/-- Takes one `/24` after the other, until the limit is reached. -/
def Listing.takeAll : List Ipv4Net → Listing → Bool × Listing
  | [], l => (false, l)
  | subnet :: subnets, l =>
    match l.take known limit subnet with
    | (true, l) => (true, l)
    | (false, l) => Listing.takeAll subnets l

/-- The blocks with an observed address, as they come up. -/
def addBlock (blocks : List Ipv4Net) (address : Ipv4Addr) : List Ipv4Net :=
  match enclosingPrivateBlock address with
  | none => blocks
  | some block => if block ∈ blocks then blocks else blocks ++ [block]

/-- Neighbourhoods first, in the order the observations were given. -/
def Listing.takeNearby : List Ipv4Addr → List Ipv4Net → Listing → Bool × List Ipv4Net × Listing
  | [], blocks, l => (false, blocks, l)
  | address :: rest, blocks, l =>
    match enclosingPrivateBlock address with
    | none => Listing.takeNearby rest blocks l
    | some block =>
      match l.takeAll known limit (neighbourhoods address block) with
      | (true, l) => (true, addBlock blocks address, l)
      | (false, l) => Listing.takeNearby rest (addBlock blocks address) l

/-- The sample of a block, strided so that it spans the block evenly. -/
def sampleOf (remaining : Nat) (block : Ipv4Net) : List Ipv4Net :=
  let all := block.subnets 24
  let want := max (remaining / gatewayHosts.length) 1
  let stride := max (all.length / max want 1) 1
  stepBy stride 0 all

/-- Then a sample of each block. -/
def Listing.takeSamples (remaining : Nat) : List Ipv4Net → Listing → Bool × Listing
  | [], l => (false, l)
  | block :: blocks, l =>
    match l.takeAll known limit (sampleOf remaining block) with
    | (true, l) => (true, l)
    | (false, l) => Listing.takeSamples remaining blocks l

/-- How many `/24`s were sampled against how many the blocks hold. -/
def coverage (sampled : Finset Ipv4Addr) (blocks : List Ipv4Net) : Coverage where
  sampledSubnets := sampled.card
  totalSubnets := (blocks.map fun block => 2 ^ (24 - min block.prefixLen.val 24)).sum

/-- The blocks in address order. -/
def sortBlocks (blocks : List Ipv4Net) : List Ipv4Net :=
  blocks.insertionSort fun a b => a.network.toNat ≤ b.network.toNat

/-- The ordered candidate list, with how much of the space it covers. -/
def candidatesWithCoverage (observed : List Ipv4Addr) : List Ipv4Addr × Coverage :=
  match Listing.takeNearby known limit observed [] {} with
  | (true, blocks, l) => (l.ordered, coverage l.subnets blocks)
  | (false, blocks, l) =>
    let blocks := sortBlocks blocks
    let remaining := limit - l.ordered.length
    if remaining = 0 then (l.ordered, coverage l.subnets blocks)
    else
      match l.takeSamples known limit remaining blocks with
      | (_, l) => (l.ordered, coverage l.subnets blocks)

end Candidates

/-! ## Gateway addresses -/

/-- The address is the `.1` or the `.254` of a `/24` inside the block. -/
def IsGateway (block : Ipv4Net) (address : Ipv4Addr) : Prop :=
  ∃ subnet ∈ block.subnets 24, ∃ host ∈ gatewayHosts, address = hostIn subnet host

theorem toNat_new_octets (a : Ipv4Addr) {host : Nat} (h : host < 256) :
    (Ipv4Addr.new (a.octet 0) (a.octet 1) (a.octet 2) host).toNat = a.toNat / 256 * 256 + host := by
  have ha : a.toNat < 2 ^ 32 := a.isLt
  have hsplit : ((a.octet 0 * 256 + a.octet 1) * 256 + a.octet 2) * 256 + host = a.toNat / 256 * 256 + host := by
    simp only [Ipv4Addr.octet]
    omega
  rw [Ipv4Addr.new, hsplit, BitVec.toNat_ofNat, Nat.mod_eq_of_lt (by omega)]

theorem host_lt {host : Nat} (h : host ∈ gatewayHosts) : host < 256 := by
  revert host
  decide

theorem toNat_hostIn (subnet : Ipv4Net) {host : Nat} (h : host < 256) :
    (hostIn subnet host).toNat = subnet.network.toNat / 256 * 256 + host := toNat_new_octets subnet.network h

section Subnets

variable {block subnet : Ipv4Net}

theorem toNat_network (net : Ipv4Net) :
    net.network.toNat = net.addr.toNat / 2 ^ (32 - net.prefixLen.val) * 2 ^ (32 - net.prefixLen.val) :=
  IpNet.toNat_clearBits

theorem contains_iff {address : Ipv4Addr} :
    block.contains address = true ↔ block.network.toNat ≤ address.toNat ∧
      address.toNat < block.network.toNat + 2 ^ (32 - block.prefixLen.val) := by
  rw [toNat_network]
  exact IpNet.sameBlock_iff

/-- A block of `/24`s, in octets. -/
theorem network_of_le (hblock : block.prefixLen.val ≤ 24) :
    2 ^ (32 - block.prefixLen.val) = 2 ^ (24 - block.prefixLen.val) * 256 ∧ block.network.toNat % 256 = 0 ∧
      block.network.toNat + 2 ^ (24 - block.prefixLen.val) * 256 ≤ 2 ^ 32 := by
  have hsize : 2 ^ (32 - block.prefixLen.val) = 2 ^ (24 - block.prefixLen.val) * 256 := by
    rw [show 32 - block.prefixLen.val = 24 - block.prefixLen.val + 8 by omega, Nat.pow_add]
  refine ⟨hsize, ?_, ?_⟩
  · rw [toNat_network, hsize, ← Nat.mul_assoc, Nat.mul_mod_left]
  · rw [toNat_network, ← hsize]
    exact IpNet.block_le (Nat.sub_le 32 _)

/-- The `/24`s within a block: their addresses are those of the block that end in a zero octet. -/
theorem mem_subnets (hblock : block.prefixLen.val ≤ 24) :
    subnet ∈ block.subnets 24 ↔
      subnet.prefixLen = 24 ∧ subnet.addr.toNat % 256 = 0 ∧ block.contains subnet.addr = true := by
  obtain ⟨hsize, hzero, hfits⟩ := network_of_le hblock
  have hle : block.prefixLen ≤ (24 : Fin 33) := hblock
  rw [Ipv4Net.subnets, if_pos hle, List.mem_map, contains_iff, hsize]
  simp only [List.mem_range]
  constructor
  · rintro ⟨i, hi, rfl⟩
    have hi : i < 2 ^ (24 - block.prefixLen.val) := hi
    have haddr : (BitVec.ofNat 32 (block.network.toNat + i * 2 ^ 8)).toNat = block.network.toNat + i * 256 := by
      rw [BitVec.toNat_ofNat, Nat.mod_eq_of_lt (by omega)]
      omega
    refine ⟨rfl, ?_, ?_⟩
    · show (BitVec.ofNat 32 (block.network.toNat + i * 2 ^ 8)).toNat % 256 = 0
      rw [haddr]
      omega
    · show _ ≤ (BitVec.ofNat 32 (block.network.toNat + i * 2 ^ 8)).toNat ∧
        (BitVec.ofNat 32 (block.network.toNat + i * 2 ^ 8)).toNat < _
      rw [haddr]
      omega
  · rintro ⟨hlen, hend, hlow, hhigh⟩
    obtain ⟨addr, len⟩ := subnet
    obtain rfl : len = 24 := hlen
    dsimp only at hend hlow hhigh
    refine ⟨(addr.toNat - block.network.toNat) / 256, ?_, ?_⟩
    · show _ < 2 ^ (24 - block.prefixLen.val)
      omega
    · congr 1
      apply BitVec.eq_of_toNat_eq
      show (BitVec.ofNat 32 (_ + _ * 2 ^ 8)).toNat = _
      have ha : addr.toNat < 2 ^ 32 := addr.isLt
      rw [BitVec.toNat_ofNat, Nat.mod_eq_of_lt (by omega)]
      omega

theorem prefixLen_of_mem_privateBlocks (h : block ∈ privateBlocks) : block.prefixLen.val ≤ 24 := by
  revert block
  decide

theorem enclosingPrivateBlock_eq_some {address : Ipv4Addr} (h : enclosingPrivateBlock address = some block) :
    block ∈ privateBlocks ∧ block.contains address = true :=
  ⟨List.mem_of_find?_eq_some h, List.find?_some (p := fun block => Ipv4Net.contains block address) h⟩

/-- The private blocks have no address in common. -/
theorem enclosingPrivateBlock_of_contains {address : Ipv4Addr} (hblock : block ∈ privateBlocks)
    (h : block.contains address = true) : enclosingPrivateBlock address = some block := by
  have hapart : ∀ b ∈ privateBlocks, ∀ b' ∈ privateBlocks, b ≠ b' →
      b.network.toNat + 2 ^ (32 - b.prefixLen.val) ≤ b'.network.toNat ∨
        b'.network.toNat + 2 ^ (32 - b'.prefixLen.val) ≤ b.network.toNat := by
    decide
  have hsome : (enclosingPrivateBlock address).isSome = true := List.find?_isSome.mpr ⟨block, hblock, h⟩
  obtain ⟨other, hother⟩ := Option.isSome_iff_exists.mp hsome
  obtain ⟨hprivate, hcontains⟩ := enclosingPrivateBlock_eq_some hother
  rw [hother]
  congr 1
  by_contra hne
  rw [contains_iff] at h hcontains
  rcases hapart other hprivate block hblock hne with hbefore | hafter
  · omega
  · omega

theorem mem_neighbourhoods {address : Ipv4Addr} (hblock : block ∈ privateBlocks)
    (h : subnet ∈ neighbourhoods address block) : subnet ∈ block.subnets 24 := by
  obtain ⟨offset, -, hsubnet⟩ := List.mem_filterMap.mp h
  dsimp only at hsubnet
  split at hsubnet
  case isFalse => cases hsubnet
  case isTrue =>
    split at hsubnet
    case isFalse => cases hsubnet
    case isTrue hcontains =>
      rw [Ipv4Net.new_of_lt _ (by decide), Option.map_some] at hsubnet
      obtain rfl := Option.some.inj hsubnet
      have hzero : ∀ a b c : Nat, (Ipv4Addr.new a b c 0).toNat % 256 = 0 := by
        intro a b c
        rw [Ipv4Addr.new, BitVec.toNat_ofNat]
        omega
      have htrunc : ∀ a : Ipv4Addr, a.toNat % 256 = 0 → (Ipv4Net.trunc ⟨a, Fin.ofNat 33 24⟩).addr = a := by
        intro a ha
        apply BitVec.eq_of_toNat_eq
        show (IpNet.clearBits 8 a).toNat = a.toNat
        rw [IpNet.toNat_clearBits]
        omega
      rw [mem_subnets (prefixLen_of_mem_privateBlocks hblock), htrunc _ (hzero _ _ _)]
      exact ⟨rfl, hzero _ _ _, hcontains⟩

theorem network_of_mem_subnets (hblock : block ∈ privateBlocks) (h : subnet ∈ block.subnets 24) :
    subnet.network = subnet.addr := by
  obtain ⟨hlen, hend, -⟩ := (mem_subnets (prefixLen_of_mem_privateBlocks hblock)).mp h
  apply BitVec.eq_of_toNat_eq
  rw [toNat_network, hlen]
  show subnet.addr.toNat / 256 * 256 = subnet.addr.toNat
  omega

/-- A gateway of a block is one of its addresses. -/
theorem contains_of_isGateway {a : Ipv4Addr} (hblock : block ∈ privateBlocks) (h : IsGateway block a) :
    block.contains a = true := by
  obtain ⟨subnet, hsubnet, host, hhost, rfl⟩ := h
  have hle := prefixLen_of_mem_privateBlocks hblock
  obtain ⟨hsize, hzero, -⟩ := network_of_le hle
  obtain ⟨-, hend, hcontains⟩ := (mem_subnets hle).mp hsubnet
  have hlt := host_lt hhost
  rw [contains_iff, hsize] at hcontains ⊢
  rw [toNat_hostIn subnet hlt, network_of_mem_subnets hblock hsubnet]
  omega

theorem mem_sampleOf {remaining : Nat} (h : subnet ∈ sampleOf remaining block) : subnet ∈ block.subnets 24 :=
  mem_of_mem_stepBy h

/-- The addresses an answer adds are gateways of the block it comes from. -/
theorem mem_expandAround {address a : Ipv4Addr} (h : a ∈ expandAround address) :
    ∃ block ∈ privateBlocks, block.contains address = true ∧ IsGateway block a := by
  unfold expandAround at h
  cases hblock : enclosingPrivateBlock address with
  | none =>
    rw [hblock] at h
    cases h
  | some block =>
    rw [hblock] at h
    obtain ⟨hprivate, hcontains⟩ := enclosingPrivateBlock_eq_some hblock
    obtain ⟨subnet, hsubnet, ha⟩ := List.mem_flatMap.mp h
    obtain ⟨host, hhost, rfl⟩ := List.mem_map.mp (List.mem_of_mem_filter ha)
    exact ⟨block, hprivate, hcontains, subnet, mem_neighbourhoods hprivate hsubnet, host, hhost, rfl⟩

end Subnets

end Idnx
