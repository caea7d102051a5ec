import Idnx.Probes.DhcpInform
import Idnx.Probes.RipRoutes

/-!
# One rule for masks

A mask is read as a prefix length in three places: by its leading ones and trailing zeros (`contiguousPrefixLen`), by
shifting the leading ones out (`contiguousPrefixLength`, of a RIP entry), and for the network of a DHCP disclosure. They
read the same masks, each as the number of its ones (`masks_agree`).
-/

namespace Idnx

theorem contiguousPrefixLen_iff_ones {mask : Ipv4Addr} {n : Nat} :
    contiguousPrefixLen mask = some n ↔ OnesThenZeros mask n := by
  rw [contiguousPrefixLen_iff, onesThenZeros_netmask]

/-- The network of a disclosure is as long as its mask. -/
theorem attachedPrefix_length (disclosure : DhcpDisclosure) (address mask : Ipv4Addr) :
    (({ disclosure with subnetMask := some mask } : DhcpDisclosure).attachedPrefix address).map (·.prefixLen.val) =
      contiguousPrefixLen mask := by
  unfold DhcpDisclosure.attachedPrefix contiguousPrefixLen
  by_cases hmask : leadingOnes mask + trailingZeros mask = 32
  · have hle : leadingOnes mask ≤ 32 := leadingOnes_le
    rw [if_pos hmask]
    show Option.map _ (if leadingOnes mask + trailingZeros mask ≠ 32 then none else _) = _
    rw [if_neg (not_not.mpr hmask), Ipv4Net.new_of_lt _ (show leadingOnes mask < 33 by omega), Option.map_some,
      Option.map_some]
    exact congrArg some (Nat.mod_eq_of_lt (show leadingOnes mask < 33 by omega))
  · rw [if_neg hmask]
    show Option.map _ (if leadingOnes mask + trailingZeros mask ≠ 32 then none else _) = _
    rw [if_pos hmask]
    rfl

/-- **The conversions agree**: each gives a length for the masks that are that many ones followed by zeros, and for no
other. -/
theorem masks_agree (mask : Ipv4Addr) (mask6 : Ipv6Addr) :
    (∀ n, contiguousPrefixLength mask = some n ↔ OnesThenZeros mask n) ∧
      (∀ n, contiguousPrefixLen mask = some n ↔ OnesThenZeros mask n) ∧
      (∀ (disclosure : DhcpDisclosure) (address : Ipv4Addr) (n : Nat),
        (({ disclosure with subnetMask := some mask } : DhcpDisclosure).attachedPrefix address).map
          (·.prefixLen.val) = some n ↔ OnesThenZeros mask n) ∧
      contiguousPrefixLength mask = contiguousPrefixLen mask ∧
      ∀ n, contiguousPrefixLenV6 mask6 = some n ↔ OnesThenZeros mask6 n := by
  refine ⟨fun n => contiguousPrefixLength_iff, fun n => contiguousPrefixLen_iff_ones,
    fun disclosure address n => ?_, ?_, fun n => contiguousPrefixLenV6_iff⟩
  · rw [attachedPrefix_length, contiguousPrefixLen_iff_ones]
  · ext n
    rw [contiguousPrefixLength_iff, contiguousPrefixLen_iff_ones]

end Idnx
