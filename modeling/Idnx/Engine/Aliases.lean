import Idnx.Engine.Coverage
import Idnx.Lib.Stable
import Idnx.Topology.Fresh

/-!
# Following a merge

What `applyAliases` owes the list of records and the set of interrogated devices (`Follows`), and when it pays:
records are sorted by the text of their device and a repeated device is dropped where it stands next to itself, so a
device is left with two records when one of another device with the same text comes to stand between them
(`Interposed`).
-/

namespace Idnx

/-- The interrogation state after the identities of `aliases` were merged. -/
structure Follows (aliases : List (DeviceKey × DeviceKey)) (interrogated : Finset DeviceKey)
    (coverage : List DeviceCoverage) (after : Finset DeviceKey × List DeviceCoverage) : Prop where
  settled : ∀ pair ∈ aliases, pair.1 ∉ after.1 ∧ ∀ record ∈ after.2, record.device ≠ pair.1
  once : ∀ r ∈ coverage, after.2.countP (fun record => record.device = rename aliases r.device) = 1
  best : ∀ record ∈ after.2, (∃ r ∈ coverage, record = { r with device := rename aliases r.device }) ∧
    ∀ r ∈ coverage, rename aliases r.device = record.device → r.tcpAttempted ≤ record.tcpAttempted
  asked : ∀ key, key ∈ after.1 ↔ ∃ k ∈ interrogated, rename aliases k = key

/-- Of two records whose devices are written alike, the one that is sorted first: it attempted more, or as much and
stands before the other in the list. -/
def Outranks (x y : DeviceCoverage × Nat) : Prop :=
  y.1.tcpAttempted < x.1.tcpAttempted ∨ y.1.tcpAttempted = x.1.tcpAttempted ∧ x.2 < y.2

/-- Between two records of one device, in the order they are sorted in, there is one of another device that is written
alike. -/
def Interposed (name : DeviceKey → DeviceKey) (coverage : List DeviceCoverage) : Prop :=
  ∃ x y z : DeviceCoverage × Nat,
    coverage[x.2]? = some x.1 ∧ coverage[y.2]? = some y.1 ∧ coverage[z.2]? = some z.1 ∧
    name x.1.device = name z.1.device ∧ name y.1.device ≠ name x.1.device ∧
    describeKey (name y.1.device) = describeKey (name x.1.device) ∧ Outranks x y ∧ Outranks y z

/-! ## The sorted records -/

theorem coverageLE_iff_of_text {a b : DeviceCoverage} (h : describeKey a.device = describeKey b.device) :
    coverageLE a b = true ↔ b.tcpAttempted ≤ a.tcpAttempted := by
  have htext : compare (describeKey a.device) (describeKey b.device) = .eq := by
    rw [h]
    exact Std.ReflCmp.compare_self
  unfold coverageLE
  rw [htext]
  exact Nat.isLE_compare

theorem Outranks.trans {x y z : DeviceCoverage × Nat} (hxy : Outranks x y) (hyz : Outranks y z) : Outranks x z := by
  unfold Outranks at *
  omega

/-- What stands between two records that are written alike is written like them. -/
theorem describeKey_between {a b c : DeviceCoverage} (hab : coverageLE a b = true) (hbc : coverageLE b c = true)
    (hac : a.device = c.device) : describeKey b.device = describeKey a.device := by
  have hle := describeKey_le_of_coverageLE hab
  have hge := describeKey_le_of_coverageLE hbc
  rw [← hac] at hge
  exact Std.LawfulEqOrd.eq_of_compare (Std.OrientedCmp.isLE_antisymm hge hle)

section Renamed

variable (name : DeviceKey → DeviceKey)

/-- A record under the new name of its device. -/
def DeviceCoverage.renamed (r : DeviceCoverage) : DeviceCoverage := { r with device := name r.device }

variable {name} {coverage : List DeviceCoverage}

/-- Records that are written alike are sorted by what they attempted. -/
theorem goesBefore_iff_outranks {x y : DeviceCoverage × Nat}
    (h : describeKey (name x.1.device) = describeKey (name y.1.device)) :
    GoesBefore (fun a b => coverageLE a b = true) (x.1.renamed name, x.2) (y.1.renamed name, y.2) ↔ Outranks x y := by
  unfold GoesBefore Outranks
  dsimp only
  rw [coverageLE_iff_of_text h, coverageLE_iff_of_text h.symm]
  show y.1.tcpAttempted ≤ x.1.tcpAttempted ∧ (x.1.tcpAttempted ≤ y.1.tcpAttempted → x.2 < y.2) ↔ _
  omega

/-- A device comes back in the sorted list exactly when another is interposed. -/
theorem comesBack_sorted_iff :
    ComesBack DeviceCoverage.device
        ((coverage.map (·.renamed name)).insertionSort fun a b => coverageLE a b = true) ↔
      Interposed name coverage := by
  constructor
  · rintro ⟨a, b, c, hsub, hac, hba⟩
    obtain ⟨ps, hps, hmem, hordered⟩ := sublist_insertionSort_iff.mp hsub
    obtain ⟨⟨x, i⟩, ⟨y, j⟩, ⟨z, k⟩, rfl⟩ : ∃ x y z, ps = [x, y, z] := by
      rw [← List.length_eq_three, ← List.length_map Prod.fst, hps]
      rfl
    simp only [List.map_cons, List.map_nil, List.cons.injEq, and_true] at hps
    obtain ⟨rfl, rfl, rfl⟩ := hps
    simp only [List.mem_cons, List.not_mem_nil, or_false, forall_eq_or_imp, forall_eq, List.getElem?_map,
      Option.map_eq_some_iff] at hmem
    obtain ⟨⟨r, hr, rfl⟩, ⟨s, hs, rfl⟩, ⟨t, ht, rfl⟩⟩ := hmem
    simp only [List.pairwise_cons, List.mem_cons, List.not_mem_nil, or_false, forall_eq_or_imp, forall_eq] at hordered
    obtain ⟨⟨hxy, -⟩, hyz, -⟩ := hordered
    have htext : describeKey (name s.device) = describeKey (name r.device) := describeKey_between hxy.1 hyz.1 hac
    have htext' : describeKey (name s.device) = describeKey (name t.device) := htext.trans (congrArg describeKey hac)
    have hrs : Outranks (r, i) (s, j) := (goesBefore_iff_outranks htext.symm).mp hxy
    have hst : Outranks (s, j) (t, k) := (goesBefore_iff_outranks htext').mp hyz
    exact ⟨(r, i), (s, j), (t, k), hr, hs, ht, hac, hba, htext, hrs, hst⟩
  · rintro ⟨x, y, z, hx, hy, hz, hxz, hyx, htext, hxy, hyz⟩
    refine ⟨x.1.renamed name, y.1.renamed name, z.1.renamed name, ?_, hxz, hyx⟩
    refine sublist_insertionSort_iff.mpr
      ⟨[(x.1.renamed name, x.2), (y.1.renamed name, y.2), (z.1.renamed name, z.2)], rfl, ?_, ?_⟩
    · simp [hx, hy, hz]
    · have htext' : describeKey (name y.1.device) = describeKey (name z.1.device) := by rw [htext, hxz]
      simp only [List.pairwise_cons, List.mem_cons, List.not_mem_nil, or_false, forall_eq_or_imp, forall_eq,
        false_implies, implies_true, List.Pairwise.nil, and_true]
      refine ⟨⟨(goesBefore_iff_outranks htext.symm).mpr hxy, ?_⟩, (goesBefore_iff_outranks htext').mpr hyz⟩
      exact (goesBefore_iff_outranks (congrArg describeKey hxz)).mpr (hxy.trans hyz)

end Renamed

/-! ## What is kept -/

section Kept

variable (g : TopologyGraph) (interrogated : Finset DeviceKey) (coverage : List DeviceCoverage)

/-- The records that are left: sorted under their new names, and of a device that stands next to itself the first. -/
theorem applyAliases_eq :
    applyAliases g.merges interrogated coverage =
      (interrogated.image (rename g.merges),
        (((coverage.map (·.renamed (rename g.merges))).insertionSort fun a b => coverageLE a b = true).destutter
          fun a b => a.device ≠ b.device)) := by
  unfold applyAliases
  rw [foldl_followAlias g.merges_flat]
  rfl

variable {g interrogated coverage}

/-- Every record has come from one of the list. -/
theorem mem_applyAliases {record : DeviceCoverage} (h : record ∈ (applyAliases g.merges interrogated coverage).2) :
    ∃ r ∈ coverage, record = r.renamed (rename g.merges) := by
  rw [applyAliases_eq] at h
  have hmem := (List.destutter_sublist _ _).subset h
  rw [List.mem_insertionSort, List.mem_map] at hmem
  obtain ⟨r, hr, rfl⟩ := hmem
  exact ⟨r, hr, rfl⟩

/-- A record of the list has one of its device kept that attempted as much or more. -/
theorem exists_kept {r : DeviceCoverage} (hr : r ∈ coverage) :
    ∃ record ∈ (applyAliases g.merges interrogated coverage).2,
      record.device = rename g.merges r.device ∧ r.tcpAttempted ≤ record.tcpAttempted := by
  rw [applyAliases_eq]
  have hmem : r.renamed (rename g.merges) ∈
      (coverage.map (·.renamed (rename g.merges))).insertionSort fun a b => coverageLE a b = true :=
    (List.mem_insertionSort _).mpr (List.mem_map_of_mem hr)
  obtain ⟨record, hrecord, hdevice, hbefore⟩ := exists_mem_destutter_before DeviceCoverage.device hmem
  refine ⟨record, hrecord, hdevice, ?_⟩
  rcases hbefore with rfl | hbefore
  · exact Nat.le_refl _
  · have hsorted := (List.pairwise_insertionSort (fun a b => coverageLE a b = true) _).sublist hbefore
    have hle : coverageLE record (r.renamed (rename g.merges)) = true := by simpa using hsorted
    exact (coverageLE_iff_of_text (congrArg describeKey hdevice)).mp hle

/-- A device that was merged into another is not a new name. -/
theorem rename_merges_ne {pair : DeviceKey × DeviceKey} (hpair : pair ∈ g.merges) (k : DeviceKey) :
    rename g.merges k ≠ pair.1 := by
  intro h
  by_cases hk : ∃ a ∈ g.merges, a.1 = k
  · exact g.merges_flat _ (rename_of_mem hk) pair hpair h.symm
  · have hsame := rename_of_not_mem fun a ha hak => hk ⟨a, ha, hak⟩
    exact hk ⟨pair, hpair, h.symm.trans hsame⟩

/-- Devices are left with one record each exactly when none is interposed. -/
theorem nodup_applyAliases_iff :
    ((applyAliases g.merges interrogated coverage).2.map DeviceCoverage.device).Nodup ↔
      ¬ Interposed (rename g.merges) coverage := by
  rw [applyAliases_eq, ← comesBack_sorted_iff]
  exact nodup_destutter_iff DeviceCoverage.device _

end Kept

theorem countP_device (records : List DeviceCoverage) (key : DeviceKey) :
    records.countP (fun record => record.device = key) = (records.map DeviceCoverage.device).count key := by
  rw [List.count, List.countP_map]
  rfl

/-- **When a merge is followed without loss**: exactly when between two records of one device, as they are sorted,
there is none of another device that is written alike. -/
theorem applyAliases_follows_iff (g : TopologyGraph) (interrogated : Finset DeviceKey)
    (coverage : List DeviceCoverage) :
    Follows g.mergeAddressIdentities.2 interrogated coverage
        (applyAliases g.mergeAddressIdentities.2 interrogated coverage) ↔
      ¬ Interposed (rename g.mergeAddressIdentities.2) coverage := by
  have haliases : g.mergeAddressIdentities.2 = g.merges := by rw [TopologyGraph.mergeAddressIdentities_eq]
  rw [haliases, ← @nodup_applyAliases_iff g interrogated]
  constructor
  · intro h
    rw [List.nodup_iff_count_le_one]
    intro key
    by_cases hkey : key ∈ (applyAliases g.merges interrogated coverage).2.map DeviceCoverage.device
    · obtain ⟨record, hrecord, rfl⟩ := List.mem_map.mp hkey
      obtain ⟨r, hr, rfl⟩ := mem_applyAliases hrecord
      have hone := h.once r hr
      rw [countP_device] at hone
      exact hone.le
    · rw [List.count_eq_zero.mpr hkey]
      exact Nat.zero_le 1
  · intro hnodup
    constructor
    · intro pair hpair
      refine ⟨?_, fun record hrecord => ?_⟩
      · rw [applyAliases_eq, Finset.mem_image]
        rintro ⟨k, -, hk⟩
        exact rename_merges_ne hpair k hk
      · obtain ⟨r, -, rfl⟩ := mem_applyAliases hrecord
        exact rename_merges_ne hpair r.device
    · intro r hr
      obtain ⟨record, hrecord, hdevice, -⟩ := @exists_kept g interrogated coverage r hr
      rw [countP_device, ← hdevice]
      exact List.count_eq_one_of_mem hnodup (List.mem_map_of_mem hrecord)
    · intro record hrecord
      refine ⟨mem_applyAliases hrecord, fun r hr hdevice => ?_⟩
      obtain ⟨kept, hkept, hkdevice, hle⟩ := @exists_kept g interrogated coverage r hr
      have hsame : kept = record :=
        List.inj_on_of_nodup_map hnodup hkept hrecord (hkdevice.trans hdevice)
      rwa [← hsame]
    · intro key
      rw [applyAliases_eq, Finset.mem_image]

/-- A record of a device that was tried on so many ports. -/
def triedPorts (device : DeviceKey) (ports : Nat) : DeviceCoverage where
  device := device
  addresses := []
  tier := .host
  discoverySources := []
  endpoints := [⟨describeKey device, true, ports⟩]
  protocolsConfirmed := []
  adapterOutcomes := []
  skipped := none

/-- An address is merged into a device whose hardware identity reads like another address: the record of that one
stands between the two of the device, and both are kept. -/
theorem two_records_after_merge :
    ¬∀ (ops : List GraphOp) (interrogated : Finset DeviceKey) (coverage : List DeviceCoverage),
      Follows (build ops).mergeAddressIdentities.2 interrogated coverage
        (applyAliases (build ops).mergeAddressIdentities.2 interrogated coverage) := by
  intro h
  let odd : DeviceKey := .ofMac "10.0.0.1"
  let seen : TopologyEvidence :=
    { fact := .deviceHostname (.address (ip 192 0 2 7)) "printer", source := .mdns, confidence := .advertised,
      vantage := "eth0" }
  let ops : List GraphOp := [.absorb seen, .absorb (sighting odd (ip 192 0 2 7) .arpProbe none)]
  let coverage := [triedPorts odd 5, triedPorts (.address (ip 10 0 0 1)) 4, triedPorts (.address (ip 192 0 2 7)) 3]
  have hone := (h ops ∅ coverage).once (triedPorts odd 5) List.mem_cons_self
  revert hone
  decide

end Idnx
