import DataRecovery.ChainBounds
import DataRecovery.ExFAT.DepthLimit

/-!
# exFAT sector numbers

`clusterToSector` computes in 32 bits on a volume whose length has 64, so the sectors of
a large heap are numbered again from 0. `scanDirectory` compares its sectors, numbered
from the start of the volume, with the size of the heap.
-/

namespace DataRecovery.ExFAT

namespace Volume
variable (v : Volume)

def HeapFits : Prop :=
  v.bootSector.clusterHeapOffset.toNat + v.bootSector.clusterCount.toNat * v.sectorsPerCluster.toNat ≤
    v.bootSector.volumeLength.toNat

def lastAccepted : Nat := min v.bootSector.clusterCount.toNat (BAD_CLUSTER.toNat - 1)

def firstSector (c : Nat) : Nat := v.bootSector.clusterHeapOffset.toNat + (c - 2) * v.sectorsPerCluster.toNat

structure ExactSectors : Prop where
  number : ∀ c, v.isValidCluster c = true → (v.clusterToSector c).toNat = v.firstSector c.toNat
  used : ∀ c, v.isValidCluster c = true →
    (v.sectorsOf c).map UInt64.toNat = (List.range v.sectorsPerCluster.toNat).map fun i => v.firstSector c.toNat + i
  disjoint : ∀ c d, v.isValidCluster c = true → v.isValidCluster d = true → c ≠ d →
    (v.sectorsOf c).Disjoint (v.sectorsOf d)

variable {v} {c d : UInt32}

theorem isValidCluster_iff_le : v.isValidCluster c = true ↔ 2 ≤ c.toNat ∧ c.toNat ≤ v.lastAccepted := by
  have hbad : BAD_CLUSTER.toNat = 0xFFFFFFF7 := rfl
  rw [v.isValidCluster_iff, UInt32.le_iff_toNat_le, UInt32.le_iff_toNat_le, UInt32.lt_iff_toNat_lt]
  have htwo : (2 : UInt32).toNat = 2 := rfl
  unfold lastAccepted
  omega

theorem exists_lastAccepted (h : 2 ≤ v.lastAccepted) : ∃ c, v.isValidCluster c = true ∧ c.toNat = v.lastAccepted := by
  have hcount := v.bootSector.clusterCount.toNat_lt
  have hlast : v.lastAccepted < 2 ^ 32 := Nat.lt_of_le_of_lt (Nat.min_le_left ..) hcount
  have hc : (UInt32.ofNat v.lastAccepted).toNat = v.lastAccepted := UInt32.toNat_ofNat_of_lt' hlast
  exact ⟨_, isValidCluster_iff_le.mpr (by rw [hc]; exact ⟨h, Nat.le_refl _⟩), hc⟩

theorem firstSector_mono {a b : Nat} (h : a ≤ b) : v.firstSector a ≤ v.firstSector b :=
  Nat.add_le_add_left (Nat.mul_le_mul_right _ (Nat.sub_le_sub_right h 2)) _

theorem firstSector_succ {a : Nat} (h : 2 ≤ a) :
    v.firstSector (a + 1) = v.firstSector a + v.sectorsPerCluster.toNat := by
  have hsub : a + 1 - 2 = a - 2 + 1 := by omega
  unfold firstSector
  rw [hsub, Nat.succ_mul, Nat.add_assoc]

theorem clusterToSector_mod (h : v.isValidCluster c = true) :
    (v.clusterToSector c).toNat = v.firstSector c.toNat % 2 ^ 32 :=
  v.heap.sectorOf_toNat (v.isValidCluster_iff.mp h).1

theorem clusterToSector_eq_iff (h : v.isValidCluster c = true) :
    (v.clusterToSector c).toNat = v.firstSector c.toNat ↔ v.firstSector c.toNat < 2 ^ 32 := by
  rw [clusterToSector_mod h]
  exact Nat.mod_eq_iff_lt (by decide)

theorem sector_toNat (base : UInt32) {i : Nat} (hi : i < v.sectorsPerCluster.toNat) :
    (base.toUInt64 + UInt64.ofNat i).toNat = base.toNat + i := by
  have hbase := base.toNat_lt
  have hspc := v.sectorsPerCluster.toNat_lt
  rw [UInt64.toNat_add, UInt32.toNat_toUInt64, UInt64.toNat_ofNat_of_lt' (show i < 2 ^ 64 by omega)]
  omega

theorem sectorsOf_toNat (c : UInt32) : (v.sectorsOf c).map UInt64.toNat =
    (List.range v.sectorsPerCluster.toNat).map fun i => (v.clusterToSector c).toNat + i := by
  unfold sectorsOf
  rw [List.map_map]
  exact List.map_congr_left fun i hi => sector_toNat _ (List.mem_range.mp hi)

theorem mem_sectorsOf {sector : UInt64} (h : sector ∈ v.sectorsOf c) :
    ∃ i < v.sectorsPerCluster.toNat, sector.toNat = (v.clusterToSector c).toNat + i := by
  have hmem : sector.toNat ∈ (v.sectorsOf c).map UInt64.toNat := List.mem_map_of_mem h
  rw [sectorsOf_toNat] at hmem
  obtain ⟨i, hi, heq⟩ := List.mem_map.mp hmem
  exact ⟨i, List.mem_range.mp hi, heq.symm⟩

theorem sectors_apart {a b i j : Nat} (h2 : 2 ≤ a) (hab : a < b) (hi : i < v.sectorsPerCluster.toNat) :
    v.firstSector a + i ≠ v.firstSector b + j := by
  have hstep : v.firstSector (a + 1) ≤ v.firstSector b := firstSector_mono hab
  rw [firstSector_succ h2] at hstep
  omega

theorem exactSectors_of_lt (h : v.lastAccepted < 2 ∨ v.firstSector v.lastAccepted < 2 ^ 32) : v.ExactSectors := by
  have hnumber : ∀ c, v.isValidCluster c = true → (v.clusterToSector c).toNat = v.firstSector c.toNat := by
    intro c hc
    obtain ⟨htwo, hle⟩ := isValidCluster_iff_le.mp hc
    have hlast := h.resolve_left (by omega)
    exact (clusterToSector_eq_iff hc).mpr (Nat.lt_of_le_of_lt (firstSector_mono hle) hlast)
  refine ⟨hnumber, fun c hc => ?_, fun c d hc hd hne sector hsc hsd => ?_⟩
  · rw [sectorsOf_toNat, hnumber c hc]
  · obtain ⟨i, hi, hci⟩ := mem_sectorsOf hsc
    obtain ⟨j, hj, hdj⟩ := mem_sectorsOf hsd
    rw [hnumber c hc] at hci
    rw [hnumber d hd] at hdj
    have hsame := hci.symm.trans hdj
    rcases Nat.lt_or_gt_of_ne (fun h => hne (UInt32.toNat_inj.mp h)) with hlt | hgt
    · exact sectors_apart (isValidCluster_iff_le.mp hc).1 hlt hi hsame
    · exact sectors_apart (isValidCluster_iff_le.mp hd).1 hgt hj hsame.symm

/-- The sector numbers are right as long as the last accepted cluster begins below sector `2 ^ 32`. -/
theorem exactSectors_iff (v : Volume) : v.ExactSectors ↔ v.lastAccepted < 2 ∨ v.firstSector v.lastAccepted < 2 ^ 32 := by
  constructor
  · intro h
    by_cases htwo : v.lastAccepted < 2
    · exact .inl htwo
    · obtain ⟨c, hc, hlast⟩ := exists_lastAccepted (Nat.le_of_not_lt htwo)
      rw [← hlast]
      exact .inr ((clusterToSector_eq_iff hc).mp (h.number c hc))
  · exact exactSectors_of_lt

end Volume

/-- Clusters of 65536 sectors; the heap ends after sector `2 ^ 32`. -/
def largeVolume : Volume where
  device := .ofSectors [] 512
  bootSector :=
    { smallBoot with
      volumeLength := 0x111710000, clusterHeapOffset := 0x10000, clusterCount := 70000, sectorsPerClusterShift := 16 }
  pastEnd := fun _ => 0
  bytesPerSectorShift_lt := by decide
  sectorsPerClusterShift_lt := by decide

/-- The heap fits the volume, and clusters 2 and 65538 both begin at sector 65536. -/
theorem sectors_wrap : ¬ ∀ v : Volume, v.HeapFits → v.ExactSectors := by
  intro h
  have hfits : largeVolume.HeapFits := by unfold Volume.HeapFits; decide +kernel
  have hdisjoint := (h largeVolume hfits).disjoint 2 65538 (by decide +kernel) (by decide +kernel) (by decide)
  have hsector : ∀ c, largeVolume.clusterToSector c = 65536 → (65536 : UInt64) ∈ largeVolume.sectorsOf c := by
    intro c hc
    unfold Volume.sectorsOf
    rw [hc]
    exact List.mem_map.mpr ⟨0, List.mem_range.mpr (by decide +kernel), by decide⟩
  exact hdisjoint (hsector 2 (by decide +kernel)) (hsector 65538 (by decide +kernel))

/-! ## The bounds test of the scan -/

section
variable (v : Volume) (config : Config)

def processReads (scan : UInt32 → UInt32 → ScanState → Option ScanState) : List UInt64 → ScanState → Option ScanState
  | [], st => some st
  | sector :: rest, st =>
    match v.readSector sector with
    | some sectorBuffer =>
      (processEntriesInSector v config scan v.entriesPerSector sectorBuffer st).bind (processReads scan rest)
    | none => processReads scan rest st

/-- The test only takes sectors out. -/
theorem processSectors_filter (scan : UInt32 → UInt32 → ScanState → Option ScanState) :
    ∀ (sectors : List UInt64) (st : ScanState), processSectors v config scan sectors st =
      processReads v config scan (sectors.filter fun sector => !(v.maxSectorCount ≤ sector)) st
  | [], _ => rfl
  | sector :: rest, st => by
    have ih := processSectors_filter scan rest
    unfold processSectors
    by_cases hskip : v.maxSectorCount ≤ sector
    · rw [if_pos hskip, List.filter_cons_of_neg (by simpa using hskip)]
      exact ih st
    · rw [if_neg hskip, List.filter_cons_of_pos (by simpa using hskip)]
      unfold processReads
      cases v.readSector sector with
      | none => exact ih st
      | some sectorBuffer =>
        dsimp only
        rw [funext ih]

end

namespace Volume

structure SkipsNone (v : Volume) : Prop where
  passes : ∀ c, v.isValidCluster c = true → ∀ sector ∈ v.sectorsOf c, ¬ v.maxSectorCount ≤ sector
  reads : ∀ c, v.isValidCluster c = true → ∀ config scan st,
    processSectors v config scan (v.sectorsOf c) st = processReads v config scan (v.sectorsOf c) st

theorem maxSectorCount_toNat (v : Volume) :
    v.maxSectorCount.toNat = v.bootSector.clusterCount.toNat * v.sectorsPerCluster.toNat := by
  have hprod : v.bootSector.clusterCount.toNat * v.sectorsPerCluster.toNat < 2 ^ 64 :=
    Nat.lt_of_lt_of_le (Nat.mul_lt_mul'' v.bootSector.clusterCount.toNat_lt v.sectorsPerCluster.toNat_lt) (by decide)
  unfold maxSectorCount
  rw [UInt64.toNat_mul, UInt32.toNat_toUInt64, UInt32.toNat_toUInt64, Nat.mod_eq_of_lt hprod]

/-- Up to `2 ^ 32` sectors nothing is skipped exactly when the last accepted cluster ends within as many
sectors from the start of the volume as the heap has. -/
theorem skipsNone_iff (v : Volume) (hheap : v.HeapFits) (hlength : v.bootSector.volumeLength.toNat < 2 ^ 32) :
    v.SkipsNone ↔ v.lastAccepted < 2 ∨
      v.firstSector (v.lastAccepted + 1) ≤ v.bootSector.clusterCount.toNat * v.sectorsPerCluster.toNat := by
  have hspc : 0 < v.sectorsPerCluster.toNat := UInt32.lt_iff_toNat_lt.mp v.sectorsPerCluster_pos
  have hlast : v.firstSector v.lastAccepted < 2 ^ 32 := by
    have hmul : (v.lastAccepted - 2) * v.sectorsPerCluster.toNat ≤
        v.bootSector.clusterCount.toNat * v.sectorsPerCluster.toNat :=
      Nat.mul_le_mul_right _ (Nat.le_trans (Nat.sub_le ..) (Nat.min_le_left ..))
    unfold HeapFits at hheap
    unfold firstSector
    omega
  have hexact := exactSectors_of_lt (.inr hlast)
  have hpasses : (∀ c, v.isValidCluster c = true → ∀ sector ∈ v.sectorsOf c, ¬ v.maxSectorCount ≤ sector) →
      v.SkipsNone := by
    refine fun hall => ⟨hall, fun c hc config scan st => ?_⟩
    rw [processSectors_filter, List.filter_eq_self.mpr fun sector hs => by simpa using hall c hc sector hs]
  constructor
  · intro h
    by_cases htwo : v.lastAccepted < 2
    · exact .inl htwo
    · obtain ⟨c, hc, hcl⟩ := exists_lastAccepted (Nat.le_of_not_lt htwo)
      have hmem : v.firstSector c.toNat + (v.sectorsPerCluster.toNat - 1) ∈ (v.sectorsOf c).map UInt64.toNat := by
        rw [hexact.used c hc]
        exact List.mem_map.mpr ⟨_, List.mem_range.mpr (Nat.sub_lt hspc Nat.one_pos), rfl⟩
      obtain ⟨sector, hsector, heq⟩ := List.mem_map.mp hmem
      have hpass := h.passes c hc sector hsector
      rw [UInt64.le_iff_toNat_le, v.maxSectorCount_toNat, heq, hcl] at hpass
      rw [firstSector_succ (Nat.le_of_not_lt htwo)]
      exact .inr (by omega)
  · intro h
    refine hpasses fun c hc sector hsector => ?_
    obtain ⟨htwo, hle⟩ := isValidCluster_iff_le.mp hc
    have hend := h.resolve_left (by omega)
    obtain ⟨i, hi, heq⟩ := mem_sectorsOf hsector
    have hnext : v.firstSector (c.toNat + 1) ≤ v.firstSector (v.lastAccepted + 1) := firstSector_mono (Nat.succ_le_succ hle)
    rw [hexact.number c hc] at heq
    rw [firstSector_succ htwo] at hnext
    rw [UInt64.le_iff_toNat_le, v.maxSectorCount_toNat, heq]
    omega

theorem skipsNone_small : (smallVolume []).SkipsNone ↔ (smallVolume []).lastAccepted < 2 ∨
    (smallVolume []).firstSector ((smallVolume []).lastAccepted + 1) ≤ (16 : UInt32).toNat * (1 : UInt32).toNat :=
  skipsNone_iff (smallVolume []) (by unfold HeapFits; decide) (by decide)

end Volume

/-- Of a heap of 16 clusters that begins at sector 4, the scan passes over the sectors from 16 on. -/
theorem heap_end_skipped :
    ¬ ∀ v : Volume, v.HeapFits → v.bootSector.volumeLength.toNat < 2 ^ 32 → v.SkipsNone := by
  intro h
  have hskips := h (smallVolume []) (by unfold Volume.HeapFits; decide) (by decide)
  have hpass := hskips.passes 14 (by decide) 16 (by decide)
  exact absurd hpass (by decide)

end DataRecovery.ExFAT
