import DataRecovery.NTFS.Fragments

/-!
# Chains and the end of the volume

The decoding of a run list compares the first cluster of a run with the size of the
volume, not its last one. The chain of a listed file lies inside the volume exactly
when the last run, which is the one recovered, ends there.
-/

namespace DataRecovery.NTFS

/-- Recovering the item takes clusters of the volume only, and what the sectors behind its
end hold makes no difference. -/
structure ReadsInside (drive : DriveInfo) (info : FileInfo) : Prop where
  clusters : ∀ c ∈ validateClusterChain info, c < drive.lastCluster
  length : (validateClusterChain info).length ≤ drive.lastCluster.toNat
  reads : ∀ device device' : Device,
    (∀ sector < drive.bootSector.totalSectors, Volume.readSector ⟨device, drive⟩ sector =
      Volume.readSector ⟨device', drive⟩ sector) →
    ∀ (host : Host) (status : RecoveryStatus) (outputPath : Path) (expectedSize : UInt64) (st : RunState host),
      recoverNonResidentFile ⟨device, drive⟩ (validateClusterChain info) status outputPath expectedSize st =
        recoverNonResidentFile ⟨device', drive⟩ (validateClusterChain info) status outputPath expectedSize st

section
variable {drive : DriveInfo}

theorem sectorsOf_inside {device : Device} {c : UInt64} (hc : c < drive.lastCluster) :
    ∀ sector ∈ Volume.sectorsOf ⟨device, drive⟩ c, sector < drive.bootSector.totalSectors := by
  intro sector hsector
  obtain ⟨i, hi, rfl⟩ := List.mem_map.mp hsector
  have hlt : i < drive.bootSector.sectorsPerCluster.toNat := List.mem_range.mp hi
  have htotal := drive.bootSector.totalSectors.toNat_lt
  have hlast : drive.lastCluster.toNat * drive.bootSector.sectorsPerCluster.toNat ≤
      drive.bootSector.totalSectors.toNat := by
    unfold DriveInfo.lastCluster
    rw [UInt64.toNat_div, UInt8.toNat_toUInt64]
    exact Nat.div_mul_le_self ..
  have hend : (c.toNat + 1) * drive.bootSector.sectorsPerCluster.toNat ≤ drive.bootSector.totalSectors.toNat :=
    Nat.le_trans (Nat.mul_le_mul_right _ (UInt64.lt_iff_toNat_lt.mp hc)) hlast
  rw [Nat.add_mul, Nat.one_mul] at hend
  have hstart : (Volume.clusterToSector ⟨device, drive⟩ c).toNat =
      c.toNat * drive.bootSector.sectorsPerCluster.toNat := by
    show (c * drive.bootSector.sectorsPerCluster.toUInt64).toNat = _
    rw [UInt64.toNat_mul, UInt8.toNat_toUInt64, Nat.mod_eq_of_lt (by omega)]
  rw [UInt64.lt_iff_toNat_lt, UInt64.toNat_add, hstart, UInt64.toNat_ofNat_of_lt' (show i < 2 ^ 64 by omega),
    Nat.mod_eq_of_lt (by omega)]
  omega

theorem chain_eq (info : FileInfo) :
    validateClusterChain info = (List.range info.runLength.toNat).map fun k => UInt64.ofNat (info.cluster.toNat + k) :=
  validateClusterChain_eq UInt64.ofNat_toNat.symm

theorem run_inside {info : FileInfo} (hlength : info.runLength ≠ 0)
    (h : ∀ c ∈ validateClusterChain info, c < drive.lastCluster) :
    info.cluster.toNat + info.runLength.toNat ≤ drive.lastCluster.toNat := by
  have hlast := drive.lastCluster.toNat_lt
  have hpos : info.runLength.toNat ≠ 0 := fun h0 => hlength (UInt64.toNat_inj.mp h0)
  have hmem : ∀ k < info.runLength.toNat, UInt64.ofNat (info.cluster.toNat + k) < drive.lastCluster := by
    intro k hk
    apply h
    rw [chain_eq]
    exact List.mem_map.mpr ⟨k, List.mem_range.mpr hk, rfl⟩
  have hfirst := UInt64.lt_iff_toNat_lt.mp (hmem 0 (Nat.pos_of_ne_zero hpos))
  rw [Nat.add_zero, UInt64.ofNat_toNat] at hfirst
  by_contra hout
  -- the run would pass the cluster behind the last one
  have hnext := UInt64.lt_iff_toNat_lt.mp (hmem (drive.lastCluster.toNat - info.cluster.toNat) (by omega))
  rw [UInt64.toNat_ofNat_of_lt' (show _ < 2 ^ 64 by omega)] at hnext
  omega

theorem readsInside_of_run_inside {info : FileInfo}
    (h : info.cluster.toNat + info.runLength.toNat ≤ drive.lastCluster.toNat) : ReadsInside drive info := by
  have hlast := drive.lastCluster.toNat_lt
  have hclusters : ∀ c ∈ validateClusterChain info, c < drive.lastCluster := by
    intro c hc
    rw [chain_eq] at hc
    obtain ⟨k, hk, rfl⟩ := List.mem_map.mp hc
    have hlt := List.mem_range.mp hk
    rw [UInt64.lt_iff_toNat_lt, UInt64.toNat_ofNat_of_lt' (show _ < 2 ^ 64 by omega)]
    omega
  refine ⟨hclusters, ?_, fun device device' hagree host status outputPath expectedSize st => ?_⟩
  · rw [chain_eq, List.length_map, List.length_range]
    omega
  · have hcopy := @copyChain_congr (Volume.readSector ⟨device, drive⟩) (Volume.readSector ⟨device', drive⟩)
      drive.bootSector.bytesPerSector.toUInt64 expectedSize UInt64 (Volume.sectorsOf ⟨device, drive⟩)
      (validateClusterChain info)
      { recoveredBytes := status.recoveredBytes, recoveredClusters := status.recoveredClusters }
      fun c hc sector hsector => hagree sector (sectorsOf_inside (hclusters c hc) sector hsector)
    have hsectors : Volume.sectorsOf ⟨device', drive⟩ = Volume.sectorsOf ⟨device, drive⟩ := rfl
    unfold recoverNonResidentFile
    rw [hsectors]
    simp only [Volume.bytesPerSector, hcopy]

end

section
variable {drive : DriveInfo} {b : ByteMap} {attrs : List (UInt32 × Nat)} (h : DeletedRecord drive b attrs)
  {attributes : List Attribute} (hd : readAttributes drive b attrs = .ok attributes)
  {rounds : Nat} (hr : attrs.length < rounds) (st : ScanState)
include h hd hr

/-- The record's file, if it is listed with clusters, is recovered from inside the volume
if and only if the last run its attributes give ends there. -/
theorem recovery_inside_iff :
    ∃ st', processMftRecord drive b rounds st = .ok st' ∧
      ((∀ item, st'.recoveryList = st.recoveryList ++ [item] → item.nonResident = true → ReadsInside drive item) ↔
        (Listable attributes → lastOf Content.residency false (contents attributes) = true →
          (lastOf Content.lastRun (0, 0) (contents attributes)).1.toNat +
            (lastOf Content.lastRun (0, 0) (contents attributes)).2.toNat ≤ drive.lastCluster.toNat)) := by
  refine ⟨finishRecord (storeAll st.fileId attributes) st, ?_, ?_⟩
  · rw [processMftRecord_eq h hr, hd]
    rfl
  · have hcontent := storeAll_content st.fileId attributes
    simp only [FileInfo.content, Prod.mk.injEq] at hcontent
    obtain ⟨-, hflag, hrun, -⟩ := hcontent
    rw [finishRecord_storeAll, ← validate_storeAll st.fileId, ← hflag, ← hrun]
    by_cases hvalid : validateFileInfo (storeAll st.fileId attributes).fileInfo = true
    · simp only [hvalid, if_true, addToRecoveryList, List.append_cancel_left_eq, List.cons.injEq, and_true,
        forall_eq', true_imp_iff]
      refine imp_congr_right fun hnonres => ⟨fun hin => ?_, fun hin => readsInside_of_run_inside hin⟩
      have hstored := ((validateFileInfo_iff _).mp hvalid).2.2
      rw [if_pos hnonres] at hstored
      exact run_inside hstored.2 hin.clusters
    · simp [hvalid]

end

theorem oneRunFile_inside :
    ∃ st', processMftRecord smallDrive (ofBuffer (runsRecord 600 [⟨1, 2, 1, 3⟩])) 3 {} = .ok st' ∧
      ∀ item, st'.recoveryList = [] ++ [item] → item.nonResident = true → ReadsInside smallDrive item := by
  have hattributes := oneRunFile.readAttributes_eq (by decide +kernel) (by decide)
  rw [if_neg (by decide)] at hattributes
  obtain ⟨st', hst', hiff⟩ := recovery_inside_iff oneRunFile.record hattributes (show 2 < 3 by decide) {}
  exact ⟨st', hst', hiff.mpr fun _ _ => by decide +kernel⟩

/-- A run of a hundred clusters that starts in the fifth of a volume of sixteen. -/
theorem long_run_leaves :
    ¬ ∀ (drive : DriveInfo) (b : ByteMap) (attrs : List (UInt32 × Nat)) (attributes : List Attribute)
        (rounds : Nat) (st st' : ScanState) (item : FileInfo), drive.bootSector.sectorsPerCluster ≠ 0 →
      DeletedRecord drive b attrs → readAttributes drive b attrs = .ok attributes →
      processMftRecord drive b rounds st = .ok st' → st'.recoveryList = st.recoveryList ++ [item] →
      item.nonResident = true → ReadsInside drive item := by
  intro h
  have hrecord : DeletedRecord smallDrive (ofBuffer (runsRecord 600 [⟨1, 100, 1, 5⟩])) [(FILE_NAME, 56), (DATA, 148)] :=
    ⟨rfl, ⟨0, rfl, rfl⟩, ⟨56, rfl, visits_of_visited 3 56 _ (by decide +kernel)⟩⟩
  have hin := h smallDrive _ _ [.fileName (some [0x41]), .data false (.nonResident 600 [(5, 100)])] 3 {}
    ⟨2, [{ fileName := [0x41], fileId := 1, fileSize := 600, cluster := 5, runLength := 100, nonResident := true }]⟩ _
    (by decide) hrecord (by decide +kernel) (by decide +kernel) rfl rfl
  exact absurd (run_inside (by decide) hin.clusters) (by decide)

end DataRecovery.NTFS
