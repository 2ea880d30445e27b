import DataRecovery.ExFAT.FatBase
import DataRecovery.ExFAT.LiveDirectories
import DataRecovery.FAT32.Geometry
import DataRecovery.FAT32.ScanExact

/-!
# The last cluster of a volume

Clusters are numbered from 2, and both range checks compare the number with how many
there are. The last cluster is refused, with the files and directories that start there.
-/

namespace DataRecovery

/-- One of `count` data clusters, with a number below the bad-cluster marker. -/
def IsDataCluster (count bad c : UInt32) : Prop := 2 ≤ c ∧ c.toNat ≤ count.toNat + 1 ∧ c < bad

theorem refused_iff {count bad c : UInt32} (h : IsDataCluster count bad c) :
    ¬ clusterInRange count bad c = true ↔ c.toNat = count.toNat + 1 := by
  obtain ⟨htwo, hle, hbad⟩ := h
  rw [clusterInRange_iff, UInt32.le_iff_toNat_le (a := c)]
  simp only [htwo, hbad, true_and, and_true]
  omega

theorem accepts_all_iff {count bad : UInt32} :
    (∀ c, IsDataCluster count bad c → clusterInRange count bad c = true) ↔
      count = 0 ∨ bad.toNat ≤ count.toNat + 1 := by
  have hbad := bad.toNat_lt
  constructor
  · intro hall
    by_contra hsome
    rw [not_or, ← UInt32.toNat_inj, UInt32.toNat_zero] at hsome
    have hc : (UInt32.ofNat (count.toNat + 1)).toNat = count.toNat + 1 :=
      UInt32.toNat_ofNat_of_lt' (Nat.lt_trans (Nat.lt_of_not_le hsome.2) hbad)
    have hdata : IsDataCluster count bad (UInt32.ofNat (count.toNat + 1)) := by
      refine ⟨UInt32.le_iff_toNat_le.mpr ?_, Nat.le_of_eq hc, UInt32.lt_iff_toNat_lt.mpr ?_⟩
      · rw [hc, show (2 : UInt32).toNat = 2 from rfl]
        omega
      · rw [hc]
        omega
    exact (refused_iff hdata).mpr hc (hall _ hdata)
  · intro h c hdata
    by_contra hrefused
    have hlast := (refused_iff hdata).mp hrefused
    obtain ⟨htwo, -, hlt⟩ := hdata
    rw [UInt32.le_iff_toNat_le, show (2 : UInt32).toNat = 2 from rfl] at htwo
    rw [UInt32.lt_iff_toNat_lt] at hlt
    rcases h with rfl | h
    · rw [UInt32.toNat_zero] at hlast
      omega
    · omega

namespace FAT32

def Volume.IsDataCluster (v : Volume) (c : UInt32) : Prop :=
  DataRecovery.IsDataCluster v.driveInfo.maxClusterCount BAD_CLUSTER c

/-- Every data cluster is accepted as it is, a directory that starts there is scanned, and a deleted file is
listed. -/
structure NoneRefused (v : Volume) : Prop where
  accepted : ∀ c, v.IsDataCluster c → v.isValidCluster c = true
  unchanged : ∀ c, v.IsDataCluster c → v.sanitizeCluster c = c
  scanned : ∀ c, Reachable v IsUsedDirectoryEntry c → ∀ e ∈ entriesOf v c, IsUsedDirectoryEntry e →
    v.IsDataCluster e.startCluster → Reachable v IsUsedDirectoryEntry e.startCluster
  listed : ∀ config iswalnum stack scan, (config.recover || config.analyze) = true →
    scanRoot v config iswalnum stack {} = some scan →
      ∀ c, Reachable v IsUsedDirectoryEntry c → ∀ e ∈ entriesOf v c, IsDeletedFileEntry e →
        v.IsDataCluster e.startCluster →
          ∃ info ∈ scan.recoveryList, info.cluster = e.startCluster ∧ info.fileSize = e.fileSize.toUInt64

theorem noneRefused_iff (v : Volume) : NoneRefused v ↔ v.driveInfo.maxClusterCount = 0 ∨
    BAD_CLUSTER.toNat ≤ v.driveInfo.maxClusterCount.toNat + 1 := by
  rw [← accepts_all_iff]
  constructor
  · exact NoneRefused.accepted
  · intro (haccepted : ∀ c, v.IsDataCluster c → v.isValidCluster c = true)
    refine ⟨haccepted, fun c hc => ?_, fun c hreach e he hdir hstart => ?_,
      fun config iswalnum stack scan hlist hscan c hreach e he hfile hstart => ?_⟩
    · rw [v.sanitizeCluster_eq, if_pos (haccepted c hc)]
    · exact .step hreach (.subdir he hdir (haccepted _ hstart))
    · have hs := (scanRoot_eq_some v config iswalnum hscan).1
      rw [listed_iff_event v config iswalnum hlist hscan, deletedFile_iff_event v hs]
      exact ⟨c, hreach, e, he, hfile, haccepted _ hstart, rfl, rfl⟩

end FAT32

namespace ExFAT

def Volume.IsDataCluster (v : Volume) (c : UInt32) : Prop :=
  DataRecovery.IsDataCluster v.bootSector.clusterCount BAD_CLUSTER c

def IsNamedSet (v : Volume) (d : DirEntryData) : Prop :=
  d.longFilename ≠ [] ∧ d.fileSize ≠ 0 ∧ d.fileSize ≤ v.bootSector.volumeLength * v.bytesPerSector.toUInt64

structure NoneRefused (v : Volume) : Prop where
  accepted : ∀ c, v.IsDataCluster c → v.isValidCluster c = true
  scanned : ∀ c, Scanned v c → ∀ d ∈ setsOf v c, IsNamedSet v d → d.isDirectory = true →
    v.IsDataCluster d.startingCluster → Scanned v d.startingCluster
  listed : ∀ config stack scan, (config.recover || config.analyze) = true →
    scanRoot v config stack {} = some scan →
      ∀ c, Scanned v c → ∀ d ∈ setsOf v c, IsNamedSet v d → d.isDirectory = false → d.isDeleted = true →
        v.IsDataCluster d.startingCluster → ∃ info ∈ scan.recoveryList, ∃ fileId, info = parseFileInfo fileId d

theorem inFileEntry_of_mem_entrySets {d : DirEntryData} : ∀ {raws : List (List UInt8)} {d₀ : DirEntryData},
    d ∈ entrySets raws d₀ → d.inFileEntry = true
  | [], d₀, h => by
    unfold entrySets at h
    split at h
    · rename_i hin
      obtain rfl := List.mem_singleton.mp h
      exact hin
    · cases h
  | raw :: raws, d₀, h => by
    unfold entrySets at h
    split at h
    · rename_i hfile
      rcases List.mem_cons.mp h with rfl | h
      · exact (Bool.and_eq_true_iff.mp hfile).2
      · exact inFileEntry_of_mem_entrySets h
    · exact inFileEntry_of_mem_entrySets h

theorem inFileEntry_of_mem_setsOf {v : Volume} {c : UInt32} {d : DirEntryData} (h : d ∈ setsOf v c) :
    d.inFileEntry = true := by
  obtain ⟨sector, -, h⟩ := List.mem_flatMap.mp h
  unfold setsOfSector at h
  split at h
  · cases h
  · split at h
    · exact inFileEntry_of_mem_entrySets h
    · cases h

theorem accepted_of_named {v : Volume} {c : UInt32} {d : DirEntryData} (hd : d ∈ setsOf v c) (hnamed : IsNamedSet v d)
    (hvalid : v.isValidCluster d.startingCluster = true) : ExFAT.accepted v d = true := by
  obtain ⟨hname, hzero, hsize⟩ := hnamed
  have htwo := (v.isValidCluster_iff.mp hvalid).1
  have hpos : (0 : UInt32) < d.startingCluster := UInt32.lt_of_lt_of_le (by decide) htwo
  unfold ExFAT.accepted Volume.isValidDeletedEntry
  simp [inFileEntry_of_mem_setsOf hd, hname, hpos, hzero, UInt64.not_lt.mpr hsize, hvalid]

theorem noneRefused_iff (v : Volume) : NoneRefused v ↔ v.bootSector.clusterCount = 0 ∨
    BAD_CLUSTER.toNat ≤ v.bootSector.clusterCount.toNat + 1 := by
  rw [← accepts_all_iff]
  constructor
  · exact NoneRefused.accepted
  · intro (haccepted : ∀ c, v.IsDataCluster c → v.isValidCluster c = true)
    refine ⟨haccepted, fun c hscanned d hd hnamed hdir hstart => ?_,
      fun config stack scan hlist hscan c hscanned d hd hnamed hfile hdel hstart => ?_⟩
    · obtain ⟨depth, hdepth, hvalid, hreach⟩ := hscanned
      have hcall := (calls_iff v).mpr (.subdir hdepth hvalid hd (accepted_of_named hd hnamed (haccepted _ hstart)) hdir)
      exact ⟨1, by decide, haccepted _ hstart, hreach.tail hcall⟩
    · exact listed_of_scanned v hscanned config hlist hscan hd (accepted_of_named hd hnamed (haccepted _ hstart)) hfile hdel

end ExFAT

/-- The checks refuse no data cluster exactly when there is none, or the bad-cluster marker stands in place of
the last one. -/
theorem none_refused_iff (v : FAT32.Volume) (w : ExFAT.Volume) :
    (FAT32.NoneRefused v ↔ v.driveInfo.maxClusterCount = 0 ∨
      FAT32.BAD_CLUSTER.toNat ≤ v.driveInfo.maxClusterCount.toNat + 1) ∧
    (ExFAT.NoneRefused w ↔ w.bootSector.clusterCount = 0 ∨
      ExFAT.BAD_CLUSTER.toNat ≤ w.bootSector.clusterCount.toNat + 1) :=
  ⟨FAT32.noneRefused_iff v, ExFAT.noneRefused_iff w⟩

/-- Of 8 clusters number 9 is refused, and of 16 number 17. -/
theorem last_cluster_refused :
    (¬ ∀ v : FAT32.Volume, v.bootSector.Fits → FAT32.NoneRefused v) ∧
      ¬ ∀ w : ExFAT.Volume, ExFAT.ConsistentGeometry w.bootSector → ExFAT.NoneRefused w := by
  constructor
  · intro h
    have hfits : FAT32.smallBoot.Fits := ⟨by decide, by decide, by decide⟩
    have hcounts := (FAT32.noneRefused_iff (FAT32.smallVolume [])).mp (h (FAT32.smallVolume []) hfits)
    exact absurd hcounts (by decide)
  · intro h
    have hgeometry : ExFAT.ConsistentGeometry ExFAT.smallBoot := by decide
    have hcounts := (ExFAT.noneRefused_iff (ExFAT.smallVolume [])).mp (h (ExFAT.smallVolume []) hgeometry)
    exact absurd hcounts (by decide)

end DataRecovery
