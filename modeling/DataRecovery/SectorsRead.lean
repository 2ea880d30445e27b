import DataRecovery.ExFAT.Footprint
import DataRecovery.FAT32.Footprint
import DataRecovery.NTFS.Footprint

/-!
# Runs on drives that differ

A run on another drive, with the same boot sector, is the run on this one if the two drives
agree on the sectors it depends on.
-/

namespace DataRecovery

/-- A run on a drive that agrees with this one wherever the run depends on it, is the run on this one. -/
theorem runs_depend_on (host : Host) (config : Config) (device : Device) (driveType : DriveType) (input : List UInt8)
    (st : RunState host) :
    (∀ (v : FAT32.Volume) (iswalnum : UInt16 → Bool) (stack : Nat),
      v.Agrees device (FAT32.RunReads v config iswalnum stack) →
        (FAT32.engine host config (v.on device) iswalnum stack).startRecovery driveType input st =
          (FAT32.engine host config v iswalnum stack).startRecovery driveType input st) ∧
    (∀ (v : ExFAT.Volume) (stack : Nat), v.Agrees device (ExFAT.RunReads v config stack) →
      ExFAT.startRecovery host config (v.on device) stack driveType input st =
        ExFAT.startRecovery host config v stack driveType input st) ∧
    (∀ (v : NTFS.Volume) (rounds : Nat), v.Agrees device (NTFS.RunReads v rounds) →
      NTFS.startRecovery host config (v.on device) rounds driveType input st =
        NTFS.startRecovery host config v rounds driveType input st) :=
  ⟨fun v iswalnum _ h => FAT32.startRecovery_on v config iswalnum h host driveType input st,
    fun v _ h => ExFAT.startRecovery_on v config h host driveType input st,
    fun v rounds h => NTFS.startRecovery_on v config rounds h host driveType input st⟩

/-! ## One sector more -/

theorem ofSectors_cons {sectors : List (UInt64 × List UInt8)} {bytesPerSector : UInt32} {other sector : UInt64}
    {content : List UInt8} (h : sector ≠ other) (size : UInt32) :
    (Device.ofSectors ((other, content) :: sectors) bytesPerSector).readSector sector size =
      (Device.ofSectors sectors bytesPerSector).readSector sector size := by
  unfold Device.ofSectors
  dsimp only
  rw [List.lookup_cons, beq_eq_false_iff_ne.mpr h]

namespace FAT32

def nestedChanged : Device :=
  .ofSectors [(9, [1]), (2, rawEntry 0x44 0x10 3 0), (3, rawEntry 0xE5 0x20 4 9)] 512

theorem nested_sectors {c : UInt32} (hc : nested.isValidCluster c = true) : nested.tableSector c ≠ 9 ∧
    (nested.clusterToSector c).toUInt64 ≠ 9 ∧ 9 ∉ nested.sectorsOf c := by
  have hall : ∀ n < 9, 2 ≤ n → nested.tableSector (UInt32.ofNat n) ≠ 9 ∧
      (nested.clusterToSector (UInt32.ofNat n)).toUInt64 ≠ 9 ∧ 9 ∉ nested.sectorsOf (UInt32.ofNat n) := by
    decide
  have hmax : nested.driveInfo.maxClusterCount = 8 := rfl
  obtain ⟨hlo, hhi, -⟩ := nested.isValidCluster_iff.mp hc
  rw [hmax] at hhi
  have h := hall c.toNat (Nat.lt_succ_of_le (UInt32.le_iff_toNat_le.mp hhi)) (UInt32.le_iff_toNat_le.mp hlo)
  rw [UInt32.ofNat_toNat] at h
  exact h

theorem nested_chain {info : FileInfo} {c : UInt32} (hinfo : info.cluster = 4 ∧ info.fileSize = 9)
    (hc : ChainReads nested.getNextCluster false (nested.expectedClusters info.fileSize.toUInt32).toNat info.cluster c) :
    nested.isValidCluster c = true := by
  have hchain : chainFrom nested.getNextCluster (nested.expectedClusters 9).toNat 4 = [4] := rfl
  rw [hinfo.1, hinfo.2] at hc
  rcases hc with hc | ⟨hon, -⟩
  · obtain rfl : c = 4 := List.mem_singleton.mp (hchain ▸ hc)
    rfl
  · cases hon

theorem nested_listed {scan : ScanState} (hscan : scanRoot nested { recover := true } (fun _ => true) 3 {} = some scan)
    {info : FileInfo} (hinfo : info ∈ scan.recoveryList) : info.cluster = 4 ∧ info.fileSize = 9 := by
  have hlist : ((scanRoot nested { recover := true } (fun _ => true) 3 {}).map fun scan =>
      scan.recoveryList.map fun info => (info.cluster, info.fileSize)) = some [(4, 9)] := rfl
  rw [hscan] at hlist
  have hkeys : scan.recoveryList.map (fun info => (info.cluster, info.fileSize)) = [(4, 9)] := Option.some.inj hlist
  have hmem := List.mem_map_of_mem (f := fun info : FileInfo => (info.cluster, info.fileSize)) hinfo
  rw [hkeys] at hmem
  exact Prod.mk.inj (List.mem_singleton.mp hmem)

theorem nested_agrees : nested.Agrees nestedChanged (RunReads nested { recover := true } (fun _ => true) 3) := by
  intro sector hsector
  refine ofSectors_cons (fun h9 => ?_) 512
  rcases hsector with hscan | ⟨scan, hscan, info, hinfo, hfile⟩
  · cases hscan with
    | table hc => exact (nested_sectors hc.valid).1 h9
    | directory hc hsector => exact (nested_sectors hc.valid).2.2 (h9 ▸ hsector)
    | signature hfile =>
      obtain ⟨-, -, e, -, -, hv, hstart, -⟩ := hfile
      exact (nested_sectors (hstart ▸ hv)).2.1 h9
  · have hcluster := nested_listed hscan hinfo
    cases hfile with
    | table hc => exact (nested_sectors (nested_chain hcluster hc)).1 h9
    | data hc hsector => exact (nested_sectors (nested_chain hcluster (.inl hc))).2.2 (h9 ▸ hsector)

end FAT32

namespace ExFAT

def nestedChanged : Device := .ofSectors [(19, [1]), (4, rawSet 0x10 3 64), (5, rawSet 0x20 4 9)] 512

theorem nested_sectors {c : UInt32} (hc : nested.isValidCluster c = true) : nested.tableSector c ≠ 19 ∧
    19 ∉ nested.sectorsOf c := by
  have hall : ∀ n < 17, 2 ≤ n → nested.tableSector (UInt32.ofNat n) ≠ 19 ∧ 19 ∉ nested.sectorsOf (UInt32.ofNat n) := by
    decide
  obtain ⟨hlo, hhi, -⟩ := nested.isValidCluster_iff.mp hc
  have h := hall c.toNat (Nat.lt_succ_of_le (UInt32.le_iff_toNat_le.mp hhi)) (UInt32.le_iff_toNat_le.mp hlo)
  rw [UInt32.ofNat_toNat] at h
  exact h

theorem nested_chain {info : FileInfo} {c : UInt32} (hinfo : info = ⟨1, wide "D", 9, 4⟩)
    (hc : ChainReads nested.getNextCluster false (nested.expectedClusters info.fileSize).toNat info.cluster c) :
    nested.isValidCluster c = true := by
  have hchain : chainFrom nested.getNextCluster (nested.expectedClusters 9).toNat 4 = [4] := rfl
  subst hinfo
  rcases hc with hc | ⟨hon, -⟩
  · obtain rfl : c = 4 := List.mem_singleton.mp (hchain ▸ hc)
    rfl
  · cases hon

theorem nested_listed {scan : ScanState} (hscan : scanRoot nested { recover := true } 2 {} = some scan)
    {info : FileInfo} (hinfo : info ∈ scan.recoveryList) : info = ⟨1, wide "D", 9, 4⟩ := by
  have hlist := nested_scan
  rw [hscan] at hlist
  rw [Option.some.inj hlist] at hinfo
  exact List.mem_singleton.mp hinfo

theorem nested_agrees : nested.Agrees nestedChanged (RunReads nested { recover := true } 2) := by
  intro sector hsector
  refine ofSectors_cons (fun h19 => ?_) 512
  rcases hsector with hscan | ⟨scan, hscan, info, hinfo, hfile⟩
  · cases hscan with
    | table hc =>
      obtain ⟨-, -, hv, -⟩ := hc
      exact (nested_sectors hv).1 h19
    | directory hc hsector =>
      obtain ⟨-, -, hv, -⟩ := hc
      exact (nested_sectors hv).2 (h19 ▸ hsector)
  · have hcluster := nested_listed hscan hinfo
    cases hfile with
    | table hc => exact (nested_sectors (nested_chain hcluster hc)).1 h19
    | data hc hsector => exact (nested_sectors (nested_chain hcluster (.inl hc))).2 (h19 ▸ hsector)

end ExFAT

namespace NTFS

/-- A drive with one record, at cluster 4, of a file that lies in cluster 9. -/
def oneRecordDrive (others : List (UInt64 × List UInt8)) : Device where
  readSector := (Device.ofSectors (others ++ [(4, rawRecord (rawFileName 0x41 ++ rawNonResident [] 5 [0x11, 1, 9, 0])),
    (9, [1, 2, 3, 4, 5])]) 512).readSector
  getBytesPerSector := 512
  getTotalMftRecords := 1
  length_of_read := Device.length_of_read _

def oneRecord : Volume := ⟨oneRecordDrive [], smallDrive⟩

def oneRecordFile : FileInfo :=
  { fileName := wide "A", fileId := 1, fileSize := 5, cluster := 9, runLength := 1, nonResident := true }

theorem oneRecord_listed : scanMFT oneRecord 3 {} = .ok ⟨2, [oneRecordFile]⟩ := by decide +kernel

theorem oneRecord_agrees : oneRecord.Agrees (oneRecordDrive [(10, [1])]) (RunReads oneRecord 3) := by
  refine ⟨rfl, fun sector hsector => ?_⟩
  refine @ofSectors_cons _ 512 10 sector [1] (fun h10 => ?_) 512
  rcases hsector with hscan | ⟨scan, hscan, info, hinfo, hfile⟩
  · cases hscan with
    | @record sectors index i hsectors hindex hi =>
      have hone : getSectorsPerMftRecord oneRecord = .ok 1 := rfl
      rw [hone] at hsectors
      cases hsectors
      obtain rfl : index = 0 := Nat.lt_one_iff.mp hindex
      obtain rfl : i = 0 := Nat.lt_one_iff.mp hi
      exact absurd h10 (by decide)
  · rw [oneRecord_listed] at hscan
    cases hscan
    obtain rfl := List.mem_singleton.mp hinfo
    cases hfile with
    | data _ hc hsector =>
      have hchain : validateClusterChain oneRecordFile = [9] := rfl
      rw [hchain] at hc
      obtain rfl := List.mem_singleton.mp hc
      rw [h10] at hsector
      exact absurd hsector (by decide)

end NTFS

theorem runs_depend_on_small :
    (FAT32.engine plainHost { recover := true } (FAT32.nested.on FAT32.nestedChanged) (fun _ => true) 3).startRecovery
        .logical [byte '1'] { files := ∅ } =
      (FAT32.engine plainHost { recover := true } FAT32.nested (fun _ => true) 3).startRecovery
        .logical [byte '1'] { files := ∅ } ∧
    ExFAT.startRecovery plainHost { recover := true } (ExFAT.nested.on ExFAT.nestedChanged) 2 .logical [byte '1']
        { files := ∅ } =
      ExFAT.startRecovery plainHost { recover := true } ExFAT.nested 2 .logical [byte '1'] { files := ∅ } ∧
    NTFS.startRecovery plainHost { recover := true } (NTFS.oneRecord.on (NTFS.oneRecordDrive [(10, [1])])) 3 .logical
        [byte '1'] { files := ∅ } =
      NTFS.startRecovery plainHost { recover := true } NTFS.oneRecord 3 .logical [byte '1'] { files := ∅ } :=
  ⟨(runs_depend_on plainHost { recover := true } _ .logical [byte '1'] { files := ∅ }).1 _ _ _ FAT32.nested_agrees,
    (runs_depend_on plainHost { recover := true } _ .logical [byte '1'] { files := ∅ }).2.1 _ _ ExFAT.nested_agrees,
    (runs_depend_on plainHost { recover := true } _ .logical [byte '1'] { files := ∅ }).2.2 _ _ NTFS.oneRecord_agrees⟩

end DataRecovery
