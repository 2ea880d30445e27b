import DataRecovery.ExFAT.ScanSound

/-!
# The recursion limit of the exFAT scan

`MAX_RECURSION_DEPTH` is compared with a depth that every subdirectory resets, so
it bounds the nesting only on volumes whose directory links are short.
-/

namespace DataRecovery.ExFAT

open Traversal Relation

/-! ## Small volumes -/

def smallBoot : BootSector where
  fileSystemName := "EXFAT   ".toList.map fun c => UInt8.ofNat c.toNat
  volumeLength := 20
  fatOffset := 1
  fatLength := 1
  clusterHeapOffset := 4
  clusterCount := 16
  rootDirectoryCluster := 2
  bytesPerSectorShift := 9
  sectorsPerClusterShift := 0

def smallVolume (sectors : List (UInt64 × List UInt8)) : Volume where
  device := .ofSectors sectors 512
  bootSector := smallBoot
  pastEnd := fun _ => 0
  bytesPerSectorShift_lt := by decide
  sectorsPerClusterShift_lt := by decide

def rawSet (attributes start size : UInt8) : List UInt8 :=
  ([0x05, 2, 0, 0, attributes] ++ List.replicate 27 0) ++
    (0x40 :: List.replicate 19 0 ++ [start, 0, 0, 0] ++ [size, 0, 0, 0, 0, 0, 0, 0]) ++
    ([0x41, 0, 0x44] ++ List.replicate 29 0)

/-! ## The limit -/

section
variable (v : Volume) (config : Config)

def DepthRespected (st : ScanState) : Prop :=
  (scanRoot v config (MAX_RECURSION_DEPTH.toNat + 1) st).isSome

theorem depth_respected_iff (st : ScanState) :
    DepthRespected v config st ↔
      ∀ walk, List.IsChain (DirLink v) ((v.bootSector.rootDirectoryCluster, 0) :: walk) →
        walk.length ≤ MAX_RECURSION_DEPTH.toNat := by
  unfold DepthRespected
  rw [scanRoot_isSome_iff_walks]
  simp only [Nat.lt_succ_iff]

end

/-- The root directory holds a deleted directory entry whose start cluster is the root itself. -/
def selfNested : Volume := smallVolume [(4, rawSet 0x10 2 64)]

theorem selfNested_links (depth : UInt32) (h : depth < MAX_RECURSION_DEPTH) :
    DirLink selfNested (2, depth) (2, 1) := by
  let d : DirEntryData := ⟨[0x44], 2, 64, true, true, true⟩
  have hd : d ∈ setsOf selfNested 2 := by decide +kernel
  exact .subdir h (by decide) hd (by decide) rfl

theorem depth_not_respected : ¬ ∀ (v : Volume) (config : Config), DepthRespected v config {} := by
  intro h
  have hs := (scanRoot_isSome_iff selfNested {}).mp (h selfNested {})
  have hroot : ReflTransGen (Calls (actions selfNested)) (2, 0) (2, 1) :=
    .single ((calls_iff selfNested).mpr (selfNested_links 0 (by decide)))
  have hloop : TransGen (Calls (actions selfNested)) (2, 1) (2, 1) :=
    .single ((calls_iff selfNested).mpr (selfNested_links 1 (by decide)))
  exact not_shallow_of_reaches_cycle hroot hloop _ hs

end DataRecovery.ExFAT
