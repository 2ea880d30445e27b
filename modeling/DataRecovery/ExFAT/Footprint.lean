import DataRecovery.Footprint
import DataRecovery.SameRuns
import DataRecovery.ExFAT.ScanExact

/-!
# The sectors an exFAT run depends on

As for FAT32, but an exFAT scan looks at no file's first sector, and of a directory only at
the sectors it takes to be on the drive.
-/

namespace DataRecovery.ExFAT

open Traversal Relation

def Volume.on (v : Volume) (device : Device) : Volume := { v with device }

def Volume.Agrees (v : Volume) (device : Device) (reads : UInt64 → Prop) : Prop :=
  ∀ sector, reads sector → (v.on device).readSector sector = v.readSector sector

def Volume.tableSector (v : Volume) (c : UInt32) : UInt64 :=
  (v.bootSector.clusterHeapOffset + c * 4 / v.bytesPerSector).toUInt64

section
variable (v : Volume) (config : Config)

/-- The sectors the scan depends on: the table entries and the entries of the directories it
scans, as far as it takes their sectors to be on the drive. -/
inductive ScanReads : UInt64 → Prop
  | table {c} : Scanned v c → ScanReads (v.tableSector c)
  | directory {c sector} : Scanned v c → sector ∈ v.sectorsOf c → sector < v.maxSectorCount → ScanReads sector

/-- The sectors the work on a file depends on, as for FAT32. -/
inductive FileReads (info : FileInfo) : UInt64 → Prop
  | table {c} : ChainReads v.getNextCluster config.analyze (v.expectedClusters info.fileSize).toNat info.cluster c →
      FileReads info (v.tableSector c)
  | data {c sector} : c ∈ chainFrom v.getNextCluster (v.expectedClusters info.fileSize).toNat info.cluster →
      sector ∈ v.sectorsOf c → FileReads info sector

variable {v} {device : Device}

theorem getNextCluster_on {c : UInt32} (h : (v.on device).readSector (v.tableSector c) = v.readSector (v.tableSector c)) :
    (v.on device).getNextCluster c = v.getNextCluster c := by
  show fatLookup (v.on device).readSector v.bootSector.clusterHeapOffset v.bytesPerSector v.pastEnd c =
    fatLookup v.readSector v.bootSector.clusterHeapOffset v.bytesPerSector v.pastEnd c
  unfold fatLookup
  unfold Volume.tableSector at h
  dsimp only
  rw [h]

theorem actions_on {c depth : UInt32}
    (h : depth < MAX_RECURSION_DEPTH → v.isValidCluster c = true →
      (v.on device).readSector (v.tableSector c) = v.readSector (v.tableSector c) ∧
      ∀ sector ∈ v.sectorsOf c, sector < v.maxSectorCount → (v.on device).readSector sector = v.readSector sector) :
    actions v (c, depth) = actions (v.on device) (c, depth) := by
  have hvalid : (v.on device).isValidCluster c = v.isValidCluster c := rfl
  unfold actions
  dsimp only
  rw [hvalid]
  split
  · rfl
  · rename_i hdepth
    split
    · rename_i hv
      obtain ⟨htable, hdirectory⟩ := h (UInt32.not_le.mp hdepth) hv
      have hsets : setsOf v c = setsOf (v.on device) c := by
        unfold setsOf
        apply List.flatMap_congr
        intro sector hsector
        have hmax : (v.on device).maxSectorCount = v.maxSectorCount := rfl
        unfold setsOfSector
        rw [hmax]
        split
        · rfl
        · rename_i hlt
          rw [hdirectory sector hsector (UInt64.not_le.mp hlt)]
          rfl
      have hnext : nextActions v c depth = nextActions (v.on device) c depth := by
        unfold nextActions
        rw [getNextCluster_on htable]
        rfl
      rw [hsets, hnext]
      rfl
    · rfl

/-- The scan on the other drive lists the same files. -/
theorem scanRoot_on (h : v.Agrees device (ScanReads v)) (stack : Nat) (st : ScanState) :
    scanRoot (v.on device) config stack st = scanRoot v config stack st := by
  unfold scanRoot
  rw [scanDirectory_eq_run, scanDirectory_eq_run]
  refine (run_congr stack (fun n hn => ?_) (fun _ _ _ _ => rfl) st).symm
  obtain ⟨c, depth⟩ := n
  refine actions_on fun hdepth hv => ?_
  have hscanned : Scanned v c := ⟨depth, hdepth, hv, hn⟩
  exact ⟨h _ (.table hscanned), fun sector hsector hlt => h _ (.directory hscanned hsector hlt)⟩

theorem recoverFile_on {host : Host} {clusterChain : List UInt32}
    (h : ∀ c ∈ clusterChain, ∀ sector ∈ v.sectorsOf c, (v.on device).readSector sector = v.readSector sector)
    (status : RecoveryStatus) (outputPath : Path) (expectedSize : UInt64) (st : RunState host) :
    recoverFile v clusterChain status outputPath expectedSize st =
      recoverFile (v.on device) clusterChain status outputPath expectedSize st := by
  have hcopy := fun st : CopyState => @copyChain_congr _ _ v.bytesPerSector.toUInt64 expectedSize _ _ _ st h
  unfold recoverFile
  rw [← hcopy]
  rfl

theorem processFileForRecovery_on {host : Host} {info : FileInfo} (h : v.Agrees device (FileReads v config info)) :
    @processFileForRecovery v config host info = processFileForRecovery (v.on device) config info := by
  have hvalidate := @validateClusterChain_congr (v.chainContext config) ((v.on device).chainContext config)
    (startStatus v info.fileSize) info.cluster rfl rfl rfl
    fun c hc => (getNextCluster_on (h _ (.table hc))).symm
  funext st
  unfold processFileForRecovery
  split
  · rfl
  · split
    · rfl
    · have hchain := validateClusterChain_chain v config info.cluster info.fileSize
        (getOutputPath st.files info.fileName config.outputFolder) false st.analysis
      dsimp only
      have hstatus : startStatus (v.on device) info.fileSize = startStatus v info.fileSize := rfl
      have hclusters : (v.on device).overwriteClusters = v.overwriteClusters := rfl
      unfold validateClusterChain at hchain ⊢
      rw [hstatus, hclusters, ← hvalidate]
      generalize DataRecovery.validateClusterChain _ _ _ _ _ _ _ _ = out at hchain
      rcases out with ⟨clusterChain, abort | ⟨status, analysis⟩⟩
      · rfl
      · dsimp only at hchain ⊢
        rw [recoverFile_on fun c hc sector hsector => h _ (.data (hchain ▸ hc) hsector)]

variable (v)

def RunReads (stack : Nat) (sector : UInt64) : Prop :=
  ScanReads v sector ∨ ∃ scan, scanRoot v config stack {} = some scan ∧ ∃ info ∈ scan.recoveryList,
    FileReads v config info sector

theorem startRecovery_on {stack : Nat} (h : v.Agrees device (RunReads v config stack)) (host : Host)
    (driveType : DriveType) (input : List UInt8) (st : RunState host) :
    startRecovery host config (v.on device) stack driveType input st =
      startRecovery host config v stack driveType input st := by
  refine (Engine.startRecovery_congr ?_ ?_ ?_ driveType input st).symm
  · rfl
  · unfold engine
    dsimp only
    rw [scanRoot_on config fun sector hsector => h sector (.inl hsector)]
  · intro recoveryList hlist info hinfo
    obtain ⟨scan, hscan, rfl⟩ := engine_scan hlist
    exact processFileForRecovery_on config fun sector hsector => h sector (.inr ⟨scan, hscan, info, hinfo, hsector⟩)

end

end DataRecovery.ExFAT
