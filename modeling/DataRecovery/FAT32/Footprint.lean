import DataRecovery.Footprint
import DataRecovery.SameRuns

/-!
# The sectors a FAT32 run depends on

The scan depends on the directories it reaches, their table entries, and the signatures of the
deleted files; the work on a file depends on its chain. What any other sector holds, or
whether it can be read, makes no difference.
-/

namespace DataRecovery.FAT32

open Traversal Relation

def Volume.on (v : Volume) (device : Device) : Volume := { v with device }

def Volume.Agrees (v : Volume) (device : Device) (reads : UInt64 → Prop) : Prop :=
  ∀ sector, reads sector → (v.on device).readSector sector = v.readSector sector

def Volume.tableSector (v : Volume) (c : UInt32) : UInt64 :=
  (v.driveInfo.fatStartSector + c * 4 / v.bytesPerSector).toUInt64

section
variable (v : Volume) (config : Config) (iswalnum : UInt16 → Bool)

/-- The sectors the scan depends on: the table entries and the entries of the directories it
reaches, and the first sectors of deleted files, for the extensions it predicts. -/
inductive ScanReads : UInt64 → Prop
  | table {c} : Reachable v IsUsedDirectoryEntry c → ScanReads (v.tableSector c)
  | directory {c sector} : Reachable v IsUsedDirectoryEntry c → sector ∈ v.sectorsOf c → ScanReads sector
  | signature {start size} : DeletedFile v IsUsedDirectoryEntry start size →
      ScanReads (v.clusterToSector start).toUInt64

/-- The sectors the work on a file depends on: the table entries and the clusters of its
chain, and when analysing the table entries that lead on from its first cluster. -/
inductive FileReads (info : FileInfo) : UInt64 → Prop
  | table {c} : ChainReads v.getNextCluster config.analyze (v.expectedClusters info.fileSize.toUInt32).toNat
      info.cluster c → FileReads info (v.tableSector c)
  | data {c sector} : c ∈ chainFrom v.getNextCluster (v.expectedClusters info.fileSize.toUInt32).toNat info.cluster →
      sector ∈ v.sectorsOf c → FileReads info sector

variable {v} {device : Device}

theorem getNextCluster_on {c : UInt32} (h : (v.on device).readSector (v.tableSector c) = v.readSector (v.tableSector c)) :
    (v.on device).getNextCluster c = v.getNextCluster c := by
  show fatLookup (v.on device).readSector v.driveInfo.fatStartSector v.bytesPerSector v.pastEnd c =
    fatLookup v.readSector v.driveInfo.fatStartSector v.bytesPerSector v.pastEnd c
  unfold fatLookup
  unfold Volume.tableSector at h
  dsimp only
  rw [h]

theorem entryActions_on : ∀ (raws : List (List UInt8)) (longFilename : WString),
    entryActions (v.on device) raws longFilename = entryActions v raws longFilename
  | [], _ => rfl
  | raw :: rest, longFilename => by
    unfold entryActions
    rw [entryActions_on rest, entryActions_on rest]
    rfl

theorem actions_on {c : UInt32} (htable : (v.on device).readSector (v.tableSector c) = v.readSector (v.tableSector c))
    (hdirectory : ∀ sector ∈ v.sectorsOf c, (v.on device).readSector sector = v.readSector sector) :
    actions v c = actions (v.on device) c := by
  have hsectors : (v.sectorsOf c).flatMap (sectorActions v) = (v.sectorsOf c).flatMap (sectorActions (v.on device)) := by
    apply List.flatMap_congr
    intro sector hsector
    unfold sectorActions
    rw [hdirectory sector hsector]
    cases v.readSector sector with
    | none => rfl
    | some buffer => exact (entryActions_on _ []).symm
  have hnext : nextActions v c = nextActions (v.on device) c := by
    unfold nextActions
    rw [getNextCluster_on htable]
    rfl
  unfold actions
  rw [hsectors, hnext]
  rfl

theorem record_on {f : Found} (h : (v.on device).readSector (v.clusterToSector f.cluster).toUInt64 =
    v.readSector (v.clusterToSector f.cluster).toUInt64) :
    record v config iswalnum f = record (v.on device) config iswalnum f := by
  have hpredict : (v.on device).predictExtension f.cluster = v.predictExtension f.cluster := by
    unfold Volume.predictExtension
    dsimp only
    have hsector : (v.on device).clusterToSector f.cluster = v.clusterToSector f.cluster := rfl
    rw [hsector, h]
    rfl
  funext st
  unfold record Volume.parseFileInfo
  rw [hpredict]

/-- The scan on the other drive lists the same files. -/
theorem scanRoot_on (h : v.Agrees device (ScanReads v)) (stack : Nat) (st : ScanState) :
    scanRoot (v.on device) config iswalnum stack st = scanRoot v config iswalnum stack st := by
  have hroot : ∀ {c}, ReflTransGen (Calls (actions v)) v.driveInfo.rootDirCluster c → v.isValidCluster c = true →
      Reachable v IsUsedDirectoryEntry c := by
    intro c hc hv
    refine (reachable_iff v).mpr ⟨?_, hc⟩
    rcases ReflTransGen.cases_head hc with rfl | ⟨_, hcall, -⟩
    · exact hv
    · exact ((calls_iff v).mp hcall).1
  unfold scanRoot
  rw [scanDirectory_eq_run, scanDirectory_eq_run]
  refine (run_congr stack (fun c hc => ?_) (fun c f hc hf => ?_) st).symm
  · by_cases hv : v.isValidCluster c = true
    · exact actions_on (h _ (.table (hroot hc hv))) fun sector hsector => h _ (.directory (hroot hc hv) hsector)
    · have hv' : ¬ (v.on device).isValidCluster c = true := hv
      unfold actions
      rw [if_neg hv, if_neg hv']
  · obtain ⟨hv, e, he, hdeleted, hstart, hcluster, hsize⟩ := (emits_iff v).mp ⟨f.filename, hf⟩
    exact record_on config iswalnum (h _ (.signature ⟨c, hroot hc hv, e, he, hdeleted, hstart, hcluster, rfl⟩))

theorem recoverFile_on {host : Host} {clusterChain : List UInt32}
    (h : ∀ c ∈ clusterChain, ∀ sector ∈ v.sectorsOf c, (v.on device).readSector sector = v.readSector sector)
    (status : RecoveryStatus) (outputPath : Path) (expectedSize : UInt32) (st : RunState host) :
    recoverFile v clusterChain status outputPath expectedSize st =
      recoverFile (v.on device) clusterChain status outputPath expectedSize st := by
  have hcopy := fun st : CopyState => @copyChain_congr _ _ v.bytesPerSector.toUInt64 expectedSize.toUInt64 _ _ _ st h
  unfold recoverFile
  rw [← hcopy]
  rfl

theorem processFileForRecovery_on {host : Host} {info : FileInfo} (h : v.Agrees device (FileReads v config info)) :
    @processFileForRecovery v config host info = processFileForRecovery (v.on device) config info := by
  have hcount : (startStatus v info.fileSize.toUInt32).expectedClusters.toNat =
      (v.expectedClusters info.fileSize.toUInt32).toNat := UInt32.toNat_toUInt64 _
  have hvalidate := @validateClusterChain_congr (v.chainContext config) ((v.on device).chainContext config)
    (startStatus v info.fileSize.toUInt32) info.cluster rfl rfl rfl
    fun c hc => (getNextCluster_on (h _ (.table (hcount ▸ hc)))).symm
  funext st
  unfold processFileForRecovery
  split
  · rfl
  · split
    · rfl
    · dsimp only
      split
      · rfl
      · have hchain := validateClusterChain_chain v config info.cluster info.fileSize.toUInt32
          (getOutputPath st.files info.fullName config.outputFolder) false st.analysis
        have hstatus : startStatus (v.on device) info.fileSize.toUInt32 = startStatus v info.fileSize.toUInt32 := rfl
        have hexpected : (v.on device).expectedClusters = v.expectedClusters := rfl
        unfold validateClusterChain at hchain ⊢
        rw [hstatus, hexpected, ← hvalidate]
        generalize DataRecovery.validateClusterChain _ _ _ _ _ _ _ _ = out at hchain
        rcases out with ⟨clusterChain, abort | ⟨status, analysis⟩⟩
        · rfl
        · dsimp only at hchain ⊢
          rw [recoverFile_on fun c hc sector hsector => h _ (.data (hchain ▸ hc) hsector)]

variable (v)

def RunReads (stack : Nat) (sector : UInt64) : Prop :=
  ScanReads v sector ∨ ∃ scan, scanRoot v config iswalnum stack {} = some scan ∧ ∃ info ∈ scan.recoveryList,
    FileReads v config info sector

theorem startRecovery_on {stack : Nat} (h : v.Agrees device (RunReads v config iswalnum stack)) (host : Host)
    (driveType : DriveType) (input : List UInt8) (st : RunState host) :
    (engine host config (v.on device) iswalnum stack).startRecovery driveType input st =
      (engine host config v iswalnum stack).startRecovery driveType input st := by
  refine (Engine.startRecovery_congr ?_ ?_ ?_ driveType input st).symm
  · rfl
  · unfold engine
    dsimp only
    rw [scanRoot_on config iswalnum fun sector hsector => h sector (.inl hsector)]
  · intro recoveryList hlist info hinfo
    obtain ⟨scan, hscan, rfl⟩ := engine_scan hlist
    exact processFileForRecovery_on config fun sector hsector => h sector (.inr ⟨scan, hscan, info, hinfo, hsector⟩)

end

end DataRecovery.FAT32
