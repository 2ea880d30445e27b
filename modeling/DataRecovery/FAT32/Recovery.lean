import DataRecovery.Chain
import DataRecovery.Copy
import DataRecovery.FAT32.Scan

/-! # Recovering the listed FAT32 files -/

namespace DataRecovery.FAT32

namespace Volume
variable (v : Volume)

def bytesPerCluster : UInt32 := v.sectorsPerCluster * v.bytesPerSector

def expectedClusters (expectedSize : UInt32) : UInt32 :=
  (expectedSize + v.bytesPerCluster - 1) / v.bytesPerCluster

def chainContext (config : Config) : ChainContext where
  getNextCluster := v.getNextCluster
  isValidCluster := v.isValidCluster
  analyze := config.analyze
  bytesPerCluster := v.bytesPerCluster

end Volume

section
variable (v : Volume) (config : Config) {host : Host}

def analyzeClusterOverwrites (startCluster expectedSize : UInt32) (st : AnalysisState) :
    Except Abort (OverwriteAnalysis × AnalysisState) :=
  DataRecovery.analyzeClusterOverwrites v.getNextCluster v.bytesPerCluster (v.expectedClusters expectedSize).toUInt64
    startCluster expectedSize.toUInt64 st

def validateClusterChain (status : RecoveryStatus) (startCluster expectedSize : UInt32) (outputPath : Path)
    (isExtensionPredicted : Bool) (st : AnalysisState) :
    List UInt32 × Except Abort (RecoveryStatus × AnalysisState) :=
  DataRecovery.validateClusterChain (v.chainContext config) status startCluster expectedSize.toUInt64
    (v.expectedClusters expectedSize).toUInt64 outputPath.filename isExtensionPredicted st

def recoverFile (clusterChain : List UInt32) (status : RecoveryStatus) (outputPath : Path) (expectedSize : UInt32)
    (st : RunState host) : Outcome host :=
  if host.canCreate outputPath then
    let copied := copyChain v.readSector v.bytesPerSector.toUInt64 expectedSize.toUInt64 v.sectorsOf clusterChain
      { recoveredBytes := status.recoveredBytes, recoveredClusters := status.recoveredClusters }
    let status :=
      { status with recoveredBytes := copied.recoveredBytes, recoveredClusters := copied.recoveredClusters }
    ({ st with files := st.files.write outputPath (.data copied.written), shown := st.shown ++ [status] }, none)
  else (st, some (.exception "[-] Failed to create output file."))

/-- Files of size 0 and, when a target is set, all others are passed over. -/
def isSkipped (info : FileInfo) : Bool :=
  info.fileSize = 0 ||
    config.targetCluster != 0 && config.targetFileSize != 0 &&
      (info.cluster != config.targetCluster || info.fileSize != config.targetFileSize.toUInt64)

def startStatus (expectedSize : UInt32) : RecoveryStatus :=
  { expectedClusters := (v.expectedClusters expectedSize).toUInt64 }

def processFileForRecovery (info : FileInfo) (st : RunState host) : Outcome host :=
  if isSkipped config info then (st, none)
  else if !renamingEnds st.files info.fullName config.outputFolder then (st, some .undefined)
  else
    let outputPath := getOutputPath st.files info.fullName config.outputFolder
    if 0xFFFFFFFF < info.fileSize then (st, some (.exception "File size exceeds 32-bit limit!"))
    else
      let expectedSize := info.fileSize.toUInt32
      -- the extension's own flag is not passed on: the argument is a local `false`
      match validateClusterChain v config (startStatus v expectedSize) info.cluster expectedSize outputPath false
        st.analysis with
      | (_, .error abort) => (st, some abort)
      | (clusterChain, .ok (status, analysis)) =>
        let st := { st with analysis, shown := if config.analyze then st.shown ++ [status] else st.shown }
        if config.recover then recoverFile v clusterChain status outputPath expectedSize st else (st, none)

def recoverPartition (selection : Selection) (recoveryList : List FileInfo) (st : RunState host) : Outcome host :=
  if recoveryList = [] then (st, none)
  else
    match selectedFiles config FileInfo.fileId selection recoveryList with
    | none => (st, some (.exit 0))
    | some selectedDeletedFiles => processAll (processFileForRecovery v config) selectedDeletedFiles st

def scanForDeletedFiles (iswalnum : UInt16 → Bool) (stack : Nat) (proceedWithoutLog : Bool) (st : RunState host) :
    RunState host × Except Abort ScanState :=
  let (isOpen, files) := openLogFile config st.files
  let st := { st with files }
  match isOpen with
  | .error abort => (st, .error abort)
  | .ok isOpen =>
    if !isOpen && !proceedWithoutLog then (st, .error (.exit 1))
    else
      match scanRoot v config iswalnum stack {} with
      | none => (st, .error .stackOverflow)
      | some scan => (st, .ok scan)

def startRecovery (driveType : DriveType) (iswalnum : UInt16 → Bool) (stack : Nat) (answers : Answers)
    (st : RunState host) : Outcome host :=
  if driveType = .logical then
    match scanForDeletedFiles v config iswalnum stack answers.proceedWithoutLog st with
    | (st, .error abort) => (st, some abort)
    | (st, .ok scan) => recoverPartition v config answers.selection scan.recoveryList st
  else (st, some (.exception "Unknown drive type."))

end

/-! ## What a run processes -/

theorem startRecovery_logical {v : Volume} {config : Config} {host : Host} {iswalnum : UInt16 → Bool} {stack : Nat}
    {answers : Answers} {st : RunState host} {scan : ScanState}
    (hscan : scanRoot v config iswalnum stack {} = some scan) (hne : scan.recoveryList ≠ [])
    {isOpen : Bool} (hlog : (openLogFile config st.files).1 = .ok isOpen)
    (hproceed : isOpen = true ∨ answers.proceedWithoutLog = true)
    (hselect : selectedFiles config FileInfo.fileId answers.selection scan.recoveryList = some scan.recoveryList) :
    startRecovery v config .logical iswalnum stack answers st =
      processAll (processFileForRecovery v config) scan.recoveryList
        { st with files := (openLogFile config st.files).2 } := by
  have hopen : (!isOpen && !answers.proceedWithoutLog) = false := by
    rcases hproceed with h | h <;> simp [h]
  have hfound : scanForDeletedFiles v config iswalnum stack answers.proceedWithoutLog st =
      ({ st with files := (openLogFile config st.files).2 }, .ok scan) := by
    unfold scanForDeletedFiles
    dsimp only
    rw [hlog]
    simp only [hopen, Bool.false_eq_true, if_false, hscan]
  unfold startRecovery
  rw [if_pos rfl, hfound]
  dsimp only
  unfold recoverPartition
  rw [if_neg hne, hselect]

/-! ## What processing one file does -/

section
variable (v : Volume) (config : Config) {host : Host}

theorem Volume.bytesPerCluster_toNat :
    v.bytesPerCluster.toNat = v.bootSector.sectorsPerCluster.toNat * v.bootSector.bytesPerSector.toNat := by
  have hs := v.bootSector.sectorsPerCluster.toNat_lt
  have hb := v.bootSector.bytesPerSector.toNat_lt
  unfold Volume.bytesPerCluster Volume.sectorsPerCluster Volume.bytesPerSector
  rw [UInt32.toNat_mul, UInt8.toNat_toUInt32, UInt16.toNat_toUInt32, Nat.mod_eq_of_lt]
  exact Nat.lt_of_lt_of_le (Nat.mul_lt_mul'' hs hb) (by decide)

theorem Volume.bytesPerCluster_pos : 0 < v.bytesPerCluster := by
  have hs := UInt8.lt_iff_toNat_lt.mp v.sectorsPerCluster_pos
  have hb := UInt16.lt_iff_toNat_lt.mp v.bytesPerSector_pos
  rw [UInt32.lt_iff_toNat_lt, v.bytesPerCluster_toNat]
  exact Nat.mul_pos hs hb

/-- The offsets of the overwrite analysis are far from wrapping. -/
theorem Volume.offsets_fit (size : UInt32) : size.toUInt64.toNat + v.bytesPerCluster.toNat ≤ 2 ^ 64 := by
  have hs := size.toNat_lt
  have hb := v.bytesPerCluster.toNat_lt
  rw [UInt32.toNat_toUInt64]
  omega

theorem validateClusterChain_chain (startCluster size : UInt32) (outputPath : Path) (isExtensionPredicted : Bool)
    (st : AnalysisState) :
    (validateClusterChain v config (startStatus v size) startCluster size outputPath isExtensionPredicted st).1 =
      chainFrom v.getNextCluster (v.expectedClusters size).toNat startCluster := by
  rw [← UInt32.toNat_toUInt64]
  exact validateClusterChain_fst (v.chainContext config) _ _ _ _ _ _ _

/-- The chain does not depend on the analysis, which always returns and leaves the counters alone. -/
theorem validateClusterChain_eq (status : RecoveryStatus) (startCluster expectedSize : UInt32) (outputPath : Path)
    (isExtensionPredicted : Bool) (st : AnalysisState) :
    ∃ status' st', validateClusterChain v config status startCluster expectedSize outputPath isExtensionPredicted st =
        (chainFrom v.getNextCluster status.expectedClusters.toNat startCluster, .ok (status', st')) ∧
      status'.progress = status.progress := by
  obtain ⟨status', st', hok, hprogress⟩ := validateClusterChain_ok (v.chainContext config) v.bytesPerCluster_pos
    (v.offsets_fit expectedSize) status startCluster (v.expectedClusters expectedSize).toUInt64 outputPath.filename
    isExtensionPredicted st
  exact ⟨status', st', Prod.ext (validateClusterChain_fst (v.chainContext config) _ _ _ _ _ _ _) hok, hprogress⟩

def recoveredData (info : FileInfo) : List UInt8 :=
  let expectedSize := info.fileSize.toUInt32
  (copyChain v.readSector v.bytesPerSector.toUInt64 expectedSize.toUInt64 v.sectorsOf
    (chainFrom v.getNextCluster (v.expectedClusters expectedSize).toNat info.cluster) {}).written

section
variable {info : FileInfo} {st : RunState host} (hskip : isSkipped config info = false)
  (hends : renamingEnds st.files info.fullName config.outputFolder = true) (hsize : info.fileSize ≤ 0xFFFFFFFF)
include hskip hends hsize

theorem processFileForRecovery_validated {clusterChain : List UInt32} {status : RecoveryStatus}
    {analysis : AnalysisState}
    (hvalidate : validateClusterChain v config (startStatus v info.fileSize.toUInt32) info.cluster
      info.fileSize.toUInt32 (getOutputPath st.files info.fullName config.outputFolder) false st.analysis =
        (clusterChain, .ok (status, analysis))) :
    processFileForRecovery v config info st =
      let st' := { st with analysis, shown := if config.analyze then st.shown ++ [status] else st.shown }
      if config.recover then
        recoverFile v clusterChain status (getOutputPath st.files info.fullName config.outputFolder)
          info.fileSize.toUInt32 st'
      else (st', none) := by
  unfold processFileForRecovery
  rw [hskip, if_neg Bool.false_ne_true, hends, Bool.not_true, if_neg Bool.false_ne_true,
    if_neg (UInt64.not_lt.mpr hsize)]
  dsimp only
  rw [hvalidate]

variable (hrec : config.recover = true)
include hrec

theorem processFileForRecovery_eq {clusterChain : List UInt32} {status : RecoveryStatus} {analysis : AnalysisState}
    (hvalidate : validateClusterChain v config (startStatus v info.fileSize.toUInt32) info.cluster
      info.fileSize.toUInt32 (getOutputPath st.files info.fullName config.outputFolder) false st.analysis =
        (clusterChain, .ok (status, analysis))) :
    ∃ st', st'.files = st.files ∧ processFileForRecovery v config info st = recoverFile v clusterChain status
      (getOutputPath st.files info.fullName config.outputFolder) info.fileSize.toUInt32 st' := by
  rw [processFileForRecovery_validated v config hskip hends hsize hvalidate]
  dsimp only
  rw [if_pos hrec]
  exact ⟨{ st with analysis, shown := if config.analyze then st.shown ++ [status] else st.shown }, rfl, rfl⟩

/-- A file that is not passed over is written where `getOutputPath` puts it, whatever was
recovered before and whether or not the run analyses. -/
theorem processFileForRecovery_files
    (hcreate : host.canCreate (getOutputPath st.files info.fullName config.outputFolder) = true) :
    (processFileForRecovery v config info st).2 = none ∧
      (processFileForRecovery v config info st).1.files =
        st.files.write (getOutputPath st.files info.fullName config.outputFolder) (.data (recoveredData v info)) := by
  obtain ⟨status, analysis, hvalidate, hprogress⟩ := validateClusterChain_eq v config
    (startStatus v info.fileSize.toUInt32) info.cluster info.fileSize.toUInt32
    (getOutputPath st.files info.fullName config.outputFolder) false st.analysis
  obtain ⟨st', hfiles, hprocess⟩ := processFileForRecovery_eq v config hskip hends hsize hrec hvalidate
  have hcount : (startStatus v info.fileSize.toUInt32).expectedClusters.toNat =
      (v.expectedClusters info.fileSize.toUInt32).toNat := UInt32.toNat_toUInt64 _
  have hcounters : status.recoveredClusters = 0 ∧ status.recoveredBytes = 0 := by
    unfold RecoveryStatus.progress startStatus at hprogress
    simp only [Prod.mk.injEq] at hprogress
    exact hprogress.2
  rw [hprocess, hcount]
  simp only [recoverFile, hcreate, if_true, hcounters.1, hcounters.2, hfiles]
  exact ⟨trivial, rfl⟩

end

end

end DataRecovery.FAT32
