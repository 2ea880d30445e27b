import DataRecovery.Chain
import DataRecovery.Chunks
import DataRecovery.Copy
import DataRecovery.Utils
import DataRecovery.ExFAT.Scan

/-! # Recovering the listed exFAT files -/

namespace DataRecovery.ExFAT

namespace Volume
variable (v : Volume)

def bytesPerCluster : UInt64 := v.sectorsPerCluster.toUInt64 * v.bytesPerSector.toUInt64

def expectedClusters (expectedSize : UInt64) : UInt64 :=
  (expectedSize + v.bytesPerCluster - 1) / v.bytesPerCluster

/-- `analyzeClusterOverwrites` multiplies in 32 bits. -/
def analysisBytesPerCluster : UInt32 := v.sectorsPerCluster * v.bytesPerSector

def overwriteClusters (expectedSize : UInt64) : UInt64 :=
  (expectedSize + v.analysisBytesPerCluster.toUInt64 - 1) / v.analysisBytesPerCluster.toUInt64

theorem bytesPerCluster_toNat : v.bytesPerCluster.toNat = v.sectorsPerCluster.toNat * v.bytesPerSector.toNat := by
  have hlt := Nat.mul_lt_mul'' v.sectorsPerCluster.toNat_lt v.bytesPerSector.toNat_lt
  unfold bytesPerCluster
  rw [UInt64.toNat_mul, UInt32.toNat_toUInt64, UInt32.toNat_toUInt64]
  exact Nat.mod_eq_of_lt (Nat.lt_of_lt_of_le hlt (by decide))

/-- Both sizes are powers of two, so the 32-bit product is the right one or 0. -/
theorem analysisBytesPerCluster_toNat (h : v.analysisBytesPerCluster ≠ 0) :
    v.analysisBytesPerCluster.toNat = v.bytesPerCluster.toNat := by
  have hprod : v.analysisBytesPerCluster.toNat = v.sectorsPerCluster.toNat * v.bytesPerSector.toNat % 2 ^ 32 :=
    UInt32.toNat_mul _ _
  have hlt : v.sectorsPerCluster.toNat * v.bytesPerSector.toNat < 2 ^ 32 := by
    rw [v.sectorsPerCluster_toNat, v.bytesPerSector_toNat, ← Nat.pow_add] at hprod ⊢
    refine Nat.pow_lt_pow_right (by decide) (Nat.lt_of_not_le fun hle => h ?_)
    rw [Nat.mod_eq_zero_of_dvd (Nat.pow_dvd_pow 2 hle)] at hprod
    exact UInt32.toNat_inj.mp hprod
  rw [hprod, Nat.mod_eq_of_lt hlt, v.bytesPerCluster_toNat]

theorem analysisBytesPerCluster_dvd (h : v.analysisBytesPerCluster ≠ 0) : v.analysisBytesPerCluster.toNat ∣ 2 ^ 64 := by
  have hprod : v.analysisBytesPerCluster.toNat =
      2 ^ (v.bootSector.sectorsPerClusterShift.toNat + v.bootSector.bytesPerSectorShift.toNat) % 2 ^ 32 := by
    rw [Nat.pow_add, ← v.sectorsPerCluster_toNat, ← v.bytesPerSector_toNat]
    exact UInt32.toNat_mul _ _
  rcases Nat.lt_or_ge (v.bootSector.sectorsPerClusterShift.toNat + v.bootSector.bytesPerSectorShift.toNat) 32 with
    hshift | hshift
  · rw [hprod, Nat.mod_eq_of_lt (Nat.pow_lt_pow_right (by decide) hshift)]
    exact Nat.pow_dvd_pow 2 (by omega)
  · rw [Nat.mod_eq_zero_of_dvd (Nat.pow_dvd_pow 2 hshift)] at hprod
    exact absurd (UInt32.toNat_inj.mp hprod) h

theorem expectedClusters_wrapped (hpos : 0 < v.bytesPerCluster.toNat) (size : UInt64) :
    (v.expectedClusters size).toNat =
      if size.toNat + v.bytesPerCluster.toNat ≤ 2 ^ 64 then
        (size.toNat + v.bytesPerCluster.toNat - 1) / v.bytesPerCluster.toNat
      else 0 := by
  have h := wrapped_ceil size.toNat_lt v.bytesPerCluster.toNat_lt hpos
  unfold expectedClusters
  rw [UInt64.toNat_div, UInt64.toNat_sub, UInt64.toNat_add, ← h]
  rfl

def chainContext (config : Config) : ChainContext where
  getNextCluster := v.getNextCluster
  isValidCluster := v.isValidCluster
  analyze := config.analyze
  bytesPerCluster := v.analysisBytesPerCluster

end Volume

section
variable (v : Volume) (config : Config) {host : Host}

def analyzeClusterOverwrites (startCluster : UInt32) (expectedSize : UInt64) (st : AnalysisState) :
    Except Abort (OverwriteAnalysis × AnalysisState) :=
  DataRecovery.analyzeClusterOverwrites v.getNextCluster v.analysisBytesPerCluster (v.overwriteClusters expectedSize)
    startCluster expectedSize st

def validateClusterChain (status : RecoveryStatus) (startCluster : UInt32) (expectedSize : UInt64)
    (outputPath : Path) (isExtensionPredicted : Bool) (st : AnalysisState) :
    List UInt32 × Except Abort (RecoveryStatus × AnalysisState) :=
  DataRecovery.validateClusterChain (v.chainContext config) status startCluster expectedSize
    (v.overwriteClusters expectedSize) outputPath.filename isExtensionPredicted st

def recoverFile (clusterChain : List UInt32) (status : RecoveryStatus) (outputPath : Path) (expectedSize : UInt64)
    (st : RunState host) : Outcome host :=
  if host.canCreate outputPath then
    let copied := copyChain v.readSector v.bytesPerSector.toUInt64 expectedSize v.sectorsOf clusterChain
      { recoveredBytes := status.recoveredBytes, recoveredClusters := status.recoveredClusters }
    let status :=
      { status with recoveredBytes := copied.recoveredBytes, recoveredClusters := copied.recoveredClusters }
    ({ st with files := st.files.write outputPath (.data copied.written), shown := st.shown ++ [status] }, none)
  else (st, some (.exception "[-] Failed to create output file."))

def isSkipped (info : FileInfo) : Bool :=
  info.fileSize = 0 ||
    config.targetCluster != 0 && config.targetFileSize != 0 &&
      (info.cluster != config.targetCluster || info.fileSize != config.targetFileSize.toUInt64)

def startStatus (expectedSize : UInt64) : RecoveryStatus := { expectedClusters := v.expectedClusters expectedSize }

def processFileForRecovery (info : FileInfo) (st : RunState host) : Outcome host :=
  if isSkipped config info then (st, none)
  else if !renamingEnds st.files info.fileName config.outputFolder then (st, some .undefined)
  else
    let outputPath := getOutputPath st.files info.fileName config.outputFolder
    let expectedSize := info.fileSize
    match validateClusterChain v config (startStatus v expectedSize) info.cluster expectedSize outputPath false
      st.analysis with
    | (_, .error abort) => (st, some abort)
    | (clusterChain, .ok (status, analysis)) =>
      let st := { st with analysis, shown := if config.analyze then st.shown ++ [status] else st.shown }
      if config.recover then recoverFile v clusterChain status outputPath expectedSize st else (st, none)

def recoverPartition (selection : Selection) (recoveryList : List FileInfo) (st : RunState host) : Outcome host :=
  if recoveryList = [] then (st, none)
  else
    match selectedFiles config FileInfo.fileId selection recoveryList with
    | none => (st, some (.exit 0))
    | some selectedDeletedFiles => processAll (processFileForRecovery v config) selectedDeletedFiles st

def recoveredData (info : FileInfo) : List UInt8 :=
  (copyChain v.readSector v.bytesPerSector.toUInt64 info.fileSize v.sectorsOf
    (chainFrom v.getNextCluster (v.expectedClusters info.fileSize).toNat info.cluster) {}).written

theorem validateClusterChain_chain (startCluster : UInt32) (size : UInt64) (outputPath : Path)
    (isExtensionPredicted : Bool) (st : AnalysisState) :
    (validateClusterChain v config (startStatus v size) startCluster size outputPath isExtensionPredicted st).1 =
      chainFrom v.getNextCluster (v.expectedClusters size).toNat startCluster :=
  validateClusterChain_fst (v.chainContext config) _ _ _ _ _ _ _

/-- Without the analysis, which may not return. -/
theorem validateClusterChain_plain_eq (hanalyze : config.analyze = false) (status : RecoveryStatus)
    (startCluster : UInt32) (expectedSize : UInt64) (outputPath : Path) (isExtensionPredicted : Bool)
    (st : AnalysisState) :
    ∃ status', validateClusterChain v config status startCluster expectedSize outputPath isExtensionPredicted st =
        (chainFrom v.getNextCluster status.expectedClusters.toNat startCluster, .ok (status', st)) ∧
      status'.progress = status.progress := by
  obtain ⟨status', hok, hprogress⟩ := validateClusterChain_plain (v.chainContext config) hanalyze status startCluster
    expectedSize (v.overwriteClusters expectedSize) outputPath.filename isExtensionPredicted st
  exact ⟨status', Prod.ext (validateClusterChain_fst (v.chainContext config) _ _ _ _ _ _ _) hok, hprogress⟩

section
variable {info : FileInfo} {st : RunState host} (hskip : isSkipped config info = false)
  (hends : renamingEnds st.files info.fileName config.outputFolder = true)
include hskip hends

theorem processFileForRecovery_eq (hrec : config.recover = true) {clusterChain : List UInt32} {status : RecoveryStatus}
    {analysis : AnalysisState}
    (hvalidate : validateClusterChain v config (startStatus v info.fileSize) info.cluster info.fileSize
      (getOutputPath st.files info.fileName config.outputFolder) false st.analysis =
        (clusterChain, .ok (status, analysis))) :
    ∃ st', st'.files = st.files ∧ processFileForRecovery v config info st = recoverFile v clusterChain status
      (getOutputPath st.files info.fileName config.outputFolder) info.fileSize st' := by
  unfold processFileForRecovery
  rw [hskip, if_neg Bool.false_ne_true, hends, Bool.not_true, if_neg Bool.false_ne_true]
  dsimp only
  rw [hvalidate]
  simp only [hrec, if_true]
  exact ⟨{ st with analysis, shown := if config.analyze then st.shown ++ [status] else st.shown }, rfl, rfl⟩

/-- When the analysis does not return, neither does the run. -/
theorem processFileForRecovery_abort {clusterChain : List UInt32} {abort : Abort}
    (hvalidate : validateClusterChain v config (startStatus v info.fileSize) info.cluster info.fileSize
      (getOutputPath st.files info.fileName config.outputFolder) false st.analysis = (clusterChain, .error abort)) :
    processFileForRecovery v config info st = (st, some abort) := by
  unfold processFileForRecovery
  rw [hskip, if_neg Bool.false_ne_true, hends, Bool.not_true, if_neg Bool.false_ne_true]
  dsimp only
  rw [hvalidate]

/-- Without the analysis, a file that is not passed over is written where `getOutputPath` puts it. -/
theorem processFileForRecovery_files (hrec : config.recover = true) (hanalyze : config.analyze = false)
    (hcreate : host.canCreate (getOutputPath st.files info.fileName config.outputFolder) = true) :
    (processFileForRecovery v config info st).2 = none ∧
      (processFileForRecovery v config info st).1.files =
        st.files.write (getOutputPath st.files info.fileName config.outputFolder) (.data (recoveredData v info)) := by
  obtain ⟨status, hvalidate, hprogress⟩ := validateClusterChain_plain_eq v config hanalyze
    (startStatus v info.fileSize) info.cluster info.fileSize
    (getOutputPath st.files info.fileName config.outputFolder) false st.analysis
  obtain ⟨st', hfiles, hprocess⟩ := processFileForRecovery_eq v config hskip hends hrec hvalidate
  have hcounters : status.recoveredClusters = 0 ∧ status.recoveredBytes = 0 := by
    unfold RecoveryStatus.progress startStatus at hprogress
    simp only [Prod.mk.injEq] at hprogress
    exact hprogress.2
  rw [hprocess]
  simp only [recoverFile, hcreate, if_true, hcounters.1, hcounters.2, hfiles]
  exact ⟨trivial, rfl⟩

end

end

end DataRecovery.ExFAT
