import DataRecovery.Copy
import DataRecovery.Utils
import DataRecovery.NTFS.Record

/-! # Recovering the listed NTFS files -/

namespace DataRecovery.NTFS

/-- Consecutive clusters, each taken once. -/
def chainLoop (startCluster : UInt64) : Nat → UInt64 → List UInt64 → List UInt64
  | 0, _, _ => []
  | count + 1, i, usedClusters =>
    let currentCluster := startCluster + i
    if usedClusters.contains currentCluster then chainLoop startCluster count (i + 1) usedClusters
    else currentCluster :: chainLoop startCluster count (i + 1) (currentCluster :: usedClusters)

def validateClusterChain (info : FileInfo) : List UInt64 := chainLoop info.cluster info.runLength.toNat 0 []

section
variable (v : Volume) (config : Config) {host : Host}

def recoverResidentFile (info : FileInfo) (outputPath : Path) (st : RunState host) : Outcome host :=
  if host.canCreate outputPath then ({ st with files := st.files.write outputPath (.data info.data) }, none)
  else (st, some (.exception "[-] Failed to create output file."))

/-- The status is changed in place: it comes back beside the outcome. -/
def recoverNonResidentFile (clusterChain : List UInt64) (status : RecoveryStatus) (outputPath : Path)
    (expectedSize : UInt64) (st : RunState host) : Outcome host × RecoveryStatus :=
  if host.canCreate outputPath then
    let copied := copyChain v.readSector v.bytesPerSector.toUInt64 expectedSize v.sectorsOf clusterChain
      { recoveredBytes := status.recoveredBytes, recoveredClusters := status.recoveredClusters }
    (({ st with files := st.files.write outputPath (.data copied.written) }, none),
      { status with recoveredBytes := copied.recoveredBytes, recoveredClusters := copied.recoveredClusters })
  else ((st, some (.exception "[-] Failed to create output file.")), status)

def isSkipped (info : FileInfo) : Bool :=
  info.fileSize = 0 ||
    config.targetCluster != 0 && config.targetFileSize != 0 &&
      (info.cluster != config.targetCluster.toUInt64 || info.fileSize != config.targetFileSize.toUInt64)

def expectedClusters (expectedSize : UInt64) : UInt64 :=
  (expectedSize + v.driveInfo.bytesPerCluster.toUInt64 - 1) / v.driveInfo.bytesPerCluster.toUInt64

def processFileForRecovery (info : FileInfo) (st : RunState host) : Outcome host :=
  if isSkipped config info then (st, none)
  else if !renamingEnds st.files info.fileName config.outputFolder then (st, some .undefined)
  else
    let outputPath := getOutputPath st.files info.fileName config.outputFolder
    let expectedSize := info.fileSize
    if v.driveInfo.bytesPerCluster = 0 then (st, some .undefined)
    else
      let status : RecoveryStatus := { expectedClusters := expectedClusters v expectedSize }
      if config.recover then
        if info.nonResident then
          (recoverNonResidentFile v (validateClusterChain info) status outputPath expectedSize st).1
        else recoverResidentFile info outputPath st
      else (st, none)

def recoverPartition (selection : Selection) (recoveryList : List FileInfo) (st : RunState host) : Outcome host :=
  if recoveryList = [] then (st, none)
  else
    match selectedFiles config FileInfo.fileId selection recoveryList with
    | none => (st, some (.exit 0))
    | some selectedDeletedFiles => processAll (processFileForRecovery v config) selectedDeletedFiles st

end

end DataRecovery.NTFS
