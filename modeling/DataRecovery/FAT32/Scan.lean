import DataRecovery.FAT32.Names

/-!
# The FAT32 directory scan

`scanDirectory`, `processEntriesInSector` and `processDirectoryEntry` call each
other without marking what they have seen. `stack` bounds the number of nested
`scanDirectory` activations; `none` is an overflow of that stack.
-/

namespace DataRecovery.FAT32

structure ScanState where
  fileId : UInt16 := 1
  recoveryList : List FileInfo := []

section
variable (v : Volume) (config : Config) (iswalnum : UInt16 → Bool)

def addToRecoveryList (info : FileInfo) (st : ScanState) : ScanState :=
  if config.recover || config.analyze then { st with recoveryList := st.recoveryList ++ [info] } else st

def processDirectoryEntry (scan : UInt32 → ScanState → Option ScanState) (entry : DirectoryEntry)
    (filename : WString) (st : ScanState) : Option ScanState :=
  let subDirCluster := v.sanitizeCluster entry.startCluster
  if subDirCluster = 0 then some st
  else if entry.isDirectory then scan subDirCluster st
  else if entry.isDeleted then
    let fileInfo := v.parseFileInfo iswalnum st.fileId filename subDirCluster entry.fileSize
    some (addToRecoveryList config fileInfo { st with fileId := st.fileId + 1 })
  else some st

/-- The loop of `processEntriesInSector` over the remaining raw entries. -/
def processEntries (scan : UInt32 → ScanState → Option ScanState) :
    List (List UInt8) → WString → ScanState → Option ScanState
  | [], _, st => some st
  | raw :: rest, longFilename, st =>
    let entry := DirectoryEntry.ofBytes raw
    if entry.firstByte = 0 then some st -- end of directory
    else if entry.isLongName then
      processEntries scan rest (getLongFilename (.ofBytes raw) ++ longFilename) st
    else
      let filename := if longFilename = [] then getShortFilename entry entry.isDeleted else longFilename
      (processDirectoryEntry v config iswalnum scan entry filename st).bind (processEntries scan rest [])

def entryAt (sectorBuffer : List UInt8) (j : Nat) : List UInt8 := slice sectorBuffer (32 * j) 32

def processEntriesInSector (scan : UInt32 → ScanState → Option ScanState) (entriesPerSector : Nat)
    (sectorBuffer : List UInt8) (st : ScanState) : Option ScanState :=
  processEntries v config iswalnum scan ((List.range entriesPerSector).map (entryAt sectorBuffer)) [] st

def Volume.entriesPerSector : Nat := (v.bytesPerSector / 32).toNat

/-- The loop of `scanDirectory` over the sectors of its cluster. -/
def processSectors (scan : UInt32 → ScanState → Option ScanState) : List UInt64 → ScanState → Option ScanState
  | [], st => some st
  | sector :: rest, st =>
    match v.readSector sector with
    | some sectorBuffer =>
      (processEntriesInSector v config iswalnum scan v.entriesPerSector sectorBuffer st).bind
        (processSectors scan rest)
    | none => processSectors scan rest st

def scanDirectory : Nat → UInt32 → ScanState → Option ScanState
  | 0, _, _ => none
  | stack + 1, cluster, st =>
    if !v.isValidCluster cluster then some st
    else
      (processSectors v config iswalnum (scanDirectory stack) (v.sectorsOf cluster) st).bind fun st =>
        let nextCluster := v.getNextCluster cluster
        if v.isValidCluster nextCluster then scanDirectory stack nextCluster st else some st

/-- The scan of the root directory with room for `stack` nested activations. -/
def scanRoot (stack : Nat) (st : ScanState) : Option ScanState :=
  scanDirectory v config iswalnum stack v.driveInfo.rootDirCluster st

end

end DataRecovery.FAT32
