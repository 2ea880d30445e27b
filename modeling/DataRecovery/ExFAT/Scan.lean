import DataRecovery.ExFAT.Volume

/-!
# The exFAT directory scan

`finalizeDirectoryEntry` and the FAT chain both lead back into `scanDirectory`.
`stack` bounds the number of nested activations; `none` is an overflow of it.
-/

namespace DataRecovery.ExFAT

def MAX_RECURSION_DEPTH : UInt32 := 100

/-- The member starts at 0 and no statement assigns it. -/
def currentRecursionDepth : UInt32 := 0

/-! ## Entries -/

def isDirectoryEntry (entryType : UInt8) : Bool := entryType &&& 0x7F == 0x05
def isStreamExtensionEntry (entryType : UInt8) : Bool := entryType &&& 0x7F == 0x40
def isFileNameEntry (entryType : UInt8) : Bool := entryType &&& 0x7F == 0x41
def isEntryInUse (entryType : UInt8) : Bool := entryType &&& 0x80 != 0

structure FileInfo where
  fileId : UInt16
  fileName : WString
  fileSize : UInt64
  cluster : UInt32
  deriving DecidableEq

structure DirEntryData where
  longFilename : WString := []
  startingCluster : UInt32 := 0
  fileSize : UInt64 := 0
  inFileEntry : Bool := false
  isDirectory : Bool := false
  isDeleted : Bool := false
  deriving DecidableEq

def extractFileName (raw : List UInt8) : WString :=
  ((List.range 15).map fun i => le16 raw (2 + 2 * i)).takeWhile (· != 0)

def entryType (raw : List UInt8) : UInt8 := raw.getD 0 0

def processDirectoryEntry (raw : List UInt8) (dirData : DirEntryData) : DirEntryData :=
  if !isEntryInUse (entryType raw) then
    let dirData := { dirData with isDeleted := true }
    if isFileNameEntry (entryType raw) then
      { dirData with longFilename := dirData.longFilename ++ extractFileName raw, inFileEntry := true }
    else if isStreamExtensionEntry (entryType raw) then
      { dirData with startingCluster := le32 raw 20, fileSize := le64 raw 24 }
    else if isDirectoryEntry (entryType raw) then
      { dirData with isDirectory := le16 raw 4 &&& 0x10 != 0 }
    else dirData
  else dirData

structure ScanState where
  fileId : UInt16 := 1
  recoveryList : List FileInfo := []

def entryAt (sectorBuffer : List UInt8) (j : Nat) : List UInt8 := slice sectorBuffer (32 * j) 32

section
variable (v : Volume) (config : Config)

def parseFileInfo (fileId : UInt16) (dirData : DirEntryData) : FileInfo where
  fileId := fileId
  fileName := dirData.longFilename
  fileSize := dirData.fileSize
  cluster := dirData.startingCluster

def addToRecoveryList (info : FileInfo) (st : ScanState) : ScanState :=
  if config.recover || config.analyze then { st with recoveryList := st.recoveryList ++ [info] } else st

def accepted (dirData : DirEntryData) : Bool :=
  dirData.inFileEntry && dirData.longFilename != [] && 0 < dirData.startingCluster &&
    v.isValidDeletedEntry dirData.startingCluster dirData.fileSize

/-- `finalizeDirectoryEntry`; its caller goes on with empty entry data. -/
def finalizeDirectoryEntry (scan : UInt32 → UInt32 → ScanState → Option ScanState) (dirData : DirEntryData)
    (st : ScanState) : Option ScanState :=
  if accepted v dirData then
    if dirData.isDirectory then scan dirData.startingCluster (currentRecursionDepth + 1) st
    else if dirData.isDeleted then
      some (addToRecoveryList config (parseFileInfo st.fileId dirData) { st with fileId := st.fileId + 1 })
    else some st
  else some st

/-- The loop of `processEntriesInSector` over the remaining raw entries. -/
def processEntries (scan : UInt32 → UInt32 → ScanState → Option ScanState) :
    List (List UInt8) → DirEntryData → ScanState → Option ScanState
  | [], dirData, st =>
    if dirData.inFileEntry then finalizeDirectoryEntry v config scan dirData st else some st
  | raw :: rest, dirData, st =>
    if isDirectoryEntry (entryType raw) && dirData.inFileEntry then
      (finalizeDirectoryEntry v config scan dirData st).bind
        (processEntries scan rest (processDirectoryEntry raw {}))
    else processEntries scan rest (processDirectoryEntry raw dirData) st

def processEntriesInSector (scan : UInt32 → UInt32 → ScanState → Option ScanState) (entriesPerSector : Nat)
    (sectorBuffer : List UInt8) (st : ScanState) : Option ScanState :=
  processEntries v config scan ((List.range entriesPerSector).map (entryAt sectorBuffer)) {} st

def Volume.entriesPerSector : Nat := (v.bytesPerSector / 32).toNat

def Volume.maxSectorCount : UInt64 := v.bootSector.clusterCount.toUInt64 * v.sectorsPerCluster.toUInt64

/-- The loop of `scanDirectory` over the sectors of its cluster. -/
def processSectors (scan : UInt32 → UInt32 → ScanState → Option ScanState) :
    List UInt64 → ScanState → Option ScanState
  | [], st => some st
  | currentSector :: rest, st =>
    if v.maxSectorCount ≤ currentSector then processSectors scan rest st
    else
      match v.readSector currentSector with
      | some sectorBuffer =>
        (processEntriesInSector v config scan v.entriesPerSector sectorBuffer st).bind (processSectors scan rest)
      | none => processSectors scan rest st

/-- Beyond the depth limit the activation throws and catches its own exception. -/
def scanDirectory : Nat → UInt32 → UInt32 → ScanState → Option ScanState
  | 0, _, _, _ => none
  | stack + 1, cluster, depth, st =>
    if MAX_RECURSION_DEPTH ≤ depth then some st
    else if !v.isValidCluster cluster then some st
    else
      (processSectors v config (scanDirectory stack) (v.sectorsOf cluster) st).bind fun st =>
        let nextCluster := v.getNextCluster cluster
        if v.isValidCluster nextCluster && nextCluster != cluster then
          scanDirectory stack nextCluster (depth + 1) st
        else some st

def scanRoot (stack : Nat) (st : ScanState) : Option ScanState :=
  scanDirectory v config stack v.bootSector.rootDirectoryCluster 0 st

end

end DataRecovery.ExFAT
