import DataRecovery.FileIds
import DataRecovery.Journal

/-!
# What a scan writes to the log

The engines log a file right after they have listed it. Whether it is listed depends on the
options, whether it is logged does not: a scan without `--recover` and `--analyze` logs the
files that a scan with them would list. What the stream of the log makes of a text, and
when it stops taking any, is left open.
-/

namespace DataRecovery

open Traversal

/-- The stream of the log file: whether it is good, and what it becomes with a text. -/
structure LogStream (τ : Type) where
  good : τ → Bool
  write : τ → WString → τ

section
variable {τ : Type} (config : Config) (stream : LogStream τ)

def writeToLogFile (fileId : UInt16) (fileName : WString) (fileSize : UInt64) (logFile : τ) : τ :=
  if stream.good logFile then
    stream.write logFile (wide "#" ++ toWString fileId.toNat ++ wide " Filename: \"" ++ fileName ++ wide "\" (" ++
      toWString fileSize.toNat ++ wide " bytes)\n")
  else logFile

def logFileInfo (fileId : UInt16) (fileName : WString) (fileSize : UInt64) (logFile : τ) : τ :=
  if config.createFileDataLog then writeToLogFile stream fileId fileName fileSize logFile else logFile

end

def Config.recovering (config : Config) : Config := { config with recover := true }

/-! ## FAT32 -/

namespace FAT32
variable (v : Volume) (config : Config) (iswalnum : UInt16 → Bool) {τ : Type} (stream : LogStream τ)

/-- The log has the name without its extension. -/
def logListed (logFile : τ) (info : FileInfo) : τ :=
  logFileInfo config stream info.fileId info.fileName info.fileSize logFile

def numberedFile (fileId : UInt16) (f : Found) : FileInfo := v.parseFileInfo iswalnum fileId f.filename f.cluster f.size

def logFound (f : Found) (st : ScanState) (logFile : τ) : τ :=
  logListed config stream logFile (numberedFile v iswalnum st.fileId f)

def loggedScan (stack : Nat) (logFile : τ) : Option (ScanState × τ) :=
  run (actions v) (journalled (record v config iswalnum) (logFound v config iswalnum stream)) stack
    v.driveInfo.rootDirCluster ({}, logFile)

theorem loggedScan_scan (stack : Nat) (logFile : τ) :
    (loggedScan v config iswalnum stream stack logFile).map Prod.fst = scanRoot v config iswalnum stack {} := by
  unfold loggedScan scanRoot
  rw [run_journalled_fst, scanDirectory_eq_run]

theorem fileId_record (f : Found) (st : ScanState) : (record v config iswalnum f st).fileId = st.fileId + 1 := by
  unfold record addToRecoveryList
  split <;> rfl

theorem recoveryList_eq (hlist : (config.recover || config.analyze) = true) (es : List Found) (st : ScanState) :
    (es.foldl (fun st f => record v config iswalnum f st) st).recoveryList =
      st.recoveryList ++ numberedItems (· + 1) (numberedFile v iswalnum) st.fileId es := by
  refine foldl_numberedItems (fileId_record v config iswalnum) (fun f st => ?_) es st
  unfold record addToRecoveryList
  rw [if_pos hlist]
  rfl

theorem log_foldl (es : List Found) (s : ScanState × τ) :
    (es.foldl (fun s f => journalled (record v config iswalnum) (logFound v config iswalnum stream) f s) s).2 =
      (numberedItems (· + 1) (numberedFile v iswalnum) s.1.fileId es).foldl (logListed config stream) s.2 :=
  foldl_journalled_snd _ _ (fileId_record v config iswalnum) (fun _ _ _ => rfl) es s

theorem loggedScan_log (stack : Nat) (logFile : τ) :
    (loggedScan v config iswalnum stream stack logFile).map Prod.snd =
      (scanRoot v config.recovering iswalnum stack {}).map fun st =>
        st.recoveryList.foldl (logListed config stream) logFile := by
  unfold loggedScan scanRoot
  rw [scanDirectory_eq_run]
  by_cases h : Shallow (actions v) stack v.driveInfo.rootDirCluster
  · rw [run_some h, run_some h, Option.map_some, Option.map_some, log_foldl,
      recoveryList_eq v config.recovering iswalnum rfl, List.nil_append]
  · rw [run_none h, run_none h, Option.map_none, Option.map_none]

end FAT32

/-! ## exFAT -/

namespace ExFAT
variable (v : Volume) (config : Config) {τ : Type} (stream : LogStream τ)

def logListed (logFile : τ) (info : FileInfo) : τ :=
  logFileInfo config stream info.fileId info.fileName info.fileSize logFile

def logFound (d : DirEntryData) (st : ScanState) (logFile : τ) : τ :=
  logListed config stream logFile (parseFileInfo st.fileId d)

/-- The scan of the root directory, logging each file found. -/
def loggedScan (stack : Nat) (logFile : τ) : Option (ScanState × τ) :=
  run (actions v) (journalled (record config) (logFound config stream)) stack (v.bootSector.rootDirectoryCluster, 0)
    ({}, logFile)

theorem loggedScan_scan (stack : Nat) (logFile : τ) :
    (loggedScan v config stream stack logFile).map Prod.fst = scanRoot v config stack {} := by
  unfold loggedScan scanRoot
  rw [run_journalled_fst, scanDirectory_eq_run]

theorem fileId_record (d : DirEntryData) (st : ScanState) : (record config d st).fileId = st.fileId + 1 := by
  unfold record addToRecoveryList
  split <;> rfl

theorem recoveryList_eq (hlist : (config.recover || config.analyze) = true) (es : List DirEntryData) (st : ScanState) :
    (es.foldl (fun st d => record config d st) st).recoveryList =
      st.recoveryList ++ numberedItems (· + 1) parseFileInfo st.fileId es := by
  refine foldl_numberedItems (fileId_record config) (fun d st => ?_) es st
  unfold record addToRecoveryList
  rw [if_pos hlist]

theorem log_foldl (es : List DirEntryData) (s : ScanState × τ) :
    (es.foldl (fun s d => journalled (record config) (logFound config stream) d s) s).2 =
      (numberedItems (· + 1) parseFileInfo s.1.fileId es).foldl (logListed config stream) s.2 :=
  foldl_journalled_snd _ _ (fileId_record config) (fun _ _ _ => rfl) es s

theorem loggedScan_log (stack : Nat) (logFile : τ) : (loggedScan v config stream stack logFile).map Prod.snd =
    (scanRoot v config.recovering stack {}).map fun st =>
      st.recoveryList.foldl (logListed config stream) logFile := by
  unfold loggedScan scanRoot
  rw [scanDirectory_eq_run]
  by_cases h : Shallow (actions v) stack (v.bootSector.rootDirectoryCluster, 0)
  · rw [run_some h, run_some h, Option.map_some, Option.map_some, log_foldl, recoveryList_eq config.recovering rfl,
      List.nil_append]
  · rw [run_none h, run_none h, Option.map_none, Option.map_none]

end ExFAT

/-! ## NTFS -/

namespace NTFS
variable (v : Volume) (drive : DriveInfo) (b : ByteMap) (rounds : Nat) (config : Config) {τ : Type}
  (stream : LogStream τ)

def logListed (logFile : τ) (info : FileInfo) : τ :=
  logFileInfo config stream info.fileId info.fileName info.fileSize logFile

def finishLogged (p : Progress) (st : ScanState) (logFile : τ) : ScanState × τ :=
  if !p.hasFileName && !p.hasData then (st, logFile)
  else if validateFileInfo p.fileInfo then (addToRecoveryList p.fileInfo st, logListed config stream logFile p.fileInfo)
  else (st, logFile)

def processLogged (st : ScanState) (logFile : τ) : Except Fault (ScanState × τ) := do
  let signature ← readU32 b 0
  if signature ≠ FILE_SIGNATURE then .ok (st, logFile)
  else do
    let flags ← readU16 b 22
    if flags &&& 1 ≠ 0 then .ok (st, logFile) -- in use
    else do
      let attributeOffset ← readU16 b 20
      let p ← processAttribute drive b st.fileId rounds attributeOffset.toUInt32 {}
      return finishLogged config stream p st logFile

def loggedRecords (mftSector : UInt64) (sectorsPerMftRecord : UInt32) :
    Nat → UInt64 → List UInt8 → ScanState → τ → Except Fault (ScanState × τ)
  | 0, _, _, st, logFile => .ok (st, logFile)
  | count + 1, recordIndex, mftBuffer, st, logFile => do
    let currentSector := mftSector + recordIndex * sectorsPerMftRecord.toUInt64
    let (complete, mftBuffer) ← readMftRecord v sectorsPerMftRecord currentSector mftBuffer
    let (st, logFile) ←
      if complete then processLogged v.driveInfo (ofBuffer mftBuffer) rounds config stream st logFile else .ok (st, logFile)
    loggedRecords mftSector sectorsPerMftRecord count (recordIndex + 1) mftBuffer st logFile

def loggedScan (logFile : τ) : Except Fault (ScanState × τ) :=
  let mftSector := v.clusterToSector v.driveInfo.bootSector.mftCluster
  if !v.isValidSector mftSector then .ok ({}, logFile)
  else do
    let sectorsPerMftRecord ← getSectorsPerMftRecord v
    loggedRecords v rounds config stream mftSector sectorsPerMftRecord v.device.getTotalMftRecords.toNat 0
      (List.replicate v.driveInfo.mftRecordSize.toNat 0) {} logFile

def withLog (logFile : τ) (st : ScanState) : ScanState × τ := (st, st.recoveryList.foldl (logListed config stream) logFile)

theorem finishLogged_eq (logFile : τ) (p : Progress) (st : ScanState) :
    finishLogged config stream p st (withLog config stream logFile st).2 =
      withLog config stream logFile (finishRecord p st) := by
  unfold finishLogged finishRecord
  split
  · rfl
  · split
    · unfold withLog addToRecoveryList
      rw [List.foldl_append, List.foldl_cons, List.foldl_nil]
    · rfl

theorem processLogged_eq (logFile : τ) (st : ScanState) :
    processLogged drive b rounds config stream st (withLog config stream logFile st).2 =
      withLog config stream logFile <$> processMftRecord drive b rounds st := by
  unfold processLogged processMftRecord
  rw [map_bind]
  congr 1 with signature
  split
  · rfl
  · rw [map_bind]
    congr 1 with flags
    split
    · rfl
    · rw [map_bind]
      congr 1 with attributeOffset
      rw [map_bind]
      congr 1 with p
      rw [finishLogged_eq, map_pure]

theorem loggedRecords_eq {mftSector : UInt64} {sectorsPerMftRecord : UInt32} (logFile : τ) :
    ∀ (count : Nat) (recordIndex : UInt64) (mftBuffer : List UInt8) (st : ScanState),
      loggedRecords v rounds config stream mftSector sectorsPerMftRecord count recordIndex mftBuffer st
          (withLog config stream logFile st).2 =
        withLog config stream logFile <$>
          scanRecords v rounds mftSector sectorsPerMftRecord count recordIndex mftBuffer st
  | 0, _, _, _ => rfl
  | count + 1, recordIndex, mftBuffer, st => by
    unfold loggedRecords scanRecords
    dsimp only
    rw [map_bind]
    congr 1 with read
    obtain ⟨complete, mftBuffer⟩ := read
    cases complete with
    | false => exact loggedRecords_eq logFile count (recordIndex + 1) mftBuffer st
    | true =>
      dsimp only
      rw [if_pos rfl, if_pos rfl, processLogged_eq, map_bind]
      cases processMftRecord v.driveInfo (ofBuffer mftBuffer) rounds st with
      | error fault => rfl
      | ok after => exact loggedRecords_eq logFile count (recordIndex + 1) mftBuffer after

theorem loggedScan_eq (logFile : τ) :
    loggedScan v rounds config stream logFile = withLog config stream logFile <$> scanMFT v rounds {} := by
  unfold loggedScan scanMFT
  dsimp only
  split
  · rfl
  · rw [map_bind]
    congr 1 with sectorsPerMftRecord
    exact loggedRecords_eq v rounds config stream logFile _ 0 _ {}

end NTFS

/-- Whatever the options, a scan lists what it would without its log, and the log gets the
files that a recovering scan lists, each once and in its order. -/
theorem scans_logged {τ : Type} (stream : LogStream τ) (config : Config) (logFile : τ) :
    (∀ (v : FAT32.Volume) (iswalnum : UInt16 → Bool) (stack : Nat),
      (FAT32.loggedScan v config iswalnum stream stack logFile).map Prod.fst =
        FAT32.scanRoot v config iswalnum stack {} ∧
      (FAT32.loggedScan v config iswalnum stream stack logFile).map Prod.snd =
        (FAT32.scanRoot v config.recovering iswalnum stack {}).map fun st =>
          st.recoveryList.foldl (FAT32.logListed config stream) logFile) ∧
    (∀ (v : ExFAT.Volume) (stack : Nat),
      (ExFAT.loggedScan v config stream stack logFile).map Prod.fst = ExFAT.scanRoot v config stack {} ∧
      (ExFAT.loggedScan v config stream stack logFile).map Prod.snd =
        (ExFAT.scanRoot v config.recovering stack {}).map fun st =>
          st.recoveryList.foldl (ExFAT.logListed config stream) logFile) ∧
    (∀ (v : NTFS.Volume) (rounds : Nat), NTFS.loggedScan v rounds config stream logFile =
      (NTFS.scanMFT v rounds {}).map fun st => (st, st.recoveryList.foldl (NTFS.logListed config stream) logFile)) :=
  ⟨fun v iswalnum stack => ⟨FAT32.loggedScan_scan v config iswalnum stream stack logFile,
      FAT32.loggedScan_log v config iswalnum stream stack logFile⟩,
    fun v stack => ⟨ExFAT.loggedScan_scan v config stream stack logFile,
      ExFAT.loggedScan_log v config stream stack logFile⟩,
    fun v rounds => NTFS.loggedScan_eq v rounds config stream logFile⟩

end DataRecovery
