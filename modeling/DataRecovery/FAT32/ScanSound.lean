import DataRecovery.Traversal
import DataRecovery.FAT32.Scan

/-!
# What the FAT32 scan visits and lists

The scan is a traversal whose nodes are clusters: what an activation does is read
off the drive alone (`actions`), and `scanDirectory` executes it
(`scanDirectory_eq_run`). Termination, the clusters visited and the files listed
then follow from the general facts about traversals.
-/

namespace DataRecovery.FAT32

open Traversal

structure Found where
  filename : WString
  cluster : UInt32
  size : UInt32

section
variable (v : Volume)

def directoryEntryActions (e : DirectoryEntry) (filename : WString) : List (Action UInt32 Found) :=
  if v.isValidCluster e.startCluster then
    if e.isDirectory then [.call e.startCluster]
    else if e.isDeleted then [.emit ⟨filename, e.startCluster, e.fileSize⟩]
    else []
  else []

def entryActions : List (List UInt8) → WString → List (Action UInt32 Found)
  | [], _ => []
  | raw :: rest, longFilename =>
    let e := DirectoryEntry.ofBytes raw
    if e.firstByte = 0 then []
    else if e.isLongName then entryActions rest (getLongFilename (.ofBytes raw) ++ longFilename)
    else
      directoryEntryActions v e (if longFilename = [] then getShortFilename e e.isDeleted else longFilename) ++
        entryActions rest []

def rawEntries (sectorBuffer : List UInt8) : List (List UInt8) :=
  (List.range v.entriesPerSector).map (entryAt sectorBuffer)

def sectorActions (sector : UInt64) : List (Action UInt32 Found) :=
  match v.readSector sector with
  | some sectorBuffer => entryActions v (rawEntries v sectorBuffer) []
  | none => []

def nextActions (c : UInt32) : List (Action UInt32 Found) :=
  if v.isValidCluster (v.getNextCluster c) then [.call (v.getNextCluster c)] else []

def actions (c : UInt32) : List (Action UInt32 Found) :=
  if v.isValidCluster c then (v.sectorsOf c).flatMap (sectorActions v) ++ nextActions v c else []

end

section
variable (v : Volume) (config : Config) (iswalnum : UInt16 → Bool)

def record (f : Found) (st : ScanState) : ScanState :=
  addToRecoveryList config (v.parseFileInfo iswalnum st.fileId f.filename f.cluster f.size)
    { st with fileId := st.fileId + 1 }

theorem processDirectoryEntry_eq (scan : UInt32 → ScanState → Option ScanState) (e : DirectoryEntry)
    (filename : WString) (st : ScanState) :
    processDirectoryEntry v config iswalnum scan e filename st =
      runActions scan (record v config iswalnum) (directoryEntryActions v e filename) st := by
  unfold processDirectoryEntry directoryEntryActions
  simp only [Volume.sanitizeCluster_eq]
  by_cases hv : v.isValidCluster e.startCluster = true
  · have h0 : e.startCluster ≠ 0 := by
      intro h
      have := (v.isValidCluster_iff.mp hv).1
      rw [h] at this; exact absurd this (by decide)
    by_cases hd : e.isDirectory = true
    · simp [hv, h0, hd, runActions]
    · by_cases hx : e.isDeleted = true
      · simp [hv, h0, hd, hx, runActions, record]
      · simp [hv, h0, hd, hx, runActions]
  · simp [hv, runActions]

theorem processEntries_eq (scan : UInt32 → ScanState → Option ScanState) :
    ∀ (raws : List (List UInt8)) (longFilename : WString) (st : ScanState),
      processEntries v config iswalnum scan raws longFilename st =
        runActions scan (record v config iswalnum) (entryActions v raws longFilename) st
  | [], _, _ => rfl
  | raw :: rest, lf, st => by
    simp only [processEntries, entryActions]
    split
    · rfl
    · split
      · exact processEntries_eq scan rest _ st
      · rw [runActions_append, processDirectoryEntry_eq]
        congr 1; funext st'
        exact processEntries_eq scan rest [] st'

theorem processSectors_eq (scan : UInt32 → ScanState → Option ScanState) :
    ∀ (sectors : List UInt64) (st : ScanState),
      processSectors v config iswalnum scan sectors st =
        runActions scan (record v config iswalnum) (sectors.flatMap (sectorActions v)) st
  | [], _ => rfl
  | s :: rest, st => by
    rw [List.flatMap_cons, runActions_append]
    unfold processSectors sectorActions
    cases h : v.readSector s with
    | none => exact processSectors_eq scan rest st
    | some buffer =>
      simp only [processEntriesInSector]
      rw [processEntries_eq]
      congr 1; funext st'
      exact processSectors_eq scan rest st'

theorem scanDirectory_eq_run (n : Nat) : ∀ (c : UInt32) (st : ScanState),
    scanDirectory v config iswalnum n c st = run (actions v) (record v config iswalnum) n c st := by
  induction n with
  | zero => intro c st; rfl
  | succ n ih =>
    intro c st
    have hscan : scanDirectory v config iswalnum n = run (actions v) (record v config iswalnum) n := by
      funext c st; exact ih c st
    unfold scanDirectory run
    by_cases hv : v.isValidCluster c = true
    · have ha : actions v c = (v.sectorsOf c).flatMap (sectorActions v) ++ nextActions v c := if_pos hv
      simp only [hv, Bool.not_true, Bool.false_eq_true, ite_false]
      rw [ha, runActions_append, processSectors_eq, hscan]
      congr 1; funext st'
      unfold nextActions
      split <;> simp [runActions]
    · simp [hv, actions, runActions]

end

end DataRecovery.FAT32
