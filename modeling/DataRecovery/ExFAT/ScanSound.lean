import DataRecovery.Traversal
import DataRecovery.ExFAT.Scan

/-!
# What the exFAT scan visits, and how deep it nests

The scan is a traversal over pairs of a cluster and a depth. A FAT successor is
visited one level deeper; a deleted subdirectory is visited at depth 1 whatever
the depth of its parent, so the limit bounds the FAT chains only.
-/

namespace DataRecovery.ExFAT

open Traversal Relation

section
variable (v : Volume)

def setActions (d : DirEntryData) : List (Action (UInt32 × UInt32) DirEntryData) :=
  if accepted v d then
    if d.isDirectory then [.call (d.startingCluster, 1)]
    else if d.isDeleted then [.emit d]
    else []
  else []

def entrySets : List (List UInt8) → DirEntryData → List DirEntryData
  | [], d => if d.inFileEntry then [d] else []
  | raw :: rest, d =>
    if isDirectoryEntry (entryType raw) && d.inFileEntry then d :: entrySets rest (processDirectoryEntry raw {})
    else entrySets rest (processDirectoryEntry raw d)

def setsOfSector (sector : UInt64) : List DirEntryData :=
  if v.maxSectorCount ≤ sector then []
  else
    match v.readSector sector with
    | some buffer => entrySets ((List.range v.entriesPerSector).map (entryAt buffer)) {}
    | none => []

def setsOf (c : UInt32) : List DirEntryData := (v.sectorsOf c).flatMap (setsOfSector v)

def nextActions (c depth : UInt32) : List (Action (UInt32 × UInt32) DirEntryData) :=
  if v.isValidCluster (v.getNextCluster c) && v.getNextCluster c != c then
    [.call (v.getNextCluster c, depth + 1)]
  else []

def actions : UInt32 × UInt32 → List (Action (UInt32 × UInt32) DirEntryData)
  | (c, depth) =>
    if MAX_RECURSION_DEPTH ≤ depth then []
    else if v.isValidCluster c then (setsOf v c).flatMap (setActions v) ++ nextActions v c depth
    else []

/-- One step along the directory links: the FAT successor, one level deeper, or a
deleted subdirectory, at depth 1. -/
inductive DirLink : UInt32 × UInt32 → UInt32 × UInt32 → Prop
  | next {c depth} : depth < MAX_RECURSION_DEPTH → v.isValidCluster c = true →
      v.isValidCluster (v.getNextCluster c) = true → v.getNextCluster c ≠ c →
      DirLink (c, depth) (v.getNextCluster c, depth + 1)
  | subdir {c depth d} : depth < MAX_RECURSION_DEPTH → v.isValidCluster c = true → d ∈ setsOf v c →
      accepted v d = true → d.isDirectory = true → DirLink (c, depth) (d.startingCluster, 1)

end

section
variable (v : Volume) (config : Config)

def record (d : DirEntryData) (st : ScanState) : ScanState :=
  addToRecoveryList config (parseFileInfo st.fileId d) { st with fileId := st.fileId + 1 }

theorem finalizeDirectoryEntry_eq (scan : UInt32 → UInt32 → ScanState → Option ScanState) (d : DirEntryData)
    (st : ScanState) :
    finalizeDirectoryEntry v config scan d st =
      runActions (fun n => scan n.1 n.2) (record config) (setActions v d) st := by
  unfold finalizeDirectoryEntry setActions
  by_cases ha : accepted v d = true
  · by_cases hd : d.isDirectory = true
    · simp [ha, hd, runActions, currentRecursionDepth]
    · by_cases hx : d.isDeleted = true
      · simp [ha, hd, hx, runActions, record]
      · simp [ha, hd, hx, runActions]
  · simp [ha, runActions]

theorem processEntries_eq (scan : UInt32 → UInt32 → ScanState → Option ScanState) :
    ∀ (raws : List (List UInt8)) (d : DirEntryData) (st : ScanState),
      processEntries v config scan raws d st =
        runActions (fun n => scan n.1 n.2) (record config) ((entrySets raws d).flatMap (setActions v)) st
  | [], d, st => by
    unfold processEntries entrySets
    split
    · rw [finalizeDirectoryEntry_eq]; simp
    · rfl
  | raw :: rest, d, st => by
    unfold processEntries entrySets
    split
    · rw [List.flatMap_cons, runActions_append, finalizeDirectoryEntry_eq]
      congr 1; funext st'
      exact processEntries_eq scan rest _ st'
    · exact processEntries_eq scan rest _ st

theorem processSectors_eq (scan : UInt32 → UInt32 → ScanState → Option ScanState) :
    ∀ (sectors : List UInt64) (st : ScanState),
      processSectors v config scan sectors st =
        runActions (fun n => scan n.1 n.2) (record config)
          ((sectors.flatMap (setsOfSector v)).flatMap (setActions v)) st
  | [], _ => rfl
  | s :: rest, st => by
    rw [List.flatMap_cons, List.flatMap_append, runActions_append]
    unfold processSectors setsOfSector
    split
    · exact processSectors_eq scan rest st
    · cases h : v.readSector s with
      | none => exact processSectors_eq scan rest st
      | some buffer =>
        simp only [processEntriesInSector]
        rw [processEntries_eq]
        congr 1; funext st'
        exact processSectors_eq scan rest st'

theorem scanDirectory_eq_run (n : Nat) : ∀ (c depth : UInt32) (st : ScanState),
    scanDirectory v config n c depth st = run (actions v) (record config) n (c, depth) st := by
  induction n with
  | zero => intro c depth st; rfl
  | succ n ih =>
    intro c depth st
    have hscan : (fun m : UInt32 × UInt32 => scanDirectory v config n m.1 m.2) = run (actions v) (record config) n := by
      funext m st; exact ih m.1 m.2 st
    unfold scanDirectory run
    by_cases hd : MAX_RECURSION_DEPTH ≤ depth
    · simp [hd, actions, runActions]
    · by_cases hv : v.isValidCluster c = true
      · have ha : actions v (c, depth) = (setsOf v c).flatMap (setActions v) ++ nextActions v c depth := by
          simp [actions, hd, hv]
        simp only [hd, hv, Bool.not_true, Bool.false_eq_true, ite_false]
        rw [ha, runActions_append, setsOf, processSectors_eq, hscan]
        congr 1; funext st'
        unfold nextActions
        split
        · simp [runActions, ← hscan]
        · simp [runActions]
      · simp [hd, hv, actions, runActions]

theorem call_mem_setActions {d : DirEntryData} {w : UInt32 × UInt32} :
    Action.call w ∈ setActions v d ↔ accepted v d = true ∧ d.isDirectory = true ∧ w = (d.startingCluster, 1) := by
  unfold setActions
  by_cases ha : accepted v d = true
  · by_cases hd : d.isDirectory = true
    · simp [ha, hd]
    · by_cases hx : d.isDeleted = true <;> simp [ha, hd, hx]
  · simp [ha]

theorem emit_mem_setActions {d e : DirEntryData} :
    Action.emit e ∈ setActions v d ↔
      accepted v d = true ∧ d.isDirectory = false ∧ d.isDeleted = true ∧ e = d := by
  unfold setActions
  by_cases ha : accepted v d = true
  · by_cases hd : d.isDirectory = true
    · simp [ha, hd]
    · by_cases hx : d.isDeleted = true <;> simp [ha, hd, hx]
  · simp [ha]

theorem calls_iff {n m : UInt32 × UInt32} : Calls (actions v) n m ↔ DirLink v n m := by
  obtain ⟨c, depth⟩ := n
  unfold Calls actions
  by_cases hd : MAX_RECURSION_DEPTH ≤ depth
  · simp only [hd, ite_true, List.not_mem_nil, false_iff]
    intro h
    cases h with
    | next h => exact UInt32.not_lt.mpr hd h
    | subdir h => exact UInt32.not_lt.mpr hd h
  · by_cases hv : v.isValidCluster c = true
    · simp only [hd, hv, ite_true, ite_false, List.mem_append, List.mem_flatMap]
      constructor
      · rintro (⟨d, hds, ha⟩ | ha)
        · obtain ⟨hacc, hdir, rfl⟩ := (call_mem_setActions v).mp ha
          exact .subdir (UInt32.not_le.mp hd) hv hds hacc hdir
        · unfold nextActions at ha
          split at ha
          · rename_i hn
            obtain rfl : m = (v.getNextCluster c, depth + 1) := by simpa using ha
            simp only [Bool.and_eq_true, bne_iff_ne] at hn
            exact .next (UInt32.not_le.mp hd) hv hn.1 hn.2
          · cases ha
      · intro h
        cases h with
        | next _ _ hn hne => exact .inr (by simp [nextActions, hn, hne])
        | subdir _ _ hds hacc hdir => exact .inl ⟨_, hds, (call_mem_setActions v).mpr ⟨hacc, hdir, rfl⟩⟩
    · simp only [hd, hv, ite_false, Bool.false_eq_true, List.not_mem_nil, false_iff]
      intro h
      cases h with
      | next _ h => exact hv h
      | subdir _ h => exact hv h

theorem scanRoot_isSome_iff {stack : Nat} {st : ScanState} :
    (scanRoot v config stack st).isSome ↔ Shallow (actions v) stack (v.bootSector.rootDirectoryCluster, 0) := by
  unfold scanRoot
  rw [scanDirectory_eq_run, run_isSome_iff]

theorem mem_record (st : ScanState) (d : DirEntryData) (info : FileInfo)
    (h : info ∈ (record config d st).recoveryList) :
    info ∈ st.recoveryList ∨ ∃ fileId, info = parseFileInfo fileId d := by
  unfold record addToRecoveryList at h
  split at h
  · rcases List.mem_append.mp h with h | h
    · exact .inl h
    · exact .inr ⟨st.fileId, List.mem_singleton.mp h⟩
  · exact .inl h

theorem scanRoot_eq_some {stack : Nat} {st st' : ScanState} (h : scanRoot v config stack st = some st') :
    Shallow (actions v) stack (v.bootSector.rootDirectoryCluster, 0) ∧
      (events (actions v) stack (v.bootSector.rootDirectoryCluster, 0)).foldl (fun st d => record config d st) st = st' := by
  unfold scanRoot at h
  rw [scanDirectory_eq_run] at h
  exact run_eq_some h

theorem exists_set_of_listed {stack : Nat} {st : ScanState} {info : FileInfo}
    (hst : scanRoot v config stack {} = some st) (hinfo : info ∈ st.recoveryList) :
    ∃ d fileId, accepted v d = true ∧ info = parseFileInfo fileId d := by
  obtain ⟨hs, hfold⟩ := scanRoot_eq_some v config hst
  rw [← hfold] at hinfo
  rcases mem_foldl_of_step (mem_record config) _ _ hinfo with h | ⟨d, hd, fileId, hparse⟩
  · cases h
  · obtain ⟨⟨c, depth⟩, -, hem⟩ := (mem_events hs).mp hd
    refine ⟨d, fileId, ?_, hparse⟩
    simp only [Emits, actions] at hem
    split at hem
    · cases hem
    · split at hem
      · rcases List.mem_append.mp hem with hem | hem
        · obtain ⟨e, -, he⟩ := List.mem_flatMap.mp hem
          obtain ⟨hacc, -, -, rfl⟩ := (emit_mem_setActions v).mp he
          exact hacc
        · unfold nextActions at hem
          split at hem
          · simp at hem
          · cases hem
      · cases hem

theorem listed_isValidCluster {stack : Nat} {st : ScanState} {info : FileInfo}
    (hst : scanRoot v config stack {} = some st) (hinfo : info ∈ st.recoveryList) :
    v.isValidCluster info.cluster = true := by
  obtain ⟨d, fileId, hacc, rfl⟩ := exists_set_of_listed v config hst hinfo
  unfold accepted at hacc
  simp only [Bool.and_eq_true] at hacc
  exact v.isValidCluster_of_deletedEntry hacc.2

/-- The scan nests at most `n` activations exactly when no walk along the
directory links from the root visits more than `n` directories. -/
theorem scanRoot_isSome_iff_walks {stack : Nat} {st : ScanState} :
    (scanRoot v config stack st).isSome ↔
      ∀ walk, List.IsChain (DirLink v) ((v.bootSector.rootDirectoryCluster, 0) :: walk) →
        walk.length < stack := by
  have hcalls : Calls (actions v) = DirLink v := by
    funext n m; exact propext (calls_iff v)
  rw [scanRoot_isSome_iff, shallow_iff_paths, hcalls]

end

end DataRecovery.ExFAT
