import DataRecovery.BlockScan
import DataRecovery.ExFAT.ScanSound

/-!
# exFAT entry sets

A file is a set of entries: a file entry, a stream entry and name entries, all live or
all deleted. The parser of a sector is a scanner of its entries, and a deleted set that it
reads in one piece gives the set's name, cluster, size and kind.
-/

namespace DataRecovery.ExFAT

open Scanner

abbrev Found : Type := Action (UInt32 × UInt32) DirEntryData

structure EntrySet where
  deleted : Bool
  file : List UInt8
  stream : List UInt8
  names : List (List UInt8)
  file_type : entryType file = if deleted then 0x05 else 0x85
  stream_type : entryType stream = if deleted then 0x40 else 0xC0
  name_type : ∀ name ∈ names, entryType name = if deleted then 0x41 else 0xC1
  names_ne : names ≠ []
  text_ne : ∀ name ∈ names, extractFileName name ≠ []
  length_eq : ∀ raw ∈ file :: stream :: names, raw.length = 32

namespace EntrySet
variable (S : EntrySet)

def entries : List (List UInt8) := S.file :: S.stream :: S.names

def cluster : UInt32 := le32 S.stream 20

def size : UInt64 := le64 S.stream 24

def isDirectory : Bool := le16 S.file 4 &&& 0x10 != 0

end EntrySet

def EntrySet.seen (S : EntrySet) (isDirectory : Bool) (names : List (List UInt8)) : DirEntryData where
  longFilename := names.flatMap extractFileName
  startingCluster := S.cluster
  fileSize := S.size
  inFileEntry := !names.isEmpty
  isDirectory := isDirectory
  isDeleted := true

def unusedEntry : List UInt8 := List.replicate 32 0

section
variable (v : Volume)

def entryScanner : Scanner (List UInt8) DirEntryData Found where
  start := {}
  step dirData raw :=
    if isDirectoryEntry (entryType raw) && dirData.inFileEntry then
      (setActions v dirData, processDirectoryEntry raw {})
    else ([], processDirectoryEntry raw dirData)
  close := setActions v
  close_start := rfl

@[simp] theorem entryScanner_start : (entryScanner v).start = {} := rfl

theorem setActions_of_not {d : DirEntryData} (h : accepted v d = false) : setActions v d = [] := by
  unfold setActions
  rw [h]
  rfl

theorem accepted_of_not_inFileEntry {d : DirEntryData} (h : d.inFileEntry = false) : accepted v d = false := by
  unfold accepted
  rw [h]
  rfl

theorem accepted_of_no_cluster {d : DirEntryData} (h : d.startingCluster = 0) : accepted v d = false := by
  unfold accepted
  rw [h]
  simp

theorem entrySets_eq_run (raws : List (List UInt8)) : ∀ d : DirEntryData,
    (entrySets raws d).flatMap (setActions v) = (entryScanner v).run raws d := by
  induction raws with
  | nil =>
    intro d
    unfold entrySets
    cases h : d.inFileEntry with
    | true => exact List.flatMap_singleton ..
    | false => exact (setActions_of_not v (accepted_of_not_inFileEntry v h)).symm
  | cons raw raws ih =>
    intro d
    unfold entrySets Scanner.run
    simp only [entryScanner]
    split
    · rw [List.flatMap_cons, ih]
      rfl
    · rw [ih]
      rfl

theorem processEntriesInSector_eq (config : Config) (scan : UInt32 → UInt32 → ScanState → Option ScanState)
    (entriesPerSector : Nat) (sectorBuffer : List UInt8) (st : ScanState) :
    processEntriesInSector v config scan entriesPerSector sectorBuffer st =
      Traversal.runActions (fun n => scan n.1 n.2) (record config)
        ((entryScanner v).run ((List.range entriesPerSector).map (entryAt sectorBuffer)) {}) st := by
  unfold processEntriesInSector
  rw [processEntries_eq, entrySets_eq_run]

/-! ## Entries of a set -/

theorem step_of_type {raw : List UInt8} {d : DirEntryData} (h : isDirectoryEntry (entryType raw) = false) :
    (entryScanner v).step d raw = ([], processDirectoryEntry raw d) := by
  unfold entryScanner
  simp [h]

theorem processDirectoryEntry_live {raw : List UInt8} (h : isEntryInUse (entryType raw) = true) (d : DirEntryData) :
    processDirectoryEntry raw d = d := by
  unfold processDirectoryEntry
  rw [h]
  rfl

theorem processDirectoryEntry_name {raw : List UInt8} (h : entryType raw = 0x41) (d : DirEntryData) :
    processDirectoryEntry raw d =
      { d with longFilename := d.longFilename ++ extractFileName raw, inFileEntry := true, isDeleted := true } := by
  unfold processDirectoryEntry
  rw [h]
  rfl

theorem processDirectoryEntry_stream {raw : List UInt8} (h : entryType raw = 0x40) (d : DirEntryData) :
    processDirectoryEntry raw d =
      { d with startingCluster := le32 raw 20, fileSize := le64 raw 24, isDeleted := true } := by
  unfold processDirectoryEntry
  rw [h]
  rfl

theorem processDirectoryEntry_file {raw : List UInt8} (h : entryType raw = 0x05) (d : DirEntryData) :
    processDirectoryEntry raw d = { d with isDirectory := le16 raw 4 &&& 0x10 != 0, isDeleted := true } := by
  unfold processDirectoryEntry
  rw [h]
  rfl

theorem feed_names {names : List (List UInt8)} (h : ∀ name ∈ names, entryType name = 0x41) {d : DirEntryData}
    (hdeleted : d.isDeleted = true) :
    (entryScanner v).feed names d =
      ([], { d with longFilename := d.longFilename ++ names.flatMap extractFileName,
                    inFileEntry := d.inFileEntry || !names.isEmpty }) := by
  induction names generalizing d with
  | nil =>
    show ([], d) = _
    simp
  | cons name names ih =>
    have hname := h name (List.mem_cons_self ..)
    have ih' := ih (fun x hx => h x (List.mem_cons_of_mem _ hx)) (d := processDirectoryEntry name d)
      (by rw [processDirectoryEntry_name hname])
    rw [processDirectoryEntry_name hname] at ih'
    unfold Scanner.feed
    rw [step_of_type v (by rw [hname]; rfl), processDirectoryEntry_name hname, ih', hdeleted]
    simp

namespace EntrySet
variable {S : EntrySet} (hdeleted : S.deleted = true)
include hdeleted

theorem file_type_deleted : entryType S.file = 0x05 := by rw [S.file_type, hdeleted]; rfl

theorem stream_type_deleted : entryType S.stream = 0x40 := by rw [S.stream_type, hdeleted]; rfl

theorem name_type_deleted : ∀ name ∈ S.names, entryType name = 0x41 := by
  intro name hname
  rw [S.name_type name hname, hdeleted]
  rfl

theorem feed_stream {names : List (List UInt8)} (h : ∀ name ∈ names, entryType name = 0x41) {d : DirEntryData}
    (hempty : d.longFilename = []) (hout : d.inFileEntry = false) :
    (entryScanner v).feed (S.stream :: names) d = ([], S.seen d.isDirectory names) := by
  have htype := stream_type_deleted hdeleted
  unfold Scanner.feed
  rw [step_of_type v (by rw [htype]; rfl), processDirectoryEntry_stream htype, feed_names v h rfl, hempty, hout]
  rfl

theorem feed_file {names : List (List UInt8)} (h : ∀ name ∈ names, entryType name = 0x41) :
    (entryScanner v).feed (S.file :: S.stream :: names) {} = ([], S.seen S.isDirectory names) := by
  have htype := file_type_deleted hdeleted
  unfold Scanner.feed
  have hstep : (entryScanner v).step {} S.file = ([], processDirectoryEntry S.file {}) := by
    unfold entryScanner
    simp
  rw [hstep, processDirectoryEntry_file htype, feed_stream v hdeleted h rfl rfl]
  rfl

end EntrySet

end

def plainSet (deleted : Bool) (attributes cluster size : UInt8) (names : Nat) (h : 0 < names) : EntrySet where
  deleted := deleted
  file := [if deleted then 0x05 else 0x85, UInt8.ofNat (names + 1), 0, 0, attributes] ++ List.replicate 27 0
  stream := (if deleted then 0x40 else 0xC0) :: (List.replicate 19 0 ++ [cluster, 0, 0, 0, size] ++ List.replicate 7 0)
  names := List.replicate names ((if deleted then 0x41 else 0xC1) :: 0 :: (List.replicate 15 [0x44, 0]).flatten)
  file_type := rfl
  stream_type := rfl
  name_type := by
    intro name hname
    rw [List.eq_of_mem_replicate hname]
    rfl
  names_ne := by
    intro hnil
    have hlen := congrArg List.length hnil
    rw [List.length_replicate] at hlen
    exact Nat.ne_of_gt h hlen
  text_ne := by
    intro name hname
    rw [List.eq_of_mem_replicate hname]
    cases deleted with
    | true => decide
    | false => decide
  length_eq := by
    intro raw hraw
    rcases List.mem_cons.mp hraw with rfl | hraw
    · rfl
    · rcases List.mem_cons.mp hraw with rfl | hraw
      · rfl
      · rw [List.eq_of_mem_replicate hraw]
        rfl

end DataRecovery.ExFAT
