import DataRecovery.ExFAT.SectorBoundaries

/-!
# A sector of entry sets

The entries of a sector are sets, live or deleted, other live entries between them, and
unused entries at the end. Such a sector is decoded set by set: each deleted set that
passes the checks is listed with its own name, cluster and size or, when it is a
directory, scanned, and nothing else has an effect.
-/

namespace DataRecovery.ExFAT

open Scanner

def nameUnits (raw : List UInt8) : WString := (List.range 15).map fun i => le16 raw (2 + 2 * i)

/-- An entry set whose name entries hold its name, cut in fifteens and padded with zeros. -/
structure NamedSet where
  deleted : Bool
  name : WString
  file : List UInt8
  stream : List UInt8
  names : List (List UInt8)
  padding : Nat
  file_type : entryType file = if deleted then 0x05 else 0x85
  stream_type : entryType stream = if deleted then 0x40 else 0xC0
  name_type : ∀ raw ∈ names, entryType raw = if deleted then 0x41 else 0xC1
  names_ne : names ≠ []
  units_ne : ∀ c ∈ name, (c != 0) = true
  units_eq : names.flatMap nameUnits = name ++ List.replicate padding 0
  padding_lt : padding < 15
  length_eq : ∀ raw ∈ file :: stream :: names, raw.length = 32

inductive SectorItem where
  | set (S : NamedSet)
  | other (raw : List UInt8) (live : isEntryInUse (entryType raw) = true)
      (notFile : isDirectoryEntry (entryType raw) = false)

namespace NamedSet
variable (S : NamedSet)

theorem names_text : (∀ raw ∈ S.names, extractFileName raw ≠ []) ∧ S.names.flatMap extractFileName = S.name := by
  have hlen : ∀ c ∈ S.names.map nameUnits, c.length = 15 := by
    intro c hc
    obtain ⟨raw, -, rfl⟩ := List.mem_map.mp hc
    rw [nameUnits, List.length_map, List.length_range]
  have hflat : (S.names.map nameUnits).flatten = S.name ++ List.replicate S.padding 0 := by
    rw [← List.flatMap_def]
    exact S.units_eq
  obtain ⟨hne, htext⟩ := takeWhile_chunks (p := fun c => c != 0) (z := 0) rfl hlen hflat S.padding_lt S.units_ne
  refine ⟨fun raw hraw => hne _ (List.mem_map_of_mem hraw), ?_⟩
  rw [List.flatMap_map] at htext
  exact htext

def toEntrySet : EntrySet where
  deleted := S.deleted
  file := S.file
  stream := S.stream
  names := S.names
  file_type := S.file_type
  stream_type := S.stream_type
  name_type := S.name_type
  names_ne := S.names_ne
  text_ne := S.names_text.1
  length_eq := S.length_eq

def recover (v : Volume) (config : Config) (scan : UInt32 → UInt32 → ScanState → Option ScanState)
    (st : ScanState) : Option ScanState :=
  if S.deleted && 0 < S.toEntrySet.cluster && v.isValidDeletedEntry S.toEntrySet.cluster S.toEntrySet.size then
    if S.toEntrySet.isDirectory then scan S.toEntrySet.cluster (currentRecursionDepth + 1) st
    else
      some (addToRecoveryList config
        { fileId := st.fileId, fileName := S.name, fileSize := S.toEntrySet.size, cluster := S.toEntrySet.cluster }
        { st with fileId := st.fileId + 1 })
  else some st

end NamedSet

namespace SectorItem

def entries : SectorItem → List (List UInt8)
  | .set S => S.toEntrySet.entries
  | .other raw _ _ => [raw]

def set? : SectorItem → Option NamedSet
  | .set S => some S
  | .other _ _ _ => none

end SectorItem

section
variable (v : Volume)

/-! ## The entries -/

theorem run_unused {tail : List (List UInt8)} (htail : ∀ raw ∈ tail, entryType raw = 0) {d : DirEntryData}
    (hd : d.inFileEntry = true → d.isDeleted = true) : (entryScanner v).run tail d = setActions v d := by
  induction tail generalizing d with
  | nil => rfl
  | cons raw tail ih =>
    have htype := htail raw (List.mem_cons_self ..)
    have hentry : processDirectoryEntry raw d = { d with isDeleted := true } := by
      unfold processDirectoryEntry
      rw [htype]
      rfl
    rw [Scanner.run, step_of_type v (by rw [htype]; rfl), hentry, List.nil_append,
      ih (fun x hx => htail x (List.mem_cons_of_mem _ hx)) fun _ => rfl]
    exact setActions_isDeleted v hd

theorem feed_live {raws : List (List UInt8)} (h : ∀ raw ∈ raws, isEntryInUse (entryType raw) = true) :
    (entryScanner v).feed raws {} = ([], {}) := by
  induction raws with
  | nil => rfl
  | cons raw raws ih =>
    have hstep : (entryScanner v).step {} raw = ([], {}) := by
      unfold entryScanner
      simp [processDirectoryEntry_live (h raw (List.mem_cons_self ..))]
    rw [Scanner.feed, hstep, ih fun x hx => h x (List.mem_cons_of_mem _ hx)]
    rfl

/-- A set completes what came before it and leaves what the parser knows of it. -/
theorem feed_set (S : EntrySet) {d : DirEntryData} (hd : Settled d) :
    (entryScanner v).feed S.entries d =
      (setActions v d, if S.deleted then S.seen S.isDirectory S.names else {}) := by
  rw [EntrySet.entries, Scanner.feed, step_file v S hd]
  cases hdel : S.deleted with
  | true =>
    have hnames := EntrySet.name_type_deleted hdel
    rw [processDirectoryEntry_file (EntrySet.file_type_deleted hdel), EntrySet.feed_stream v hdel hnames rfl rfl]
    simp only [List.append_nil, if_true]
    rfl
  | false =>
    have hlive := isEntryInUse_of_live hdel
    rw [processDirectoryEntry_live (hlive _ (List.mem_cons_self ..)),
      feed_live v fun raw hraw => hlive raw (List.mem_cons_of_mem _ hraw)]
    simp

/-! ## The sector -/

def SectorItem.found : SectorItem → List Found
  | .set S => S.toEntrySet.found v
  | .other _ _ _ => []

theorem run_items {tail : List (List UInt8)} (htail : ∀ raw ∈ tail, entryType raw = 0) :
    ∀ {items : List SectorItem} {d : DirEntryData}, Settled d →
      (entryScanner v).run (items.flatMap SectorItem.entries ++ tail) d =
        setActions v d ++ items.flatMap (SectorItem.found v)
  | [], d, hd => by
    rw [List.flatMap_nil, List.flatMap_nil, List.nil_append, List.append_nil, run_unused v htail hd.isDeleted]
  | .other raw live notFile :: items, d, hd => by
    have hstep : (entryScanner v).step d raw = ([], d) := by
      rw [step_of_type v notFile, processDirectoryEntry_live live]
    rw [List.flatMap_cons, List.append_assoc, SectorItem.entries, List.singleton_append, Scanner.run, hstep,
      run_items htail hd]
    rfl
  | .set S :: items, d, hd => by
    rw [List.flatMap_cons, List.append_assoc, SectorItem.entries, run_append, feed_set v _ hd, List.flatMap_cons,
      SectorItem.found, EntrySet.found]
    cases hdel : S.toEntrySet.deleted with
    | true =>
      have hseen : Settled (S.toEntrySet.seen S.toEntrySet.isDirectory S.toEntrySet.names) :=
        settled_seen S.names_ne
      rw [if_pos rfl, if_pos rfl, run_items htail hseen]
    | false =>
      rw [if_neg (by simp), if_neg (by simp), run_items htail (.inl rfl)]
      rfl

theorem NamedSet.name_ne (S : NamedSet) : S.name ≠ [] := by
  obtain ⟨hne, htext⟩ := S.names_text
  intro hnil
  obtain ⟨raw, hraw⟩ := List.exists_mem_of_ne_nil _ S.names_ne
  rw [hnil] at htext
  exact hne raw hraw (List.flatMap_eq_nil_iff.mp htext raw hraw)

theorem NamedSet.seen_eq (S : NamedSet) : S.toEntrySet.seen S.toEntrySet.isDirectory S.toEntrySet.names =
    { longFilename := S.name, startingCluster := S.toEntrySet.cluster, fileSize := S.toEntrySet.size,
      inFileEntry := true, isDirectory := S.toEntrySet.isDirectory, isDeleted := true } := by
  have hin : S.names.isEmpty = false := by simpa using S.names_ne
  unfold EntrySet.seen
  show DirEntryData.mk (S.names.flatMap extractFileName) _ _ (!S.names.isEmpty) _ _ = _
  rw [S.names_text.2, hin]
  rfl

variable (config : Config) (scan : UInt32 → UInt32 → ScanState → Option ScanState)

theorem runActions_found (S : NamedSet) (st : ScanState) :
    Traversal.runActions (fun n => scan n.1 n.2) (record config) (S.toEntrySet.found v) st =
      S.recover v config scan st := by
  have hdeleted : S.toEntrySet.deleted = S.deleted := rfl
  unfold EntrySet.found NamedSet.recover
  rw [S.seen_eq, hdeleted]
  cases S.deleted with
  | false => rfl
  | true =>
    have haccepted : accepted v ⟨S.name, S.toEntrySet.cluster, S.toEntrySet.size, true, S.toEntrySet.isDirectory, true⟩ =
        (true && decide (0 < S.toEntrySet.cluster) &&
          v.isValidDeletedEntry S.toEntrySet.cluster S.toEntrySet.size) := by
      unfold accepted
      rw [bne_iff_ne.mpr S.name_ne]
      rfl
    rw [if_pos rfl, setActions, haccepted]
    split
    · split
      · exact Option.bind_fun_some _
      · rfl
    · rfl

theorem processEntriesInSector_sets {entriesPerSector : Nat} {sectorBuffer : List UInt8} {items : List SectorItem}
    {tail : List (List UInt8)} (htail : ∀ raw ∈ tail, entryType raw = 0)
    (hsector : (List.range entriesPerSector).map (entryAt sectorBuffer) = items.flatMap SectorItem.entries ++ tail)
    (st : ScanState) :
    processEntriesInSector v config scan entriesPerSector sectorBuffer st =
      (items.filterMap SectorItem.set?).foldlM (fun st S => S.recover v config scan st) st := by
  rw [processEntriesInSector_eq, hsector, run_items v htail (.inl rfl),
    setActions_of_not v (accepted_of_not_inFileEntry v rfl), List.nil_append]
  clear hsector
  induction items generalizing st with
  | nil => rfl
  | cons item items ih =>
    rw [List.flatMap_cons, Traversal.runActions_append]
    cases item with
    | other raw live notFile => exact ih st
    | set S =>
      have hset : (SectorItem.set S :: items).filterMap SectorItem.set? = S :: items.filterMap SectorItem.set? := rfl
      rw [SectorItem.found, runActions_found v config scan S st, hset, List.foldlM_cons]
      exact congrArg _ (funext ih)

end

/-! ## A small sector -/

def streamEntry (type cluster size : UInt8) : List UInt8 :=
  type :: (List.replicate 19 0 ++ [cluster, 0, 0, 0, size] ++ List.replicate 7 0)

def fullEntry (type : UInt8) : List UInt8 := type :: 0 :: (List.replicate 15 [0x44, 0]).flatten

def lastEntry (type : UInt8) : List UInt8 := type :: 0 :: 0x44 :: List.replicate 29 0

theorem units_full (type : UInt8) (full : Nat) :
    (List.replicate full (fullEntry type)).flatMap nameUnits = List.replicate (15 * full) 0x44 := by
  have hunits : nameUnits (fullEntry type) = List.replicate 15 0x44 := rfl
  induction full with
  | zero => rfl
  | succ full ih =>
    rw [List.replicate_succ, List.flatMap_cons, hunits, ih, List.replicate_append_replicate, Nat.mul_succ, Nat.add_comm]

def spelledSet (deleted : Bool) (attributes cluster size : UInt8) (full : Nat) : NamedSet where
  deleted := deleted
  name := List.replicate (15 * full + 1) 0x44
  file := [if deleted then 0x05 else 0x85, UInt8.ofNat (full + 2), 0, 0, attributes] ++ List.replicate 27 0
  stream := streamEntry (if deleted then 0x40 else 0xC0) cluster size
  names := List.replicate full (fullEntry (if deleted then 0x41 else 0xC1)) ++ [lastEntry (if deleted then 0x41 else 0xC1)]
  padding := 14
  file_type := rfl
  stream_type := rfl
  name_type := by
    intro raw hraw
    rcases List.mem_append.mp hraw with hraw | hraw
    · rw [List.eq_of_mem_replicate hraw]
      rfl
    · rw [List.mem_singleton.mp hraw]
      rfl
  names_ne := List.append_ne_nil_of_right_ne_nil _ (List.cons_ne_nil _ _)
  units_ne := by
    intro c hc
    rw [List.eq_of_mem_replicate hc]
    rfl
  units_eq := by
    have hlast : ∀ type, nameUnits (lastEntry type) = List.replicate 1 0x44 ++ List.replicate 14 0 := fun _ => rfl
    rw [List.flatMap_append, units_full, List.flatMap_singleton, hlast, ← List.append_assoc,
      List.replicate_append_replicate]
  padding_lt := Nat.lt_succ_self 14
  length_eq := by
    intro raw hraw
    rcases List.mem_cons.mp hraw with rfl | hraw
    · rfl
    rcases List.mem_cons.mp hraw with rfl | hraw
    · rfl
    rcases List.mem_append.mp hraw with hraw | hraw
    · rw [List.eq_of_mem_replicate hraw]
      rfl
    · rw [List.mem_singleton.mp hraw]
      rfl

def mixedItems : List SectorItem :=
  [.set (spelledSet true 0x20 3 9 1), .other (0x83 :: List.replicate 31 0) rfl rfl, .set (spelledSet false 0x20 4 9 0),
    .set (spelledSet true 0x10 5 9 0)]

def mixedSector : List UInt8 := (mixedItems.flatMap SectorItem.entries).flatten ++ List.replicate 160 0

theorem mixedSector_decoded :
    processEntriesInSector (smallVolume []) { recover := true } (fun cluster depth st =>
        some { st with recoveryList := st.recoveryList ++ [⟨0, [], depth.toUInt64, cluster⟩] }) 16 mixedSector {} =
      some { fileId := 2, recoveryList := [⟨1, List.replicate 16 0x44, 9, 3⟩, ⟨0, [], 1, 5⟩] } := by
  have hsector : (List.range 16).map (entryAt mixedSector) =
      mixedItems.flatMap SectorItem.entries ++ List.replicate 5 unusedEntry := by decide +kernel
  have htail : ∀ raw ∈ List.replicate 5 unusedEntry, entryType raw = 0 := by
    intro raw hraw
    rw [List.eq_of_mem_replicate hraw]
    rfl
  rw [processEntriesInSector_sets (smallVolume []) _ _ htail hsector]
  rfl

end DataRecovery.ExFAT
