import DataRecovery.FAT32.Reach

/-!
# Termination and exactness of the FAT32 scan

`scan_terminates_iff`: the scan ends exactly when no reachable directory cluster
can reach itself. `scan_exact`: it then lists exactly the deleted files of the
reachable clusters.
-/

namespace DataRecovery.FAT32

open Traversal Relation

/-! ## Small volumes -/

/-- One 512-byte sector per cluster, one FAT sector, eight clusters; cluster `c` is sector `c`. -/
def smallBoot : BootSector where
  bytesPerSector := 512
  sectorsPerCluster := 1
  reservedSectorCount := 1
  numFATs := 1
  rootEntryCount := 0
  totalSectors16 := 0
  totalSectors32 := 10
  fatSize32 := 1
  rootCluster := 2
  fileSystemType := "FAT32   ".toList.map fun c => UInt8.ofNat c.toNat

def smallVolume (sectors : List (UInt64 × List UInt8)) : Volume where
  device := .ofSectors sectors 512
  bootSector := smallBoot
  pastEnd := fun _ => 0
  bytesPerSector_pos := by decide
  sectorsPerCluster_pos := by decide

def rawEntry (first attr start : UInt8) (size : UInt16) : List UInt8 :=
  first :: List.replicate 10 0x20 ++ [attr] ++ List.replicate 14 (0 : UInt8) ++
    [start, 0, size.toUInt8, (size >>> 8).toUInt8, 0, 0]

/-! ## Termination -/

section
variable (v : Volume) (config : Config) (iswalnum : UInt16 → Bool)

theorem scanRoot_isSome_iff {stack : Nat} {st : ScanState} :
    (scanRoot v config iswalnum stack st).isSome ↔ Shallow (actions v) stack v.driveInfo.rootDirCluster := by
  unfold scanRoot
  rw [scanDirectory_eq_run, run_isSome_iff]

theorem scan_terminates_iff (st : ScanState) :
    (∃ stack, (scanRoot v config iswalnum stack st).isSome) ↔ Acyclic v IsUsedDirectoryEntry := by
  simp only [scanRoot_isSome_iff]
  exact exists_shallow_iff_acyclic v

end

/-- The root directory holds a live directory entry whose start cluster is the root itself. -/
def selfLinked : Volume := smallVolume [(2, rawEntry 0x4C 0x10 2 0)]

theorem selfLinked_calls : Calls (actions selfLinked) 2 2 := by
  refine (calls_iff selfLinked).mpr ⟨by decide, ?_⟩
  refine .subdir (e := .ofBytes (rawEntry 0x4C 0x10 2 0)) ?_ (by decide) (by decide)
  refine (mem_entriesOf selfLinked).mpr ⟨2, by decide, _, rfl, ?_⟩
  exact mem_visibleEntries_cons.mpr (.inl rfl)

theorem scan_diverges :
    ¬ ∀ (v : Volume) (config : Config) (iswalnum : UInt16 → Bool),
      ∃ stack, (scanRoot v config iswalnum stack {}).isSome := by
  intro h
  obtain ⟨stack, hs⟩ := h selfLinked {} fun _ => true
  exact not_shallow_of_cycle (.single selfLinked_calls) stack ((scanRoot_isSome_iff _ _ _).mp hs)

/-! ## Exactness -/

section
variable (v : Volume) (config : Config) (iswalnum : UInt16 → Bool)

/-- On acyclic directories the scan ends, with exactly the deleted files of the
reachable clusters in the list; `isDir` says which entries lead to a directory. -/
def ScanExact (isDir : DirectoryEntry → Prop) : Prop :=
  Acyclic v isDir →
    (∃ stack, (scanRoot v config iswalnum stack {}).isSome) ∧
    ∀ stack st, scanRoot v config iswalnum stack {} = some st → ∀ start size,
      (∃ info ∈ st.recoveryList, info.cluster = start ∧ info.fileSize = size) ↔ DeletedFile v isDir start size

theorem foldl_record_keys (h : (config.recover || config.analyze) = true) :
    ∀ (fs : List Found) (st : ScanState),
      (fs.foldl (fun st f => record v config iswalnum f st) st).recoveryList.map (fun i => (i.cluster, i.fileSize)) =
        st.recoveryList.map (fun i => (i.cluster, i.fileSize)) ++ fs.map fun f => (f.cluster, f.size.toUInt64)
  | [], st => by simp
  | f :: fs, st => by
    rw [List.foldl_cons, foldl_record_keys h fs]
    simp [record, addToRecoveryList, h, parseFileInfo_cluster, parseFileInfo_fileSize]

theorem mem_record (st : ScanState) (f : Found) (info : FileInfo)
    (h : info ∈ (record v config iswalnum f st).recoveryList) :
    info ∈ st.recoveryList ∨ ∃ fileId, info = v.parseFileInfo iswalnum fileId f.filename f.cluster f.size := by
  unfold record addToRecoveryList at h
  split at h
  · rcases List.mem_append.mp h with h | h
    · exact .inl h
    · exact .inr ⟨st.fileId, List.mem_singleton.mp h⟩
  · exact .inl h

theorem scanRoot_eq_some {stack : Nat} {st st' : ScanState} (h : scanRoot v config iswalnum stack st = some st') :
    Shallow (actions v) stack v.driveInfo.rootDirCluster ∧
      (events (actions v) stack v.driveInfo.rootDirCluster).foldl (fun st f => record v config iswalnum f st) st = st' := by
  unfold scanRoot at h
  rw [scanDirectory_eq_run] at h
  exact run_eq_some h

theorem exists_event_of_listed {stack : Nat} {st : ScanState} {info : FileInfo}
    (hst : scanRoot v config iswalnum stack {} = some st) (hinfo : info ∈ st.recoveryList) :
    ∃ c f, Emits (actions v) c f ∧
      ∃ fileId, info = v.parseFileInfo iswalnum fileId f.filename f.cluster f.size := by
  obtain ⟨hs, hfold⟩ := scanRoot_eq_some v config iswalnum hst
  rw [← hfold] at hinfo
  rcases mem_foldl_of_step (mem_record v config iswalnum) _ _ hinfo with h | ⟨f, hf, hparse⟩
  · cases h
  · obtain ⟨c, -, hem⟩ := (mem_events hs).mp hf
    exact ⟨c, f, hem, hparse⟩

theorem listed_isValidCluster {stack : Nat} {st : ScanState} {info : FileInfo}
    (hst : scanRoot v config iswalnum stack {} = some st) (hinfo : info ∈ st.recoveryList) :
    v.isValidCluster info.cluster = true := by
  obtain ⟨c, f, hem, fileId, rfl⟩ := exists_event_of_listed v config iswalnum hst hinfo
  obtain ⟨-, e, -, -, hv, hc, -⟩ := (emits_iff v).mp ⟨f.filename, hem⟩
  rw [parseFileInfo_cluster, hc]
  exact hv

theorem listed_iff_event (h : (config.recover || config.analyze) = true) {stack : Nat} {st : ScanState}
    (hst : scanRoot v config iswalnum stack {} = some st) (start : UInt32) (size : UInt64) :
    (∃ info ∈ st.recoveryList, info.cluster = start ∧ info.fileSize = size) ↔
      ∃ f ∈ events (actions v) stack v.driveInfo.rootDirCluster, f.cluster = start ∧ f.size.toUInt64 = size := by
  obtain ⟨-, hfold⟩ := scanRoot_eq_some v config iswalnum hst
  have hkeys := foldl_record_keys v config iswalnum h (events (actions v) stack v.driveInfo.rootDirCluster) {}
  rw [hfold] at hkeys
  have hmem : (start, size) ∈ st.recoveryList.map (fun i => (i.cluster, i.fileSize)) ↔
      (start, size) ∈
        (events (actions v) stack v.driveInfo.rootDirCluster).map fun f => (f.cluster, f.size.toUInt64) := by
    rw [hkeys]; simp
  simpa only [List.mem_map, Prod.mk.injEq] using hmem

theorem deletedFile_iff_event {stack : Nat} (hs : Shallow (actions v) stack v.driveInfo.rootDirCluster)
    (start : UInt32) (size : UInt64) :
    (∃ f ∈ events (actions v) stack v.driveInfo.rootDirCluster, f.cluster = start ∧ f.size.toUInt64 = size) ↔
      DeletedFile v IsUsedDirectoryEntry start size := by
  constructor
  · rintro ⟨⟨name, c, sz⟩, hf, rfl, rfl⟩
    obtain ⟨d, hd, hem⟩ := (mem_events hs).mp hf
    obtain ⟨hv, e, he, hdel, hev, h1, h2⟩ := (emits_iff v).mp ⟨name, hem⟩
    have hroot : v.isValidCluster v.driveInfo.rootDirCluster = true := by
      rcases ReflTransGen.cases_head hd with rfl | ⟨_, hc, -⟩
      · exact hv
      · exact ((calls_iff v).mp hc).1
    exact ⟨d, (reachable_iff v).mpr ⟨hroot, hd⟩, e, he, hdel, hev, h1, by rw [h2]⟩
  · rintro ⟨d, hd, e, he, hdel, hev, rfl, rfl⟩
    obtain ⟨name, hem⟩ := (emits_iff v).mpr ⟨hd.valid, e, he, hdel, hev, rfl, rfl⟩
    exact ⟨_, (mem_events hs).mpr ⟨d, ((reachable_iff v).mp hd).2, hem⟩, rfl, rfl⟩

theorem scan_exact (h : (config.recover || config.analyze) = true) :
    ScanExact v config iswalnum IsUsedDirectoryEntry := by
  intro hac
  constructor
  · obtain ⟨stack, hs⟩ := (exists_shallow_iff_acyclic v).mpr hac
    exact ⟨stack, (scanRoot_isSome_iff v config iswalnum).mpr hs⟩
  · intro stack st hst start size
    have hs := (scanRoot_isSome_iff v config iswalnum).mp (by rw [hst]; rfl)
    rw [listed_iff_event v config iswalnum h hst]
    exact deletedFile_iff_event v hs start size

end

/-- The root directory holds a subdirectory in cluster 3, which holds a deleted file. -/
def nested : Volume := smallVolume [(2, rawEntry 0x44 0x10 3 0), (3, rawEntry 0xE5 0x20 4 9)]

/-- The same subdirectory, behind a deleted file of the root directory. -/
def nestedTwo : Volume :=
  smallVolume [(2, rawEntry 0xE5 0x20 5 3 ++ rawEntry 0x44 0x10 3 0), (3, rawEntry 0xE5 0x20 4 9), (4, [1]), (5, [2, 3])]

theorem nested_acyclic : Acyclic nested IsUsedDirectoryEntry := by
  rw [← exists_shallow_iff_acyclic]
  have hscan : (scanRoot nested {} (fun _ => true) 3 {}).isSome := by decide +kernel
  exact ⟨3, (scanRoot_isSome_iff nested {} fun _ => true).mp hscan⟩

theorem scan_exact_nested : ∃ stack st,
    scanRoot nested { recover := true } (fun _ => true) stack {} = some st ∧
      ∃ info ∈ st.recoveryList, info.cluster = 4 ∧ info.fileSize = 9 := by
  obtain ⟨⟨stack, hs⟩, hlist⟩ := scan_exact nested { recover := true } (fun _ => true) rfl nested_acyclic
  obtain ⟨st, hst⟩ := Option.isSome_iff_exists.mp hs
  refine ⟨stack, st, hst, (hlist stack st hst 4 9).mpr ?_⟩
  refine ⟨3, .step (.root (by decide)) (.subdir (e := .ofBytes (rawEntry 0x44 0x10 3 0)) ?_ ?_ ?_), ?_⟩
  · exact (mem_entriesOf nested).mpr ⟨2, by decide, _, rfl, mem_visibleEntries_cons.mpr (.inl rfl)⟩
  · decide
  · decide
  · refine ⟨.ofBytes (rawEntry 0xE5 0x20 4 9), ?_, by decide, by decide, by decide, by decide⟩
    exact (mem_entriesOf nested).mpr ⟨3, by decide, _, rfl, mem_visibleEntries_cons.mpr (.inl rfl)⟩

/-- The end marker of the root directory carries a directory attribute and start
cluster 3; cluster 3 holds a deleted file. -/
def markedRoot : Volume := smallVolume [(2, rawEntry 0x00 0x10 3 0), (3, rawEntry 0xE5 0x20 4 9)]

theorem markedRoot_links {c d : UInt32} (hc : c = 2 ∨ c = 3) (h : Link markedRoot IsDirectoryEntry c d) :
    c = 2 ∧ d = 3 := by
  have h2 : ∀ e ∈ entriesOf markedRoot 2, IsDirectoryEntry e → e.startCluster = 3 := by decide +kernel
  have h3 : ∀ e ∈ entriesOf markedRoot 3, ¬ IsDirectoryEntry e := by decide +kernel
  rcases hc with rfl | rfl
  · cases h with
    | next hn => exact absurd hn (by decide +kernel)
    | subdir he hd _ => exact ⟨rfl, h2 _ he hd⟩
  · cases h with
    | next hn => exact absurd hn (by decide +kernel)
    | subdir he hd _ => exact absurd hd (h3 _ he)

theorem markedRoot_reachable {c : UInt32} (h : Reachable markedRoot IsDirectoryEntry c) : c = 2 ∨ c = 3 := by
  induction h with
  | root _ => exact .inl rfl
  | step _ hl ih => exact .inr (markedRoot_links ih hl).2

theorem markedRoot_acyclic : Acyclic markedRoot IsDirectoryEntry := by
  intro c hc ht
  obtain ⟨d, hcd, hdc⟩ := TransGen.head'_iff.mp ht
  obtain ⟨rfl, rfl⟩ := markedRoot_links (markedRoot_reachable hc) hcd
  rcases ReflTransGen.cases_head hdc with h | ⟨e, he, -⟩
  · exact absurd h (by decide)
  · exact absurd (markedRoot_links (.inr rfl) he).1 (by decide)

/-- An end marker is not followed, even when it reads as a directory entry. -/
theorem scan_skips_marker :
    ¬ ∀ (v : Volume) (config : Config) (iswalnum : UInt16 → Bool),
      (config.recover || config.analyze) = true → ScanExact v config iswalnum IsDirectoryEntry := by
  intro h
  have hlist := (h markedRoot { recover := true } (fun _ => true) rfl markedRoot_acyclic).2 1 {} (by rfl)
  have hdel : DeletedFile markedRoot IsDirectoryEntry 4 9 := by
    refine ⟨3, .step (.root (by decide)) (.subdir (e := .ofBytes (rawEntry 0x00 0x10 3 0)) ?_ ?_ ?_), ?_⟩
    · exact (mem_entriesOf markedRoot).mpr ⟨2, by decide, _, rfl, mem_visibleEntries_cons.mpr (.inl rfl)⟩
    · decide
    · decide
    · refine ⟨.ofBytes (rawEntry 0xE5 0x20 4 9), ?_, by decide, by decide, by decide, by decide⟩
      exact (mem_entriesOf markedRoot).mpr ⟨3, by decide, _, rfl, mem_visibleEntries_cons.mpr (.inl rfl)⟩
  obtain ⟨info, hinfo, -⟩ := (hlist 4 9).mpr hdel
  cases hinfo

end DataRecovery.FAT32
