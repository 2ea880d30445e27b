import DataRecovery.ExFAT.DepthLimit
import DataRecovery.ExFAT.EntrySets

/-!
# Live directories

`processDirectoryEntry` passes over live entries, so a live directory is visited only
where something else leads to its cluster. A deleted directory is visited, unless a
further stream entry comes before the next file entry of its sector.
-/

namespace DataRecovery.ExFAT

open Traversal Relation

section
variable (v : Volume)

/-- `scanDirectory` of `start` at depth 0 leads to an activation that works through the cluster's sectors. -/
def WorksThrough (start c : UInt32) : Prop :=
  ∃ depth < MAX_RECURSION_DEPTH, v.isValidCluster c = true ∧ ReflTransGen (Calls (actions v)) (start, 0) (c, depth)

def Scanned (c : UInt32) : Prop :=
  ∃ depth < MAX_RECURSION_DEPTH, v.isValidCluster c = true ∧
    ReflTransGen (Calls (actions v)) (v.bootSector.rootDirectoryCluster, 0) (c, depth)

/-- The FAT successors and the entry sets that the parser finds lead from the root to the cluster. -/
def Linked (c : UInt32) : Prop :=
  ∃ depth < MAX_RECURSION_DEPTH, v.isValidCluster c = true ∧
    ReflTransGen (DirLink v) (v.bootSector.rootDirectoryCluster, 0) (c, depth)

/-- The set lies in one sector of the directory that the scan reads, before the entries `post`. -/
def LiesIn (S : EntrySet) (c : UInt32) (post : List (List UInt8)) : Prop :=
  ∃ sector ∈ v.sectorsOf c, sector < v.maxSectorCount ∧ ∃ buffer, v.readSector sector = some buffer ∧
    ∃ pre, (List.range v.entriesPerSector).map (entryAt buffer) = pre ++ (S.entries ++ post)

def IsSubdirectory (S : EntrySet) : Prop := S.isDirectory = true ∧ v.isValidDeletedEntry S.cluster S.size = true

def Subdirectory (c c' : UInt32) : Prop := ∃ S post, IsSubdirectory v S ∧ LiesIn v S c post ∧ S.cluster = c'

def Disturbed (post : List (List UInt8)) : Prop :=
  ∃ front raw rest, post = front ++ raw :: rest ∧ (∀ x ∈ front, isDirectoryEntry (entryType x) = false) ∧
    isStreamExtensionEntry (entryType raw) = true ∧ isEntryInUse (entryType raw) = false

/-- Every directory below a scanned one, at any depth, is scanned, and the deleted files found in it are
listed. -/
def VisitsSubdirectories : Prop :=
  ∀ c c', Scanned v c → ReflTransGen (Subdirectory v) c c' →
    Scanned v c' ∧ ∀ (config : Config) (stack : Nat) (scan : ScanState), (config.recover || config.analyze) = true →
      scanRoot v config stack {} = some scan →
        ∀ d ∈ setsOf v c', accepted v d = true → d.isDirectory = false → d.isDeleted = true →
          ∃ info ∈ scan.recoveryList, ∃ fileId, info = parseFileInfo fileId d

theorem linked_iff_scanned {c : UInt32} : Linked v c ↔ Scanned v c := by
  have hcalls : Calls (actions v) = DirLink v := by
    funext n m
    exact propext (calls_iff v)
  unfold Linked Scanned
  rw [hcalls]

theorem actions_of_scanned {c depth : UInt32} (hdepth : depth < MAX_RECURSION_DEPTH) (hvalid : v.isValidCluster c = true) :
    actions v (c, depth) = (setsOf v c).flatMap (setActions v) ++ nextActions v c depth := by
  unfold actions
  dsimp only
  rw [if_neg (UInt32.not_le.mpr hdepth), if_pos hvalid]

/-! ## Listing -/

theorem exists_listed (config : Config) (h : (config.recover || config.analyze) = true) {d : DirEntryData}
    (es : List DirEntryData) (st : ScanState) (hd : d ∈ es) :
    ∃ info ∈ (es.foldl (fun st e => record config e st) st).recoveryList, ∃ fileId, info = parseFileInfo fileId d := by
  have hrecord : ∀ (st : ScanState) (e : DirEntryData),
      (record config e st).recoveryList = st.recoveryList ++ [parseFileInfo st.fileId e] := by
    intro st e
    unfold record addToRecoveryList
    rw [if_pos h]
  refine exists_mem_foldl ScanState.recoveryList (fun d info => ∃ fileId, info = parseFileInfo fileId d)
    (fun st e info hinfo => ?_) (fun st e => ?_) es st hd
  · rw [hrecord]
    exact List.mem_append_left _ hinfo
  · exact ⟨parseFileInfo st.fileId e, hrecord st e ▸ List.mem_append_right _ (List.mem_singleton_self _), st.fileId, rfl⟩

theorem listed_of_worksThrough {start c : UInt32} (hc : WorksThrough v start c) (config : Config) {stack : Nat}
    {st scan : ScanState} (h : (config.recover || config.analyze) = true)
    (hscan : scanDirectory v config stack start 0 st = some scan) {d : DirEntryData} (hd : d ∈ setsOf v c)
    (hacc : accepted v d = true) (hfile : d.isDirectory = false) (hdel : d.isDeleted = true) :
    ∃ info ∈ scan.recoveryList, ∃ fileId, info = parseFileInfo fileId d := by
  rw [scanDirectory_eq_run] at hscan
  obtain ⟨hs, hfold⟩ := run_eq_some hscan
  obtain ⟨depth, hdepth, hvalid, hreach⟩ := hc
  have hemits : Emits (actions v) (c, depth) d := by
    unfold Emits
    rw [actions_of_scanned v hdepth hvalid]
    refine List.mem_append_left _ (List.mem_flatMap.mpr ⟨d, hd, ?_⟩)
    exact (emit_mem_setActions v).mpr ⟨hacc, hfile, hdel, rfl⟩
  rw [← hfold]
  exact exists_listed config h _ st ((mem_events hs).mpr ⟨_, hreach, hemits⟩)

theorem listed_of_scanned {c : UInt32} (hc : Scanned v c) (config : Config) {stack : Nat} {scan : ScanState}
    (h : (config.recover || config.analyze) = true) (hscan : scanRoot v config stack {} = some scan) {d : DirEntryData}
    (hd : d ∈ setsOf v c) (hacc : accepted v d = true) (hfile : d.isDirectory = false) (hdel : d.isDeleted = true) :
    ∃ info ∈ scan.recoveryList, ∃ fileId, info = parseFileInfo fileId d :=
  listed_of_worksThrough v hc config h hscan hd hacc hfile hdel

/-! ## Deleted directories -/

/-- What the parser has of a directory once it is past the name entries of its set. -/
structure Carries (S : EntrySet) (d : DirEntryData) : Prop where
  longFilename_ne : d.longFilename ≠ []
  startingCluster_eq : d.startingCluster = S.cluster
  fileSize_eq : d.fileSize = S.size
  inFileEntry_eq : d.inFileEntry = true
  isDirectory_eq : d.isDirectory = true

variable {v} {S : EntrySet} {d : DirEntryData}

theorem call_of_carries (hS : IsSubdirectory v S) (h : Carries S d) : .call (S.cluster, 1) ∈ setActions v d := by
  have htwo := (v.isValidCluster_iff.mp (v.isValidCluster_of_deletedEntry hS.2)).1
  refine (call_mem_setActions v).mpr ⟨?_, h.isDirectory_eq, by rw [h.startingCluster_eq]⟩
  unfold accepted
  rw [h.inFileEntry_eq, h.startingCluster_eq, h.fileSize_eq, hS.2, decide_eq_true (UInt32.lt_of_lt_of_le (by decide) htwo),
    bne_iff_ne.mpr h.longFilename_ne]
  rfl

theorem carries_step {raw : List UInt8} (h : Carries S d) (hdir : isDirectoryEntry (entryType raw) = false)
    (hstream : isStreamExtensionEntry (entryType raw) = true → isEntryInUse (entryType raw) = true) :
    Carries S (processDirectoryEntry raw d) := by
  cases huse : isEntryInUse (entryType raw) with
  | true =>
    rw [processDirectoryEntry_live huse]
    exact h
  | false =>
    have hnot : isStreamExtensionEntry (entryType raw) = false := by
      cases hs : isStreamExtensionEntry (entryType raw) with
      | false => rfl
      | true => rw [hstream hs] at huse; cases huse
    unfold processDirectoryEntry
    rw [huse, hnot, hdir]
    cases isFileNameEntry (entryType raw) with
    | true =>
      refine ⟨fun hnil => h.longFilename_ne (List.append_eq_nil_iff.mp hnil).1, ?_, ?_, rfl, ?_⟩
      · exact h.startingCluster_eq
      · exact h.fileSize_eq
      · exact h.isDirectory_eq
    | false => exact ⟨h.longFilename_ne, h.startingCluster_eq, h.fileSize_eq, h.inFileEntry_eq, h.isDirectory_eq⟩

/-- Undisturbed, the parser descends into the directory at the next file entry, or at the end of the sector. -/
theorem call_of_undisturbed (hS : IsSubdirectory v S) : ∀ {post : List (List UInt8)} {d : DirEntryData},
    Carries S d → ¬ Disturbed post → .call (S.cluster, 1) ∈ (entryScanner v).run post d
  | [], _, h, _ => call_of_carries hS h
  | raw :: post, d, h, hpost => by
    unfold Scanner.run
    cases hdir : isDirectoryEntry (entryType raw) with
    | true =>
      apply List.mem_append_left
      have hstep : ((entryScanner v).step d raw).1 = setActions v d := by
        unfold entryScanner
        simp [hdir, h.inFileEntry_eq]
      rw [hstep]
      exact call_of_carries hS h
    | false =>
      apply List.mem_append_right
      rw [step_of_type v hdir]
      refine call_of_undisturbed hS (carries_step h hdir fun hs => ?_) ?_
      · cases huse : isEntryInUse (entryType raw) with
        | true => rfl
        | false => exact absurd ⟨[], raw, post, rfl, (fun x hx => by cases hx), hs, huse⟩ hpost
      · intro hrest
        obtain ⟨front, raw', rest, hsplit, hfront, htype⟩ := hrest
        refine hpost ⟨raw :: front, raw', rest, by rw [hsplit]; rfl, fun x hx => ?_, htype⟩
        rcases List.mem_cons.mp hx with rfl | hx
        · exact hdir
        · exact hfront x hx

theorem carries_set (hdel : S.deleted = true) (hdir : S.isDirectory = true) {rest : List (List UInt8)}
    (hrest : ∀ d, Carries S d → .call (S.cluster, 1) ∈ (entryScanner v).run rest d) (d : DirEntryData) :
    .call (S.cluster, 1) ∈ (entryScanner v).run (S.entries ++ rest) d := by
  have hfile := EntrySet.file_type_deleted hdel
  have hstream := EntrySet.stream_type_deleted hdel
  obtain ⟨d', hd'⟩ : ∃ d', ((entryScanner v).step d S.file).2 = processDirectoryEntry S.file d' := by
    unfold entryScanner
    dsimp only
    split
    · exact ⟨{}, rfl⟩
    · exact ⟨d, rfl⟩
  rw [EntrySet.entries, List.cons_append, List.cons_append, Scanner.run]
  apply List.mem_append_right
  rw [hd', Scanner.run]
  apply List.mem_append_right
  rw [step_of_type v (by rw [hstream]; rfl), (entryScanner v).run_append]
  apply List.mem_append_right
  rw [processDirectoryEntry_file hfile, processDirectoryEntry_stream hstream,
    feed_names v (EntrySet.name_type_deleted hdel) rfl]
  apply hrest
  obtain ⟨name, names, hnames⟩ := List.exists_cons_of_ne_nil S.names_ne
  refine ⟨fun hnil => ?_, rfl, rfl, ?_, hdir⟩
  · have htext := (List.append_eq_nil_iff.mp hnil).2
    rw [hnames] at htext
    exact S.text_ne name (hnames ▸ List.mem_cons_self ..) (List.append_eq_nil_iff.mp htext).1
  · dsimp only
    rw [hnames]
    exact Bool.or_true _

variable (v)

theorem scanned_of_deleted {c : UInt32} {post : List (List UInt8)} (hc : Scanned v c) (hS : IsSubdirectory v S)
    (hlies : LiesIn v S c post) (hdel : S.deleted = true) (hpost : ¬ Disturbed post) : Scanned v S.cluster := by
  obtain ⟨depth, hdepth, hvalid, hreach⟩ := hc
  obtain ⟨sector, hsector, hlimit, buffer, hbuffer, pre, hraws⟩ := hlies
  have hmem : .call (S.cluster, 1) ∈ (setsOfSector v sector).flatMap (setActions v) := by
    unfold setsOfSector
    rw [if_neg (UInt64.not_le.mpr hlimit), hbuffer]
    dsimp only
    rw [hraws, entrySets_eq_run, (entryScanner v).run_append]
    apply List.mem_append_right
    exact carries_set hdel hS.1 (fun d hd => call_of_undisturbed hS hd hpost) _
  have hcall : Calls (actions v) (c, depth) (S.cluster, 1) := by
    unfold Calls
    rw [actions_of_scanned v hdepth hvalid]
    apply List.mem_append_left
    obtain ⟨d, hd, hact⟩ := List.mem_flatMap.mp hmem
    exact List.mem_flatMap.mpr ⟨d, List.mem_flatMap.mpr ⟨sector, hsector, hd⟩, hact⟩
  exact ⟨1, by decide, v.isValidCluster_of_deletedEntry hS.2, hreach.tail hcall⟩

/-- The directory tree is visited exactly when the live directories and the disturbed ones are linked otherwise. -/
theorem visits_subdirectories_iff :
    VisitsSubdirectories v ↔
      ∀ c S post, Linked v c → IsSubdirectory v S → LiesIn v S c post → S.deleted = false ∨ Disturbed post →
        Linked v S.cluster := by
  constructor
  · intro h c S post hc hS hlies _
    rw [linked_iff_scanned] at hc ⊢
    exact (h c S.cluster hc (.single ⟨S, post, hS, hlies, rfl⟩)).1
  · intro h c c' hc htree
    have hscanned : Scanned v c' := by
      induction htree with
      | refl => exact hc
      | tail _ hstep ih =>
        obtain ⟨S, post, hS, hlies, rfl⟩ := hstep
        by_cases hother : S.deleted = false ∨ Disturbed post
        · exact (linked_iff_scanned v).mp (h _ S post ((linked_iff_scanned v).mpr ih) hS hlies hother)
        · rw [not_or] at hother
          exact scanned_of_deleted v ih hS hlies (by simpa using hother.1) hother.2
    exact ⟨hscanned, fun config stack scan hconfig hscan d hd hacc hfile hdel =>
      listed_of_scanned v hscanned config hconfig hscan hd hacc hfile hdel⟩

end

def liveDirectory : Volume :=
  smallVolume [(4, (plainSet false 0x10 3 9 1 Nat.one_pos).entries.flatten),
    (5, (plainSet true 0x20 4 9 1 Nat.one_pos).entries.flatten)]

theorem liveDirectory_missed : ¬ ∀ v : Volume, VisitsSubdirectories v := by
  intro h
  let S := plainSet false 0x10 3 9 1 Nat.one_pos
  obtain ⟨buffer, hbuffer, hraws⟩ : ∃ buffer, liveDirectory.readSector 4 = some buffer ∧
      (List.range liveDirectory.entriesPerSector).map (entryAt buffer) =
        [] ++ (S.entries ++ List.replicate 13 unusedEntry) := Option.map_eq_some_iff.mp (by decide +kernel)
  have hlies : LiesIn liveDirectory S 2 (List.replicate 13 unusedEntry) :=
    ⟨4, by decide +kernel, by decide, buffer, hbuffer, [], hraws⟩
  have hroot : Scanned liveDirectory 2 := ⟨0, by decide, by decide, .refl⟩
  have hstep : Subdirectory liveDirectory 2 3 := ⟨S, _, ⟨by decide, by decide⟩, hlies, by decide⟩
  obtain ⟨depth, -, -, hreach⟩ := (h liveDirectory 2 3 hroot (.single hstep)).1
  rcases ReflTransGen.cases_head hreach with heq | ⟨next, hcall, -⟩
  · exact absurd (show (2 : UInt32) = 3 from congrArg Prod.fst heq) (by decide)
  · have hnone : actions liveDirectory (2, 0) = [] := List.eq_nil_of_length_eq_zero (by decide +kernel)
    have hmem : .call next ∈ actions liveDirectory (2, 0) := hcall
    rw [hnone] at hmem
    cases hmem

end DataRecovery.ExFAT
