import DataRecovery.Chunks
import DataRecovery.ExFAT.DepthLimit
import DataRecovery.ExFAT.EntrySets

/-!
# exFAT entry sets and sector boundaries

Each sector is parsed on its own, so a set is found only as far as it lies in one
sector. A set that is cut is still found as it is when its first three entries are
together and it is a directory, or when only its file entry is cut off and it is none.
-/

namespace DataRecovery.ExFAT

open Scanner

def foundIn (v : Volume) (cluster : List UInt8) (entriesPerSector sectors : Nat) : List Found :=
  (List.range sectors).flatMap fun i =>
    (entrySets ((List.range entriesPerSector).map
      (entryAt (slice cluster (32 * entriesPerSector * i) (32 * entriesPerSector)))) {}).flatMap (setActions v)

/-- At position `p` the set is found as in one piece: it ends in the sector, or it is a directory
and its first name entry is in the sector, or it is a file and the next sector holds all of it
but the file entry. -/
def EntrySet.Fits (S : EntrySet) (m p : Nat) : Prop :=
  S.entries.length ≤ room m p ∨ S.isDirectory = true ∧ 3 ≤ room m p ∨
    S.isDirectory = false ∧ room m p = 1 ∧ S.entries.length ≤ m + 1

section
variable (v : Volume)

def EntrySet.foundAt (S : EntrySet) (m p : Nat) : List Found :=
  if S.deleted then
    if S.entries.length ≤ room m p then setActions v (S.seen S.isDirectory S.names)
    else if room m p = 1 then setActions v (S.seen false (S.names.take (m - 1)))
    else setActions v (S.seen S.isDirectory (S.names.take (room m p - 2)))
  else []

def EntrySet.found (S : EntrySet) : List Found :=
  if S.deleted then setActions v (S.seen S.isDirectory S.names) else []

def foundFrom (m : Nat) : Nat → List EntrySet → List Found
  | _, [] => []
  | p, S :: sets => S.foundAt v m p ++ foundFrom m (p + S.entries.length) sets

/-! ## The parser between two sets -/

/-- Between two sets the parser has seen nothing, or a name entry of a deleted set. -/
def Settled (d : DirEntryData) : Prop := d = {} ∨ d.inFileEntry = true ∧ d.isDeleted = true

theorem setActions_isDeleted {d : DirEntryData} (hd : d.inFileEntry = true → d.isDeleted = true) :
    setActions v { d with isDeleted := true } = setActions v d := by
  cases hin : d.inFileEntry with
  | true =>
    obtain ⟨_, _, _, _, _, _⟩ := d
    obtain rfl := hd hin
    obtain rfl := hin
    rfl
  | false =>
    rw [setActions_of_not v (accepted_of_not_inFileEntry v hin)]
    exact setActions_of_not v (accepted_of_not_inFileEntry v rfl)

theorem Settled.isDeleted {d : DirEntryData} (hd : Settled d) (hin : d.inFileEntry = true) : d.isDeleted = true := by
  rcases hd with rfl | hd
  · cases hin
  · exact hd.2

theorem runBlocks_unused (m : Nat) : ∀ (pad p : Nat) {d : DirEntryData}, (d.inFileEntry = true → d.isDeleted = true) →
    (entryScanner v).runBlocks m p (List.replicate pad unusedEntry) d = setActions v d
  | 0, _, _, _ => rfl
  | pad + 1, p, d, hd => by
    have hstep : (entryScanner v).step d unusedEntry = ([], { d with isDeleted := true }) := rfl
    rw [List.replicate_succ, Scanner.runBlocks, hstep]
    split
    · rw [runBlocks_unused m pad (p + 1) (d := (entryScanner v).start) (fun h => by cases h)]
      show [] ++ (setActions v _ ++ (entryScanner v).close (entryScanner v).start) = _
      rw [setActions_isDeleted v hd, (entryScanner v).close_start, List.nil_append, List.append_nil]
    · rw [runBlocks_unused m pad (p + 1) (d := { d with isDeleted := true }) (fun _ => rfl), setActions_isDeleted v hd]
      rfl

theorem isDirectoryEntry_file (S : EntrySet) : isDirectoryEntry (entryType S.file) = true := by
  rw [S.file_type]
  cases S.deleted with
  | true => rfl
  | false => rfl

/-- A file entry completes what came before it. -/
theorem step_file (S : EntrySet) {d : DirEntryData} (hd : Settled d) :
    (entryScanner v).step d S.file = (setActions v d, processDirectoryEntry S.file {}) := by
  have hfile := isDirectoryEntry_file S
  rcases hd with rfl | ⟨hin, -⟩
  · show _ = ((entryScanner v).close (entryScanner v).start, processDirectoryEntry S.file {})
    rw [(entryScanner v).close_start]
    unfold entryScanner
    simp
  · unfold entryScanner
    simp [hfile, hin]

/-- What comes after a set is read as if the parser had nothing in hand. -/
theorem resumes_sets (sets : List EntrySet) (pad : Nat) {d : DirEntryData} (hd : Settled d) :
    (entryScanner v).Resumes (sets.flatMap EntrySet.entries ++ List.replicate pad unusedEntry) d := by
  intro m p
  cases sets with
  | nil =>
    rw [List.flatMap_nil, List.nil_append, runBlocks_unused v m pad p hd.isDeleted]
    rw [runBlocks_unused v m pad p (d := (entryScanner v).start) (fun h => by cases h)]
    show _ = setActions v d ++ (entryScanner v).close (entryScanner v).start
    rw [(entryScanner v).close_start, List.append_nil]
  | cons S sets =>
    have hfresh := step_file v S (.inl rfl)
    rw [← entryScanner_start v] at hfresh
    rw [List.flatMap_cons, EntrySet.entries, List.cons_append, List.cons_append, Scanner.runBlocks, Scanner.runBlocks,
      step_file v S hd, hfresh]
    show _ = setActions v d ++ ((entryScanner v).close (entryScanner v).start ++ _)
    rw [(entryScanner v).close_start]
    rfl

/-! ## One set -/

theorem runBlocks_orphans {names rest : List (List UInt8)} {m : Nat} (hnames : ∀ name ∈ names, entryType name = 0x41)
    (hrest : ∀ d, Settled d → (entryScanner v).Resumes rest d) : ∀ {p : Nat} {d : DirEntryData},
      d.startingCluster = 0 → Settled d →
        (entryScanner v).runBlocks m p (names ++ rest) d =
          (entryScanner v).runBlocks m (p + names.length) rest (entryScanner v).start := by
  have hclose : ∀ {d : DirEntryData}, d.startingCluster = 0 → (entryScanner v).close d = [] :=
    fun h => setActions_of_not v (accepted_of_no_cluster v h)
  induction names with
  | nil =>
    intro p d hcluster hd
    rw [List.nil_append, hrest d hd, hclose hcluster]
    rfl
  | cons name names ih =>
    intro p d hcluster hd
    have hname := hnames name (List.mem_cons_self ..)
    have ih' := @ih fun x hx => hnames x (List.mem_cons_of_mem _ hx)
    obtain ⟨hcluster', hd'⟩ : (processDirectoryEntry name d).startingCluster = 0 ∧
        Settled (processDirectoryEntry name d) := by
      rw [processDirectoryEntry_name hname]
      exact ⟨hcluster, .inr ⟨rfl, rfl⟩⟩
    rw [List.cons_append, Scanner.runBlocks, step_of_type v (by rw [hname]; rfl), List.nil_append, List.length_cons,
      Nat.add_comm names.length 1, ← Nat.add_assoc]
    split
    · rw [hclose hcluster', List.nil_append]
      exact ih' rfl (.inl rfl)
    · exact ih' hcluster' hd'

theorem runBlocks_live {raws rest : List (List UInt8)} {m : Nat}
    (hlive : ∀ raw ∈ raws, isEntryInUse (entryType raw) = true) :
    ∀ {p : Nat}, (entryScanner v).runBlocks m p (raws ++ rest) {} =
      (entryScanner v).runBlocks m (p + raws.length) rest {} := by
  induction raws with
  | nil => intro p; rfl
  | cons raw raws ih =>
    intro p
    have hstep : (entryScanner v).step {} raw = ([], {}) := by
      unfold entryScanner
      simp [processDirectoryEntry_live (hlive raw (List.mem_cons_self ..))]
    have hclose : (entryScanner v).close {} = [] := (entryScanner v).close_start
    have ih' := @ih fun x hx => hlive x (List.mem_cons_of_mem _ hx)
    rw [List.cons_append, Scanner.runBlocks, hstep, hclose, List.nil_append, List.nil_append, List.length_cons,
      Nat.add_comm raws.length 1, ← Nat.add_assoc]
    split
    · exact ih'
    · exact ih'

theorem isEntryInUse_of_live {S : EntrySet} (h : S.deleted = false) :
    ∀ raw ∈ S.entries, isEntryInUse (entryType raw) = true := by
  intro raw hraw
  rcases List.mem_cons.mp hraw with rfl | hraw
  · rw [S.file_type, h]; rfl
  · rcases List.mem_cons.mp hraw with rfl | hraw
    · rw [S.stream_type, h]; rfl
    · rw [S.name_type raw hraw, h]; rfl

theorem settled_seen {S : EntrySet} {isDirectory : Bool} {names : List (List UInt8)} (h : names ≠ []) :
    Settled (S.seen isDirectory names) := by
  refine .inr ⟨?_, rfl⟩
  cases names with
  | nil => exact absurd rfl h
  | cons name names => rfl

theorem run_of_feed {raws : List (List UInt8)} {d d' : DirEntryData} (h : (entryScanner v).feed raws d = ([], d')) :
    (entryScanner v).run raws d = setActions v d' := by
  rw [(entryScanner v).run_eq_feed, h]
  rfl

section
variable {m : Nat} (hm : 0 < m) {rest : List (List UInt8)}
  (hrest : ∀ d, Settled d → (entryScanner v).Resumes rest d)
include hm hrest

/-- The piece up to the end of the sector is all that counts when only name entries are left. -/
theorem runBlocks_cut {piece names : List (List UInt8)} (hnames : ∀ name ∈ names, entryType name = 0x41)
    {p : Nat} {d d' : DirEntryData} (hlen : piece.length = room m p) (hfeed : (entryScanner v).feed piece d = ([], d')) :
    (entryScanner v).runBlocks m p (piece ++ names ++ rest) d =
      setActions v d' ++ (entryScanner v).runBlocks m (p + (piece ++ names).length) rest {} := by
  rw [List.append_assoc, (entryScanner v).runBlocks_append_block hm hlen, run_of_feed v hfeed]
  rw [entryScanner_start, runBlocks_orphans v hnames hrest rfl (.inl rfl), List.length_append, Nat.add_assoc]
  rfl

/-- The stream and name entries of a set whose file entry is left behind, from the start of a sector. -/
theorem runBlocks_streamed {S : EntrySet} (hdel : S.deleted = true) {p : Nat} (hfull : room m p = m) :
    (entryScanner v).runBlocks m p (S.stream :: S.names ++ rest) {} =
      setActions v (S.seen false (S.names.take (m - 1))) ++
        (entryScanner v).runBlocks m (p + (S.names.length + 1)) rest {} := by
  have htype := EntrySet.name_type_deleted hdel
  by_cases hle : S.names.length + 1 ≤ m
  · have hfeed := EntrySet.feed_stream v hdel htype (d := {}) rfl rfl
    have hresumes : (entryScanner v).Resumes rest ((entryScanner v).feed (S.stream :: S.names) {}).2 := by
      rw [hfeed]
      exact hrest _ (settled_seen S.names_ne)
    rw [(entryScanner v).runBlocks_record hm (by rw [hfull]; exact hle) hresumes, run_of_feed v hfeed,
      List.take_of_length_le (by omega), List.length_cons]
    rfl
  · have htake : ∀ name ∈ S.names.take (m - 1), entryType name = 0x41 := fun name h => htype name (List.mem_of_mem_take h)
    have hdrop : ∀ name ∈ S.names.drop (m - 1), entryType name = 0x41 := fun name h => htype name (List.mem_of_mem_drop h)
    have hfeed := EntrySet.feed_stream v hdel htake (d := {}) rfl rfl
    have hpiece : (S.stream :: S.names.take (m - 1)).length = room m p := by
      rw [hfull, List.length_cons, List.length_take]
      omega
    have hcutting := runBlocks_cut v hm hrest hdrop hpiece hfeed
    rw [List.cons_append, List.take_append_drop, List.length_cons] at hcutting
    exact hcutting

theorem runBlocks_deleted {S : EntrySet} (hdel : S.deleted = true) (p : Nat) :
    (entryScanner v).runBlocks m p (S.entries ++ rest) {} =
      S.foundAt v m p ++ (entryScanner v).runBlocks m (p + S.entries.length) rest {} := by
  have htype := EntrySet.name_type_deleted hdel
  have hlen : S.entries.length = S.names.length + 2 := rfl
  have hroom := room_pos (p := p) hm
  unfold EntrySet.foundAt
  rw [hdel, if_pos rfl]
  split
  · rename_i hle
    have hfeed := EntrySet.feed_file v hdel htype
    have hresumes : (entryScanner v).Resumes rest ((entryScanner v).feed S.entries {}).2 := by
      rw [EntrySet.entries, hfeed]
      exact hrest _ (settled_seen S.names_ne)
    rw [(entryScanner v).runBlocks_record hm hle hresumes, EntrySet.entries, run_of_feed v hfeed]
    rfl
  · split
    · -- the file entry alone: what follows is read as a set without it
      rename_i hcut hone
      have hfile : (entryScanner v).run [S.file] {} = [] := by
        have hstep : (entryScanner v).run [S.file] {} = [] ++ setActions v (processDirectoryEntry S.file {}) := by
          unfold Scanner.run entryScanner
          simp [Scanner.run]
        rw [hstep, processDirectoryEntry_file (EntrySet.file_type_deleted hdel), List.nil_append]
        exact setActions_of_not v (accepted_of_not_inFileEntry v rfl)
      have hnext : room m (p + 1) = m := room_of_dvd (hone ▸ dvd_add_room hm)
      rw [show S.entries ++ rest = [S.file] ++ (S.stream :: S.names ++ rest) from rfl]
      rw [(entryScanner v).runBlocks_append_block hm (show [S.file].length = room m p from hone.symm), hfile,
        List.nil_append, List.length_singleton, entryScanner_start, runBlocks_streamed v hm hrest hdel hnext, hlen,
        Nat.add_assoc p 1, Nat.add_comm 1]
    · rename_i hcut hone
      have htake : ∀ name ∈ S.names.take (room m p - 2), entryType name = 0x41 := fun name h =>
        htype name (List.mem_of_mem_take h)
      have hdrop : ∀ name ∈ S.names.drop (room m p - 2), entryType name = 0x41 := fun name h =>
        htype name (List.mem_of_mem_drop h)
      have hfeed := EntrySet.feed_file v hdel htake
      have hpiece : (S.file :: S.stream :: S.names.take (room m p - 2)).length = room m p := by
        rw [List.length_cons, List.length_cons, List.length_take]
        omega
      have hcutting := runBlocks_cut v hm hrest hdrop hpiece hfeed
      rw [List.cons_append, List.cons_append, List.cons_append, List.take_append_drop] at hcutting
      exact hcutting

theorem runBlocks_set (S : EntrySet) (p : Nat) :
    (entryScanner v).runBlocks m p (S.entries ++ rest) {} =
      S.foundAt v m p ++ (entryScanner v).runBlocks m (p + S.entries.length) rest {} := by
  cases hdel : S.deleted with
  | true => exact runBlocks_deleted v hm hrest hdel p
  | false =>
    unfold EntrySet.foundAt
    rw [hdel]
    exact runBlocks_live v (isEntryInUse_of_live hdel)

end

/-! ## A cluster of sets -/

theorem runBlocks_sets {m : Nat} (hm : 0 < m) (pad : Nat) : ∀ (sets : List EntrySet) (p : Nat),
    (entryScanner v).runBlocks m p (sets.flatMap EntrySet.entries ++ List.replicate pad unusedEntry) {} =
      foundFrom v m p sets
  | [], p => runBlocks_unused v m pad p (d := {}) (fun h => by cases h)
  | S :: sets, p => by
    rw [List.flatMap_cons, List.append_assoc, runBlocks_set v hm fun d hd => resumes_sets v sets pad hd]
    rw [runBlocks_sets hm pad sets]
    rfl

theorem accepted_seen {S : EntrySet} {isDirectory : Bool} {names : List (List UInt8)}
    (h : ∀ name ∈ names, name ∈ S.names) :
    accepted v (S.seen isDirectory names) = (!names.isEmpty && v.isValidDeletedEntry S.cluster S.size) := by
  unfold accepted
  cases names with
  | nil => rfl
  | cons name names =>
    have htext : (extractFileName name ++ names.flatMap extractFileName != []) = true := by
      rw [bne_iff_ne]
      intro hnil
      exact S.text_ne name (h name (List.mem_cons_self ..)) (List.append_eq_nil_iff.mp hnil).1
    show (true && (extractFileName name ++ names.flatMap extractFileName != []) && decide (0 < S.cluster) &&
      v.isValidDeletedEntry S.cluster S.size) = _
    rw [htext]
    cases hvalid : v.isValidDeletedEntry S.cluster S.size with
    | false => rw [Bool.and_false, Bool.and_false]
    | true =>
      have htwo := (v.isValidCluster_iff.mp (v.isValidCluster_of_deletedEntry hvalid)).1
      rw [decide_eq_true (UInt32.lt_of_lt_of_le (by decide) htwo)]
      rfl

theorem setActions_seen {S : EntrySet} {isDirectory : Bool} {names : List (List UInt8)}
    (hvalid : v.isValidDeletedEntry S.cluster S.size = true) (h : ∀ name ∈ names, name ∈ S.names) (hne : names ≠ []) :
    setActions v (S.seen isDirectory names) =
      if isDirectory then [.call (S.cluster, 1)] else [.emit (S.seen isDirectory names)] := by
  unfold setActions
  rw [accepted_seen v h, hvalid, if_pos (by simpa using hne)]
  rfl

theorem length_setActions (d : DirEntryData) : (setActions v d).length ≤ 1 := by
  unfold setActions
  split
  · split
    · exact Nat.le_refl _
    · split
      · exact Nat.le_refl _
      · exact Nat.zero_le _
  · exact Nat.zero_le _

namespace EntrySet
variable {S : EntrySet} {m p : Nat}

theorem found_of_invalid (h : S.deleted = false ∨ v.isValidDeletedEntry S.cluster S.size = false) :
    S.foundAt v m p = [] ∧ S.found v = [] := by
  unfold foundAt found
  rcases h with hlive | hvalid
  · rw [hlive]
    exact ⟨rfl, rfl⟩
  · have hnone : ∀ {isDirectory names}, (∀ name ∈ names, name ∈ S.names) →
        setActions v (S.seen isDirectory names) = [] := by
      intro isDirectory names h
      apply setActions_of_not
      rw [accepted_seen v h, hvalid, Bool.and_false]
    rw [hnone fun _ h => h, hnone fun _ h => List.mem_of_mem_take h, hnone fun _ h => List.mem_of_mem_take h]
    simp

theorem length_le_of_text {n : Nat}
    (h : (S.names.take n).flatMap extractFileName = S.names.flatMap extractFileName) : S.names.length ≤ n := by
  conv at h => rhs; rw [← List.take_append_drop n S.names, List.flatMap_append]
  have hnil := List.append_right_eq_self.mp h.symm
  cases hdrop : S.names.drop n with
  | nil => exact List.drop_eq_nil_iff.mp hdrop
  | cons name names =>
    have hmem : name ∈ S.names := List.mem_of_mem_drop (hdrop ▸ List.mem_cons_self ..)
    rw [hdrop] at hnil
    exact absurd (List.append_eq_nil_iff.mp hnil).1 (S.text_ne name hmem)

theorem setActions_seen_iff (hvalid : v.isValidDeletedEntry S.cluster S.size = true) {isDirectory : Bool} {n : Nat} :
    setActions v (S.seen isDirectory (S.names.take n)) = setActions v (S.seen S.isDirectory S.names) ↔
      0 < n ∧ isDirectory = S.isDirectory ∧ (S.isDirectory = true ∨ S.names.length ≤ n) := by
  have hnames : S.names ≠ [] := S.names_ne
  rw [setActions_seen v hvalid (fun _ h => h) hnames]
  cases n with
  | zero =>
    rw [List.take_zero, setActions_of_not v (accepted_of_not_inFileEntry v rfl)]
    cases S.isDirectory with
    | true => exact ⟨fun h => (by cases h), fun h => absurd h.1 (Nat.lt_irrefl 0)⟩
    | false => exact ⟨fun h => (by cases h), fun h => absurd h.1 (Nat.lt_irrefl 0)⟩
  | succ n =>
    have htake : S.names.take (n + 1) ≠ [] := by
      cases hS : S.names with
      | nil => exact absurd hS hnames
      | cons name names => exact List.cons_ne_nil _ _
    rw [setActions_seen v hvalid (fun _ h => List.mem_of_mem_take h) htake]
    cases hdir : S.isDirectory with
    | true =>
      cases isDirectory with
      | true => exact ⟨fun _ => ⟨Nat.succ_pos n, rfl, .inl rfl⟩, fun _ => rfl⟩
      | false => exact ⟨fun h => (by cases h), fun h => (by cases h.2.1)⟩
    | false =>
      cases isDirectory with
      | true => exact ⟨fun h => (by cases h), fun h => (by cases h.2.1)⟩
      | false =>
        constructor
        · intro h
          have hseen := Action.emit.inj (List.cons.inj h).1
          exact ⟨Nat.succ_pos n, rfl, .inr (length_le_of_text (congrArg DirEntryData.longFilename hseen))⟩
        · rintro ⟨-, -, h | h⟩
          · cases h
          · rw [List.take_of_length_le h]

theorem foundAt_eq_found_of_valid (hm : 0 < m) (hdel : S.deleted = true)
    (hvalid : v.isValidDeletedEntry S.cluster S.size = true) : S.foundAt v m p = S.found v ↔ S.Fits m p := by
  have hlen : S.entries.length = S.names.length + 2 := rfl
  have hroom := room_pos (p := p) hm
  have hnames := List.length_pos_iff.mpr S.names_ne
  unfold foundAt found Fits
  rw [hdel, if_pos rfl, if_pos rfl]
  split
  · rename_i hle
    exact ⟨fun _ => .inl hle, fun _ => rfl⟩
  · split
    -- only the file entry lies before the boundary
    · rename_i hcut hone
      rw [setActions_seen_iff v hvalid]
      cases S.isDirectory with
      | true =>
        refine ⟨fun h => (by cases h.2.1), fun h => ?_⟩
        rcases h with h | ⟨-, h⟩ | ⟨h, -⟩
        · exact absurd h hcut
        · omega
        · cases h
      | false =>
        constructor
        · rintro ⟨hpos, -, h | h⟩
          · cases h
          · exact .inr (.inr ⟨rfl, hone, by omega⟩)
        · rintro (h | ⟨h, -⟩ | ⟨-, -, h⟩)
          · exact absurd h hcut
          · cases h
          · exact ⟨by omega, rfl, .inr (by omega)⟩
    · rename_i hcut hone
      rw [setActions_seen_iff v hvalid]
      cases S.isDirectory with
      | true =>
        constructor
        · rintro ⟨hpos, -⟩
          exact .inr (.inl ⟨rfl, by omega⟩)
        · rintro (h | ⟨-, h⟩ | ⟨h, -⟩)
          · exact absurd h hcut
          · exact ⟨by omega, rfl, .inl rfl⟩
          · cases h
      | false =>
        constructor
        · rintro ⟨hpos, -, h | h⟩
          · cases h
          · exact .inl (by omega)
        · rintro (h | ⟨h, -⟩ | ⟨-, h, -⟩)
          · exact absurd h hcut
          · cases h
          · exact absurd h hone

/-- A set is found as in one piece exactly when it fits where it lies, or is not to be found at all. -/
theorem foundAt_eq_found_iff (hm : 0 < m) :
    S.foundAt v m p = S.found v ↔
      (S.deleted = true → v.isValidDeletedEntry S.cluster S.size = true → S.Fits m p) := by
  cases hdel : S.deleted with
  | false =>
    obtain ⟨hat, hfound⟩ := found_of_invalid (m := m) (p := p) v (.inl hdel)
    rw [hat, hfound]
    exact ⟨fun _ h => (by cases h), fun _ => rfl⟩
  | true =>
    cases hvalid : v.isValidDeletedEntry S.cluster S.size with
    | false =>
      obtain ⟨hat, hfound⟩ := found_of_invalid (m := m) (p := p) v (.inr hvalid)
      rw [hat, hfound]
      exact ⟨fun _ _ h => (by cases h), fun _ => rfl⟩
    | true =>
      rw [foundAt_eq_found_of_valid v hm hdel hvalid]
      exact ⟨fun h _ _ => h, fun h => h rfl rfl⟩

theorem length_foundAt : (S.foundAt v m p).length ≤ (S.found v).length := by
  cases hdel : S.deleted with
  | false => rw [(found_of_invalid v (.inl hdel)).1]; exact Nat.zero_le _
  | true =>
    cases hvalid : v.isValidDeletedEntry S.cluster S.size with
    | false => rw [(found_of_invalid v (.inr hvalid)).1]; exact Nat.zero_le _
    | true =>
      have hone : (S.found v).length = 1 := by
        unfold found
        rw [hdel, if_pos rfl, setActions_seen v hvalid (fun _ h => h) S.names_ne]
        split
        · rfl
        · rfl
      rw [hone]
      unfold foundAt
      rw [hdel, if_pos rfl]
      split
      · exact length_setActions v _
      · split
        · exact length_setActions v _
        · exact length_setActions v _

end EntrySet

theorem foundFrom_eq_iff {m : Nat} (hm : 0 < m) (sets : List EntrySet) (p : Nat) :
    foundFrom v m p sets = sets.flatMap (EntrySet.found v) ↔
      ∀ pre S post, sets = pre ++ S :: post → S.deleted = true →
        v.isValidDeletedEntry S.cluster S.size = true → S.Fits m (p + (pre.flatMap EntrySet.entries).length) := by
  rw [placed_eq_iff (fun _ => rfl) (fun _ _ _ => rfl) (fun q S => EntrySet.length_foundAt (S := S) (p := q) v) sets p]
  simp only [EntrySet.foundAt_eq_found_iff v hm]

end

/-! ## Sectors and the whole cluster -/

theorem entryAt_slice {cluster : List UInt8} {m i j : Nat} (hj : j < m) :
    entryAt (slice cluster (32 * m * i) (32 * m)) j = entryAt cluster (m * i + j) := by
  unfold entryAt slice
  rw [List.drop_take, List.take_take, List.drop_drop]
  congr 1
  · omega
  · congr 1
    rw [Nat.mul_add, Nat.mul_assoc]

section
variable (v : Volume) {cluster : List UInt8}

theorem foundIn_eq (m n : Nat) :
    foundIn v cluster m n = (entryScanner v).runBlocks m 0 ((List.range (n * m)).map (entryAt cluster)) {} := by
  let sector := fun i => (List.range m).map (entryAt (slice cluster (32 * m * i) (32 * m)))
  have hsector : ∀ i, sector i = (List.range m).map fun j => entryAt cluster (m * i + j) := fun i =>
    List.map_congr_left fun j hj => entryAt_slice (List.mem_range.mp hj)
  have hblocks : ((List.range n).map sector).flatten = (List.range (n * m)).map (entryAt cluster) := by
    rw [← flatMap_range_chunks, List.flatMap_def, List.map_congr_left fun i _ => hsector i]
  have hlen : ∀ block ∈ (List.range n).map sector, block.length = m := by
    intro block hblock
    obtain ⟨i, -, rfl⟩ := List.mem_map.mp hblock
    rw [List.length_map, List.length_range]
  rw [← hblocks, ← entryScanner_start, ← (entryScanner v).flatMap_run (Nat.dvd_zero m) hlen, List.flatMap_map]
  unfold foundIn
  congr 1
  funext i
  exact entrySets_eq_run v (sector i) {}

/-- What the scan finds in a cluster whose sectors it reads. -/
theorem actions_eq_foundIn {c : UInt32}
    (hread : ∀ i < v.sectorsPerCluster.toNat, (v.clusterToSector c).toUInt64 + UInt64.ofNat i < v.maxSectorCount ∧
      v.readSector ((v.clusterToSector c).toUInt64 + UInt64.ofNat i) =
        some (slice cluster (32 * v.entriesPerSector * i) (32 * v.entriesPerSector))) :
    (setsOf v c).flatMap (setActions v) = foundIn v cluster v.entriesPerSector v.sectorsPerCluster.toNat := by
  unfold setsOf Volume.sectorsOf foundIn
  rw [List.flatMap_map, List.flatMap_assoc, List.flatMap_def, List.flatMap_def]
  congr 1
  apply List.map_congr_left
  intro i hi
  obtain ⟨hlimit, hsector⟩ := hread i (List.mem_range.mp hi)
  unfold setsOfSector
  rw [if_neg (UInt64.not_le.mpr hlimit), hsector]

variable {m n pad : Nat} {sets : List EntrySet}
  (hlayout : (List.range (n * m)).map (entryAt cluster) =
    sets.flatMap EntrySet.entries ++ List.replicate pad unusedEntry)
include hlayout

theorem length_sets : (sets.flatMap EntrySet.entries).length ≤ n * m := by
  have hlen := congrArg List.length hlayout
  rw [List.length_map, List.length_range, List.length_append] at hlen
  omega

theorem sets_of_no_room (h : n * m = 0) : sets = [] := by
  have hlen := length_sets hlayout
  cases sets with
  | nil => rfl
  | cons S sets =>
    rw [List.flatMap_cons, List.length_append, h, EntrySet.entries, List.length_cons] at hlen
    omega

theorem foundIn_sets : foundIn v cluster m n = foundFrom v m 0 sets := by
  rw [foundIn_eq, hlayout]
  cases Nat.eq_zero_or_pos m with
  | inl hm =>
    rw [sets_of_no_room hlayout (by rw [hm, Nat.mul_zero])]
    exact runBlocks_unused v m pad 0 (d := {}) (fun h => by cases h)
  | inr hm => exact runBlocks_sets v hm pad sets 0

theorem foundIn_whole : foundIn v cluster (n * m) 1 = sets.flatMap (EntrySet.found v) := by
  have hlayout' := hlayout
  rw [← Nat.one_mul (n * m)] at hlayout'
  rw [foundIn_sets v hlayout']
  cases Nat.eq_zero_or_pos (n * m) with
  | inl hzero => rw [sets_of_no_room hlayout hzero]; rfl
  | inr hpos =>
    refine (foundFrom_eq_iff v hpos sets 0).mpr fun pre S post hsplit _ _ => .inl ?_
    have hlen := length_sets hlayout
    have hS : 0 < S.entries.length := Nat.succ_pos _
    rw [hsplit, List.flatMap_append, List.flatMap_cons, List.length_append, List.length_append] at hlen
    rw [Nat.zero_add, room, Nat.mod_eq_of_lt (by omega)]
    omega

/-- The sectors of a cluster give what the whole cluster gives exactly when each deleted set fits where it lies. -/
theorem sets_survive_iff :
    foundIn v cluster m n = foundIn v cluster (n * m) 1 ↔
      ∀ pre S post, sets = pre ++ S :: post → S.deleted = true → v.isValidDeletedEntry S.cluster S.size = true →
        S.Fits m (pre.flatMap EntrySet.entries).length := by
  rw [foundIn_whole v hlayout, foundIn_sets v hlayout]
  cases Nat.eq_zero_or_pos m with
  | inl hm =>
    rw [sets_of_no_room hlayout (by rw [hm, Nat.mul_zero])]
    exact ⟨fun _ => forall_split_nil, fun _ => rfl⟩
  | inr hm =>
    have h := foundFrom_eq_iff v hm sets 0
    simp only [Nat.zero_add] at h
    exact h

end

def filledSector : List EntrySet :=
  [plainSet true 0x20 3 9 11 (Nat.succ_pos 10), plainSet true 0x20 4 9 1 Nat.one_pos, plainSet true 0x20 5 9 1 Nat.one_pos]

def filledCluster : List UInt8 := (filledSector.flatMap EntrySet.entries).flatten ++ List.replicate 416 0

theorem sets_survive_filled :
    foundIn (smallVolume []) filledCluster 16 2 = foundIn (smallVolume []) filledCluster 32 1 := by
  have hlayout : (List.range (2 * 16)).map (entryAt filledCluster) =
      filledSector.flatMap EntrySet.entries ++ List.replicate 13 unusedEntry := by decide +kernel
  refine (sets_survive_iff (smallVolume []) hlayout).mpr (forall_split_cons.mpr ⟨fun _ _ => .inl (by decide +kernel),
    forall_split_cons.mpr ⟨fun _ _ => .inl (by decide +kernel), forall_split_cons.mpr ⟨fun _ _ => .inl ?_, forall_split_nil⟩⟩⟩)
  decide +kernel

/-- A set of fourteen entries, and a directory whose name entry is in the next sector. -/
def cutSets : List EntrySet := [plainSet true 0x20 3 9 12 (Nat.succ_pos 11), plainSet true 0x10 4 9 1 Nat.one_pos]

theorem cutSets_lost :
    ¬ ∀ (v : Volume) (cluster : List UInt8) (m n pad : Nat) (sets : List EntrySet),
      (List.range (n * m)).map (entryAt cluster) =
          sets.flatMap EntrySet.entries ++ List.replicate pad unusedEntry →
        foundIn v cluster m n = foundIn v cluster (n * m) 1 := by
  intro h
  have hsame := h (smallVolume []) ((cutSets.flatMap EntrySet.entries).flatten ++ List.replicate 480 0) 16 2 15 cutSets
    (by decide +kernel)
  exact absurd (congrArg List.length hsame) (by decide +kernel)

end DataRecovery.ExFAT
