import DataRecovery.ExFAT.DepthLimit
import DataRecovery.ExFAT.EntrySets
import DataRecovery.Folds

/-!
# Remnants of several sets

The parser of a sector keeps the cluster, size and kind it has read until a name entry
and then a file entry completes a file. Where sets are partly overwritten these come from
different sets. The parser is run here with a trace of the entries each file is made of;
the files that come from one deleted set are told from the stretches between completions.
-/

namespace DataRecovery.ExFAT

/-! ## Kinds of entries -/

def isFileEntry (raw : List UInt8) : Bool := isDirectoryEntry (entryType raw)

theorem deleted_type (type : UInt8) :
    (!isEntryInUse type && isFileNameEntry type) = (type == 0x41) ∧
      (!isEntryInUse type && isStreamExtensionEntry type) = (type == 0x40) ∧
      (!isEntryInUse type && isDirectoryEntry type) = (type == 0x05) := by
  have h : ∀ n < 256, (!isEntryInUse (UInt8.ofNat n) && isFileNameEntry (UInt8.ofNat n)) = (UInt8.ofNat n == 0x41) ∧
      (!isEntryInUse (UInt8.ofNat n) && isStreamExtensionEntry (UInt8.ofNat n)) = (UInt8.ofNat n == 0x40) ∧
      (!isEntryInUse (UInt8.ofNat n) && isDirectoryEntry (UInt8.ofNat n)) = (UInt8.ofNat n == 0x05) := by
    decide +kernel
  have htype := h type.toNat type.toNat_lt
  rw [UInt8.ofNat_toNat] at htype
  exact htype

theorem isFileEntry_of_deleted {raw : List UInt8} (h : entryType raw = 0x05) : isFileEntry raw = true := by
  unfold isFileEntry
  rw [h]
  rfl

/-! ## The trace -/

/-- The entry data, and for each entry it is taken from the entries that lie before it in the sector. -/
structure Traced where
  data : DirEntryData := {}
  names : List (List (List UInt8)) := []
  stream : Option (List (List UInt8)) := none
  deriving DecidableEq

def trace (before : List (List UInt8)) (raw : List UInt8) (t : Traced) : Traced where
  data := processDirectoryEntry raw t.data
  names := if entryType raw = 0x41 then t.names ++ [before] else t.names
  stream := if entryType raw = 0x40 then some before else t.stream

def tracedSets : List (List UInt8) → List (List UInt8) → Traced → List Traced
  | _, [], t => if t.data.inFileEntry then [t] else []
  | before, raw :: rest, t =>
    if isFileEntry raw && t.data.inFileEntry then t :: tracedSets (before ++ [raw]) rest (trace before raw {})
    else tracedSets (before ++ [raw]) rest (trace before raw t)

theorem map_data_tracedSets : ∀ (raws before : List (List UInt8)) (t : Traced),
    (tracedSets before raws t).map Traced.data = entrySets raws t.data
  | [], before, t => by
    unfold tracedSets entrySets
    split
    · rfl
    · rfl
  | raw :: raws, before, t => by
    unfold tracedSets entrySets isFileEntry
    split
    · rw [List.map_cons, map_data_tracedSets raws]
      rfl
    · exact map_data_tracedSets raws _ _

structure Traced.Sound (raws : List (List UInt8)) (t : Traced) : Prop where
  places : ∀ place ∈ t.names ++ t.stream.toList, place <+: raws
  name : t.data.longFilename = t.names.flatMap fun place => extractFileName (raws.getD place.length [])
  stream : (t.data.startingCluster, t.data.fileSize) =
    (t.stream.map fun place => (le32 (raws.getD place.length []) 20, le64 (raws.getD place.length []) 24)).getD (0, 0)

section
variable (v : Volume)

def lists (d : DirEntryData) : Bool := accepted v d && !d.isDirectory && d.isDeleted

/-- All that the file is taken from follows one deleted file entry, with no other file entry between. -/
def Traced.OneSet (t : Traced) : Prop :=
  ∃ pre file, entryType file = 0x05 ∧ ∀ place ∈ t.names ++ t.stream.toList,
    ∃ body, place = pre ++ file :: body ∧ ∀ raw ∈ body, isFileEntry raw = false

def SetsApart (raws : List (List UInt8)) : Prop :=
  ∀ t ∈ tracedSets [] raws {}, lists v t.data = true → t.OneSet

end

/-! ## Stretches -/

structure Stretch where
  before : List (List UInt8)
  entries : List (List UInt8)

/-- The sector is cut before each file entry that completes a file, the first one after a
deleted name entry. -/
def stretchesFrom : List (List UInt8) → List (List UInt8) → List (List UInt8) → List Stretch
  | before, current, [] => [⟨before, current⟩]
  | before, current, raw :: rest =>
    if isFileEntry raw && current.any (entryType · == 0x41) then
      ⟨before, current⟩ :: stretchesFrom (before ++ current) [raw] rest
    else stretchesFrom before (current ++ [raw]) rest

def stretches (raws : List (List UInt8)) : List Stretch := stretchesFrom [] [] raws

namespace Stretch
variable (s : Stretch)

def name : WString := s.entries.flatMap fun raw => if entryType raw == 0x41 then extractFileName raw else []

def stream : UInt32 × UInt64 :=
  ((s.entries.filterMap fun raw =>
    if entryType raw == 0x40 then some (le32 raw 20, le64 raw 24) else none).getLast?).getD (0, 0)

def isDirectory : Bool :=
  ((s.entries.filterMap fun raw =>
    if entryType raw == 0x05 then some (le16 raw 4 &&& 0x10 != 0) else none).getLast?).getD false

structure Lists (v : Volume) : Prop where
  named : s.name ≠ []
  cluster : 0 < s.stream.1
  valid : v.isValidDeletedEntry s.stream.1 s.stream.2 = true
  file : s.isDirectory = false

def FromOneSet : Prop :=
  ∃ pre file body, s.entries = pre ++ file :: body ∧ entryType file = 0x05 ∧
    (∀ raw ∈ body, isFileEntry raw = false) ∧ ∃ raw ∈ body, entryType raw = 0x40

end Stretch

/-! ## The data of a stretch -/

def recordOf (raws : List (List UInt8)) : DirEntryData := raws.foldl (fun d raw => processDirectoryEntry raw d) {}

theorem processDirectoryEntry_eq (raw : List UInt8) (d : DirEntryData) :
    processDirectoryEntry raw d =
      { longFilename := d.longFilename ++ if entryType raw == 0x41 then extractFileName raw else []
        startingCluster := if entryType raw == 0x40 then le32 raw 20 else d.startingCluster
        fileSize := if entryType raw == 0x40 then le64 raw 24 else d.fileSize
        inFileEntry := d.inFileEntry || entryType raw == 0x41
        isDirectory := if entryType raw == 0x05 then le16 raw 4 &&& 0x10 != 0 else d.isDirectory
        isDeleted := d.isDeleted || !isEntryInUse (entryType raw) } := by
  obtain ⟨hname, hstream, hfile⟩ := deleted_type (entryType raw)
  rw [← hname, ← hstream, ← hfile]
  unfold processDirectoryEntry
  cases isEntryInUse (entryType raw) with
  | true => simp
  | false =>
    have hstreamName : isFileNameEntry (entryType raw) = true → isStreamExtensionEntry (entryType raw) = false ∧
        isDirectoryEntry (entryType raw) = false := by
      intro h
      unfold isFileNameEntry at h
      unfold isStreamExtensionEntry isDirectoryEntry
      rw [eq_of_beq h]
      exact ⟨rfl, rfl⟩
    have hstreamFile : isStreamExtensionEntry (entryType raw) = true → isDirectoryEntry (entryType raw) = false := by
      intro h
      unfold isStreamExtensionEntry at h
      unfold isDirectoryEntry
      rw [eq_of_beq h]
      rfl
    cases hn : isFileNameEntry (entryType raw) with
    | true => simp [hstreamName hn]
    | false =>
      cases hs : isStreamExtensionEntry (entryType raw) with
      | true => simp [hstreamFile hs]
      | false => cases isDirectoryEntry (entryType raw) <;> simp

/-! ## The trace tells where the data is from -/

theorem sound_trace {raws before rest : List (List UInt8)} {raw : List UInt8} {t : Traced}
    (hraws : raws = before ++ raw :: rest) (h : t.Sound raws) : (trace before raw t).Sound raws := by
  have hget : raws.getD before.length [] = raw := by
    rw [hraws, List.getD_eq_getElem?_getD, List.getElem?_append_right (Nat.le_refl _), Nat.sub_self]
    rfl
  have hprefix : before <+: raws := ⟨raw :: rest, hraws.symm⟩
  have hnames : ∀ place ∈ t.names, place <+: raws := fun place hp => h.places place (List.mem_append_left _ hp)
  have hstream : ∀ place ∈ t.stream.toList, place <+: raws := fun place hp =>
    h.places place (List.mem_append_right _ hp)
  unfold trace
  refine ⟨fun place hplace => ?_, ?_, ?_⟩
  · rcases List.mem_append.mp hplace with hp | hp
    · dsimp only at hp
      split at hp
      · rcases List.mem_append.mp hp with hp | hp
        · exact hnames place hp
        · exact List.mem_singleton.mp hp ▸ hprefix
      · exact hnames place hp
    · dsimp only at hp
      split at hp
      · exact List.mem_singleton.mp hp ▸ hprefix
      · exact hstream place hp
  · rw [processDirectoryEntry_eq]
    dsimp only
    rw [h.name]
    by_cases htype : entryType raw = 0x41
    · rw [if_pos htype, if_pos (beq_iff_eq.mpr htype), List.flatMap_append, List.flatMap_singleton, hget]
    · rw [if_neg htype, if_neg (mt eq_of_beq htype), List.append_nil]
  · rw [processDirectoryEntry_eq]
    dsimp only
    by_cases htype : entryType raw = 0x40
    · rw [if_pos (beq_iff_eq.mpr htype), if_pos (beq_iff_eq.mpr htype), if_pos htype, Option.map_some, hget]
      rfl
    · rw [if_neg (mt eq_of_beq htype), if_neg (mt eq_of_beq htype), if_neg htype]
      exact h.stream

theorem sound_empty (raws : List (List UInt8)) : Traced.Sound raws {} where
  places := fun place hplace => by cases hplace
  name := rfl
  stream := rfl

theorem sound_tracedSets {raws : List (List UInt8)} : ∀ {rest before : List (List UInt8)} {t : Traced},
    raws = before ++ rest → t.Sound raws → ∀ t' ∈ tracedSets before rest t, t'.Sound raws
  | [], before, t, hraws, h => by
    intro t' ht'
    unfold tracedSets at ht'
    split at ht'
    · exact List.mem_singleton.mp ht' ▸ h
    · cases ht'
  | raw :: rest, before, t, hraws, h => by
    intro t' ht'
    have hnext : raws = (before ++ [raw]) ++ rest := by rw [hraws, List.append_assoc]; rfl
    unfold tracedSets at ht'
    split at ht'
    · rcases List.mem_cons.mp ht' with rfl | ht'
      · exact h
      · exact sound_tracedSets hnext (sound_trace hraws (sound_empty raws)) t' ht'
    · exact sound_tracedSets hnext (sound_trace hraws h) t' ht'

namespace Stretch
variable (s : Stretch)

theorem recordOf_entries :
    (recordOf s.entries).longFilename = s.name ∧
      ((recordOf s.entries).startingCluster, (recordOf s.entries).fileSize) = s.stream ∧
      (recordOf s.entries).inFileEntry = s.entries.any (entryType · == 0x41) ∧
      (recordOf s.entries).isDirectory = s.isDirectory ∧
      (recordOf s.entries).isDeleted = s.entries.any (fun raw => !isEntryInUse (entryType raw)) := by
  have hname := foldl_collect processDirectoryEntry DirEntryData.longFilename _
    (fun raw d => by rw [processDirectoryEntry_eq]) s.entries {}
  have hstream := foldl_get processDirectoryEntry (fun d => (d.startingCluster, d.fileSize))
    (fun raw => if entryType raw == 0x40 then some (le32 raw 20, le64 raw 24) else none)
    (fun raw d => by rw [processDirectoryEntry_eq]; cases entryType raw == 0x40 <;> rfl) s.entries {}
  have hin := foldl_any processDirectoryEntry DirEntryData.inFileEntry _
    (fun raw d => by rw [processDirectoryEntry_eq]) s.entries {}
  have hdir := foldl_get processDirectoryEntry DirEntryData.isDirectory
    (fun raw => if entryType raw == 0x05 then some (le16 raw 4 &&& 0x10 != 0) else none)
    (fun raw d => by rw [processDirectoryEntry_eq]; cases entryType raw == 0x05 <;> rfl) s.entries {}
  have hdel := foldl_any processDirectoryEntry DirEntryData.isDeleted _
    (fun raw d => by rw [processDirectoryEntry_eq]) s.entries {}
  exact ⟨hname, hstream, hin, hdir, hdel⟩

theorem any_name (h : s.name ≠ []) : ∃ raw ∈ s.entries, entryType raw = 0x41 := by
  by_contra hnone
  refine h (List.flatMap_eq_nil_iff.mpr fun raw hraw => if_neg fun htype => ?_)
  exact hnone ⟨raw, hraw, eq_of_beq htype⟩

theorem lists_iff (v : Volume) : lists v (recordOf s.entries) = true ↔ s.Lists v := by
  obtain ⟨hname, hstream, hin, hdir, hdel⟩ := s.recordOf_entries
  have hcluster : (recordOf s.entries).startingCluster = s.stream.1 := congrArg Prod.fst hstream
  have hsize : (recordOf s.entries).fileSize = s.stream.2 := congrArg Prod.snd hstream
  unfold lists accepted
  rw [hname, hcluster, hsize, hin, hdir, hdel]
  constructor
  · intro h
    simp only [Bool.and_eq_true, bne_iff_ne, decide_eq_true_eq, Bool.not_eq_true'] at h
    obtain ⟨⟨⟨⟨⟨-, h1⟩, h2⟩, h3⟩, h4⟩, -⟩ := h
    exact ⟨h1, h2, h3, h4⟩
  · rintro ⟨h1, h2, h3, h4⟩
    obtain ⟨raw, hraw, htype⟩ := s.any_name h1
    have hname41 : s.entries.any (entryType · == 0x41) = true := List.any_eq_true.mpr ⟨raw, hraw, by rw [htype]; rfl⟩
    have hdeleted : s.entries.any (fun raw => !isEntryInUse (entryType raw)) = true :=
      List.any_eq_true.mpr ⟨raw, hraw, by rw [htype]; rfl⟩
    rw [hname41, hdeleted, h3, h4, decide_eq_true h2, bne_iff_ne.mpr h1]
    rfl

end Stretch

/-! ## The places of a stretch -/

def placesOf (type : UInt8) : List (List UInt8) → List (List UInt8) → List (List (List UInt8))
  | _, [] => []
  | before, raw :: rest =>
    if entryType raw = type then before :: placesOf type (before ++ [raw]) rest
    else placesOf type (before ++ [raw]) rest

section
variable {type : UInt8}

theorem placesOf_append : ∀ (xs ys before : List (List UInt8)),
    placesOf type before (xs ++ ys) = placesOf type before xs ++ placesOf type (before ++ xs) ys
  | [], ys, before => by rw [List.append_nil]; rfl
  | x :: xs, ys, before => by
    have ih := placesOf_append xs ys (before ++ [x])
    rw [List.append_assoc, List.singleton_append] at ih
    rw [List.cons_append, placesOf, placesOf, ih]
    split
    · rfl
    · rfl

theorem mem_placesOf : ∀ {raws before place : List (List UInt8)}, place ∈ placesOf type before raws →
    ∃ front raw back, raws = front ++ raw :: back ∧ entryType raw = type ∧ place = before ++ front
  | raw :: raws, before, place, h => by
    have hrest : place ∈ placesOf type (before ++ [raw]) raws →
        ∃ front r back, raw :: raws = front ++ r :: back ∧ entryType r = type ∧ place = before ++ front := by
      intro h
      obtain ⟨front, r, back, rfl, htype, rfl⟩ := mem_placesOf h
      exact ⟨raw :: front, r, back, rfl, htype, by rw [List.append_assoc]; rfl⟩
    unfold placesOf at h
    split at h
    · rename_i htype
      rcases List.mem_cons.mp h with rfl | h
      · exact ⟨[], raw, raws, rfl, htype, (List.append_nil _).symm⟩
      · exact hrest h
    · exact hrest h

theorem placesOf_eq_nil : ∀ {raws before : List (List UInt8)}, (∀ raw ∈ raws, entryType raw ≠ type) →
    placesOf type before raws = []
  | [], _, _ => rfl
  | raw :: raws, before, h => by
    rw [placesOf, if_neg (h raw (List.mem_cons_self ..)),
      placesOf_eq_nil fun x hx => h x (List.mem_cons_of_mem _ hx)]

theorem placesOf_ne_nil {raws before : List (List UInt8)} (h : ∃ raw ∈ raws, entryType raw = type) :
    placesOf type before raws ≠ [] := by
  obtain ⟨raw, hraw, htype⟩ := h
  obtain ⟨front, back, rfl⟩ := List.append_of_mem hraw
  rw [placesOf_append, placesOf, if_pos htype]
  exact List.append_ne_nil_of_right_ne_nil _ (List.cons_ne_nil _ _)

end

def Stretch.traced (s : Stretch) : Traced where
  data := recordOf s.entries
  names := placesOf 0x41 s.before s.entries
  stream := (placesOf 0x40 s.before s.entries).getLast?

theorem traced_append (before current : List (List UInt8)) (raw : List UInt8) :
    trace (before ++ current) raw (Stretch.traced ⟨before, current⟩) = Stretch.traced ⟨before, current ++ [raw]⟩ := by
  have hdata : recordOf (current ++ [raw]) = processDirectoryEntry raw (recordOf current) := by
    unfold recordOf
    rw [List.foldl_append]
    rfl
  unfold trace Stretch.traced
  rw [placesOf_append, placesOf_append, hdata]
  congr 1
  · unfold placesOf placesOf
    split
    · rfl
    · exact (List.append_nil _).symm
  · unfold placesOf placesOf
    split
    · rw [List.getLast?_concat]
    · rw [List.append_nil]

theorem traced_one (before : List (List UInt8)) (raw : List UInt8) :
    trace before raw {} = Stretch.traced ⟨before, [raw]⟩ := by
  have h := traced_append before [] raw
  rw [List.append_nil] at h
  exact h

theorem mem_tracedSets {t : Traced} : ∀ {raws before current : List (List UInt8)},
    t ∈ tracedSets (before ++ current) raws (Stretch.traced ⟨before, current⟩) ↔
      ∃ s ∈ stretchesFrom before current raws, s.entries.any (entryType · == 0x41) = true ∧ t = s.traced
  | [], before, current => by
    have hin := (Stretch.recordOf_entries ⟨before, current⟩).2.2.1
    have hdata : (Stretch.traced ⟨before, current⟩).data = recordOf current := rfl
    unfold tracedSets stretchesFrom
    rw [hdata, hin]
    constructor
    · intro ht
      split at ht
      · rename_i hname
        exact ⟨_, List.mem_singleton_self _, hname, List.mem_singleton.mp ht⟩
      · cases ht
    · rintro ⟨s, hs, hname, rfl⟩
      rw [List.mem_singleton.mp hs] at hname ⊢
      rw [if_pos hname]
      exact List.mem_singleton_self _
  | raw :: raws, before, current => by
    have hin := (Stretch.recordOf_entries ⟨before, current⟩).2.2.1
    have hdata : (Stretch.traced ⟨before, current⟩).data = recordOf current := rfl
    unfold tracedSets stretchesFrom
    rw [hdata, hin]
    split
    · rename_i hcut
      rw [traced_one, List.mem_cons, mem_tracedSets, List.exists_mem_cons_iff]
      simp only [(Bool.and_eq_true_iff.mp hcut).2, true_and]
    · rw [traced_append, List.append_assoc, mem_tracedSets]

/-! ## One set -/

theorem type_ne_of_file {raw : List UInt8} (h : isFileEntry raw = true) :
    entryType raw ≠ 0x40 ∧ entryType raw ≠ 0x41 := by
  unfold isFileEntry at h
  constructor
  · intro htype
    rw [htype] at h
    cases h
  · intro htype
    rw [htype] at h
    cases h

theorem not_file_of_type {raw : List UInt8} (h : entryType raw = 0x40 ∨ entryType raw = 0x41) :
    isFileEntry raw = false := by
  rw [Bool.eq_false_iff]
  intro hfile
  obtain ⟨h40, h41⟩ := type_ne_of_file hfile
  exact h.elim h40 h41

namespace Stretch

/-- A stretch starts with a file entry, unless it is the first, and no file entry follows
its name entries. -/
structure WellCut (s : Stretch) : Prop where
  starts : s.before = [] ∨ ∃ raw rest, s.entries = raw :: rest ∧ isFileEntry raw = true
  names : ∃ front body, s.entries = front ++ body ∧ (∀ raw ∈ front, entryType raw ≠ 0x41) ∧
    ∀ raw ∈ body, isFileEntry raw = false

theorem wellCut_singleton {before : List (List UInt8)} {raw : List UInt8} (hfile : isFileEntry raw = true) :
    WellCut ⟨before, [raw]⟩ := by
  refine ⟨.inr ⟨raw, [], rfl, hfile⟩, [raw], [], rfl, fun x hx => ?_, List.forall_mem_nil _⟩
  rw [List.mem_singleton.mp hx]
  exact (type_ne_of_file hfile).2

theorem WellCut.append {before current : List (List UInt8)} {raw : List UInt8} (h : WellCut ⟨before, current⟩)
    (hcut : (isFileEntry raw && current.any (entryType · == 0x41)) = false) : WellCut ⟨before, current ++ [raw]⟩ := by
  constructor
  · rcases h.starts with hfirst | ⟨first, rest, hentries, hfile⟩
    · exact .inl hfirst
    · have hentries : current = first :: rest := hentries
      exact .inr ⟨first, rest ++ [raw], by rw [hentries]; rfl, hfile⟩
  · cases hfile : isFileEntry raw with
    | true =>
      rw [hfile, Bool.true_and] at hcut
      refine ⟨current ++ [raw], [], (List.append_nil _).symm, fun x hx => ?_, List.forall_mem_nil _⟩
      rcases List.mem_append.mp hx with hx | hx
      · simpa using List.any_eq_false.mp hcut x hx
      · rw [List.mem_singleton.mp hx]
        exact (type_ne_of_file hfile).2
    | false =>
      obtain ⟨front, body, hentries, hfront, hbody⟩ := h.names
      have hentries : current = front ++ body := hentries
      refine ⟨front, body ++ [raw], by rw [hentries, List.append_assoc], hfront, fun x hx => ?_⟩
      rcases List.mem_append.mp hx with hx | hx
      · exact hbody x hx
      · rw [List.mem_singleton.mp hx]
        exact hfile

end Stretch

theorem wellCut_stretches : ∀ {raws before current : List (List UInt8)}, Stretch.WellCut ⟨before, current⟩ →
    ∀ s ∈ stretchesFrom before current raws, s.WellCut
  | [], before, current, h => by
    intro s hs
    rw [List.mem_singleton.mp hs]
    exact h
  | raw :: raws, before, current, h => by
    intro s hs
    unfold stretchesFrom at hs
    split at hs
    · rename_i hcut
      rcases List.mem_cons.mp hs with rfl | hs
      · exact h
      · exact wellCut_stretches (Stretch.wellCut_singleton (Bool.and_eq_true_iff.mp hcut).1) s hs
    · rename_i hcut
      exact wellCut_stretches (h.append (Bool.eq_false_iff.mpr hcut)) s hs

namespace Stretch
variable {s : Stretch} (hs : s.WellCut)
include hs

/-- Of the file entry before a place the stretch holds all from there on. -/
theorem place_inside {front back pre body : List (List UInt8)} {raw file : List UInt8}
    (hentries : s.entries = front ++ raw :: back) (hraw : isFileEntry raw = false)
    (hplace : s.before ++ front = pre ++ file :: body) (hbody : ∀ x ∈ body, isFileEntry x = false) :
    ∃ p, pre = s.before ++ p ∧ front = p ++ file :: body := by
  rcases List.append_eq_append_iff.mp hplace with h | ⟨c, hbefore, hc⟩
  · exact h
  cases c with
  | nil => exact ⟨[], by rw [hbefore, List.append_nil, List.append_nil], hc.symm⟩
  | cons x c =>
    obtain ⟨-, hrest⟩ := List.cons.inj hc
    rcases hs.starts with hfirst | ⟨first, rest, hstart, hfile⟩
    · rw [hfirst] at hbefore
      exact absurd hbefore.symm (List.append_ne_nil_of_right_ne_nil _ (List.cons_ne_nil _ _))
    · rw [hentries] at hstart
      cases front with
      | nil =>
        rw [(List.cons.inj hstart).1, hfile] at hraw
        cases hraw
      | cons y front =>
        have hy : y = first := (List.cons.inj hstart).1
        have hmem : first ∈ body := by rw [hrest, hy]; simp
        rw [hbody first hmem] at hfile
        cases hfile

theorem no_file_after {front back : List (List UInt8)} {raw : List UInt8} (hentries : s.entries = front ++ raw :: back)
    (hraw : entryType raw = 0x41) : ∀ x ∈ back, isFileEntry x = false := by
  obtain ⟨early, late, hsplit, hearly, hlate⟩ := hs.names
  rw [hentries] at hsplit
  intro x hx
  rcases List.append_eq_append_iff.mp hsplit with ⟨c, rfl, hc⟩ | ⟨c, -, rfl⟩
  · cases c with
    | nil =>
      have hc : raw :: back = late := hc
      exact hlate x (hc ▸ List.mem_cons_of_mem _ hx)
    | cons y c => exact absurd hraw (hearly raw (by rw [(List.cons.inj hc).1]; simp))
  · exact hlate x (List.mem_append_right _ (List.mem_cons_of_mem _ hx))

theorem no_name_before {pre body : List (List UInt8)} {file : List UInt8} (hentries : s.entries = pre ++ file :: body)
    (hfile : isFileEntry file = true) : ∀ x ∈ pre, entryType x ≠ 0x41 := by
  intro x hx htype
  obtain ⟨front, back, rfl⟩ := List.append_of_mem hx
  rw [List.append_assoc, List.cons_append] at hentries
  have hfree := no_file_after hs hentries htype file (List.mem_append_right _ (List.mem_cons_self ..))
  rw [hfree] at hfile
  cases hfile

theorem fromOneSet_of_oneSet (hname : ∃ raw ∈ s.entries, entryType raw = 0x41)
    (hstream : ∃ raw ∈ s.entries, entryType raw = 0x40) (h : s.traced.OneSet) : s.FromOneSet := by
  obtain ⟨pre, file, hfile, hplaces⟩ := h
  obtain ⟨namePlace, hnamePlace⟩ := List.exists_mem_of_ne_nil _ (@placesOf_ne_nil 0x41 s.entries s.before hname)
  obtain ⟨front, raw, back, hentries, hraw, rfl⟩ := mem_placesOf hnamePlace
  obtain ⟨body, hplace, hbody⟩ := hplaces _ (List.mem_append_left _ hnamePlace)
  obtain ⟨p, rfl, rfl⟩ := place_inside hs hentries (not_file_of_type (.inr hraw)) hplace hbody
  -- the entries of the name and of the cluster follow the same file entry
  have hlast := List.getLast?_eq_some_getLast (@placesOf_ne_nil 0x40 s.entries s.before hstream)
  have hstreamPlace := List.mem_of_getLast? hlast
  obtain ⟨front', raw', back', hentries', hraw', hplaceEq⟩ := mem_placesOf hstreamPlace
  obtain ⟨body', hplace', hbody'⟩ := hplaces _ (List.mem_append_right _ (Option.mem_toList.mpr hlast))
  rw [hplaceEq] at hplace'
  obtain ⟨p', hp, rfl⟩ := place_inside hs hentries' (not_file_of_type (.inl hraw')) hplace' hbody'
  obtain rfl := List.append_cancel_left hp
  rw [List.append_assoc, List.cons_append] at hentries hentries'
  have htail := (List.cons.inj (List.append_cancel_left (hentries.symm.trans hentries'))).2
  refine ⟨p, file, body ++ raw :: back, hentries, hfile, fun x hx => ?_, raw', ?_, hraw'⟩
  · rcases List.mem_append.mp hx with hx | hx
    · exact hbody x hx
    · rcases List.mem_cons.mp hx with rfl | hx
      · exact not_file_of_type (.inr hraw)
      · have hback : s.entries = (p ++ file :: body) ++ raw :: back := by rw [hentries, List.append_assoc]; rfl
        exact no_file_after hs hback hraw x hx
  · rw [htail]
    exact List.mem_append_right _ (List.mem_cons_self ..)

theorem oneSet_of_fromOneSet (h : s.FromOneSet) : s.traced.OneSet := by
  obtain ⟨pre, file, body, hentries, hfile, hbody, stream, hstream, htype⟩ := h
  have hisFile := isFileEntry_of_deleted hfile
  obtain ⟨h40, h41⟩ := type_ne_of_file hisFile
  have hin : ∀ type, ∀ place ∈ placesOf type (s.before ++ pre ++ [file]) body,
      ∃ front, place = s.before ++ pre ++ file :: front ∧ ∀ raw ∈ front, isFileEntry raw = false := by
    intro type place hplace
    obtain ⟨front, raw, back, rfl, -, rfl⟩ := mem_placesOf hplace
    exact ⟨front, by rw [List.append_assoc]; rfl, fun x hx => hbody x (List.mem_append_left _ hx)⟩
  have hnames : s.traced.names = placesOf 0x41 (s.before ++ pre ++ [file]) body := by
    show placesOf 0x41 s.before s.entries = _
    rw [hentries, placesOf_append, placesOf_eq_nil (no_name_before hs hentries hisFile), placesOf, if_neg h41]
    rfl
  have hlast : s.traced.stream = (placesOf 0x40 (s.before ++ pre ++ [file]) body).getLast? := by
    show (placesOf 0x40 s.before s.entries).getLast? = _
    rw [hentries, placesOf_append, placesOf, if_neg h40, List.getLast?_append_of_ne_nil]
    exact placesOf_ne_nil ⟨stream, hstream, htype⟩
  refine ⟨s.before ++ pre, file, hfile, fun place hplace => ?_⟩
  rcases List.mem_append.mp hplace with hplace | hplace
  · rw [hnames] at hplace
    exact hin _ place hplace
  · have hopt := Option.mem_toList.mp hplace
    rw [hlast] at hopt
    exact hin _ place (List.mem_of_getLast? hopt)

end Stretch

theorem setsApart_iff_stretches (v : Volume) (raws : List (List UInt8)) :
    SetsApart v raws ↔ ∀ s ∈ stretches raws, s.Lists v → s.FromOneSet := by
  have hcut : ∀ s ∈ stretches raws, s.WellCut :=
    wellCut_stretches ⟨.inl rfl, [], [], rfl, List.forall_mem_nil _, List.forall_mem_nil _⟩
  have hmem : ∀ t, t ∈ tracedSets [] raws {} ↔
      ∃ s ∈ stretches raws, s.entries.any (entryType · == 0x41) = true ∧ t = s.traced := fun t =>
    @mem_tracedSets t raws [] []
  constructor
  · intro h s hs hlists
    obtain ⟨raw, hraw, htype⟩ := s.any_name hlists.named
    have hstream : ∃ raw ∈ s.entries, entryType raw = 0x40 := by
      by_contra hnone
      have hempty : s.stream = (0, 0) := by
        unfold Stretch.stream
        rw [List.filterMap_eq_nil_iff.mpr fun x hx => if_neg fun heq => hnone ⟨x, hx, eq_of_beq heq⟩]
        rfl
      have hpos := hlists.cluster
      rw [hempty] at hpos
      exact absurd hpos (by decide)
    refine Stretch.fromOneSet_of_oneSet (hcut s hs) ⟨raw, hraw, htype⟩ hstream (h s.traced ?_ ?_)
    · exact (hmem _).mpr ⟨s, hs, List.any_eq_true.mpr ⟨raw, hraw, by rw [htype]; rfl⟩, rfl⟩
    · exact (s.lists_iff v).mpr hlists
  · intro h t ht hlists
    obtain ⟨s, hs, -, rfl⟩ := (hmem t).mp ht
    exact Stretch.oneSet_of_fromOneSet (hcut s hs) (h s hs ((s.lists_iff v).mp hlists))

/-- The parser completes the traced sets, the trace is right, and each listed file comes from
one deleted set exactly when each stretch that lists a file ends with such a set. -/
theorem setsApart_iff (v : Volume) (config : Config) (scan : UInt32 → UInt32 → ScanState → Option ScanState)
    (entriesPerSector : Nat) (sectorBuffer : List UInt8) :
    let raws := (List.range entriesPerSector).map (entryAt sectorBuffer)
    (∀ st, processEntriesInSector v config scan entriesPerSector sectorBuffer st =
        Traversal.runActions (fun n => scan n.1 n.2) (record config)
          ((tracedSets [] raws {}).flatMap fun t => setActions v t.data) st) ∧
      (∀ t ∈ tracedSets [] raws {}, t.Sound raws) ∧
      (SetsApart v raws ↔ ∀ s ∈ stretches raws, s.Lists v → s.FromOneSet) := by
  intro raws
  refine ⟨fun st => ?_, sound_tracedSets rfl (sound_empty raws), setsApart_iff_stretches v raws⟩
  have hdata : (tracedSets [] raws {}).map Traced.data = entrySets raws {} := map_data_tracedSets raws [] {}
  unfold processEntriesInSector
  rw [processEntries_eq, ← hdata, List.flatMap_map]

/-- The file and stream entry of a deleted set, a live set in place of its name entry, and a
name entry that is left of another. -/
def overwrittenSector : List UInt8 :=
  let remnant := plainSet true 0x20 3 9 1 Nat.one_pos
  ([remnant.file, remnant.stream] ++ (plainSet false 0x20 4 9 1 Nat.one_pos).entries ++ remnant.names).flatten ++
    List.replicate 320 0

theorem remnants_mixed :
    ¬ ∀ (v : Volume) (entriesPerSector : Nat) (sectorBuffer : List UInt8),
      SetsApart v ((List.range entriesPerSector).map (entryAt sectorBuffer)) := by
  intro h
  let remnant := plainSet true 0x20 3 9 1 Nat.one_pos
  let live := plainSet false 0x20 4 9 1 Nat.one_pos
  let file : Traced :=
    { data := ⟨List.replicate 15 0x44, 3, 9, true, false, true⟩
      names := [[remnant.file, remnant.stream] ++ live.entries], stream := some [remnant.file] }
  have htraced : file ∈ tracedSets [] ((List.range 16).map (entryAt overwrittenSector)) {} := by
    have heq : tracedSets [] ((List.range 16).map (entryAt overwrittenSector)) {} = [file] := by decide +kernel
    rw [heq]
    exact List.mem_singleton_self _
  obtain ⟨pre, start, -, hplaces⟩ := h (smallVolume []) 16 overwrittenSector file htraced rfl
  obtain ⟨body, hstream, -⟩ := hplaces [remnant.file] (List.mem_append_right _ (List.mem_singleton_self _))
  obtain ⟨rest, hname, hfree⟩ := hplaces _ (List.mem_append_left _ (List.mem_singleton_self _))
  cases pre with
  | nil =>
    obtain ⟨-, hrest⟩ := List.cons.inj hname
    have hlive := hfree live.file (by rw [← hrest]; exact List.mem_cons_of_mem _ (List.mem_cons_self ..))
    exact absurd hlive (by decide)
  | cons x pre =>
    obtain ⟨-, hnil⟩ := List.cons.inj hstream
    exact List.append_ne_nil_of_right_ne_nil _ (List.cons_ne_nil _ _) hnil.symm

end DataRecovery.ExFAT
