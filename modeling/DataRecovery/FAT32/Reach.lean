import DataRecovery.FAT32.ScanSound

/-!
# Reachable directory clusters

The clusters a complete scan has to visit, stated on the drive's content: the
root, FAT successors, and the start clusters of directory entries. `Link` is one
step of it, for a given reading of "directory entry".
-/

namespace DataRecovery.FAT32

open Traversal Relation

/-- The entries of a sector that no 0x00 entry precedes. -/
def visibleEntries : List (List UInt8) → List DirectoryEntry
  | [] => []
  | raw :: rest =>
    .ofBytes raw :: if (DirectoryEntry.ofBytes raw).firstByte = 0 then [] else visibleEntries rest

def IsDirectoryEntry (e : DirectoryEntry) : Prop :=
  e.attr &&& 0x10 ≠ 0 ∧ e.attr ≠ 0x0F ∧ e.firstByte ≠ 0x2E

def IsUsedDirectoryEntry (e : DirectoryEntry) : Prop := IsDirectoryEntry e ∧ e.firstByte ≠ 0

def IsDeletedFileEntry (e : DirectoryEntry) : Prop :=
  e.firstByte = 0xE5 ∧ e.attr &&& 0x10 = 0 ∧ e.attr ≠ 0x0F

instance (e : DirectoryEntry) : Decidable (IsDirectoryEntry e) := inferInstanceAs (Decidable (_ ∧ _ ∧ _))
instance (e : DirectoryEntry) : Decidable (IsUsedDirectoryEntry e) := inferInstanceAs (Decidable (_ ∧ _))
instance (e : DirectoryEntry) : Decidable (IsDeletedFileEntry e) := inferInstanceAs (Decidable (_ ∧ _ ∧ _))

section
variable (v : Volume)

def entriesOf (c : UInt32) : List DirectoryEntry :=
  (v.sectorsOf c).flatMap fun sector =>
    match v.readSector sector with
    | some buffer => visibleEntries (rawEntries v buffer)
    | none => []

section
variable (isDir : DirectoryEntry → Prop)

inductive Link : UInt32 → UInt32 → Prop
  | next {c} : v.isValidCluster (v.getNextCluster c) = true → Link c (v.getNextCluster c)
  | subdir {c e} : e ∈ entriesOf v c → isDir e → v.isValidCluster e.startCluster = true → Link c e.startCluster

inductive Reachable : UInt32 → Prop
  | root : v.isValidCluster v.driveInfo.rootDirCluster = true → Reachable v.driveInfo.rootDirCluster
  | step {c d} : Reachable c → Link v isDir c d → Reachable d

def Acyclic : Prop := ∀ c, Reachable v isDir c → ¬ TransGen (Link v isDir) c c

def DeletedFile (start : UInt32) (size : UInt64) : Prop :=
  ∃ c, Reachable v isDir c ∧ ∃ e ∈ entriesOf v c, IsDeletedFileEntry e ∧
    v.isValidCluster e.startCluster = true ∧ start = e.startCluster ∧ size = e.fileSize.toUInt64

end

/-! ## Actions and links -/

theorem mem_directoryEntryActions {e : DirectoryEntry} {filename : WString} {a : Action UInt32 Found} :
    a ∈ directoryEntryActions v e filename ↔ v.isValidCluster e.startCluster = true ∧
      (e.isDirectory = true ∧ a = .call e.startCluster ∨
        e.isDirectory = false ∧ e.isDeleted = true ∧ a = .emit ⟨filename, e.startCluster, e.fileSize⟩) := by
  unfold directoryEntryActions
  cases v.isValidCluster e.startCluster with
  | false => simp
  | true =>
    cases e.isDirectory with
    | true => simp
    | false => cases e.isDeleted <;> simp

theorem call_mem_directoryEntryActions {e : DirectoryEntry} {filename : WString} {d : UInt32} :
    Action.call d ∈ directoryEntryActions v e filename ↔
      v.isValidCluster e.startCluster = true ∧ e.isDirectory = true ∧ d = e.startCluster := by
  simp [mem_directoryEntryActions]

theorem emit_mem_directoryEntryActions {e : DirectoryEntry} {filename : WString} {f : Found} :
    Action.emit f ∈ directoryEntryActions v e filename ↔
      v.isValidCluster e.startCluster = true ∧ e.isDirectory = false ∧ e.isDeleted = true ∧
        f = ⟨filename, e.startCluster, e.fileSize⟩ := by
  simp [mem_directoryEntryActions]

theorem isDirectory_iff {e : DirectoryEntry} :
    e.isDirectory = true ↔ e.attr &&& 0x10 ≠ 0 ∧ e.firstByte ≠ 0x2E := by
  simp [DirectoryEntry.isDirectory]

theorem isLongName_iff {e : DirectoryEntry} : e.isLongName = true ↔ e.attr = 0x0F := by
  simp [DirectoryEntry.isLongName]

theorem isDeleted_iff {e : DirectoryEntry} : e.isDeleted = true ↔ e.firstByte = 0xE5 := by
  simp [DirectoryEntry.isDeleted]

theorem mem_visibleEntries_cons {raw : List UInt8} {rest : List (List UInt8)} {e : DirectoryEntry} :
    e ∈ visibleEntries (raw :: rest) ↔
      e = .ofBytes raw ∨ (DirectoryEntry.ofBytes raw).firstByte ≠ 0 ∧ e ∈ visibleEntries rest := by
  rw [visibleEntries, List.mem_cons]
  split <;> simp [*]

theorem mem_entriesOf {c : UInt32} {e : DirectoryEntry} :
    e ∈ entriesOf v c ↔ ∃ sector ∈ v.sectorsOf c, ∃ buffer, v.readSector sector = some buffer ∧
      e ∈ visibleEntries (rawEntries v buffer) := by
  unfold entriesOf
  simp only [List.mem_flatMap]
  refine exists_congr fun sector => and_congr_right fun _ => ?_
  cases v.readSector sector <;> simp

theorem mem_entryActions {a : Action UInt32 Found} : ∀ {raws : List (List UInt8)} {lf : WString},
    a ∈ entryActions v raws lf → ∃ e ∈ visibleEntries raws, e.firstByte ≠ 0 ∧ e.isLongName = false ∧
      ∃ filename, a ∈ directoryEntryActions v e filename
  | [], _, h => by simp [entryActions] at h
  | raw :: rest, lf, h => by
    rw [entryActions] at h
    split at h
    · cases h
    · rename_i h0
      have tail : ∀ {lf'}, a ∈ entryActions v rest lf' → ∃ e ∈ visibleEntries (raw :: rest), e.firstByte ≠ 0 ∧
          e.isLongName = false ∧ ∃ filename, a ∈ directoryEntryActions v e filename := by
        intro lf' h'
        obtain ⟨e, he, hr⟩ := mem_entryActions h'
        exact ⟨e, mem_visibleEntries_cons.mpr (.inr ⟨h0, he⟩), hr⟩
      split at h
      · exact tail h
      · rename_i hl
        rcases List.mem_append.mp h with h | h
        · exact ⟨_, mem_visibleEntries_cons.mpr (.inl rfl), h0, by simpa using hl, _, h⟩
        · exact tail h

theorem entryActions_of_visible {e : DirectoryEntry} (h0 : e.firstByte ≠ 0) (hl : e.isLongName = false) :
    ∀ {raws : List (List UInt8)} (lf : WString), e ∈ visibleEntries raws →
      ∃ filename, ∀ a ∈ directoryEntryActions v e filename, a ∈ entryActions v raws lf
  | [], _, h => by cases h
  | raw :: rest, lf, h => by
    rw [entryActions]
    rcases mem_visibleEntries_cons.mp h with rfl | ⟨hraw, h⟩
    · simp only [h0, hl, ite_false, Bool.false_eq_true]
      exact ⟨_, fun a ha => List.mem_append_left _ ha⟩
    · simp only [hraw, ite_false]
      split
      · exact entryActions_of_visible h0 hl _ h
      · obtain ⟨filename, hf⟩ := entryActions_of_visible h0 hl [] h
        exact ⟨filename, fun a ha => List.mem_append_right _ (hf a ha)⟩

/-- An action of a cluster is of one of its entries, or follows its FAT link. -/
theorem mem_actions {c : UInt32} {a : Action UInt32 Found} (h : a ∈ actions v c) : v.isValidCluster c = true ∧
    ((∃ e ∈ entriesOf v c, e.firstByte ≠ 0 ∧ e.attr ≠ 0x0F ∧ ∃ filename, a ∈ directoryEntryActions v e filename) ∨
      v.isValidCluster (v.getNextCluster c) = true ∧ a = .call (v.getNextCluster c)) := by
  unfold actions nextActions at h
  split at h
  · rename_i hc
    refine ⟨hc, (List.mem_append.mp h).imp (fun h => ?_) fun h => ?_⟩
    · obtain ⟨sector, hs, h⟩ := List.mem_flatMap.mp h
      unfold sectorActions at h
      split at h
      · rename_i buffer hb
        obtain ⟨e, he, h0, hl, ha⟩ := mem_entryActions v h
        have hlf : e.attr ≠ 0x0F := fun h => by simp [isLongName_iff.mpr h] at hl
        exact ⟨e, (mem_entriesOf v).mpr ⟨sector, hs, buffer, hb, he⟩, h0, hlf, ha⟩
      · cases h
    · split at h
      · rename_i hnext
        exact ⟨hnext, List.mem_singleton.mp h⟩
      · cases h
  · cases h

theorem actions_of_entry {c : UInt32} (hc : v.isValidCluster c = true) {e : DirectoryEntry} (he : e ∈ entriesOf v c)
    (h0 : e.firstByte ≠ 0) (hlf : e.attr ≠ 0x0F) :
    ∃ filename, ∀ a ∈ directoryEntryActions v e filename, a ∈ actions v c := by
  obtain ⟨sector, hs, buffer, hb, hvis⟩ := (mem_entriesOf v).mp he
  have hl : e.isLongName = false := by simpa [DirectoryEntry.isLongName] using hlf
  obtain ⟨filename, hf⟩ := entryActions_of_visible v h0 hl [] hvis
  refine ⟨filename, fun a ha => ?_⟩
  rw [actions, if_pos hc]
  refine List.mem_append_left _ (List.mem_flatMap.mpr ⟨sector, hs, ?_⟩)
  simp only [sectorActions, hb]
  exact hf a ha

theorem calls_iff {c d : UInt32} :
    Calls (actions v) c d ↔ v.isValidCluster c = true ∧ Link v IsUsedDirectoryEntry c d := by
  constructor
  · intro h
    obtain ⟨hc, ⟨e, he, h0, hlf, filename, ha⟩ | ⟨hnext, heq⟩⟩ := mem_actions v h
    · obtain ⟨hev, hed, rfl⟩ := (call_mem_directoryEntryActions v).mp ha
      obtain ⟨hattr, hdot⟩ := isDirectory_iff.mp hed
      exact ⟨hc, .subdir he ⟨⟨hattr, hlf, hdot⟩, h0⟩ hev⟩
    · obtain rfl := Action.call.inj heq
      exact ⟨hc, .next hnext⟩
  · rintro ⟨hc, h⟩
    cases h with
    | next hnext =>
      unfold Calls actions
      rw [if_pos hc, nextActions, if_pos hnext]
      exact List.mem_append_right _ (List.mem_singleton_self _)
    | @subdir e he hd hev =>
      obtain ⟨⟨hattr, hlf, hdot⟩, h0⟩ := hd
      obtain ⟨filename, hf⟩ := actions_of_entry v hc he h0 hlf
      exact hf _ ((call_mem_directoryEntryActions v).mpr ⟨hev, isDirectory_iff.mpr ⟨hattr, hdot⟩, rfl⟩)

theorem emits_iff {c start size : UInt32} :
    (∃ filename, Emits (actions v) c ⟨filename, start, size⟩) ↔
      v.isValidCluster c = true ∧ ∃ e ∈ entriesOf v c, IsDeletedFileEntry e ∧
        v.isValidCluster e.startCluster = true ∧ start = e.startCluster ∧ size = e.fileSize := by
  constructor
  · rintro ⟨filename, h⟩
    obtain ⟨hc, ⟨e, he, -, hlf, filename, ha⟩ | ⟨-, heq⟩⟩ := mem_actions v h
    · obtain ⟨hev, hed, hdel, hf⟩ := (emit_mem_directoryEntryActions v).mp ha
      cases hf
      have h5 := isDeleted_iff.mp hdel
      have hattr : e.attr &&& 0x10 = 0 := by
        simpa [DirectoryEntry.isDirectory, h5] using hed
      exact ⟨hc, e, he, ⟨h5, hattr, hlf⟩, hev, rfl, rfl⟩
    · cases heq
  · rintro ⟨hc, e, he, ⟨h5, hattr, hlf⟩, hev, rfl, rfl⟩
    have h0 : e.firstByte ≠ 0 := by
      rw [h5]
      decide
    obtain ⟨filename, hf⟩ := actions_of_entry v hc he h0 hlf
    refine ⟨filename, hf _ ((emit_mem_directoryEntryActions v).mpr ?_)⟩
    exact ⟨hev, by simp [DirectoryEntry.isDirectory, hattr], isDeleted_iff.mpr h5, rfl⟩

theorem Link.valid {isDir : DirectoryEntry → Prop} {c d : UInt32} (h : Link v isDir c d) :
    v.isValidCluster d = true := by
  cases h with
  | next h => exact h
  | subdir _ _ h => exact h

theorem Reachable.valid {isDir : DirectoryEntry → Prop} {c : UInt32} (h : Reachable v isDir c) :
    v.isValidCluster c = true := by
  cases h with
  | root h => exact h
  | step _ hl => exact hl.valid

theorem reachable_iff {c : UInt32} :
    Reachable v IsUsedDirectoryEntry c ↔ v.isValidCluster v.driveInfo.rootDirCluster = true ∧
      ReflTransGen (Calls (actions v)) v.driveInfo.rootDirCluster c := by
  constructor
  · intro h
    induction h with
    | root h => exact ⟨h, .refl⟩
    | step hc hl ih => exact ⟨ih.1, ih.2.tail ((calls_iff v).mpr ⟨hc.valid, hl⟩)⟩
  · rintro ⟨hroot, h⟩
    induction h with
    | refl => exact .root hroot
    | tail _ hc ih => exact .step ih ((calls_iff v).mp hc).2

theorem transGen_calls_iff {c d : UInt32} (hv : v.isValidCluster c = true) :
    TransGen (Calls (actions v)) c d ↔ TransGen (Link v IsUsedDirectoryEntry) c d := by
  constructor
  · exact TransGen.mono (fun _ _ hc => ((calls_iff v).mp hc).2) c d
  · intro h
    have key : TransGen (Calls (actions v)) c d ∧ v.isValidCluster d = true := by
      induction h with
      | single hl => exact ⟨.single ((calls_iff v).mpr ⟨hv, hl⟩), hl.valid⟩
      | tail _ hl ih => exact ⟨ih.1.tail ((calls_iff v).mpr ⟨ih.2, hl⟩), hl.valid⟩
    exact key.1

theorem calls_of_invalid {c d : UInt32} (hv : ¬ v.isValidCluster c = true) : ¬ Calls (actions v) c d :=
  fun h => hv ((calls_iff v).mp h).1

/-- The scan's traversal is bounded exactly when the reachable directory clusters form no cycle. -/
theorem exists_shallow_iff_acyclic :
    (∃ stack, Shallow (actions v) stack v.driveInfo.rootDirCluster) ↔ Acyclic v IsUsedDirectoryEntry := by
  have : Finite UInt32 := finite_uint32
  rw [Traversal.exists_shallow_iff_acyclic]
  constructor
  · intro h c hc ht
    exact h c ((reachable_iff v).mp hc).2 ((transGen_calls_iff v hc.valid).mpr ht)
  · intro h c hc ht
    obtain ⟨d, hcd, -⟩ := TransGen.head'_iff.mp ht
    have hv := ((calls_iff v).mp hcd).1
    by_cases hroot : v.isValidCluster v.driveInfo.rootDirCluster = true
    · exact h c ((reachable_iff v).mpr ⟨hroot, hc⟩) ((transGen_calls_iff v hv).mp ht)
    · rcases ReflTransGen.cases_head hc with rfl | ⟨e, he, -⟩
      · exact hroot hv
      · exact calls_of_invalid v hroot he

end

end DataRecovery.FAT32
