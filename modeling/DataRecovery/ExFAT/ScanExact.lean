import Mathlib.Data.Finite.Prod
import DataRecovery.ExFAT.LiveDirectories
import DataRecovery.ScanLog

/-!
# Termination and exactness of the exFAT scan

The depth counts along the FAT and starts anew in each deleted subdirectory, so a cycle in the
FAT is cut off at the limit, and only a deleted subdirectory that leads back to itself keeps
the scan from ending. A scan that ends has listed exactly the deleted files of the directories
it reaches.
-/

namespace DataRecovery.ExFAT

open Traversal Relation

section
variable (v : Volume)

abbrev Volume.root : UInt32 × UInt32 := (v.bootSector.rootDirectoryCluster, 0)

def Reached (n : UInt32 × UInt32) : Prop := ReflTransGen (DirLink v) v.root n

structure DeletedFile (d : DirEntryData) : Prop where
  linked : ∃ c, Linked v c ∧ d ∈ setsOf v c
  accepted : accepted v d = true
  not_isDirectory : d.isDirectory = false
  isDeleted : d.isDeleted = true

def Acyclic : Prop := ∀ c, Reached v (c, 1) → ¬ TransGen (DirLink v) (c, 1) (c, 1)

/-! ## Termination -/

theorem calls_eq_dirLink : Calls (actions v) = DirLink v := by
  funext n m
  exact propext (calls_iff v)

theorem depth_succ {depth : UInt32} (h : depth < MAX_RECURSION_DEPTH) : (depth + 1).toNat = depth.toNat + 1 := by
  have hlt : depth.toNat < 100 := UInt32.lt_iff_toNat_lt.mp h
  have hone : (1 : UInt32).toNat = 1 := rfl
  rw [UInt32.toNat_add, hone, Nat.mod_eq_of_lt (by omega)]

variable {v}

/-- A walk goes deeper along the FAT, or it passes the start of a subdirectory. -/
theorem deeper_or_subdirectory {n m : UInt32 × UInt32} (h : TransGen (DirLink v) n m) :
    n.2.toNat < m.2.toNat ∨ ∃ c, TransGen (DirLink v) n (c, 1) ∧ ReflTransGen (DirLink v) (c, 1) m := by
  induction h with
  | single hlink =>
    cases hlink with
    | next hdepth _ _ _ => exact .inl (by rw [depth_succ hdepth]; exact Nat.lt_succ_self _)
    | subdir hdepth hv hd hacc hdir => exact .inr ⟨_, .single (.subdir hdepth hv hd hacc hdir), .refl⟩
  | tail hwalk hlink ih =>
    cases hlink with
    | next hdepth hv hnext hne =>
      rcases ih with hlt | ⟨c, hto, hfrom⟩
      · exact .inl (by rw [depth_succ hdepth]; exact Nat.lt_succ_of_lt hlt)
      · exact .inr ⟨c, hto, hfrom.tail (.next hdepth hv hnext hne)⟩
    | subdir hdepth hv hd hacc hdir => exact .inr ⟨_, hwalk.tail (.subdir hdepth hv hd hacc hdir), .refl⟩

theorem acyclic_iff : Acyclic v ↔ ∀ n, Reached v n → ¬ TransGen (DirLink v) n n := by
  constructor
  · intro h n hn hcycle
    rcases deeper_or_subdirectory hcycle with hlt | ⟨c, hto, hfrom⟩
    · exact Nat.lt_irrefl _ hlt
    · exact h c (hn.trans hto.to_reflTransGen) (TransGen.trans_right hfrom hto)
  · exact fun h c hc => h (c, 1) hc

variable (v) (config : Config)

theorem scan_ends_iff (st : ScanState) : (∃ stack, (scanRoot v config stack st).isSome) ↔ Acyclic v := by
  have : Finite UInt32 := finite_uint32
  simp only [scanRoot_isSome_iff]
  rw [exists_shallow_iff_acyclic, acyclic_iff, calls_eq_dirLink]
  rfl

/-! ## Exactness -/

theorem emits_iff {n : UInt32 × UInt32} {d : DirEntryData} :
    Emits (actions v) n d ↔ n.2 < MAX_RECURSION_DEPTH ∧ v.isValidCluster n.1 = true ∧ d ∈ setsOf v n.1 ∧
      accepted v d = true ∧ d.isDirectory = false ∧ d.isDeleted = true := by
  obtain ⟨c, depth⟩ := n
  unfold Emits actions
  dsimp only
  by_cases hdepth : MAX_RECURSION_DEPTH ≤ depth
  · simp [hdepth, UInt32.not_lt.mpr hdepth]
  · by_cases hv : v.isValidCluster c = true
    · rw [if_neg hdepth, if_pos hv, List.mem_append, List.mem_flatMap]
      constructor
      · rintro (⟨e, he, hem⟩ | hem)
        · obtain ⟨hacc, hdir, hdel, rfl⟩ := (emit_mem_setActions v).mp hem
          exact ⟨UInt32.not_le.mp hdepth, hv, he, hacc, hdir, hdel⟩
        · unfold nextActions at hem
          split at hem <;> simp at hem
      · rintro ⟨-, -, hd, hacc, hdir, hdel⟩
        exact .inl ⟨d, hd, (emit_mem_setActions v).mpr ⟨hacc, hdir, hdel, rfl⟩⟩
    · simp [hv]

theorem mem_filesFound {stack : Nat} (h : Shallow (actions v) stack v.root) {d : DirEntryData} :
    d ∈ filesFound v stack ↔ DeletedFile v d := by
  unfold filesFound
  rw [mem_events h, calls_eq_dirLink]
  constructor
  · rintro ⟨⟨c, depth⟩, hreached, hem⟩
    obtain ⟨hdepth, hv, hd, hacc, hdir, hdel⟩ := (emits_iff v).mp hem
    exact ⟨⟨c, ⟨depth, hdepth, hv, hreached⟩, hd⟩, hacc, hdir, hdel⟩
  · rintro ⟨⟨c, ⟨depth, hdepth, hv, hreached⟩, hd⟩, hacc, hdir, hdel⟩
    exact ⟨(c, depth), hreached, (emits_iff v).mpr ⟨hdepth, hv, hd, hacc, hdir, hdel⟩⟩

/-- A scan that ends lists the deleted files of the directories it reaches, and nothing else. -/
theorem scan_lists_iff (hlist : (config.recover || config.analyze) = true) {stack : Nat} {st : ScanState}
    (hst : scanRoot v config stack {} = some st) (name : WString) (start : UInt32) (size : UInt64) :
    (∃ info ∈ st.recoveryList, info.fileName = name ∧ info.cluster = start ∧ info.fileSize = size) ↔
      ∃ d, DeletedFile v d ∧ d.longFilename = name ∧ d.startingCluster = start ∧ d.fileSize = size := by
  obtain ⟨hshallow, hfold⟩ := scanRoot_eq_some v config hst
  have hlisted : st.recoveryList = numberedItems (· + 1) parseFileInfo 1 (filesFound v stack) := by
    rw [← hfold, recoveryList_eq config hlist]
    rfl
  have hkeys : st.recoveryList.map (fun info => (info.fileName, info.cluster, info.fileSize)) =
      (filesFound v stack).map fun d => (d.longFilename, d.startingCluster, d.fileSize) := by
    rw [hlisted]
    exact map_numberedItems_of_forall _ parseFileInfo (fun _ _ => rfl) _ _
  have hmem : (name, start, size) ∈ st.recoveryList.map (fun info => (info.fileName, info.cluster, info.fileSize)) ↔
      (name, start, size) ∈ (filesFound v stack).map fun d => (d.longFilename, d.startingCluster, d.fileSize) := by
    rw [hkeys]
  simp only [List.mem_map, Prod.mk.injEq, mem_filesFound v hshallow] at hmem
  exact hmem

end

/-- The root directory holds a deleted directory in cluster 3, which holds a deleted file. -/
def nested : Volume := smallVolume [(4, rawSet 0x10 3 64), (5, rawSet 0x20 4 9)]

theorem nested_scan :
    (scanRoot nested { recover := true } 2 {}).map ScanState.recoveryList = some [⟨1, wide "D", 9, 4⟩] := by decide +kernel

theorem nested_lists : ∃ d, DeletedFile nested d ∧ d.longFilename = wide "D" ∧ d.startingCluster = 4 ∧ d.fileSize = 9 := by
  obtain ⟨st, hst, hlist⟩ := Option.map_eq_some_iff.mp nested_scan
  refine (scan_lists_iff nested { recover := true } rfl hst (wide "D") 4 9).mp ⟨⟨1, wide "D", 9, 4⟩, ?_, rfl, rfl, rfl⟩
  rw [hlist]
  exact List.mem_singleton_self _

end DataRecovery.ExFAT
