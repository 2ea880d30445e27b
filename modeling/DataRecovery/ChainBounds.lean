import Mathlib.Data.List.Chain
import DataRecovery.FAT32.ScanExact
import DataRecovery.FAT32.Recovery
import DataRecovery.ExFAT.DepthLimit
import DataRecovery.ExFAT.Recovery

/-!
# When a guessed chain stays inside the volume

`validateClusterChain` checks no cluster against the end of the volume. Its chain
leaves the volume where a table entry links past the last cluster, or where the
last cluster has no usable entry and the next number is guessed.
-/

namespace DataRecovery

/-! ## Walks along the table -/

section
variable (getNextCluster : UInt32 → UInt32)

/-- The cluster linked after `c`, or numbered after it where the entry is unusable. -/
inductive Follows : UInt32 → UInt32 → Prop
  | link {c} : c < FIRST_MARKER → unusableLink c (getNextCluster c) = false → Follows c (getNextCluster c)
  | guess {c} : c < FIRST_MARKER → unusableLink c (getNextCluster c) = true → Follows c (c + 1)

/-- The entry of `c` links past cluster `last`, or `c` is that cluster and its entry is unusable. -/
def LeavesAt (last : Nat) (c : UInt32) : Prop :=
  c < FIRST_MARKER ∧
    (unusableLink c (getNextCluster c) = false ∧ last < (getNextCluster c).toNat ∨
      unusableLink c (getNextCluster c) = true ∧ c.toNat = last ∧ last + 1 < FIRST_MARKER.toNat)

def StaysBelow (last room : Nat) (start : UInt32) : Prop :=
  (0 < room → start < FIRST_MARKER → start.toNat ≤ last) ∧
    ∀ walk, List.IsChain (Follows getNextCluster) (start :: walk) → walk.length + 1 < room →
      ¬ LeavesAt getNextCluster last (walk.getLastD start)

theorem follows_iff {c d : UInt32} :
    Follows getNextCluster c d ↔ c < FIRST_MARKER ∧ d = guessNext getNextCluster c := by
  unfold guessNext
  constructor
  · intro h
    cases h with
    | link hc hu => rw [hu]; exact ⟨hc, rfl⟩
    | guess hc hu => rw [hu]; exact ⟨hc, rfl⟩
  · intro ⟨hc, hd⟩
    rw [hd]
    split
    · rename_i hu; exact .guess hc hu
    · rename_i hu; exact .link hc (by simpa using hu)

theorem unusableLink_false {c next : UInt32} (h : unusableLink c next = false) : 2 ≤ next ∧ next < FIRST_MARKER := by
  unfold unusableLink at h
  simp only [Bool.or_eq_false_iff, decide_eq_false_iff_not, UInt32.not_lt, UInt32.not_le] at h
  exact ⟨h.1.2, h.2⟩

theorem succ_toNat {c : UInt32} (hc : c < FIRST_MARKER) : (c + 1).toNat = c.toNat + 1 := by
  have h := UInt32.lt_iff_toNat_lt.mp hc
  have hm : FIRST_MARKER.toNat = 0x0FFFFFF8 := rfl
  rw [UInt32.toNat_add, show (1 : UInt32).toNat = 1 from rfl]
  omega

theorem two_le_guessNext {c : UInt32} (h2 : 2 ≤ c) (hc : c < FIRST_MARKER) : 2 ≤ guessNext getNextCluster c := by
  unfold guessNext
  split
  · rw [UInt32.le_iff_toNat_le, succ_toNat hc]
    have := UInt32.le_iff_toNat_le.mp h2
    omega
  · rename_i hu
    exact (unusableLink_false (by simpa using hu)).1

theorem guessNext_le_iff {last : Nat} {c : UInt32} (hc : c < FIRST_MARKER) (hle : c.toNat ≤ last) :
    (guessNext getNextCluster c < FIRST_MARKER → (guessNext getNextCluster c).toNat ≤ last) ↔
      ¬ LeavesAt getNextCluster last c := by
  unfold LeavesAt guessNext
  by_cases hu : unusableLink c (getNextCluster c) = true
  · simp only [hu, if_true, hc, true_and, reduceCtorEq, false_and, false_or]
    rw [UInt32.lt_iff_toNat_lt, succ_toNat hc]
    omega
  · have hu : unusableLink c (getNextCluster c) = false := by simpa using hu
    have hn := (unusableLink_false hu).2
    simp only [hu, Bool.false_eq_true, if_false, hc, hn, true_and, false_and, or_false, true_implies]
    omega

theorem staysBelow_succ {last room : Nat} {start : UInt32} (hs : start < FIRST_MARKER) :
    StaysBelow getNextCluster last (room + 1) start ↔
      start.toNat ≤ last ∧ StaysBelow getNextCluster last room (guessNext getNextCluster start) := by
  constructor
  · intro ⟨hfirst, hwalk⟩
    have hle := hfirst (Nat.succ_pos room) hs
    refine ⟨hle, fun hroom => ?_, fun walk hw hlen => ?_⟩
    · have hnot := hwalk [] (List.isChain_singleton _) (by simp only [List.length_nil]; omega)
      exact (guessNext_le_iff getNextCluster hs hle).mpr hnot
    · have hcons : List.IsChain (Follows getNextCluster) (start :: guessNext getNextCluster start :: walk) :=
        List.isChain_cons_cons.mpr ⟨(follows_iff getNextCluster).mpr ⟨hs, rfl⟩, hw⟩
      have hnot := hwalk _ hcons (by simp only [List.length_cons]; omega)
      rwa [List.getLastD_cons] at hnot
  · intro ⟨hle, hfirst, hwalk⟩
    refine ⟨fun _ _ => hle, fun walk hw hlen => ?_⟩
    cases walk with
    | nil =>
      have hroom : 0 < room := by simp only [List.length_nil] at hlen; omega
      exact (guessNext_le_iff getNextCluster hs hle).mp (hfirst hroom)
    | cons d walk =>
      obtain ⟨hd, hw⟩ := List.isChain_cons_cons.mp hw
      obtain ⟨-, rfl⟩ := (follows_iff getNextCluster).mp hd
      rw [List.getLastD_cons]
      exact hwalk walk hw (by simp only [List.length_cons] at hlen; omega)

theorem staysBelow_of_marker {last room : Nat} {start : UInt32} (hs : ¬ start < FIRST_MARKER) :
    StaysBelow getNextCluster last room start := by
  refine ⟨fun _ h => absurd h hs, fun walk hw _ hl => ?_⟩
  cases walk with
  | nil => exact hs hl.1
  | cons d walk => exact hs ((follows_iff getNextCluster).mp (List.isChain_cons_cons.mp hw).1).1

/-- A chain from a data cluster keeps to the clusters up to `last` exactly when no
short enough walk leaves them. -/
theorem chain_le_iff {last : Nat} : ∀ (room : Nat) (start : UInt32), 2 ≤ start →
    ((∀ c ∈ chainFrom getNextCluster room start, c.toNat ≤ last) ↔ StaysBelow getNextCluster last room start)
  | 0, start, _ => by
    simp only [chainFrom, List.not_mem_nil, false_implies, implies_true, true_iff]
    exact ⟨fun h => absurd h (Nat.lt_irrefl 0), fun _ _ h => absurd h (Nat.not_lt_zero _)⟩
  | room + 1, start, h2 => by
    unfold chainFrom
    by_cases hs : start < FIRST_MARKER
    · rw [staysBelow_succ getNextCluster hs, ← chain_le_iff room _ (two_le_guessNext getNextCluster h2 hs)]
      simp only [h2, hs, decide_true, Bool.and_self, if_true, List.forall_mem_cons]
    · simp only [hs, decide_false, Bool.and_false, Bool.false_eq_true, if_false, List.not_mem_nil, false_implies,
        implies_true, true_iff]
      exact staysBelow_of_marker getNextCluster hs

theorem chainFrom_bounds : ∀ (room : Nat) (start : UInt32), ∀ c ∈ chainFrom getNextCluster room start,
    2 ≤ c ∧ c < FIRST_MARKER
  | 0, _, _, h => by cases h
  | room + 1, start, c, h => by
    unfold chainFrom at h
    split at h
    · rename_i hs
      simp only [Bool.and_eq_true, decide_eq_true_eq] at hs
      rcases List.mem_cons.mp h with rfl | h
      · exact hs
      · exact chainFrom_bounds room _ c h
    · cases h

end

/-! ## Clusters and sectors -/

structure Heap where
  firstSector : UInt32
  sectorsPerCluster : UInt32
  lastCluster : UInt32
  badCluster : UInt32

namespace Heap
variable (h : Heap)

def sectorOf (c : UInt32) : UInt32 := h.firstSector + (c - 2) * h.sectorsPerCluster

def InData (c : UInt32) : Prop :=
  clusterInRange h.lastCluster h.badCluster c = true ∧
    (h.sectorOf c).toNat = h.firstSector.toNat + (c.toNat - 2) * h.sectorsPerCluster.toNat ∧
    ∀ i < h.sectorsPerCluster.toNat, h.firstSector.toNat ≤ ((h.sectorOf c).toUInt64 + UInt64.ofNat i).toNat ∧
      ((h.sectorOf c).toUInt64 + UInt64.ofNat i).toNat <
        h.firstSector.toNat + h.lastCluster.toNat * h.sectorsPerCluster.toNat

def lastInData : Nat :=
  min (min h.lastCluster.toNat (h.badCluster.toNat - 1))
    (2 + (2 ^ 32 - 1 - h.firstSector.toNat) / h.sectorsPerCluster.toNat)

theorem sectorOf_toNat {c : UInt32} (h2 : 2 ≤ c) :
    (h.sectorOf c).toNat = (h.firstSector.toNat + (c.toNat - 2) * h.sectorsPerCluster.toNat) % 2 ^ 32 := by
  unfold sectorOf
  rw [UInt32.toNat_add, UInt32.toNat_mul, UInt32.toNat_sub_of_le _ _ h2, show (2 : UInt32).toNat = 2 from rfl]
  rw [Nat.add_mod_mod]

theorem inData_iff (hbad : 0 < h.badCluster) (hspc : 0 < h.sectorsPerCluster) {c : UInt32} (h2 : 2 ≤ c) :
    h.InData c ↔ c.toNat ≤ h.lastInData := by
  have hfs := h.firstSector.toNat_lt
  have hz : 0 < h.sectorsPerCluster.toNat := UInt32.lt_iff_toNat_lt.mp hspc
  have hb : 0 < h.badCluster.toNat := UInt32.lt_iff_toNat_lt.mp hbad
  have h2n : 2 ≤ c.toNat := UInt32.le_iff_toNat_le.mp h2
  have hfit : h.firstSector.toNat + (c.toNat - 2) * h.sectorsPerCluster.toNat < 2 ^ 32 ↔
      c.toNat ≤ 2 + (2 ^ 32 - 1 - h.firstSector.toNat) / h.sectorsPerCluster.toNat := by
    have hdiv := @Nat.le_div_iff_mul_le h.sectorsPerCluster.toNat (c.toNat - 2) (2 ^ 32 - 1 - h.firstSector.toNat) hz
    omega
  have hrange : clusterInRange h.lastCluster h.badCluster c = true ↔
      c.toNat ≤ h.lastCluster.toNat ∧ c.toNat ≤ h.badCluster.toNat - 1 := by
    rw [clusterInRange_iff, UInt32.le_iff_toNat_le, UInt32.le_iff_toNat_le, UInt32.lt_iff_toNat_lt]
    have : (2 : UInt32).toNat = 2 := rfl
    omega
  unfold InData lastInData
  rw [hrange, h.sectorOf_toNat h2]
  constructor
  · intro ⟨hle, hsec, _⟩
    have := hfit.mp (by omega)
    omega
  · intro hle
    have hlt := hfit.mpr (by omega)
    refine ⟨by omega, Nat.mod_eq_of_lt hlt, fun i hi => ?_⟩
    have hsector : ((h.sectorOf c).toUInt64 + UInt64.ofNat i).toNat =
        h.firstSector.toNat + (c.toNat - 2) * h.sectorsPerCluster.toNat + i := by
      have hi32 := Nat.lt_trans hi h.sectorsPerCluster.toNat_lt
      rw [UInt64.toNat_add, UInt32.toNat_toUInt64, h.sectorOf_toNat h2, Nat.mod_eq_of_lt hlt,
        UInt64.toNat_ofNat_of_lt' (Nat.lt_trans hi32 (by decide))]
      omega
    rw [hsector]
    have hmul : (c.toNat - 2 + 1) * h.sectorsPerCluster.toNat ≤ h.lastCluster.toNat * h.sectorsPerCluster.toNat :=
      Nat.mul_le_mul_right _ (by omega)
    rw [Nat.add_mul, Nat.one_mul] at hmul
    omega

theorem chain_inData_iff (hbad : 0 < h.badCluster) (hspc : 0 < h.sectorsPerCluster) (getNextCluster : UInt32 → UInt32)
    (room : Nat) {start : UInt32} (h2 : 2 ≤ start) :
    (∀ c ∈ chainFrom getNextCluster room start, h.InData c) ↔ StaysBelow getNextCluster h.lastInData room start := by
  rw [← chain_le_iff getNextCluster room start h2]
  refine forall_congr' fun c => ?_
  refine imp_congr_right fun hc => ?_
  exact h.inData_iff hbad hspc (chainFrom_bounds getNextCluster room start c hc).1

end Heap

/-! ## FAT32 -/

namespace FAT32

namespace Volume
variable (v : Volume)

def heap : Heap where
  firstSector := v.driveInfo.dataStartSector
  sectorsPerCluster := v.sectorsPerCluster
  lastCluster := v.driveInfo.maxClusterCount
  badCluster := BAD_CLUSTER

def InData (c : UInt32) : Prop :=
  v.isValidCluster c = true ∧
    (v.clusterToSector c).toNat =
      v.driveInfo.dataStartSector.toNat + (c.toNat - 2) * v.sectorsPerCluster.toNat ∧
    ∀ sector ∈ v.sectorsOf c, v.driveInfo.dataStartSector.toNat ≤ sector.toNat ∧
      sector.toNat <
        v.driveInfo.dataStartSector.toNat + v.driveInfo.maxClusterCount.toNat * v.sectorsPerCluster.toNat

theorem inData_iff_heap {c : UInt32} : v.InData c ↔ v.heap.InData c := by
  have hz : v.heap.sectorsPerCluster.toNat = v.bootSector.sectorsPerCluster.toNat := UInt8.toNat_toUInt32 _
  unfold InData Heap.InData sectorsOf
  rw [hz]
  simp only [List.mem_map, List.mem_range, forall_exists_index, and_imp, forall_apply_eq_imp_iff₂]
  exact Iff.rfl

end Volume

def chainOf (v : Volume) (config : Config) (info : FileInfo) (outputPath : Path) (st : AnalysisState) : List UInt32 :=
  (validateClusterChain v config (startStatus v info.fileSize.toUInt32) info.cluster info.fileSize.toUInt32
    outputPath false st).1

theorem chainOf_eq (v : Volume) (config : Config) (info : FileInfo) (outputPath : Path) (st : AnalysisState) :
    chainOf v config info outputPath st =
      chainFrom v.getNextCluster (v.expectedClusters info.fileSize.toUInt32).toNat info.cluster :=
  validateClusterChain_chain ..

end FAT32

/-! ## exFAT -/

namespace ExFAT

namespace Volume
variable (v : Volume)

def heap : Heap where
  firstSector := v.bootSector.clusterHeapOffset
  sectorsPerCluster := v.sectorsPerCluster
  lastCluster := v.bootSector.clusterCount
  badCluster := BAD_CLUSTER

def InData (c : UInt32) : Prop :=
  v.isValidCluster c = true ∧
    (v.clusterToSector c).toNat =
      v.bootSector.clusterHeapOffset.toNat + (c.toNat - 2) * v.sectorsPerCluster.toNat ∧
    ∀ sector ∈ v.sectorsOf c, v.bootSector.clusterHeapOffset.toNat ≤ sector.toNat ∧
      sector.toNat <
        v.bootSector.clusterHeapOffset.toNat + v.bootSector.clusterCount.toNat * v.sectorsPerCluster.toNat

theorem inData_iff_heap {c : UInt32} : v.InData c ↔ v.heap.InData c := by
  unfold InData Heap.InData sectorsOf
  simp only [List.mem_map, List.mem_range, forall_exists_index, and_imp, forall_apply_eq_imp_iff₂]
  exact Iff.rfl

theorem sectorsPerCluster_pos : 0 < v.sectorsPerCluster := by
  rw [UInt32.lt_iff_toNat_lt, v.sectorsPerCluster_toNat]
  exact Nat.two_pow_pos _

end Volume

def chainOf (v : Volume) (config : Config) (info : FileInfo) (outputPath : Path) (st : AnalysisState) : List UInt32 :=
  (validateClusterChain v config (startStatus v info.fileSize) info.cluster info.fileSize outputPath false st).1

theorem chainOf_eq (v : Volume) (config : Config) (info : FileInfo) (outputPath : Path) (st : AnalysisState) :
    chainOf v config info outputPath st =
      chainFrom v.getNextCluster (v.expectedClusters info.fileSize).toNat info.cluster :=
  validateClusterChain_chain ..

end ExFAT

/-! ## Both engines -/

/-- A listed file's chain stays inside the volume exactly when no walk along the table,
of fewer clusters than the file needs, leaves the clusters up to `lastInData`. -/
theorem chains_inside_iff (config : Config) (stack : Nat) (outputPath : Path) :
    (∀ (v : FAT32.Volume) iswalnum scan (info : FAT32.FileInfo) st,
      FAT32.scanRoot v config iswalnum stack {} = some scan → info ∈ scan.recoveryList →
      ((∀ c ∈ FAT32.chainOf v config info outputPath st, v.InData c) ↔
        StaysBelow v.getNextCluster v.heap.lastInData (v.expectedClusters info.fileSize.toUInt32).toNat
          info.cluster)) ∧
    (∀ (v : ExFAT.Volume) scan (info : ExFAT.FileInfo) st,
      ExFAT.scanRoot v config stack {} = some scan → info ∈ scan.recoveryList →
      ((∀ c ∈ ExFAT.chainOf v config info outputPath st, v.InData c) ↔
        StaysBelow v.getNextCluster v.heap.lastInData (v.expectedClusters info.fileSize).toNat info.cluster)) := by
  constructor
  · intro v iswalnum scan info st hscan hinfo
    have hv := FAT32.listed_isValidCluster v config iswalnum hscan hinfo
    have hspc : 0 < v.heap.sectorsPerCluster := by
      rw [UInt32.lt_iff_toNat_lt]
      show 0 < v.bootSector.sectorsPerCluster.toUInt32.toNat
      rw [UInt8.toNat_toUInt32]
      exact UInt8.lt_iff_toNat_lt.mp v.sectorsPerCluster_pos
    rw [FAT32.chainOf_eq,
      ← v.heap.chain_inData_iff (show 0 < FAT32.BAD_CLUSTER by decide) hspc _ _ (v.isValidCluster_iff.mp hv).1]
    exact forall₂_congr fun c _ => v.inData_iff_heap
  · intro v scan info st hscan hinfo
    have hv := ExFAT.listed_isValidCluster v config hscan hinfo
    rw [ExFAT.chainOf_eq, ← v.heap.chain_inData_iff (show 0 < ExFAT.BAD_CLUSTER by decide) v.sectorsPerCluster_pos _ _
      (v.isValidCluster_iff.mp hv).1]
    exact forall₂_congr fun c _ => v.inData_iff_heap

theorem staysBelow_two {getNextCluster : UInt32 → UInt32} {last room : Nat} {start : UInt32} (hroom : room = 2)
    (hstart : start.toNat ≤ last) (hleaves : ¬ LeavesAt getNextCluster last start) :
    StaysBelow getNextCluster last room start := by
  refine ⟨fun _ _ => hstart, fun walk _ hlen => ?_⟩
  obtain rfl : walk = [] := List.length_eq_zero_iff.mp (by omega)
  exact hleaves

/-- A deleted file of 600 bytes whose first cluster, 4, is linked to cluster 6. -/
def linkedFile : FAT32.Volume :=
  FAT32.smallVolume [(1, List.replicate 16 0 ++ [6]), (2, FAT32.rawEntry 0xE5 0x20 4 600)]

/-- A deleted file of 600 bytes whose first cluster, 3, has an empty table entry. -/
def unlinkedFile : ExFAT.Volume :=
  ExFAT.smallVolume [(4, ([0x05, 2, 0, 0, 0x20] ++ List.replicate 27 0) ++
    (0x40 :: List.replicate 19 0 ++ [3, 0, 0, 0] ++ [0x58, 2, 0, 0, 0, 0, 0, 0]) ++ ([0x41, 0, 0x44] ++ List.replicate 29 0))]

theorem chains_inside_small :
    (FAT32.chainOf linkedFile { recover := true } ⟨1, wide "_.bin", wide "_", wide "bin", 600, 4, true⟩ ⟨[], []⟩ {} =
        [4, 6] ∧
      ∀ c ∈ FAT32.chainOf linkedFile { recover := true } ⟨1, wide "_.bin", wide "_", wide "bin", 600, 4, true⟩
        ⟨[], []⟩ {}, linkedFile.InData c) ∧
    (ExFAT.chainOf unlinkedFile { recover := true } ⟨1, wide "D", 600, 3⟩ ⟨[], []⟩ {} = [3, 4] ∧
      ∀ c ∈ ExFAT.chainOf unlinkedFile { recover := true } ⟨1, wide "D", 600, 3⟩ ⟨[], []⟩ {}, unlinkedFile.InData c) := by
  refine ⟨⟨by rw [FAT32.chainOf_eq]; decide +kernel, ?_⟩, by rw [ExFAT.chainOf_eq]; decide +kernel, ?_⟩
  · let info : FAT32.FileInfo := ⟨1, wide "_.bin", wide "_", wide "bin", 600, 4, true⟩
    obtain ⟨scan, hscan, hlist⟩ : ∃ scan,
        FAT32.scanRoot linkedFile { recover := true } (fun _ => true) 3 {} = some scan ∧ scan.recoveryList = [info] :=
      Option.map_eq_some_iff.mp (by decide +kernel)
    have hinfo : info ∈ scan.recoveryList := by rw [hlist]; exact List.mem_singleton.mpr rfl
    refine ((chains_inside_iff _ _ _).1 _ _ scan info _ hscan hinfo).mpr
      (staysBelow_two (by decide +kernel) (by decide +kernel) ?_)
    unfold LeavesAt
    decide +kernel
  · let info : ExFAT.FileInfo := ⟨1, wide "D", 600, 3⟩
    obtain ⟨scan, hscan, hlist⟩ : ∃ scan,
        ExFAT.scanRoot unlinkedFile { recover := true } 3 {} = some scan ∧ scan.recoveryList = [info] :=
      Option.map_eq_some_iff.mp (by decide +kernel)
    have hinfo : info ∈ scan.recoveryList := by rw [hlist]; exact List.mem_singleton.mpr rfl
    refine ((chains_inside_iff _ _ _).2 _ scan info _ hscan hinfo).mpr
      (staysBelow_two (by decide +kernel) (by decide +kernel) ?_)
    unfold LeavesAt
    decide +kernel

/-- In the last cluster of a FAT32 volume, a deleted file of one byte more than a cluster. -/
def lastClusterFile : FAT32.Volume := FAT32.smallVolume [(2, FAT32.rawEntry 0xE5 0x20 8 513)]

def lastClusterInfo (size : UInt64) : FAT32.FileInfo := ⟨1, wide "_.bin", wide "_", wide "bin", size, 8, true⟩

theorem lastClusterFile_scan : ∃ scan,
    FAT32.scanRoot lastClusterFile { recover := true } (fun _ => true) 1 {} = some scan ∧
      scan.recoveryList = [lastClusterInfo 513] :=
  Option.map_eq_some_iff.mp (by decide +kernel)

theorem chain_leaves_volume :
    ¬ ((∀ (v : FAT32.Volume) config iswalnum stack scan (info : FAT32.FileInfo) outputPath st,
        FAT32.scanRoot v config iswalnum stack {} = some scan → info ∈ scan.recoveryList →
        ∀ c ∈ FAT32.chainOf v config info outputPath st, v.InData c) ∧
      (∀ (v : ExFAT.Volume) config stack scan (info : ExFAT.FileInfo) outputPath st,
        ExFAT.scanRoot v config stack {} = some scan → info ∈ scan.recoveryList →
        ∀ c ∈ ExFAT.chainOf v config info outputPath st, v.InData c)) := by
  intro ⟨h, _⟩
  obtain ⟨scan, hscan, hlist⟩ := lastClusterFile_scan
  have h9 := h _ _ _ _ scan (lastClusterInfo 513) ⟨[], []⟩ {} hscan (by rw [hlist]; exact List.mem_singleton.mpr rfl) 9
    (by rw [FAT32.chainOf_eq]; decide +kernel)
  exact absurd h9.1 (by decide +kernel)

end DataRecovery
