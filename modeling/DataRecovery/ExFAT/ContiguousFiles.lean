import DataRecovery.ChainWalk
import DataRecovery.ExFAT.EntrySets
import DataRecovery.ExFAT.FatBase

/-!
# Contiguous exFAT files

The stream entry says whether a file has no FAT chain, but the parser takes only the first
cluster and the length from it. A contiguous file is recovered as one exactly when the words
that are read for its clusters do not lead elsewhere, and its clusters end below the
28-bit marker, where the chain is cut although the entry's own check is made in 32 bits.
-/

namespace DataRecovery.ExFAT

/-! ## From the entries to the recovery list -/

namespace EntrySet
variable (S : EntrySet)

def noFatChain : Bool := S.stream.getD 1 0 &&& 0x02 != 0

def info (fileId : UInt16) : FileInfo :=
  parseFileInfo fileId (S.entries.foldl (fun dirData raw => processDirectoryEntry raw dirData) {})

theorem foldl_names {names : List (List UInt8)} (h : ∀ name ∈ names, entryType name = 0x41) (d : DirEntryData) :
    (names.foldl (fun dirData raw => processDirectoryEntry raw dirData) d).startingCluster = d.startingCluster ∧
      (names.foldl (fun dirData raw => processDirectoryEntry raw dirData) d).fileSize = d.fileSize := by
  induction names generalizing d with
  | nil => exact ⟨rfl, rfl⟩
  | cons name names ih =>
    have ih' := ih (fun x hx => h x (List.mem_cons_of_mem _ hx)) (processDirectoryEntry name d)
    rw [List.foldl_cons, ih'.1, ih'.2, processDirectoryEntry_name (h name (List.mem_cons_self ..))]
    exact ⟨rfl, rfl⟩

variable {S} (hdeleted : S.deleted = true) (fileId : UInt16)
include hdeleted

theorem info_cluster : (S.info fileId).cluster = S.cluster := by
  unfold info parseFileInfo entries
  rw [List.foldl_cons, List.foldl_cons, (foldl_names (name_type_deleted hdeleted) _).1,
    processDirectoryEntry_stream (stream_type_deleted hdeleted)]
  rfl

theorem info_fileSize : (S.info fileId).fileSize = S.size := by
  unfold info parseFileInfo entries
  rw [List.foldl_cons, List.foldl_cons, (foldl_names (name_type_deleted hdeleted) _).2,
    processDirectoryEntry_stream (stream_type_deleted hdeleted)]
  rfl

end EntrySet

/-! ## The chain of a contiguous file -/

namespace Volume
variable (v : Volume)

def clustersFor (size : UInt64) : Nat := (size.toNat + v.bytesPerCluster.toNat - 1) / v.bytesPerCluster.toNat

def clustersFrom (c : UInt32) (n : Nat) : List UInt32 := (List.range n).map fun k => UInt32.ofNat (c.toNat + k)

def LeadsOn (c : UInt32) : Prop := unusableLink c (v.getNextCluster c) = true ∨ v.getNextCluster c = c + 1

variable {v}

theorem bytesPerCluster_pos : 0 < v.bytesPerCluster.toNat := by
  rw [v.bytesPerCluster_toNat, v.sectorsPerCluster_toNat, v.bytesPerSector_toNat]
  exact Nat.mul_pos (Nat.two_pow_pos _) (Nat.two_pow_pos _)

theorem expectedClusters_eq (size : UInt64) : (v.expectedClusters size).toNat =
    if size.toNat + v.bytesPerCluster.toNat ≤ 2 ^ 64 then v.clustersFor size else 0 :=
  v.expectedClusters_wrapped bytesPerCluster_pos size

theorem clustersFor_pos {size : UInt64} (h : size ≠ 0) : 0 < v.clustersFor size := by
  have hpos : 0 < size.toNat := Nat.pos_of_ne_zero fun hz => h (UInt64.toNat_inj.mp hz)
  have hbpc := bytesPerCluster_pos (v := v)
  exact Nat.div_pos (by omega) hbpc

theorem guessNext_eq_iff {c : UInt32} : guessNext v.getNextCluster c = c + 1 ↔ v.LeadsOn c := by
  unfold guessNext LeadsOn
  cases hu : unusableLink c (v.getNextCluster c) with
  | true => simp
  | false => simp

theorem chainFrom_eq_clustersFrom_iff {c : UInt32} (h2 : 2 ≤ c) (room : Nat) :
    chainFrom v.getNextCluster room c = clustersFrom c room ↔
      room = 0 ∨ c.toNat + room ≤ FIRST_MARKER.toNat ∧
        ∀ k, k + 1 < room → v.LeadsOn (UInt32.ofNat (c.toNat + k)) := by
  have h := chainFrom_eq_range_iff v.getNextCluster room c.toNat (UInt32.le_iff_toNat_le.mp h2) c.toNat_lt
  rw [UInt32.ofNat_toNat] at h
  refine h.trans (or_congr_right (and_congr_right fun _ => forall₂_congr fun k _ => ?_))
  rw [UInt32.ofNat_add (c.toNat + k) 1]
  exact guessNext_eq_iff

end Volume

/-! ## Files without a FAT chain -/

section
variable (v : Volume) (S : EntrySet)

def contiguousBytes : List UInt8 :=
  ((Volume.clustersFrom S.cluster (v.clustersFor S.size)).flatMap fun c =>
    (v.sectorsOf c).flatMap (sectorData v.readSector)).take S.size.toNat

/-- The file is recovered from the clusters that follow its first one, whatever the table holds. -/
structure IgnoresTable : Prop where
  chain : ∀ config fileId outputPath st,
    chainOf v config (S.info fileId) outputPath st = Volume.clustersFrom S.cluster (v.clustersFor S.size)
  bytes : ∀ fileId, recoveredData v (S.info fileId) = contiguousBytes v S

variable {v S} (hdeleted : S.deleted = true) (hvalid : v.isValidDeletedEntry S.cluster S.size = true)
include hdeleted hvalid

/-- Whether or not the file has a FAT chain, the table is followed: the chain is contiguous exactly when its
length does not wrap, it ends below the marker, and every word but the last leads on to the next number. -/
theorem ignoresTable_iff : IgnoresTable v S ↔
    S.size.toNat + v.bytesPerCluster.toNat ≤ 2 ^ 64 ∧
      S.cluster.toNat + v.clustersFor S.size ≤ FIRST_MARKER.toNat ∧
        ∀ k, k + 1 < v.clustersFor S.size → v.LeadsOn (UInt32.ofNat (S.cluster.toNat + k)) := by
  have h2 := (v.isValidCluster_iff.mp (v.isValidCluster_of_deletedEntry hvalid)).1
  have hsize := v.size_ne_zero_of_deletedEntry hvalid
  have hpos := Volume.clustersFor_pos (v := v) hsize
  have hiff := Volume.chainFrom_eq_clustersFrom_iff (v := v) h2 (v.clustersFor S.size)
  rw [or_iff_right (Nat.ne_of_gt hpos)] at hiff
  constructor
  · intro h
    have hchain := h.chain {} 1 ⟨[], []⟩ {}
    rw [chainOf_eq, S.info_cluster hdeleted, S.info_fileSize hdeleted, Volume.expectedClusters_eq] at hchain
    by_cases hfit : S.size.toNat + v.bytesPerCluster.toNat ≤ 2 ^ 64
    · rw [if_pos hfit] at hchain
      exact ⟨hfit, hiff.mp hchain⟩
    · rw [if_neg hfit] at hchain
      have hlen := congrArg List.length hchain
      unfold Volume.clustersFrom at hlen
      rw [List.length_map, List.length_range] at hlen
      exact absurd hlen (Nat.ne_of_lt hpos)
  · intro ⟨hfit, hrest⟩
    have hchain := hiff.mpr hrest
    have hcount : (v.expectedClusters S.size).toNat = v.clustersFor S.size := by
      rw [Volume.expectedClusters_eq, if_pos hfit]
    constructor
    · intro config fileId outputPath st
      rw [chainOf_eq, S.info_cluster hdeleted, S.info_fileSize hdeleted, hcount, hchain]
    · intro fileId
      have hlt : 0 < S.size := by
        rw [UInt64.lt_iff_toNat_lt]
        exact Nat.pos_of_ne_zero fun hz => hsize (UInt64.toNat_inj.mp hz)
      unfold recoveredData contiguousBytes
      rw [S.info_cluster hdeleted, S.info_fileSize hdeleted, hcount, hchain]
      exact copyChain_written v.readSector _ _ Volume.length_of_readSector v.sectorsOf _ hlt

end

structure SameFile (v w : Volume) (S : EntrySet) : Prop where
  bootSector : w.bootSector = v.bootSector
  sectors : ∀ c ∈ Volume.clustersFrom S.cluster (v.clustersFor S.size), ∀ sector ∈ v.sectorsOf c,
    w.readSector sector = v.readSector sector

theorem contiguousBytes_congr {v w : Volume} {S : EntrySet} (h : SameFile v w S) :
    contiguousBytes w S = contiguousBytes v S := by
  obtain ⟨device, bootSector, pastEnd, hbytes, hsectors⟩ := w
  obtain rfl : bootSector = v.bootSector := h.bootSector
  unfold contiguousBytes
  congr 1
  refine List.flatMap_congr fun c hc => List.flatMap_congr fun sector hsector => ?_
  unfold sectorData
  rw [← h.sectors c hc sector hsector]

/-- Two volumes on which the table is ignored recover the same bytes when they differ only outside the file. -/
theorem contiguous_file_iff (v : Volume) (S : EntrySet) (hdeleted : S.deleted = true)
    (hvalid : v.isValidDeletedEntry S.cluster S.size = true) :
    (IgnoresTable v S ↔ S.size.toNat + v.bytesPerCluster.toNat ≤ 2 ^ 64 ∧
      S.cluster.toNat + v.clustersFor S.size ≤ FIRST_MARKER.toNat ∧
        ∀ k, k + 1 < v.clustersFor S.size → v.LeadsOn (UInt32.ofNat (S.cluster.toNat + k))) ∧
    ∀ w, SameFile v w S → IgnoresTable v S → IgnoresTable w S →
      ∀ fileId, recoveredData w (S.info fileId) = recoveredData v (S.info fileId) := by
  refine ⟨ignoresTable_iff hdeleted hvalid, fun w hsame hv hw fileId => ?_⟩
  rw [hw.bytes, hv.bytes, contiguousBytes_congr hsame]

/-- A deleted file of 513 bytes from cluster 3 on, marked as having no FAT chain. -/
def contiguousSet : EntrySet :=
  { plainSet true 0x20 3 0 1 Nat.one_pos with
    stream := [0x40, 0x03] ++ List.replicate 18 0 ++ [3, 0, 0, 0, 1, 2] ++ List.replicate 6 0
    stream_type := rfl
    length_eq := by decide }

/-- Clusters 4 and 7 begin with 1 and 2; the byte is what the table has for cluster 3. -/
def linkedVolume (word : UInt8) : Volume := smallVolume [(4, List.replicate 12 0 ++ [word]), (6, [1]), (9, [2])]

theorem contiguous_file_small :
    (IgnoresTable (linkedVolume 0) contiguousSet ↔
      contiguousSet.size.toNat + (linkedVolume 0).bytesPerCluster.toNat ≤ 2 ^ 64 ∧
        contiguousSet.cluster.toNat + (linkedVolume 0).clustersFor contiguousSet.size ≤ FIRST_MARKER.toNat ∧
          ∀ k, k + 1 < (linkedVolume 0).clustersFor contiguousSet.size →
            (linkedVolume 0).LeadsOn (UInt32.ofNat (contiguousSet.cluster.toNat + k))) ∧
    ∀ w, SameFile (linkedVolume 0) w contiguousSet → IgnoresTable (linkedVolume 0) contiguousSet →
      IgnoresTable w contiguousSet →
        ∀ fileId, recoveredData w (contiguousSet.info fileId) = recoveredData (linkedVolume 0) (contiguousSet.info fileId) :=
  contiguous_file_iff (linkedVolume 0) contiguousSet rfl (by decide +kernel)

/-- With 7 for cluster 3 the second cluster is 7, and not 4. -/
theorem table_followed :
    (¬ ∀ (v : Volume) (S : EntrySet), ConsistentGeometry v.bootSector → S.deleted = true → S.noFatChain = true →
      v.isValidDeletedEntry S.cluster S.size = true → IgnoresTable v S) ∧
    recoveredData (linkedVolume 0) (contiguousSet.info 1) ≠ recoveredData (linkedVolume 7) (contiguousSet.info 1) := by
  constructor
  · intro h
    have hvalid : (linkedVolume 7).isValidDeletedEntry contiguousSet.cluster contiguousSet.size = true := by
      decide +kernel
    have hignores := h (linkedVolume 7) contiguousSet (by decide) rfl (by decide) hvalid
    have hleads := ((ignoresTable_iff rfl hvalid).mp hignores).2.2 0 (by decide +kernel)
    unfold Volume.LeadsOn at hleads
    exact absurd hleads (by decide +kernel)
  · intro heq
    have hbyte := congrArg (fun bytes => bytes[512]?) heq
    exact absurd hbyte (by decide +kernel)

/-! ## Files with a zeroed table -/

def FullLength (v : Volume) (startCluster : UInt32) (size : UInt64) : Prop :=
  ∀ config outputPath isExtensionPredicted st,
    (validateClusterChain v config (startStatus v size) startCluster size outputPath isExtensionPredicted st).1 =
      Volume.clustersFrom startCluster (v.expectedClusters size).toNat

/-- Where the words are zero the chain is complete exactly when it ends below the 28-bit marker. -/
theorem fullLength_iff (v : Volume) (startCluster : UInt32) (size : UInt64)
    (hvalid : v.isValidDeletedEntry startCluster size = true)
    (hzero : ∀ c ∈ Volume.clustersFrom startCluster (v.expectedClusters size).toNat, v.getNextCluster c = 0) :
    FullLength v startCluster size ↔ v.expectedClusters size = 0 ∨
      startCluster.toNat + (v.expectedClusters size).toNat ≤ FIRST_MARKER.toNat := by
  have h2 := (v.isValidCluster_iff.mp (v.isValidCluster_of_deletedEntry hvalid)).1
  have hiff := Volume.chainFrom_eq_clustersFrom_iff (v := v) h2 (v.expectedClusters size).toNat
  have hleads : ∀ k, k + 1 < (v.expectedClusters size).toNat → v.LeadsOn (UInt32.ofNat (startCluster.toNat + k)) := by
    intro k hk
    refine .inl ?_
    rw [hzero _ (List.mem_map.mpr ⟨k, List.mem_range.mpr (Nat.lt_of_succ_lt hk), rfl⟩)]
    simp [unusableLink]
  have hchain : FullLength v startCluster size ↔ chainFrom v.getNextCluster (v.expectedClusters size).toNat startCluster =
      Volume.clustersFrom startCluster (v.expectedClusters size).toNat := by
    constructor
    · exact fun h => (validateClusterChain_chain ..).symm.trans (h {} ⟨[], []⟩ false {})
    · exact fun h config outputPath isExtensionPredicted st => (validateClusterChain_chain ..).trans h
  rw [hchain, hiff, ← UInt64.toNat_inj, UInt64.toNat_zero]
  exact or_congr_right (and_iff_left hleads)

theorem smallVolume_zeros : ∀ c ∈ Volume.clustersFrom 5 ((smallVolume []).expectedClusters 1000).toNat,
    (smallVolume []).getNextCluster c = 0 := by
  have hall : (Volume.clustersFrom 5 ((smallVolume []).expectedClusters 1000).toNat).all
      (fun c => (smallVolume []).getNextCluster c == 0) = true := by
    decide +kernel
  exact fun c hc => eq_of_beq (List.all_eq_true.mp hall c hc)

theorem fullLength_small : FullLength (smallVolume []) 5 1000 ↔ (smallVolume []).expectedClusters 1000 = 0 ∨
    (5 : UInt32).toNat + ((smallVolume []).expectedClusters 1000).toNat ≤ FIRST_MARKER.toNat :=
  fullLength_iff (smallVolume []) 5 1000 (by decide) smallVolume_zeros

def manyClusters : Volume where
  device := .ofSectors [] 512
  bootSector :=
    { smallBoot with
      volumeLength := 0x10400000, fatLength := 0x300000, clusterHeapOffset := 0x300010, clusterCount := 0x10000010 }
  pastEnd := fun _ => 0
  bytesPerSectorShift_lt := by decide
  sectorsPerClusterShift_lt := by decide

/-- A file of one byte that begins at the marker gets no cluster. -/
theorem chain_cut_at_marker :
    ¬ ∀ (v : Volume) startCluster size, ConsistentGeometry v.bootSector →
      v.bootSector.clusterCount.toNat ≤ 2 ^ 32 - 11 → v.isValidDeletedEntry startCluster size = true →
      startCluster.toNat + (v.expectedClusters size).toNat - 1 ≤ v.bootSector.clusterCount.toNat →
      (∀ c ∈ Volume.clustersFrom startCluster (v.expectedClusters size).toNat, v.getNextCluster c = 0) →
      FullLength v startCluster size := by
  intro h
  have hvalid : manyClusters.isValidDeletedEntry FIRST_MARKER 1 = true := by decide +kernel
  have hall : (Volume.clustersFrom FIRST_MARKER (manyClusters.expectedClusters 1).toNat).all
      (fun c => manyClusters.getNextCluster c == 0) = true := by
    decide +kernel
  have hzero : ∀ c ∈ Volume.clustersFrom FIRST_MARKER (manyClusters.expectedClusters 1).toNat,
      manyClusters.getNextCluster c = 0 :=
    fun c hc => eq_of_beq (List.all_eq_true.mp hall c hc)
  have hfull := h manyClusters FIRST_MARKER 1 (by decide +kernel) (by decide +kernel) hvalid (by decide +kernel) hzero
  have hchain := hfull {} ⟨[], []⟩ false {}
  exact absurd (congrArg List.length hchain) (by decide +kernel)

end DataRecovery.ExFAT
