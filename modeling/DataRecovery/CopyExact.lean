import DataRecovery.Chunks
import DataRecovery.ExFAT.DepthLimit
import DataRecovery.ExFAT.Recovery
import DataRecovery.FAT32.ScanExact
import DataRecovery.FAT32.Recovery
import DataRecovery.NTFS.Recovery

/-!
# What the copy loops write and count

When every sector of the chain can be read, the loops write the start of the clusters'
content, up to the expected size. The two counters end at the bytes written and the clusters
it takes, and the room left is never taken from a smaller number.
-/

namespace DataRecovery

/-! ## The subtraction -/

section
variable (read : UInt64 → Option (List UInt8)) (bytesPerSector expectedSize : UInt64)

/-- `copyCluster`, with `none` where `expectedSize - recoveredBytes` would wrap. -/
def checkedCopyCluster : List UInt64 → CopyState → Option CopyState
  | [], st => some st
  | sector :: rest, st =>
    match read sector with
    | none => checkedCopyCluster rest st
    | some sectorBuffer =>
      if expectedSize < st.recoveredBytes then none
      else
        let st := writeSector bytesPerSector expectedSize sectorBuffer st
        if expectedSize ≤ st.recoveredBytes then some st else checkedCopyCluster rest st

def checkedCopyChain {κ : Type} (sectorsOf : κ → List UInt64) : List κ → CopyState → Option CopyState
  | [], st => some st
  | cluster :: rest, st =>
    (checkedCopyCluster read bytesPerSector expectedSize (sectorsOf cluster) st).bind fun st =>
      let st := { st with recoveredClusters := st.recoveredClusters + 1 }
      if expectedSize ≤ st.recoveredBytes then some st else checkedCopyChain sectorsOf rest st

theorem checkedCopyCluster_eq : ∀ (sectors : List UInt64) {st : CopyState}, st.recoveredBytes < expectedSize →
    checkedCopyCluster read bytesPerSector expectedSize sectors st =
      some (copyCluster read bytesPerSector expectedSize sectors st)
  | [], _, _ => rfl
  | sector :: rest, st, h => by
    unfold checkedCopyCluster copyCluster
    cases read sector with
    | none => exact checkedCopyCluster_eq rest h
    | some sectorBuffer =>
      dsimp only
      rw [if_neg (UInt64.not_lt.mpr (UInt64.le_of_lt h))]
      split
      · rfl
      · rename_i hmore
        exact checkedCopyCluster_eq rest (UInt64.not_le.mp hmore)

/-- What is left is positive whenever a sector is written. -/
theorem checkedCopyChain_eq {κ : Type} (sectorsOf : κ → List UInt64) : ∀ (chain : List κ) {st : CopyState},
    st.recoveredBytes < expectedSize →
      checkedCopyChain read bytesPerSector expectedSize sectorsOf chain st =
        some (copyChain read bytesPerSector expectedSize sectorsOf chain st)
  | [], _, _ => rfl
  | c :: rest, st, h => by
    unfold checkedCopyChain copyChain
    rw [checkedCopyCluster_eq read bytesPerSector expectedSize (sectorsOf c) h, Option.bind_some]
    dsimp only
    split
    · rfl
    · rename_i hmore
      exact checkedCopyChain_eq sectorsOf rest (UInt64.not_le.mp hmore)

end

/-! ## The clusters counted -/

section
variable {read : UInt64 → Option (List UInt8)} {bytesPerSector expectedSize : UInt64}

/-- One cluster fewer is left after a cluster's bytes. -/
theorem ceil_sub {left n : Nat} (hn : 0 < n) (hleft : n < left) : (left + n - 1) / n = (left - n + n - 1) / n + 1 := by
  have hsplit : left + n - 1 = left - n + n - 1 + n := by omega
  rw [hsplit, Nat.add_div_right _ hn]

theorem copyCluster_clusters : ∀ (sectors : List UInt64) (st : CopyState),
    (copyCluster read bytesPerSector expectedSize sectors st).recoveredClusters = st.recoveredClusters
  | [], _ => rfl
  | sector :: rest, st => by
    unfold copyCluster
    cases read sector with
    | none => exact copyCluster_clusters rest st
    | some sectorBuffer =>
      dsimp only
      split
      · rfl
      · rw [copyCluster_clusters rest]
        rfl

variable {κ : Type} {sectorsOf : κ → List UInt64} {bytesPerCluster : Nat}
  (hread : ∀ {sector buffer}, read sector = some buffer → buffer.length = bytesPerSector.toNat)
  (hpos : 0 < bytesPerCluster)
include hread hpos

/-- While bytes are left, each cluster that is counted brings as many as it has. -/
theorem copyChain_clusters : ∀ (chain : List κ) {data : List UInt8} {st : CopyState},
    (∀ c ∈ chain, ((sectorsOf c).flatMap (sectorData read)).length = bytesPerCluster) → Wrote expectedSize data st →
    data.length < expectedSize.toNat → st.recoveredClusters.toNat ≤ data.length →
    (copyChain read bytesPerSector expectedSize sectorsOf chain st).recoveredClusters.toNat =
      st.recoveredClusters.toNat +
        min chain.length ((expectedSize.toNat - data.length + bytesPerCluster - 1) / bytesPerCluster)
  | [], data, st, _, _, _, _ => by simp [copyChain]
  | c :: rest, data, st, hlen, hw, hroom, hcount => by
    have hsize := expectedSize.toNat_lt
    have hc := hlen c (List.mem_cons_self ..)
    have hst := wrote_copyCluster read bytesPerSector expectedSize hread (sectorsOf c) hw hroom
    have hdata : (data ++ (sectorsOf c).flatMap (sectorData read)).length = data.length + bytesPerCluster := by
      rw [List.length_append, hc]
    have hsucc : ((copyCluster read bytesPerSector expectedSize (sectorsOf c) st).recoveredClusters + 1).toNat =
        st.recoveredClusters.toNat + 1 := by
      rw [copyCluster_clusters, UInt64.toNat_add, UInt64.toNat_one, Nat.mod_eq_of_lt (by omega)]
    have hbytes := hst.2
    rw [hdata] at hbytes
    unfold copyChain
    dsimp only
    rw [List.length_cons]
    split
    · rename_i hdone
      have hdone := UInt64.le_iff_toNat_le.mp hdone
      have hone : (expectedSize.toNat - data.length + bytesPerCluster - 1) / bytesPerCluster = 1 :=
        Nat.div_eq_of_lt_le (by omega) (by omega)
      rw [hsucc, hone]
      omega
    · rename_i hmore
      have hmore := Nat.lt_of_not_le fun hle => hmore (UInt64.le_iff_toNat_le.mpr hle)
      have hleft : data.length + bytesPerCluster < expectedSize.toNat := by omega
      have hceil : (expectedSize.toNat - data.length + bytesPerCluster - 1) / bytesPerCluster =
          (expectedSize.toNat - (data.length + bytesPerCluster) + bytesPerCluster - 1) / bytesPerCluster + 1 := by
        rw [ceil_sub hpos (by omega), Nat.sub_add_eq]
      have hst' : Wrote expectedSize (data ++ (sectorsOf c).flatMap (sectorData read))
          { copyCluster read bytesPerSector expectedSize (sectorsOf c) st with
            recoveredClusters := (copyCluster read bytesPerSector expectedSize (sectorsOf c) st).recoveredClusters + 1 } := hst
      rw [copyChain_clusters rest (fun d hd => hlen d (List.mem_cons_of_mem _ hd)) hst' (by rw [hdata]; exact hleft)
        (by rw [hsucc, hdata]; omega)]
      rw [hsucc, hdata, hceil]
      omega

end

/-! ## The whole loop -/

def sectorsFrom {κ : Type} (clusterToSector : κ → UInt64) (sectorsPerCluster : Nat) (c : κ) : List UInt64 :=
  (List.range sectorsPerCluster).map fun i => clusterToSector c + UInt64.ofNat i

section
variable {κ : Type} (read : UInt64 → Option (List UInt8)) (bytesPerSector expectedSize : UInt64)
  (clusterToSector : κ → UInt64) (sectorsPerCluster bytesPerCluster : Nat)

def AllReadable (chain : List κ) : Prop :=
  ∀ c ∈ chain, ∀ i < sectorsPerCluster, (read (clusterToSector c + UInt64.ofNat i)).isSome

/-- The start of the clusters' content is written, its length and its clusters are counted, and no subtraction
wraps. -/
structure CopiesExactly (chain : List κ) (copied : CopyState) : Prop where
  written : copied.written =
    (chain.flatMap fun c => (sectorsFrom clusterToSector sectorsPerCluster c).flatMap (sectorData read)).take
      (min expectedSize.toNat (chain.length * bytesPerCluster))
  written_length : copied.written.length = min expectedSize.toNat (chain.length * bytesPerCluster)
  recoveredBytes : copied.recoveredBytes.toNat = copied.written.length
  recoveredClusters : copied.recoveredClusters.toNat =
    min chain.length ((expectedSize.toNat + bytesPerCluster - 1) / bytesPerCluster)
  no_underflow :
    checkedCopyChain read bytesPerSector expectedSize (sectorsFrom clusterToSector sectorsPerCluster) chain {} =
      some copied

end

section
variable {κ : Type} {read : UInt64 → Option (List UInt8)} {bytesPerSector expectedSize : UInt64}
  {clusterToSector : κ → UInt64} {sectorsPerCluster : Nat}

theorem length_cluster (hread : ∀ {sector buffer}, read sector = some buffer → buffer.length = bytesPerSector.toNat)
    {c : κ} (hc : ∀ i < sectorsPerCluster, (read (clusterToSector c + UInt64.ofNat i)).isSome) :
    ((sectorsFrom clusterToSector sectorsPerCluster c).flatMap (sectorData read)).length =
      sectorsPerCluster * bytesPerSector.toNat := by
  have hsector : ∀ sector ∈ sectorsFrom clusterToSector sectorsPerCluster c,
      (sectorData read sector).length = bytesPerSector.toNat := by
    intro sector hsector
    obtain ⟨i, hi, rfl⟩ := List.mem_map.mp hsector
    obtain ⟨buffer, hbuffer⟩ := Option.isSome_iff_exists.mp (hc i (List.mem_range.mp hi))
    rw [sectorData, hbuffer]
    exact hread hbuffer
  rw [length_flatMap_chunks hsector, sectorsFrom, List.length_map, List.length_range]

theorem copyChain_exact
    (hread : ∀ {sector buffer}, read sector = some buffer → buffer.length = bytesPerSector.toNat)
    (hbps : 0 < bytesPerSector.toNat) (hspc : 0 < sectorsPerCluster) (hsize : 1 ≤ expectedSize) {chain : List κ}
    (hchain : AllReadable read clusterToSector sectorsPerCluster chain) :
    CopiesExactly read bytesPerSector expectedSize clusterToSector sectorsPerCluster
      (sectorsPerCluster * bytesPerSector.toNat) chain
      (copyChain read bytesPerSector expectedSize (sectorsFrom clusterToSector sectorsPerCluster) chain {}) := by
  let sectorsOf := sectorsFrom clusterToSector sectorsPerCluster
  have hlt : 0 < expectedSize.toNat := UInt64.le_iff_toNat_le.mp hsize
  have hlen : ∀ c ∈ chain, ((sectorsOf c).flatMap (sectorData read)).length = sectorsPerCluster * bytesPerSector.toNat :=
    fun c hc => length_cluster hread (hchain c hc)
  have hdata : (chain.flatMap fun c => (sectorsOf c).flatMap (sectorData read)).length =
      chain.length * (sectorsPerCluster * bytesPerSector.toNat) := length_flatMap_chunks hlen
  have hstart : Wrote expectedSize [] {} := ⟨by simp, by simp⟩
  obtain ⟨hwritten, hbytes⟩ := wrote_copyChain read bytesPerSector expectedSize hread sectorsOf chain hstart hlt
  rw [List.nil_append] at hwritten hbytes
  rw [hdata] at hbytes
  have hlength : (copyChain read bytesPerSector expectedSize sectorsOf chain {}).written.length =
      min expectedSize.toNat (chain.length * (sectorsPerCluster * bytesPerSector.toNat)) := by
    rw [hwritten, List.length_take, hdata]
  refine ⟨?_, hlength, hbytes.trans hlength.symm, ?_, ?_⟩
  · rw [hwritten, ← hdata, ← List.take_take, List.take_length]
  · have hclusters := copyChain_clusters hread (Nat.mul_pos hspc hbps) chain hlen hstart hlt (Nat.zero_le _)
    rw [hclusters]
    exact Nat.zero_add _
  · exact checkedCopyChain_eq read bytesPerSector expectedSize sectorsOf chain (UInt64.lt_iff_toNat_lt.mpr hlt)

end

/-! ## The three engines -/

section
variable {host : Host} (st : RunState host) (outputPath : Path) (status : RecoveryStatus)
  (hcreate : host.canCreate outputPath = true) (hclusters : status.recoveredClusters = 0)
  (hbytes : status.recoveredBytes = 0)
include hcreate hclusters hbytes

namespace FAT32

theorem recoverFile_exact (v : Volume) (clusterChain : List UInt32) (expectedSize : UInt32) (hsize : 1 ≤ expectedSize)
    (hreadable : AllReadable v.readSector (fun c => (v.clusterToSector c).toUInt64)
      v.bootSector.sectorsPerCluster.toNat clusterChain) :
    ∃ copied, CopiesExactly v.readSector v.bytesPerSector.toUInt64 expectedSize.toUInt64
        (fun c => (v.clusterToSector c).toUInt64) v.bootSector.sectorsPerCluster.toNat v.bytesPerCluster.toNat
        clusterChain copied ∧
      recoverFile v clusterChain status outputPath expectedSize st =
        ({ st with
            files := st.files.write outputPath (.data copied.written)
            shown := st.shown ++ [{ status with
              recoveredBytes := copied.recoveredBytes, recoveredClusters := copied.recoveredClusters }] }, none) := by
  have hbps : v.bytesPerSector.toUInt64.toNat = v.bootSector.bytesPerSector.toNat := by
    rw [UInt32.toNat_toUInt64]
    exact UInt16.toNat_toUInt32 _
  have hsize64 : 1 ≤ expectedSize.toUInt64 := by
    rw [UInt64.le_iff_toNat_le, UInt32.toNat_toUInt64]
    exact UInt32.le_iff_toNat_le.mp hsize
  have hexact := copyChain_exact Volume.length_of_readSector
    (by rw [hbps]; exact UInt16.lt_iff_toNat_lt.mp v.bytesPerSector_pos)
    (UInt8.lt_iff_toNat_lt.mp v.sectorsPerCluster_pos) hsize64 hreadable
  rw [hbps, ← v.bytesPerCluster_toNat] at hexact
  refine ⟨_, hexact, ?_⟩
  unfold recoverFile
  rw [if_pos hcreate, hclusters, hbytes]
  rfl

end FAT32

namespace ExFAT

theorem recoverFile_exact (v : Volume) (clusterChain : List UInt32) (expectedSize : UInt64) (hsize : 1 ≤ expectedSize)
    (hreadable : AllReadable v.readSector (fun c => (v.clusterToSector c).toUInt64) v.sectorsPerCluster.toNat
      clusterChain) :
    ∃ copied, CopiesExactly v.readSector v.bytesPerSector.toUInt64 expectedSize
        (fun c => (v.clusterToSector c).toUInt64) v.sectorsPerCluster.toNat v.bytesPerCluster.toNat
        clusterChain copied ∧
      recoverFile v clusterChain status outputPath expectedSize st =
        ({ st with
            files := st.files.write outputPath (.data copied.written)
            shown := st.shown ++ [{ status with
              recoveredBytes := copied.recoveredBytes, recoveredClusters := copied.recoveredClusters }] }, none) := by
  have hbps : v.bytesPerSector.toUInt64.toNat = v.bytesPerSector.toNat := UInt32.toNat_toUInt64 _
  have hexact := copyChain_exact Volume.length_of_readSector (by rw [hbps, v.bytesPerSector_toNat]; exact Nat.two_pow_pos _)
    (by rw [v.sectorsPerCluster_toNat]; exact Nat.two_pow_pos _) hsize hreadable
  rw [hbps, ← v.bytesPerCluster_toNat] at hexact
  refine ⟨_, hexact, ?_⟩
  unfold recoverFile
  rw [if_pos hcreate, hclusters, hbytes]
  rfl

end ExFAT

namespace NTFS

theorem recoverNonResidentFile_exact (v : Volume) (clusterChain : List UInt64) (expectedSize : UInt64)
    (hbps : 0 < v.bytesPerSector) (hspc : 0 < v.sectorsPerCluster) (hsize : 1 ≤ expectedSize)
    (hreadable : AllReadable v.readSector v.clusterToSector v.sectorsPerCluster.toNat clusterChain) :
    ∃ copied, CopiesExactly v.readSector v.bytesPerSector.toUInt64 expectedSize v.clusterToSector
        v.sectorsPerCluster.toNat (v.sectorsPerCluster.toNat * v.bytesPerSector.toNat) clusterChain copied ∧
      recoverNonResidentFile v clusterChain status outputPath expectedSize st =
        (({ st with files := st.files.write outputPath (.data copied.written) }, none),
          { status with
            recoveredBytes := copied.recoveredBytes, recoveredClusters := copied.recoveredClusters }) := by
  have hwide : v.bytesPerSector.toUInt64.toNat = v.bytesPerSector.toNat := UInt16.toNat_toUInt64 _
  have hexact := copyChain_exact Volume.length_of_readSector (by rw [hwide]; exact UInt16.lt_iff_toNat_lt.mp hbps)
    (UInt8.lt_iff_toNat_lt.mp hspc) hsize hreadable
  rw [hwide] at hexact
  refine ⟨_, hexact, ?_⟩
  unfold recoverNonResidentFile
  rw [if_pos hcreate, hclusters, hbytes]
  rfl

end NTFS

/-- From fresh counters each of the three loops writes exactly the file, and counts it. -/
theorem copy_loops_exact :
    (∀ (v : FAT32.Volume) clusterChain expectedSize, 1 ≤ expectedSize →
      AllReadable v.readSector (fun c => (v.clusterToSector c).toUInt64) v.bootSector.sectorsPerCluster.toNat
          clusterChain →
        ∃ copied, CopiesExactly v.readSector v.bytesPerSector.toUInt64 expectedSize.toUInt64
            (fun c => (v.clusterToSector c).toUInt64) v.bootSector.sectorsPerCluster.toNat v.bytesPerCluster.toNat
            clusterChain copied ∧
          FAT32.recoverFile v clusterChain status outputPath expectedSize st =
            ({ st with
                files := st.files.write outputPath (.data copied.written)
                shown := st.shown ++ [{ status with
                  recoveredBytes := copied.recoveredBytes, recoveredClusters := copied.recoveredClusters }] }, none)) ∧
    (∀ (v : ExFAT.Volume) clusterChain expectedSize, 1 ≤ expectedSize →
      AllReadable v.readSector (fun c => (v.clusterToSector c).toUInt64) v.sectorsPerCluster.toNat clusterChain →
        ∃ copied, CopiesExactly v.readSector v.bytesPerSector.toUInt64 expectedSize
            (fun c => (v.clusterToSector c).toUInt64) v.sectorsPerCluster.toNat v.bytesPerCluster.toNat
            clusterChain copied ∧
          ExFAT.recoverFile v clusterChain status outputPath expectedSize st =
            ({ st with
                files := st.files.write outputPath (.data copied.written)
                shown := st.shown ++ [{ status with
                  recoveredBytes := copied.recoveredBytes, recoveredClusters := copied.recoveredClusters }] }, none)) ∧
    (∀ (v : NTFS.Volume) clusterChain expectedSize, 0 < v.bytesPerSector → 0 < v.sectorsPerCluster → 1 ≤ expectedSize →
      AllReadable v.readSector v.clusterToSector v.sectorsPerCluster.toNat clusterChain →
        ∃ copied, CopiesExactly v.readSector v.bytesPerSector.toUInt64 expectedSize v.clusterToSector
            v.sectorsPerCluster.toNat (v.sectorsPerCluster.toNat * v.bytesPerSector.toNat) clusterChain copied ∧
          NTFS.recoverNonResidentFile v clusterChain status outputPath expectedSize st =
            (({ st with files := st.files.write outputPath (.data copied.written) }, none),
              { status with
                recoveredBytes := copied.recoveredBytes, recoveredClusters := copied.recoveredClusters })) :=
  ⟨FAT32.recoverFile_exact st outputPath status hcreate hclusters hbytes,
    ExFAT.recoverFile_exact st outputPath status hcreate hclusters hbytes,
    NTFS.recoverNonResidentFile_exact st outputPath status hcreate hclusters hbytes⟩

end

theorem copy_loops_exact_small :
    (∃ copied, CopiesExactly (FAT32.smallVolume []).readSector 512 600
      (fun c => ((FAT32.smallVolume []).clusterToSector c).toUInt64) 1 512 [4, 5] copied) ∧
    (∃ copied, CopiesExactly (ExFAT.smallVolume []).readSector 512 600
      (fun c => ((ExFAT.smallVolume []).clusterToSector c).toUInt64) 1 512 [4, 5] copied) ∧
    ∃ copied, CopiesExactly (NTFS.Volume.mk (.ofSectors [] 512) NTFS.smallDrive).readSector 512 600
      (NTFS.Volume.mk (.ofSectors [] 512) NTFS.smallDrive).clusterToSector 1 512 [4, 5] copied := by
  obtain ⟨hfat, hexfat, hntfs⟩ := @copy_loops_exact plainHost { files := ∅ } ⟨[], []⟩ {} rfl rfl rfl
  obtain ⟨fat, hf, -⟩ := hfat (FAT32.smallVolume []) [4, 5] 600 (by decide) fun _ _ _ _ => rfl
  obtain ⟨exfat, he, -⟩ := hexfat (ExFAT.smallVolume []) [4, 5] 600 (by decide) fun _ _ _ _ => rfl
  obtain ⟨ntfs, hn, -⟩ := hntfs ⟨.ofSectors [] 512, NTFS.smallDrive⟩ [4, 5] 600 (by decide) (by decide) (by decide)
    fun _ _ _ _ => rfl
  exact ⟨⟨fat, hf⟩, ⟨exfat, he⟩, ⟨ntfs, hn⟩⟩

end DataRecovery
