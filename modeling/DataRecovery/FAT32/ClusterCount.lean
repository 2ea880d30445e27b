import DataRecovery.FAT32.Recovery
import DataRecovery.FAT32.ScanExact
import DataRecovery.Overwrites

/-!
# Counting the clusters of a FAT32 file

Both functions round the size up in 32-bit arithmetic. The sum is right up to
`2 ^ 32`; past it the count is 0, and nothing of the file is recovered.
-/

namespace DataRecovery.FAT32

def clustersFor (v : Volume) (size : Nat) : Nat := (size + v.bytesPerCluster.toNat - 1) / v.bytesPerCluster.toNat

section
variable {v : Volume} {size : UInt32}

theorem expectedClusters_wrapped (v : Volume) (size : UInt32) : (v.expectedClusters size).toNat =
    if size.toNat + v.bytesPerCluster.toNat ≤ 2 ^ 32 then clustersFor v size.toNat else 0 := by
  have h := wrapped_ceil size.toNat_lt v.bytesPerCluster.toNat_lt (UInt32.lt_iff_toNat_lt.mp v.bytesPerCluster_pos)
  unfold Volume.expectedClusters clustersFor
  rw [UInt32.toNat_div, UInt32.toNat_sub, UInt32.toNat_add, ← h]
  rfl

theorem expectedClusters_toNat (hfit : size.toNat + v.bytesPerCluster.toNat ≤ 2 ^ 32) :
    (v.expectedClusters size).toNat = clustersFor v size.toNat := by
  rw [expectedClusters_wrapped, if_pos hfit]

theorem clustersFor_pos (hpos : 0 < size.toNat) : 0 < clustersFor v size.toNat := by
  have hbpc : 0 < v.bytesPerCluster.toNat := UInt32.lt_iff_toNat_lt.mp v.bytesPerCluster_pos
  exact (lt_ceil_iff hbpc).mpr (by omega)

theorem le_clustersFor_mul : size.toNat ≤ clustersFor v size.toNat * v.bytesPerCluster.toNat :=
  le_ceil_mul (UInt32.lt_iff_toNat_lt.mp v.bytesPerCluster_pos) _

theorem percentage_le {part whole : Nat} (h : part ≤ whole) : (part : Rat) / whole * 100 ≤ 100 := by
  have hle : (part : Rat) / whole ≤ 1 := div_le_one_of_le₀ (by exact_mod_cast h) (Nat.cast_nonneg whole)
  calc (part : Rat) / whole * 100 ≤ 1 * 100 := mul_le_mul_of_nonneg_right hle (by norm_num)
    _ = 100 := one_mul 100

theorem analyzeClusterOverwrites_counted (v : Volume) (size startCluster : UInt32) (st : AnalysisState) :
    ∃ a st', analyzeClusterOverwrites v startCluster size st = .ok (a, st') ∧
      a.overwrittenClusters.length ≤ clustersFor v size.toNat ∧
      a.overwritePercentage = (a.overwrittenClusters.length : Rat) / (v.expectedClusters size).toNat * 100 := by
  obtain ⟨visits, hvisits, hclusters⟩ := overwriteVisits_linked v.getNextCluster size.toUInt64
    v.bytesPerCluster_pos (v.offsets_fit size) startCluster
  have hlen : visits.length ≤ clustersFor v size.toNat := by
    rw [← List.length_map Prod.fst, hclusters, UInt32.toNat_toUInt64]
    exact length_walkWhile _ _ _
  let out := analyzeVisits (v.expectedClusters size).toUInt64 visits st
  refine ⟨out.1, out.2, ?_, ?_, ?_⟩
  · unfold analyzeClusterOverwrites
    rw [analyzeClusterOverwrites_eq, hvisits]
    rfl
  · show ((replayVisits st.nextFileId visits st.clusterHistory {}).2.withPercentage _).overwrittenClusters.length ≤ _
    rw [withPercentage_clusters]
    have h := length_replayVisits st.nextFileId visits st.clusterHistory {}
    simp only [List.length_nil, Nat.zero_add] at h
    exact Nat.le_trans h hlen
  · have h := withPercentage_percentage (v.expectedClusters size).toUInt64
      (replayVisits_percentage st.nextFileId visits st.clusterHistory {})
    rw [UInt32.toNat_toUInt64] at h
    show (OverwriteAnalysis.withPercentage _ _).overwritePercentage =
      ((OverwriteAnalysis.withPercentage _ _).overwrittenClusters.length : Rat) / _ * 100
    rw [h, withPercentage_clusters]

end

/-- What the count promises: it is the size over the cluster size, rounded up, in both functions,
so the chain has room for the file and the percentage is one. -/
structure CountHolds (v : Volume) (size : UInt32) : Prop where
  expected : (startStatus v size).expectedClusters.toNat = clustersFor v size.toNat
  analysed : (v.expectedClusters size).toNat = clustersFor v size.toNat
  at_least_one : 1 ≤ (startStatus v size).expectedClusters.toNat
  room : size.toNat ≤ (startStatus v size).expectedClusters.toNat * v.bytesPerCluster.toNat
  percentage : ∀ startCluster st, ∃ a st', analyzeClusterOverwrites v startCluster size st = .ok (a, st') ∧
    (a.overwrittenClusters ≠ [] → v.expectedClusters size ≠ 0) ∧ a.overwritePercentage ≤ 100

/-- The count holds up to the sizes whose rounding up stays within 32 bits. -/
theorem countHolds_iff (v : Volume) (size : UInt32) (hpos : 1 ≤ size) :
    CountHolds v size ↔ size.toNat + v.bytesPerCluster.toNat ≤ 2 ^ 32 := by
  have hposn : 0 < size.toNat := UInt32.le_iff_toNat_le.mp hpos
  have hstart : (startStatus v size).expectedClusters.toNat = (v.expectedClusters size).toNat :=
    UInt32.toNat_toUInt64 _
  constructor
  · intro h
    by_contra hover
    have hone := h.at_least_one
    rw [hstart, expectedClusters_wrapped, if_neg hover] at hone
    exact absurd hone (by decide)
  · intro hfit
    have hcount := expectedClusters_toNat hfit
    have hroom := clustersFor_pos (v := v) hposn
    refine ⟨hstart.trans hcount, hcount, ?_, ?_, ?_⟩
    · rw [hstart, hcount]; exact hroom
    · rw [hstart, hcount]; exact le_clustersFor_mul
    · intro startCluster st
      obtain ⟨a, st', hok, hlen, hpercent⟩ := analyzeClusterOverwrites_counted v size startCluster st
      refine ⟨a, st', hok, ?_, ?_⟩
      · intro _ hzero
        rw [hzero] at hcount
        exact absurd hcount (Nat.ne_of_lt hroom)
      · rw [hpercent, hcount]
        exact percentage_le hlen

theorem countHolds_small : CountHolds (smallVolume []) 513 ↔ (513 : UInt32).toNat + 512 ≤ 2 ^ 32 :=
  countHolds_iff (smallVolume []) 513 (by decide)

/-- A file of the largest size gets no cluster at all. -/
theorem count_wraps : ¬ ∀ (v : Volume) (size : UInt32), 1 ≤ size → CountHolds v size := by
  intro h
  have hone := (h (smallVolume []) 0xFFFFFFFF (by decide)).at_least_one
  exact absurd hone (by decide)

end DataRecovery.FAT32
