import DataRecovery.AnalyzedChain
import DataRecovery.ChainPattern
import DataRecovery.ChainWalk
import DataRecovery.FAT32.ContiguousVerdict

/-!
# Repetition in a chain

The pattern analysis looks for a cluster that is repeated at once, and the chain loop never
takes the same number twice in a row. A table cycle of two clusters or more repeats the
clusters all the same, and is not reported as repetition.
-/

namespace DataRecovery

section
variable {getNextCluster : UInt32 → UInt32}

theorem successor_ne (c : UInt32) : successor getNextCluster c ≠ c := by
  unfold successor
  split
  · rename_i h
    exact h.2.2
  · intro h
    have hone : c + 1 - c = 0 := by rw [h, UInt32.sub_self]
    rw [UInt32.add_comm, UInt32.add_sub_cancel] at hone
    exact absurd hone (by decide)

theorem chainFrom_repeatCount (room : Nat) (c : UInt32) : repeatCount (chainFrom getNextCluster room c) = 0 := by
  refine repeatCount_of_isChain ((chainFrom_isChain getNextCluster room c).imp ?_)
  rintro x y rfl
  exact (successor_ne x).symm

variable (getNextCluster) in
def NeverReturns (room : Nat) (start : UInt32) : Prop :=
  ∀ i j, i < j → j < room → (∀ k ≤ j, BelowMarkers ((successor getNextCluster)^[k] start)) →
    (successor getNextCluster)^[i] start ≠ (successor getNextCluster)^[j] start

theorem nodup_chainFrom_iff {room : Nat} {start : UInt32} :
    (chainFrom getNextCluster room start).Nodup ↔ NeverReturns getNextCluster room start := by
  rw [chainFrom_eq_walk, show guessNext getNextCluster = successor getNextCluster from funext (guessNext_eq _),
    nodup_walkWhile_iff]
  rfl

end

theorem patternOf_hasRepeatedClusters {clusters : List UInt32} (hlong : 10 ≤ clusters.length)
    (h : repeatCount clusters = 0) : (patternOf clusters).hasRepeatedClusters = false := by
  unfold patternOf
  rw [analyzeClusterPattern_long hlong]
  unfold RecoveryStatus.assessed RecoveryStatus.addCounts
  rw [h]
  rfl

namespace FAT32

section
variable (v : Volume) (config : Config) (startCluster size : UInt32) (outputPath : Path) (isExtensionPredicted : Bool)
  (st : AnalysisState)

def RepetitionReported : Prop :=
  let result := validateClusterChain v config (startStatus v size) startCluster size outputPath isExtensionPredicted st
  ∃ status st', result.2 = .ok (status, st') ∧
    (status.hasRepeatedClusters = true ↔ ∃ cluster, 1 < result.1.count cluster)

variable {v config startCluster size outputPath isExtensionPredicted st}

/-- The flag is never set. -/
theorem validateClusterChain_hasRepeatedClusters (hanalyze : config.analyze = true)
    (hlong : 10 ≤ (validateClusterChain v config (startStatus v size) startCluster size outputPath isExtensionPredicted
      st).1.length) :
    ∃ status st', (validateClusterChain v config (startStatus v size) startCluster size outputPath isExtensionPredicted
        st).2 = .ok (status, st') ∧ status.hasRepeatedClusters = false := by
  obtain ⟨hasOverwrite, st', -, hok⟩ := @validateClusterChain_of_returns (v.chainContext config) startCluster
    (v.expectedClusters size).toUInt64 size.toUInt64 outputPath.filename isExtensionPredicted hanalyze
    (fun _ => .inl (v.offsets_fit size)) (v.expectedClusters size).toUInt64 st (analysisReturns v startCluster size)
  refine ⟨_, st', hok, ?_⟩
  rw [validateClusterChain_chain, ← UInt32.toNat_toUInt64] at hlong
  exact patternOf_hasRepeatedClusters hlong (chainFrom_repeatCount _ _)

theorem repetitionReported_iff_nodup (hanalyze : config.analyze = true)
    (hlong : 10 ≤ (validateClusterChain v config (startStatus v size) startCluster size outputPath isExtensionPredicted
      st).1.length) :
    RepetitionReported v config startCluster size outputPath isExtensionPredicted st ↔
      (chainFrom v.getNextCluster (v.expectedClusters size).toNat startCluster).Nodup := by
  obtain ⟨status, st', hok, hflag⟩ := validateClusterChain_hasRepeatedClusters hanalyze hlong
  unfold RepetitionReported
  dsimp only
  rw [hok, validateClusterChain_chain, List.nodup_iff_count_le_one]
  constructor
  · rintro ⟨_, _, heq, hiff⟩ cluster
    cases heq
    rw [hflag] at hiff
    exact Nat.not_lt.mp fun hcount => Bool.false_ne_true (hiff.mpr ⟨cluster, hcount⟩)
  · intro hcounts
    refine ⟨status, st', rfl, ?_⟩
    rw [hflag]
    exact iff_of_false Bool.false_ne_true fun ⟨cluster, hcount⟩ => Nat.not_lt.mpr (hcounts cluster) hcount

end

/-- Repetition is reported exactly when there is none: the table does not lead back to a
cluster that the chain has been at. -/
theorem repetition_reported_iff (v : Volume) (config : Config) (startCluster size : UInt32) (outputPath : Path)
    (isExtensionPredicted : Bool) (st : AnalysisState) (hanalyze : config.analyze = true)
    (hlong : 10 ≤ (validateClusterChain v config (startStatus v size) startCluster size outputPath isExtensionPredicted
      st).1.length) :
    RepetitionReported v config startCluster size outputPath isExtensionPredicted st ↔
      NeverReturns v.getNextCluster (v.expectedClusters size).toNat startCluster :=
  (repetitionReported_iff_nodup hanalyze hlong).trans nodup_chainFrom_iff

theorem repetition_reported_small :
    RepetitionReported (smallVolume []) { analyze := true } 4 5120 ⟨[], wide "A"⟩ false {} ↔
      NeverReturns (smallVolume []).getNextCluster ((smallVolume []).expectedClusters 5120).toNat 4 :=
  repetition_reported_iff (smallVolume []) { analyze := true } 4 5120 ⟨[], wide "A"⟩ false {} rfl
    (by rw [validateClusterChain_chain]; decide +kernel)

def cycled : Volume := smallVolume [(1, List.replicate 16 0 ++ [5, 0, 0, 0, 4, 0, 0, 0])]

theorem cycle_unreported :
    ¬ ∀ (v : Volume) (config : Config) (startCluster size : UInt32) (outputPath : Path) (isExtensionPredicted : Bool)
      (st : AnalysisState), config.analyze = true →
        10 ≤ (validateClusterChain v config (startStatus v size) startCluster size outputPath isExtensionPredicted
          st).1.length →
        RepetitionReported v config startCluster size outputPath isExtensionPredicted st := by
  intro h
  have hlong : 10 ≤ (validateClusterChain cycled { analyze := true } (startStatus cycled 5120) 4 5120 ⟨[], wide "A"⟩ false
      {}).1.length := by
    rw [validateClusterChain_chain]
    decide +kernel
  have hnodup := (repetitionReported_iff_nodup rfl hlong).mp (h cycled { analyze := true } 4 5120 _ _ _ rfl hlong)
  exact absurd hnodup (by decide +kernel)

end FAT32

end DataRecovery
