import DataRecovery.Verdict

/-!
# The statistics of the chain pattern

Over exact rationals the counts, the score and the flags of a chain are right as long as its
anomalies fit the counters. The chain is not bounded by that.
-/

namespace DataRecovery

/-! ## The statistics -/

structure StatisticsExact (clusters : List UInt32) (before after : RecoveryStatus) : Prop where
  repeatedClusters : after.repeatedClusters.toNat = repeatCount clusters
  backJumps : after.backJumps.toNat = backJumpCount clusters
  largeGaps : after.largeGaps.toNat = largeGapCount clusters
  disjoint : ∀ p ∈ pairs clusters, (isRepeat p).toNat + (isBackJump p).toNat + (isLargeGap p).toNat ≤ 1
  sum_le : anomalyCount clusters ≤ clusters.length - 1
  uncapped : (anomalyCount clusters : Rat) / (clusters.length - 1 : Nat) ≤ 1
  fragmentation : after.fragmentation = anomalyCount clusters / (clusters.length - 1 : Nat)
  hasLargeGaps : after.hasLargeGaps = true ↔ clusters.length - 1 < 10 * largeGapCount clusters
  hasBackJumps : after.hasBackJumps = true ↔ clusters.length - 1 < 10 * backJumpCount clusters
  hasFragmentedClusters : after.hasFragmentedClusters = true ↔ clusters.length - 1 < 4 * anomalyCount clusters
  isCorrupted : after.isCorrupted = true ↔
    before.isCorrupted = true ∨ after.hasLargeGaps = true ∨ after.hasBackJumps = true ∨
      after.hasFragmentedClusters = true ∨ 0 < repeatCount clusters

def PatternExact (clusters : List UInt32) (before after : RecoveryStatus) : Prop :=
  (clusters.length < 10 → after = before) ∧ (10 ≤ clusters.length → StatisticsExact clusters before after)

/-! ## Thresholds -/

section
variable {n k : Nat}

theorem suspicious_iff : (n : Rat) * SUSPICIOUS_PATTERN_THRESHOLD < k ↔ n < 10 * k := by
  unfold SUSPICIOUS_PATTERN_THRESHOLD
  rw [mul_one_div, div_lt_iff₀ (by norm_num), ← Nat.cast_lt (α := Rat), Nat.cast_mul, mul_comm]
  rfl

theorem severe_iff (hpos : 0 < n) : SEVERE_PATTERN_THRESHOLD < (k : Rat) / n ↔ n < 4 * k := by
  have hposq : (0 : Rat) < n := Nat.cast_pos.mpr hpos
  unfold SEVERE_PATTERN_THRESHOLD
  rw [div_lt_div_iff₀ (by norm_num) hposq, one_mul, ← Nat.cast_lt (α := Rat), Nat.cast_mul, mul_comm]
  rfl

theorem score_le_one (h : k ≤ n) : (k : Rat) / n ≤ 1 := div_le_one_of_le₀ (Nat.cast_le.mpr h) (Nat.cast_nonneg n)

end

/-! ## The width of the counters -/

theorem ofNat_toNat_of_lt {k n : Nat} (hk : k ≤ n) (hn : n < 2 ^ 32) : (UInt32.ofNat k).toNat = k :=
  UInt32.toNat_ofNat_of_lt' (Nat.lt_of_le_of_lt hk hn)

section
variable {clusters : List UInt32} {status : RecoveryStatus}

theorem statisticsExact_of_fits (hzero : status.counts = (0, 0, 0)) (hlong : 10 ≤ clusters.length)
    (hfits : anomalyCount clusters < 2 ^ 32) :
    StatisticsExact clusters status (analyzeClusterPattern clusters status) := by
  simp only [RecoveryStatus.counts, Prod.mk.injEq] at hzero
  obtain ⟨hrepeats, hgaps, hjumps⟩ := hzero
  have hpos : 0 < clusters.length - 1 := by omega
  have hle := anomalyCount_le clusters
  have hsum : anomalyCount clusters = repeatCount clusters + backJumpCount clusters + largeGapCount clusters := rfl
  have htotal : (UInt32.ofNat (anomalyCount clusters)).toNat = anomalyCount clusters :=
    ofNat_toNat_of_lt (Nat.le_refl _) hfits
  have hrepeat : (0 + UInt32.ofNat (repeatCount clusters)).toNat = repeatCount clusters := by
    rw [UInt32.zero_add, ofNat_toNat_of_lt (by omega) hfits]
  have hjump : (0 + UInt32.ofNat (backJumpCount clusters)).toNat = backJumpCount clusters := by
    rw [UInt32.zero_add, ofNat_toNat_of_lt (by omega) hfits]
  have hgap : (0 + UInt32.ofNat (largeGapCount clusters)).toNat = largeGapCount clusters := by
    rw [UInt32.zero_add, ofNat_toNat_of_lt (by omega) hfits]
  have hscore : min 1 ((anomalyCount clusters : Rat) / (clusters.length - 1 : Nat)) =
      anomalyCount clusters / (clusters.length - 1 : Nat) := min_eq_right (score_le_one hle)
  rw [analyzeClusterPattern_long hlong]
  unfold RecoveryStatus.assessed RecoveryStatus.addCounts
  rw [hrepeats, hgaps, hjumps]
  dsimp only
  rw [htotal, hjump, hgap, hscore]
  refine ⟨hrepeat, hjump, hgap, fun p _ => classes_disjoint p, hle, score_le_one hle, rfl, ?_, ?_, ?_, ?_⟩
  · rw [decide_eq_true_eq, suspicious_iff]
  · rw [decide_eq_true_eq, suspicious_iff]
  · rw [decide_eq_true_eq, severe_iff hpos]
  · have hpositive : 0 < 0 + UInt32.ofNat (repeatCount clusters) ↔ 0 < repeatCount clusters := by
      rw [UInt32.lt_iff_toNat_lt, hrepeat]
      rfl
    dsimp only
    simp only [Bool.or_eq_true, decide_eq_true_eq, hpositive]
    tauto

/-- The score shows whether the counters have wrapped. -/
theorem fits_of_statisticsExact (hlong : 10 ≤ clusters.length)
    (h : StatisticsExact clusters status (analyzeClusterPattern clusters status)) :
    anomalyCount clusters < 2 ^ 32 := by
  by_contra hwraps
  have hposq : (0 : Rat) < (clusters.length - 1 : Nat) := Nat.cast_pos.mpr (by omega)
  have hless : (UInt32.ofNat (anomalyCount clusters)).toNat < anomalyCount clusters :=
    Nat.lt_of_lt_of_le (UInt32.toNat_lt _) (Nat.not_lt.mp hwraps)
  have hscore : min 1 (((UInt32.ofNat (anomalyCount clusters)).toNat : Rat) / (clusters.length - 1 : Nat)) =
      anomalyCount clusters / (clusters.length - 1 : Nat) := by
    rw [← h.fragmentation, analyzeClusterPattern_long hlong]
    rfl
  rw [min_eq_right (score_le_one (by have := anomalyCount_le clusters; omega))] at hscore
  have hlt := div_lt_div_of_pos_right (Nat.cast_lt (α := Rat).mpr hless) hposq
  exact absurd hscore (ne_of_lt hlt)

end

/-- The statistics are exact as long as the counters are wide enough. -/
theorem statistics_exact_iff (clusters : List UInt32) {status : RecoveryStatus} (hzero : status.counts = (0, 0, 0)) :
    PatternExact clusters status (analyzeClusterPattern clusters status) ↔
      clusters.length < 10 ∨ anomalyCount clusters < 2 ^ 32 := by
  constructor
  · rintro ⟨-, hexact⟩
    rcases Nat.lt_or_ge clusters.length 10 with hshort | hlong
    · exact .inl hshort
    · exact .inr (fits_of_statisticsExact hlong (hexact hlong))
  · intro hfits
    constructor
    · exact fun hshort => analyzeClusterPattern_short hshort status
    · intro hlong
      exact statisticsExact_of_fits hzero hlong (hfits.resolve_left (Nat.not_lt.mpr hlong))

theorem statistics_exact_small :
    PatternExact [4, 5, 6, 7, 7, 3, 4, 2000, 2001, 2002] {}
        (analyzeClusterPattern [4, 5, 6, 7, 7, 3, 4, 2000, 2001, 2002] {}) ↔
      ([4, 5, 6, 7, 7, 3, 4, 2000, 2001, 2002] : List UInt32).length < 10 ∨
        anomalyCount [4, 5, 6, 7, 7, 3, 4, 2000, 2001, 2002] < 2 ^ 32 :=
  statistics_exact_iff _ rfl

def turns : Nat → List UInt32
  | 0 => []
  | n + 1 => 5 :: 3 :: turns n

theorem length_turns : ∀ n : Nat, (turns n).length = 2 * n
  | 0 => rfl
  | n + 1 => by
    rw [turns, List.length_cons, List.length_cons, length_turns n]
    omega

theorem backJumpCount_turns : ∀ n : Nat, backJumpCount (turns n) = n
  | 0 => rfl
  | 1 => rfl
  | n + 2 => by
    have ih := backJumpCount_turns (n + 1)
    rw [turns, backJumpCount_cons, turns, backJumpCount_cons, ← turns, ih]
    rfl

/-- A chain with as many jumps back as the counter has values. -/
theorem back_jumps_wrap :
    ¬ ∀ (clusters : List UInt32) (status : RecoveryStatus), status.counts = (0, 0, 0) →
      PatternExact clusters status (analyzeClusterPattern clusters status) := by
  intro h
  obtain ⟨-, hexact⟩ := h (turns (2 ^ 32)) {} rfl
  have hback := (hexact (by rw [length_turns]; omega)).backJumps
  rw [backJumpCount_turns] at hback
  exact absurd hback (Nat.ne_of_lt (UInt32.toNat_lt _))

end DataRecovery
