import DataRecovery.Analysis

/-!
# The pairs of a chain

The pattern analysis puts every pair of neighbours into at most one of three classes, counts
them and draws its flags from the counts. The counters are 32 bits wide.
-/

namespace DataRecovery

/-! ## Classes of pairs -/

def pairs (clusters : List UInt32) : List (UInt32 × UInt32) := clusters.zip clusters.tail

def isRepeat (p : UInt32 × UInt32) : Bool := p.2 = p.1

def isBackJump (p : UInt32 × UInt32) : Bool := p.2 < p.1

def isLargeGap (p : UInt32 × UInt32) : Bool := (1000 : Int) ≤ p.2.toNat - p.1.toNat - 1

section
variable (clusters : List UInt32)

def repeatCount : Nat := (pairs clusters).countP isRepeat

def backJumpCount : Nat := (pairs clusters).countP isBackJump

def largeGapCount : Nat := (pairs clusters).countP isLargeGap

def anomalyCount : Nat := repeatCount clusters + backJumpCount clusters + largeGapCount clusters

end

section
variable {a b : UInt32}

theorem isLargeGap_of_not_lt (h : ¬ a < b) : isLargeGap (a, b) = false := by
  have hle := UInt32.le_iff_toNat_le.mp (UInt32.not_lt.mp h)
  unfold isLargeGap
  rw [decide_eq_false_iff_not]
  dsimp only
  omega

theorem isLargeGap_of_lt (h : a < b) : isLargeGap (a, b) = decide (LARGE_GAP_THRESHOLD ≤ b - a - 1) := by
  have hlt := UInt32.lt_iff_toNat_lt.mp h
  have hone : (1 : UInt32).toNat = 1 := rfl
  have hgap : (b - a).toNat = b.toNat - a.toNat := UInt32.toNat_sub_of_le _ _ (UInt32.le_of_lt h)
  have hle : (1 : UInt32) ≤ b - a := UInt32.le_iff_toNat_le.mpr (by rw [hgap, hone]; omega)
  have hthreshold : LARGE_GAP_THRESHOLD.toNat = 1000 := rfl
  unfold isLargeGap
  rw [decide_eq_decide, UInt32.le_iff_toNat_le, UInt32.toNat_sub_of_le _ _ hle, hgap, hone, hthreshold]
  dsimp only
  omega

theorem classes_of_eq (a : UInt32) : isRepeat (a, a) = true ∧ isBackJump (a, a) = false ∧ isLargeGap (a, a) = false :=
  ⟨decide_eq_true rfl, decide_eq_false (UInt32.lt_irrefl a), isLargeGap_of_not_lt (UInt32.lt_irrefl a)⟩

theorem classes_of_lt (h : a < b) : isRepeat (a, b) = false ∧ isBackJump (a, b) = false ∧
    isLargeGap (a, b) = decide (LARGE_GAP_THRESHOLD ≤ b - a - 1) :=
  ⟨decide_eq_false (UInt32.ne_of_lt h).symm, decide_eq_false (UInt32.lt_asymm h), isLargeGap_of_lt h⟩

theorem classes_of_gt (h : b < a) : isRepeat (a, b) = false ∧ isBackJump (a, b) = true ∧ isLargeGap (a, b) = false :=
  ⟨decide_eq_false (UInt32.ne_of_lt h), decide_eq_true h, isLargeGap_of_not_lt (UInt32.lt_asymm h)⟩

end

theorem eq_or_lt_or_gt (a b : UInt32) : b = a ∨ a < b ∨ b < a := by
  rcases Nat.lt_trichotomy a.toNat b.toNat with h | h | h
  · exact .inr (.inl (UInt32.lt_iff_toNat_lt.mpr h))
  · exact .inl (UInt32.toNat_inj.mp h).symm
  · exact .inr (.inr (UInt32.lt_iff_toNat_lt.mpr h))

theorem classes_disjoint (p : UInt32 × UInt32) :
    (isRepeat p).toNat + (isBackJump p).toNat + (isLargeGap p).toNat ≤ 1 := by
  obtain ⟨a, b⟩ := p
  rcases eq_or_lt_or_gt a b with rfl | h | h
  · obtain ⟨hrepeat, hback, hgap⟩ := classes_of_eq b
    rw [hrepeat, hback, hgap]
    exact Nat.le_refl 1
  · obtain ⟨hrepeat, hback, -⟩ := classes_of_lt h
    rw [hrepeat, hback]
    exact Nat.add_le_add (Nat.le_refl 0) (Bool.toNat_le _)
  · obtain ⟨hrepeat, hback, hgap⟩ := classes_of_gt h
    rw [hrepeat, hback, hgap]
    exact Nat.le_refl 1

theorem countP_cons_toNat {α : Type} (p : α → Bool) (x : α) (l : List α) :
    (x :: l).countP p = l.countP p + (p x).toNat := by
  rw [List.countP_cons]
  cases p x with
  | true => rfl
  | false => rfl

theorem countP_add_le_length {α : Type} {p q r : α → Bool} (h : ∀ x, (p x).toNat + (q x).toNat + (r x).toNat ≤ 1) :
    ∀ l : List α, l.countP p + l.countP q + l.countP r ≤ l.length
  | [] => Nat.le_refl 0
  | x :: l => by
    have ih := countP_add_le_length h l
    have hx := h x
    rw [countP_cons_toNat p, countP_cons_toNat q, countP_cons_toNat r, List.length_cons]
    omega

theorem length_pairs (clusters : List UInt32) : (pairs clusters).length = clusters.length - 1 := by
  unfold pairs
  rw [List.length_zip, List.length_tail]
  exact Nat.min_eq_right (Nat.sub_le _ _)

theorem anomalyCount_le (clusters : List UInt32) : anomalyCount clusters ≤ clusters.length - 1 := by
  rw [← length_pairs]
  exact countP_add_le_length classes_disjoint _

/-! ## The loop -/

section
variable (a b : UInt32) (rest : List UInt32)

theorem repeatCount_cons : repeatCount (a :: b :: rest) = repeatCount (b :: rest) + (isRepeat (a, b)).toNat :=
  countP_cons_toNat isRepeat _ _

theorem backJumpCount_cons : backJumpCount (a :: b :: rest) = backJumpCount (b :: rest) + (isBackJump (a, b)).toNat :=
  countP_cons_toNat isBackJump _ _

theorem largeGapCount_cons : largeGapCount (a :: b :: rest) = largeGapCount (b :: rest) + (isLargeGap (a, b)).toNat :=
  countP_cons_toNat isLargeGap _ _

end

theorem repeatCount_of_isChain : ∀ {clusters : List UInt32}, clusters.IsChain (· ≠ ·) → repeatCount clusters = 0
  | [], _ => rfl
  | [_], _ => rfl
  | a :: b :: rest, h => by
    obtain ⟨hne, hrest⟩ := List.isChain_cons_cons.mp h
    have hnot : isRepeat (a, b) = false := decide_eq_false hne.symm
    rw [repeatCount_cons, hnot, repeatCount_of_isChain hrest]
    rfl

namespace RecoveryStatus
variable (status : RecoveryStatus)

def addPair (p : UInt32 × UInt32) : RecoveryStatus :=
  { status with
    repeatedClusters := status.repeatedClusters + UInt32.ofNat (isRepeat p).toNat
    backJumps := status.backJumps + UInt32.ofNat (isBackJump p).toNat
    largeGaps := status.largeGaps + UInt32.ofNat (isLargeGap p).toNat }

def addCounts (clusters : List UInt32) : RecoveryStatus :=
  { status with
    repeatedClusters := status.repeatedClusters + UInt32.ofNat (repeatCount clusters)
    backJumps := status.backJumps + UInt32.ofNat (backJumpCount clusters)
    largeGaps := status.largeGaps + UInt32.ofNat (largeGapCount clusters) }

end RecoveryStatus

theorem add_ofNat_add (n : UInt32) (j k : Nat) : n + UInt32.ofNat j + UInt32.ofNat k = n + UInt32.ofNat (k + j) := by
  rw [UInt32.ofNat_add, UInt32.add_assoc, UInt32.add_comm (UInt32.ofNat j)]

theorem addCounts_cons (status : RecoveryStatus) (a b : UInt32) (rest : List UInt32) :
    (status.addPair (a, b)).addCounts (b :: rest) = status.addCounts (a :: b :: rest) := by
  unfold RecoveryStatus.addCounts RecoveryStatus.addPair
  rw [repeatCount_cons, backJumpCount_cons, largeGapCount_cons]
  simp only [add_ofNat_add]

theorem analyzePairs_cons (a b : UInt32) (rest : List UInt32) (status : RecoveryStatus) (n : UInt32) :
    analyzePairs (a :: b :: rest) status n = analyzePairs (b :: rest) (status.addPair (a, b))
      (n + UInt32.ofNat ((isRepeat (a, b)).toNat + (isBackJump (a, b)).toNat + (isLargeGap (a, b)).toNat)) := by
  have hzero : UInt32.ofNat 0 = 0 := rfl
  rw [analyzePairs]
  unfold RecoveryStatus.addPair
  rcases eq_or_lt_or_gt a b with rfl | h | h
  · obtain ⟨hrepeat, hback, hgap⟩ := classes_of_eq b
    rw [if_pos rfl, hrepeat, hback, hgap]
    simp only [Bool.toNat_true, Bool.toNat_false, hzero, UInt32.add_zero]
    rfl
  · obtain ⟨hrepeat, hback, hgap⟩ := classes_of_lt h
    rw [if_neg (UInt32.ne_of_lt h).symm, if_pos h, hrepeat, hback, hgap]
    dsimp only
    split
    · rename_i hlarge
      rw [decide_eq_true hlarge]
      simp only [Bool.toNat_true, Bool.toNat_false, hzero, UInt32.add_zero]
      rfl
    · rename_i hsmall
      rw [decide_eq_false hsmall]
      simp only [Bool.toNat_false, hzero, UInt32.add_zero]
  · obtain ⟨hrepeat, hback, hgap⟩ := classes_of_gt h
    rw [if_neg (UInt32.ne_of_lt h), if_neg (UInt32.lt_asymm h), hrepeat, hback, hgap]
    simp only [Bool.toNat_true, Bool.toNat_false, hzero, UInt32.add_zero]
    rfl

theorem analyzePairs_eq : ∀ (clusters : List UInt32) (status : RecoveryStatus) (n : UInt32),
    analyzePairs clusters status n = (status.addCounts clusters, n + UInt32.ofNat (anomalyCount clusters))
  | [], status, n => by
    simp [analyzePairs, RecoveryStatus.addCounts, anomalyCount, repeatCount, backJumpCount, largeGapCount, pairs]
  | [a], status, n => by
    simp [analyzePairs, RecoveryStatus.addCounts, anomalyCount, repeatCount, backJumpCount, largeGapCount, pairs]
  | a :: b :: rest, status, n => by
    have hsum : anomalyCount (a :: b :: rest) = anomalyCount (b :: rest) +
        ((isRepeat (a, b)).toNat + (isBackJump (a, b)).toNat + (isLargeGap (a, b)).toNat) := by
      unfold anomalyCount
      rw [repeatCount_cons, backJumpCount_cons, largeGapCount_cons]
      omega
    rw [analyzePairs_cons, analyzePairs_eq (b :: rest), addCounts_cons, add_ofNat_add, hsum]

/-! ## A chain that is long enough -/

/-- The flags a status ends with, when the score is drawn from `total` anomalies. -/
def RecoveryStatus.assessed (status : RecoveryStatus) (clusters : List UInt32) (total : UInt32) : RecoveryStatus :=
  let totalPairs : Rat := (clusters.length - 1 : Nat)
  let status := { status with
    fragmentation := min 1 (total.toNat / totalPairs)
    hasLargeGaps := decide (totalPairs * SUSPICIOUS_PATTERN_THRESHOLD < status.largeGaps.toNat)
    hasBackJumps := decide (totalPairs * SUSPICIOUS_PATTERN_THRESHOLD < status.backJumps.toNat)
    hasFragmentedClusters := decide (SEVERE_PATTERN_THRESHOLD < min 1 (total.toNat / totalPairs))
    hasRepeatedClusters := decide (0 < status.repeatedClusters) }
  { status with
    isCorrupted := status.isCorrupted || (status.hasBackJumps || status.hasFragmentedClusters ||
      status.hasLargeGaps || status.hasRepeatedClusters) }

theorem analyzeClusterPattern_short {clusters : List UInt32} (hshort : clusters.length < 10) (status : RecoveryStatus) :
    analyzeClusterPattern clusters status = status := by
  unfold analyzeClusterPattern
  exact if_pos hshort

theorem analyzeClusterPattern_long {clusters : List UInt32} (hlong : 10 ≤ clusters.length) (status : RecoveryStatus) :
    analyzeClusterPattern clusters status =
      (status.addCounts clusters).assessed clusters (UInt32.ofNat (anomalyCount clusters)) := by
  have hpairs : ((clusters.length - 1 : Nat) : Rat) = clusters.length - 1 := Nat.cast_pred (by omega)
  have henough : ¬ clusters.length < MINIMUM_CLUSTERS_FOR_ANALYSIS := Nat.not_lt.mpr hlong
  unfold analyzeClusterPattern
  rw [if_neg henough, analyzePairs_eq, UInt32.zero_add]
  unfold RecoveryStatus.assessed
  rw [hpairs]
  dsimp only
  split
  · rename_i hflags
    rw [hflags, Bool.or_true]
  · rename_i hflags
    rw [Bool.not_eq_true] at hflags
    rw [hflags, Bool.or_false]

theorem analyzeClusterPattern_progress (clusters : List UInt32) (status : RecoveryStatus) :
    (analyzeClusterPattern clusters status).progress = status.progress := by
  by_cases hlong : 10 ≤ clusters.length
  · rw [analyzeClusterPattern_long hlong]
    rfl
  · rw [analyzeClusterPattern_short (Nat.not_le.mp hlong)]

end DataRecovery
