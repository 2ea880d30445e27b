import DataRecovery.Device
import Mathlib.Algebra.Order.Ring.Rat

/-!
# Corruption analysis

The recovery status, the history of analysed clusters and the analyses that fill
them, which FAT32 and exFAT have in common. Floating-point scores are exact
rationals here.
-/

namespace DataRecovery

structure RecoveryStatus where
  isCorrupted : Bool := false
  hasFragmentedClusters : Bool := false
  fragmentation : Rat := 0
  hasBackJumps : Bool := false
  backJumps : UInt32 := 0
  hasRepeatedClusters : Bool := false
  repeatedClusters : UInt32 := 0
  hasLargeGaps : Bool := false
  largeGaps : UInt32 := 0
  hasOverwrittenClusters : Bool := false
  hasInvalidFileName : Bool := false
  hasInvalidExtension : Bool := false
  expectedClusters : UInt64 := 0
  recoveredClusters : UInt64 := 0
  recoveredBytes : UInt64 := 0
  problematicClusters : List UInt64 := []

def RecoveryStatus.progress (status : RecoveryStatus) : UInt64 × UInt64 × UInt64 :=
  (status.expectedClusters, status.recoveredClusters, status.recoveredBytes)

/-! ## Cluster history -/

structure ClusterUsage where
  fileId : UInt32
  isDeleted : Bool
  writeOffset : UInt64
  deriving DecidableEq

abbrev ClusterHistory := UInt32 → List ClusterUsage

namespace ClusterHistory

def recordClusterUsage (history : ClusterHistory) (cluster fileId : UInt32) (writeOffset : UInt64) :
    ClusterHistory :=
  fun c => if c = cluster then history c ++ [⟨fileId, true, writeOffset⟩] else history c

def overlapsIn : List ClusterUsage → List (ClusterUsage × ClusterUsage)
  | [] => []
  | u :: us =>
    (us.filter fun w => u.fileId != w.fileId && u.isDeleted && w.isDeleted).map (fun w => (u, w)) ++ overlapsIn us

def findOverlappingUsage (history : ClusterHistory) (cluster : UInt32) : List (ClusterUsage × ClusterUsage) :=
  overlapsIn (history cluster)

end ClusterHistory

structure AnalysisState where
  clusterHistory : ClusterHistory := fun _ => []
  nextFileId : UInt32 := 0

/-! ## Overwrites -/

structure OverwriteAnalysis where
  hasOverwrite : Bool := false
  overwrittenClusters : List UInt32 := []
  overwrittenBy : UInt32 → List UInt32 := fun _ => []
  overwritePercentage : Rat := 0

def noteOverlaps (cluster : UInt32) (overlaps : List (ClusterUsage × ClusterUsage)) (a : OverwriteAnalysis) :
    OverwriteAnalysis :=
  if overlaps = [] then a
  else
    { a with
      hasOverwrite := true
      overwrittenClusters := a.overwrittenClusters ++ [cluster]
      overwrittenBy := fun c =>
        if c = cluster then a.overwrittenBy c ++ overlaps.map (fun o => o.2.fileId) else a.overwrittenBy c }

/-- The bound of the chain loops: cluster numbers from here on are markers. -/
def FIRST_MARKER : UInt32 := 0x0FFFFFF8

section
variable (getNextCluster : UInt32 → UInt32) (bytesPerCluster : UInt32) (expectedSize : UInt64) (fileId : UInt32)

/-- The loop of `analyzeClusterOverwrites`; `none` when it is still running after
the given number of rounds. -/
def overwriteLoop : Nat → UInt32 → UInt64 → ClusterHistory → OverwriteAnalysis →
    Option (ClusterHistory × OverwriteAnalysis)
  | 0, _, _, _, _ => none
  | rounds + 1, currentCluster, currentOffset, history, a =>
    if currentOffset < expectedSize && 2 ≤ currentCluster && currentCluster < FIRST_MARKER then
      overwriteLoop rounds (getNextCluster currentCluster) (currentOffset + bytesPerCluster.toUInt64)
        (history.recordClusterUsage currentCluster fileId currentOffset)
        (noteOverlaps currentCluster (history.findOverlappingUsage currentCluster) a)
    else some (history, a)

end

/-- After this many rounds the offsets and the clusters have both run through their
cycles, so a loop that is still running never ends. -/
def offsetRounds : Nat := 2 ^ 64

def analyzeClusterOverwrites (getNextCluster : UInt32 → UInt32) (bytesPerCluster : UInt32)
    (expectedClusters : UInt64) (startCluster : UInt32) (expectedSize : UInt64) (st : AnalysisState) :
    Except Abort (OverwriteAnalysis × AnalysisState) :=
  -- the cluster count divides by it
  if bytesPerCluster = 0 then .error .undefined
  else match overwriteLoop getNextCluster bytesPerCluster expectedSize st.nextFileId offsetRounds startCluster 0
      st.clusterHistory {} with
  | none => .error .divergence
  | some (history, a) =>
    let percentage : Rat := a.overwrittenClusters.length / expectedClusters.toNat * 100
    let a := if a.overwrittenClusters ≠ [] then { a with overwritePercentage := percentage } else a
    .ok (a, { clusterHistory := history, nextFileId := st.nextFileId + 1 })

theorem overwriteLoop_isSome (getNextCluster : UInt32 → UInt32) {bytesPerCluster : UInt32} {expectedSize : UInt64}
    (fileId : UInt32) (hpos : 0 < bytesPerCluster.toNat)
    (hfit : expectedSize.toNat + bytesPerCluster.toNat ≤ 2 ^ 64) :
    ∀ (rounds : Nat) (c : UInt32) (offset : UInt64) (history : ClusterHistory) (a : OverwriteAnalysis),
      expectedSize.toNat - offset.toNat < rounds →
        (overwriteLoop getNextCluster bytesPerCluster expectedSize fileId rounds c offset history a).isSome
  | 0, _, _, _, _, h => absurd h (Nat.not_lt_zero _)
  | rounds + 1, c, offset, history, a, h => by
    unfold overwriteLoop
    split
    · rename_i hc
      simp only [Bool.and_eq_true, decide_eq_true_eq] at hc
      have hlt := UInt64.lt_iff_toNat_lt.mp hc.1.1
      apply overwriteLoop_isSome getNextCluster fileId hpos hfit
      rw [UInt64.toNat_add, UInt32.toNat_toUInt64, Nat.mod_eq_of_lt (by omega)]
      omega
    · rfl

/-- The loop ends when the last offset it adds up does not wrap. -/
theorem analyzeClusterOverwrites_ok (getNextCluster : UInt32 → UInt32) {bytesPerCluster : UInt32}
    {expectedSize : UInt64} (hpos : 0 < bytesPerCluster) (hfit : expectedSize.toNat + bytesPerCluster.toNat ≤ 2 ^ 64)
    (expectedClusters : UInt64) (startCluster : UInt32) (st : AnalysisState) :
    ∃ out, analyzeClusterOverwrites getNextCluster bytesPerCluster expectedClusters startCluster expectedSize st =
      .ok out := by
  have hposn : 0 < bytesPerCluster.toNat := UInt32.lt_iff_toNat_lt.mp hpos
  have hne : bytesPerCluster ≠ 0 := by intro h; rw [h] at hposn; exact absurd hposn (by decide)
  have hrounds : expectedSize.toNat - (0 : UInt64).toNat < offsetRounds :=
    Nat.lt_of_le_of_lt (Nat.sub_le _ _) expectedSize.toNat_lt
  have hsome := overwriteLoop_isSome getNextCluster st.nextFileId hposn hfit offsetRounds startCluster 0
    st.clusterHistory {} hrounds
  obtain ⟨out, hout⟩ := Option.isSome_iff_exists.mp hsome
  unfold analyzeClusterOverwrites
  rw [if_neg hne, hout]
  exact ⟨_, rfl⟩

/-! ## Chain pattern -/

def MINIMUM_CLUSTERS_FOR_ANALYSIS : Nat := 10
def LARGE_GAP_THRESHOLD : UInt32 := 1000
def SUSPICIOUS_PATTERN_THRESHOLD : Rat := 1 / 10
def SEVERE_PATTERN_THRESHOLD : Rat := 1 / 4

def analyzePairs : List UInt32 → RecoveryStatus → UInt32 → RecoveryStatus × UInt32
  | a :: b :: rest, status, totalAnomalies =>
    if b = a then
      analyzePairs (b :: rest) { status with repeatedClusters := status.repeatedClusters + 1 } (totalAnomalies + 1)
    else if a < b then
      let gap := b - a - 1
      if LARGE_GAP_THRESHOLD ≤ gap then
        analyzePairs (b :: rest) { status with largeGaps := status.largeGaps + 1 } (totalAnomalies + 1)
      else analyzePairs (b :: rest) status totalAnomalies
    else analyzePairs (b :: rest) { status with backJumps := status.backJumps + 1 } (totalAnomalies + 1)
  | _, status, totalAnomalies => (status, totalAnomalies)

def analyzeClusterPattern (clusters : List UInt32) (status : RecoveryStatus) : RecoveryStatus :=
  if clusters.length < MINIMUM_CLUSTERS_FOR_ANALYSIS then status
  else
    let (status, totalAnomalies) := analyzePairs clusters status 0
    let totalPairs : Rat := clusters.length - 1
    let status := { status with
      fragmentation := min 1 (totalAnomalies.toNat / totalPairs)
      hasLargeGaps := decide (totalPairs * SUSPICIOUS_PATTERN_THRESHOLD < status.largeGaps.toNat)
      hasBackJumps := decide (totalPairs * SUSPICIOUS_PATTERN_THRESHOLD < status.backJumps.toNat)
      hasFragmentedClusters := decide (SEVERE_PATTERN_THRESHOLD < min 1 (totalAnomalies.toNat / totalPairs))
      hasRepeatedClusters := decide (0 < status.repeatedClusters) }
    if status.hasBackJumps || status.hasFragmentedClusters || status.hasLargeGaps || status.hasRepeatedClusters then
      { status with isCorrupted := true }
    else status

/-! ## File names -/

def isFileNameCorrupted (filename : WString) : Bool :=
  if filename = [] then true
  else if filename.any fun c => (wide "<>:\"/\\|?*").contains c then true
  else
    let controlCharCount := (filename.filter (· < 32)).length
    let unusualCharCount := (filename.filter (127 < ·)).length
    0 < controlCharCount || filename.length / 2 < unusualCharCount

end DataRecovery
