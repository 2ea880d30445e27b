import DataRecovery.Overwrites
import Mathlib.Tactic.NormNum

/-!
# The verdict of the analysis

After the chain loop the status is a function of the overwrite analysis and of what the
loop noted. Whether the analysis ends does not depend on the history.
-/

namespace DataRecovery

/-! ## Problems on the chain -/

section
variable (getNextCluster : UInt32 → UInt32)

/-- What the loop notes of a cluster: that it is on the chain already, and that its entry is in use. -/
def problemsAt (used : List UInt32) (cluster : UInt32) : List UInt32 :=
  (if used.contains cluster then [cluster] else []) ++
    if isClusterInUse getNextCluster cluster then [cluster] else []

def problems : List UInt32 → List UInt32 → List UInt32
  | [], _ => []
  | cluster :: rest, used => problemsAt getNextCluster used cluster ++ problems rest (cluster :: used)

def RecoveryStatus.noteProblems (status : RecoveryStatus) (clusters : List UInt32) : RecoveryStatus :=
  { status with
    isCorrupted := status.isCorrupted || !clusters.isEmpty
    hasOverwrittenClusters := status.hasOverwrittenClusters || !clusters.isEmpty
    problematicClusters := status.problematicClusters ++ clusters.map UInt32.toUInt64 }

theorem noteProblems_nil (status : RecoveryStatus) : status.noteProblems [] = status := by
  unfold RecoveryStatus.noteProblems
  simp

theorem noteProblems_append (status : RecoveryStatus) (as bs : List UInt32) :
    status.noteProblems (as ++ bs) = (status.noteProblems as).noteProblems bs := by
  unfold RecoveryStatus.noteProblems
  cases as <;> cases bs <;> simp

theorem inspectCluster_eq (used : List UInt32) (cluster : UInt32) (status : RecoveryStatus) :
    inspectCluster getNextCluster used cluster status =
      status.noteProblems (problemsAt getNextCluster used cluster) := by
  have hnote : ∀ (found : Bool) (status : RecoveryStatus),
      noteProblem found cluster status = status.noteProblems (if found then [cluster] else []) := by
    intro found status
    cases found with
    | false => exact (noteProblems_nil status).symm
    | true => simp [noteProblem, RecoveryStatus.noteProblems]
  unfold inspectCluster problemsAt
  rw [noteProblems_append, hnote, hnote]

theorem chainLoop_snd : ∀ (room : Nat) (c : UInt32) (used : List UInt32) (status : RecoveryStatus),
    (chainLoop getNextCluster true room c used status).2 =
      status.noteProblems (problems getNextCluster (chainFrom getNextCluster room c) used)
  | 0, _, _, status => (noteProblems_nil status).symm
  | room + 1, c, used, status => by
    unfold chainLoop chainFrom
    split
    · simp only [if_true]
      rw [chainLoop_snd room, inspectCluster_eq, problems, noteProblems_append]
    · exact (noteProblems_nil status).symm

theorem problemsAt_nil_iff {used : List UInt32} {c : UInt32} :
    problemsAt getNextCluster used c = [] ↔ c ∉ used ∧ isClusterInUse getNextCluster c = false := by
  unfold problemsAt
  cases isClusterInUse getNextCluster c <;> simp

theorem problems_nil_iff : ∀ {chain used : List UInt32}, problems getNextCluster chain used = [] ↔
    (chain.Nodup ∧ ∀ c ∈ chain, c ∉ used) ∧ ∀ c ∈ chain, isClusterInUse getNextCluster c = false
  | [], _ => by simp [problems]
  | c :: rest, used => by
    rw [problems, List.append_eq_nil_iff, problemsAt_nil_iff, problems_nil_iff, List.nodup_cons]
    simp only [List.forall_mem_cons]
    simp only [List.mem_cons, not_or]
    constructor
    · rintro ⟨⟨hc, hfree⟩, ⟨hnodup, hrest⟩, hall⟩
      exact ⟨⟨⟨fun hmem => (hrest c hmem).1 rfl, hnodup⟩, hc, fun d hd => (hrest d hd).2⟩, hfree, hall⟩
    · rintro ⟨⟨⟨hnew, hnodup⟩, hc, hrest⟩, hfree, hall⟩
      exact ⟨⟨hc, hfree⟩, ⟨hnodup, fun d hd => ⟨fun heq => hnew (heq ▸ hd), hrest d hd⟩⟩, hall⟩

theorem mem_problems_of_inUse {c : UInt32} (huse : isClusterInUse getNextCluster c = true) :
    ∀ {chain used : List UInt32}, c ∈ chain → c ∈ problems getNextCluster chain used
  | d :: rest, used, h => by
    rw [problems, List.mem_append]
    rcases List.mem_cons.mp h with rfl | h
    · refine .inl ?_
      unfold problemsAt
      rw [huse]
      simp
    · exact .inr (mem_problems_of_inUse huse h)

end

/-! ## The pattern of the chain -/

def RecoveryStatus.counts (status : RecoveryStatus) : UInt32 × UInt32 × UInt32 :=
  (status.repeatedClusters, status.largeGaps, status.backJumps)

def patternOf (clusters : List UInt32) : RecoveryStatus := analyzeClusterPattern clusters {}

/-- The fields that only the pattern analysis sets, not set yet. -/
structure RecoveryStatus.Unpatterned (status : RecoveryStatus) : Prop where
  counts : status.counts = (0, 0, 0)
  fragmentation : status.fragmentation = 0
  flags : (status.hasFragmentedClusters, status.hasBackJumps, status.hasRepeatedClusters, status.hasLargeGaps) =
    (false, false, false, false)

def RecoveryStatus.withPattern (status pattern : RecoveryStatus) : RecoveryStatus :=
  { status with
    isCorrupted := status.isCorrupted || pattern.isCorrupted
    hasFragmentedClusters := pattern.hasFragmentedClusters
    fragmentation := pattern.fragmentation
    hasBackJumps := pattern.hasBackJumps
    backJumps := pattern.backJumps
    hasRepeatedClusters := pattern.hasRepeatedClusters
    repeatedClusters := pattern.repeatedClusters
    hasLargeGaps := pattern.hasLargeGaps
    largeGaps := pattern.largeGaps }

theorem analyzeClusterPattern_eq {status : RecoveryStatus} (h : status.Unpatterned) (clusters : List UInt32) :
    analyzeClusterPattern clusters status = status.withPattern (patternOf clusters) := by
  obtain ⟨hcounts, hfragmentation, hflags⟩ := h
  simp only [Prod.mk.injEq] at hflags
  simp only [RecoveryStatus.counts, Prod.mk.injEq] at hcounts
  obtain ⟨hrepeats, hgaps, hjumps⟩ := hcounts
  unfold patternOf
  by_cases hlong : 10 ≤ clusters.length
  · rw [analyzeClusterPattern_long hlong, analyzeClusterPattern_long hlong]
    unfold RecoveryStatus.assessed RecoveryStatus.addCounts RecoveryStatus.withPattern
    rw [hrepeats, hgaps, hjumps]
    rfl
  · rw [analyzeClusterPattern_short (Nat.not_le.mp hlong), analyzeClusterPattern_short (Nat.not_le.mp hlong)]
    cases status
    simp_all [RecoveryStatus.withPattern]

theorem patternOf_isCorrupted (clusters : List UInt32) :
    (patternOf clusters).isCorrupted =
      ((patternOf clusters).hasBackJumps || (patternOf clusters).hasFragmentedClusters ||
        (patternOf clusters).hasLargeGaps || (patternOf clusters).hasRepeatedClusters) := by
  unfold patternOf
  by_cases hlong : 10 ≤ clusters.length
  · rw [analyzeClusterPattern_long hlong]
    exact Bool.false_or _
  · rw [analyzeClusterPattern_short (Nat.not_le.mp hlong)]
    rfl

def Close (a b : UInt32) : Prop := a < b ∧ b - a - 1 < LARGE_GAP_THRESHOLD

theorem analyzePairs_of_close : ∀ {clusters : List UInt32} (status : RecoveryStatus) (n : UInt32),
    clusters.IsChain Close → analyzePairs clusters status n = (status, n)
  | [], _, _, _ => rfl
  | [_], _, _, _ => rfl
  | a :: b :: rest, status, n, h => by
    obtain ⟨⟨hlt, hgap⟩, hrest⟩ := List.isChain_cons_cons.mp h
    unfold analyzePairs
    rw [if_neg (UInt32.ne_of_lt hlt).symm, if_pos hlt]
    dsimp only
    rw [if_neg (UInt32.not_le.mpr hgap)]
    exact analyzePairs_of_close status n hrest

theorem patternOf_of_close {clusters : List UInt32} (h : clusters.IsChain Close) :
    (patternOf clusters).isCorrupted = false := by
  unfold patternOf analyzeClusterPattern
  split
  · rfl
  · rename_i hlong
    have hpairs : (0 : Rat) ≤ (clusters.length - 1 : Rat) * SUSPICIOUS_PATTERN_THRESHOLD := by
      have hone : (1 : Rat) ≤ clusters.length := by
        have := Nat.le_trans (by decide : 1 ≤ MINIMUM_CLUSTERS_FOR_ANALYSIS) (Nat.not_lt.mp hlong)
        exact_mod_cast this
      exact mul_nonneg (sub_nonneg.mpr hone) (by norm_num [SUSPICIOUS_PATTERN_THRESHOLD])
    have hsevere : (0 : Rat) ≤ SEVERE_PATTERN_THRESHOLD := by norm_num [SEVERE_PATTERN_THRESHOLD]
    rw [analyzePairs_of_close {} 0 h]
    simp [not_lt.mpr hsevere, not_lt.mpr hpairs]

/-! ## After the loop -/

section
variable (ctx : ChainContext) (startCluster : UInt32) (clusterChain : List UInt32) (filename : WString)
  (isExtensionPredicted : Bool)

/-- The status `validateClusterChain` ends with, given the overwrite analysis. -/
def verdict (overwriteAnalysis : OverwriteAnalysis) (status : RecoveryStatus) : RecoveryStatus :=
  analyzeClusterPattern clusterChain
    { status with
      hasOverwrittenClusters := overwriteAnalysis.hasOverwrite
      hasInvalidFileName := isFileNameCorrupted filename
      hasInvalidExtension := status.hasInvalidExtension || isExtensionPredicted
      isCorrupted := status.isCorrupted || overwriteAnalysis.hasOverwrite || !ctx.isValidCluster startCluster ||
        isExtensionPredicted }

variable (expectedSize expectedClusters : UInt64) (status : RecoveryStatus) (st : AnalysisState)

theorem finishAnalysis_eq :
    finishAnalysis ctx startCluster clusterChain expectedSize expectedClusters filename isExtensionPredicted status
        st =
      (overwriteVisits ctx.getNextCluster ctx.bytesPerCluster expectedSize startCluster).map fun visits =>
        (verdict ctx startCluster clusterChain filename isExtensionPredicted (analyzeVisits expectedClusters visits st).1
          status, (analyzeVisits expectedClusters visits st).2) := by
  unfold finishAnalysis
  rw [analyzeClusterOverwrites_eq]
  cases overwriteVisits ctx.getNextCluster ctx.bytesPerCluster expectedSize startCluster with
  | error e => rfl
  | ok visits =>
    simp only [bind, Except.bind, Except.map, pure, Except.pure]
    unfold verdict
    cases (analyzeVisits expectedClusters visits st).1.hasOverwrite with
    | true => cases ctx.isValidCluster startCluster <;> cases isExtensionPredicted <;> simp
    | false => cases ctx.isValidCluster startCluster <;> cases isExtensionPredicted <;> simp

end

/-! ## A whole call -/

section
variable (ctx : ChainContext) (startCluster : UInt32) (clusterCount : UInt64) (expectedSize overwriteClusters : UInt64)
  (filename : WString) (isExtensionPredicted : Bool) (st : AnalysisState)

def ChainContext.chain : List UInt32 := chainFrom ctx.getNextCluster clusterCount.toNat startCluster

/-- The status at the end of an analysing call, given whether the overwrite analysis finds something. -/
def finalStatus (hasOverwrite : Bool) : RecoveryStatus :=
  let chain := ctx.chain startCluster clusterCount
  let chainProblems := problems ctx.getNextCluster chain []
  { expectedClusters := clusterCount
    problematicClusters := chainProblems.map UInt32.toUInt64
    hasOverwrittenClusters := hasOverwrite
    hasInvalidFileName := isFileNameCorrupted filename
    hasInvalidExtension := isExtensionPredicted
    isCorrupted := !chainProblems.isEmpty || hasOverwrite || !ctx.isValidCluster startCluster || isExtensionPredicted :
      RecoveryStatus }.withPattern (patternOf chain)

theorem finalStatus_problematicClusters (hasOverwrite : Bool) :
    (finalStatus ctx startCluster clusterCount filename isExtensionPredicted hasOverwrite).problematicClusters =
      (problems ctx.getNextCluster (ctx.chain startCluster clusterCount) []).map UInt32.toUInt64 := rfl

theorem finalStatus_progress (hasOverwrite : Bool) :
    (finalStatus ctx startCluster clusterCount filename isExtensionPredicted hasOverwrite).progress =
      (clusterCount, 0, 0) := rfl

theorem finalStatus_isCorrupted (hasOverwrite : Bool) :
    (finalStatus ctx startCluster clusterCount filename isExtensionPredicted hasOverwrite).isCorrupted =
      (!(problems ctx.getNextCluster (ctx.chain startCluster clusterCount) []).isEmpty || hasOverwrite ||
        !ctx.isValidCluster startCluster || isExtensionPredicted ||
        (patternOf (ctx.chain startCluster clusterCount)).isCorrupted) := rfl

variable {ctx}

theorem validateClusterChain_analyzed (hanalyze : ctx.analyze = true) :
    (validateClusterChain ctx { expectedClusters := clusterCount } startCluster expectedSize overwriteClusters filename
        isExtensionPredicted st).2 =
      (overwriteVisits ctx.getNextCluster ctx.bytesPerCluster expectedSize startCluster).map fun visits =>
        (finalStatus ctx startCluster clusterCount filename isExtensionPredicted
          (analyzeVisits overwriteClusters visits st).1.hasOverwrite, (analyzeVisits overwriteClusters visits st).2) := by
  unfold validateClusterChain
  dsimp only
  rw [hanalyze, if_pos rfl, chainLoop_snd, chainLoop_fst, finishAnalysis_eq]
  congr 1
  funext visits
  unfold verdict
  rw [analyzeClusterPattern_eq ⟨rfl, rfl, rfl⟩]
  simp [finalStatus, RecoveryStatus.noteProblems, ChainContext.chain]

end

end DataRecovery
