import DataRecovery.OverwriteDetection
import DataRecovery.OverwriteEnds
import DataRecovery.Verdict

/-!
# What the analysis reports

`showAnalysisResult` prints the findings of a file when its status is corrupted. A
problematic cluster is printed only when the overwrite analysis finds something too,
and a file name that is found invalid does not make the file corrupted.
-/

namespace DataRecovery

/-! ## The report -/

inductive Finding where
  | invalidFileName
  | invalidExtension
  | overwritten (problematicClusters : List UInt64)
  | fragmented (fragmentation : Rat)
  | repeatedClusters (count : UInt32)
  | backJumps (count : UInt32)
  | largeGaps (count : UInt32)

inductive AnalysisResult where
  | noSigns
  | corrupted (findings : List Finding)

def showAnalysisResult (status : RecoveryStatus) : AnalysisResult :=
  if status.isCorrupted then
    .corrupted (
      (if status.hasInvalidFileName then [.invalidFileName] else []) ++
      (if status.hasInvalidExtension then [.invalidExtension] else []) ++
      (if status.hasOverwrittenClusters then [.overwritten status.problematicClusters] else []) ++
      (if status.hasFragmentedClusters then [.fragmented status.fragmentation] else []) ++
      (if status.hasRepeatedClusters then [.repeatedClusters status.repeatedClusters] else []) ++
      (if status.hasBackJumps then [.backJumps status.backJumps] else []) ++
      if status.hasLargeGaps then [.largeGaps status.largeGaps] else [])
  else .noSigns

def RecoveryStatus.ReportsProblems (status : RecoveryStatus) : Prop :=
  status.problematicClusters ≠ [] → status.hasOverwrittenClusters = true ∧
    ∃ findings, showAnalysisResult status = .corrupted findings ∧ .overwritten status.problematicClusters ∈ findings

def RecoveryStatus.hasFinding (status : RecoveryStatus) : Bool :=
  status.hasOverwrittenClusters || status.hasInvalidFileName || status.hasInvalidExtension ||
    status.hasFragmentedClusters || status.hasBackJumps || status.hasRepeatedClusters || status.hasLargeGaps

def RecoveryStatus.FindingsCorrupt (status : RecoveryStatus) : Prop :=
  status.hasFinding = true → status.isCorrupted = true ∧ showAnalysisResult status ≠ .noSigns

theorem showAnalysisResult_ne_noSigns {status : RecoveryStatus} :
    showAnalysisResult status ≠ .noSigns ↔ status.isCorrupted = true := by
  unfold showAnalysisResult
  cases status.isCorrupted with
  | true => simp
  | false => simp

/-! ## The status in terms of the image and the history -/

/-- Two other files used one of the clusters, or another file used one that is met twice. -/
def FoundOverwritten (st : AnalysisState) (clusters : List UInt32) : Prop :=
  ∃ c ∈ clusters, Overlapping (st.clusterHistory c) ∨
    2 ≤ clusters.count c ∧ ∃ u ∈ st.clusterHistory c, u.isDeleted = true ∧ u.fileId ≠ st.nextFileId

theorem foundOverwritten_iff (count : UInt64) (visited : List (UInt32 × UInt64)) (st : AnalysisState) :
    (analyzeVisits count visited st).1.hasOverwrite = true ↔ FoundOverwritten st (visited.map Prod.fst) := by
  rw [hasOverwrite_iff]
  constructor
  · intro h
    obtain ⟨c, hc⟩ := List.exists_mem_of_ne_nil _ h
    exact ⟨c, (mem_overwritten_iff count visited st c).mp hc⟩
  · intro ⟨c, hc⟩
    exact List.ne_nil_of_mem ((mem_overwritten_iff count visited st c).mpr hc)

def CleanChain (getNextCluster : UInt32 → UInt32) (chain : List UInt32) : Prop :=
  chain.Nodup ∧ ∀ c ∈ chain, isClusterInUse getNextCluster c = false

theorem cleanChain_iff {getNextCluster : UInt32 → UInt32} {chain : List UInt32} :
    CleanChain getNextCluster chain ↔ problems getNextCluster chain [] = [] := by
  rw [problems_nil_iff]
  simp [CleanChain]

def EndsWith (P : RecoveryStatus → Prop) (out : Except Abort (RecoveryStatus × AnalysisState)) : Prop :=
  ∀ status st, out = .ok (status, st) → P status

section
variable {ctx : ChainContext} {startCluster : UInt32} {clusterCount expectedSize : UInt64}
  {filename : WString} {isExtensionPredicted : Bool}

theorem finalStatus_reportsProblems_iff {hasOverwrite : Bool} :
    (finalStatus ctx startCluster clusterCount filename isExtensionPredicted hasOverwrite).ReportsProblems ↔
      CleanChain ctx.getNextCluster (ctx.chain startCluster clusterCount) ∨ hasOverwrite = true := by
  rw [cleanChain_iff]
  unfold RecoveryStatus.ReportsProblems showAnalysisResult finalStatus
  cases hasOverwrite with
  | true => simp [RecoveryStatus.withPattern]
  | false => simp [RecoveryStatus.withPattern]

variable (ctx startCluster clusterCount filename isExtensionPredicted) in
def NameHarmless : Prop :=
  isFileNameCorrupted filename = false ∨ ctx.isValidCluster startCluster = false ∨ isExtensionPredicted = true ∨
    (patternOf (ctx.chain startCluster clusterCount)).isCorrupted = true ∨
      ¬ CleanChain ctx.getNextCluster (ctx.chain startCluster clusterCount)

theorem finalStatus_findingsCorrupt_iff {hasOverwrite : Bool} :
    (finalStatus ctx startCluster clusterCount filename isExtensionPredicted hasOverwrite).FindingsCorrupt ↔
      NameHarmless ctx startCluster clusterCount filename isExtensionPredicted ∨ hasOverwrite = true := by
  unfold NameHarmless
  let pattern := patternOf (ctx.chain startCluster clusterCount)
  let noProblems := (problems ctx.getNextCluster (ctx.chain startCluster clusterCount) []).isEmpty
  have hfinding : (finalStatus ctx startCluster clusterCount filename isExtensionPredicted hasOverwrite).hasFinding =
      (isFileNameCorrupted filename || (hasOverwrite || isExtensionPredicted || pattern.isCorrupted)) := by
    show (hasOverwrite || isFileNameCorrupted filename || isExtensionPredicted || pattern.hasFragmentedClusters ||
      pattern.hasBackJumps || pattern.hasRepeatedClusters || pattern.hasLargeGaps) = _
    rw [show pattern.isCorrupted = _ from patternOf_isCorrupted (ctx.chain startCluster clusterCount)]
    ac_rfl
  have hcorrupted : (finalStatus ctx startCluster clusterCount filename isExtensionPredicted hasOverwrite).isCorrupted =
      (!noProblems || !ctx.isValidCluster startCluster || (hasOverwrite || isExtensionPredicted ||
        pattern.isCorrupted)) := by
    rw [finalStatus_isCorrupted]
    show (!noProblems || hasOverwrite || !ctx.isValidCluster startCluster || isExtensionPredicted ||
      pattern.isCorrupted) = _
    ac_rfl
  unfold RecoveryStatus.FindingsCorrupt
  rw [showAnalysisResult_ne_noSigns, and_self, cleanChain_iff, ← List.isEmpty_iff, hfinding, hcorrupted]
  show _ ↔ (_ ∨ _ ∨ _ ∨ pattern.isCorrupted = true ∨ ¬ noProblems = true) ∨ _
  cases hasOverwrite with
  | true => simp
  | false =>
    simp only [Bool.or_eq_true, Bool.not_eq_true', Bool.false_eq_true, Bool.not_eq_true]
    grind

section
variable (hanalyze : ctx.analyze = true) (hfit : ctx.bytesPerCluster ≠ 0 →
  expectedSize.toNat + ctx.bytesPerCluster.toNat ≤ 2 ^ 64 ∨ ctx.bytesPerCluster.toNat ∣ 2 ^ 64)
include hanalyze hfit

theorem validateClusterChain_of_returns (overwriteClusters : UInt64) (st : AnalysisState)
    (h : AnalysisReturns ctx.getNextCluster ctx.bytesPerCluster expectedSize startCluster) :
    ∃ hasOverwrite st', (hasOverwrite = true ↔ FoundOverwritten st
        (linkedClusters ctx.getNextCluster ctx.bytesPerCluster expectedSize startCluster)) ∧
      (validateClusterChain ctx { expectedClusters := clusterCount } startCluster expectedSize overwriteClusters
        filename isExtensionPredicted st).2 =
          .ok (finalStatus ctx startCluster clusterCount filename isExtensionPredicted hasOverwrite, st') := by
  obtain ⟨visits, hvisits, hclusters⟩ := overwriteVisits_of_returns hfit h
  rw [validateClusterChain_analyzed _ _ _ _ _ _ _ hanalyze, hvisits, ← hclusters]
  exact ⟨_, _, foundOverwritten_iff overwriteClusters visits st, rfl⟩

theorem validateClusterChain_of_not_returns (overwriteClusters : UInt64) (st : AnalysisState)
    (h : ¬ AnalysisReturns ctx.getNextCluster ctx.bytesPerCluster expectedSize startCluster) :
    ∃ abort, (validateClusterChain ctx { expectedClusters := clusterCount } startCluster expectedSize
        overwriteClusters filename isExtensionPredicted st).2 = .error abort ∧
      (ctx.bytesPerCluster ≠ 0 → abort = .divergence) := by
  obtain ⟨abort, herror, hdiverges⟩ := overwriteVisits_of_not_returns hfit h
  rw [validateClusterChain_analyzed _ _ _ _ _ _ _ hanalyze, herror]
  exact ⟨abort, rfl, hdiverges⟩

/-- A property of the final status that the overwrite analysis can only help to hold. -/
theorem endsWith_iff {P : RecoveryStatus → Prop} {Q : Prop}
    (hP : ∀ hasOverwrite, P (finalStatus ctx startCluster clusterCount filename isExtensionPredicted hasOverwrite) ↔
      Q ∨ hasOverwrite = true) (overwriteClusters : UInt64) (st : AnalysisState) :
    EndsWith P (validateClusterChain ctx { expectedClusters := clusterCount } startCluster expectedSize
        overwriteClusters filename isExtensionPredicted st).2 ↔
      ¬ AnalysisReturns ctx.getNextCluster ctx.bytesPerCluster expectedSize startCluster ∨ Q ∨
        FoundOverwritten st (linkedClusters ctx.getNextCluster ctx.bytesPerCluster expectedSize startCluster) := by
  by_cases h : AnalysisReturns ctx.getNextCluster ctx.bytesPerCluster expectedSize startCluster
  · obtain ⟨hasOverwrite, st', hfound, hok⟩ := @validateClusterChain_of_returns ctx startCluster clusterCount
      expectedSize filename isExtensionPredicted hanalyze hfit overwriteClusters st h
    rw [hok, ← hfound, ← hP]
    constructor
    · intro hall
      exact .inr (hall _ _ rfl)
    · rintro (hnot | hfinal) status st' heq
      · exact absurd h hnot
      · obtain rfl := congrArg Prod.fst (Except.ok.inj heq)
        exact hfinal
  · obtain ⟨abort, herror, -⟩ := @validateClusterChain_of_not_returns ctx startCluster clusterCount expectedSize
      filename isExtensionPredicted hanalyze hfit overwriteClusters st h
    rw [herror]
    refine iff_of_true ?_ (.inl h)
    intro status st' heq
    cases heq

end

end

/-! ## Both engines -/

namespace FAT32

variable {v : Volume} {config : Config} {startCluster size : UInt32} {outputPath : Path} {isExtensionPredicted : Bool}

theorem analysisReturns (v : Volume) (startCluster size : UInt32) :
    AnalysisReturns v.getNextCluster v.bytesPerCluster size.toUInt64 startCluster :=
  ⟨UInt32.pos_iff_ne_zero.mp v.bytesPerCluster_pos, .inl (v.offsets_fit size)⟩

theorem endsWith_iff {P : RecoveryStatus → Prop} {Q : Prop} {st : AnalysisState}
    (hP : ∀ hasOverwrite, P (finalStatus (v.chainContext { config with analyze := true }) startCluster
      (v.expectedClusters size).toUInt64 outputPath.filename isExtensionPredicted hasOverwrite) ↔
        Q ∨ hasOverwrite = true) :
    EndsWith P (validateClusterChain v { config with analyze := true } (startStatus v size) startCluster size
        outputPath isExtensionPredicted st).2 ↔
      Q ∨ FoundOverwritten st (linkedClusters v.getNextCluster v.bytesPerCluster size.toUInt64 startCluster) :=
  (DataRecovery.endsWith_iff rfl (fun _ => .inl (v.offsets_fit size)) hP _ st).trans
    (or_iff_right (not_not_intro (analysisReturns v startCluster size)))

end FAT32

namespace ExFAT

variable {v : Volume} {config : Config} {startCluster : UInt32} {size : UInt64} {outputPath : Path}
  {isExtensionPredicted : Bool}

theorem endsWith_iff {P : RecoveryStatus → Prop} {Q : Prop} {st : AnalysisState}
    (hP : ∀ hasOverwrite, P (finalStatus (v.chainContext { config with analyze := true }) startCluster
      (v.expectedClusters size) outputPath.filename isExtensionPredicted hasOverwrite) ↔ Q ∨ hasOverwrite = true) :
    EndsWith P (validateClusterChain v { config with analyze := true } (startStatus v size) startCluster size
        outputPath isExtensionPredicted st).2 ↔
      ¬ AnalysisReturns v.getNextCluster v.analysisBytesPerCluster size startCluster ∨ Q ∨
        FoundOverwritten st (linkedClusters v.getNextCluster v.analysisBytesPerCluster size startCluster) :=
  DataRecovery.endsWith_iff rfl (fun hne => .inr (v.analysisBytesPerCluster_dvd hne)) hP _ st

end ExFAT

section
variable (config : Config) (startCluster : UInt32) (outputPath : Path) (isExtensionPredicted : Bool) (st : AnalysisState)

/-- The problematic clusters are reported exactly when there are none, or when the overwrite
analysis has a finding of its own. -/
theorem problems_reported_iff :
    (∀ (v : FAT32.Volume) (size : UInt32),
      EndsWith RecoveryStatus.ReportsProblems (FAT32.validateClusterChain v { config with analyze := true }
          (FAT32.startStatus v size) startCluster size outputPath isExtensionPredicted st).2 ↔
        CleanChain v.getNextCluster (chainFrom v.getNextCluster (v.expectedClusters size).toNat startCluster) ∨
          FoundOverwritten st (linkedClusters v.getNextCluster v.bytesPerCluster size.toUInt64 startCluster)) ∧
    (∀ (v : ExFAT.Volume) (size : UInt64),
      EndsWith RecoveryStatus.ReportsProblems (ExFAT.validateClusterChain v { config with analyze := true }
          (ExFAT.startStatus v size) startCluster size outputPath isExtensionPredicted st).2 ↔
        ¬ AnalysisReturns v.getNextCluster v.analysisBytesPerCluster size startCluster ∨
          CleanChain v.getNextCluster (chainFrom v.getNextCluster (v.expectedClusters size).toNat startCluster) ∨
          FoundOverwritten st (linkedClusters v.getNextCluster v.analysisBytesPerCluster size startCluster)) := by
  constructor
  · intro v size
    rw [← UInt32.toNat_toUInt64]
    exact FAT32.endsWith_iff fun _ => finalStatus_reportsProblems_iff
  · intro v size
    exact ExFAT.endsWith_iff fun _ => finalStatus_reportsProblems_iff

/-- Every finding makes the file corrupted exactly when an invalid file name, if there is one, is
not the only finding. -/
theorem findings_corrupt_iff :
    (∀ (v : FAT32.Volume) (size : UInt32),
      EndsWith RecoveryStatus.FindingsCorrupt (FAT32.validateClusterChain v { config with analyze := true }
          (FAT32.startStatus v size) startCluster size outputPath isExtensionPredicted st).2 ↔
        NameHarmless (v.chainContext config) startCluster (v.expectedClusters size).toUInt64 outputPath.filename
          isExtensionPredicted ∨
          FoundOverwritten st (linkedClusters v.getNextCluster v.bytesPerCluster size.toUInt64 startCluster)) ∧
    (∀ (v : ExFAT.Volume) (size : UInt64),
      EndsWith RecoveryStatus.FindingsCorrupt (ExFAT.validateClusterChain v { config with analyze := true }
          (ExFAT.startStatus v size) startCluster size outputPath isExtensionPredicted st).2 ↔
        ¬ AnalysisReturns v.getNextCluster v.analysisBytesPerCluster size startCluster ∨
          NameHarmless (v.chainContext config) startCluster (v.expectedClusters size) outputPath.filename
            isExtensionPredicted ∨
          FoundOverwritten st (linkedClusters v.getNextCluster v.analysisBytesPerCluster size startCluster)) := by
  constructor
  · intro v size
    exact FAT32.endsWith_iff fun _ => finalStatus_findingsCorrupt_iff
  · intro v size
    exact ExFAT.endsWith_iff fun _ => finalStatus_findingsCorrupt_iff

end

theorem foundOverwritten_fresh (clusters : List UInt32) : ¬ FoundOverwritten {} clusters := by
  rintro ⟨c, _, ⟨u, hu, _⟩ | ⟨_, u, hu, _⟩⟩
  · cases hu
  · cases hu

/-- The first cluster of the file is in use by another one: it is problematic and not reported. -/
theorem problem_unreported :
    ¬ ((∀ (v : FAT32.Volume) (config : Config) (startCluster size : UInt32) (outputPath : Path)
          (isExtensionPredicted : Bool) (st : AnalysisState),
        EndsWith RecoveryStatus.ReportsProblems (FAT32.validateClusterChain v { config with analyze := true }
          (FAT32.startStatus v size) startCluster size outputPath isExtensionPredicted st).2) ∧
      ∀ (v : ExFAT.Volume) (config : Config) (startCluster : UInt32) (size : UInt64) (outputPath : Path)
          (isExtensionPredicted : Bool) (st : AnalysisState),
        EndsWith RecoveryStatus.ReportsProblems (ExFAT.validateClusterChain v { config with analyze := true }
          (ExFAT.startStatus v size) startCluster size outputPath isExtensionPredicted st).2) := by
  intro ⟨h, _⟩
  let v := FAT32.smallVolume [(1, List.replicate 16 0 ++ [0xFF, 0xFF, 0xFF, 0x0F])]
  rcases (FAT32.endsWith_iff fun _ => finalStatus_reportsProblems_iff).mp
    (h v {} 4 9 ⟨wide "Recovered", wide "A.TXT"⟩ false {}) with hclean | hfound
  · have huse : isClusterInUse v.getNextCluster 4 = true := by decide +kernel
    have hchain : (v.chainContext { analyze := true }).chain 4 (v.expectedClusters 9).toUInt64 = [4] := by
      decide +kernel
    rw [hchain] at hclean
    have hfree := hclean.2 4 (List.mem_singleton.mpr rfl)
    exact absurd (huse.symm.trans hfree) (by decide)
  · exact foundOverwritten_fresh _ hfound

/-- A name of mostly non-ASCII characters: invalid, and the file shows no signs of corruption. -/
theorem invalid_name_uncorrupted :
    ¬ ((∀ (v : FAT32.Volume) (config : Config) (startCluster size : UInt32) (outputPath : Path)
          (isExtensionPredicted : Bool) (st : AnalysisState),
        EndsWith RecoveryStatus.FindingsCorrupt (FAT32.validateClusterChain v { config with analyze := true }
          (FAT32.startStatus v size) startCluster size outputPath isExtensionPredicted st).2) ∧
      ∀ (v : ExFAT.Volume) (config : Config) (startCluster : UInt32) (size : UInt64) (outputPath : Path)
          (isExtensionPredicted : Bool) (st : AnalysisState),
        EndsWith RecoveryStatus.FindingsCorrupt (ExFAT.validateClusterChain v { config with analyze := true }
          (ExFAT.startStatus v size) startCluster size outputPath isExtensionPredicted st).2) := by
  intro ⟨h, _⟩
  let v := FAT32.smallVolume []
  have hharmless := ((FAT32.endsWith_iff fun _ => finalStatus_findingsCorrupt_iff).mp
    (h v {} 4 9 ⟨wide "Recovered", wide "отчёт.txt"⟩ false {})).resolve_right (foundOverwritten_fresh _)
  have hchain : (v.chainContext { analyze := true }).chain 4 (v.expectedClusters 9).toUInt64 = [4] := by decide +kernel
  unfold NameHarmless at hharmless
  rw [hchain] at hharmless
  rcases hharmless with hname | hstart | hpredicted | hpattern | hunclean
  · exact absurd hname (by decide +kernel)
  · exact absurd hstart (by decide +kernel)
  · cases hpredicted
  · cases hpattern
  · refine hunclean ⟨List.nodup_singleton 4, fun c hc => ?_⟩
    rw [List.mem_singleton.mp hc]
    decide +kernel

end DataRecovery
