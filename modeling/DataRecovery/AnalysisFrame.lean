import DataRecovery.Findings

/-!
# What the analysis leaves alone

A file is recovered twice from one state, with the analysis and without it. The analysis
touches neither the chain nor the counters that the copy goes on from, so the two runs
differ only when it does not return.
-/

namespace DataRecovery

/-- Two runs leave the same files, end alike, and show the same counters last. -/
structure Agrees {host : Host} (a b : Outcome host) : Prop where
  files : a.1.files = b.1.files
  ended : a.2 = b.2
  counted : a.2 = none →
    a.1.shown.getLast?.map RecoveryStatus.progress = b.1.shown.getLast?.map RecoveryStatus.progress

theorem Agrees.refl {host : Host} (a : Outcome host) : Agrees a a := ⟨rfl, rfl, fun _ => rfl⟩

/-- A run that ends before the analysis does the same with and without it. -/
theorem Agrees.of_const {host : Host} {run : Bool → Outcome host} {outcome : Outcome host}
    (h : ∀ analyze, run analyze = outcome) : Agrees (run true) (run false) := by
  rw [h, h]
  exact .refl outcome

theorem progress_eq_iff {s t : RecoveryStatus} : s.progress = t.progress ↔
    s.expectedClusters = t.expectedClusters ∧ s.recoveredClusters = t.recoveredClusters ∧
      s.recoveredBytes = t.recoveredBytes := by
  unfold RecoveryStatus.progress
  rw [Prod.mk.injEq, Prod.mk.injEq]

/-! ## FAT32 -/

namespace FAT32

section
variable (v : Volume) (config : Config) {host : Host}

/-- The copy starts from the chain and the counters, whatever else the status says. -/
theorem recoverFile_agrees {status status' : RecoveryStatus} {st st' : RunState host}
    (hprogress : status.progress = status'.progress) (hfiles : st.files = st'.files) (clusterChain : List UInt32)
    (outputPath : Path) (expectedSize : UInt32) :
    Agrees (recoverFile v clusterChain status outputPath expectedSize st)
      (recoverFile v clusterChain status' outputPath expectedSize st') := by
  obtain ⟨hexpected, hclusters, hbytes⟩ := progress_eq_iff.mp hprogress
  unfold recoverFile
  split
  · refine ⟨?_, rfl, fun _ => ?_⟩
    · simp only [hfiles, hclusters, hbytes]
    · simp only [List.getLast?_concat, Option.map_some, RecoveryStatus.progress, hexpected, hclusters, hbytes]
  · exact ⟨hfiles, rfl, fun h => by cases h⟩

theorem processFileForRecovery_agrees (info : FileInfo) (st : RunState host) :
    Agrees (processFileForRecovery v { config with recover := true, analyze := true } info st)
      (processFileForRecovery v { config with recover := true, analyze := false } info st) := by
  have hstops := fun outcome => @Agrees.of_const host
    (fun analyze => processFileForRecovery v { config with recover := true, analyze } info st) outcome
  cases hskip : isSkipped config info with
  | true => exact hstops (st, none) fun _ => if_pos hskip
  | false =>
    cases hends : renamingEnds st.files info.fullName config.outputFolder with
    | false =>
      refine hstops (st, some .undefined) fun _ => (if_neg (Bool.not_eq_true _ ▸ hskip)).trans (if_pos ?_)
      rw [hends]
      rfl
    | true =>
      by_cases hsize : info.fileSize ≤ 0xFFFFFFFF
      · have hrecovers : ∀ analyze, ∃ status st', processFileForRecovery v { config with recover := true, analyze } info
              st = recoverFile v (chainFrom v.getNextCluster (startStatus v info.fileSize.toUInt32).expectedClusters.toNat
                info.cluster) status (getOutputPath st.files info.fullName config.outputFolder) info.fileSize.toUInt32
                st' ∧
            status.progress = (startStatus v info.fileSize.toUInt32).progress ∧ st'.files = st.files := by
          intro analyze
          obtain ⟨status, analysis, hvalidate, hprogress⟩ := validateClusterChain_eq v
            { config with recover := true, analyze } (startStatus v info.fileSize.toUInt32) info.cluster
            info.fileSize.toUInt32 (getOutputPath st.files info.fullName config.outputFolder) false st.analysis
          obtain ⟨st', hfiles, hprocess⟩ := processFileForRecovery_eq v { config with recover := true, analyze } hskip
            hends hsize rfl hvalidate
          exact ⟨status, st', hprocess, hprogress, hfiles⟩
        obtain ⟨status, st₁, h₁, hprogress, hfiles⟩ := hrecovers true
        obtain ⟨status', st₂, h₂, hprogress', hfiles'⟩ := hrecovers false
        rw [h₁, h₂]
        exact recoverFile_agrees v (hprogress.trans hprogress'.symm) (hfiles.trans hfiles'.symm) _ _ _
      · refine hstops (st, some (.exception "File size exceeds 32-bit limit!")) fun _ =>
          (if_neg (Bool.not_eq_true _ ▸ hskip)).trans ((if_neg ?_).trans (if_pos (UInt64.not_le.mp hsize)))
        rw [hends]
        exact Bool.false_ne_true

end

end FAT32

/-! ## exFAT -/

namespace ExFAT

section
variable (v : Volume) (config : Config) {host : Host}

theorem recoverFile_agrees {status status' : RecoveryStatus} {st st' : RunState host}
    (hprogress : status.progress = status'.progress) (hfiles : st.files = st'.files) (clusterChain : List UInt32)
    (outputPath : Path) (expectedSize : UInt64) :
    Agrees (recoverFile v clusterChain status outputPath expectedSize st)
      (recoverFile v clusterChain status' outputPath expectedSize st') := by
  obtain ⟨hexpected, hclusters, hbytes⟩ := progress_eq_iff.mp hprogress
  unfold recoverFile
  split
  · refine ⟨?_, rfl, fun _ => ?_⟩
    · simp only [hfiles, hclusters, hbytes]
    · simp only [List.getLast?_concat, Option.map_some, RecoveryStatus.progress, hexpected, hclusters, hbytes]
  · exact ⟨hfiles, rfl, fun h => by cases h⟩

theorem recoverFile_ended (clusterChain : List UInt32) (status : RecoveryStatus) (outputPath : Path)
    (expectedSize : UInt64) (st : RunState host) :
    (recoverFile v clusterChain status outputPath expectedSize st).2 ≠ some .divergence := by
  unfold recoverFile
  split
  · exact fun h => by cases h
  · exact fun h => by cases h

variable {v}

theorem analysisBytesPerCluster_eq (hlt : v.bytesPerCluster.toNat < 2 ^ 32) :
    v.analysisBytesPerCluster.toNat = v.bytesPerCluster.toNat := by
  rw [v.bytesPerCluster_toNat] at hlt ⊢
  exact (UInt32.toNat_mul _ _).trans (Nat.mod_eq_of_lt hlt)

section
variable (hpos : 0 < v.bytesPerCluster.toNat) (hlt : v.bytesPerCluster.toNat < 2 ^ 32)
include hpos hlt

theorem analysisBytesPerCluster_ne_zero : v.analysisBytesPerCluster ≠ 0 := by
  intro h
  rw [← analysisBytesPerCluster_eq hlt, h] at hpos
  exact absurd hpos (by decide)

theorem analysisReturns_iff {startCluster : UInt32} {size : UInt64} :
    AnalysisReturns v.getNextCluster v.analysisBytesPerCluster size startCluster ↔
      size.toNat + v.bytesPerCluster.toNat ≤ 2 ^ 64 ∨ Leaves v.getNextCluster startCluster := by
  unfold AnalysisReturns WalkEnds
  rw [analysisBytesPerCluster_eq hlt]
  exact and_iff_right (analysisBytesPerCluster_ne_zero hpos hlt)

/-- A file that is processed is recovered alike in both runs exactly when the analysis returns. -/
theorem agrees_iff_returns {info : FileInfo} {st : RunState host} (hskip : isSkipped config info = false)
    (hends : renamingEnds st.files info.fileName config.outputFolder = true) :
    Agrees (processFileForRecovery v { config with recover := true, analyze := true } info st)
        (processFileForRecovery v { config with recover := true, analyze := false } info st) ↔
      AnalysisReturns v.getNextCluster v.analysisBytesPerCluster info.fileSize info.cluster := by
  let outputPath := getOutputPath st.files info.fileName config.outputFolder
  obtain ⟨status, hplain, hprogress⟩ := validateClusterChain_plain_eq v
    { config with recover := true, analyze := false } rfl (startStatus v info.fileSize) info.cluster info.fileSize
    outputPath false st.analysis
  obtain ⟨st₁, hfiles, hrun⟩ := processFileForRecovery_eq v { config with recover := true, analyze := false } hskip
    hends rfl hplain
  rw [hrun]
  let ctx := v.chainContext { config with recover := true, analyze := true }
  have hchain : (validateClusterChain v { config with recover := true, analyze := true }
      (startStatus v info.fileSize) info.cluster info.fileSize outputPath false st.analysis).1 =
        chainFrom v.getNextCluster (startStatus v info.fileSize).expectedClusters.toNat info.cluster :=
    validateClusterChain_fst ctx _ _ _ _ _ _ _
  by_cases hreturns : AnalysisReturns v.getNextCluster v.analysisBytesPerCluster info.fileSize info.cluster
  · refine iff_of_true ?_ hreturns
    obtain ⟨hasOverwrite, analysis, -, hok⟩ := @validateClusterChain_of_returns ctx info.cluster
      (v.expectedClusters info.fileSize) info.fileSize outputPath.filename false rfl
      (fun hne => .inr (v.analysisBytesPerCluster_dvd hne)) (v.overwriteClusters info.fileSize) st.analysis hreturns
    obtain ⟨st₂, hfiles', hrun'⟩ := processFileForRecovery_eq v { config with recover := true, analyze := true } hskip
      hends rfl (Prod.ext hchain hok)
    rw [hrun']
    exact recoverFile_agrees v ((finalStatus_progress ..).trans hprogress.symm) (hfiles'.trans hfiles.symm) _ _ _
  · refine iff_of_false (fun hagrees => ?_) hreturns
    obtain ⟨abort, herror, hdiverges⟩ := @validateClusterChain_of_not_returns ctx info.cluster
      (v.expectedClusters info.fileSize) info.fileSize outputPath.filename false rfl
      (fun hne => .inr (v.analysisBytesPerCluster_dvd hne)) (v.overwriteClusters info.fileSize) st.analysis hreturns
    obtain rfl := hdiverges (analysisBytesPerCluster_ne_zero hpos hlt)
    have hended := hagrees.ended
    rw [processFileForRecovery_abort v { config with recover := true, analyze := true } hskip hends
      (Prod.ext hchain herror)] at hended
    exact recoverFile_ended v _ _ _ _ _ hended.symm

theorem processFileForRecovery_agrees_iff (info : FileInfo) (st : RunState host) :
    Agrees (processFileForRecovery v { config with recover := true, analyze := true } info st)
        (processFileForRecovery v { config with recover := true, analyze := false } info st) ↔
      isSkipped config info = true ∨ renamingEnds st.files info.fileName config.outputFolder = false ∨
        info.fileSize.toNat + v.bytesPerCluster.toNat ≤ 2 ^ 64 ∨ Leaves v.getNextCluster info.cluster := by
  have hstops := fun outcome => @Agrees.of_const host
    (fun analyze => processFileForRecovery v { config with recover := true, analyze } info st) outcome
  cases hskip : isSkipped config info with
  | true => exact iff_of_true (hstops (st, none) fun _ => if_pos hskip) (.inl rfl)
  | false =>
    cases hends : renamingEnds st.files info.fileName config.outputFolder with
    | false =>
      refine iff_of_true (hstops (st, some .undefined) fun _ => (if_neg (Bool.not_eq_true _ ▸ hskip)).trans
        (if_pos ?_)) (.inr (.inl rfl))
      rw [hends]
      rfl
    | true =>
      rw [agrees_iff_returns config hpos hlt hskip hends, or_iff_right Bool.false_ne_true,
        or_iff_right (fun h => by cases h), ← analysisReturns_iff hpos hlt]

end

end

end ExFAT

/-! ## Both engines -/

/-- On FAT32 the analysis never changes what is recovered. On exFAT it does where it does not
return. -/
theorem analysis_harmless_iff {host : Host} (config : Config) (st : RunState host) :
    (∀ (v : FAT32.Volume) (info : FAT32.FileInfo),
      Agrees (FAT32.processFileForRecovery v { config with recover := true, analyze := true } info st)
        (FAT32.processFileForRecovery v { config with recover := true, analyze := false } info st)) ∧
    ∀ (v : ExFAT.Volume) (info : ExFAT.FileInfo), 0 < v.bytesPerCluster.toNat → v.bytesPerCluster.toNat < 2 ^ 32 →
      (Agrees (ExFAT.processFileForRecovery v { config with recover := true, analyze := true } info st)
          (ExFAT.processFileForRecovery v { config with recover := true, analyze := false } info st) ↔
        ExFAT.isSkipped config info = true ∨ renamingEnds st.files info.fileName config.outputFolder = false ∨
          info.fileSize.toNat + v.bytesPerCluster.toNat ≤ 2 ^ 64 ∨ Leaves v.getNextCluster info.cluster) :=
  ⟨fun v info => FAT32.processFileForRecovery_agrees v config info st,
    fun _ info hpos hlt => ExFAT.processFileForRecovery_agrees_iff config hpos hlt info st⟩

theorem analysis_harmless_small :
    Agrees (ExFAT.processFileForRecovery (ExFAT.smallVolume []) { recover := true, analyze := true }
        ⟨1, wide "A.TXT", 9, 4⟩ ({ files := ∅ } : RunState plainHost))
      (ExFAT.processFileForRecovery (ExFAT.smallVolume []) { recover := true, analyze := false }
        ⟨1, wide "A.TXT", 9, 4⟩ ({ files := ∅ } : RunState plainHost)) :=
  ((analysis_harmless_iff {} _).2 (ExFAT.smallVolume []) ⟨1, wide "A.TXT", 9, 4⟩ (by decide) (by decide)).mpr
    (.inr (.inr (.inl (by decide))))

/-- As many sectors of 512 bytes as 64 bits count bytes, two to a cluster. The entry of cluster 4 is
4 where the engine looks it up. -/
def hugeVolume : ExFAT.Volume where
  device := .ofSectors [(4, List.replicate 16 0 ++ [4, 0, 0, 0])] 512
  bootSector := { ExFAT.smallBoot with volumeLength := 0x7FFFFFFFFFFFFF, sectorsPerClusterShift := 1 }
  pastEnd := fun _ => 0
  bytesPerSectorShift_lt := by decide
  sectorsPerClusterShift_lt := by decide

example : hugeVolume.isValidDeletedEntry 4 0xFFFFFFFFFFFFFE00 = true := by decide +kernel

/-- A file of nearly `2 ^ 64` bytes in that cluster: one run writes an empty file, the analysing one
never ends. -/
theorem analysis_changes_recovery :
    ¬ ∀ (host : Host) (config : Config) (st : RunState host),
      (∀ (v : FAT32.Volume) (info : FAT32.FileInfo),
        Agrees (FAT32.processFileForRecovery v { config with recover := true, analyze := true } info st)
          (FAT32.processFileForRecovery v { config with recover := true, analyze := false } info st)) ∧
      ∀ (v : ExFAT.Volume) (info : ExFAT.FileInfo), 0 < v.bytesPerCluster.toNat → v.bytesPerCluster.toNat < 2 ^ 32 →
        Agrees (ExFAT.processFileForRecovery v { config with recover := true, analyze := true } info st)
          (ExFAT.processFileForRecovery v { config with recover := true, analyze := false } info st) := by
  intro h
  have hlinked : hugeVolume.getNextCluster 4 = 4 := by decide +kernel
  have hagrees := (h plainHost {} { files := ∅ }).2 hugeVolume ⟨1, wide "D", 0xFFFFFFFFFFFFFE00, 4⟩ (by decide) (by decide)
  rw [ExFAT.processFileForRecovery_agrees_iff {} (by decide) (by decide)] at hagrees
  rcases hagrees with hskip | hends | hfits | ⟨i, hleaves⟩
  · exact absurd hskip (by decide +kernel)
  · exact absurd hends (by decide)
  · exact absurd hfits (by decide +kernel)
  · rw [Function.iterate_fixed hlinked] at hleaves
    exact hleaves (by decide)

end DataRecovery
