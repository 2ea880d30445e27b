import DataRecovery.Findings
import DataRecovery.StoredFiles

/-!
# When a run returns

A run with `--recover` ends by itself exactly when the question about the log is answered by
going on, the scan ends, the user chooses files, each of them can be worked on, and there is a
place for each output by the time it is written.
-/

namespace DataRecovery

section
variable {host : Host} {ι : Type}

theorem processAll_cons_returns {process : ι → RunState host → Outcome host} {file : ι} {rest : List ι}
    {st : RunState host} : (processAll process (file :: rest) st).2 = none ↔
      ∃ st', process file st = (st', none) ∧ (processAll process rest st').2 = none := by
  rw [processAll]
  generalize process file st = out
  rcases out with ⟨mid, _ | abort⟩
  · constructor
    · exact fun h => ⟨mid, rfl, h⟩
    · rintro ⟨st', heq, h⟩
      cases heq
      exact h
  · constructor
    · intro h
      cases h
    · rintro ⟨st', heq, -⟩
      cases heq

variable {process : ι → RunState host → Outcome host} {skipped : ι → Bool} {name : ι → WString}
  {data : ι → List UInt8} {folder : WString} {workable : ι → Prop}

/-- Working on files returns when each of them that is not passed over is workable, and has a place. -/
theorem processAll_returns_iff (hstores : StoresFile process skipped name data folder) :
    ∀ {files : List ι} {st : RunState host},
      (∀ file ∈ files, skipped file = false → ∀ st, (process file st).2 = none ↔
        workable file ∧ HasPlace st.files (name file) folder) →
      ((processAll process files st).2 = none ↔ (∀ file ∈ files, skipped file = false → workable file) ∧
        Creatable folder (storedItems skipped name data files) st.files)
  | [], st, _ => iff_of_true rfl ⟨fun file hfile => (by cases hfile), trivial⟩
  | file :: rest, st, hsteps => by
    have hrest := fun st => @processAll_returns_iff hstores rest st fun f hf => hsteps f (List.mem_cons_of_mem _ hf)
    rw [processAll_cons_returns, List.forall_mem_cons]
    cases hskip : skipped file with
    | true =>
      rw [hstores.skips file st hskip, storedItems_cons_of_skipped hskip]
      constructor
      · rintro ⟨st', heq, hrun⟩
        cases heq
        obtain ⟨hwork, hplaces⟩ := (hrest st).mp hrun
        exact ⟨⟨fun h => (by cases h), hwork⟩, hplaces⟩
      · intro ⟨⟨_, hwork⟩, hplaces⟩
        exact ⟨st, rfl, (hrest st).mpr ⟨hwork, hplaces⟩⟩
    | false =>
      have hstep := hsteps file (List.mem_cons_self ..) hskip st
      rw [storedItems_cons hskip]
      constructor
      · intro ⟨st', heq, hrun⟩
        obtain ⟨hfile, hcreate⟩ := hstep.mp (congrArg Prod.snd heq)
        obtain ⟨hwork, hplaces⟩ := (hrest st').mp hrun
        rw [(hstores.stores hskip heq).2] at hplaces
        exact ⟨⟨fun _ => hfile, hwork⟩, hcreate, hplaces⟩
      · intro ⟨⟨hfile, hwork⟩, hcreate, hplaces⟩
        have heq := eq_of_returns (hstep.mpr ⟨hfile rfl, hcreate⟩)
        rw [← (hstores.stores hskip heq).2] at hplaces
        exact ⟨_, heq, (hrest _).mpr ⟨hwork, hplaces⟩⟩

end

namespace Engine
variable {host : Host} {config : Config} {ι : Type} (engine : Engine host config ι)

theorem recoverPartition_of_chosen {input : List UInt8} {recoveryList selected : List ι}
    (h : engine.chosen input recoveryList = some selected) (st : RunState host) :
    engine.recoverPartition input recoveryList st = processAll engine.processFileForRecovery selected st := by
  unfold chosen at h
  unfold recoverPartition
  split
  · rename_i hempty
    rw [if_pos hempty] at h
    cases h
    rfl
  · rename_i hne
    rw [if_neg hne] at h
    split
    · rename_i hask
      rw [if_pos hask] at h
      cases hanswer : askFilesToRecover engine.fileId input recoveryList with
      | error abort => rw [hanswer] at h; cases h
      | ok answer =>
        rw [hanswer] at h
        obtain rfl : answer = some selected := h
        rfl
    · rename_i hask
      rw [if_neg hask] at h
      cases h
      rfl

/-- What it takes for a run to return: that it gets to files, that those can be worked on, and that there is a
place for the data of each. -/
def Completes (workable : ι → Prop) (data : ι → List UInt8) (input : List UInt8) (files : Files host) : Prop :=
  ∃ rest recoveryList selected, proceedToScan (openLogFile config files).1 input = .ok rest ∧
    engine.scan = .ok recoveryList ∧ engine.chosen rest recoveryList = some selected ∧
    (∀ file ∈ selected, engine.isSkipped file = false → workable file) ∧
    Creatable config.outputFolder (storedItems engine.isSkipped engine.fullName data selected) (openLogFile config files).2

theorem startRecovery_returns_iff {workable : ι → Prop} {data : ι → List UInt8}
    (hstores : StoresFile engine.processFileForRecovery engine.isSkipped engine.fullName data config.outputFolder)
    (hsteps : ∀ recoveryList, engine.scan = .ok recoveryList → ∀ file ∈ recoveryList, engine.isSkipped file = false →
      ∀ st, (engine.processFileForRecovery file st).2 = none ↔
        workable file ∧ HasPlace st.files (engine.fullName file) config.outputFolder)
    (input : List UInt8) (st : RunState host) :
    (engine.startRecovery .logical input st).2 = none ↔ engine.Completes workable data input st.files := by
  have hprocess : ∀ {rest recoveryList selected}, engine.scan = .ok recoveryList →
      engine.chosen rest recoveryList = some selected → ∀ st : RunState host,
        ((processAll engine.processFileForRecovery selected st).2 = none ↔
          (∀ file ∈ selected, engine.isSkipped file = false → workable file) ∧
            Creatable config.outputFolder (storedItems engine.isSkipped engine.fullName data selected) st.files) :=
    fun hscan hchosen _ => processAll_returns_iff hstores fun file hfile =>
      hsteps _ hscan file ((engine.chosen_sublist hchosen).subset hfile)
  constructor
  · intro h
    obtain ⟨rest, recoveryList, selected, hproceed, hscan, hchosen, hrun⟩ := engine.startRecovery_returns (eq_of_returns h)
    have hreturns := (hprocess hscan hchosen _).mp (congrArg Prod.snd hrun)
    exact ⟨rest, recoveryList, selected, hproceed, hscan, hchosen, hreturns⟩
  · intro ⟨rest, recoveryList, selected, hproceed, hscan, hchosen, hreturns⟩
    unfold startRecovery scanForDeletedFiles
    rw [if_pos rfl]
    dsimp only
    rw [hproceed, hscan]
    show (engine.recoverPartition rest recoveryList _).2 = none
    rw [engine.recoverPartition_of_chosen hchosen]
    exact (hprocess hscan hchosen _).mpr hreturns

end Engine

/-! ## Working on one file -/

theorem ExFAT.validateClusterChain_returns_iff (v : Volume) (config : Config) (startCluster : UInt32) (size : UInt64)
    (outputPath : Path) (isExtensionPredicted : Bool) (st : AnalysisState) :
    (∀ abort, (validateClusterChain v config (startStatus v size) startCluster size outputPath isExtensionPredicted
        st).2 ≠ .error abort) ↔
      (config.analyze = true → AnalysisReturns v.getNextCluster v.analysisBytesPerCluster size startCluster) := by
  cases hanalyze : config.analyze with
  | false =>
    obtain ⟨status, hplain, -⟩ := validateClusterChain_plain_eq v config hanalyze (startStatus v size) startCluster size
      outputPath isExtensionPredicted st
    rw [hplain]
    exact iff_of_true (fun _ h => (by cases h)) (fun h => (by cases h))
  | true =>
    have hfit := fun hne => Or.inr (a := size.toNat + v.analysisBytesPerCluster.toNat ≤ 2 ^ 64)
      (v.analysisBytesPerCluster_dvd hne)
    constructor
    · intro hall _
      by_contra hnot
      obtain ⟨abort, herror, -⟩ := @validateClusterChain_of_not_returns (v.chainContext config) startCluster
        (v.expectedClusters size) size outputPath.filename isExtensionPredicted hanalyze hfit
        (v.overwriteClusters size) st hnot
      exact hall abort herror
    · intro hreturns abort herror
      obtain ⟨hasOverwrite, st', -, hok⟩ := @validateClusterChain_of_returns (v.chainContext config) startCluster
        (v.expectedClusters size) size outputPath.filename isExtensionPredicted hanalyze hfit
        (v.overwriteClusters size) st (hreturns rfl)
      cases hok.symm.trans herror

section
variable (config : Config) (host : Host) (hrec : config.recover = true)
include hrec

/-- A listed file of a FAT32 drive can always be worked on: the analysis ends, and the size has 32 bits. -/
theorem FAT32.step_returns_iff {v : Volume} {info : FileInfo} (hlisted : Listed v info)
    (hskip : isSkipped config info = false) (st : RunState host) :
    (processFileForRecovery v config info st).2 = none ↔
      True ∧ HasPlace st.files info.fullName config.outputFolder := by
  rw [true_and]
  constructor
  · exact (fileOutcome v config info st hskip).hasPlace hrec
  · intro ⟨hends, hcreate⟩
    exact (processFileForRecovery_files v config hskip hends hlisted.fileSize_le hrec hcreate).1

/-- Of an exFAT drive, a file can be worked on when its analysis ends. -/
theorem ExFAT.step_returns_iff (v : Volume) {info : FileInfo} (hskip : isSkipped config info = false)
    (st : RunState host) :
    (processFileForRecovery v config info st).2 = none ↔
      (config.analyze = true →
        AnalysisReturns v.getNextCluster v.analysisBytesPerCluster info.fileSize info.cluster) ∧
      HasPlace st.files info.fileName config.outputFolder := by
  rw [← ExFAT.validateClusterChain_returns_iff v config info.cluster info.fileSize
    (getOutputPath st.files info.fileName config.outputFolder) false st.analysis]
  constructor
  · intro hnone
    have hplace := (fileOutcome v config info st hskip).hasPlace hrec hnone
    refine ⟨?_, hplace⟩
    intro abort herror
    rw [processFileForRecovery_abort v config hskip hplace.1 (Prod.ext rfl herror)] at hnone
    cases hnone
  · intro ⟨hreturns, hends, hcreate⟩
    cases hvalidate : validateClusterChain v config (startStatus v info.fileSize) info.cluster info.fileSize
      (getOutputPath st.files info.fileName config.outputFolder) false st.analysis with
    | mk clusterChain result =>
      rw [hvalidate] at hreturns
      cases result with
      | error abort => exact absurd rfl (hreturns abort)
      | ok result =>
        obtain ⟨mid, -, hprocess⟩ := processFileForRecovery_eq v config hskip hends hrec hvalidate
        rw [hprocess]
        unfold recoverFile
        rw [if_pos hcreate]

/-- Of an NTFS drive, when its clusters have a size. -/
theorem NTFS.step_returns_iff (v : Volume) {info : FileInfo} (hskip : isSkipped config info = false)
    (st : RunState host) :
    (processFileForRecovery v config info st).2 = none ↔
      v.driveInfo.bytesPerCluster ≠ 0 ∧ HasPlace st.files info.fileName config.outputFolder := by
  unfold processFileForRecovery HasPlace
  rw [hskip, if_neg Bool.false_ne_true]
  cases renamingEnds st.files info.fileName config.outputFolder with
  | false => simp
  | true =>
    rw [Bool.not_true, if_neg Bool.false_ne_true]
    dsimp only
    by_cases hzero : v.driveInfo.bytesPerCluster = 0
    · rw [if_pos hzero]
      exact iff_of_false (fun h => (by cases h)) fun h => h.1 hzero
    · rw [if_neg hzero, if_pos hrec, and_iff_right hzero]
      unfold recoverNonResidentFile recoverResidentFile
      cases host.canCreate (getOutputPath st.files info.fileName config.outputFolder) with
      | true => split <;> simp
      | false => split <;> simp

/-- With files to be recovered, a run returns exactly when it gets to files, when each of them can be worked on,
and when there is a place for each output. On FAT32 every file can be worked on, whether it is analyzed or not. On
exFAT the analysis of the file has to end, and on NTFS the clusters need a size. -/
theorem runs_return_iff (input : List UInt8) (st : RunState host) :
    (∀ (v : FAT32.Volume) (iswalnum : UInt16 → Bool) (stack : Nat),
      ((FAT32.engine host config v iswalnum stack).startRecovery .logical input st).2 = none ↔
        (FAT32.engine host config v iswalnum stack).Completes (fun _ => True) (FAT32.recoveredData v) input st.files) ∧
    (∀ (v : ExFAT.Volume) (stack : Nat),
      (ExFAT.startRecovery host config v stack .logical input st).2 = none ↔
        (ExFAT.engine host config v stack).Completes
          (fun info => config.analyze = true →
            AnalysisReturns v.getNextCluster v.analysisBytesPerCluster info.fileSize info.cluster)
          (ExFAT.recoveredData v) input st.files) ∧
    (∀ (v : NTFS.Volume) (rounds : Nat),
      (NTFS.startRecovery host config v rounds .logical input st).2 = none ↔
        (NTFS.engine host config v rounds).Completes (fun _ => v.driveInfo.bytesPerCluster ≠ 0)
          (NTFS.recoveredData v) input st.files) := by
  refine ⟨fun v iswalnum stack => ?_, fun v stack => ?_, fun v rounds => ?_⟩
  · refine Engine.startRecovery_returns_iff _ (FAT32.storesFile config host hrec v) ?_ input st
    intro recoveryList hlist info hinfo hskip
    obtain ⟨scan, hscan, rfl⟩ := FAT32.engine_scan hlist
    exact FAT32.step_returns_iff config host hrec (FAT32.listed_of_scan v config iswalnum hscan hinfo) hskip
  · refine Engine.startRecovery_returns_iff _ (ExFAT.storesFile config host hrec v) ?_ input st
    intro _ _ info _ hskip
    exact ExFAT.step_returns_iff config host hrec v hskip
  · refine Engine.startRecovery_returns_iff _ (NTFS.storesFile config host hrec v) ?_ input st
    intro _ _ info _ hskip
    exact NTFS.step_returns_iff config host hrec v hskip

end

theorem runs_return_iff_small :
    (FAT32.engine plainHost { recover := true } FAT32.nestedTwo (fun _ => true) 3).Completes (fun _ => True)
      (FAT32.recoveredData FAT32.nestedTwo) [byte '1'] ∅ ∧
    (ExFAT.engine plainHost { recover := true } ExFAT.dottedVolume 1).Completes
      (fun info => false = true → AnalysisReturns ExFAT.dottedVolume.getNextCluster
        ExFAT.dottedVolume.analysisBytesPerCluster info.fileSize info.cluster)
      (ExFAT.recoveredData ExFAT.dottedVolume) [byte '1'] ∅ ∧
    (NTFS.engine plainHost { recover := true } NTFS.dottedVolume 3).Completes
      (fun _ => NTFS.dottedVolume.driveInfo.bytesPerCluster ≠ 0) (NTFS.recoveredData NTFS.dottedVolume) [byte '1'] ∅ := by
  obtain ⟨hfat, hexfat, hntfs⟩ := dotted_volumes_return
  have hruns := runs_return_iff { recover := true } plainHost rfl [byte '1'] { files := ∅ }
  exact ⟨(hruns.1 FAT32.nestedTwo _ 3).mp hfat, (hruns.2.1 ExFAT.dottedVolume 1).mp hexfat,
    (hruns.2.2 NTFS.dottedVolume 3).mp hntfs⟩

end DataRecovery
