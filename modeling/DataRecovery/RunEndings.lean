import DataRecovery.RunReturns

/-!
# How a run can fail

A run that does not return is ended by an answer of the user, by the scan, by the work on a
file, or by running out of numbers for a name. On a FAT32 drive work on a file takes an output
that cannot be created: whatever is on the drive, it meets no undefined operation else and no
loop that goes on for ever.
-/

namespace DataRecovery

def EndedByAnswer {host : Host} (config : Config) (files : Files host) (input : List UInt8) (abort : Abort) : Prop :=
  ∃ isOpen, (openLogFile config files).1 = .ok isOpen ∧
    (proceedToScan (.ok isOpen) input = .error abort ∨
      ∃ rest, proceedToScan (.ok isOpen) input = .ok rest ∧
        (readSelection none rest = .error abort ∨ readSelection none rest = .ok .exit ∧ abort = .exit 0))

/-- All the names that `getOutputPath` can give are taken, so that its counter overflows. -/
structure OutOfNumbers {host : Host} (files : Files host) (fullName folder : WString) (abort : Abort) : Prop where
  taken : AllTaken files fullName folder
  abort_eq : abort = .undefined

theorem outOfNumbers_of_not_ends {host : Host} {files : Files host} {fullName folder : WString} {abort : Abort}
    (hends : renamingEnds files fullName folder = false) (habort : some Abort.undefined = some abort) :
    OutOfNumbers files fullName folder abort where
  taken := by
    by_cases hdotted : Dotted fullName
    · exact not_not.mp fun hsome => Bool.eq_false_iff.mp hends ((renamingEnds_iff hdotted).mpr hsome)
    · cases hends.symm.trans (renamingEnds_of_not_dotted hdotted)
  abort_eq := (Option.some.inj habort).symm

theorem openLogFile_error {host : Host} {config : Config} {files : Files host} {abort : Abort}
    (h : (openLogFile config files).1 = .error abort) :
    OutOfNumbers files config.logFile (logFolderOf config) abort := by
  unfold openLogFile at h
  split at h
  · dsimp only at h
    split at h
    · rename_i hends
      exact outOfNumbers_of_not_ends ((Bool.not_eq_true' _).mp hends) (congrArg some (Except.error.inj h))
    · split at h
      · cases h
      · cases h
  · cases h

structure NotCreated (host : Host) (config : Config) (abort : Abort) : Prop where
  recover : config.recover = true
  refused : ∃ name, host.canCreate ⟨config.outputFolder, name⟩ = false
  abort_eq : abort = .exception "[-] Failed to create output file."

/-- The files before the one that ends the run have been worked on. -/
theorem processAll_aborts {host : Host} {ι : Type} {process : ι → RunState host → Outcome host} {abort : Abort} :
    ∀ {files : List ι} {st : RunState host}, (processAll process files st).2 = some abort →
      ∃ pre file mid, pre ++ [file] <+: files ∧ processAll process pre st = (mid, none) ∧
        (process file mid).2 = some abort
  | file :: rest, st, h => by
    cases hstep : process file st with
    | mk mid ending =>
      rw [processAll, hstep] at h
      cases ending with
      | none =>
        obtain ⟨pre, file', mid', hpre, hrun, hmid⟩ := processAll_aborts h
        refine ⟨file :: pre, file', mid', List.prefix_cons_inj file |>.mpr hpre, ?_, hmid⟩
        rw [processAll, hstep]
        exact hrun
      | some abort' =>
        exact ⟨[], file, st, ⟨rest, rfl⟩, rfl, (congrArg Prod.snd hstep).trans h⟩

namespace Engine
variable {host : Host} {config : Config} {ι : Type} (engine : Engine host config ι)

def EndsAt (recoveryList : List ι) (st : RunState host) (abort : Abort) (file : ι) (mid : RunState host) : Prop :=
  ∃ pre, (pre ++ [file]).Sublist recoveryList ∧ processAll engine.processFileForRecovery pre st = (mid, none) ∧
    (engine.processFileForRecovery file mid).2 = some abort

theorem endsAt_of_processAll {recoveryList selected : List ι} {st : RunState host} {abort : Abort}
    (hsub : selected.Sublist recoveryList) (h : (processAll engine.processFileForRecovery selected st).2 = some abort) :
    ∃ file mid, engine.EndsAt recoveryList st abort file mid := by
  obtain ⟨pre, file, mid, hpre, hrun, hmid⟩ := processAll_aborts h
  exact ⟨file, mid, pre, hpre.sublist.trans hsub, hrun, hmid⟩

theorem recoverPartition_aborts {input : List UInt8} {recoveryList : List ι} {st : RunState host} {abort : Abort}
    (h : (engine.recoverPartition input recoveryList st).2 = some abort) :
    (readSelection none input = .error abort ∨ readSelection none input = .ok .exit ∧ abort = .exit 0) ∨
      ∃ file mid, engine.EndsAt recoveryList st abort file mid := by
  unfold recoverPartition askFilesToRecover at h
  split at h
  · cases h
  · split at h
    · cases hselection : readSelection none input with
      | error abort' =>
        rw [hselection] at h
        exact .inl (.inl (congrArg Except.error (Option.some.inj h)))
      | ok selection =>
        rw [hselection] at h
        cases selection with
        | exit => exact .inl (.inr ⟨rfl, (Option.some.inj h).symm⟩)
        | all => exact .inr (engine.endsAt_of_processAll (List.Sublist.refl _) h)
        | ids fileIdVector => exact .inr (engine.endsAt_of_processAll List.filter_sublist h)
    · exact .inr (engine.endsAt_of_processAll (List.Sublist.refl _) h)

theorem startRecovery_aborts {input : List UInt8} {st : RunState host} {abort : Abort}
    (h : (engine.startRecovery .logical input st).2 = some abort) :
    EndedByAnswer config st.files input abort ∨ OutOfNumbers st.files config.logFile (logFolderOf config) abort ∨
      engine.scan = .error abort ∨ ∃ recoveryList, engine.scan = .ok recoveryList ∧
        ∃ file mid, engine.EndsAt recoveryList { st with files := (openLogFile config st.files).2 } abort file mid := by
  unfold startRecovery scanForDeletedFiles at h
  rw [if_pos rfl] at h
  dsimp only at h
  unfold EndedByAnswer
  cases hopen : (openLogFile config st.files).1 with
  | error abort' =>
    rw [hopen] at h
    cases h
    exact .inr (.inl (openLogFile_error hopen))
  | ok isOpen =>
    rw [hopen] at h
    cases hproceed : proceedToScan (.ok isOpen) input with
    | error abort' =>
      rw [hproceed] at h
      exact .inl ⟨isOpen, rfl, .inl (hproceed.trans (congrArg Except.error (Option.some.inj h)))⟩
    | ok rest =>
      cases hscan : engine.scan with
      | error abort' =>
        rw [hproceed, hscan] at h
        exact .inr (.inr (.inl (congrArg Except.error (Option.some.inj h))))
      | ok recoveryList =>
        rw [hproceed, hscan] at h
        rcases engine.recoverPartition_aborts h with hanswer | hfile
        · exact .inl ⟨isOpen, rfl, .inr ⟨rest, hproceed, hanswer⟩⟩
        · exact .inr (.inr (.inr ⟨recoveryList, rfl, hfile⟩))

/-- The numbers run out for the log file, or for the output of a file that the run has got to. -/
def RunsOutOfNumbers (st : RunState host) (abort : Abort) : Prop :=
  OutOfNumbers st.files config.logFile (logFolderOf config) abort ∨
    ∃ recoveryList file mid, engine.scan = .ok recoveryList ∧
      engine.EndsAt recoveryList { st with files := (openLogFile config st.files).2 } abort file mid ∧
      OutOfNumbers mid.files (engine.fullName file) config.outputFolder abort

/-- What ends a run, if what can end the work on a file is known. -/
theorem endings {P : ι → Prop} {input : List UInt8} {st : RunState host} {abort : Abort}
    (h : (engine.startRecovery .logical input st).2 = some abort)
    (hstep : ∀ recoveryList, engine.scan = .ok recoveryList → ∀ file ∈ recoveryList, ∀ mid : RunState host,
      (engine.processFileForRecovery file mid).2 = some abort →
        P file ∨ OutOfNumbers mid.files (engine.fullName file) config.outputFolder abort) :
    EndedByAnswer config st.files input abort ∨ engine.RunsOutOfNumbers st abort ∨ engine.scan = .error abort ∨
      ∃ recoveryList, engine.scan = .ok recoveryList ∧ ∃ file ∈ recoveryList, P file := by
  rcases engine.startRecovery_aborts h with hanswer | hlog | hscan | ⟨recoveryList, hlist, file, mid, hends⟩
  · exact .inl hanswer
  · exact .inr (.inl (.inl hlog))
  · exact .inr (.inr (.inl hscan))
  · have ⟨pre, hsub, _, hmid⟩ := hends
    have hfile := hsub.subset (List.mem_append_right pre (List.mem_singleton_self file))
    rcases hstep recoveryList hlist file hfile mid hmid with hfails | htaken
    · exact .inr (.inr (.inr ⟨recoveryList, hlist, file, hfile, hfails⟩))
    · exact .inr (.inl (.inr ⟨recoveryList, file, mid, hlist, hends, htaken⟩))

end Engine

/-! ## The scan -/

section
variable {config : Config} {host : Host} {abort : Abort}

theorem FAT32.engine_scan_error {v : Volume} {iswalnum : UInt16 → Bool} {stack : Nat}
    (h : (FAT32.engine host config v iswalnum stack).scan = .error abort) :
    scanRoot v config iswalnum stack {} = none ∧ abort = .stackOverflow := by
  unfold FAT32.engine at h
  dsimp only at h
  split at h
  · cases h
  · rename_i hscan
    cases h
    exact ⟨hscan, rfl⟩

theorem ExFAT.engine_scan_error {v : Volume} {stack : Nat} (h : (ExFAT.engine host config v stack).scan = .error abort) :
    scanRoot v config stack {} = none ∧ abort = .stackOverflow := by
  unfold ExFAT.engine at h
  dsimp only at h
  split at h
  · cases h
  · rename_i hscan
    cases h
    exact ⟨hscan, rfl⟩

theorem NTFS.engine_scan_error {v : Volume} {rounds : Nat} (h : (NTFS.engine host config v rounds).scan = .error abort) :
    ∃ fault, scanMFT v rounds {} = .error fault ∧ abort = fault.abort := by
  unfold NTFS.engine at h
  dsimp only at h
  split at h
  · cases h
  · rename_i fault hscan
    cases h
    exact ⟨fault, hscan, rfl⟩

end

/-! ## Working on one file -/

section
variable {config : Config} {host : Host} {abort : Abort}

theorem notCreated_of_refused {st : RunState host} {fullName : WString} (hrec : config.recover = true)
    (hends : renamingEnds st.files fullName config.outputFolder = true)
    (hcreate : ¬ host.canCreate (getOutputPath st.files fullName config.outputFolder) = true)
    (h : some (Abort.exception "[-] Failed to create output file.") = some abort) : NotCreated host config abort := by
  obtain ⟨name, -, hpath⟩ := getOutputPath_named hends
  rw [hpath, Bool.not_eq_true] at hcreate
  exact ⟨hrec, ⟨name, hcreate⟩, (Option.some.inj h).symm⟩

theorem FAT32.step_aborts {v : Volume} {info : FileInfo} (hlisted : Listed v info) {st : RunState host}
    (h : (processFileForRecovery v config info st).2 = some abort) :
    NotCreated host config abort ∨ OutOfNumbers st.files info.fullName config.outputFolder abort := by
  cases hskip : isSkipped config info with
  | true =>
    unfold processFileForRecovery at h
    rw [hskip, if_pos rfl] at h
    cases h
  | false =>
    cases hends : renamingEnds st.files info.fullName config.outputFolder with
    | false =>
      unfold processFileForRecovery at h
      rw [hskip, if_neg Bool.false_ne_true, hends, Bool.not_false, if_pos rfl] at h
      exact .inr (outOfNumbers_of_not_ends hends h)
    | true =>
      obtain ⟨status, analysis, hvalidate, -⟩ := validateClusterChain_eq v config
        (startStatus v info.fileSize.toUInt32) info.cluster info.fileSize.toUInt32
        (getOutputPath st.files info.fullName config.outputFolder) false st.analysis
      rw [processFileForRecovery_validated v config hskip hends hlisted.fileSize_le hvalidate] at h
      dsimp only at h
      split at h
      · rename_i hrec
        unfold recoverFile at h
        split at h
        · cases h
        · rename_i hcreate
          exact .inl (notCreated_of_refused hrec hends hcreate h)
      · cases h

theorem ExFAT.validateClusterChain_aborts {v : Volume} {startCluster : UInt32} {size : UInt64} {outputPath : Path}
    {isExtensionPredicted : Bool} {st : AnalysisState}
    (h : (validateClusterChain v config (startStatus v size) startCluster size outputPath isExtensionPredicted st).2 =
      .error abort) :
    config.analyze = true ∧ ¬ AnalysisReturns v.getNextCluster v.analysisBytesPerCluster size startCluster ∧
      (v.analysisBytesPerCluster ≠ 0 → abort = .divergence) := by
  have hnot : ¬ (config.analyze = true → AnalysisReturns v.getNextCluster v.analysisBytesPerCluster size startCluster) :=
    fun hreturns => (validateClusterChain_returns_iff v config startCluster size outputPath isExtensionPredicted st).mpr
      hreturns abort h
  obtain ⟨hanalyze, hstays⟩ := Classical.not_imp.mp hnot
  refine ⟨hanalyze, hstays, fun hne => ?_⟩
  obtain ⟨abort', herror, hdiverges⟩ := @validateClusterChain_of_not_returns (v.chainContext config) startCluster
    (v.expectedClusters size) size outputPath.filename isExtensionPredicted hanalyze
    (fun hne => .inr (v.analysisBytesPerCluster_dvd hne)) (v.overwriteClusters size) st hstays
  cases h.symm.trans herror
  exact hdiverges hne

theorem ExFAT.step_aborts {v : Volume} {info : FileInfo} {st : RunState host}
    (h : (processFileForRecovery v config info st).2 = some abort) :
    (NotCreated host config abort ∨ config.analyze = true ∧
      ¬ AnalysisReturns v.getNextCluster v.analysisBytesPerCluster info.fileSize info.cluster ∧
        (v.analysisBytesPerCluster ≠ 0 → abort = .divergence)) ∨
      OutOfNumbers st.files info.fileName config.outputFolder abort := by
  unfold processFileForRecovery at h
  split at h
  · cases h
  · split at h
    · rename_i hends
      exact .inr (outOfNumbers_of_not_ends (by simpa using hends) h)
    · rename_i hends
      have hends : renamingEnds st.files info.fileName config.outputFolder = true := by simpa using hends
      dsimp only at h
      split at h
      · rename_i chain abort' hvalidate
        cases h
        exact .inl (.inr (validateClusterChain_aborts (congrArg Prod.snd hvalidate)))
      · split at h
        · rename_i hrec
          unfold recoverFile at h
          split at h
          · cases h
          · rename_i hcreate
            exact .inl (.inl (notCreated_of_refused hrec hends hcreate h))
        · cases h

theorem NTFS.step_aborts {v : Volume} {info : FileInfo} {st : RunState host}
    (h : (processFileForRecovery v config info st).2 = some abort) :
    (NotCreated host config abort ∨ v.driveInfo.bytesPerCluster = 0 ∧ abort = .undefined) ∨
      OutOfNumbers st.files info.fileName config.outputFolder abort := by
  unfold processFileForRecovery at h
  split at h
  · cases h
  · split at h
    · rename_i hends
      exact .inr (outOfNumbers_of_not_ends (by simpa using hends) h)
    · rename_i hends
      have hends : renamingEnds st.files info.fileName config.outputFolder = true := by simpa using hends
      dsimp only at h
      split at h
      · rename_i hzero
        exact .inl (.inr ⟨hzero, (Option.some.inj h).symm⟩)
      · split at h
        · rename_i hrec
          unfold recoverNonResidentFile recoverResidentFile at h
          split at h
          · split at h
            · cases h
            · rename_i hcreate
              exact .inl (.inl (notCreated_of_refused hrec hends hcreate h))
          · split at h
            · cases h
            · rename_i hcreate
              exact .inl (.inl (notCreated_of_refused hrec hends hcreate h))
        · cases h

end

/-- What can keep a run from returning. On FAT32 an answer can, or a stack too small for the directories, or an
output that cannot be created or numbered. On exFAT the analysis of a file can as well, and on NTFS what the MFT
holds. -/
theorem runs_fail_only (config : Config) (host : Host) (input : List UInt8) (st : RunState host) (abort : Abort) :
    (∀ (v : FAT32.Volume) (iswalnum : UInt16 → Bool) (stack : Nat),
      ((FAT32.engine host config v iswalnum stack).startRecovery .logical input st).2 = some abort →
        EndedByAnswer config st.files input abort ∨
          (FAT32.engine host config v iswalnum stack).RunsOutOfNumbers st abort ∨
          FAT32.scanRoot v config iswalnum stack {} = none ∧ abort = .stackOverflow ∨ NotCreated host config abort) ∧
    (∀ (v : ExFAT.Volume) (stack : Nat),
      (ExFAT.startRecovery host config v stack .logical input st).2 = some abort →
        EndedByAnswer config st.files input abort ∨ (ExFAT.engine host config v stack).RunsOutOfNumbers st abort ∨
          ExFAT.scanRoot v config stack {} = none ∧ abort = .stackOverflow ∨ NotCreated host config abort ∨
          config.analyze = true ∧ (v.analysisBytesPerCluster ≠ 0 → abort = .divergence) ∧
            ∃ scan, ExFAT.scanRoot v config stack {} = some scan ∧ ∃ info ∈ scan.recoveryList,
              ¬ AnalysisReturns v.getNextCluster v.analysisBytesPerCluster info.fileSize info.cluster) ∧
    (∀ (v : NTFS.Volume) (rounds : Nat),
      (NTFS.startRecovery host config v rounds .logical input st).2 = some abort →
        EndedByAnswer config st.files input abort ∨ (NTFS.engine host config v rounds).RunsOutOfNumbers st abort ∨
          (∃ fault, NTFS.scanMFT v rounds {} = .error fault ∧ abort = fault.abort) ∨ NotCreated host config abort ∨
          v.driveInfo.bytesPerCluster = 0 ∧ abort = .undefined) := by
  refine ⟨fun v iswalnum stack h => ?_, fun v stack h => ?_, fun v rounds h => ?_⟩
  · refine (Engine.endings _ h fun recoveryList hlist info hinfo mid hmid => ?_).imp_right (Or.imp_right (Or.imp
      FAT32.engine_scan_error fun ⟨_, _, _, _, hcreate⟩ => hcreate))
    obtain ⟨scan, hscan, rfl⟩ := FAT32.engine_scan hlist
    exact FAT32.step_aborts (FAT32.listed_of_scan v config iswalnum hscan hinfo) hmid
  · rcases Engine.endings _ h fun _ _ _ _ _ hmid => ExFAT.step_aborts hmid with
      hanswer | hnumbers | hscan | ⟨recoveryList, hlist, info, hinfo, hcreate | ⟨hanalyze, hstays, hdiverges⟩⟩
    · exact .inl hanswer
    · exact .inr (.inl hnumbers)
    · exact .inr (.inr (.inl (ExFAT.engine_scan_error hscan)))
    · exact .inr (.inr (.inr (.inl hcreate)))
    · obtain ⟨scan, hscan, rfl⟩ := ExFAT.engine_scan hlist
      exact .inr (.inr (.inr (.inr ⟨hanalyze, hdiverges, scan, hscan, info, hinfo, hstays⟩)))
  · rcases Engine.endings _ h fun _ _ _ _ _ hmid => NTFS.step_aborts hmid with
      hanswer | hnumbers | hscan | ⟨_, _, _, _, hcreate | hzero⟩
    · exact .inl hanswer
    · exact .inr (.inl hnumbers)
    · exact .inr (.inr (.inl (NTFS.engine_scan_error hscan)))
    · exact .inr (.inr (.inr (.inl hcreate)))
    · exact .inr (.inr (.inr (.inr hzero)))

def logHost : Host := { plainHost with canCreate := fun path => path.folder != wide "Recovered" }

theorem logHost_runs_fail :
    ((FAT32.engine logHost { recover := true } FAT32.nested (fun _ => true) 3).startRecovery .logical [byte '1']
      { files := ∅ }).2 = some (.exception "[-] Failed to create output file.") ∧
    (ExFAT.startRecovery logHost { recover := true } ExFAT.dottedVolume 1 .logical [byte '1'] { files := ∅ }).2 =
      some (.exception "[-] Failed to create output file.") ∧
    (NTFS.startRecovery logHost { recover := true } NTFS.dottedVolume 3 .logical [byte '1'] { files := ∅ }).2 =
      some (.exception "[-] Failed to create output file.") := by
  decide +kernel

theorem logHost_answers {abort : Abort} : ¬ EndedByAnswer { recover := true } (∅ : Files logHost) [byte '1'] abort := by
  have hproceed : proceedToScan (.ok true) [byte '1'] = .ok [byte '1'] := rfl
  have hselection : readSelection none [byte '1'] = .ok .all := rfl
  rintro ⟨isOpen, hopen, h⟩
  cases hopen
  rw [hproceed] at h
  rcases h with h | ⟨rest, hrest, h⟩
  · cases h
  · cases hrest
    rw [hselection] at h
    rcases h with h | ⟨h, -⟩ <;> cases h

theorem not_runsOutOfNumbers {host : Host} {config : Config} {ι : Type} {engine : Engine host config ι}
    {st : RunState host} {message : String} : ¬ engine.RunsOutOfNumbers st (.exception message) := by
  rintro (hlog | ⟨_, _, _, _, _, hfile⟩)
  · cases hlog.abort_eq
  · cases hfile.abort_eq

theorem runs_fail_only_small :
    NotCreated logHost { recover := true } (.exception "[-] Failed to create output file.") ∧
    (NotCreated logHost { recover := true } (.exception "[-] Failed to create output file.") ∨
      ∃ scan, ExFAT.scanRoot ExFAT.dottedVolume { recover := true } 1 {} = some scan ∧ ∃ info ∈ scan.recoveryList,
        ¬ AnalysisReturns ExFAT.dottedVolume.getNextCluster ExFAT.dottedVolume.analysisBytesPerCluster info.fileSize
          info.cluster) ∧
    ((∃ fault, NTFS.scanMFT NTFS.dottedVolume 3 {} = .error fault) ∨
      NotCreated logHost { recover := true } (.exception "[-] Failed to create output file.")) := by
  obtain ⟨hfat, hexfat, hntfs⟩ := logHost_runs_fail
  have hruns := runs_fail_only { recover := true } logHost [byte '1'] { files := ∅ }
    (.exception "[-] Failed to create output file.")
  refine ⟨?_, ?_, ?_⟩
  · rcases hruns.1 FAT32.nested _ 3 hfat with hanswer | hnumbers | ⟨-, hstack⟩ | hcreate
    · exact absurd hanswer logHost_answers
    · exact absurd hnumbers not_runsOutOfNumbers
    · cases hstack
    · exact hcreate
  · rcases hruns.2.1 ExFAT.dottedVolume 1 hexfat with hanswer | hnumbers | ⟨-, hstack⟩ | hcreate | ⟨-, -, hstays⟩
    · exact absurd hanswer logHost_answers
    · exact absurd hnumbers not_runsOutOfNumbers
    · cases hstack
    · exact .inl hcreate
    · exact .inr hstays
  · rcases hruns.2.2 NTFS.dottedVolume 3 hntfs with
      hanswer | hnumbers | ⟨fault, hscan, -⟩ | hcreate | ⟨-, hundefined⟩
    · exact absurd hanswer logHost_answers
    · exact absurd hnumbers not_runsOutOfNumbers
    · exact .inl ⟨fault, hscan⟩
    · exact .inr hcreate
    · cases hundefined

end DataRecovery
