import DataRecovery.Confirmation
import DataRecovery.KeptFiles
import DataRecovery.NTFS.Record

/-!
# What the three engines have in common

`startRecovery`, `scanForDeletedFiles` and `recoverPartition` are the same in the three engines:
the log is opened, the drive is scanned, the user is asked, and the selected files are worked on
one after the other. An engine is the scan and the work on one file.
-/

namespace DataRecovery

/-- Whether the run goes on after the log file was to be opened, and the input that is left then. -/
def proceedToScan (isOpen : Except Abort Bool) (input : List UInt8) : Except Abort (List UInt8) :=
  match isOpen with
  | .error abort => .error abort
  | .ok true => .ok input
  | .ok false =>
    match confirmProceedWithoutLogFile input with
    | .error abort => .error abort
    | .ok (false, _) => .error (.exit 1)
    | .ok (true, rest) => .ok rest

structure Engine (host : Host) (config : Config) (ι : Type) where
  fileId : ι → UInt16
  fullName : ι → WString
  isSkipped : ι → Bool
  scan : Except Abort (List ι)
  processFileForRecovery : ι → RunState host → Outcome host
  writes : WritesOutput processFileForRecovery isSkipped fullName config.outputFolder
  reads : config.recover = false → ∀ file st, (processFileForRecovery file st).1.files = st.files

namespace Engine
variable {host : Host} {config : Config} {ι : Type} (engine : Engine host config ι)

/-- The log file is opened before the scan; the result is what the scan lists, and the input that is left. -/
def scanForDeletedFiles (input : List UInt8) (st : RunState host) :
    RunState host × Except Abort (List ι × List UInt8) :=
  let (isOpen, files) := openLogFile config st.files
  ({ st with files }, do
    let input ← proceedToScan isOpen input
    let recoveryList ← engine.scan
    return (recoveryList, input))

def recoverPartition (input : List UInt8) (recoveryList : List ι) (st : RunState host) : Outcome host :=
  if recoveryList.isEmpty then (st, none)
  else if config.targetCluster = 0 && config.targetFileSize = 0 then
    match askFilesToRecover engine.fileId input recoveryList with
    | .error abort => (st, some abort)
    | .ok none => (st, some (.exit 0))
    | .ok (some selectedDeletedFiles) => processAll engine.processFileForRecovery selectedDeletedFiles st
  else processAll engine.processFileForRecovery recoveryList st

def startRecovery (driveType : DriveType) (input : List UInt8) (st : RunState host) : Outcome host :=
  if driveType = .logical then
    match engine.scanForDeletedFiles input st with
    | (st, .error abort) => (st, some abort)
    | (st, .ok (recoveryList, input)) => engine.recoverPartition input recoveryList st
  else (st, some (.exception "Unknown drive type."))

/-! ## What a run works on -/

theorem selectFilesToRecover_sublist {fileId : ι → UInt16} {selection : Selection} {recoveryList : List ι}
    {selected : List ι} (h : selectFilesToRecover fileId selection recoveryList = some selected) :
    selected.Sublist recoveryList := by
  cases selection with
  | exit => cases h
  | all => exact Option.some.inj h ▸ List.Sublist.refl _
  | ids fileIdVector => exact Option.some.inj h ▸ List.filter_sublist

theorem recoverPartition_cases (input : List UInt8) (recoveryList : List ι) (st : RunState host) :
    (∃ ending, engine.recoverPartition input recoveryList st = (st, ending)) ∨
      ∃ selected, selected.Sublist recoveryList ∧ engine.recoverPartition input recoveryList st =
        processAll engine.processFileForRecovery selected st := by
  unfold recoverPartition askFilesToRecover
  split
  · exact .inl ⟨_, rfl⟩
  · split
    · cases readSelection none input with
      | error abort => exact .inl ⟨_, rfl⟩
      | ok selection =>
        cases hselected : selectFilesToRecover engine.fileId selection recoveryList with
        | none => exact .inl ⟨some (.exit 0), by simp [Except.map, hselected]⟩
        | some selected =>
          exact .inr ⟨selected, selectFilesToRecover_sublist hselected, by simp [Except.map, hselected]⟩
    · exact .inr ⟨recoveryList, List.Sublist.refl _, rfl⟩

theorem recoverPartition_selected {input : List UInt8} {selection : Selection}
    (hselection : readSelection none input = .ok selection) {recoveryList : List ι}
    (hne : recoveryList ≠ []) (st : RunState host) :
    engine.recoverPartition input recoveryList st =
      match selectedFiles config engine.fileId selection recoveryList with
      | none => (st, some (.exit 0))
      | some selectedDeletedFiles => processAll engine.processFileForRecovery selectedDeletedFiles st := by
  unfold recoverPartition selectedFiles askFilesToRecover
  rw [if_neg (mt List.isEmpty_iff.mp hne), hselection]
  split
  · simp only [Except.map]
    cases selectFilesToRecover engine.fileId selection recoveryList <;> rfl
  · rfl

/-- After the log is opened a run ends, or it works on a part of what the scan lists. -/
theorem startRecovery_cases (input : List UInt8) (st : RunState host) :
    (∃ ending, engine.startRecovery .logical input st = ({ st with files := (openLogFile config st.files).2 }, ending)) ∨
      ∃ recoveryList selected, engine.scan = .ok recoveryList ∧ selected.Sublist recoveryList ∧
        engine.startRecovery .logical input st = processAll engine.processFileForRecovery selected
          { st with files := (openLogFile config st.files).2 } := by
  unfold startRecovery
  rw [if_pos rfl]
  unfold scanForDeletedFiles
  dsimp only
  cases proceedToScan (openLogFile config st.files).1 input with
  | error abort => exact .inl ⟨_, rfl⟩
  | ok input =>
    cases hscan : engine.scan with
    | error abort => exact .inl ⟨_, rfl⟩
    | ok recoveryList =>
      rcases engine.recoverPartition_cases input recoveryList { st with files := (openLogFile config st.files).2 } with
        ⟨ending, h⟩ | ⟨selected, hsub, h⟩
      · exact .inl ⟨ending, h⟩
      · exact .inr ⟨recoveryList, selected, rfl, hsub, h⟩

end Engine

/-! ## What a run leaves alone -/

def OutputName (fullName name : WString) : Prop := ∃ counter < INT_MAX, name = variant fullName counter

section
variable {host : Host}

theorem getOutputPath_named {files : Files host} {fullName folder : WString}
    (hends : renamingEnds files fullName folder = true) :
    ∃ name, OutputName fullName name ∧ getOutputPath files fullName folder = ⟨folder, name⟩ := by
  obtain ⟨counter, hpath, -, hfree⟩ := getOutputPath_variant files fullName folder
  exact ⟨_, ⟨counter, (hfree hends).1, rfl⟩, hpath⟩

theorem lookup_write_of_ne {files : Files host} {path : Path} {node : Node} {file : host.File}
    (h : file ≠ host.locate path) : (files.write path node).lookup file = files.lookup file :=
  AList.lookup_insert_ne h

section
variable {ι : Type} {process : ι → RunState host → Outcome host} {skipped : ι → Bool} {name : ι → WString}
  {folder : WString} (hwrites : WritesOutput process skipped name folder)
include hwrites

theorem changed_by_step {file : ι} {st : RunState host} {f : host.File}
    (hf : (process file st).1.files.lookup f ≠ st.files.lookup f) :
    ∃ n, OutputName (name file) n ∧ f = host.locate ⟨folder, n⟩ := by
  rcases hwrites.writes file st with hsame | ⟨hends, node, hwrite⟩
  · rw [hsame] at hf
    exact absurd rfl hf
  · obtain ⟨n, hn, hpath⟩ := getOutputPath_named hends
    rw [hwrite, hpath] at hf
    exact ⟨n, hn, not_imp_comm.mp lookup_write_of_ne hf⟩

/-- What differs after a run is an output of one of its files. -/
theorem changed_by_run {f : host.File} : ∀ {files : List ι} {st : RunState host},
    (processAll process files st).1.files.lookup f ≠ st.files.lookup f →
      ∃ file ∈ files, ∃ n, OutputName (name file) n ∧ f = host.locate ⟨folder, n⟩
  | [], _, hf => absurd rfl hf
  | file :: rest, st, hf => by
    by_cases hstep : (process file st).1.files.lookup f = st.files.lookup f
    · unfold processAll at hf
      generalize process file st = out at hf hstep
      rcases out with ⟨st', _ | abort⟩
      · rw [← hstep] at hf
        obtain ⟨file', hfile', hout⟩ := changed_by_run hf
        exact ⟨file', List.mem_cons_of_mem _ hfile', hout⟩
      · exact absurd hstep hf
    · exact ⟨file, List.mem_cons_self .., changed_by_step hwrites hstep⟩

end

theorem processAll_files_eq {ι : Type} {process : ι → RunState host → Outcome host}
    (h : ∀ file st, (process file st).1.files = st.files) :
    ∀ (files : List ι) (st : RunState host), (processAll process files st).1.files = st.files
  | [], _ => rfl
  | file :: rest, st => by
    have hstep := h file st
    unfold processAll
    generalize process file st = out at hstep
    rcases out with ⟨st', _ | abort⟩
    · exact (processAll_files_eq h rest st').trans hstep
    · exact hstep

theorem dotted_of_names {ι : Type} {name : ι → WString} {files : List ι} {n : Nat} {fullName : WString}
    (hdotted : Dotted fullName) (h : files.map name = List.replicate n fullName) {file : ι} (hfile : file ∈ files) :
    Dotted (name file) := by
  have hname := List.mem_map_of_mem (f := name) hfile
  rw [h] at hname
  rw [List.eq_of_mem_replicate hname]
  exact hdotted

theorem FAT32.dotted_of_scan {v : Volume} {config : Config} {iswalnum : UInt16 → Bool} {stack : Nat} {scan : ScanState}
    (hscan : scanRoot v config iswalnum stack {} = some scan) {info : FileInfo} (hinfo : info ∈ scan.recoveryList) :
    Dotted info.fullName :=
  (listed_of_scan v config iswalnum hscan hinfo).dotted

/-! ### The log file -/

def logFolderOf (config : Config) : WString := config.outputFolder ++ wide "\\" ++ config.logFolder

theorem openLogFile_cases (config : Config) (files : Files host) :
    (openLogFile config files).2 = files ∨ config.createFileDataLog = true ∧
      renamingEnds files config.logFile (logFolderOf config) = true ∧
      files.exists (getOutputPath files config.logFile (logFolderOf config)) = false ∧
        (openLogFile config files).2 =
          files.write (getOutputPath files config.logFile (logFolderOf config)) .untracked := by
  unfold openLogFile logFolderOf
  split
  · rename_i hlog
    dsimp only
    split
    · exact .inl rfl
    · rename_i hends
      split
      · split
        · exact .inl rfl
        · rename_i hfree
          exact .inr ⟨hlog, by simpa using hends, by simpa using hfree, rfl⟩
      · exact .inl rfl
  · exact .inl rfl

theorem keeps_openLogFile (config : Config) (files : Files host) : Keeps files (openLogFile config files).2 := by
  rcases openLogFile_cases config files with hsame | ⟨-, -, hfree, hwrite⟩
  · rw [hsame]
    exact Keeps.refl _
  · rw [hwrite]
    exact keeps_write hfree _

theorem changed_by_openLogFile {config : Config} {files : Files host} {f : host.File}
    (hf : (openLogFile config files).2.lookup f ≠ files.lookup f) :
    config.createFileDataLog = true ∧ ∃ n, OutputName config.logFile n ∧ f = host.locate ⟨logFolderOf config, n⟩ := by
  rcases openLogFile_cases config files with hsame | ⟨hlog, hends, -, hwrite⟩
  · rw [hsame] at hf
    exact absurd rfl hf
  · obtain ⟨n, hn, hpath⟩ := getOutputPath_named hends
    rw [hwrite, hpath] at hf
    exact ⟨hlog, n, hn, not_imp_comm.mp lookup_write_of_ne hf⟩

end

namespace Engine
variable {host : Host} {config : Config} {ι : Type} (engine : Engine host config ι)

/-- What a run changes is the log file, if there is to be one, and when files are to be recovered the outputs of
files that the scan lists. -/
theorem changed_by_startRecovery {input : List UInt8} {st : RunState host} {f : host.File}
    (hf : (engine.startRecovery .logical input st).1.files.lookup f ≠ st.files.lookup f) :
    (config.createFileDataLog = true ∧ ∃ n, OutputName config.logFile n ∧ f = host.locate ⟨logFolderOf config, n⟩) ∨
      config.recover = true ∧ ∃ recoveryList, engine.scan = .ok recoveryList ∧ ∃ file ∈ recoveryList,
        ∃ n, OutputName (engine.fullName file) n ∧ f = host.locate ⟨config.outputFolder, n⟩ := by
  by_cases hlog : (openLogFile config st.files).2.lookup f = st.files.lookup f
  · rw [← hlog] at hf
    rcases engine.startRecovery_cases input st with ⟨ending, hrun⟩ | ⟨recoveryList, selected, hscan, hsub, hrun⟩
    · rw [hrun] at hf
      exact absurd rfl hf
    · rw [hrun] at hf
      refine .inr ⟨?_, recoveryList, hscan, ?_⟩
      · by_contra hrec
        rw [processAll_files_eq (engine.reads (by simpa using hrec))] at hf
        exact hf rfl
      · obtain ⟨file, hfile, hout⟩ := changed_by_run engine.writes hf
        exact ⟨file, hsub.subset hfile, hout⟩
  · exact .inl (changed_by_openLogFile hlog)

/-- A run keeps every file, the names it lists being dotted. -/
theorem keeps_startRecovery (hdotted : ∀ recoveryList, engine.scan = .ok recoveryList →
      ∀ file ∈ recoveryList, Dotted (engine.fullName file)) (input : List UInt8) (st : RunState host) :
    Keeps st.files (engine.startRecovery .logical input st).1.files := by
  rcases engine.startRecovery_cases input st with ⟨ending, hrun⟩ | ⟨recoveryList, selected, hscan, hsub, hrun⟩
  · rw [hrun]
    exact keeps_openLogFile config st.files
  · rw [hrun]
    have hclash : ∀ file ∈ selected, ∀ st : RunState host, engine.isSkipped file = true ∨
        NoClash st.files (engine.fullName file) config.outputFolder := fun file hfile _ =>
      .inr (.inr (hdotted recoveryList hscan file (hsub.subset hfile)))
    exact (keeps_openLogFile config st.files).trans
      (keeps_run engine.writes selected { st with files := (openLogFile config st.files).2 }
        (eachStep_of_forall _ _ hclash))

end Engine

/-! ## The three engines -/

section
variable (host : Host) (config : Config)

theorem FAT32.processFileForRecovery_reads (v : Volume) (hrec : config.recover = false) (info : FileInfo)
    (st : RunState host) : (processFileForRecovery v config info st).1.files = st.files := by
  unfold processFileForRecovery
  split
  · rfl
  · split
    · rfl
    · dsimp only
      split
      · rfl
      · split
        · rfl
        · rw [hrec]
          rfl

theorem ExFAT.processFileForRecovery_reads (v : Volume) (hrec : config.recover = false) (info : FileInfo)
    (st : RunState host) : (processFileForRecovery v config info st).1.files = st.files := by
  unfold processFileForRecovery
  split
  · rfl
  · split
    · rfl
    · dsimp only
      split
      · rfl
      · rw [hrec]
        rfl

theorem NTFS.processFileForRecovery_reads (v : Volume) (hrec : config.recover = false) (info : FileInfo)
    (st : RunState host) : (processFileForRecovery v config info st).1.files = st.files := by
  unfold processFileForRecovery
  split
  · rfl
  · split
    · rfl
    · dsimp only
      split
      · rfl
      · rw [hrec]
        rfl

def FAT32.engine (v : Volume) (iswalnum : UInt16 → Bool) (stack : Nat) : Engine host config FileInfo where
  fileId := FileInfo.fileId
  fullName := FileInfo.fullName
  isSkipped := isSkipped config
  scan :=
    match scanRoot v config iswalnum stack {} with
    | some scan => .ok scan.recoveryList
    | none => .error .stackOverflow
  processFileForRecovery := FAT32.processFileForRecovery v config
  writes := FAT32.writesOutput v config host
  reads := FAT32.processFileForRecovery_reads host config v

def ExFAT.engine (v : Volume) (stack : Nat) : Engine host config FileInfo where
  fileId := FileInfo.fileId
  fullName := FileInfo.fileName
  isSkipped := isSkipped config
  scan :=
    match scanRoot v config stack {} with
    | some scan => .ok scan.recoveryList
    | none => .error .stackOverflow
  processFileForRecovery := ExFAT.processFileForRecovery v config
  writes := ExFAT.writesOutput v config host
  reads := ExFAT.processFileForRecovery_reads host config v

def Fault.abort : Fault → Abort
  | .endless => .divergence
  | _ => .undefined

def NTFS.engine (v : Volume) (rounds : Nat) : Engine host config FileInfo where
  fileId := FileInfo.fileId
  fullName := FileInfo.fileName
  isSkipped := isSkipped config
  scan :=
    match scanMFT v rounds {} with
    | .ok scan => .ok scan.recoveryList
    | .error fault => .error fault.abort
  processFileForRecovery := NTFS.processFileForRecovery v config
  writes := NTFS.writesOutput v config host
  reads := NTFS.processFileForRecovery_reads host config v

section
variable {host config}

theorem FAT32.engine_scan {v : Volume} {iswalnum : UInt16 → Bool} {stack : Nat} {recoveryList : List FileInfo}
    (h : (FAT32.engine host config v iswalnum stack).scan = .ok recoveryList) :
    ∃ scan, scanRoot v config iswalnum stack {} = some scan ∧ scan.recoveryList = recoveryList := by
  unfold FAT32.engine at h
  dsimp only at h
  split at h
  · rename_i scan hscan
    exact ⟨scan, hscan, Except.ok.inj h⟩
  · cases h

theorem ExFAT.engine_scan {v : Volume} {stack : Nat} {recoveryList : List FileInfo}
    (h : (ExFAT.engine host config v stack).scan = .ok recoveryList) :
    ∃ scan, scanRoot v config stack {} = some scan ∧ scan.recoveryList = recoveryList := by
  unfold ExFAT.engine at h
  dsimp only at h
  split at h
  · rename_i scan hscan
    exact ⟨scan, hscan, Except.ok.inj h⟩
  · cases h

theorem NTFS.engine_scan {v : Volume} {rounds : Nat} {recoveryList : List FileInfo}
    (h : (NTFS.engine host config v rounds).scan = .ok recoveryList) :
    ∃ scan, scanMFT v rounds {} = .ok scan ∧ scan.recoveryList = recoveryList := by
  unfold NTFS.engine at h
  dsimp only at h
  split at h
  · rename_i scan hscan
    exact ⟨scan, hscan, Except.ok.inj h⟩
  · cases h

end

def ExFAT.startRecovery (v : Volume) (stack : Nat) (driveType : DriveType) (input : List UInt8) (st : RunState host) :
    Outcome host :=
  (ExFAT.engine host config v stack).startRecovery driveType input st

def NTFS.startRecovery (v : Volume) (rounds : Nat) (driveType : DriveType) (input : List UInt8) (st : RunState host) :
    Outcome host :=
  (NTFS.engine host config v rounds).startRecovery driveType input st

variable {host config}

/-- On an input that can be read to its end, the engine does what `startRecovery` does with the answers in it. -/
theorem FAT32.startRecovery_answered (v : Volume) (iswalnum : UInt16 → Bool) (stack : Nat) {input rest : List UInt8}
    {selection : Selection} {st : RunState host} (hproceed : proceedToScan (openLogFile config st.files).1 input = .ok rest)
    (hselection : readSelection none rest = .ok selection) :
    (FAT32.engine host config v iswalnum stack).startRecovery .logical input st =
      startRecovery v config .logical iswalnum stack { proceedWithoutLog := true, selection } st := by
  have hasked : ∀ (recoveryList : List FileInfo) (st : RunState host),
      (FAT32.engine host config v iswalnum stack).recoverPartition rest recoveryList st =
        recoverPartition v config selection recoveryList st := by
    intro recoveryList st
    cases recoveryList with
    | nil => rfl
    | cons first others =>
      have hne := List.cons_ne_nil first others
      refine ((FAT32.engine host config v iswalnum stack).recoverPartition_selected hselection hne st).trans ?_
      unfold recoverPartition
      rw [if_neg hne]
      have hsame : selectedFiles config (FAT32.engine host config v iswalnum stack).fileId selection (first :: others) =
          selectedFiles config FileInfo.fileId selection (first :: others) := rfl
      rw [hsame]
      cases selectedFiles config FileInfo.fileId selection (first :: others) <;> rfl
  unfold Engine.startRecovery Engine.scanForDeletedFiles startRecovery scanForDeletedFiles
  rw [if_pos rfl, if_pos rfl]
  dsimp only
  rw [hproceed]
  cases hopen : (openLogFile config st.files).1 with
  | error abort => rw [hopen] at hproceed; cases hproceed
  | ok isOpen =>
    dsimp only
    rw [Bool.not_true, Bool.and_false, if_neg Bool.false_ne_true]
    cases hscan : scanRoot v config iswalnum stack {} with
    | none => simp [FAT32.engine, hscan, bind, Except.bind]
    | some scan =>
      simp only [FAT32.engine, hscan, bind, Except.bind]
      exact hasked scan.recoveryList _

end

end DataRecovery
