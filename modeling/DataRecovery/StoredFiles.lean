import DataRecovery.Engine

/-!
# What a run that returns has stored

A run that ends by itself, with files to be recovered, has stored every file it was to work
on: each at a place of its own, where there was no file before. Nothing else has changed.
-/

namespace DataRecovery

section
variable {host : Host} {ι : Type}

/-- The items are stored at these places in order: at pairwise different ones, which were free before, and at
nothing but these. -/
structure StoredAt (before after : Files host) (folder : WString) (items : List (WString × List UInt8))
    (places : List host.File) : Prop where
  nodup : places.Nodup
  free : ∀ place ∈ places, before.lookup place = none
  holds : List.Forall₂ (fun item place => (∃ n, OutputName item.1 n ∧ place = host.locate ⟨folder, n⟩) ∧
    after.lookup place = some (.data item.2)) items places
  others : ∀ f, f ∉ places → after.lookup f = before.lookup f

/-- A step that returns has stored its file, unless it passes it over. -/
structure StoresFile (process : ι → RunState host → Outcome host) (skipped : ι → Bool) (name : ι → WString)
    (data : ι → List UInt8) (folder : WString) : Prop where
  skips : ∀ file st, skipped file = true → process file st = (st, none)
  stores : ∀ {file st st'}, skipped file = false → process file st = (st', none) →
    HasPlace st.files (name file) folder ∧
      st'.files = st.files.write (getOutputPath st.files (name file) folder) (.data (data file))

theorem StoredAt.nil (files : Files host) (folder : WString) : StoredAt files files folder [] [] where
  nodup := List.nodup_nil
  free := fun place hplace => by cases hplace
  holds := .nil
  others := fun _ _ => rfl

theorem lookup_write (files : Files host) (path : Path) (node : Node) :
    (files.write path node).lookup (host.locate path) = some node :=
  AList.lookup_insert files

/-- A file that is stored before the others, at a free place. -/
theorem StoredAt.cons {files after : Files host} {folder name n : WString} {data : List UInt8}
    {items : List (WString × List UInt8)} {places : List host.File} (hname : OutputName name n)
    (hfree : files.lookup (host.locate ⟨folder, n⟩) = none)
    (h : StoredAt (files.write ⟨folder, n⟩ (.data data)) after folder items places) :
    StoredAt files after folder ((name, data) :: items) (host.locate ⟨folder, n⟩ :: places) := by
  have hstored := lookup_write files ⟨folder, n⟩ (.data data)
  have hnew : host.locate ⟨folder, n⟩ ∉ places := by
    intro hmem
    rw [h.free _ hmem] at hstored
    cases hstored
  refine ⟨List.nodup_cons.mpr ⟨hnew, h.nodup⟩, fun place hplace => ?_, .cons ⟨⟨n, hname, rfl⟩, ?_⟩ h.holds, fun f hf => ?_⟩
  · rcases List.mem_cons.mp hplace with rfl | hplace
    · exact hfree
    · rw [← lookup_write_of_ne fun heq => hnew (heq ▸ hplace)]
      exact h.free place hplace
  · rw [h.others _ hnew]
    exact hstored
  · rw [List.mem_cons, not_or] at hf
    rw [h.others f hf.2, lookup_write_of_ne hf.1]

/-- The files stored one after the other, each at the path that `getOutputPath` gives it by then. -/
def storeAll (folder : WString) (items : List (WString × List UInt8)) (files : Files host) : Files host :=
  items.foldl (fun files item => files.write (getOutputPath files item.1 folder) (.data item.2)) files

/-- There is a place for each item by the time that `storeAll` stores it. -/
def Creatable (folder : WString) : List (WString × List UInt8) → Files host → Prop
  | [], _ => True
  | item :: items, files =>
    HasPlace files item.1 folder ∧ Creatable folder items (files.write (getOutputPath files item.1 folder) (.data item.2))

theorem storedAt_storeAll (folder : WString) : ∀ {items : List (WString × List UInt8)} {files : Files host},
    (∀ item ∈ items, Dotted item.1) → Creatable folder items files →
      ∃ places, StoredAt files (storeAll folder items files) folder items places
  | [], files, _, _ => ⟨[], .nil files folder⟩
  | (name, data) :: items, files, hdotted, ⟨⟨hends, _⟩, hcreatable⟩ => by
    obtain ⟨n, hn, hpath⟩ := getOutputPath_named hends
    have hfresh := getOutputPath_fresh (hdotted _ (List.mem_cons_self ..)) hends
    obtain ⟨places, hplaces⟩ :=
      storedAt_storeAll folder (fun item hitem => hdotted item (List.mem_cons_of_mem _ hitem)) hcreatable
    rw [hpath] at hplaces hfresh
    have hstart : storeAll folder ((name, data) :: items) files =
        storeAll folder items (files.write ⟨folder, n⟩ (.data data)) := by
      rw [← hpath]
      rfl
    rw [hstart]
    exact ⟨_, hplaces.cons hn (Option.not_isSome_iff_eq_none.mp (by rw [Bool.not_eq_true]; exact hfresh))⟩

variable {process : ι → RunState host → Outcome host} {skipped : ι → Bool} {name : ι → WString}
  {data : ι → List UInt8} {folder : WString}

def storedItems (skipped : ι → Bool) (name : ι → WString) (data : ι → List UInt8) (files : List ι) :
    List (WString × List UInt8) :=
  (files.filter fun file => !skipped file).map fun file => (name file, data file)

theorem storedItems_cons_of_skipped {file : ι} {rest : List ι} (h : skipped file = true) :
    storedItems skipped name data (file :: rest) = storedItems skipped name data rest := by
  unfold storedItems
  rw [List.filter_cons_of_neg (by rw [h]; exact Bool.false_ne_true)]

theorem storedItems_cons {file : ι} {rest : List ι} (h : skipped file = false) :
    storedItems skipped name data (file :: rest) = (name file, data file) :: storedItems skipped name data rest := by
  unfold storedItems
  rw [List.filter_cons_of_pos (by rw [h]; rfl)]
  rfl

/-- Working on files that all return stores them one after the other, each in its place. -/
theorem files_of_processAll (h : StoresFile process skipped name data folder) : ∀ {files : List ι} {st st' : RunState host},
    processAll process files st = (st', none) →
      Creatable folder (storedItems skipped name data files) st.files ∧
        st'.files = storeAll folder (storedItems skipped name data files) st.files
  | [], st, st', hrun => by
    cases hrun
    exact ⟨trivial, rfl⟩
  | file :: rest, st, st', hrun => by
    unfold processAll at hrun
    split at hrun
    · cases hrun
    · rename_i mid hstep
      have hrest := files_of_processAll h hrun
      cases hskip : skipped file with
      | true =>
        rw [h.skips file st hskip] at hstep
        cases hstep
        rw [storedItems_cons_of_skipped hskip]
        exact hrest
      | false =>
        obtain ⟨hplace, hfiles⟩ := h.stores hskip hstep
        rw [hfiles] at hrest
        rw [storedItems_cons hskip]
        exact ⟨⟨hplace, hrest.1⟩, hrest.2⟩

theorem dotted_storedItems {files : List ι} (h : ∀ file ∈ files, Dotted (name file)) :
    ∀ item ∈ storedItems skipped name data files, Dotted item.1 := by
  intro item hitem
  obtain ⟨file, hfile, rfl⟩ := List.mem_map.mp hitem
  exact h file (List.mem_of_mem_filter hfile)

end

/-! ## The engines -/

namespace Engine
variable {host : Host} {config : Config} {ι : Type} (engine : Engine host config ι)

def chosen (input : List UInt8) (recoveryList : List ι) : Option (List ι) :=
  if recoveryList.isEmpty then some []
  else if config.targetCluster = 0 && config.targetFileSize = 0 then
    match askFilesToRecover engine.fileId input recoveryList with
    | .error _ => none
    | .ok selected => selected
  else some recoveryList

theorem recoverPartition_returns {input : List UInt8} {recoveryList : List ι} {st st' : RunState host}
    (h : engine.recoverPartition input recoveryList st = (st', none)) :
    ∃ selected, engine.chosen input recoveryList = some selected ∧
      processAll engine.processFileForRecovery selected st = (st', none) := by
  unfold recoverPartition at h
  unfold chosen
  split
  · rename_i hempty
    rw [if_pos hempty] at h
    exact ⟨[], rfl, h⟩
  · rename_i hne
    rw [if_neg hne] at h
    split
    · rename_i hask
      rw [if_pos hask] at h
      cases hanswer : askFilesToRecover engine.fileId input recoveryList with
      | error abort => rw [hanswer] at h; cases h
      | ok selected =>
        rw [hanswer] at h
        cases selected with
        | none => cases h
        | some selected => exact ⟨selected, rfl, h⟩
    · rename_i hask
      rw [if_neg hask] at h
      exact ⟨recoveryList, rfl, h⟩

theorem startRecovery_returns {input : List UInt8} {st st' : RunState host}
    (h : engine.startRecovery .logical input st = (st', none)) :
    ∃ rest recoveryList selected, proceedToScan (openLogFile config st.files).1 input = .ok rest ∧
      engine.scan = .ok recoveryList ∧ engine.chosen rest recoveryList = some selected ∧
        processAll engine.processFileForRecovery selected { st with files := (openLogFile config st.files).2 } =
          (st', none) := by
  unfold startRecovery scanForDeletedFiles at h
  rw [if_pos rfl] at h
  dsimp only at h
  cases hproceed : proceedToScan (openLogFile config st.files).1 input with
  | error abort => rw [hproceed] at h; cases h
  | ok rest =>
    cases hscan : engine.scan with
    | error abort => rw [hproceed, hscan] at h; cases h
    | ok recoveryList =>
      rw [hproceed, hscan] at h
      obtain ⟨selected, hchosen, hrun⟩ := engine.recoverPartition_returns h
      exact ⟨rest, recoveryList, selected, rfl, rfl, hchosen, hrun⟩

/-- The run has worked on the chosen files, and their data is where the log left the files free. -/
def StoresChosen (data : ι → List UInt8) (input : List UInt8) (st : RunState host) (after : Files host) : Prop :=
  ∃ rest recoveryList selected places, proceedToScan (openLogFile config st.files).1 input = .ok rest ∧
    engine.scan = .ok recoveryList ∧ engine.chosen rest recoveryList = some selected ∧
    StoredAt (openLogFile config st.files).2 after config.outputFolder
      (storedItems engine.isSkipped engine.fullName data selected) places

theorem chosen_sublist {input : List UInt8} {recoveryList selected : List ι}
    (h : engine.chosen input recoveryList = some selected) : selected.Sublist recoveryList := by
  unfold chosen askFilesToRecover at h
  split at h
  · cases h
    exact List.nil_sublist _
  · split at h
    · cases hselection : readSelection none input with
      | error abort => rw [hselection] at h; cases h
      | ok selection =>
        rw [hselection] at h
        exact selectFilesToRecover_sublist h
    · cases h
      exact List.Sublist.refl _

/-- A run that returns stores the chosen files one after the other, and nothing else. -/
theorem files_of_returns {data : ι → List UInt8}
    (hstores : StoresFile engine.processFileForRecovery engine.isSkipped engine.fullName data config.outputFolder)
    (hdotted : ∀ recoveryList, engine.scan = .ok recoveryList → ∀ file ∈ recoveryList, Dotted (engine.fullName file))
    {input : List UInt8} {st st' : RunState host} (h : engine.startRecovery .logical input st = (st', none)) :
    ∃ rest recoveryList selected, proceedToScan (openLogFile config st.files).1 input = .ok rest ∧
      engine.scan = .ok recoveryList ∧ engine.chosen rest recoveryList = some selected ∧
      (∀ item ∈ storedItems engine.isSkipped engine.fullName data selected, Dotted item.1) ∧
      Creatable config.outputFolder (storedItems engine.isSkipped engine.fullName data selected)
        (openLogFile config st.files).2 ∧
      st'.files = storeAll config.outputFolder (storedItems engine.isSkipped engine.fullName data selected)
        (openLogFile config st.files).2 := by
  obtain ⟨rest, recoveryList, selected, hproceed, hscan, hchosen, hrun⟩ := engine.startRecovery_returns h
  exact ⟨rest, recoveryList, selected, hproceed, hscan, hchosen,
    dotted_storedItems fun file hfile => hdotted recoveryList hscan file ((engine.chosen_sublist hchosen).subset hfile),
    files_of_processAll hstores hrun⟩

theorem storesChosen_of_returns {data : ι → List UInt8}
    (hstores : StoresFile engine.processFileForRecovery engine.isSkipped engine.fullName data config.outputFolder)
    (hdotted : ∀ recoveryList, engine.scan = .ok recoveryList → ∀ file ∈ recoveryList, Dotted (engine.fullName file))
    {input : List UInt8} {st st' : RunState host} (h : engine.startRecovery .logical input st = (st', none)) :
    engine.StoresChosen data input st st'.files := by
  obtain ⟨rest, recoveryList, selected, hproceed, hscan, hchosen, hitems, hcreatable, hfiles⟩ :=
    engine.files_of_returns hstores hdotted h
  obtain ⟨places, hplaces⟩ := storedAt_storeAll config.outputFolder hitems hcreatable
  rw [hfiles]
  exact ⟨rest, recoveryList, selected, places, hproceed, hscan, hchosen, hplaces⟩

end Engine

/-! ### What each of them lists -/

section
variable {host : Host} {config : Config}

theorem FAT32.engine_dotted {v : Volume} {iswalnum : UInt16 → Bool} {stack : Nat} (recoveryList : List FileInfo)
    (hlist : (FAT32.engine host config v iswalnum stack).scan = .ok recoveryList) :
    ∀ info ∈ recoveryList, Dotted info.fullName := by
  intro info hinfo
  obtain ⟨scan, hscan, rfl⟩ := FAT32.engine_scan hlist
  exact dotted_of_scan hscan hinfo

theorem ExFAT.engine_dotted {v : Volume} {stack : Nat}
    (hdotted : ∀ scan, scanRoot v config stack {} = some scan → ∀ info ∈ scan.recoveryList, Dotted info.fileName)
    (recoveryList : List FileInfo) (hlist : (ExFAT.engine host config v stack).scan = .ok recoveryList) :
    ∀ info ∈ recoveryList, Dotted info.fileName := by
  obtain ⟨scan, hscan, rfl⟩ := ExFAT.engine_scan hlist
  exact hdotted scan hscan

theorem NTFS.engine_dotted {v : Volume} {rounds : Nat}
    (hdotted : ∀ scan, scanMFT v rounds {} = .ok scan → ∀ info ∈ scan.recoveryList, Dotted info.fileName)
    (recoveryList : List FileInfo) (hlist : (NTFS.engine host config v rounds).scan = .ok recoveryList) :
    ∀ info ∈ recoveryList, Dotted info.fileName := by
  obtain ⟨scan, hscan, rfl⟩ := NTFS.engine_scan hlist
  exact hdotted scan hscan

end

/-! ### What each of them stores -/

theorem finishAnalysis_progress {ctx : ChainContext} {startCluster : UInt32} {clusterChain : List UInt32}
    {expectedSize expectedClusters : UInt64} {filename : WString} {isExtensionPredicted : Bool}
    {status status' : RecoveryStatus} {st st' : AnalysisState}
    (h : finishAnalysis ctx startCluster clusterChain expectedSize expectedClusters filename isExtensionPredicted status st =
      .ok (status', st')) : status'.progress = status.progress := by
  unfold finishAnalysis at h
  obtain ⟨⟨overwriteAnalysis, st''⟩, -, h⟩ := Except.bind_ok h
  cases h
  rw [analyzeClusterPattern_progress]
  split <;> split <;> split <;> rfl

theorem validateClusterChain_progress {ctx : ChainContext} {status status' : RecoveryStatus} {startCluster : UInt32}
    {expectedSize overwriteClusters : UInt64} {filename : WString} {isExtensionPredicted : Bool} {st st' : AnalysisState}
    (h : (validateClusterChain ctx status startCluster expectedSize overwriteClusters filename isExtensionPredicted st).2 =
      .ok (status', st')) : status'.progress = status.progress := by
  have hloop := chainLoop_progress ctx.getNextCluster ctx.analyze status.expectedClusters.toNat startCluster [] status
  unfold validateClusterChain at h
  dsimp only at h
  split at h
  · exact (finishAnalysis_progress h).trans hloop
  · cases h
    exact hloop

theorem FAT32.fileSize_of_returns {host : Host} (v : Volume) (config : Config) {info : FileInfo} {st st' : RunState host}
    (hskip : isSkipped config info = false) (hstep : processFileForRecovery v config info st = (st', none)) :
    info.fileSize ≤ 0xFFFFFFFF := by
  unfold processFileForRecovery at hstep
  rw [hskip, if_neg Bool.false_ne_true] at hstep
  split at hstep
  · cases hstep
  · dsimp only at hstep
    split at hstep
    · cases hstep
    · rename_i hsize
      exact UInt64.not_lt.mp hsize

section
variable (config : Config) (host : Host) (hrec : config.recover = true)
include hrec

theorem FAT32.storesFile (v : Volume) : StoresFile (@processFileForRecovery v config host) (isSkipped config)
    FileInfo.fullName (recoveredData v) config.outputFolder where
  skips := fun _ _ hskip => if_pos hskip
  stores := by
    intro info st st' hskip hstep
    have hplace := (fileOutcome v config info st hskip).hasPlace hrec (by rw [hstep])
    have hsize := fileSize_of_returns v config hskip hstep
    have hfiles := (processFileForRecovery_files v config hskip hplace.1 hsize hrec hplace.2).2
    rw [hstep] at hfiles
    exact ⟨hplace, hfiles⟩

theorem ExFAT.storesFile (v : Volume) : StoresFile (@processFileForRecovery v config host) (isSkipped config)
    FileInfo.fileName (recoveredData v) config.outputFolder where
  skips := fun _ _ hskip => if_pos hskip
  stores := by
    intro info st st' hskip hstep
    have hplace := (fileOutcome v config info st hskip).hasPlace hrec (by rw [hstep])
    refine ⟨hplace, ?_⟩
    obtain ⟨hends, hcreate⟩ := hplace
    have hchain := validateClusterChain_chain v config info.cluster info.fileSize
      (getOutputPath st.files info.fileName config.outputFolder) false st.analysis
    cases hvalidate : validateClusterChain v config (startStatus v info.fileSize) info.cluster info.fileSize
      (getOutputPath st.files info.fileName config.outputFolder) false st.analysis with
    | mk clusterChain result =>
      cases result with
      | error abort =>
        rw [processFileForRecovery_abort v config hskip hends hvalidate] at hstep
        cases hstep
      | ok result =>
        obtain ⟨status, analysis⟩ := result
        obtain ⟨mid, hmid, hprocess⟩ := processFileForRecovery_eq v config hskip hends hrec hvalidate
        rw [hvalidate] at hchain
        have hcounters : status.progress = (startStatus v info.fileSize).progress :=
          validateClusterChain_progress (congrArg Prod.snd hvalidate)
        unfold RecoveryStatus.progress startStatus at hcounters
        simp only [Prod.mk.injEq] at hcounters
        rw [hprocess] at hstep
        unfold recoverFile at hstep
        rw [if_pos hcreate, hcounters.2.1, hcounters.2.2, hmid] at hstep
        cases hstep
        rw [recoveredData, ← hchain]

def NTFS.recoveredData (v : Volume) (info : FileInfo) : List UInt8 :=
  if info.nonResident then
    (copyChain v.readSector v.bytesPerSector.toUInt64 info.fileSize v.sectorsOf (validateClusterChain info) {}).written
  else info.data

theorem NTFS.storesFile (v : Volume) : StoresFile (@processFileForRecovery v config host) (isSkipped config)
    FileInfo.fileName (recoveredData v) config.outputFolder where
  skips := fun _ _ hskip => if_pos hskip
  stores := by
    intro info st st' hskip hstep
    have hplace := (fileOutcome v config info st hskip).hasPlace hrec (by rw [hstep])
    refine ⟨hplace, ?_⟩
    have hcreate := hplace.2
    unfold processFileForRecovery at hstep
    rw [hskip, if_neg Bool.false_ne_true] at hstep
    split at hstep
    · cases hstep
    · dsimp only at hstep
      split at hstep
      · cases hstep
      · unfold recoveredData
        split at hstep
        · rename_i hnonResident
          unfold recoverNonResidentFile at hstep
          rw [if_pos hcreate] at hstep
          cases hstep
          rw [if_pos hnonResident]
        · rename_i hresident
          unfold recoverResidentFile at hstep
          rw [if_pos hcreate] at hstep
          cases hstep
          rw [if_neg hresident]

end

/-- A run that returns, with files to be recovered, has stored what it was asked for: the data of each chosen file
at a free place of its own, and nothing else. FAT32 names always have the dot that this takes. -/
theorem runs_store_files (host : Host) {config : Config} (hrec : config.recover = true) (input : List UInt8)
    (st st' : RunState host) :
    (∀ (v : FAT32.Volume) (iswalnum : UInt16 → Bool) (stack : Nat),
      (FAT32.engine host config v iswalnum stack).startRecovery .logical input st = (st', none) →
        (FAT32.engine host config v iswalnum stack).StoresChosen (FAT32.recoveredData v) input st st'.files) ∧
    (∀ (v : ExFAT.Volume) (stack : Nat),
      (∀ scan, ExFAT.scanRoot v config stack {} = some scan → ∀ info ∈ scan.recoveryList, Dotted info.fileName) →
      ExFAT.startRecovery host config v stack .logical input st = (st', none) →
        (ExFAT.engine host config v stack).StoresChosen (ExFAT.recoveredData v) input st st'.files) ∧
    (∀ (v : NTFS.Volume) (rounds : Nat),
      (∀ scan, NTFS.scanMFT v rounds {} = .ok scan → ∀ info ∈ scan.recoveryList, Dotted info.fileName) →
      NTFS.startRecovery host config v rounds .logical input st = (st', none) →
        (NTFS.engine host config v rounds).StoresChosen (NTFS.recoveredData v) input st st'.files) := by
  refine ⟨fun v iswalnum stack => ?_, fun v stack hdotted => ?_, fun v rounds hdotted => ?_⟩
  · exact Engine.storesChosen_of_returns _ (FAT32.storesFile config host hrec v) FAT32.engine_dotted
  · exact Engine.storesChosen_of_returns _ (ExFAT.storesFile config host hrec v) (ExFAT.engine_dotted hdotted)
  · exact Engine.storesChosen_of_returns _ (NTFS.storesFile config host hrec v) (NTFS.engine_dotted hdotted)

/-- Two deleted files `a.b`, of five bytes in cluster 5 and of three in cluster 6. -/
def ExFAT.dottedVolume : Volume :=
  let rawFile (start size : UInt8) : List UInt8 :=
    (0x05 :: List.replicate 31 0) ++ (0x40 :: List.replicate 19 0 ++ [start, 0, 0, 0, size] ++ List.replicate 7 0) ++
      ([0x41, 0, 0x61, 0, 0x2E, 0, 0x62] ++ List.replicate 25 0)
  smallVolume [(4, rawFile 5 5 ++ rawFile 6 3), (7, [1, 2, 3, 4, 5]), (8, [6, 7, 8])]

/-- Two deleted resident files `a.b`, of five bytes and of three. -/
def NTFS.dottedVolume : Volume where
  device :=
    { readSector := (Device.ofSectors [(4, dottedRecord [1, 2, 3, 4, 5]), (5, dottedRecord [6, 7, 8])] 512).readSector
      getBytesPerSector := 512
      getTotalMftRecords := 2
      length_of_read := Device.length_of_read _ }
  driveInfo := smallDrive

theorem dotted_small : Dotted (wide "a.b") := ⟨0, by decide⟩

theorem ExFAT.dotted_of_dottedVolume (scan : ScanState) (hscan : scanRoot dottedVolume { recover := true } 1 {} = some scan)
    (info : FileInfo) (hinfo : info ∈ scan.recoveryList) : Dotted info.fileName := by
  have hnames : (scanRoot dottedVolume { recover := true } 1 {}).map (fun st => st.recoveryList.map FileInfo.fileName) =
      some [wide "a.b", wide "a.b"] := by decide +kernel
  rw [hscan] at hnames
  have hlist : scan.recoveryList.map FileInfo.fileName = List.replicate 2 (wide "a.b") := Option.some.inj hnames
  exact dotted_of_names dotted_small hlist hinfo

theorem NTFS.dotted_of_dottedVolume (scan : ScanState) (hscan : scanMFT dottedVolume 3 {} = .ok scan)
    (info : FileInfo) (hinfo : info ∈ scan.recoveryList) : Dotted info.fileName := by
  have hnames : (scanMFT dottedVolume 3 {}).map (fun st => st.recoveryList.map FileInfo.fileName) =
      .ok [wide "a.b", wide "a.b"] := by decide +kernel
  rw [hscan] at hnames
  have hlist : scan.recoveryList.map FileInfo.fileName = List.replicate 2 (wide "a.b") := Except.ok.inj hnames
  exact dotted_of_names dotted_small hlist hinfo

theorem dotted_volumes_return :
    ((FAT32.engine plainHost { recover := true } FAT32.nestedTwo (fun _ => true) 3).startRecovery .logical [byte '1']
      { files := ∅ }).2 = none ∧
    (ExFAT.startRecovery plainHost { recover := true } ExFAT.dottedVolume 1 .logical [byte '1'] { files := ∅ }).2 = none ∧
    (NTFS.startRecovery plainHost { recover := true } NTFS.dottedVolume 3 .logical [byte '1'] { files := ∅ }).2 = none := by
  decide +kernel

theorem runs_store_files_small :
    (FAT32.engine plainHost { recover := true } FAT32.nestedTwo (fun _ => true) 3).StoresChosen
      (FAT32.recoveredData FAT32.nestedTwo) [byte '1'] { files := ∅ }
      ((FAT32.engine plainHost { recover := true } FAT32.nestedTwo (fun _ => true) 3).startRecovery .logical [byte '1']
        { files := ∅ }).1.files ∧
    (ExFAT.engine plainHost { recover := true } ExFAT.dottedVolume 1).StoresChosen
      (ExFAT.recoveredData ExFAT.dottedVolume) [byte '1'] { files := ∅ }
      (ExFAT.startRecovery plainHost { recover := true } ExFAT.dottedVolume 1 .logical [byte '1'] { files := ∅ }).1.files ∧
    (NTFS.engine plainHost { recover := true } NTFS.dottedVolume 3).StoresChosen
      (NTFS.recoveredData NTFS.dottedVolume) [byte '1'] { files := ∅ }
      (NTFS.startRecovery plainHost { recover := true } NTFS.dottedVolume 3 .logical [byte '1'] { files := ∅ }).1.files := by
  obtain ⟨hfat, hexfat, hntfs⟩ := dotted_volumes_return
  have hruns := @runs_store_files plainHost { recover := true } rfl [byte '1'] { files := ∅ }
  exact ⟨(hruns _).1 FAT32.nestedTwo _ 3 (eq_of_returns hfat),
    (hruns _).2.1 ExFAT.dottedVolume 1 ExFAT.dotted_of_dottedVolume (eq_of_returns hexfat),
    (hruns _).2.2 NTFS.dottedVolume 3 NTFS.dotted_of_dottedVolume (eq_of_returns hntfs)⟩

end DataRecovery
