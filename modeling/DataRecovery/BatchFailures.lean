import DataRecovery.KeptFiles

/-!
# What a file that cannot be written does to the batch

A failed open throws out of the batch loop, so it ends the batch. The other files
are recovered as if the failing ones had not been selected exactly when the
failing ones come after them.
-/

namespace DataRecovery

section
variable {host : Host} {ι : Type} (process : ι → RunState host → Outcome host) (name : ι → WString) (folder : WString)

/-- After the files `pre`, `file` is written with `data`, which leaves the state `after`. -/
def Recovers (pre : List ι) (file : ι) (st : RunState host) (data : List UInt8) (after : RunState host) : Prop :=
  ∃ mid, processAll process pre st = (mid, none) ∧ process file mid = (after, none) ∧
    after.files = mid.files.write (getOutputPath mid.files (name file) folder) (.data data)

variable (skipped : ι → Bool) (writable : WString → Bool)

/-- Every file of the batch whose output can be created is recovered, with the bytes written for
it when those that cannot be created are not selected; the batch then goes on with the rest. -/
def Continues (selected : List ι) (st : RunState host) (outcome : Outcome host) : Prop :=
  ∀ pre file post data, selected = pre ++ file :: post → writable (name file) = true → skipped file = false →
    (∃ after, Recovers process name folder (pre.filter fun f => writable (name f)) file st data after) →
      ∃ after, Recovers process name folder pre file st data after ∧ outcome = processAll process post after

/-- No file that cannot be created, and is not passed over, stands before one that the batch
without those files recovers. -/
def FailuresLast (selected : List ι) (st : RunState host) : Prop :=
  ∀ pre file post, selected = pre ++ file :: post → writable (name file) = true → skipped file = false →
    (∃ data after, Recovers process name folder (pre.filter fun f => writable (name f)) file st data after) →
      ∀ bad ∈ pre, writable (name bad) = true ∨ skipped bad = true

variable {skipped writable}

theorem step_of_processAll : ∀ {files : List ι} {st mid : RunState host}, processAll process files st = (mid, none) →
    ∀ file ∈ files, ∃ before after, process file before = (after, none)
  | [], _, _, _, _, h => by cases h
  | first :: rest, st, mid, hrun, file, h => by
    unfold processAll at hrun
    split at hrun
    · cases hrun
    · rename_i st' hstep
      rcases List.mem_cons.mp h with rfl | h
      · exact ⟨st, st', hstep⟩
      · exact step_of_processAll hrun file h

theorem processAll_filter (hskips : ∀ file st, skipped file = true → process file st = (st, none))
    (keep : ι → Bool) : ∀ {files : List ι} (st : RunState host),
    (∀ file ∈ files, keep file = true ∨ skipped file = true) →
      processAll process (files.filter keep) st = processAll process files st
  | [], _, _ => rfl
  | file :: rest, st, h => by
    have hrest : ∀ f ∈ rest, keep f = true ∨ skipped f = true := fun f hf => h f (List.mem_cons_of_mem _ hf)
    rw [List.filter_cons]
    split
    · unfold processAll
      generalize process file st = out
      rcases out with ⟨st', _ | abort⟩
      · exact processAll_filter hskips keep st' hrest
      · rfl
    · rename_i hkeep
      have hskip := (h file (List.mem_cons_self ..)).resolve_left hkeep
      rw [processAll_filter hskips keep st hrest]
      conv => rhs; unfold processAll
      rw [hskips file st hskip]

theorem continues_iff {selected : List ι} {st : RunState host}
    (hskips : ∀ file st, skipped file = true → process file st = (st, none))
    (hfails : ∀ file st, skipped file = false →
      host.canCreate (getOutputPath st.files (name file) folder) = false → (process file st).2 ≠ none)
    (hunwritable : ∀ file ∈ selected, writable (name file) = false →
      ∀ files : Files host, host.canCreate (getOutputPath files (name file) folder) = false) :
    Continues process name folder skipped writable selected st (processAll process selected st) ↔
      FailuresLast process name folder skipped writable selected st := by
  constructor
  · intro h pre file post hsplit hfile hskip ⟨data, after, hfiltered⟩ bad hbad
    obtain ⟨_, ⟨mid, hpre, _⟩, _⟩ := h pre file post data hsplit hfile hskip ⟨after, hfiltered⟩
    obtain ⟨before, after', hstep⟩ := step_of_processAll process hpre bad hbad
    by_contra hno
    simp only [not_or, Bool.not_eq_true] at hno
    have hmem : bad ∈ selected := by rw [hsplit]; exact List.mem_append_left _ hbad
    exact hfails bad before hno.2 (hunwritable bad hmem hno.1 before.files) (by rw [hstep])
  · intro h pre file post data hsplit hfile hskip ⟨after, hfiltered⟩
    have hpre := h pre file post hsplit hfile hskip ⟨data, after, hfiltered⟩
    obtain ⟨mid, hmid, hstep, hwrite⟩ := hfiltered
    rw [processAll_filter process hskips _ st hpre] at hmid
    refine ⟨after, ⟨mid, hmid, hstep, hwrite⟩, ?_⟩
    rw [hsplit]
    exact processAll_append_cons process hmid hstep

/-- Where the batch without the failing files recovers each of its files, the condition is one on positions. -/
theorem failuresLast_iff_positions {selected : List ι} {st : RunState host}
    (hskips : ∀ file st, skipped file = true → process file st = (st, none))
    (hgood : EachStep process (fun file st => skipped file = true ∨ ∃ data, (process file st).2 = none ∧
        (process file st).1.files = st.files.write (getOutputPath st.files (name file) folder) (.data data))
      (selected.filter fun f => writable (name f)) st) :
    FailuresLast process name folder skipped writable selected st ↔
      ∀ pre file post, selected = pre ++ file :: post → writable (name file) = true → skipped file = false →
        ∀ bad ∈ pre, writable (name bad) = true ∨ skipped bad = true := by
  refine forall₃_congr fun pre file post => forall₃_congr fun hsplit hfile hskip => ?_
  refine ⟨fun h => h ?_, fun h _ => h⟩
  have hcut : selected.filter (fun f => writable (name f)) =
      pre.filter (fun f => writable (name f)) ++ file :: post.filter fun f => writable (name f) := by
    rw [hsplit, List.filter_append, List.filter_cons, if_pos hfile]
  rw [hcut] at hgood
  have hreturns : EachStep process (fun file st => (process file st).2 = none)
      (pre.filter fun f => writable (name f)) st := by
    refine (eachStep_of_append process hgood).imp process fun f _ st hf => ?_
    rcases hf with hs | ⟨_, hnone, -⟩
    · rw [hskips f st hs]
    · exact hnone
  have hrun := eq_of_returns (processAll_returns process hreturns)
  obtain ⟨hstep, -⟩ := eachStep_append process hgood hrun
  rcases hstep with hs | ⟨data, hnone, hwrite⟩
  · cases hskip.symm.trans hs
  · exact ⟨data, _, _, hrun, Prod.ext rfl hnone, hwrite⟩

end

/-! ## The three engines -/

section
variable {config : Config} {host : Host} {selection : Selection} {st : RunState host}

theorem FAT32.recoverPartition_selected (v : Volume) {recoveryList selected : List FileInfo}
    (h : selectedFiles config FileInfo.fileId selection recoveryList = some selected) :
    recoverPartition v config selection recoveryList st =
      processAll (processFileForRecovery v config) selected st := by
  unfold recoverPartition
  split
  · rename_i hnil
    rw [hnil] at h
    rw [selectedFiles_nil h, processAll]
  · rw [h]

theorem ExFAT.recoverPartition_selected (v : Volume) {recoveryList selected : List FileInfo}
    (h : selectedFiles config FileInfo.fileId selection recoveryList = some selected) :
    recoverPartition v config selection recoveryList st =
      processAll (processFileForRecovery v config) selected st := by
  unfold recoverPartition
  split
  · rename_i hnil
    rw [hnil] at h
    rw [selectedFiles_nil h, processAll]
  · rw [h]

theorem NTFS.recoverPartition_selected (v : Volume) {recoveryList selected : List FileInfo}
    (h : selectedFiles config FileInfo.fileId selection recoveryList = some selected) :
    recoverPartition v config selection recoveryList st =
      processAll (processFileForRecovery v config) selected st := by
  unfold recoverPartition
  split
  · rename_i hnil
    rw [hnil] at h
    rw [selectedFiles_nil h, processAll]
  · rw [h]

end

/-- The names `unwritable` on a host: no path `getOutputPath` makes of them can be created. -/
def Unwritable (host : Host) (folder : WString) (writable : WString → Bool) (names : List WString) : Prop :=
  ∀ name ∈ names, writable name = false → ∀ files : Files host, host.canCreate (getOutputPath files name folder) = false

/-- In every engine the batch survives the files that cannot be created exactly when they come last. -/
theorem batch_continues_iff {config : Config} (hrec : config.recover = true) (host : Host)
    (writable : WString → Bool) (selection : Selection) :
    (∀ (v : FAT32.Volume) (recoveryList selected : List FAT32.FileInfo) (st : RunState host),
      selectedFiles config FAT32.FileInfo.fileId selection recoveryList = some selected →
      Unwritable host config.outputFolder writable (selected.map FAT32.FileInfo.fullName) →
        (Continues (FAT32.processFileForRecovery v config) FAT32.FileInfo.fullName config.outputFolder
            (FAT32.isSkipped config) writable selected st (FAT32.recoverPartition v config selection recoveryList st) ↔
          FailuresLast (FAT32.processFileForRecovery v config) FAT32.FileInfo.fullName config.outputFolder
            (FAT32.isSkipped config) writable selected st)) ∧
    (∀ (v : ExFAT.Volume) (recoveryList selected : List ExFAT.FileInfo) (st : RunState host),
      selectedFiles config ExFAT.FileInfo.fileId selection recoveryList = some selected →
      Unwritable host config.outputFolder writable (selected.map ExFAT.FileInfo.fileName) →
        (Continues (ExFAT.processFileForRecovery v config) ExFAT.FileInfo.fileName config.outputFolder
            (ExFAT.isSkipped config) writable selected st (ExFAT.recoverPartition v config selection recoveryList st) ↔
          FailuresLast (ExFAT.processFileForRecovery v config) ExFAT.FileInfo.fileName config.outputFolder
            (ExFAT.isSkipped config) writable selected st)) ∧
    (∀ (v : NTFS.Volume) (recoveryList selected : List NTFS.FileInfo) (st : RunState host),
      selectedFiles config NTFS.FileInfo.fileId selection recoveryList = some selected →
      Unwritable host config.outputFolder writable (selected.map NTFS.FileInfo.fileName) →
        (Continues (NTFS.processFileForRecovery v config) NTFS.FileInfo.fileName config.outputFolder
            (NTFS.isSkipped config) writable selected st (NTFS.recoverPartition v config selection recoveryList st) ↔
          FailuresLast (NTFS.processFileForRecovery v config) NTFS.FileInfo.fileName config.outputFolder
            (NTFS.isSkipped config) writable selected st)) := by
  refine ⟨?_, ?_, ?_⟩
  · intro v recoveryList selected st hselect hbad
    rw [FAT32.recoverPartition_selected v hselect]
    exact continues_iff _ _ _ (FAT32.writesOutput v config host).skips
      (fun info st hskip hcreate => (FAT32.fileOutcome v config info st hskip).fails hrec hcreate)
      fun file hfile => hbad _ (List.mem_map.mpr ⟨file, hfile, rfl⟩)
  · intro v recoveryList selected st hselect hbad
    rw [ExFAT.recoverPartition_selected v hselect]
    exact continues_iff _ _ _ (ExFAT.writesOutput v config host).skips
      (fun info st hskip hcreate => (ExFAT.fileOutcome v config info st hskip).fails hrec hcreate)
      fun file hfile => hbad _ (List.mem_map.mpr ⟨file, hfile, rfl⟩)
  · intro v recoveryList selected st hselect hbad
    rw [NTFS.recoverPartition_selected v hselect]
    exact continues_iff _ _ _ (NTFS.writesOutput v config host).skips
      (fun info st hskip hcreate => (NTFS.fileOutcome v config info st hskip).fails hrec hcreate)
      fun file hfile => hbad _ (List.mem_map.mpr ⟨file, hfile, rfl⟩)

/-- For the files a FAT32 scan lists, when there is a place for each of the others: the batch survives when
no failing file that is processed stands before another processed file. -/
theorem FAT32.failuresLast_of_scan (v : Volume) {config : Config} (hrec : config.recover = true)
    (iswalnum : UInt16 → Bool) {stack : Nat} {scan : ScanState}
    (hscan : scanRoot v config iswalnum stack {} = some scan) {host : Host} {writable : WString → Bool}
    {selected : List FileInfo} (hsub : ∀ file ∈ selected, file ∈ scan.recoveryList) (st : RunState host)
    (hplaced : EachStep (processFileForRecovery v config)
      (Placed (isSkipped config) FileInfo.fullName config.outputFolder)
      (selected.filter fun file => writable file.fullName) st) :
    FailuresLast (processFileForRecovery v config) FileInfo.fullName config.outputFolder (isSkipped config) writable
        selected st ↔
      ∀ pre file post, selected = pre ++ file :: post → writable file.fullName = true →
        isSkipped config file = false → ∀ bad ∈ pre, writable bad.fullName = true ∨ isSkipped config bad = true := by
  refine failuresLast_iff_positions _ _ _ (writesOutput v config host).skips
    (hplaced.imp _ fun file hfile st hplace => ?_)
  cases hskip : isSkipped config file with
  | true => exact .inl rfl
  | false =>
    rcases hplace with hs | ⟨hends, hcreate⟩
    · cases hskip.symm.trans hs
    · have hlisted := listed_of_scan v config iswalnum hscan (hsub file (List.mem_of_mem_filter hfile))
      exact .inr ⟨_, processFileForRecovery_files v config hskip hends hlisted.fileSize_le hrec hcreate⟩

/-! ## A host with a forbidden character -/

theorem mem_getOutputPath {host : Host} (files : Files host) {fullName : WString} (folder : WString) {c : UInt16}
    (hc : c ∈ fullName) (hne : c ≠ dot) : c ∈ (getOutputPath files fullName folder).name := by
  unfold getOutputPath
  split
  · rename_i n hdot
    dsimp only
    split
    · obtain ⟨hsplit, -⟩ := findLastDot_split hdot
      rw [hsplit] at hc
      unfold numberedName
      rcases List.mem_append.mp hc with hc | hc
      · exact List.mem_append_left _ (List.mem_append_left _ (List.mem_append_left _ hc))
      · have hext := (List.mem_cons.mp hc).resolve_left hne
        rw [if_neg (List.ne_nil_of_mem hext)]
        exact List.mem_append_right _ (List.mem_cons_of_mem _ hext)
    · exact hc
  · exact hc

def strictHost : Host := { plainHost with canCreate := fun path => !path.name.contains 0x3F }

def accepts (name : WString) : Bool := !name.contains 0x3F

theorem unwritable_strictHost (folder : WString) (names : List WString) : Unwritable strictHost folder accepts names := by
  intro name _ hname files
  have hmem : (0x3F : UInt16) ∈ name := by simpa [accepts] using hname
  have hpath := mem_getOutputPath files folder hmem (by decide)
  show (!(getOutputPath files name folder).name.contains 0x3F) = false
  simpa using hpath

def badFile : FAT32.FileInfo := ⟨1, wide "a?.bin", wide "a?", wide "bin", 9, 4, false⟩

def goodFile : FAT32.FileInfo := ⟨2, wide "b.bin", wide "b", wide "bin", 9, 5, false⟩

/-- The failing file comes last: the other one is recovered. -/
theorem batch_continues_last :
    Continues (FAT32.processFileForRecovery (FAT32.smallVolume []) { recover := true }) FAT32.FileInfo.fullName
      (wide "Recovered") (FAT32.isSkipped { recover := true }) accepts [goodFile, badFile]
      { files := (∅ : Files strictHost) }
      (FAT32.recoverPartition (FAT32.smallVolume []) { recover := true } .all [goodFile, badFile] { files := ∅ }) := by
  refine ((@batch_continues_iff { recover := true } rfl strictHost accepts .all).1 (FAT32.smallVolume [])
    [goodFile, badFile] [goodFile, badFile] { files := ∅ } rfl (unwritable_strictHost _ _)).mpr ?_
  intro pre file post hsplit hfile _ _ bad hbad
  cases pre with
  | nil => cases hbad
  | cons first pre =>
    obtain ⟨rfl, hrest⟩ := List.cons.inj hsplit
    cases pre with
    | nil =>
      rw [List.mem_singleton.mp hbad]
      exact .inl (by decide)
    | cons second pre =>
      obtain ⟨-, hrest⟩ := List.cons.inj hrest
      exact absurd hrest (by simp)

/-- The failing file comes first: nothing is recovered. -/
theorem batch_stops :
    ¬ ∀ (config : Config) (host : Host) (writable : WString → Bool) (selection : Selection) (v : FAT32.Volume)
      (recoveryList selected : List FAT32.FileInfo) (st : RunState host), config.recover = true →
      selectedFiles config FAT32.FileInfo.fileId selection recoveryList = some selected →
      Unwritable host config.outputFolder writable (selected.map FAT32.FileInfo.fullName) →
        Continues (FAT32.processFileForRecovery v config) FAT32.FileInfo.fullName config.outputFolder
          (FAT32.isSkipped config) writable selected st
          (FAT32.recoverPartition v config selection recoveryList st) := by
  intro h
  let config : Config := { recover := true }
  let start : RunState strictHost := { files := ∅ }
  have hcontinues := h config strictHost accepts .all (FAT32.smallVolume []) [badFile, goodFile] [badFile, goodFile]
    start rfl rfl (unwritable_strictHost _ _)
  have hends : renamingEnds start.files goodFile.fullName config.outputFolder = true :=
    renamingEnds_of_free rfl
  have hgood := FAT32.processFileForRecovery_files (FAT32.smallVolume []) config
    (show FAT32.isSkipped config goodFile = false by decide) hends (by decide) rfl (by decide)
  obtain ⟨after, ⟨mid, hpre, _⟩, _⟩ := hcontinues [badFile] goodFile [] _ rfl (by decide) (by decide)
    ⟨_, start, rfl, Prod.ext rfl hgood.1, hgood.2⟩
  obtain ⟨before, after', hstep⟩ := step_of_processAll _ hpre badFile (List.mem_singleton.mpr rfl)
  refine (FAT32.fileOutcome (FAT32.smallVolume []) config badFile before (by decide)).fails rfl ?_ (by rw [hstep])
  exact unwritable_strictHost _ [badFile.fullName] _ (List.mem_singleton.mpr rfl) (by decide) before.files

end DataRecovery
