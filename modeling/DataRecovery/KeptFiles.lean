import DataRecovery.ExFAT.DepthLimit
import DataRecovery.ExFAT.Recovery
import DataRecovery.FAT32.ListedNames
import DataRecovery.FAT32.Recovery
import DataRecovery.NTFS.Recovery

/-!
# Files a run leaves alone

`getOutputPath` looks for a free name only when there is a dot past the first
character. A run keeps every file as long as each name it writes is free or has such
a dot, with no terminator before it.
-/

namespace DataRecovery

section
variable {host : Host}

/-- The name is free, or `getOutputPath` can number it, and not all of the numbered names are taken. -/
def NameFits (files : Files host) (fullName folder : WString) : Prop :=
  files.exists ⟨folder, fullName⟩ = false ∨
    (∃ n, findLastDot fullName = some (n + 1) ∧ 0 ∉ fullName.take (n + 1)) ∧ ¬ AllTaken files fullName folder

/-- With fewer files than there are numbers, a name with a dot behind its first character fits, if no terminator
stands before the dot. -/
theorem nameFits_of_few {files : Files host} {fullName : WString} (folder : WString) {n : Nat}
    (hdot : findLastDot fullName = some (n + 1)) (hterm : 0 ∉ fullName.take (n + 1))
    (hfew : 1 + files.keys.length < INT_MAX) : NameFits files fullName folder :=
  .inr ⟨⟨n, hdot, hterm⟩, (renamingEnds_iff ⟨n, hdot⟩).mp (renamingEnds_of_few folder hdot hterm hfew)⟩

theorem getOutputPath_fresh_iff (files : Files host) (fullName folder : WString) :
    renamingEnds files fullName folder = true ∧ files.exists (getOutputPath files fullName folder) = false ↔
      NameFits files fullName folder := by
  constructor
  · intro ⟨hends, hfresh⟩
    cases htaken : files.exists ⟨folder, fullName⟩ with
    | false => exact .inl htaken
    | true =>
      by_cases hdotted : Dotted fullName
      · refine .inr ⟨?_, (renamingEnds_iff hdotted).mp hends⟩
        obtain ⟨n, hdot⟩ := hdotted
        obtain ⟨counter, h⟩ := exists_numberGiven hdot htaken
        exact ⟨n, hdot, no_terminator_of_free hdot htaken (h.ends.mp hends).2⟩
      · rw [getOutputPath_of_not_dotted hdotted, htaken] at hfresh
        cases hfresh
  · rintro (hfree | ⟨⟨n, hdot, -⟩, hsome⟩)
    · rw [getOutputPath_of_free hfree]
      exact ⟨renamingEnds_of_free hfree, hfree⟩
    · have hends := (renamingEnds_iff ⟨n, hdot⟩).mpr hsome
      exact ⟨hends, getOutputPath_fresh ⟨n, hdot⟩ hends⟩

/-- The output is not a file that exists: the name is free, or it is one that gets numbers. -/
def NoClash (files : Files host) (fullName folder : WString) : Prop :=
  files.exists ⟨folder, fullName⟩ = false ∨ Dotted fullName

theorem NoClash.fresh {files : Files host} {fullName folder : WString} (h : NoClash files fullName folder)
    (hends : renamingEnds files fullName folder = true) : files.exists (getOutputPath files fullName folder) = false := by
  rcases h with hfree | hdotted
  · rw [getOutputPath_of_free hfree]
    exact hfree
  · exact getOutputPath_fresh hdotted hends

def HasPlace (files : Files host) (fullName folder : WString) : Prop :=
  renamingEnds files fullName folder = true ∧ host.canCreate (getOutputPath files fullName folder) = true

theorem NameFits.noClash {files : Files host} {fullName folder : WString} (h : NameFits files fullName folder) :
    NoClash files fullName folder :=
  h.imp_right fun ⟨⟨n, hdot, _⟩, _⟩ => ⟨n, hdot⟩

/-! ## Runs -/

def Keeps (before after : Files host) : Prop := ∀ path node, before.read path = some node → after.read path = some node

theorem Keeps.refl (files : Files host) : Keeps files files := fun _ _ h => h

theorem Keeps.trans {a b c : Files host} (hab : Keeps a b) (hbc : Keeps b c) : Keeps a c :=
  fun path node h => hbc path node (hab path node h)

theorem keeps_write {files : Files host} {path : Path} (hfresh : files.exists path = false) (node : Node) :
    Keeps files (files.write path node) :=
  fun _ _ hold => read_write_of_fresh hfresh hold

theorem length_keys_write (files : Files host) (path : Path) (node : Node) :
    (files.write path node).keys.length ≤ files.keys.length + 1 := by
  unfold Files.write
  rw [AList.keys_insert, List.length_cons]
  exact Nat.succ_le_succ List.length_erase_le

variable {ι : Type} (process : ι → RunState host → Outcome host)

/-- What the files are at each point of the run they are at its end. -/
def KeepsFiles (files : List ι) (st : RunState host) : Prop :=
  ∀ pre post mid, files = pre ++ post → processAll process pre st = (mid, none) →
    Keeps mid.files (processAll process files st).1.files

def EachStep (P : ι → RunState host → Prop) : List ι → RunState host → Prop
  | [], _ => True
  | file :: rest, st => P file st ∧ ∀ st', process file st = (st', none) → EachStep P rest st'

theorem eachStep_of_forall {P : ι → RunState host → Prop} : ∀ {files : List ι} (st : RunState host),
    (∀ file ∈ files, ∀ st, P file st) → EachStep process P files st
  | [], _, _ => trivial
  | file :: _, st, h =>
    ⟨h file (List.mem_cons_self ..) st, fun st' _ =>
      eachStep_of_forall st' fun f hf => h f (List.mem_cons_of_mem _ hf)⟩

theorem eachStep_append {P : ι → RunState host → Prop} : ∀ {pre post : List ι} {st mid : RunState host},
    EachStep process P (pre ++ post) st → processAll process pre st = (mid, none) → EachStep process P post mid
  | [], _, _, _, h, hrun => by
    obtain rfl := congrArg Prod.fst hrun
    exact h
  | file :: pre, post, st, mid, h, hrun => by
    unfold processAll at hrun
    split at hrun
    · cases hrun
    · rename_i st' hstep
      exact eachStep_append (h.2 st' hstep) hrun

theorem eachStep_of_append {P : ι → RunState host → Prop} : ∀ {pre post : List ι} {st : RunState host},
    EachStep process P (pre ++ post) st → EachStep process P pre st
  | [], _, _, _ => trivial
  | _ :: _, _, _, h => ⟨h.1, fun st' hstep => eachStep_of_append (h.2 st' hstep)⟩

theorem EachStep.imp {P Q : ι → RunState host → Prop} : ∀ {files : List ι} {st : RunState host},
    (∀ file ∈ files, ∀ st, P file st → Q file st) → EachStep process P files st → EachStep process Q files st
  | [], _, _, _ => trivial
  | file :: _, _, h, hsteps =>
    ⟨h file (List.mem_cons_self ..) _ hsteps.1, fun st' hstep =>
      EachStep.imp (fun f hf => h f (List.mem_cons_of_mem _ hf)) (hsteps.2 st' hstep)⟩

theorem processAll_returns : ∀ {files : List ι} {st : RunState host},
    EachStep process (fun file st => (process file st).2 = none) files st → (processAll process files st).2 = none
  | [], _, _ => rfl
  | file :: rest, st, ⟨hstep, hrest⟩ => by
    have hstep : (process file st).2 = none := hstep
    unfold processAll
    generalize process file st = out at hstep hrest
    rcases out with ⟨st', _ | abort⟩
    · exact processAll_returns (hrest st' rfl)
    · cases hstep

variable {skipped : ι → Bool} {name : ι → WString} {folder : WString}

/-- The step condition: the file is passed over, or its name fits. -/
def Fits (skipped : ι → Bool) (name : ι → WString) (folder : WString) (file : ι) (st : RunState host) : Prop :=
  skipped file = true ∨ NameFits st.files (name file) folder

def Placed (skipped : ι → Bool) (name : ι → WString) (folder : WString) (file : ι) (st : RunState host) : Prop :=
  skipped file = true ∨ HasPlace st.files (name file) folder

/-- A file that is passed over leaves no trace; another is written where `getOutputPath` puts it, if at all. -/
structure WritesOutput (skipped : ι → Bool) (name : ι → WString) (folder : WString) : Prop where
  skips : ∀ file st, skipped file = true → process file st = (st, none)
  writes : ∀ file st, (process file st).1.files = st.files ∨ renamingEnds st.files (name file) folder = true ∧
    ∃ node, (process file st).1.files = st.files.write (getOutputPath st.files (name file) folder) node

variable {process} (h : WritesOutput process skipped name folder)
include h

theorem keeps_step {file : ι} {st : RunState host}
    (hclash : skipped file = true ∨ NoClash st.files (name file) folder) : Keeps st.files (process file st).1.files := by
  rcases hclash with hskip | hname
  · rw [h.skips file st hskip]
    exact Keeps.refl _
  · rcases h.writes file st with hsame | ⟨hends, node, hwrite⟩
    · rw [hsame]
      exact Keeps.refl _
    · rw [hwrite]
      exact keeps_write (hname.fresh hends) node

theorem keeps_run : ∀ (files : List ι) (st : RunState host),
    EachStep process (fun file st => skipped file = true ∨ NoClash st.files (name file) folder) files st →
    Keeps st.files (processAll process files st).1.files
  | [], st, _ => Keeps.refl _
  | file :: rest, st, hsteps => by
    have hstep := keeps_step h hsteps.1
    have hrest := hsteps.2
    unfold processAll
    generalize process file st = out at hstep hrest
    rcases out with ⟨st', _ | abort⟩
    · exact hstep.trans (keeps_run rest st' (hrest st' rfl))
    · exact hstep

theorem keepsFiles_of_noClash {files : List ι} {st : RunState host}
    (hsteps : EachStep process (fun file st => skipped file = true ∨ NoClash st.files (name file) folder) files st) :
    KeepsFiles process files st := by
  intro pre post mid hsplit hpre
  rw [hsplit] at hsteps ⊢
  rw [processAll_append process pre post st (by rw [hpre]), hpre]
  exact keeps_run h post mid (eachStep_append process hsteps hpre)

/-- A step adds one file at most, so a run keeps to fewer files than numbers if it starts with so many fewer. -/
theorem eachStep_of_few {P : ι → RunState host → Prop} : ∀ {files : List ι} {st : RunState host},
    (∀ file ∈ files, ∀ st : RunState host, 1 + st.files.keys.length < INT_MAX → P file st) →
      st.files.keys.length + files.length < INT_MAX → EachStep process P files st
  | [], _, _, _ => trivial
  | file :: rest, st, hP, hfew => by
    rw [List.length_cons] at hfew
    refine ⟨hP file (List.mem_cons_self ..) st (by omega), fun st' hstep => ?_⟩
    refine eachStep_of_few (fun f hf => hP f (List.mem_cons_of_mem _ hf)) ?_
    have hgrows : st'.files.keys.length ≤ st.files.keys.length + 1 := by
      rcases h.writes file st with hsame | ⟨-, node, hwrite⟩
      · rw [hstep] at hsame
        rw [hsame]
        exact Nat.le_succ _
      · rw [hstep] at hwrite
        rw [hwrite]
        exact length_keys_write _ _ _
    omega

theorem keepsFiles_of_fits {files : List ι} {st : RunState host}
    (hsteps : EachStep process (Fits skipped name folder) files st) : KeepsFiles process files st :=
  keepsFiles_of_noClash h (hsteps.imp process fun _ _ _ hfits => hfits.imp_right NameFits.noClash)

end

/-! ## The three engines -/

variable {host : Host}

/-- Working on a file gets a path and creates its output there, or leaves the files as they are and then ends the
run, unless it has got a path and nothing is to be recovered. -/
def FileOutcome (recover : Bool) (st : RunState host) (fullName folder : WString) (outcome : Outcome host) : Prop :=
  outcome.1.files = st.files ∧ (outcome.2 = none → renamingEnds st.files fullName folder = true ∧ recover = false) ∨
    HasPlace st.files fullName folder ∧
      ∃ node, outcome.1.files = st.files.write (getOutputPath st.files fullName folder) node

theorem writesOutput_of_outcome {ι : Type} {process : ι → RunState host → Outcome host} {skipped : ι → Bool}
    {name : ι → WString} {folder : WString} {recover : Bool}
    (hskips : ∀ file st, skipped file = true → process file st = (st, none))
    (houtcome : ∀ file st, skipped file = false → FileOutcome recover st (name file) folder (process file st)) :
    WritesOutput process skipped name folder where
  skips := hskips
  writes := by
    intro file st
    cases hskip : skipped file with
    | true => rw [hskips file st hskip]; exact .inl rfl
    | false =>
      rcases houtcome file st hskip with ⟨hsame, -⟩ | ⟨hplace, hwrite⟩
      · exact .inl hsame
      · exact .inr ⟨hplace.1, hwrite⟩

section
variable {recover : Bool} {st : RunState host} {fullName folder : WString} {outcome : Outcome host}
  (h : FileOutcome recover st fullName folder outcome)
include h

theorem FileOutcome.hasPlace (hrec : recover = true) (hnone : outcome.2 = none) : HasPlace st.files fullName folder := by
  rcases h with ⟨-, hkept⟩ | ⟨hplace, -⟩
  · cases hrec.symm.trans (hkept hnone).2
  · exact hplace

theorem FileOutcome.fails (hrec : recover = true)
    (hcreate : host.canCreate (getOutputPath st.files fullName folder) = false) : outcome.2 ≠ none := by
  intro hnone
  cases (h.hasPlace hrec hnone).2.symm.trans hcreate

end

/-- What a step does once it has a path. -/
theorem fileOutcome_of_path {recover : Bool} {st : RunState host} {fullName folder : WString} {outcome : Outcome host}
    (hends : ¬ (!renamingEnds st.files fullName folder) = true)
    (h : outcome.1.files = st.files ∧ (outcome.2 = none → recover = false) ∨
      host.canCreate (getOutputPath st.files fullName folder) = true ∧
        ∃ node, outcome.1.files = st.files.write (getOutputPath st.files fullName folder) node) :
    FileOutcome recover st fullName folder outcome := by
  have hends : renamingEnds st.files fullName folder = true := by simpa using hends
  exact h.imp (fun ⟨hsame, hkept⟩ => ⟨hsame, fun hnone => ⟨hends, hkept hnone⟩⟩)
    fun ⟨hcreate, hwrites⟩ => ⟨⟨hends, hcreate⟩, hwrites⟩

theorem FAT32.fileOutcome (v : Volume) (config : Config) (info : FileInfo) (st : RunState host)
    (hskip : isSkipped config info = false) :
    FileOutcome config.recover st info.fullName config.outputFolder (processFileForRecovery v config info st) := by
  unfold processFileForRecovery
  rw [hskip, if_neg Bool.false_ne_true]
  split
  · exact .inl ⟨rfl, fun h => by cases h⟩
  · rename_i hends
    refine fileOutcome_of_path hends ?_
    dsimp only
    split
    · exact .inl ⟨rfl, fun h => by cases h⟩
    · split
      · exact .inl ⟨rfl, fun h => by cases h⟩
      · split
        · unfold recoverFile
          split
          · rename_i hcreate
            exact .inr ⟨hcreate, _, rfl⟩
          · exact .inl ⟨rfl, fun h => by cases h⟩
        · rename_i hrec
          exact .inl ⟨rfl, fun _ => Bool.eq_false_iff.mpr hrec⟩

theorem ExFAT.fileOutcome (v : Volume) (config : Config) (info : FileInfo) (st : RunState host)
    (hskip : isSkipped config info = false) :
    FileOutcome config.recover st info.fileName config.outputFolder (processFileForRecovery v config info st) := by
  unfold processFileForRecovery
  rw [hskip, if_neg Bool.false_ne_true]
  split
  · exact .inl ⟨rfl, fun h => by cases h⟩
  · rename_i hends
    refine fileOutcome_of_path hends ?_
    dsimp only
    split
    · exact .inl ⟨rfl, fun h => by cases h⟩
    · split
      · unfold recoverFile
        split
        · rename_i hcreate
          exact .inr ⟨hcreate, _, rfl⟩
        · exact .inl ⟨rfl, fun h => by cases h⟩
      · rename_i hrec
        exact .inl ⟨rfl, fun _ => Bool.eq_false_iff.mpr hrec⟩

theorem NTFS.fileOutcome (v : Volume) (config : Config) (info : FileInfo) (st : RunState host)
    (hskip : isSkipped config info = false) :
    FileOutcome config.recover st info.fileName config.outputFolder (processFileForRecovery v config info st) := by
  unfold processFileForRecovery
  rw [hskip, if_neg Bool.false_ne_true]
  split
  · exact .inl ⟨rfl, fun h => by cases h⟩
  · rename_i hends
    refine fileOutcome_of_path hends ?_
    dsimp only
    split
    · exact .inl ⟨rfl, fun h => by cases h⟩
    · split
      · split
        · unfold recoverNonResidentFile
          split
          · rename_i hcreate
            exact .inr ⟨hcreate, _, rfl⟩
          · exact .inl ⟨rfl, fun h => by cases h⟩
        · unfold recoverResidentFile
          split
          · rename_i hcreate
            exact .inr ⟨hcreate, _, rfl⟩
          · exact .inl ⟨rfl, fun h => by cases h⟩
      · rename_i hrec
        exact .inl ⟨rfl, fun _ => Bool.eq_false_iff.mpr hrec⟩

theorem FAT32.writesOutput (v : Volume) (config : Config) (host : Host) :
    WritesOutput (processFileForRecovery v config : FileInfo → RunState host → Outcome host) (isSkipped config)
      FileInfo.fullName config.outputFolder :=
  writesOutput_of_outcome (fun _ _ hskip => if_pos hskip) (fileOutcome v config)

theorem ExFAT.writesOutput (v : Volume) (config : Config) (host : Host) :
    WritesOutput (processFileForRecovery v config : FileInfo → RunState host → Outcome host) (isSkipped config)
      FileInfo.fileName config.outputFolder :=
  writesOutput_of_outcome (fun _ _ hskip => if_pos hskip) (fileOutcome v config)

theorem NTFS.writesOutput (v : Volume) (config : Config) (host : Host) :
    WritesOutput (processFileForRecovery v config : FileInfo → RunState host → Outcome host) (isSkipped config)
      FileInfo.fileName config.outputFolder :=
  writesOutput_of_outcome (fun _ _ hskip => if_pos hskip) (fileOutcome v config)

/-- A name gets a free path exactly when it fits, which takes no more than a dot behind its first character and
fewer files than numbers, if no terminator stands before the dot. A run in which every name fits keeps every file. -/
theorem output_paths_fresh (host : Host) :
    (∀ (files : Files host) (fullName folder : WString),
      renamingEnds files fullName folder = true ∧ files.exists (getOutputPath files fullName folder) = false ↔
        NameFits files fullName folder) ∧
    (∀ (files : Files host) (fullName folder : WString) (n : Nat), findLastDot fullName = some (n + 1) →
      0 ∉ fullName.take (n + 1) → 1 + files.keys.length < INT_MAX → NameFits files fullName folder) ∧
    (∀ (v : FAT32.Volume) (config : Config) (files : List FAT32.FileInfo) (st : RunState host),
      EachStep (FAT32.processFileForRecovery v config)
          (Fits (FAT32.isSkipped config) FAT32.FileInfo.fullName config.outputFolder) files st →
        KeepsFiles (FAT32.processFileForRecovery v config) files st) ∧
    (∀ (v : ExFAT.Volume) (config : Config) (files : List ExFAT.FileInfo) (st : RunState host),
      EachStep (ExFAT.processFileForRecovery v config)
          (Fits (ExFAT.isSkipped config) ExFAT.FileInfo.fileName config.outputFolder) files st →
        KeepsFiles (ExFAT.processFileForRecovery v config) files st) ∧
    (∀ (v : NTFS.Volume) (config : Config) (files : List NTFS.FileInfo) (st : RunState host),
      EachStep (NTFS.processFileForRecovery v config)
          (Fits (NTFS.isSkipped config) NTFS.FileInfo.fileName config.outputFolder) files st →
        KeepsFiles (NTFS.processFileForRecovery v config) files st) :=
  ⟨getOutputPath_fresh_iff,
    fun _ _ folder _ => nameFits_of_few folder,
    fun v config _ _ => keepsFiles_of_fits (FAT32.writesOutput v config host),
    fun v config _ _ => keepsFiles_of_fits (ExFAT.writesOutput v config host),
    fun v config _ _ => keepsFiles_of_fits (NTFS.writesOutput v config host)⟩

theorem output_paths_fresh_dotted :
    KeepsFiles (ExFAT.processFileForRecovery (ExFAT.smallVolume []) { recover := true })
      [⟨1, wide "a.b", 9, 3⟩, ⟨2, wide "a.b", 9, 5⟩] { files := (∅ : Files plainHost) } := by
  refine (output_paths_fresh plainHost).2.2.2.1 (ExFAT.smallVolume []) { recover := true } _ _
    (eachStep_of_few (ExFAT.writesOutput _ _ _) (fun file hfile st hfew => .inr ?_) (by decide))
  have hname : file.fileName = wide "a.b" := by
    rcases List.mem_cons.mp hfile with rfl | hfile
    · rfl
    · rw [List.mem_singleton.mp hfile]
  rw [hname]
  exact (output_paths_fresh plainHost).2.1 _ _ _ 0 (by decide) (by decide) hfew

/-- The scan of a FAT32 volume lists only names that get numbers. -/
theorem FAT32.keepsFiles_of_scan (v : Volume) (config : Config) (iswalnum : UInt16 → Bool) {stack : Nat}
    {scan : ScanState} (hscan : scanRoot v config iswalnum stack {} = some scan) {host : Host} (st : RunState host) :
    KeepsFiles (processFileForRecovery v config) scan.recoveryList st :=
  keepsFiles_of_noClash (writesOutput v config host) (eachStep_of_forall _ st fun _ hinfo _ =>
    .inr (.inr (listed_of_scan v config iswalnum hscan hinfo).dotted))

/-- Two deleted files of the same name, without a dot. -/
def sameName : ExFAT.Volume :=
  ExFAT.smallVolume [(4, ExFAT.rawSet 0x20 3 9 ++ ExFAT.rawSet 0x20 5 9), (5, [1, 2, 3]), (7, [4, 5, 6])]

theorem sameName_overwritten :
    ¬ ((∀ (host : Host) (files : Files host) (fullName folder : WString),
        renamingEnds files fullName folder = true ∧ files.exists (getOutputPath files fullName folder) = false) ∧
      ∀ (v : ExFAT.Volume) (config : Config) (stack : Nat) (scan : ExFAT.ScanState) (host : Host) (st : RunState host),
        ExFAT.scanRoot v config stack {} = some scan →
          KeepsFiles (ExFAT.processFileForRecovery v config) scan.recoveryList st) := by
  intro ⟨_, h⟩
  let config : Config := { recover := true }
  let first : ExFAT.FileInfo := ⟨1, wide "D", 9, 3⟩
  let second : ExFAT.FileInfo := ⟨2, wide "D", 9, 5⟩
  obtain ⟨scan, hscan, hlist⟩ : ∃ scan, ExFAT.scanRoot sameName config 3 {} = some scan ∧
      scan.recoveryList = [first, second] := Option.map_eq_some_iff.mp (by decide +kernel)
  let start : RunState plainHost := { files := ∅ }
  let path : Path := ⟨config.outputFolder, wide "D"⟩
  have hpath : ∀ files : Files plainHost, getOutputPath files (wide "D") config.outputFolder = path := fun files =>
    getOutputPath_of_not_dotted fun ⟨n, hn⟩ => by
      rw [show findLastDot (wide "D") = none by decide] at hn
      cases hn
  have hends : ∀ files : Files plainHost, renamingEnds files (wide "D") config.outputFolder = true := fun files => rfl
  have hstep : ∀ (info : ExFAT.FileInfo), info = first ∨ info = second → ∀ st : RunState plainHost,
      ∃ st', ExFAT.processFileForRecovery sameName config info st = (st', none) ∧
        st'.files.read path = some (.data (ExFAT.recoveredData sameName info)) := by
    intro info hinfo st
    have hname : info.fileName = wide "D" := by rcases hinfo with rfl | rfl <;> rfl
    have hskip : ExFAT.isSkipped config info = false := by rcases hinfo with rfl | rfl <;> decide
    obtain ⟨hnone, hfiles⟩ := ExFAT.processFileForRecovery_files sameName config hskip
      (show renamingEnds st.files info.fileName config.outputFolder = true by rw [hname]; exact hends _) rfl rfl rfl
    refine ⟨_, Prod.ext rfl hnone, ?_⟩
    rw [hfiles, hname, hpath]
    exact read_write _ _ _
  obtain ⟨mid, hmid, hread⟩ := hstep first (.inl rfl) start
  obtain ⟨final, hfinal, hread'⟩ := hstep second (.inr rfl) mid
  have hpre : processAll (ExFAT.processFileForRecovery sameName config) [first] start = (mid, none) := by
    unfold processAll
    rw [hmid]
    rfl
  have hrun : processAll (ExFAT.processFileForRecovery sameName config) [first, second] start = (final, none) := by
    unfold processAll
    rw [hmid]
    show processAll (ExFAT.processFileForRecovery sameName config) [second] mid = _
    unfold processAll
    rw [hfinal]
    rfl
  have hkeeps := h sameName config 3 scan plainHost start hscan
  rw [hlist] at hkeeps
  have hkept := hkeeps [first] [second] mid rfl hpre path _ hread
  rw [hrun, hread'] at hkept
  have hdata := Node.data.inj (Option.some.inj hkept)
  exact absurd hdata (by decide +kernel)

end DataRecovery
