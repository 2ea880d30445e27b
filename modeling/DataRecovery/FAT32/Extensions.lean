import DataRecovery.FAT32.ContiguousVerdict
import DataRecovery.FAT32.ListedNames

/-!
# Extensions

`parseFileInfo` keeps the part after the last dot of a name, unless that dot comes first,
when it is alphanumeric, and predicts the extension otherwise. An empty part passes for
alphanumeric, and the prediction is forgotten before the analysis.
-/

namespace DataRecovery.FAT32
open Traversal

theorem hasExtension_nil_iff {name : WString} : HasExtension name [] ↔ ∃ s, s ≠ [] ∧ name = s ++ [dot] :=
  exists_congr fun _ => and_congr_right fun _ => and_iff_left List.not_mem_nil

section
variable (v : Volume) (iswalnum : UInt16 → Bool) (fileId : UInt16) (name : WString) (startCluster expectedSize : UInt32)

theorem isExtensionPredicted_iff :
    (v.parseFileInfo iswalnum fileId name startCluster expectedSize).isExtensionPredicted = true ↔
      ¬ ValidExtension iswalnum name := by
  rcases parseFileInfo_cases v iswalnum fileId name startCluster expectedSize with
    ⟨s, ext, hs, hname, hdot, hall, hinfo⟩ | ⟨hinvalid, s, -, -, hinfo⟩
  · rw [hinfo]
    exact iff_of_false Bool.false_ne_true (not_not_intro ⟨ext, ⟨s, hs, hname, hdot⟩, hall⟩)
  · rw [hinfo]
    exact iff_of_true rfl hinvalid

end

/-! ## Usable names -/

def isAsciiAlnum (c : UInt16) : Bool :=
  0x30 ≤ c && c ≤ 0x39 || 0x41 ≤ c && c ≤ 0x5A || 0x61 ≤ c && c ≤ 0x7A

theorem predictExtension_ne_nil (v : Volume) (cluster : UInt32) : v.predictExtension cluster ≠ [] :=
  guessFileExtension_of_rows (P := (· ≠ [])) (by decide) (by decide) _

theorem predictExtension_alnum (v : Volume) (cluster : UInt32) : (v.predictExtension cluster).all isAsciiAlnum = true :=
  guessFileExtension_of_rows (P := fun ext => ext.all isAsciiAlnum = true) (by decide) (by decide) _

structure UsableRecord (iswalnum : UInt16 → Bool) (name : WString) (info : FileInfo) : Prop where
  joined : info.fullName = info.fileName ++ [dot] ++ info.extension
  nonempty : info.extension ≠ []
  alphanumeric : ∀ c ∈ info.extension, iswalnum c = true
  predicted_iff : info.isExtensionPredicted = true ↔
    ¬ ∃ ext, HasExtension name ext ∧ ext ≠ [] ∧ ∀ c ∈ ext, iswalnum c = true

/-- The record is usable exactly when the name does not end with a dot after its base. -/
theorem usable_record_iff (v : Volume) (iswalnum : UInt16 → Bool)
    (halnum : ∀ c, isAsciiAlnum c = true → iswalnum c = true) (fileId : UInt16) (name : WString) (hzero : 0 ∉ name)
    (startCluster expectedSize : UInt32) :
    UsableRecord iswalnum name (v.parseFileInfo iswalnum fileId name startCluster expectedSize) ↔
      ¬ ∃ s, s ≠ [] ∧ name = s ++ [dot] := by
  have hclean : name.filter (· != 0) = name :=
    List.filter_eq_self.mpr fun c hc => bne_iff_ne.mpr (ne_of_mem_of_not_mem hc hzero)
  rw [← hasExtension_nil_iff]
  rcases parseFileInfo_cases v iswalnum fileId name startCluster expectedSize with
    ⟨s, ext, hs, hname, hdot, hall, hinfo⟩ | ⟨hinvalid, s, -, -, hinfo⟩
  · have hext : HasExtension name ext := ⟨s, hs, hname, hdot⟩
    rw [hinfo]
    constructor
    · exact fun h hnil => h.nonempty (hext.unique hnil)
    · intro hnil
      have hne : ext ≠ [] := fun h0 => hnil (h0 ▸ hext)
      constructor
      · rw [hclean, List.append_assoc]
        exact hname
      · exact hne
      · exact hall
      · exact iff_of_false Bool.false_ne_true (not_not_intro ⟨ext, hext, hne, hall⟩)
  · rw [hinfo]
    refine iff_of_true ⟨rfl, predictExtension_ne_nil v startCluster, ?_, ?_⟩ ?_
    · exact fun c hc => halnum c (List.all_eq_true.mp (predictExtension_alnum v startCluster) c hc)
    · exact iff_of_true rfl fun ⟨ext, hext, _, hall⟩ => hinvalid ⟨ext, hext, hall⟩
    · exact fun hnil => hinvalid ⟨[], hnil, List.forall_mem_nil _⟩

theorem usable_record_readme :
    UsableRecord isAsciiAlnum (wide ".read.me")
        ((smallVolume []).parseFileInfo isAsciiAlnum 1 (wide ".read.me") 4 9) ↔
      ¬ ∃ s, s ≠ [] ∧ wide ".read.me" = s ++ [dot] :=
  usable_record_iff (smallVolume []) isAsciiAlnum (fun _ h => h) 1 (wide ".read.me") (by decide) 4 9

/-- After the last dot of "A." there is nothing, and nothing is kept as the extension. -/
theorem empty_extension_kept :
    ¬ ∀ (v : Volume) (iswalnum : UInt16 → Bool), (∀ c, isAsciiAlnum c = true → iswalnum c = true) →
      ∀ (fileId : UInt16) (name : WString), 0 ∉ name → ∀ startCluster expectedSize : UInt32,
        UsableRecord iswalnum name (v.parseFileInfo iswalnum fileId name startCluster expectedSize) := by
  intro h
  have hrecord := h (smallVolume []) isAsciiAlnum (fun _ hc => hc) 1 (wide "A.") (by decide) 4 9
  exact hrecord.nonempty (by decide)

/-! ## From the scan to the analysis -/

def ExtensionFlagged (info : FileInfo) (status : RecoveryStatus) : Prop :=
  if info.isExtensionPredicted then status.hasInvalidExtension = true ∧ status.isCorrupted = true
  else status.hasInvalidExtension = false

def ExtensionReported (v : Volume) (config : Config) {host : Host} (info : FileInfo) (st : RunState host) : Prop :=
  ∃ statuses, statuses ≠ [] ∧ (processFileForRecovery v config info st).1.shown = st.shown ++ statuses ∧
    ∀ status ∈ statuses, ExtensionFlagged info status

section
variable {v : Volume} {config : Config} {host : Host}

theorem recoverFile_shown (clusterChain : List UInt32) {status : RecoveryStatus} (outputPath : Path)
    (expectedSize : UInt32) (st : RunState host) (hstatus : status.hasInvalidExtension = false) :
    ∃ statuses, (recoverFile v clusterChain status outputPath expectedSize st).1.shown = st.shown ++ statuses ∧
      ∀ status ∈ statuses, status.hasInvalidExtension = false := by
  unfold recoverFile
  split
  · exact ⟨_, rfl, fun _ h => List.mem_singleton.mp h ▸ hstatus⟩
  · exact ⟨[], (List.append_nil _).symm, List.forall_mem_nil _⟩

theorem validated_extension (hanalyze : config.analyze = true) (startCluster size : UInt32) (outputPath : Path)
    (st : AnalysisState) :
    ∃ clusterChain status st', validateClusterChain v config (startStatus v size) startCluster size outputPath false st =
        (clusterChain, .ok (status, st')) ∧ status.hasInvalidExtension = false := by
  have hconfig : { config with analyze := true } = config := hanalyze ▸ rfl
  obtain ⟨hasOverwrite, st', -, hok⟩ := @validated v startCluster size config outputPath st
  rw [hconfig] at hok
  exact ⟨_, _, st', Prod.ext rfl hok, rfl⟩

theorem processFileForRecovery_shown {info : FileInfo} (hlisted : Listed v info) (hanalyze : config.analyze = true)
    (hskip : isSkipped config info = false) {st : RunState host}
    (hends : renamingEnds st.files info.fullName config.outputFolder = true) :
    ∃ statuses, statuses ≠ [] ∧ (processFileForRecovery v config info st).1.shown = st.shown ++ statuses ∧
      ∀ status ∈ statuses, status.hasInvalidExtension = false := by
  obtain ⟨clusterChain, status, analysis, hvalidate, hstatus⟩ := @validated_extension v config hanalyze info.cluster
    info.fileSize.toUInt32 (getOutputPath st.files info.fullName config.outputFolder) st.analysis
  rw [processFileForRecovery_validated v config hskip hends hlisted.fileSize_le hvalidate]
  dsimp only
  rw [hanalyze, if_pos rfl]
  split
  · obtain ⟨statuses, hshown, hall⟩ := recoverFile_shown (v := v) clusterChain
      (getOutputPath st.files info.fullName config.outputFolder) info.fileSize.toUInt32
      { st with analysis, shown := st.shown ++ [status] } hstatus
    rw [hshown, List.append_assoc]
    exact ⟨_, List.cons_ne_nil _ _, rfl, List.forall_mem_cons.mpr ⟨hstatus, hall⟩⟩
  · exact ⟨_, List.cons_ne_nil _ _, rfl, List.forall_mem_singleton.mpr hstatus⟩

/-- The report is right exactly for the files whose extension was not predicted, if there is a name left for them. -/
theorem reported_iff_not_predicted {info : FileInfo} (hlisted : Listed v info) (hanalyze : config.analyze = true)
    (hskip : isSkipped config info = false) (st : RunState host) :
    ExtensionReported v config info st ↔
      ¬ info.isExtensionPredicted = true ∧ ¬ AllTaken st.files info.fullName config.outputFolder := by
  rw [← renamingEnds_iff (hlisted.dotted v)]
  cases hends : renamingEnds st.files info.fullName config.outputFolder with
  | false =>
    -- nothing is shown
    refine iff_of_false ?_ fun h => (by cases h.2)
    rintro ⟨statuses, hne, hshown, -⟩
    unfold processFileForRecovery at hshown
    rw [hskip, if_neg Bool.false_ne_true, hends, Bool.not_false, if_pos rfl] at hshown
    exact hne (List.self_eq_append_right.mp hshown)
  | true =>
    rw [and_iff_left rfl]
    obtain ⟨statuses, hne, hshown, hall⟩ := processFileForRecovery_shown hlisted hanalyze hskip hends
    constructor
    · rintro ⟨statuses', -, hshown', hflagged⟩ hpredicted
      obtain rfl := List.append_cancel_left (hshown.symm.trans hshown')
      obtain ⟨status, hstatus⟩ := List.exists_mem_of_ne_nil statuses hne
      have hflag := hflagged status hstatus
      rw [ExtensionFlagged, if_pos hpredicted, hall status hstatus] at hflag
      exact Bool.false_ne_true hflag.1
    · intro hkept
      refine ⟨statuses, hne, hshown, fun status hstatus => ?_⟩
      rw [ExtensionFlagged, if_neg hkept]
      exact hall status hstatus

end

/-- A listed file is the record of a deleted entry, and its extension is reported right exactly when
the name of that entry has a valid one, and `getOutputPath` has a name left for the output. -/
theorem extension_reported_iff (v : Volume) (config : Config) (iswalnum : UInt16 → Bool) {stack : Nat} {scan : ScanState}
    (hscan : scanRoot v config iswalnum stack {} = some scan) {info : FileInfo} (hinfo : info ∈ scan.recoveryList)
    (hanalyze : config.analyze = true) (hskip : isSkipped config info = false) {host : Host} (st : RunState host) :
    ∃ (c : UInt32) (f : Found) (fileId : UInt16), Emits (actions v) c f ∧
      info = v.parseFileInfo iswalnum fileId f.filename f.cluster f.size ∧
      (ExtensionReported v config info st ↔
        ValidExtension iswalnum f.filename ∧ ¬ AllTaken st.files info.fullName config.outputFolder) := by
  have hlisted := listed_of_scan v config iswalnum hscan hinfo
  obtain ⟨c, f, hem, fileId, hparse⟩ := exists_event_of_listed v config iswalnum hscan hinfo
  refine ⟨c, f, fileId, hem, hparse, ?_⟩
  rw [reported_iff_not_predicted hlisted hanalyze hskip, hparse, isExtensionPredicted_iff, not_not]

/-- A deleted file of nine bytes in cluster 4, whose extension is one character. -/
def oneDeleted (letter : UInt8) : Volume := smallVolume [(2, (rawEntry 0xE5 0x20 4 9).set 8 letter)]

def keptInfo : FileInfo := ⟨1, wide "_.T", wide "_", wide "T", 9, 4, false⟩

def predictedInfo : FileInfo := ⟨1, wide "_.bin", wide "_", wide "bin", 9, 4, true⟩

theorem oneDeleted_scanned {letter : UInt8} {info : FileInfo}
    (h : (scanRoot (oneDeleted letter) { analyze := true } isAsciiAlnum 1 {}).map ScanState.recoveryList = some [info]) :
    ∃ scan, scanRoot (oneDeleted letter) { analyze := true } isAsciiAlnum 1 {} = some scan ∧
      info ∈ scan.recoveryList := by
  obtain ⟨scan, hscan, hlist⟩ := Option.map_eq_some_iff.mp h
  exact ⟨scan, hscan, hlist ▸ List.mem_singleton.mpr rfl⟩

theorem kept_extension_reported :
    ∃ (c : UInt32) (f : Found) (fileId : UInt16), Emits (actions (oneDeleted 0x54)) c f ∧
      keptInfo = (oneDeleted 0x54).parseFileInfo isAsciiAlnum fileId f.filename f.cluster f.size ∧
      (ExtensionReported (oneDeleted 0x54) { analyze := true } keptInfo { files := (∅ : Files plainHost) } ↔
        ValidExtension isAsciiAlnum f.filename ∧
          ¬ AllTaken (∅ : Files plainHost) keptInfo.fullName (wide "Recovered")) := by
  obtain ⟨scan, hscan, hmem⟩ := @oneDeleted_scanned 0x54 keptInfo (by decide +kernel)
  exact extension_reported_iff (oneDeleted 0x54) { analyze := true } isAsciiAlnum hscan hmem rfl rfl _

/-- The extension of a file without one is predicted, and not reported. -/
theorem extension_unreported :
    ¬ ∀ (v : Volume) (config : Config) (iswalnum : UInt16 → Bool) (stack : Nat) (scan : ScanState),
      scanRoot v config iswalnum stack {} = some scan → ∀ info ∈ scan.recoveryList, config.analyze = true →
        isSkipped config info = false → ∀ (host : Host) (st : RunState host), ExtensionReported v config info st := by
  intro h
  obtain ⟨scan, hscan, hmem⟩ := @oneDeleted_scanned 0x20 predictedInfo (by decide +kernel)
  have hlisted := listed_of_scan (oneDeleted 0x20) _ _ hscan hmem
  have hreported := h (oneDeleted 0x20) { analyze := true } isAsciiAlnum 1 scan hscan predictedInfo hmem rfl rfl
    plainHost { files := (∅ : Files plainHost) }
  exact ((reported_iff_not_predicted hlisted rfl rfl _).mp hreported).1 rfl

end DataRecovery.FAT32
