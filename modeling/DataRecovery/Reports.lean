import DataRecovery.ChainWalk
import DataRecovery.CopyExact
import DataRecovery.ExFAT.ScanExact
import DataRecovery.StoredFiles

/-!
# What the program reports

FAT32 and exFAT runs show a result for each recovered file, after that of its analysis. The
bytes it gives are those in the file, also where sectors could not be read, and the clusters
are no more than those the file is said to need.
-/

namespace DataRecovery

/-! ## One copy -/

section
variable {κ : Type} (read : UInt64 → Option (List UInt8)) (bytesPerSector expectedSize : UInt64)
  (sectorsOf : κ → List UInt64)

theorem copyChain_clusters_le : ∀ (chain : List κ) (st : CopyState),
    (copyChain read bytesPerSector expectedSize sectorsOf chain st).recoveredClusters.toNat ≤
      st.recoveredClusters.toNat + chain.length
  | [], _ => Nat.le_refl _
  | c :: rest, st => by
    have hcluster : (copyCluster read bytesPerSector expectedSize (sectorsOf c) st).recoveredClusters =
        st.recoveredClusters := copyCluster_clusters (sectorsOf c) st
    have hone : (st.recoveredClusters + 1).toNat ≤ st.recoveredClusters.toNat + 1 := by
      rw [UInt64.toNat_add]
      exact Nat.mod_le _ _
    unfold copyChain
    dsimp only
    rw [hcluster, List.length_cons]
    split
    · dsimp only
      omega
    · refine Nat.le_trans (copyChain_clusters_le rest _) ?_
      dsimp only
      omega

variable {read bytesPerSector expectedSize}

theorem copyChain_counts (hread : ∀ {sector buffer}, read sector = some buffer → buffer.length = bytesPerSector.toNat)
    (hpos : 0 < expectedSize) (chain : List κ) :
    let copied := copyChain read bytesPerSector expectedSize sectorsOf chain {}
    copied.recoveredBytes.toNat = copied.written.length ∧ copied.recoveredBytes ≤ expectedSize ∧
      copied.recoveredClusters.toNat ≤ chain.length := by
  have hempty : Wrote expectedSize [] {} := ⟨(List.take_nil).symm, (Nat.min_zero _).symm⟩
  have hwrote := wrote_copyChain read bytesPerSector expectedSize hread sectorsOf chain hempty
    (UInt64.lt_iff_toNat_lt.mp hpos)
  rw [List.nil_append] at hwrote
  refine ⟨?_, ?_, ?_⟩
  · rw [hwrote.1, hwrote.2, List.length_take]
  · rw [UInt64.le_iff_toNat_le, hwrote.2]
    exact Nat.min_le_left _ _
  · have hle := copyChain_clusters_le read bytesPerSector expectedSize sectorsOf chain {}
    rwa [show (({} : CopyState).recoveredClusters.toNat) = 0 from rfl, Nat.zero_add] at hle

end

/-! ## Runs -/

structure ReportTrue (data : List UInt8) (fileSize expectedClusters : UInt64) (status : RecoveryStatus) : Prop where
  bytes : status.recoveredBytes.toNat = data.length
  bytes_le : status.recoveredBytes ≤ fileSize
  expected : status.expectedClusters = expectedClusters
  clusters_le : status.recoveredClusters ≤ expectedClusters

def Reported (analyze : Bool) (data : List UInt8) (fileSize expectedClusters : UInt64) (shown : List RecoveryStatus) : Prop :=
  ∃ analysed result, shown = analysed ++ [result] ∧ analysed.length = (if analyze then 1 else 0) ∧
    ReportTrue data fileSize expectedClusters result

section
variable {host : Host} {ι : Type} {process : ι → RunState host → Outcome host} {skipped : ι → Bool}
  {shows : ι → List RecoveryStatus → Prop}

theorem shown_of_processAll (hskips : ∀ file st, skipped file = true → process file st = (st, none))
    (hshows : ∀ file st st', skipped file = false → process file st = (st', none) →
      ∃ shown, st'.shown = st.shown ++ shown ∧ shows file shown) : ∀ {files : List ι} {st st' : RunState host},
    processAll process files st = (st', none) →
      ∃ reports : List (List RecoveryStatus), st'.shown = st.shown ++ reports.flatten ∧
        List.Forall₂ shows (files.filter fun file => !skipped file) reports
  | [], st, st', hrun => by
    cases hrun
    exact ⟨[], (List.append_nil _).symm, .nil⟩
  | file :: rest, st, st', hrun => by
    unfold processAll at hrun
    split at hrun
    · cases hrun
    · rename_i mid hstep
      obtain ⟨reports, hshown, hreports⟩ := shown_of_processAll hskips hshows hrun
      cases hskip : skipped file with
      | true =>
        rw [hskips file st hskip] at hstep
        cases hstep
        rw [List.filter_cons_of_neg (by rw [hskip]; exact Bool.false_ne_true)]
        exact ⟨reports, hshown, hreports⟩
      | false =>
        obtain ⟨shown, hmid, hshow⟩ := hshows file st mid hskip hstep
        rw [List.filter_cons_of_pos (by rw [hskip]; rfl)]
        refine ⟨shown :: reports, ?_, .cons hshow hreports⟩
        rw [hshown, hmid, List.flatten_cons, List.append_assoc]

end

/-- The result of copying a chain, with the counters that the status has before it. -/
theorem reportTrue_of_copy {κ : Type} {read : UInt64 → Option (List UInt8)} {bytesPerSector fileSize : UInt64}
    {sectorsOf : κ → List UInt64} {chain : List κ} {status : RecoveryStatus} {expectedClusters : UInt64}
    (hread : ∀ {sector buffer}, read sector = some buffer → buffer.length = bytesPerSector.toNat) (hpos : 0 < fileSize)
    (hprogress : status.progress = (expectedClusters, 0, 0)) (hlen : chain.length ≤ expectedClusters.toNat) :
    let copied := copyChain read bytesPerSector fileSize sectorsOf chain
      { recoveredBytes := status.recoveredBytes, recoveredClusters := status.recoveredClusters }
    ReportTrue (copyChain read bytesPerSector fileSize sectorsOf chain {}).written fileSize expectedClusters
      { status with recoveredBytes := copied.recoveredBytes, recoveredClusters := copied.recoveredClusters } := by
  unfold RecoveryStatus.progress at hprogress
  simp only [Prod.mk.injEq] at hprogress
  obtain ⟨hexpected, hclusters, hbytes⟩ := hprogress
  obtain ⟨hwritten, hle, hcount⟩ := copyChain_counts sectorsOf hread hpos chain
  dsimp only
  rw [hclusters, hbytes]
  exact ⟨hwritten, hle, hexpected, UInt64.le_iff_toNat_le.mpr (Nat.le_trans hcount hlen)⟩

theorem shown_split (analyze : Bool) (shown : List RecoveryStatus) (status result : RecoveryStatus) :
    (if analyze then shown ++ [status] else shown) ++ [result] =
      shown ++ ((if analyze then [status] else []) ++ [result]) := by
  cases analyze with
  | false => rfl
  | true => exact List.append_assoc ..

theorem length_analysed (analyze : Bool) (status : RecoveryStatus) :
    (if analyze then [status] else []).length = if analyze then 1 else 0 := by
  cases analyze <;> rfl

theorem size_pos_of_not_skipped {fileSize : UInt64} {targeted : Bool} (h : (decide (fileSize = 0) || targeted) = false) :
    0 < fileSize := by
  rw [Bool.or_eq_false_iff, decide_eq_false_iff_not] at h
  exact UInt64.pos_iff_ne_zero.mpr h.1

section
variable (config : Config) (host : Host) (hrec : config.recover = true)
include hrec

theorem FAT32.shows_result (v : Volume) (info : FileInfo) (st st' : RunState host) (hskip : isSkipped config info = false)
    (hstep : processFileForRecovery v config info st = (st', none)) :
    ∃ shown, st'.shown = st.shown ++ shown ∧ Reported config.analyze (recoveredData v info) info.fileSize
      (v.expectedClusters info.fileSize.toUInt32).toUInt64 shown := by
  obtain ⟨hends, hcreate⟩ := (fileOutcome v config info st hskip).hasPlace hrec (by rw [hstep])
  have hsize := fileSize_of_returns v config hskip hstep
  obtain ⟨status, analysis, hvalidate, hprogress⟩ := validateClusterChain_eq v config
    (startStatus v info.fileSize.toUInt32) info.cluster info.fileSize.toUInt32
    (getOutputPath st.files info.fullName config.outputFolder) false st.analysis
  have hsize64 : info.fileSize.toUInt32.toUInt64 = info.fileSize := by
    apply UInt64.toNat_inj.mp
    rw [UInt32.toNat_toUInt64, UInt64.toNat_toUInt32]
    exact Nat.mod_eq_of_lt (Nat.lt_succ_of_le (UInt64.le_iff_toNat_le.mp hsize))
  have hpos : 0 < info.fileSize.toUInt32.toUInt64 := by
    rw [hsize64]
    exact size_pos_of_not_skipped hskip
  have hreport := @reportTrue_of_copy _ v.readSector v.bytesPerSector.toUInt64 info.fileSize.toUInt32.toUInt64
    v.sectorsOf (chainFrom v.getNextCluster (startStatus v info.fileSize.toUInt32).expectedClusters.toNat info.cluster)
    status _ Volume.length_of_readSector hpos hprogress (length_chainFrom _ _ _)
  have hcount : (startStatus v info.fileSize.toUInt32).expectedClusters.toNat =
      (v.expectedClusters info.fileSize.toUInt32).toNat := UInt32.toNat_toUInt64 _
  rw [processFileForRecovery_validated v config hskip hends hsize hvalidate] at hstep
  dsimp only at hstep
  rw [if_pos hrec] at hstep
  unfold recoverFile at hstep
  rw [if_pos hcreate] at hstep
  cases hstep
  refine ⟨_, shown_split _ _ _ _, _, _, rfl, length_analysed _ _, ?_⟩
  rw [hcount] at hreport ⊢
  exact ⟨hreport.bytes, (congrArg (_ ≤ ·) hsize64).mp hreport.bytes_le, hreport.expected, hreport.clusters_le⟩

theorem ExFAT.shows_result (v : Volume) (info : FileInfo) (st st' : RunState host) (hskip : isSkipped config info = false)
    (hstep : processFileForRecovery v config info st = (st', none)) :
    ∃ shown, st'.shown = st.shown ++ shown ∧ Reported config.analyze (recoveredData v info) info.fileSize
      (v.expectedClusters info.fileSize) shown := by
  obtain ⟨hends, hcreate⟩ := (fileOutcome v config info st hskip).hasPlace hrec (by rw [hstep])
  have hchain := validateClusterChain_chain v config info.cluster info.fileSize
    (getOutputPath st.files info.fileName config.outputFolder) false st.analysis
  unfold processFileForRecovery at hstep
  rw [hskip, if_neg Bool.false_ne_true, hends, Bool.not_true, if_neg Bool.false_ne_true] at hstep
  dsimp only at hstep
  split at hstep
  · cases hstep
  · rename_i clusterChain status analysis hvalidate
    have hprogress : status.progress = (v.expectedClusters info.fileSize, 0, 0) :=
      validateClusterChain_progress (congrArg Prod.snd hvalidate)
    rw [hvalidate] at hchain
    dsimp only at hchain
    have hreport := @reportTrue_of_copy _ v.readSector v.bytesPerSector.toUInt64 info.fileSize v.sectorsOf clusterChain
      status _ Volume.length_of_readSector (size_pos_of_not_skipped hskip) hprogress
      (hchain ▸ length_chainFrom _ _ _)
    rw [if_pos hrec] at hstep
    unfold recoverFile at hstep
    rw [if_pos hcreate] at hstep
    cases hstep
    refine ⟨_, shown_split _ _ _ _, _, _, rfl, length_analysed _ _, ?_⟩
    rw [recoveredData, ← hchain]
    exact hreport

end

namespace Engine
variable {host : Host} {config : Config} {ι : Type} (engine : Engine host config ι)

def ShowsChosen (shows : ι → List RecoveryStatus → Prop) (input : List UInt8) (st st' : RunState host) : Prop :=
  ∃ rest recoveryList selected reports, proceedToScan (openLogFile config st.files).1 input = .ok rest ∧
    engine.scan = .ok recoveryList ∧ engine.chosen rest recoveryList = some selected ∧
    st'.shown = st.shown ++ reports.flatten ∧
    List.Forall₂ shows (selected.filter fun file => !engine.isSkipped file) reports

theorem showsChosen_of_returns {shows : ι → List RecoveryStatus → Prop}
    (hshows : ∀ file st st', engine.isSkipped file = false → engine.processFileForRecovery file st = (st', none) →
      ∃ shown, st'.shown = st.shown ++ shown ∧ shows file shown)
    {input : List UInt8} {st st' : RunState host} (h : engine.startRecovery .logical input st = (st', none)) :
    engine.ShowsChosen shows input st st' := by
  obtain ⟨rest, recoveryList, selected, hproceed, hscan, hchosen, hrun⟩ := engine.startRecovery_returns h
  obtain ⟨reports, hshown, hreports⟩ := shown_of_processAll engine.writes.skips hshows hrun
  exact ⟨rest, recoveryList, selected, reports, hproceed, hscan, hchosen, hshown, hreports⟩

end Engine

/-- A run that returns, with files to be recovered, has shown a true result for each of the files it worked on. -/
theorem runs_report_truly (host : Host) {config : Config} (hrec : config.recover = true) (input : List UInt8)
    (st st' : RunState host) :
    (∀ (v : FAT32.Volume) (iswalnum : UInt16 → Bool) (stack : Nat),
      (FAT32.engine host config v iswalnum stack).startRecovery .logical input st = (st', none) →
        (FAT32.engine host config v iswalnum stack).ShowsChosen (fun info => Reported config.analyze
          (FAT32.recoveredData v info) info.fileSize (v.expectedClusters info.fileSize.toUInt32).toUInt64) input st st') ∧
    (∀ (v : ExFAT.Volume) (stack : Nat), ExFAT.startRecovery host config v stack .logical input st = (st', none) →
      (ExFAT.engine host config v stack).ShowsChosen (fun info => Reported config.analyze
        (ExFAT.recoveredData v info) info.fileSize (v.expectedClusters info.fileSize)) input st st') :=
  ⟨fun v _ _ => Engine.showsChosen_of_returns _ (FAT32.shows_result config host hrec v),
    fun v _ => Engine.showsChosen_of_returns _ (ExFAT.shows_result config host hrec v)⟩

theorem runs_report_truly_small :
    (FAT32.engine plainHost { recover := true, analyze := true } FAT32.nested (fun _ => true) 3).ShowsChosen
      (fun info => Reported true (FAT32.recoveredData FAT32.nested info) info.fileSize
        (FAT32.nested.expectedClusters info.fileSize.toUInt32).toUInt64) [byte '1'] { files := ∅ }
      ((FAT32.engine plainHost { recover := true, analyze := true } FAT32.nested (fun _ => true) 3).startRecovery .logical
        [byte '1'] { files := ∅ }).1 ∧
    (ExFAT.engine plainHost { recover := true } ExFAT.nested 2).ShowsChosen
      (fun info => Reported false (ExFAT.recoveredData ExFAT.nested info) info.fileSize
        (ExFAT.nested.expectedClusters info.fileSize)) [byte '1'] { files := ∅ }
      (ExFAT.startRecovery plainHost { recover := true } ExFAT.nested 2 .logical [byte '1'] { files := ∅ }).1 := by
  refine ⟨?_, ?_⟩
  · refine (runs_report_truly plainHost rfl [byte '1'] { files := ∅ } _).1 FAT32.nested (fun _ => true) 3 (eq_of_returns ?_)
    decide +kernel
  · refine (runs_report_truly plainHost rfl [byte '1'] { files := ∅ } _).2 ExFAT.nested 2 (eq_of_returns ?_)
    decide +kernel

end DataRecovery
