import DataRecovery.FAT32.Addressing
import DataRecovery.FAT32.ClusterCount
import DataRecovery.KeptFiles

/-!
# Undeleting a contiguous file

A file whose clusters follow each other, with the zeroed table entries a deletion
leaves, is restored byte for byte, and no file recovered before or after it in the
run touches its output.
-/

namespace DataRecovery.FAT32

/-! ## Geometry over the integers -/

def dataStart (b : BootSector) : Nat := b.reservedSectorCount.toNat + b.numFATs.toNat * b.fatSize32.toNat

/-- Directory entries fill the sectors, and the regions before the data fit the volume. -/
structure Consistent (b : BootSector) : Prop where
  entries_fit : 32 ∣ b.bytesPerSector.toNat
  regions_fit : dataStart b + b.rootDirSectors.toNat ≤ b.totalSectors.toNat

namespace Volume
variable (v : Volume)

def sectorAt (c i : Nat) : UInt64 :=
  .ofNat (dataStart v.bootSector + (c - 2) * v.bootSector.sectorsPerCluster.toNat + i)

def clusterData (c : Nat) : List UInt8 :=
  (List.range v.bootSector.sectorsPerCluster.toNat).flatMap fun i => (v.readSector (v.sectorAt c i)).getD []

/-- The low 28 bits of a cluster's entry in the table; the others are reserved. -/
def fatEntry (c : Nat) : Option UInt32 :=
  (v.readSector (.ofNat (v.bootSector.reservedSectorCount.toNat + 4 * c / v.bootSector.bytesPerSector.toNat))).map
    fun buffer => le32 buffer (4 * c % v.bootSector.bytesPerSector.toNat) &&& 0x0FFFFFFF

end Volume

structure Contiguous (v : Volume) (c n : Nat) : Prop where
  in_data_region : c + n ≤ v.driveInfo.maxClusterCount.toNat + 2
  below_bad : c + n ≤ BAD_CLUSTER.toNat
  entries_zero : ∀ k < n, v.fatEntry (c + k) = some 0
  readable : ∀ k < n, ∀ i < v.bootSector.sectorsPerCluster.toNat, (v.readSector (v.sectorAt (c + k) i)).isSome

section
variable {b : BootSector}

theorem Consistent.dataStartSector_toNat (h : Consistent b) :
    (DriveInfo.ofBootSector b).dataStartSector.toNat = dataStart b := by
  have hfit := h.regions_fit
  have htotal := b.totalSectors.toNat_lt
  unfold dataStart at hfit ⊢
  show (b.reservedSectorCount.toUInt32 + b.fatSectors).toNat = _
  unfold BootSector.fatSectors
  rw [UInt32.toNat_add, UInt32.toNat_mul, UInt8.toNat_toUInt32, UInt16.toNat_toUInt32]
  rw [Nat.mod_eq_of_lt (show b.numFATs.toNat * b.fatSize32.toNat < 2 ^ 32 by omega), Nat.mod_eq_of_lt (by omega)]

theorem Consistent.dataSectors_toNat (h : Consistent b) :
    b.dataSectors.toNat = b.totalSectors.toNat - (dataStart b + b.rootDirSectors.toNat) := by
  have hfit := h.regions_fit
  have htotal := b.totalSectors.toNat_lt
  have hstart : (b.reservedSectorCount.toUInt32 + b.fatSectors).toNat = dataStart b := h.dataStartSector_toNat
  have hsum : (b.reservedSectorCount.toUInt32 + b.fatSectors + b.rootDirSectors).toNat =
      dataStart b + b.rootDirSectors.toNat := by
    rw [UInt32.toNat_add, hstart, Nat.mod_eq_of_lt (by omega)]
  unfold BootSector.dataSectors
  rw [UInt32.toNat_sub_of_le _ _ (UInt32.le_iff_toNat_le.mpr (by rw [hsum]; exact hfit)), hsum]

theorem Consistent.clusters_fit (h : Consistent b) :
    dataStart b + (DriveInfo.ofBootSector b).maxClusterCount.toNat * b.sectorsPerCluster.toNat ≤
      b.totalSectors.toNat := by
  have hfit := h.regions_fit
  have hmul : (DriveInfo.ofBootSector b).maxClusterCount.toNat * b.sectorsPerCluster.toNat ≤ b.dataSectors.toNat := by
    show (b.dataSectors / b.sectorsPerCluster.toUInt32).toNat * _ ≤ _
    rw [UInt32.toNat_div, UInt8.toNat_toUInt32]
    exact Nat.div_mul_le_self _ _
  rw [h.dataSectors_toNat] at hmul
  omega

end

section
variable {v : Volume} (h : Consistent v.bootSector)
include h

theorem sectorsOf_eq {c : Nat} (h2 : 2 ≤ c) (hc32 : c < 2 ^ 32) (hc : c ≤ v.driveInfo.maxClusterCount.toNat + 1) :
    v.sectorsOf (UInt32.ofNat c) = (List.range v.bootSector.sectorsPerCluster.toNat).map (v.sectorAt c) := by
  have hfit := h.clusters_fit
  have htotal := v.bootSector.totalSectors.toNat_lt
  have hspc : 0 < v.bootSector.sectorsPerCluster.toNat := UInt8.lt_iff_toNat_lt.mp v.sectorsPerCluster_pos
  have hmul : (c - 2 + 1) * v.bootSector.sectorsPerCluster.toNat ≤
      v.driveInfo.maxClusterCount.toNat * v.bootSector.sectorsPerCluster.toNat := Nat.mul_le_mul_right _ (by omega)
  rw [Nat.add_mul, Nat.one_mul] at hmul
  have hlast : dataStart v.bootSector + (c - 2) * v.bootSector.sectorsPerCluster.toNat +
      v.bootSector.sectorsPerCluster.toNat ≤ v.bootSector.totalSectors.toNat := by
    have hfit' : dataStart v.bootSector + v.driveInfo.maxClusterCount.toNat * v.bootSector.sectorsPerCluster.toNat ≤
      v.bootSector.totalSectors.toNat := hfit
    omega
  have hcnat : (UInt32.ofNat c).toNat = c := UInt32.toNat_ofNat_of_lt' hc32
  have hsub : (UInt32.ofNat c - 2).toNat = c - 2 := by
    rw [UInt32.toNat_sub_of_le _ _ (UInt32.le_iff_toNat_le.mpr (by rw [hcnat]; exact h2)), hcnat]
    rfl
  have hsector : (v.clusterToSector (UInt32.ofNat c)).toNat =
      dataStart v.bootSector + (c - 2) * v.bootSector.sectorsPerCluster.toNat := by
    unfold Volume.clusterToSector Volume.sectorsPerCluster
    rw [UInt32.toNat_add, UInt32.toNat_mul, hsub, UInt8.toNat_toUInt32, Nat.add_mod_mod,
      show v.driveInfo.dataStartSector.toNat = dataStart v.bootSector from h.dataStartSector_toNat]
    exact Nat.mod_eq_of_lt (by omega)
  unfold Volume.sectorsOf Volume.sectorAt
  apply List.map_congr_left
  intro i hi
  have hi := List.mem_range.mp hi
  apply UInt64.toNat_inj.mp
  rw [UInt64.toNat_add, UInt32.toNat_toUInt64, hsector, UInt64.toNat_ofNat', UInt64.toNat_ofNat', Nat.add_mod_mod]

theorem getNextCluster_of_zero {c : Nat} (hc : c < BAD_CLUSTER.toNat) (hzero : v.fatEntry c = some 0) :
    v.getNextCluster (UInt32.ofNat c) = 0 := by
  have hbad : BAD_CLUSTER.toNat = 0x0FFFFFF7 := rfl
  have hcnat : (UInt32.ofNat c).toNat = c := UInt32.toNat_ofNat_of_lt' (show c < 2 ^ 32 by omega)
  have hlt : UInt32.ofNat c < BAD_CLUSTER := by rw [UInt32.lt_iff_toNat_lt, hcnat]; exact hc
  have hdvd : 4 ∣ v.bootSector.bytesPerSector.toNat := Nat.dvd_trans (by decide) h.entries_fit
  unfold Volume.fatEntry at hzero
  obtain ⟨buffer, hread, hword⟩ := Option.map_eq_some_iff.mp hzero
  rw [Volume.getNextCluster_eq hdvd hlt, hcnat, hread, Option.elim_some]
  exact decodeEntry_eq_zero_iff.mpr hword

end

/-! ## The recovered bytes -/

theorem recoveredData_eq {v : Volume} (h : Consistent v.bootSector) {info : FileInfo} (h2 : 2 ≤ info.cluster)
    (hpos : 0 < info.fileSize.toNat) (hfit : info.fileSize.toNat + v.bytesPerCluster.toNat ≤ 2 ^ 32)
    (hc : Contiguous v info.cluster.toNat (clustersFor v info.fileSize.toNat)) :
    recoveredData v info =
      ((List.range (clustersFor v info.fileSize.toNat)).flatMap fun k =>
        v.clusterData (info.cluster.toNat + k)).take info.fileSize.toNat := by
  have hbpc : 0 < v.bytesPerCluster.toNat := UInt32.lt_iff_toNat_lt.mp v.bytesPerCluster_pos
  have h2n : 2 ≤ info.cluster.toNat := UInt32.le_iff_toNat_le.mp h2
  have hbelow := hc.below_bad
  have hbad : BAD_CLUSTER.toNat = 0x0FFFFFF7 := rfl
  have hmark : BAD_CLUSTER.toNat < FIRST_MARKER.toNat := by decide
  have hsize : info.fileSize.toUInt32.toNat = info.fileSize.toNat := by
    rw [UInt64.toNat_toUInt32, Nat.mod_eq_of_lt (by omega)]
  have hchain : chainFrom v.getNextCluster (v.expectedClusters info.fileSize.toUInt32).toNat info.cluster =
      (List.range (clustersFor v info.fileSize.toNat)).map fun k => UInt32.ofNat (info.cluster.toNat + k) := by
    rw [expectedClusters_toNat (by rw [hsize]; exact hfit), hsize]
    have hrun := chainFrom_of_zero v.getNextCluster (clustersFor v info.fileSize.toNat) info.cluster.toNat h2n
      (by omega) fun k hk => getNextCluster_of_zero h (by omega) (hc.entries_zero k (Nat.lt_of_succ_lt hk))
    rwa [UInt32.ofNat_toNat] at hrun
  have hpos64 : 0 < info.fileSize.toUInt32.toUInt64 := by
    rw [UInt64.lt_iff_toNat_lt, UInt32.toNat_toUInt64, hsize]
    exact hpos
  unfold recoveredData
  dsimp only
  rw [copyChain_written v.readSector _ _ Volume.length_of_readSector v.sectorsOf _ hpos64, hchain, UInt32.toNat_toUInt64, hsize,
    List.flatMap_map]
  congr 1
  apply List.flatMap_congr
  intro k hk
  have hk := List.mem_range.mp hk
  have hregion := hc.in_data_region
  rw [sectorsOf_eq h (by omega) (by omega) (by omega), List.flatMap_map]
  rfl

/-! ## The run -/

section
variable {v : Volume} {config : Config} {host : Host} (hrec : config.recover = true)
include hrec

theorem returns_of_placed {info : FileInfo} (hlisted : Listed v info) {st : RunState host}
    (hplace : Placed (isSkipped config) FileInfo.fullName config.outputFolder info st) :
    (processFileForRecovery v config info st).2 = none := by
  cases hskip : isSkipped config info with
  | true => rw [(writesOutput v config host).skips info st hskip]
  | false =>
    rcases hplace with hs | ⟨hends, hcreate⟩
    · cases hskip.symm.trans hs
    · exact (processFileForRecovery_files v config hskip hends hlisted.fileSize_le hrec hcreate).1

/-- A file that is processed is written, and what it is written as stays to the end of the run. -/
theorem processAll_writes {pre post : List FileInfo} {info : FileInfo}
    (hlisted : ∀ file ∈ pre ++ info :: post, Listed v file) (hskip : isSkipped config info = false)
    {start : RunState host} (hplaced : EachStep (processFileForRecovery v config)
      (Placed (isSkipped config) FileInfo.fullName config.outputFolder) (pre ++ info :: post) start) :
    ∃ before final, processAll (processFileForRecovery v config) pre start = (before, none) ∧
      processAll (processFileForRecovery v config) (pre ++ info :: post) start = (final, none) ∧
      final.files.read (getOutputPath before.files info.fullName config.outputFolder) =
        some (.data (recoveredData v info)) := by
  have hreturns := hplaced.imp _ fun file hfile st hplace => returns_of_placed hrec (hlisted file hfile) hplace
  have hinfo := hlisted info (List.mem_append_right _ (List.mem_cons_self ..))
  let before := (processAll (processFileForRecovery v config) pre start).1
  have hpre : processAll (processFileForRecovery v config) pre start = (before, none) :=
    eq_of_returns (processAll_returns _ (eachStep_of_append _ hreturns))
  obtain ⟨hends, hcreate⟩ := (eachStep_append _ hplaced hpre).1.resolve_left (by rw [hskip]; exact Bool.false_ne_true)
  obtain ⟨hnone, hwritten⟩ := processFileForRecovery_files v config hskip hends hinfo.fileSize_le hrec hcreate
  let after := (processFileForRecovery v config info before).1
  have hread : after.files.read (getOutputPath before.files info.fullName config.outputFolder) =
      some (.data (recoveredData v info)) := by
    rw [hwritten]
    exact read_write _ _ _
  have hmid : processAll (processFileForRecovery v config) (pre ++ [info]) start = (after, none) :=
    processAll_append_cons _ hpre (eq_of_returns hnone)
  -- the names the scan lists get numbers, so that no file is written over
  have hclash : EachStep (processFileForRecovery v config)
      (fun file st => isSkipped config file = true ∨ NoClash st.files file.fullName config.outputFolder)
      (pre ++ info :: post) start :=
    hplaced.imp _ fun file hfile _ _ => .inr (.inr (hlisted file hfile).dotted)
  have hkeeps := keepsFiles_of_noClash (writesOutput v config host) hclash
  exact ⟨before, _, hpre, eq_of_returns (processAll_returns _ hreturns),
    hkeeps (pre ++ [info]) post after (List.append_cons pre info post) hmid _ _ hread⟩

end

/-- A contiguous deleted file the scan lists is restored, whatever else the run recovers. -/
theorem undelete_contiguous {v : Volume} (hcons : Consistent v.bootSector) {config : Config} {host : Host}
    {iswalnum : UInt16 → Bool} {stack : Nat} {answers : Answers} (st : RunState host) {scan : ScanState}
    {pre post : List FileInfo} {info : FileInfo}
    (hscan : scanRoot v config iswalnum stack {} = some scan) (hlist : scan.recoveryList = pre ++ info :: post)
    (hrec : config.recover = true) (htarget : config.targetCluster = 0 ∨ config.targetFileSize = 0)
    {isOpen : Bool} (hlog : (openLogFile config st.files).1 = .ok isOpen)
    (hproceed : isOpen = true ∨ answers.proceedWithoutLog = true)
    (hselect : selectedFiles config FileInfo.fileId answers.selection scan.recoveryList = some scan.recoveryList)
    (hcreate : EachStep (processFileForRecovery v config)
      (Placed (isSkipped config) FileInfo.fullName config.outputFolder) scan.recoveryList
      { st with files := (openLogFile config st.files).2 })
    (hpos : 0 < info.fileSize.toNat) (hfit : info.fileSize.toNat + v.bytesPerCluster.toNat ≤ 2 ^ 32)
    (hc : Contiguous v info.cluster.toNat (clustersFor v info.fileSize.toNat)) :
    ∃ before final,
      processAll (processFileForRecovery v config) pre { st with files := (openLogFile config st.files).2 } =
        (before, none) ∧
      startRecovery v config .logical iswalnum stack answers st = (final, none) ∧
      final.files.read (getOutputPath before.files info.fullName config.outputFolder) =
        some (.data (((List.range (clustersFor v info.fileSize.toNat)).flatMap fun k =>
          v.clusterData (info.cluster.toNat + k)).take info.fileSize.toNat)) := by
  have hlisted : ∀ file ∈ pre ++ info :: post, Listed v file := fun file hf =>
    listed_of_scan v config iswalnum hscan (hlist ▸ hf)
  have hinfo := hlisted info (List.mem_append_right _ (List.mem_cons_self ..))
  have hskip : isSkipped config info = false := by
    have hne : info.fileSize ≠ 0 := by intro h0; rw [h0] at hpos; exact absurd hpos (by decide)
    unfold isSkipped
    rcases htarget with h | h <;> simp [h, hne]
  obtain ⟨before, final, hpre, hall, hread⟩ := processAll_writes hrec hlisted hskip (hlist ▸ hcreate)
  refine ⟨before, final, hpre, ?_, ?_⟩
  · rw [startRecovery_logical hscan (by rw [hlist]; simp) hlog hproceed hselect, hlist]
    exact hall
  · rw [← recoveredData_eq hcons (v.isValidCluster_iff.mp hinfo.valid).1 hpos hfit hc]
    exact hread

/-- Two deleted files of one name; the second has 600 bytes in clusters 4 and 5. -/
def twoFiles : Volume :=
  smallVolume [(2, rawEntry 0xE5 0x20 6 10 ++ rawEntry 0xE5 0x20 4 600), (4, [1, 2, 3]), (5, [4])]

theorem twoFiles_contiguous : Contiguous twoFiles 4 2 where
  in_data_region := by decide +kernel
  below_bad := by decide
  entries_zero := by decide +kernel
  readable := by decide +kernel

theorem undelete_twoFiles : ∃ path final,
    startRecovery twoFiles { recover := true } .logical (fun _ => true) 1 {} { files := (∅ : Files plainHost) } =
      (final, none) ∧
    final.files.read path = some (.data (((List.range 2).flatMap fun k => twoFiles.clusterData (4 + k)).take 600)) := by
  let info (fileId : UInt16) (size : UInt64) (c : UInt32) : FileInfo :=
    ⟨fileId, wide "_.bin", wide "_", wide "bin", size, c, true⟩
  obtain ⟨scan, hscan, hlist⟩ : ∃ scan,
      scanRoot twoFiles { recover := true } (fun _ => true) 1 {} = some scan ∧
        scan.recoveryList = [info 1 10 6] ++ info 2 600 4 :: [] := Option.map_eq_some_iff.mp (by decide +kernel)
  have hcons : Consistent twoFiles.bootSector := ⟨by decide, by decide +kernel⟩
  have hn : clustersFor twoFiles (info 2 600 4).fileSize.toNat = 2 := by decide +kernel
  have hcreate : @EachStep plainHost _ (processFileForRecovery twoFiles { recover := true })
      (Placed (isSkipped { recover := true }) FileInfo.fullName (wide "Recovered")) scan.recoveryList
      { files := (openLogFile { recover := true } ∅).2 } := by
    refine eachStep_of_few (writesOutput _ _ _) (fun file hfile st hfew => .inr ⟨?_, rfl⟩) ?_
    · exact (listed_of_scan twoFiles _ _ hscan hfile).renamingEnds_of_few twoFiles _ hfew
    · rw [hlist]
      decide +kernel
  have hproceed : true = true ∨ ({} : Answers).proceedWithoutLog = true := .inl rfl
  obtain ⟨before, final, -, hrun, hread⟩ := undelete_contiguous hcons { files := (∅ : Files plainHost) } hscan hlist
    rfl (.inl rfl) rfl hproceed rfl hcreate (by decide) (by decide +kernel) (by rw [hn]; exact twoFiles_contiguous)
  rw [hn, show (info 2 600 4).cluster.toNat = 4 from rfl, show (info 2 600 4).fileSize.toNat = 600 from rfl] at hread
  exact ⟨_, final, hrun, hread⟩

end DataRecovery.FAT32
