import DataRecovery.FAT32.ScanExact
import DataRecovery.ExFAT.ScanSound
import DataRecovery.NTFS.ListedRecords

/-!
# The numbers of the listed files

Each engine counts the items it lists in 16 bits, from 1 on. The numbers are distinct up to
2^16 items; the next item gets the number of the first.
-/

namespace DataRecovery

/-! ## A 16-bit counter -/

def numbered (start : UInt16) (n : Nat) : List UInt16 := (List.range n).map fun i => start + UInt16.ofNat i

theorem numbered_succ (start : UInt16) (n : Nat) : numbered start (n + 1) = start :: numbered (start + 1) n := by
  unfold numbered
  rw [List.range_succ_eq_map, List.map_cons, List.map_map]
  congr 1
  · exact UInt16.add_zero start
  · apply List.map_congr_left
    intro i _
    show start + UInt16.ofNat (i + 1) = start + 1 + UInt16.ofNat i
    rw [UInt16.ofNat_add, UInt16.add_comm (UInt16.ofNat i), UInt16.add_assoc]
    rfl

theorem nodup_numbered_iff {start : UInt16} {n : Nat} : (numbered start n).Nodup ↔ n ≤ 2 ^ 16 := by
  unfold numbered
  constructor
  · intro h
    by_contra hn
    -- the item after a whole turn of the counter
    have hinj := List.inj_on_of_nodup_map h (List.mem_range.mpr (show 0 < n by omega))
      (List.mem_range.mpr (show 2 ^ 16 < n by omega)) rfl
    exact absurd hinj (by decide)
  · intro hn
    refine List.Nodup.map_on (fun i hi j hj hij => ?_) List.nodup_range
    have hlt : ∀ k ∈ List.range n, k < 2 ^ 16 := fun k hk => Nat.lt_of_lt_of_le (List.mem_range.mp hk) hn
    have hnat := congrArg UInt16.toNat (UInt16.add_right_inj start |>.mp hij)
    rw [UInt16.toNat_ofNat_of_lt' (hlt i hi), UInt16.toNat_ofNat_of_lt' (hlt j hj)] at hnat
    exact hnat

theorem ids_foldl {σ ε : Type} {counter : σ → UInt16} {ids : σ → List UInt16} {upd : ε → σ → σ}
    (hcounter : ∀ e s, counter (upd e s) = counter s + 1) (hids : ∀ e s, ids (upd e s) = ids s ++ [counter s]) :
    ∀ (es : List ε) (s : σ), ids (es.foldl (fun s e => upd e s) s) = ids s ++ numbered (counter s) es.length
  | [], s => (List.append_nil _).symm
  | e :: es, s => by
    rw [List.foldl_cons, ids_foldl hcounter hids es, hids, hcounter, List.length_cons, numbered_succ,
      List.append_assoc, List.singleton_append]

/-! ## Selecting by number -/

section
variable {ι : Type} {fileId : ι → UInt16} {recoveryList : List ι}

theorem filter_eq_singleton {file : ι} : ∀ {recoveryList : List ι}, (recoveryList.map fileId).Nodup →
    file ∈ recoveryList → (recoveryList.filter fun other => fileId other == fileId file) = [file]
  | other :: rest, hdistinct, hfile => by
    rw [List.map_cons, List.nodup_cons] at hdistinct
    obtain ⟨hnew, hrest⟩ := hdistinct
    rw [List.filter_cons]
    rcases List.mem_cons.mp hfile with rfl | hfile
    · have hnone : (rest.filter fun other => fileId other == fileId file) = [] := by
        apply List.filter_eq_nil_iff.mpr
        intro other hother heq
        exact hnew (List.mem_map.mpr ⟨other, hother, by simpa using heq⟩)
      rw [hnone, if_pos (by simp)]
    · have hne : (fileId other == fileId file) = false := by
        apply beq_eq_false_iff_ne.mpr
        intro heq
        exact hnew (heq ▸ List.mem_map_of_mem hfile)
      rw [hne, filter_eq_singleton hrest hfile]
      rfl

/-- The numbers are distinct, and asking for one gives its file alone. -/
structure Identifies (fileId : ι → UInt16) (recoveryList : List ι) : Prop where
  distinct : (recoveryList.map fileId).Nodup
  selects : ∀ file ∈ recoveryList,
    selectFilesToRecover fileId (.ids [((fileId file).toNat : Int)]) recoveryList = some [file]

theorem identifies_iff_nodup : Identifies fileId recoveryList ↔ (recoveryList.map fileId).Nodup := by
  refine ⟨Identifies.distinct, fun h => ⟨h, fun file hfile => ?_⟩⟩
  unfold selectFilesToRecover
  have hsame : ∀ other, ([((fileId file).toNat : Int)].contains ((fileId other).toNat : Int)) =
      (fileId other == fileId file) := by
    intro other
    rw [List.contains_cons, List.contains_nil, Bool.or_false]
    by_cases h : fileId other = fileId file
    · simp [h]
    · have hnat : ((fileId other).toNat : Int) ≠ (fileId file).toNat := fun h' =>
        h (UInt16.toNat_inj.mp (Int.ofNat_inj.mp h'))
      rw [beq_eq_false_iff_ne.mpr hnat, beq_eq_false_iff_ne.mpr h]
  simp only [hsame]
  rw [filter_eq_singleton h hfile]

theorem identifies_iff_of_numbered {n : Nat} (h : recoveryList.map fileId = numbered 1 n) :
    Identifies fileId recoveryList ↔ n ≤ 2 ^ 16 := by
  rw [identifies_iff_nodup, h, nodup_numbered_iff]

end

/-! ## The three engines -/

namespace FAT32
variable (v : Volume) (config : Config) (iswalnum : UInt16 → Bool)

def filesFound (stack : Nat) : List Found := Traversal.events (actions v) stack v.driveInfo.rootDirCluster

theorem ids_scanRoot (hlist : (config.recover || config.analyze) = true) {stack : Nat} {st : ScanState}
    (hst : scanRoot v config iswalnum stack {} = some st) :
    st.recoveryList.map FileInfo.fileId = numbered 1 (filesFound v stack).length := by
  rw [← (scanRoot_eq_some v config iswalnum hst).2]
  refine @ids_foldl _ _ ScanState.fileId (fun st => st.recoveryList.map FileInfo.fileId) _ ?_ ?_ _ {}
  · intro f st
    unfold record addToRecoveryList
    rw [if_pos hlist]
  · intro f st
    unfold record addToRecoveryList
    rw [if_pos hlist, List.map_append, List.map_singleton, parseFileInfo_fileId]

theorem scanRoot_nil (hlist : (config.recover || config.analyze) = false) {stack : Nat} {st : ScanState}
    (hst : scanRoot v config iswalnum stack {} = some st) : st.recoveryList = [] := by
  rw [← (scanRoot_eq_some v config iswalnum hst).2]
  refine List.foldlRecOn (motive := fun st : ScanState => st.recoveryList = []) _ _ rfl fun st hst f _ => ?_
  unfold record addToRecoveryList
  rw [if_neg (by rw [hlist]; exact Bool.false_ne_true)]
  exact hst

end FAT32

namespace ExFAT
variable (v : Volume) (config : Config)

def filesFound (stack : Nat) : List DirEntryData :=
  Traversal.events (actions v) stack (v.bootSector.rootDirectoryCluster, 0)

theorem ids_scanRoot (hlist : (config.recover || config.analyze) = true) {stack : Nat} {st : ScanState}
    (hst : scanRoot v config stack {} = some st) :
    st.recoveryList.map FileInfo.fileId = numbered 1 (filesFound v stack).length := by
  rw [← (scanRoot_eq_some v config hst).2]
  refine @ids_foldl _ _ ScanState.fileId (fun st => st.recoveryList.map FileInfo.fileId) _ ?_ ?_ _ {}
  · intro d st
    unfold record addToRecoveryList
    rw [if_pos hlist]
  · intro d st
    unfold record addToRecoveryList
    rw [if_pos hlist, List.map_append, List.map_singleton]
    rfl

theorem scanRoot_nil (hlist : (config.recover || config.analyze) = false) {stack : Nat} {st : ScanState}
    (hst : scanRoot v config stack {} = some st) : st.recoveryList = [] := by
  rw [← (scanRoot_eq_some v config hst).2]
  refine List.foldlRecOn (motive := fun st : ScanState => st.recoveryList = []) _ _ rfl fun st hst d _ => ?_
  unfold record addToRecoveryList
  rw [if_neg (by rw [hlist]; exact Bool.false_ne_true)]
  exact hst

end ExFAT

namespace NTFS
variable {v : Volume} {rounds : Nat}

theorem ids_scanMFT {st : ScanState} (h : scanMFT v rounds {} = .ok st) :
    st.recoveryList.map FileInfo.fileId = numbered 1 (filesOnMft v rounds).length := by
  rw [scanMFT_ok h]
  refine @ids_foldl _ _ ScanState.fileId (fun st => st.recoveryList.map FileInfo.fileId) record ?_ ?_ _ {}
  · exact fun _ _ => rfl
  · intro info st
    unfold record addToRecoveryList
    rw [List.map_append]
    rfl

end NTFS

/-- Up to 2^16 files found, the numbers identify the listed files; from the next one on they
do not. -/
theorem file_ids_identify_iff (config : Config) :
    (∀ (v : FAT32.Volume) (iswalnum : UInt16 → Bool) (stack : Nat) (st : FAT32.ScanState),
      FAT32.scanRoot v config iswalnum stack {} = some st →
        (Identifies FAT32.FileInfo.fileId st.recoveryList ↔
          (config.recover || config.analyze) = false ∨ (FAT32.filesFound v stack).length ≤ 2 ^ 16)) ∧
    (∀ (v : ExFAT.Volume) (stack : Nat) (st : ExFAT.ScanState), ExFAT.scanRoot v config stack {} = some st →
      (Identifies ExFAT.FileInfo.fileId st.recoveryList ↔
        (config.recover || config.analyze) = false ∨ (ExFAT.filesFound v stack).length ≤ 2 ^ 16)) ∧
    (∀ (v : NTFS.Volume) (rounds : Nat) (st : NTFS.ScanState), NTFS.scanMFT v rounds {} = .ok st →
      (Identifies NTFS.FileInfo.fileId st.recoveryList ↔ (NTFS.filesOnMft v rounds).length ≤ 2 ^ 16)) := by
  refine ⟨fun v iswalnum stack st hst => ?_, fun v stack st hst => ?_, fun v rounds st hst => ?_⟩
  · cases hlist : config.recover || config.analyze with
    | true => simp [identifies_iff_of_numbered (FAT32.ids_scanRoot v config iswalnum hlist hst)]
    | false => simp [identifies_iff_nodup, FAT32.scanRoot_nil v config iswalnum hlist hst]
  · cases hlist : config.recover || config.analyze with
    | true => simp [identifies_iff_of_numbered (ExFAT.ids_scanRoot v config hlist hst)]
    | false => simp [identifies_iff_nodup, ExFAT.scanRoot_nil v config hlist hst]
  · exact identifies_iff_of_numbered (NTFS.ids_scanMFT hst)

theorem nested_file_ids : ∃ st, FAT32.scanRoot FAT32.nestedTwo { recover := true } (fun _ => true) 3 {} = some st ∧
    st.recoveryList.length = 2 ∧ Identifies FAT32.FileInfo.fileId st.recoveryList := by
  have hlength : (FAT32.scanRoot FAT32.nestedTwo { recover := true } (fun _ => true) 3 {}).map
      (fun st => st.recoveryList.length) = some 2 := by decide +kernel
  obtain ⟨st, hst, hlist⟩ := Option.map_eq_some_iff.mp hlength
  have hids := (file_ids_identify_iff { recover := true }).1 FAT32.nestedTwo (fun _ => true) 3 st hst
  refine ⟨st, hst, hlist, hids.mpr (.inr ?_)⟩
  decide +kernel

namespace NTFS

def tinyRecord : List UInt8 := rawRecord (rawFileName 0x41 ++ rawResident 0x80 [] [1, 2, 3])

/-- A drive whose MFT is one deleted file of 1024 bytes, over and over. -/
def crowdedDrive : Device where
  readSector sector size :=
    some (((if sector = 0 then bootContent 0xF6 else if sector % 2 = 0 then tinyRecord else []) ++
      List.replicate size.toNat 0).take size.toNat)
  getBytesPerSector := 512
  getTotalMftRecords := 65537
  length_of_read := by rintro _ _ _ ⟨⟩; simp

def crowded : Volume := ⟨crowdedDrive, driveOf (.ofBytes (bootContent 0xF6)) 1024⟩

def crowdedRecord : List UInt8 := tinyRecord ++ List.replicate 512 0

theorem length_tinyRecord : tinyRecord.length = 512 := by
  unfold tinyRecord rawRecord
  rw [List.length_take_of_le]
  rw [List.length_append, List.length_replicate]
  exact Nat.le_add_left 512 _

theorem crowded_accepted : readBootSector crowdedDrive = .ok crowded.driveInfo := by
  refine readBootSector_bootContent rfl ?_
  show some ((bootContent 0xF6 ++ List.replicate 512 0).take 512) = _
  rw [List.take_append_of_le_length (Nat.le_of_eq (length_bootContent _).symm),
    List.take_of_length_le (Nat.le_of_eq (length_bootContent _))]

theorem crowded_sector {index k : Nat} (hindex : index < 65537) (hk : k < 2) :
    (crowded.mftSector + UInt64.ofNat index * (2 : UInt32).toUInt64 + UInt64.ofNat k).toNat = 32 + index * 2 + k := by
  have hfirst : crowded.mftSector.toNat = 32 := rfl
  have htwo : (2 : UInt32).toUInt64.toNat = 2 := rfl
  rw [UInt64.toNat_add, UInt64.toNat_add, UInt64.toNat_mul, hfirst, htwo,
    UInt64.toNat_ofNat_of_lt' (Nat.lt_trans hindex (by decide)), UInt64.toNat_ofNat_of_lt' (Nat.lt_trans hk (by decide))]
  omega

theorem crowded_readSector {sector : UInt64} (hsector : sector ≠ 0) :
    crowded.readSector sector = some (if sector % 2 = 0 then tinyRecord else List.replicate 512 0) := by
  show some (((if sector = 0 then _ else if sector % 2 = 0 then tinyRecord else []) ++
    List.replicate 512 0).take 512) = _
  rw [if_neg hsector]
  split
  · rw [List.take_append_of_le_length (Nat.le_of_eq length_tinyRecord.symm),
      List.take_of_length_le (Nat.le_of_eq length_tinyRecord)]
  · rw [List.nil_append, List.take_of_length_le (by rw [List.length_replicate])]

theorem crowded_read {index : Nat} (hindex : index < 65537) {mftBuffer : List UInt8} (hbuffer : mftBuffer.length = 1024) :
    readMftRecord crowded 2 (crowded.mftSector + UInt64.ofNat index * (2 : UInt32).toUInt64) mftBuffer =
      .ok (true, crowdedRecord) := by
  have hbps : crowded.bytesPerSector.toNat = 512 := rfl
  have hlen : crowdedRecord.length = 1024 := by
    unfold crowdedRecord
    rw [List.length_append, length_tinyRecord, List.length_replicate]
  have htwo : (2 : UInt32).toNat = 2 := rfl
  refine readMftSectors_eq (by rw [hbps]; decide) (fun k hk => ?_) _ 0 mftBuffer ?_ ?_ ?_
  · rw [hlen, hbps] at hk
    have hnat := crowded_sector hindex (show k < 2 by omega)
    have hzero : (0 : UInt64).toNat = 0 := rfl
    have htwo64 : (2 : UInt64).toNat = 2 := rfl
    rw [crowded_readSector, hbps]
    · congr 1
      by_cases h0 : k = 0
      · rw [if_pos, h0, Nat.zero_mul]
        · unfold slice crowdedRecord
          rw [List.drop_zero, List.take_append_of_le_length (Nat.le_of_eq length_tinyRecord.symm),
            List.take_of_length_le (Nat.le_of_eq length_tinyRecord)]
        · apply UInt64.toNat_inj.mp
          rw [UInt64.toNat_mod, hnat, htwo64, hzero]
          omega
      · have h1 : k = 1 := by omega
        rw [if_neg, h1, Nat.one_mul]
        · unfold slice crowdedRecord
          rw [← length_tinyRecord, List.drop_left, List.take_of_length_le]
          rw [length_tinyRecord, List.length_replicate]
        · intro heven
          have hmod := congrArg UInt64.toNat heven
          rw [UInt64.toNat_mod, hnat, htwo64, hzero] at hmod
          omega
    · intro h0
      rw [h0, hzero] at hnat
      omega
  · rw [hbps, hlen, htwo]
  · rw [hbuffer, hlen]
  · rw [Nat.zero_mul, List.take_zero, List.take_zero]

theorem crowded_parsed (st : ScanState) :
    ∃ st', processMftRecord crowded.driveInfo (ofBuffer crowdedRecord) 4 st = .ok st' := by
  have hparse : processMftRecord crowded.driveInfo (ofBuffer crowdedRecord) 4 { fileId := 0 } =
      .ok ⟨1, [{ fileName := [0x41], fileSize := 3, data := [1, 2, 3] }]⟩ := by decide +kernel
  exact processMftRecord_total _ _ hparse st

theorem crowded_recordFile : (recordFile crowded.driveInfo (ofBuffer crowdedRecord) 4).isSome := by decide +kernel

theorem crowded_scan : ∃ st, scanMFT crowded 4 {} = .ok st := by
  have hvalid : crowded.isValidSector crowded.mftSector = true := rfl
  have hsectors : getSectorsPerMftRecord crowded = .ok 2 := rfl
  have hsize : crowded.driveInfo.mftRecordSize.toNat = 1024 := rfl
  unfold scanMFT
  dsimp only
  rw [if_neg (by rw [Bool.not_eq_true', Bool.not_eq_false]; exact hvalid), hsectors, ok_bind, hsize]
  refine @scanRecords_total crowded 4 2 1024 65537 (fun index hindex mftBuffer hbuffer => ?_) 65537 0 _ {}
    (Nat.le_refl _) List.length_replicate
  exact ⟨crowdedRecord, crowded_read hindex hbuffer, crowded_parsed⟩

theorem length_filterMap_of_some {α β : Type} {f : α → Option β} {b : β} {l : List α}
    (h : ∀ a ∈ l, f a = some b) : (l.filterMap f).length = l.length := by
  rw [List.filterMap_congr h, List.filterMap_eq_map', List.length_map]

theorem length_filesOnMft_crowded : (filesOnMft crowded 4).length = 65537 := by
  have hvalid : crowded.isValidSector crowded.mftSector = true := rfl
  have hsectors : getSectorsPerMftRecord crowded = .ok 2 := rfl
  have hsize : crowded.driveInfo.mftRecordSize.toNat = 1024 := rfl
  have htotal : crowded.device.getTotalMftRecords.toNat = 65537 := rfl
  obtain ⟨info, hinfo⟩ := Option.isSome_iff_exists.mp crowded_recordFile
  have hfile : ∀ index ∈ List.range 65537, fileAt crowded 4 2 index = some info := by
    intro index hindex
    unfold fileAt
    rw [hsize, crowded_read (List.mem_range.mp hindex) List.length_replicate]
    exact hinfo
  unfold filesOnMft
  rw [if_pos hvalid, hsectors, htotal]
  dsimp only
  rw [length_filterMap_of_some hfile, List.length_range]

end NTFS

/-- The 65537th of 65537 deleted files gets the number of the first. -/
theorem file_ids_repeat :
    ¬ ∀ (config : Config),
      (∀ (v : FAT32.Volume) (iswalnum : UInt16 → Bool) (stack : Nat) (st : FAT32.ScanState),
        FAT32.scanRoot v config iswalnum stack {} = some st →
          Identifies FAT32.FileInfo.fileId st.recoveryList) ∧
      (∀ (v : ExFAT.Volume) (stack : Nat) (st : ExFAT.ScanState), ExFAT.scanRoot v config stack {} = some st →
        Identifies ExFAT.FileInfo.fileId st.recoveryList) ∧
      (∀ (v : NTFS.Volume) (rounds : Nat) (st : NTFS.ScanState), NTFS.readBootSector v.device = .ok v.driveInfo →
        NTFS.scanMFT v rounds {} = .ok st → Identifies NTFS.FileInfo.fileId st.recoveryList) := by
  intro h
  obtain ⟨st, hst⟩ := NTFS.crowded_scan
  have hdistinct := ((h {}).2.2 NTFS.crowded 4 st NTFS.crowded_accepted hst).distinct
  rw [NTFS.ids_scanMFT hst, NTFS.length_filesOnMft_crowded, nodup_numbered_iff] at hdistinct
  exact absurd hdistinct (by decide)

end DataRecovery
