import DataRecovery.NTFS.Fixup
import DataRecovery.NTFS.RunList

/-!
# The records that the MFT scan reads

The size of a record, the sectors read for it and the distance to the next one are three
numbers. They agree when the record is a whole number of sectors, and then the buffer gets
the bytes of the record as long as the sectors lie in the first 2^64 bytes.
-/

namespace DataRecovery.NTFS

/-! ## What a successful read leaves -/

theorem length_writeAt {buffer bytes : List UInt8} {off : Nat} (h : off + bytes.length ≤ buffer.length) :
    (writeAt buffer off bytes).length = buffer.length := by
  unfold writeAt
  simp only [List.length_append, List.length_take, List.length_drop]
  omega

theorem take_writeAt {buffer bytes : List UInt8} {off : Nat} (h : off + bytes.length ≤ buffer.length) :
    (writeAt buffer off bytes).take (off + bytes.length) = buffer.take off ++ bytes := by
  have hfront : (buffer.take off ++ bytes).length = off + bytes.length := by
    rw [List.length_append, List.length_take, Nat.min_eq_left (by omega)]
  unfold writeAt
  rw [List.take_append_of_le_length (Nat.le_of_eq hfront.symm), List.take_of_length_le (Nat.le_of_eq hfront)]

theorem cut_of_take {record front bytes : List UInt8} {off : Nat} (hfront : front.length = off)
    (h : record.take (off + bytes.length) = front ++ bytes) :
    record.take off = front ∧ slice record off bytes.length = bytes := by
  constructor
  · have hcut := congrArg (List.take off) h
    rw [List.take_take, Nat.min_eq_left (Nat.le_add_right ..), ← hfront, List.take_left] at hcut
    rw [← hfront]
    exact hcut
  · have hcut := congrArg (List.drop off) h
    rw [List.drop_take, Nat.add_sub_cancel_left, ← hfront, List.drop_left] at hcut
    rw [← hfront]
    exact hcut

section
variable {v : Volume} {currentSector : UInt64}

theorem readMftSectors_ok : ∀ {count i : Nat} {buffer record : List UInt8},
    i * v.bytesPerSector.toNat ≤ buffer.length →
    readMftSectors v currentSector count i buffer = .ok (true, record) →
      record.length = buffer.length ∧ (i + count) * v.bytesPerSector.toNat ≤ buffer.length ∧
        record.take (i * v.bytesPerSector.toNat) = buffer.take (i * v.bytesPerSector.toNat) ∧
        ∀ k, i ≤ k → k < i + count → v.readSector (currentSector + UInt64.ofNat k) =
          some (slice record (k * v.bytesPerSector.toNat) v.bytesPerSector.toNat)
  | 0, i, buffer, record, hi, h => by
    unfold readMftSectors at h
    cases h
    exact ⟨rfl, hi, rfl, fun k h1 h2 => absurd h1 (Nat.not_le.mpr h2)⟩
  | count + 1, i, buffer, record, hi, h => by
    unfold readMftSectors at h
    dsimp only at h
    cases hread : v.readSector (currentSector + UInt64.ofNat i) with
    | none => rw [hread] at h; cases h
    | some bytes =>
      rw [hread] at h
      dsimp only at h
      have hlen := (Volume.length_of_readSector hread).trans (UInt16.toNat_toUInt64 _)
      split at h
      · cases h
      · rename_i hroom
        have hin : i * v.bytesPerSector.toNat + bytes.length ≤ buffer.length := Nat.not_lt.mp hroom
        have hnext : (i + 1) * v.bytesPerSector.toNat = i * v.bytesPerSector.toNat + bytes.length := by
          rw [Nat.add_mul, Nat.one_mul, hlen]
        obtain ⟨hrecord, htotal, htake, hrest⟩ :=
          readMftSectors_ok (by rw [length_writeAt hin, hnext]; exact hin) h
        rw [length_writeAt hin] at hrecord htotal
        rw [hnext, take_writeAt hin] at htake
        obtain ⟨hfront, hslice⟩ := cut_of_take (by rw [List.length_take, Nat.min_eq_left hi]) htake
        refine ⟨hrecord, by rw [← Nat.add_assoc, Nat.add_right_comm]; exact htotal, hfront, fun k hk hlt => ?_⟩
        by_cases hki : k = i
        · rw [hki, hread, ← hlen, hlen, ← hslice, hlen]
        · exact hrest k (by omega) (by omega)

theorem readMftRecord_ok {sectors : UInt32} {buffer record : List UInt8}
    (h : readMftRecord v sectors currentSector buffer = .ok (true, record)) :
    record.length = buffer.length ∧ sectors.toNat * v.bytesPerSector.toNat ≤ buffer.length ∧
      ∀ k < sectors.toNat, v.readSector (currentSector + UInt64.ofNat k) =
        some (slice record (k * v.bytesPerSector.toNat) v.bytesPerSector.toNat) := by
  obtain ⟨hlen, htotal, -, hstored⟩ := readMftSectors_ok (by rw [Nat.zero_mul]; exact Nat.zero_le _) h
  rw [Nat.zero_add] at htotal
  exact ⟨hlen, htotal, fun k hk => hstored k (Nat.zero_le k) (by omega)⟩

theorem sectors_mul_ge {sectors : UInt32} (h : getSectorsPerMftRecord v = .ok sectors) :
    v.driveInfo.mftRecordSize.toNat ≤ sectors.toNat * v.bytesPerSector.toNat := by
  have hbps : v.bytesPerSector.toUInt32.toNat = v.bytesPerSector.toNat := UInt16.toNat_toUInt32 _
  unfold getSectorsPerMftRecord at h
  dsimp only at h
  split at h
  · cases h
  · rename_i hne
    have hpos : 0 < v.bytesPerSector.toNat := by
      rw [← hbps]
      exact Nat.pos_of_ne_zero fun h0 => hne (UInt32.toNat_inj.mp h0)
    have hdiv := Nat.div_add_mod v.driveInfo.mftRecordSize.toNat v.bytesPerSector.toNat
    have hlt := Nat.mod_lt v.driveInfo.mftRecordSize.toNat hpos
    have hsize := v.driveInfo.mftRecordSize.toNat_lt
    have hmod : (v.driveInfo.mftRecordSize % v.bytesPerSector.toUInt32).toNat =
        v.driveInfo.mftRecordSize.toNat % v.bytesPerSector.toNat := by
      rw [UInt32.toNat_mod, hbps]
    have hquot : (v.driveInfo.mftRecordSize / v.bytesPerSector.toUInt32).toNat =
        v.driveInfo.mftRecordSize.toNat / v.bytesPerSector.toNat := by
      rw [UInt32.toNat_div, hbps]
    cases h
    split
    · rename_i hrem
      have hrem' : v.driveInfo.mftRecordSize.toNat % v.bytesPerSector.toNat ≠ 0 := by
        rw [← hmod]
        exact fun h0 => hrem (UInt32.toNat_inj.mp h0)
      have hone : v.bytesPerSector.toNat ≠ 1 := by
        intro h1
        rw [h1, Nat.mod_one] at hrem'
        exact hrem' rfl
      have hhalf : v.driveInfo.mftRecordSize.toNat / v.bytesPerSector.toNat ≤ v.driveInfo.mftRecordSize.toNat / 2 :=
        Nat.div_le_div_left (by omega) (by decide)
      have hone32 : (1 : UInt32).toNat = 1 := rfl
      rw [UInt32.toNat_add, hquot, hone32, Nat.mod_eq_of_lt (by omega), Nat.add_mul, Nat.one_mul, Nat.mul_comm]
      omega
    · rename_i hrem
      have hrem' : v.driveInfo.mftRecordSize.toNat % v.bytesPerSector.toNat = 0 := by
        rw [← hmod]
        simpa using congrArg UInt32.toNat (not_not.mp hrem)
      rw [hquot, Nat.mul_comm]
      omega

end

/-! ## Sizes that agree -/

def DriveInfo.mftOffset (drive : DriveInfo) : UInt64 := drive.bootSector.mftCluster * drive.bytesPerCluster.toUInt64

def Volume.mftSector (v : Volume) : UInt64 := v.clusterToSector v.driveInfo.bootSector.mftCluster

def bytesFrom (volume : Nat → UInt8) (start n : Nat) : List UInt8 := (List.range n).map fun i => volume (start + i)

def StartsWith (content : List UInt8) (volume : Nat → UInt8) : Prop :=
  ∀ i, i < content.length → volume i = content.getD i 0

/-- Neither division is by zero, and the scan gets the records of the volume. -/
structure SafeScan (volume : Nat → UInt8) (v : Volume) : Prop where
  sectors : getSectorsPerMftRecord v ≠ .error .divisionByZero
  runs : ∀ b attr info, processDataAttribute v.driveInfo b attr info ≠ .error .divisionByZero
  records : v.isValidSector v.mftSector = true → ∀ sectorsPerMftRecord,
    getSectorsPerMftRecord v = .ok sectorsPerMftRecord → ∀ recordIndex < v.device.getTotalMftRecords,
    ∀ mftBuffer, mftBuffer.length = v.driveInfo.mftRecordSize.toNat →
      readMftRecord v sectorsPerMftRecord (v.mftSector + recordIndex * sectorsPerMftRecord.toUInt64) mftBuffer =
        .ok (true, bytesFrom volume
          (v.driveInfo.mftOffset.toNat + recordIndex.toNat * v.driveInfo.mftRecordSize.toNat)
          v.driveInfo.mftRecordSize.toNat)

def bootDevice (content : List UInt8) (volume : Nat → UInt8) (totalMftRecords : UInt64) : Device :=
  .ofVolume volume (UInt32.ofNat content.length) totalMftRecords

/-- On every volume with this boot sector the shift is defined, and when the boot sector is
accepted the MFT is scanned safely. -/
def BootSafe (content : List UInt8) (totalMftRecords : UInt64) : Prop :=
  ∀ volume, StartsWith content volume →
    readBootSector (bootDevice content volume totalMftRecords) ≠ .error .undefined ∧
      ∀ driveInfo, readBootSector (bootDevice content volume totalMftRecords) = .ok driveInfo →
        SafeScan volume ⟨bootDevice content volume totalMftRecords, driveInfo⟩

namespace BootSector
variable (b : BootSector)

def recordBytes : Nat :=
  if 0 < b.clustersPerMftRecord then
    b.clustersPerMftRecord.toInt.toNat * (b.bytesPerSector.toNat * b.sectorsPerCluster.toNat)
  else 2 ^ (-b.clustersPerMftRecord.toInt).toNat

def isNtfs : Prop := b.oemID.take 4 = "NTFS".toList.map fun c => UInt8.ofNat c.toNat

instance : Decidable b.isNtfs := inferInstanceAs (Decidable (_ = _))

def mftOffset : UInt64 := b.mftCluster * (b.bytesPerSector.toUInt32 * b.sectorsPerCluster.toUInt32).toUInt64

/-- The sizes are positive and the shift is defined; if a record is read, a record is whole
sectors and no sector of the MFT starts past the last byte that 64 bits can count. -/
structure SizesAgree (totalMftRecords : UInt64) : Prop where
  shift : -32 < b.clustersPerMftRecord.toInt
  bytesPerSector : b.bytesPerSector ≠ 0
  sectorsPerCluster : b.sectorsPerCluster ≠ 0
  records : b.mftCluster * b.sectorsPerCluster.toUInt64 < b.totalSectors → totalMftRecords ≠ 0 →
    b.bytesPerSector.toNat ∣ b.recordBytes ∧
      b.mftOffset.toNat + totalMftRecords.toNat * b.recordBytes < 2 ^ 64 + b.bytesPerSector.toNat

variable {b}

theorem mftRecordSize_of_shift (h : -32 < b.clustersPerMftRecord.toInt) :
    ∃ size, b.mftRecordSize = some size ∧ size.toNat = b.recordBytes := by
  unfold mftRecordSize recordBytes
  by_cases hpos : 0 < b.clustersPerMftRecord
  · rw [if_pos hpos, if_pos hpos]
    refine ⟨_, rfl, ?_⟩
    have hc : b.clustersPerMftRecord.toInt.toNat ≤ 127 := by
      have hlt := b.clustersPerMftRecord.toInt_lt
      omega
    have hbps := b.bytesPerSector.toNat_lt
    have hspc := b.sectorsPerCluster.toNat_lt
    have hcluster : b.bytesPerSector.toNat * b.sectorsPerCluster.toNat ≤ 65535 * 255 :=
      Nat.mul_le_mul (by omega) (by omega)
    have hrecord : b.clustersPerMftRecord.toInt.toNat * (b.bytesPerSector.toNat * b.sectorsPerCluster.toNat) ≤
        127 * (65535 * 255) := Nat.mul_le_mul hc hcluster
    have hproduct : (b.bytesPerSector.toUInt32 * b.sectorsPerCluster.toUInt32).toNat =
        b.bytesPerSector.toNat * b.sectorsPerCluster.toNat := by
      rw [UInt32.toNat_mul, UInt16.toNat_toUInt32, UInt8.toNat_toUInt32, Nat.mod_eq_of_lt (by omega)]
    rw [UInt32.toNat_mul, hproduct, UInt32.toNat_ofNat_of_lt' (Nat.lt_of_le_of_lt hc (by decide)),
      Nat.mod_eq_of_lt (Nat.lt_of_le_of_lt hrecord (by decide))]
  · rw [if_neg hpos, if_neg hpos]
    have hshift : (-b.clustersPerMftRecord.toInt).toNat < 32 := by omega
    dsimp only
    rw [if_pos hshift]
    refine ⟨_, rfl, ?_⟩
    have hone : (1 : UInt32).toNat = 1 := rfl
    rw [UInt32.toNat_shiftLeft, UInt32.toNat_ofNat_of_lt' (Nat.lt_trans hshift (by decide)), hone,
      Nat.mod_eq_of_lt hshift, Nat.shiftLeft_eq, Nat.one_mul,
      Nat.mod_eq_of_lt (Nat.pow_lt_pow_right (by decide) hshift)]

theorem mftRecordSize_of_not_shift (h : ¬ -32 < b.clustersPerMftRecord.toInt) : b.mftRecordSize = none := by
  unfold mftRecordSize
  have hneg : ¬ 0 < b.clustersPerMftRecord := by
    intro hpos
    have hpos' : 0 < b.clustersPerMftRecord.toInt := Int8.lt_iff_toInt_lt.mp hpos
    omega
  rw [if_neg hneg]
  dsimp only
  rw [if_neg (by omega)]

theorem SizesAgree.recordBytes_pos {total : UInt64} (h : SizesAgree b total) : 0 < b.recordBytes := by
  have hbps : 0 < b.bytesPerSector.toNat := Nat.pos_of_ne_zero fun h0 => h.bytesPerSector (UInt16.toNat_inj.mp h0)
  have hspc : 0 < b.sectorsPerCluster.toNat :=
    Nat.pos_of_ne_zero fun h0 => h.sectorsPerCluster (UInt8.toNat_inj.mp h0)
  unfold recordBytes
  split
  · rename_i hpos
    have hpos' : 0 < b.clustersPerMftRecord.toInt := Int8.lt_iff_toInt_lt.mp hpos
    exact Nat.mul_pos (by omega) (Nat.mul_pos hbps hspc)
  · exact Nat.pow_pos (by decide)

end BootSector

/-! ## Divisions -/

section
variable (b : ByteMap) {drive : DriveInfo} (h : drive.bootSector.sectorsPerCluster ≠ 0)
include h

theorem processRuns_ne_division : ∀ (rounds pos : Nat) (lcn : UInt64) (info : FileInfo),
    processRuns drive b rounds pos lcn info ≠ .error .divisionByZero
  | 0, _, _, _ => by simp [processRuns]
  | rounds + 1, pos, lcn, info => by
    have hfault : ∀ i, Fault.divisionByZero ≠ .outOfBounds i := by simp
    have hshift : Fault.divisionByZero ≠ .undefinedShift := by decide
    unfold processRuns
    refine bind_ne_error (readByte_ne_error hfault b pos) fun header => ?_
    by_cases hheader : header = 0
    · rw [if_pos hheader]
      simp
    · rw [if_neg hheader]
      by_cases hsize : lengthSize header = 0
      · rw [if_pos hsize]
        simp
      · rw [if_neg hsize]
        refine bind_ne_error (readField_ne_error hfault hshift b _ _ _ _) fun runLength => ?_
        refine bind_ne_error (readRunOffset_ne_error hfault hshift b _ _) fun runOffset => ?_
        rw [if_neg h]
        split
        · simp
        · exact processRuns_ne_division rounds _ _ _

theorem processDataAttribute_ne_division (attr : Nat) (info : FileInfo) :
    processDataAttribute drive b attr info ≠ .error .divisionByZero :=
  processDataAttribute_ne_error (by simp) b (fun pos info => processRuns_ne_division b h _ pos 0 info) attr info

end

def ones : ByteMap := fun _ => some 1

theorem readBytes_ones : ∀ n i : Nat, readBytes ones n i = .ok (List.replicate n 1)
  | 0, _ => rfl
  | n + 1, i => by
    have ih := readBytes_ones n (i + 1)
    unfold readBytes
    rw [ih]
    rfl

/-- With no sectors in a cluster, the first run of any run list divides by zero. -/
theorem processDataAttribute_divides {drive : DriveInfo} (h : drive.bootSector.sectorsPerCluster = 0) (attr : Nat)
    (info : FileInfo) : processDataAttribute drive ones attr info = .error .divisionByZero := by
  have hbyte : ∀ i, readByte ones i = .ok 1 := fun _ => rfl
  have hruns : ∀ rounds pos info, processRuns drive ones (rounds + 1) pos 0 info = .error .divisionByZero := by
    intro rounds pos info
    unfold processRuns
    have hlength : lengthSize 1 = 1 := rfl
    have hoffset : offsetSize 1 = 0 := rfl
    rw [hbyte, ok_bind, if_neg (by decide), hlength, hoffset, if_neg (by decide)]
    simp only [readField, readRunOffset, hbyte, ok_bind, Nat.zero_mul]
    rw [if_neg (by decide), ok_bind, if_pos trivial, ok_bind, if_pos h]
  unfold processDataAttribute readU64 readU16 readLE DriveInfo.runRounds
  rw [hbyte, ok_bind, if_neg (by decide), readBytes_ones, readBytes_ones]
  exact hruns _ _ _

theorem getSectorsPerMftRecord_divides {v : Volume} :
    getSectorsPerMftRecord v = .error .divisionByZero ↔ v.bytesPerSector = 0 := by
  unfold getSectorsPerMftRecord
  dsimp only
  rw [← UInt16.toUInt32_inj]
  split
  · simpa
  · simpa

/-! ## The records of the volume -/

theorem slice_bytesFrom {volume : Nat → UInt8} {start n off k : Nat} (h : off + k ≤ n) :
    slice (bytesFrom volume start n) off k = bytesFrom volume (start + off) k := by
  unfold slice bytesFrom
  apply List.ext_getElem
  · simp only [List.length_take, List.length_drop, List.length_map, List.length_range]
    omega
  · intro i h1 h2
    simp [Nat.add_assoc]

section
variable {volume : Nat → UInt8} {bytesPerSector : UInt32} {total : UInt64} {drive : DriveInfo}

def volumeOf (volume : Nat → UInt8) (bytesPerSector : UInt32) (total : UInt64) (drive : DriveInfo) : Volume :=
  ⟨.ofVolume volume bytesPerSector total, drive⟩

theorem readSector_volumeOf (sector : UInt64) :
    (volumeOf volume bytesPerSector total drive).readSector sector =
      some (bytesFrom volume (sector * drive.bootSector.bytesPerSector.toUInt64).toNat
        drive.bootSector.bytesPerSector.toNat) := by
  show some ((List.range drive.bootSector.bytesPerSector.toUInt32.toNat).map _) = _
  rw [UInt16.toNat_toUInt32]
  rfl

theorem sector_offset {sectors n k : UInt64} (hcluster : drive.bytesPerCluster.toUInt64 =
      drive.bootSector.bytesPerSector.toUInt64 * drive.bootSector.sectorsPerCluster.toUInt64) :
    ((volumeOf volume bytesPerSector total drive).mftSector + n * sectors + k) *
        drive.bootSector.bytesPerSector.toUInt64 =
      drive.mftOffset + (n * (sectors * drive.bootSector.bytesPerSector.toUInt64) +
        k * drive.bootSector.bytesPerSector.toUInt64) := by
  have hsector : (volumeOf volume bytesPerSector total drive).mftSector =
      drive.bootSector.mftCluster * drive.bootSector.sectorsPerCluster.toUInt64 := rfl
  have hoffset : drive.mftOffset = drive.bootSector.mftCluster *
      (drive.bootSector.bytesPerSector.toUInt64 * drive.bootSector.sectorsPerCluster.toUInt64) := by
    rw [← hcluster]
    rfl
  rw [hsector, hoffset]
  grind

theorem sector_offset_toNat {sectors n k : UInt64} (hcluster : drive.bytesPerCluster.toUInt64 =
      drive.bootSector.bytesPerSector.toUInt64 * drive.bootSector.sectorsPerCluster.toUInt64)
    (hlt : drive.mftOffset.toNat + (n.toNat * (sectors.toNat * drive.bootSector.bytesPerSector.toNat) +
      k.toNat * drive.bootSector.bytesPerSector.toNat) < 2 ^ 64) :
    (((volumeOf volume bytesPerSector total drive).mftSector + n * sectors + k) *
        drive.bootSector.bytesPerSector.toUInt64).toNat =
      drive.mftOffset.toNat + (n.toNat * (sectors.toNat * drive.bootSector.bytesPerSector.toNat) +
        k.toNat * drive.bootSector.bytesPerSector.toNat) := by
  rw [sector_offset hcluster]
  simp only [UInt64.toNat_add, UInt64.toNat_mul, UInt16.toNat_toUInt64, Nat.mul_mod_mod, Nat.add_mod_mod,
    Nat.mod_add_mod]
  exact Nat.mod_eq_of_lt hlt

/-- The record is whole sectors, and none of them starts past 2^64 bytes. -/
theorem readMftRecord_of_fits {sectors : UInt32} {recordIndex : UInt64} {mftBuffer : List UInt8}
    (hcluster : drive.bytesPerCluster.toUInt64 =
      drive.bootSector.bytesPerSector.toUInt64 * drive.bootSector.sectorsPerCluster.toUInt64)
    (hpos : 0 < drive.bootSector.bytesPerSector.toNat)
    (hsize : drive.mftRecordSize.toNat = sectors.toNat * drive.bootSector.bytesPerSector.toNat)
    (hfits : drive.mftOffset.toNat + (recordIndex.toNat + 1) * drive.mftRecordSize.toNat <
      2 ^ 64 + drive.bootSector.bytesPerSector.toNat)
    (hbuffer : mftBuffer.length = drive.mftRecordSize.toNat) :
    readMftRecord (volumeOf volume bytesPerSector total drive) sectors
        ((volumeOf volume bytesPerSector total drive).mftSector + recordIndex * sectors.toUInt64) mftBuffer =
      .ok (true, bytesFrom volume (drive.mftOffset.toNat + recordIndex.toNat * drive.mftRecordSize.toNat)
        drive.mftRecordSize.toNat) := by
  have hbps : (volumeOf volume bytesPerSector total drive).bytesPerSector = drive.bootSector.bytesPerSector := rfl
  have hlen : ∀ start, (bytesFrom volume start drive.mftRecordSize.toNat).length = drive.mftRecordSize.toNat := by
    intro start
    unfold bytesFrom
    rw [List.length_map, List.length_range]
  unfold readMftRecord
  apply readMftSectors_eq (by rw [hbps]; exact hpos)
  · intro k hk
    rw [hlen, hbps, hsize, Nat.mul_div_cancel _ hpos] at hk
    have hk1 : (k + 1) * drive.bootSector.bytesPerSector.toNat ≤ drive.mftRecordSize.toNat := by
      rw [hsize]
      exact Nat.mul_le_mul_right _ hk
    rw [Nat.add_mul, Nat.one_mul] at hk1 hfits
    have hk64 : (UInt64.ofNat k).toNat = k := by
      have hlt := sectors.toNat_lt
      rw [UInt64.toNat_ofNat_of_lt' (Nat.lt_trans hk (Nat.lt_trans hlt (by decide)))]
    rw [readSector_volumeOf, hbps, slice_bytesFrom hk1, sector_offset_toNat hcluster, hk64, UInt32.toNat_toUInt64,
      ← hsize, Nat.add_assoc]
    rw [hk64, UInt32.toNat_toUInt64, ← hsize]
    omega
  · rw [hlen, hbps, Nat.zero_add, hsize]
  · rw [hlen, hbuffer]
  · rw [Nat.zero_mul, List.take_zero, List.take_zero]

theorem head_bytesFrom {a b n : Nat} (hpos : 0 < n) (h : bytesFrom volume a n = bytesFrom volume b n) :
    volume a = volume b := by
  obtain ⟨m, rfl⟩ := Nat.exists_eq_succ_of_ne_zero (Nat.ne_of_gt hpos)
  unfold bytesFrom at h
  rw [List.range_succ_eq_map, List.map_cons, List.map_cons] at h
  exact (List.cons.inj h).1

section
variable {content : List UInt8} {sectors : UInt32} {recordIndex : UInt64} {mftBuffer : List UInt8}
  (hrounded : drive.mftRecordSize.toNat ≤ sectors.toNat * drive.bootSector.bytesPerSector.toNat)
  (hbuffer : mftBuffer.length = drive.mftRecordSize.toNat)
include hrounded hbuffer

theorem recordSize_of_readMftRecord {record : List UInt8}
    (hread : readMftRecord (volumeOf volume bytesPerSector total drive) sectors
      ((volumeOf volume bytesPerSector total drive).mftSector + recordIndex * sectors.toUInt64) mftBuffer =
        .ok (true, record)) :
    drive.mftRecordSize.toNat = sectors.toNat * drive.bootSector.bytesPerSector.toNat := by
  have hbps : (volumeOf volume bytesPerSector total drive).bytesPerSector = drive.bootSector.bytesPerSector := rfl
  have hok := (readMftRecord_ok hread).2.1
  rw [hbps, hbuffer] at hok
  exact Nat.le_antisymm hrounded hok

/-- When the record is read whatever the volume holds behind its boot sector, it is whole
sectors, and none of them starts past 2^64 bytes. -/
theorem fits_of_readMftRecord (hcontent : content.length < 2 ^ 64) (hpos : 0 < drive.mftRecordSize.toNat)
    (hread : ∀ volume, StartsWith content volume →
      readMftRecord (volumeOf volume bytesPerSector total drive) sectors
          ((volumeOf volume bytesPerSector total drive).mftSector + recordIndex * sectors.toUInt64) mftBuffer =
        .ok (true, bytesFrom volume (drive.mftOffset.toNat + recordIndex.toNat * drive.mftRecordSize.toNat)
          drive.mftRecordSize.toNat)) :
    drive.mftRecordSize.toNat = sectors.toNat * drive.bootSector.bytesPerSector.toNat ∧
      drive.mftOffset.toNat + (recordIndex.toNat + 1) * drive.mftRecordSize.toNat <
        2 ^ 64 + drive.bootSector.bytesPerSector.toNat := by
  have hsize := recordSize_of_readMftRecord hrounded hbuffer (hread (fun i => content.getD i 0) fun _ _ => rfl)
  refine ⟨hsize, ?_⟩
  by_contra hlarge
  rw [Nat.add_mul, Nat.one_mul] at hlarge
  have hsectors : 0 < sectors.toNat := Nat.pos_of_mul_pos_right (hsize ▸ hpos)
  have hbpspos : 0 < drive.bootSector.bytesPerSector.toNat := Nat.pos_of_mul_pos_left (hsize ▸ hpos)
  have hlast : (sectors.toNat - 1) * drive.bootSector.bytesPerSector.toNat + drive.bootSector.bytesPerSector.toNat =
      drive.mftRecordSize.toNat := by
    rw [hsize, Nat.sub_mul, Nat.one_mul]
    exact Nat.sub_add_cancel (Nat.le_mul_of_pos_left _ hsectors)
  let sector : UInt64 := drive.bootSector.mftCluster * drive.bootSector.sectorsPerCluster.toUInt64 +
    recordIndex * sectors.toUInt64 + UInt64.ofNat (sectors.toNat - 1)
  let readAt : Nat := (sector * drive.bootSector.bytesPerSector.toUInt64).toNat
  let start : Nat := drive.mftOffset.toNat + recordIndex.toNat * drive.mftRecordSize.toNat +
    (sectors.toNat - 1) * drive.bootSector.bytesPerSector.toNat
  have hstart : 2 ^ 64 ≤ start := by omega
  have hne : readAt ≠ start := Nat.ne_of_lt (Nat.lt_of_lt_of_le (UInt64.toNat_lt _) hstart)
  -- the last sector is read from below 2^64, where this volume holds something else
  let volume : Nat → UInt8 := fun i => if i = start then content.getD readAt 0 + 1 else content.getD i 0
  have hvolume : StartsWith content volume := fun i hi => if_neg (by omega)
  have hbps : (volumeOf volume bytesPerSector total drive).bytesPerSector = drive.bootSector.bytesPerSector := rfl
  have hok := (readMftRecord_ok (hread volume hvolume)).2.2 (sectors.toNat - 1) (by omega)
  rw [readSector_volumeOf, hbps, slice_bytesFrom (Nat.le_of_eq hlast), Option.some_inj] at hok
  have hhead : volume readAt = volume start := head_bytesFrom hbpspos hok
  have hread0 : volume readAt = content.getD readAt 0 := if_neg hne
  have hread1 : volume start = content.getD readAt 0 + 1 := if_pos rfl
  rw [hread0, hread1] at hhead
  simp at hhead

end

end

/-! ## Accepted boot sectors -/

def driveOf (b : BootSector) (mftRecordSize : UInt32) : DriveInfo where
  bootSector := b
  mftRecordSize := mftRecordSize
  bytesPerCluster := b.bytesPerSector.toUInt32 * b.sectorsPerCluster.toUInt32

theorem bytesPerCluster_driveOf (b : BootSector) (mftRecordSize : UInt32) :
    (driveOf b mftRecordSize).bytesPerCluster.toUInt64 =
      b.bytesPerSector.toUInt64 * b.sectorsPerCluster.toUInt64 := by
  have hbps := b.bytesPerSector.toNat_lt
  have hspc := b.sectorsPerCluster.toNat_lt
  have hcluster : b.bytesPerSector.toNat * b.sectorsPerCluster.toNat ≤ 65535 * 255 :=
    Nat.mul_le_mul (by omega) (by omega)
  apply UInt64.toNat_inj.mp
  unfold driveOf
  rw [UInt32.toNat_toUInt64, UInt32.toNat_mul, UInt64.toNat_mul, UInt16.toNat_toUInt32, UInt8.toNat_toUInt32,
    UInt16.toNat_toUInt64, UInt8.toNat_toUInt64, Nat.mod_eq_of_lt (Nat.lt_of_le_of_lt hcluster (by decide)),
    Nat.mod_eq_of_lt (Nat.lt_of_le_of_lt hcluster (by decide))]

theorem getSectorsPerMftRecord_ok {v : Volume} (h : v.bytesPerSector ≠ 0) :
    ∃ sectors, getSectorsPerMftRecord v = .ok sectors := by
  cases hs : getSectorsPerMftRecord v with
  | ok sectors => exact ⟨sectors, rfl⟩
  | error e =>
    have hne : v.bytesPerSector.toUInt32 ≠ 0 := fun h0 => h (UInt16.toUInt32_inj.mp h0)
    unfold getSectorsPerMftRecord at hs
    dsimp only at hs
    rw [if_neg hne] at hs
    cases hs

theorem safeScan_of_sizesAgree {total : UInt64} {b : BootSector} {mftRecordSize : UInt32} (h : b.SizesAgree total)
    (hrecord : mftRecordSize.toNat = b.recordBytes) (volume : Nat → UInt8) (bytesPerSector : UInt32) :
    SafeScan volume (volumeOf volume bytesPerSector total (driveOf b mftRecordSize)) where
  sectors := fun h0 => h.bytesPerSector (getSectorsPerMftRecord_divides.mp h0)
  runs := fun b attr info => processDataAttribute_ne_division b h.sectorsPerCluster attr info
  records := by
    intro hvalid sectors hsectors recordIndex hindex mftBuffer hbuffer
    have htotal : recordIndex.toNat < total.toNat := UInt64.lt_iff_toNat_lt.mp hindex
    have hstart : b.mftCluster * b.sectorsPerCluster.toUInt64 < b.totalSectors := of_decide_eq_true hvalid
    obtain ⟨⟨n, hn⟩, hfits⟩ := h.records hstart fun h0 => by rw [h0] at htotal; exact Nat.not_lt_zero _ htotal
    have hpos : 0 < b.bytesPerSector.toNat := Nat.pos_of_ne_zero fun h0 => h.bytesPerSector (UInt16.toNat_inj.mp h0)
    have hdvd : (driveOf b mftRecordSize).mftRecordSize.toNat = n * b.bytesPerSector.toNat := by
      rw [Nat.mul_comm, ← hn]
      exact hrecord
    obtain ⟨sectors', hsectors', hcount⟩ := @getSectorsPerMftRecord_eq
      (volumeOf volume bytesPerSector total (driveOf b mftRecordSize)) hpos _ hdvd
    rw [hsectors] at hsectors'
    cases hsectors'
    refine readMftRecord_of_fits (bytesPerCluster_driveOf b mftRecordSize) hpos ?_ ?_ hbuffer
    · rw [hcount]
      exact hdvd
    · refine Nat.lt_of_le_of_lt (Nat.add_le_add_left (Nat.mul_le_mul_right _ htotal) _) ?_
      rw [← hrecord] at hfits
      exact hfits

section
variable {content : List UInt8} (total : UInt64) (hlen : 84 ≤ content.length) (hsize : content.length < 2 ^ 32)
include hlen hsize

theorem readBootSector_of_content {volume : Nat → UInt8} (hvolume : StartsWith content volume) :
    readBootSector (bootDevice content volume total) =
      if ¬ (BootSector.ofBytes content).isNtfs then
        .error (.exception "Not a valid NTFS volume")
      else
        match (BootSector.ofBytes content).mftRecordSize with
        | none => .error .undefined
        | some mftRecordSize => .ok (driveOf (BootSector.ofBytes content) mftRecordSize) := by
  have hnat : (UInt32.ofNat content.length).toNat = content.length := UInt32.toNat_ofNat_of_lt' hsize
  have hne : UInt32.ofNat content.length ≠ 0 := by
    intro h0
    rw [h0] at hnat
    have hzero : (0 : UInt32).toNat = 0 := rfl
    omega
  have hread : (bootDevice content volume total).readSector 0 (UInt32.ofNat content.length) = some content := by
    show some ((List.range (UInt32.ofNat content.length).toNat).map _) = _
    rw [hnat, UInt64.zero_mul]
    congr 1
    apply List.ext_getElem
    · rw [List.length_map, List.length_range]
    · intro i h1 h2
      rw [List.getElem_map, List.getElem_range]
      have hzero : (0 : UInt64).toNat = 0 := rfl
      rw [hzero, Nat.zero_add, hvolume i h2, List.getD_eq_getElem?_getD, List.getElem?_eq_getElem h2, Option.getD_some]
  unfold readBootSector
  have hbps : (bootDevice content volume total).getBytesPerSector = UInt32.ofNat content.length := rfl
  dsimp only
  rw [hbps, if_neg hne, hread]
  dsimp only
  rw [hnat, if_neg (by omega)]
  rfl

/-- One record size is accepted, and every volume that starts with the sector is scanned safely with it. -/
theorem safeScan_of_bootSafe (hntfs : (BootSector.ofBytes content).isNtfs) (h : BootSafe content total) :
    ∃ mftRecordSize, (BootSector.ofBytes content).mftRecordSize = some mftRecordSize ∧
      ∀ volume, StartsWith content volume → SafeScan volume (volumeOf volume (UInt32.ofNat content.length) total
        (driveOf (BootSector.ofBytes content) mftRecordSize)) := by
  cases hrecord : (BootSector.ofBytes content).mftRecordSize with
  | none =>
    have hvolume : StartsWith content fun i => content.getD i 0 := fun _ _ => rfl
    have hsafe := (h _ hvolume).1
    rw [readBootSector_of_content total hlen hsize hvolume, if_neg (not_not.mpr hntfs), hrecord] at hsafe
    exact absurd rfl hsafe
  | some mftRecordSize =>
    refine ⟨mftRecordSize, rfl, fun volume hvolume => (h volume hvolume).2 _ ?_⟩
    rw [readBootSector_of_content total hlen hsize hvolume, if_neg (not_not.mpr hntfs), hrecord]

theorem sizesAgree_of_bootSafe (hntfs : (BootSector.ofBytes content).isNtfs) (h : BootSafe content total) :
    (BootSector.ofBytes content).SizesAgree total := by
  obtain ⟨mftRecordSize, hrecord, hscan⟩ := safeScan_of_bootSafe total hlen hsize hntfs h
  generalize BootSector.ofBytes content = b at hrecord hscan ⊢
  have hsafe := hscan (fun i => content.getD i 0) fun _ _ => rfl
  have hshift : -32 < b.clustersPerMftRecord.toInt := by
    by_contra hshift
    rw [BootSector.mftRecordSize_of_not_shift hshift] at hrecord
    cases hrecord
  obtain ⟨size, hsome, hbytes⟩ := BootSector.mftRecordSize_of_shift hshift
  rw [hrecord] at hsome
  cases hsome
  have hbps : b.bytesPerSector ≠ 0 := fun h0 => hsafe.sectors (getSectorsPerMftRecord_divides.mpr h0)
  have hspc : b.sectorsPerCluster ≠ 0 := fun h0 =>
    hsafe.runs ones 0 {} (@processDataAttribute_divides (driveOf b mftRecordSize) h0 0 {})
  refine ⟨hshift, hbps, hspc, fun hstart htotal => ?_⟩
  have hpos : 0 < mftRecordSize.toNat := by
    rw [hbytes]
    exact @BootSector.SizesAgree.recordBytes_pos b 0 ⟨hshift, hbps, hspc, fun _ h0 => absurd rfl h0⟩
  have htotal0 : total.toNat ≠ 0 := fun h0 => htotal (UInt64.toNat_inj.mp h0)
  have hlast : (total - 1).toNat = total.toNat - 1 :=
    UInt64.toNat_sub_of_le _ _ (UInt64.le_iff_toNat_le.mpr (Nat.pos_of_ne_zero htotal0))
  obtain ⟨sectors, hsectors⟩ := @getSectorsPerMftRecord_ok
    (volumeOf (fun _ => 0) (UInt32.ofNat content.length) total (driveOf b mftRecordSize)) hbps
  have hread : ∀ volume, StartsWith content volume →
      readMftRecord (volumeOf volume (UInt32.ofNat content.length) total (driveOf b mftRecordSize)) sectors
          ((volumeOf volume (UInt32.ofNat content.length) total (driveOf b mftRecordSize)).mftSector +
            (total - 1) * sectors.toUInt64) (List.replicate mftRecordSize.toNat 0) =
        .ok (true, bytesFrom volume
          ((driveOf b mftRecordSize).mftOffset.toNat + (total - 1).toNat * mftRecordSize.toNat)
          mftRecordSize.toNat) := by
    intro volume hvolume
    refine (hscan volume hvolume).records (decide_eq_true hstart) sectors hsectors (total - 1) ?_ _
      List.length_replicate
    apply UInt64.lt_iff_toNat_lt.mpr
    show (total - 1).toNat < total.toNat
    omega
  obtain ⟨hdvd, hfits⟩ := fits_of_readMftRecord (sectors_mul_ge hsectors) List.length_replicate
    (Nat.lt_trans hsize (by decide)) hpos hread
  rw [hlast, Nat.sub_add_cancel (Nat.pos_of_ne_zero htotal0)] at hfits
  rw [← hbytes]
  exact ⟨⟨sectors.toNat, by rw [Nat.mul_comm]; exact hdvd⟩, hfits⟩

/-- An accepted boot sector is scanned safely exactly when its sizes agree. -/
theorem boot_safe_iff :
    BootSafe content total ↔
      ¬ (BootSector.ofBytes content).isNtfs ∨ (BootSector.ofBytes content).SizesAgree total := by
  constructor
  · intro h
    by_cases hntfs : (BootSector.ofBytes content).isNtfs
    · exact .inr (sizesAgree_of_bootSafe total hlen hsize hntfs h)
    · exact .inl hntfs
  · intro h volume hvolume
    rw [readBootSector_of_content total hlen hsize hvolume]
    by_cases hntfs : (BootSector.ofBytes content).isNtfs
    · have hagree := h.resolve_left (not_not.mpr hntfs)
      obtain ⟨size, hsome, hbytes⟩ := BootSector.mftRecordSize_of_shift hagree.shift
      rw [if_neg (not_not.mpr hntfs), hsome]
      refine ⟨by simp, fun driveInfo hdrive => ?_⟩
      cases hdrive
      exact safeScan_of_sizesAgree hagree hbytes volume _
    · rw [if_pos hntfs]
      exact ⟨by simp, fun driveInfo hdrive => by cases hdrive⟩

end

/-- 512 MiB in 512-byte sectors, eight to a cluster, the MFT in cluster 4. -/
def bootContent (clustersPerMftRecord : UInt8) : List UInt8 :=
  [0xEB, 0x52, 0x90] ++ ("NTFS    ".toList.map fun c => UInt8.ofNat c.toNat) ++ leBytes 2 512 ++ [8] ++
    leBytes 26 0 ++ leBytes 8 1048576 ++ leBytes 8 4 ++ leBytes 8 2 ++ [clustersPerMftRecord] ++ List.replicate 445 0 ++
    [0x55, 0xAA]

theorem length_bootContent (c : UInt8) : (bootContent c).length = 512 := by
  unfold bootContent
  simp only [List.length_append, List.length_map, length_leBytes, List.length_replicate, List.length_cons, List.length_nil,
    String.length_toList]
  decide

theorem readBootSector_bootContent {device : Device} (hsize : device.getBytesPerSector = 512)
    (hread : device.readSector 0 512 = some (bootContent 0xF6)) :
    readBootSector device = .ok (driveOf (.ofBytes (bootContent 0xF6)) 1024) := by
  have hntfs : (BootSector.ofBytes (bootContent 0xF6)).oemID.take 4 =
      "NTFS".toList.map fun c => UInt8.ofNat c.toNat := by decide +kernel
  have hrecord : (BootSector.ofBytes (bootContent 0xF6)).mftRecordSize = some 1024 := rfl
  unfold readBootSector
  rw [hsize]
  dsimp only
  rw [if_neg (by decide), hread]
  dsimp only
  rw [if_neg (by decide), if_neg (not_not.mpr hntfs), hrecord]
  rfl

theorem bootContent_safe : BootSafe (bootContent 0xF6) 64 := by
  have hmin : 84 ≤ (bootContent 0xF6).length := by rw [length_bootContent]; decide
  have hmax : (bootContent 0xF6).length < 2 ^ 32 := by rw [length_bootContent]; decide
  have hagree : (BootSector.ofBytes (bootContent 0xF6)).SizesAgree 64 :=
    ⟨by decide +kernel, by decide +kernel, by decide +kernel, fun _ _ => ⟨by decide +kernel, by decide +kernel⟩⟩
  rw [boot_safe_iff 64 hmin hmax]
  exact .inr hagree

/-- Records of 256 bytes: a sector does not fit in the buffer. -/
theorem small_record_overflows :
    ¬ ∀ (content : List UInt8) (total : UInt64), 84 ≤ content.length → content.length < 2 ^ 32 →
      BootSafe content total := by
  intro h
  have hmin : 84 ≤ (bootContent 0xF8).length := by rw [length_bootContent]; decide
  have hmax : (bootContent 0xF8).length < 2 ^ 32 := by rw [length_bootContent]; decide
  have hrecord : (BootSector.ofBytes (bootContent 0xF8)).mftRecordSize = some 256 := by decide +kernel
  have hboot := h (bootContent 0xF8) 64 hmin hmax
  have hvolume : StartsWith (bootContent 0xF8) fun i => (bootContent 0xF8).getD i 0 := by
    intro i _
    rfl
  have hsafe := (hboot _ hvolume).2 (driveOf (.ofBytes (bootContent 0xF8)) 256) (by
    rw [readBootSector_of_content 64 hmin hmax hvolume, if_neg (by decide +kernel), hrecord])
  have hread := hsafe.records (by decide +kernel) 1 (by decide +kernel) 0 (by decide +kernel) (List.replicate 256 0)
    List.length_replicate
  have hroom := (readMftRecord_ok hread).2.1
  rw [List.length_replicate] at hroom
  exact absurd hroom (by decide +kernel)

end DataRecovery.NTFS
