import DataRecovery.NTFS.Record

/-!
# Update sequences

A record is stored with the last two bytes of each sector replaced by the update
sequence number and the original bytes kept in the update sequence array. The
engine reads the stored form and parses it as it is.
-/

namespace DataRecovery.NTFS

/-! ## What a parser does not read does not matter -/

section
variable (drive : DriveInfo)

theorem stable_readField : ∀ (count i pos : Nat) (acc : UInt64), Stable fun b => readField b count i pos acc
  | 0, _, _, _ => Stable.pure _
  | count + 1, i, pos, acc => by
    unfold readField
    exact (stable_readByte pos).bind fun x => (Stable.pure _).ite (stable_readField count (i + 1) (pos + 1) _)

theorem stable_readRunOffset (offsetSize pos : Nat) : Stable fun b => readRunOffset b offsetSize pos := by
  unfold readRunOffset
  refine (Stable.pure _).ite ((stable_readField offsetSize 0 pos 0).bind fun runOffset => ?_)
  exact (Stable.pure _).ite ((Stable.pure _).ite (Stable.pure _))

theorem stable_processRuns : ∀ (rounds pos : Nat) (currentLCN : UInt64) (info : FileInfo),
    Stable fun b => processRuns drive b rounds pos currentLCN info
  | 0, _, _, _ => Stable.pure _
  | rounds + 1, pos, currentLCN, info => by
    unfold processRuns
    refine (stable_readByte pos).bind fun header => ?_
    refine (Stable.pure _).ite ((Stable.pure _).ite ?_)
    refine (stable_readField _ 0 (pos + 1) 0).bind fun runLength => ?_
    refine (stable_readRunOffset _ _).bind fun runOffset => ?_
    exact (Stable.pure _).ite ((Stable.pure _).ite (stable_processRuns rounds _ _ _))

theorem stable_readUnits : ∀ n i : Nat, Stable fun b => readUnits b n i
  | 0, _ => Stable.pure _
  | n + 1, i => by
    unfold readUnits
    exact (stable_readU16 i).bind fun c => (stable_readUnits n (i + 2)).bind fun cs => Stable.pure _

theorem stable_processFileNameAttribute (attr : Nat) (fileId : UInt16) (info : FileInfo) :
    Stable fun b => processFileNameAttribute b attr fileId info := by
  unfold processFileNameAttribute
  refine (stable_readByte _).bind fun nonResident => Stable.ite ?_ (Stable.pure _)
  refine (stable_readU16 _).bind fun contentOffset => ?_
  refine (stable_readByte _).bind fun nameLength => ?_
  exact (stable_readUnits _ _).bind fun wfilename => Stable.pure _

theorem stable_processDataAttribute (attr : Nat) (info : FileInfo) :
    Stable fun b => processDataAttribute drive b attr info := by
  unfold processDataAttribute
  refine (stable_readByte _).bind fun nonResident => Stable.ite ?_ ?_
  · refine (stable_readU16 _).bind fun contentOffset => ?_
    refine (stable_readU32 _).bind fun contentLength => ?_
    exact (stable_readBytes _ _).bind fun data => Stable.pure _
  · refine (stable_readU64 _).bind fun realSize => ?_
    exact (stable_readU16 _).bind fun dataRunOffset => stable_processRuns drive _ _ _ _

theorem stable_visitAttribute (fileId : UInt16) (type : UInt32) (attr : Nat) (p : Progress) :
    Stable fun b => visitAttribute drive b fileId type attr p := by
  unfold visitAttribute
  refine Stable.ite ?_ (Stable.ite ?_ (Stable.pure _))
  · exact (stable_processFileNameAttribute _ _ _).bind fun info => Stable.pure _
  · exact (stable_processDataAttribute drive _ _).bind fun info => Stable.pure _

theorem stable_processAttribute (fileId : UInt16) : ∀ (rounds : Nat) (attributeOffset : UInt32) (p : Progress),
    Stable fun b => processAttribute drive b fileId rounds attributeOffset p
  | 0, _, _ => Stable.pure _
  | rounds + 1, attributeOffset, p => by
    unfold processAttribute
    refine Stable.ite ?_ (Stable.pure _)
    refine (stable_readU32 _).bind fun type => (Stable.pure _).ite ?_
    refine (stable_readU32 _).bind fun length => (Stable.pure _).ite ?_
    exact (stable_visitAttribute drive _ _ _ _).bind fun p => stable_processAttribute fileId rounds _ p

theorem stable_processMftRecord (rounds : Nat) (st : ScanState) :
    Stable fun b => processMftRecord drive b rounds st := by
  unfold processMftRecord
  refine (stable_readU32 _).bind fun signature => (Stable.pure _).ite ?_
  refine (stable_readU16 _).bind fun flags => (Stable.pure _).ite ?_
  refine (stable_readU16 _).bind fun attributeOffset => ?_
  exact (stable_processAttribute drive _ _ _ _).bind fun p => Stable.pure _

end

/-! ## The stored form -/

/-- Byte `j` of the stored form of record `r`: the update sequence number at the end of each
sector, the bytes it replaces in the array. -/
def diskByte (bytesPerSector : Nat) (r : List UInt8) (j : Nat) : UInt8 :=
  let usaOffset := (le16 r 4).toNat
  let usaSize := (le16 r 6).toNat
  if bytesPerSector ≤ j % bytesPerSector + 2 then r.getD (usaOffset + (j % bytesPerSector + 2 - bytesPerSector)) 0
  else if usaOffset + 2 ≤ j ∧ j < usaOffset + 2 * usaSize then
    let word := (j - usaOffset) / 2
    r.getD (word * bytesPerSector - 2 + (j - usaOffset) % 2) 0
  else r.getD j 0

def diskForm (bytesPerSector : Nat) (r : List UInt8) : List UInt8 :=
  (List.range r.length).map (diskByte bytesPerSector r)

/-- One array word for the number and one for each sector, between the header and the end of the first sector. -/
structure Protected (bytesPerSector : Nat) (r : List UInt8) : Prop where
  words : (le16 r 6).toNat = r.length / bytesPerSector + 1
  after_header : 48 ≤ (le16 r 4).toNat
  in_first_sector : (le16 r 4).toNat + 2 * (le16 r 6).toNat + 2 ≤ bytesPerSector

def common (r r' : List UInt8) : ByteMap := fun i => if r[i]? = r'[i]? then r[i]? else none

theorem extends_common_left (r r' : List UInt8) : Extends (common r r') (ofBuffer r) := by
  intro i x h
  unfold common at h
  split at h
  · exact h
  · cases h

theorem extends_common_right (r r' : List UInt8) : Extends (common r r') (ofBuffer r') := by
  intro i x h
  unfold common at h
  split at h
  · rename_i he; rw [he] at h; exact h
  · cases h

/-! ## Reading a record -/

theorem length_diskForm (bytesPerSector : Nat) (r : List UInt8) : (diskForm bytesPerSector r).length = r.length := by
  unfold diskForm
  rw [List.length_map, List.length_range]

section
variable {v : Volume} (hpos : 0 < v.bytesPerSector.toNat)
include hpos

theorem readMftSectors_eq {record : List UInt8} {currentSector : UInt64}
    (hstored : ∀ i, i < record.length / v.bytesPerSector.toNat →
      v.readSector (currentSector + UInt64.ofNat i) =
        some (slice record (i * v.bytesPerSector.toNat) v.bytesPerSector.toNat)) :
    ∀ (count i : Nat) (buffer : List UInt8), (i + count) * v.bytesPerSector.toNat = record.length →
      buffer.length = record.length →
      buffer.take (i * v.bytesPerSector.toNat) = record.take (i * v.bytesPerSector.toNat) →
      readMftSectors v currentSector count i buffer = .ok (true, record)
  | 0, i, buffer, htotal, hbuf, htake => by
    rw [Nat.add_zero] at htotal
    rw [htotal, List.take_of_length_le (Nat.le_of_eq hbuf), List.take_of_length_le (Nat.le_refl _)] at htake
    unfold readMftSectors
    rw [htake]
  | count + 1, i, buffer, htotal, hbuf, htake => by
    have hsplit : (i + (count + 1)) * v.bytesPerSector.toNat =
        i * v.bytesPerSector.toNat + v.bytesPerSector.toNat + count * v.bytesPerSector.toNat := by
      rw [Nat.add_mul, Nat.add_mul]
      omega
    have hnext : (i + 1) * v.bytesPerSector.toNat = i * v.bytesPerSector.toNat + v.bytesPerSector.toNat := by
      rw [Nat.add_mul, Nat.one_mul]
    have hi : i < record.length / v.bytesPerSector.toNat := by
      rw [← htotal, Nat.mul_div_cancel _ hpos]
      omega
    have hslice : (slice record (i * v.bytesPerSector.toNat) v.bytesPerSector.toNat).length =
        v.bytesPerSector.toNat := by
      unfold slice
      rw [List.length_take, List.length_drop]
      omega
    unfold readMftSectors
    dsimp only
    rw [hstored i hi]
    dsimp only
    rw [hslice, if_neg (by omega)]
    apply readMftSectors_eq hstored count (i + 1)
    · rw [← htotal, Nat.add_right_comm, Nat.add_assoc]
    · unfold writeAt
      rw [List.length_append, List.length_append, List.length_take, List.length_drop, hslice]
      omega
    · unfold writeAt
      rw [htake, hnext, List.take_append_of_le_length, List.take_of_length_le, List.take_add]
      · rfl
      · rw [List.length_append, List.length_take, hslice]
        omega
      · rw [List.length_append, List.length_take, hslice]
        omega

theorem getSectorsPerMftRecord_eq {n : Nat} (hsize : v.driveInfo.mftRecordSize.toNat = n * v.bytesPerSector.toNat) :
    ∃ sectors, getSectorsPerMftRecord v = .ok sectors ∧ sectors.toNat = n := by
  have hbps : v.bytesPerSector.toUInt32.toNat = v.bytesPerSector.toNat := UInt16.toNat_toUInt32 _
  have hne : v.bytesPerSector.toUInt32 ≠ 0 := by
    intro h
    rw [← hbps, h] at hpos
    exact absurd hpos (by decide)
  have hrem : v.driveInfo.mftRecordSize % v.bytesPerSector.toUInt32 = 0 := by
    apply UInt32.toNat_inj.mp
    rw [UInt32.toNat_mod, hbps, hsize, Nat.mul_mod_left]
    rfl
  refine ⟨v.driveInfo.mftRecordSize / v.bytesPerSector.toUInt32, ?_, ?_⟩
  · unfold getSectorsPerMftRecord
    dsimp only
    rw [if_neg hne, hrem, if_neg (by simp)]
  · rw [UInt32.toNat_div, hbps, hsize, Nat.mul_div_cancel _ hpos]

end

/-! ## Parsing the stored form -/

/-- A stored record reaches the parser as it is on the disk. Its item is the one of the
original record when the parse makes do with the bytes the two have in common. -/
theorem record_parsed_as_stored (v : Volume) (r : List UInt8) (currentSector : UInt64) (mftBuffer : List UInt8)
    (hpos : 0 < v.bytesPerSector.toNat) (hdvd : v.bytesPerSector.toNat ∣ v.driveInfo.mftRecordSize.toNat)
    (hlen : r.length = v.driveInfo.mftRecordSize.toNat) (hbuf : mftBuffer.length = v.driveInfo.mftRecordSize.toNat)
    (hstored : ∀ i < r.length / v.bytesPerSector.toNat, v.readSector (currentSector + UInt64.ofNat i) =
      some (slice (diskForm v.bytesPerSector.toNat r) (i * v.bytesPerSector.toNat) v.bytesPerSector.toNat)) :
    (∃ sectors, getSectorsPerMftRecord v = .ok sectors ∧
      readMftRecord v sectors currentSector mftBuffer = .ok (true, diskForm v.bytesPerSector.toNat r)) ∧
    ∀ rounds st st',
      processMftRecord v.driveInfo (common r (diskForm v.bytesPerSector.toNat r)) rounds st = .ok st' →
        processMftRecord v.driveInfo (ofBuffer (diskForm v.bytesPerSector.toNat r)) rounds st = .ok st' ∧
          processMftRecord v.driveInfo (ofBuffer r) rounds st = .ok st' := by
  constructor
  · obtain ⟨n, hn⟩ := hdvd
    rw [Nat.mul_comm] at hn
    obtain ⟨sectors, hsectors, hcount⟩ := getSectorsPerMftRecord_eq hpos hn
    refine ⟨sectors, hsectors, ?_⟩
    unfold readMftRecord
    rw [hcount]
    apply readMftSectors_eq hpos
    · intro i hi
      rw [length_diskForm] at hi
      exact hstored i hi
    · rw [length_diskForm, hlen, hn, Nat.zero_add]
    · rw [length_diskForm, hlen, hbuf]
    · rw [Nat.zero_mul, List.take_zero, List.take_zero]
  · intro rounds st st' h
    have hstable := stable_processMftRecord v.driveInfo rounds st
    exact ⟨hstable _ _ _ (extends_common_right _ _) h, hstable _ _ _ (extends_common_left _ _) h⟩

def smallVolume (sectors : List (UInt64 × List UInt8)) : Volume where
  device := .ofSectors sectors 512
  driveInfo := smallDrive

def storedVolume (r : List UInt8) : Volume := smallVolume [(0, diskForm 512 r)]

theorem storedVolume_bytesPerSector (r : List UInt8) : (storedVolume r).bytesPerSector.toNat = 512 := by
  show (512 : UInt16).toNat = 512
  decide

theorem storedVolume_mftRecordSize (r : List UInt8) : (storedVolume r).driveInfo.mftRecordSize.toNat = 512 := by
  show (512 : UInt32).toNat = 512
  decide

theorem storedVolume_stored {r : List UInt8} (hlen : r.length = 512) :
    ∀ i < r.length / 512, (storedVolume r).readSector (0 + UInt64.ofNat i) =
      some (slice (diskForm 512 r) (i * 512) 512) := by
  intro i hi
  have h0 : i = 0 := by omega
  subst h0
  have hdisk : (diskForm 512 r).length = 512 := by rw [length_diskForm, hlen]
  show some (List.take 512 (diskForm 512 r ++ List.replicate 512 0)) = some (List.take 512 (diskForm 512 r))
  rw [List.take_append_of_le_length (Nat.le_of_eq hdisk.symm)]

def shortRecord : List UInt8 := rawRecord (rawFileName 0x41 ++ rawResident 0x80 [] (List.replicate 8 7))

def shortInfo : FileInfo := { fileName := wide "A", fileId := 1, fileSize := 8, data := List.replicate 8 7 }

theorem shortRecord_parsed :
    processMftRecord smallDrive (ofBuffer (diskForm 512 shortRecord)) 3 {} = .ok ⟨2, [shortInfo]⟩ := by
  have hlen : shortRecord.length = 512 := by decide +kernel
  have hbps := storedVolume_bytesPerSector shortRecord
  have hsize := storedVolume_mftRecordSize shortRecord
  have h := record_parsed_as_stored (storedVolume shortRecord) shortRecord 0 (List.replicate 512 0)
    (by rw [hbps]; decide) ⟨1, by rw [hbps, hsize]⟩ (by rw [hlen, hsize])
    (by rw [List.length_replicate, hsize])
    (by rw [hbps]; exact storedVolume_stored hlen)
  rw [hbps] at h
  exact (h.2 3 {} _ (by decide +kernel)).1

/-- The file's eight resident bytes are the last of the sector. -/
def lastRecord : List UInt8 :=
  rawRecord (rawFileName 0x41 ++ rawResident 0x10 [] (List.replicate 308 0) ++
    rawResident 0x80 [] (List.replicate 8 7))

theorem update_sequence_not_undone :
    ¬ ∀ (v : Volume) (r : List UInt8), 0 < v.bytesPerSector.toNat →
      v.bytesPerSector.toNat ∣ v.driveInfo.mftRecordSize.toNat → r.length = v.driveInfo.mftRecordSize.toNat →
      Protected v.bytesPerSector.toNat r → ∀ currentSector mftBuffer,
      mftBuffer.length = v.driveInfo.mftRecordSize.toNat →
      (∀ i < r.length / v.bytesPerSector.toNat, v.readSector (currentSector + UInt64.ofNat i) =
        some (slice (diskForm v.bytesPerSector.toNat r) (i * v.bytesPerSector.toNat) v.bytesPerSector.toNat)) →
      ∀ sectors complete buffer rounds st,
        getSectorsPerMftRecord v = .ok sectors →
        readMftRecord v sectors currentSector mftBuffer = .ok (complete, buffer) →
        processMftRecord v.driveInfo (ofBuffer buffer) rounds st =
          processMftRecord v.driveInfo (ofBuffer r) rounds st := by
  intro h
  have hlen : lastRecord.length = 512 := by decide +kernel
  have hdisk : (diskForm 512 lastRecord).length = 512 := by rw [length_diskForm, hlen]
  have hbps := storedVolume_bytesPerSector lastRecord
  have hsize := storedVolume_mftRecordSize lastRecord
  have hread : readMftRecord (storedVolume lastRecord) 1 0 (List.replicate 512 0) =
      .ok (true, diskForm 512 lastRecord) := by
    have hstored := storedVolume_stored hlen
    rw [hlen] at hstored
    refine readMftSectors_eq (by rw [hbps]; decide) ?_ 1 0 _ (by rw [hbps, hdisk]) ?_ ?_
    · rw [hbps, hdisk]
      exact hstored
    · rw [List.length_replicate, hdisk]
    · rw [Nat.zero_mul, List.take_zero, List.take_zero]
  have hsame := h (storedVolume lastRecord) lastRecord
  rw [hbps, hsize] at hsame
  have hparse := hsame (by decide) (Nat.dvd_refl 512) hlen ⟨by decide +kernel, by decide +kernel, by decide +kernel⟩
    0 (List.replicate 512 0) (List.length_replicate ..) (storedVolume_stored hlen) 1 true (diskForm 512 lastRecord) 4 {}
    (by decide +kernel) hread
  exact absurd hparse (by decide +kernel)

end DataRecovery.NTFS
