import DataRecovery.NTFS.MftReads
import DataRecovery.NTFS.Streams

/-!
# The files that the MFT scan lists

The scan keeps one buffer for all records and one counter for the items. What a record
contributes depends on neither: it is the file that its own bytes describe, with the
counter as its number.
-/

namespace DataRecovery.NTFS

/-! ## One record -/

def FileInfo.numbered (info : FileInfo) (fileId : UInt16) : FileInfo := { info with fileId }

def Progress.erased (p : Progress) : Progress := { p with fileInfo := p.fileInfo.numbered 0 }

def recordFile (drive : DriveInfo) (b : ByteMap) (rounds : Nat) : Option FileInfo :=
  match processMftRecord drive b rounds { fileId := 0 } with
  | .ok st => st.recoveryList.head?
  | .error _ => none

theorem foldl_setRun_numbered (fileId : UInt16) : ∀ (runs : List (UInt64 × UInt64)) (info : FileInfo),
    runs.foldl FileInfo.setRun (info.numbered fileId) = (runs.foldl FileInfo.setRun info).numbered fileId
  | [], _ => rfl
  | run :: runs, info => foldl_setRun_numbered fileId runs (info.setRun run)

theorem store_numbered (c : Content) (info : FileInfo) (fileId : UInt16) :
    c.store (info.numbered fileId) = (c.store info).numbered fileId := by
  cases c with
  | resident contentLength data => rfl
  | nonResident realSize runs => exact foldl_setRun_numbered fileId runs { info with fileSize := realSize }

theorem store_erased (a : Attribute) (fileId : UInt16) (p : Progress) :
    (a.store fileId p).erased = a.store 0 p.erased := by
  cases a with
  | fileName name => cases name <;> rfl
  | data named c =>
    show (⟨(c.store p.fileInfo).numbered 0, p.hasFileName, true⟩ : Progress) =
      ⟨c.store (p.fileInfo.numbered 0), p.hasFileName, true⟩
    rw [store_numbered]
  | other => rfl

theorem store_fileId (c : Content) (info : FileInfo) : (c.store info).fileId = info.fileId := by
  have hself : info.numbered info.fileId = info := rfl
  have h := congrArg FileInfo.fileId (store_numbered c info info.fileId)
  rw [hself] at h
  exact h

/-- A name comes with the number of its record. -/
def Progress.Named (fileId : UInt16) (p : Progress) : Prop := p.fileInfo.fileName ≠ [] → p.fileInfo.fileId = fileId

theorem named_store (a : Attribute) {fileId : UInt16} {p : Progress} (h : p.Named fileId) :
    (a.store fileId p).Named fileId := by
  cases a with
  | fileName name =>
    cases name with
    | none => exact h
    | some name => exact fun _ => rfl
  | data named c =>
    show (c.store p.fileInfo).fileName ≠ [] → (c.store p.fileInfo).fileId = fileId
    rw [store_fileName, store_fileId]
    exact h
  | other => exact h

theorem finishRecord_erased {p : Progress} {st : ScanState} (hnamed : p.Named st.fileId) :
    finishRecord p st = match (finishRecord p.erased { fileId := 0 }).recoveryList.head? with
      | some info => addToRecoveryList (info.numbered st.fileId) st
      | none => st := by
  unfold finishRecord
  have hflags : (!p.erased.hasFileName && !p.erased.hasData) = (!p.hasFileName && !p.hasData) := rfl
  have hvalidate : validateFileInfo p.erased.fileInfo = validateFileInfo p.fileInfo := rfl
  rw [hflags, hvalidate]
  by_cases hempty : (!p.hasFileName && !p.hasData) = true
  · rw [if_pos hempty, if_pos hempty]
    rfl
  · rw [if_neg hempty, if_neg hempty]
    by_cases hvalid : validateFileInfo p.fileInfo = true
    · rw [if_pos hvalid, if_pos hvalid]
      have hid : p.fileInfo.fileId = st.fileId := hnamed ((validateFileInfo_iff _).mp hvalid).1
      show addToRecoveryList p.fileInfo st = addToRecoveryList (p.fileInfo.numbered st.fileId) st
      rw [← hid]
      rfl
    · rw [if_neg hvalid, if_neg hvalid]
      rfl

section
variable (drive : DriveInfo) (b : ByteMap)

theorem processAttribute_erased (fileId : UInt16) : ∀ (rounds : Nat) (off : UInt32) (p : Progress),
    (processAttribute drive b fileId rounds off p).map Progress.erased =
      processAttribute drive b 0 rounds off p.erased
  | 0, _, _ => rfl
  | rounds + 1, off, p => by
    unfold processAttribute
    by_cases hoff : off < drive.mftRecordSize
    · rw [if_pos hoff, if_pos hoff]
      cases readU32 b off.toNat with
      | error e => rfl
      | ok type =>
        rw [ok_bind, ok_bind]
        by_cases hmarker : type = END_MARKER
        · rw [if_pos hmarker, if_pos hmarker]
          rfl
        · rw [if_neg hmarker, if_neg hmarker]
          cases readU32 b (off.toNat + 4) with
          | error e => rfl
          | ok length =>
            rw [ok_bind, ok_bind]
            by_cases hstop : stopsAt drive off length = true
            · rw [if_pos hstop, if_pos hstop]
              rfl
            · rw [if_neg hstop, if_neg hstop, visitAttribute_eq, visitAttribute_eq]
              cases readAttribute drive b type off.toNat with
              | error e => rfl
              | ok a =>
                rw [ok_bind, ok_bind, pure_bind, pure_bind, processAttribute_erased fileId rounds, store_erased]
    · rw [if_neg hoff, if_neg hoff]
      rfl

theorem named_processAttribute {fileId : UInt16} : ∀ {rounds : Nat} {off : UInt32} {p p' : Progress},
    processAttribute drive b fileId rounds off p = .ok p' → p.Named fileId → p'.Named fileId
  | rounds + 1, off, p, p', h, hp => by
    unfold processAttribute at h
    by_cases hoff : off < drive.mftRecordSize
    · rw [if_pos hoff] at h
      obtain ⟨type, -, h⟩ := Except.bind_ok h
      by_cases hmarker : type = END_MARKER
      · rw [if_pos hmarker] at h
        cases h
        exact hp
      · rw [if_neg hmarker] at h
        obtain ⟨length, -, h⟩ := Except.bind_ok h
        by_cases hstop : stopsAt drive off length = true
        · rw [if_pos hstop] at h
          cases h
          exact hp
        · rw [if_neg hstop, visitAttribute_eq] at h
          obtain ⟨p'', hvisit, h⟩ := Except.bind_ok h
          obtain ⟨a, -, ha⟩ := Except.bind_ok hvisit
          cases ha
          exact named_processAttribute h (named_store a hp)
    · rw [if_neg hoff] at h
      cases h
      exact hp

theorem processMftRecord_ok {rounds : Nat} {st st' : ScanState} (h : processMftRecord drive b rounds st = .ok st') :
    st' = match recordFile drive b rounds with
      | some info => addToRecoveryList (info.numbered st.fileId) st
      | none => st := by
  unfold recordFile
  unfold processMftRecord at h ⊢
  obtain ⟨signature, hsignature, h⟩ := Except.bind_ok h
  rw [hsignature, ok_bind]
  by_cases hfile : signature ≠ FILE_SIGNATURE
  · rw [if_pos hfile] at h ⊢
    cases h
    rfl
  · rw [if_neg hfile] at h ⊢
    obtain ⟨flags, hflags, h⟩ := Except.bind_ok h
    rw [hflags, ok_bind]
    by_cases hused : flags &&& 1 ≠ 0
    · rw [if_pos hused] at h ⊢
      cases h
      rfl
    · rw [if_neg hused] at h ⊢
      obtain ⟨first, hfirst, h⟩ := Except.bind_ok h
      obtain ⟨p, hp, h⟩ := Except.bind_ok h
      have herased := processAttribute_erased drive b st.fileId rounds first.toUInt32 {}
      rw [hp] at herased
      have hp0 : processAttribute drive b 0 rounds first.toUInt32 {} = .ok p.erased := herased.symm
      have hnamed : p.Named st.fileId := named_processAttribute drive b hp fun hne => absurd rfl hne
      cases h
      rw [hfirst, ok_bind, hp0, ok_bind]
      exact finishRecord_erased hnamed

theorem processMftRecord_total {rounds : Nat} {st₀ : ScanState}
    (h : processMftRecord drive b rounds { fileId := 0 } = .ok st₀) (st : ScanState) :
    ∃ st', processMftRecord drive b rounds st = .ok st' := by
  unfold processMftRecord at h ⊢
  obtain ⟨signature, hsignature, h⟩ := Except.bind_ok h
  rw [hsignature, ok_bind]
  by_cases hfile : signature ≠ FILE_SIGNATURE
  · rw [if_pos hfile]
    exact ⟨st, rfl⟩
  · rw [if_neg hfile] at h ⊢
    obtain ⟨flags, hflags, h⟩ := Except.bind_ok h
    rw [hflags, ok_bind]
    by_cases hused : flags &&& 1 ≠ 0
    · rw [if_pos hused]
      exact ⟨st, rfl⟩
    · rw [if_neg hused] at h ⊢
      obtain ⟨first, hfirst, h⟩ := Except.bind_ok h
      obtain ⟨p₀, hp₀, -⟩ := Except.bind_ok h
      have herased := processAttribute_erased drive b st.fileId rounds first.toUInt32 {}
      have hempty : ({} : Progress).erased = {} := rfl
      rw [hempty, hp₀] at herased
      rw [hfirst, ok_bind]
      cases hp : processAttribute drive b st.fileId rounds first.toUInt32 {} with
      | error e => rw [hp] at herased; cases herased
      | ok p => exact ⟨finishRecord p st, rfl⟩

end

/-! ## All records -/

section
variable {v : Volume} {currentSector : UInt64}

theorem length_readMftSectors {complete : Bool} : ∀ {count i : Nat} {buffer record : List UInt8},
    readMftSectors v currentSector count i buffer = .ok (complete, record) → record.length = buffer.length
  | 0, i, buffer, record, h => by
    cases h
    rfl
  | count + 1, i, buffer, record, h => by
    unfold readMftSectors at h
    dsimp only at h
    cases hread : v.readSector (currentSector + UInt64.ofNat i) with
    | none => rw [hread] at h; cases h; rfl
    | some bytes =>
      rw [hread] at h
      dsimp only at h
      split at h
      · cases h
      · rename_i hroom
        rw [length_readMftSectors h, length_writeAt (Nat.not_lt.mp hroom)]

/-- A record that is read entirely does not depend on what the buffer held. -/
theorem readMftRecord_of_complete {sectors : UInt32} {buffer buffer' record : List UInt8}
    (hsectors : getSectorsPerMftRecord v = .ok sectors) (hbuffer : buffer.length = v.driveInfo.mftRecordSize.toNat)
    (hbuffer' : buffer'.length = v.driveInfo.mftRecordSize.toNat)
    (h : readMftRecord v sectors currentSector buffer = .ok (true, record)) :
    readMftRecord v sectors currentSector buffer' = .ok (true, record) := by
  obtain ⟨hlen, hroom, hstored⟩ := readMftRecord_ok h
  have hpos : 0 < v.bytesPerSector.toNat := by
    apply Nat.pos_of_ne_zero
    intro h0
    rw [getSectorsPerMftRecord_divides.mpr (UInt16.toNat_inj.mp h0)] at hsectors
    cases hsectors
  have htotal : sectors.toNat * v.bytesPerSector.toNat = record.length := by
    rw [hlen]
    refine Nat.le_antisymm hroom ?_
    rw [hbuffer]
    exact sectors_mul_ge hsectors
  refine readMftSectors_eq hpos (fun i hi => hstored i ?_) _ 0 buffer' ?_ ?_ ?_
  · rw [← htotal, Nat.mul_div_cancel _ hpos] at hi
    exact hi
  · rw [Nat.zero_add]
    exact htotal
  · rw [hbuffer', hlen, hbuffer]
  · rw [Nat.zero_mul, List.take_zero, List.take_zero]

end

section
variable (v : Volume) (rounds : Nat)

def fileAt (sectorsPerMftRecord : UInt32) (recordIndex : Nat) : Option FileInfo :=
  match readMftRecord v sectorsPerMftRecord
    (v.mftSector + UInt64.ofNat recordIndex * sectorsPerMftRecord.toUInt64)
    (List.replicate v.driveInfo.mftRecordSize.toNat 0) with
  | .ok (true, record) => recordFile v.driveInfo (ofBuffer record) rounds
  | _ => none

def filesOnMft : List FileInfo :=
  if v.isValidSector v.mftSector then
    match getSectorsPerMftRecord v with
    | .ok sectorsPerMftRecord =>
      (List.range v.device.getTotalMftRecords.toNat).filterMap (fileAt v rounds sectorsPerMftRecord)
    | .error _ => []
  else []

def record (info : FileInfo) (st : ScanState) : ScanState := addToRecoveryList (info.numbered st.fileId) st

variable {v rounds}

theorem fileAt_of_incomplete {sectors : UInt32} {index : Nat} {buffer left : List UInt8}
    (hsectors : getSectorsPerMftRecord v = .ok sectors) (hbuffer : buffer.length = v.driveInfo.mftRecordSize.toNat)
    (h : readMftRecord v sectors (v.mftSector + UInt64.ofNat index * sectors.toUInt64) buffer = .ok (false, left)) :
    fileAt v rounds sectors index = none := by
  unfold fileAt
  split
  · rename_i record hread
    rw [readMftRecord_of_complete hsectors List.length_replicate hbuffer hread] at h
    cases h
  · rfl

theorem scanRecords_ok {sectors : UInt32} (hsectors : getSectorsPerMftRecord v = .ok sectors) :
    ∀ {count index : Nat} {mftBuffer : List UInt8} {st st' : ScanState},
      mftBuffer.length = v.driveInfo.mftRecordSize.toNat →
      scanRecords v rounds v.mftSector sectors count (UInt64.ofNat index) mftBuffer st = .ok st' →
        st' = ((List.range' index count).filterMap (fileAt v rounds sectors)).foldl (fun st info => record info st) st
  | 0, index, mftBuffer, st, st', hlen, h => by
    cases h
    rfl
  | count + 1, index, mftBuffer, st, st', hlen, h => by
    have hnext : UInt64.ofNat index + 1 = UInt64.ofNat (index + 1) := (UInt64.ofNat_add index 1).symm
    unfold scanRecords at h
    obtain ⟨⟨complete, buffer⟩, hread, h⟩ := Except.bind_ok h
    have hbuffer : buffer.length = v.driveInfo.mftRecordSize.toNat := (length_readMftSectors hread).trans hlen
    rw [List.range'_succ, List.filterMap_cons]
    cases complete with
    | false =>
      rw [fileAt_of_incomplete hsectors hlen hread]
      rw [hnext] at h
      exact scanRecords_ok hsectors hbuffer h
    | true =>
      have hfile : fileAt v rounds sectors index = recordFile v.driveInfo (ofBuffer buffer) rounds := by
        unfold fileAt
        rw [readMftRecord_of_complete hsectors hlen List.length_replicate hread]
      obtain ⟨st'', hrecord, h⟩ := Except.bind_ok h
      rw [hnext] at h
      have hst := processMftRecord_ok v.driveInfo (ofBuffer buffer) hrecord
      rw [hfile]
      cases hfound : recordFile v.driveInfo (ofBuffer buffer) rounds with
      | none =>
        rw [hfound] at hst
        cases hst
        exact scanRecords_ok hsectors hbuffer h
      | some info =>
        rw [hfound] at hst
        cases hst
        exact scanRecords_ok hsectors hbuffer h

theorem scanMFT_ok {st st' : ScanState} (h : scanMFT v rounds st = .ok st') :
    st' = (filesOnMft v rounds).foldl (fun st info => record info st) st := by
  unfold scanMFT at h
  unfold filesOnMft
  dsimp only at h
  by_cases hvalid : v.isValidSector v.mftSector = true
  · rw [if_pos hvalid]
    rw [if_neg (by rw [Bool.not_eq_true', Bool.not_eq_false]; exact hvalid)] at h
    obtain ⟨sectors, hsectors, h⟩ := Except.bind_ok h
    rw [hsectors, List.range_eq_range']
    exact scanRecords_ok hsectors List.length_replicate h
  · rw [if_neg hvalid]
    rw [if_pos (by rw [Bool.not_eq_true']; exact Bool.eq_false_iff.mpr hvalid)] at h
    cases h
    rfl

theorem scanRecords_total {sectors : UInt32} {size limit : Nat}
    (hread : ∀ index < limit, ∀ mftBuffer : List UInt8, mftBuffer.length = size →
      ∃ record, readMftRecord v sectors (v.mftSector + UInt64.ofNat index * sectors.toUInt64) mftBuffer =
        .ok (true, record) ∧ ∀ st, ∃ st', processMftRecord v.driveInfo (ofBuffer record) rounds st = .ok st') :
    ∀ {count index : Nat} {mftBuffer : List UInt8} (st : ScanState), index + count ≤ limit →
      mftBuffer.length = size →
        ∃ st', scanRecords v rounds v.mftSector sectors count (UInt64.ofNat index) mftBuffer st = .ok st'
  | 0, index, mftBuffer, st, hle, hlen => ⟨st, rfl⟩
  | count + 1, index, mftBuffer, st, hle, hlen => by
    obtain ⟨record, hrecord, hparse⟩ := hread index (by omega) mftBuffer hlen
    obtain ⟨st', hst'⟩ := hparse st
    have hnext : UInt64.ofNat index + 1 = UInt64.ofNat (index + 1) := (UInt64.ofNat_add index 1).symm
    unfold scanRecords
    dsimp only
    rw [hrecord, ok_bind]
    dsimp only
    rw [if_pos rfl, hst', ok_bind, hnext]
    exact scanRecords_total hread st' (by omega) ((length_readMftSectors hrecord).trans hlen)

end

end DataRecovery.NTFS
