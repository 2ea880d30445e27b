import DataRecovery.NTFS.RunList

/-!
# The attributes of a record

`processAttribute` visits the attributes of a record one after the other, and each
stores what it decodes in the same file info. Decoding does not depend on what is
stored, so a record is a list of decoded attributes and the file info a fold over
it, in which for each field the last attribute that writes it wins.
-/

namespace DataRecovery.NTFS

/-! ## Decoding -/

inductive Content where
  | resident (contentLength : UInt64) (data : List UInt8)
  | nonResident (realSize : UInt64) (runs : List (UInt64 × UInt64))
  deriving DecidableEq

inductive Attribute where
  | fileName (name : Option WString)
  | data (named : Bool) (content : Content)
  | other
  deriving DecidableEq

def Content.store : Content → FileInfo → FileInfo
  | .resident contentLength data, info => { info with fileSize := contentLength, nonResident := false, data }
  | .nonResident realSize runs, info => runs.foldl FileInfo.setRun { info with fileSize := realSize }

def Attribute.store (fileId : UInt16) : Attribute → Progress → Progress
  | .fileName (some name), p => { p with fileInfo := { p.fileInfo with fileName := name, fileId }, hasFileName := true }
  | .fileName none, p => { p with hasFileName := true }
  | .data _ content, p => { p with fileInfo := content.store p.fileInfo, hasData := true }
  | .other, p => p

def storeAll (fileId : UInt16) (attributes : List Attribute) : Progress :=
  attributes.foldl (fun p a => a.store fileId p) {}

section
variable (drive : DriveInfo) (b : ByteMap)

/-- `none` for a `$FILE_NAME` that is not resident. -/
def readName (attr : Nat) : Except Fault (Option WString) := do
  let nonResident ← readByte b (attr + 8)
  if nonResident = 0 then do
    let contentOffset ← readU16 b (attr + 20)
    let nameLength ← readByte b (attr + contentOffset.toNat + 64)
    let wfilename ← readUnits b nameLength.toNat (attr + contentOffset.toNat + 66)
    return some wfilename
  else return none

def readContent (attr : Nat) : Except Fault Content := do
  let nonResident ← readByte b (attr + 8)
  if nonResident = 0 then do
    let contentOffset ← readU16 b (attr + 20)
    let contentLength ← readU32 b (attr + 16)
    let data ← readBytes b contentLength.toNat (attr + contentOffset.toNat)
    return .resident contentLength.toUInt64 data
  else do
    let realSize ← readU64 b (attr + 48)
    let dataRunOffset ← readU16 b (attr + 32)
    let runs ← decodeRuns drive b drive.runRounds (attr + dataRunOffset.toNat) 0
    return .nonResident realSize runs

/-- Whether `nameLength` is other than zero. The engine never reads it. -/
def isNamed (attr : Nat) : Bool := b (attr + 9) != some 0

def readAttribute (type : UInt32) (attr : Nat) : Except Fault Attribute :=
  if type = FILE_NAME then do
    let name ← readName b attr
    return .fileName name
  else if type = DATA then do
    let content ← readContent drive b attr
    return .data (isNamed b attr) content
  else return .other

theorem processFileNameAttribute_eq (attr : Nat) (fileId : UInt16) (info : FileInfo) :
    processFileNameAttribute b attr fileId info = do
      let name ← readName b attr
      return match name with
        | some name => { info with fileName := name, fileId }
        | none => info := by
  unfold processFileNameAttribute readName
  cases readByte b (attr + 8) with
  | error e => rfl
  | ok nonResident =>
    rw [ok_bind, ok_bind]
    by_cases h : nonResident = 0
    · rw [if_pos h, if_pos h]
      simp only [bind_assoc, pure_bind]
    · rw [if_neg h, if_neg h]
      rfl

theorem processDataAttribute_eq (attr : Nat) (info : FileInfo) :
    processDataAttribute drive b attr info = do
      let content ← readContent drive b attr
      return content.store info := by
  unfold processDataAttribute readContent
  cases readByte b (attr + 8) with
  | error e => rfl
  | ok nonResident =>
    rw [ok_bind, ok_bind]
    by_cases h : nonResident = 0
    · rw [if_pos h, if_pos h]
      simp only [bind_assoc, pure_bind]
      rfl
    · rw [if_neg h, if_neg h]
      simp only [bind_assoc, pure_bind, processRuns_eq]
      rfl

theorem visitAttribute_eq (fileId : UInt16) (type : UInt32) (attr : Nat) (p : Progress) :
    visitAttribute drive b fileId type attr p = do
      let a ← readAttribute drive b type attr
      return a.store fileId p := by
  unfold visitAttribute readAttribute
  by_cases hname : type = FILE_NAME
  · rw [if_pos hname, if_pos hname, processFileNameAttribute_eq]
    simp only [bind_assoc, pure_bind]
    congr 1
    funext name
    cases name with
    | none => rfl
    | some name => rfl
  · rw [if_neg hname, if_neg hname]
    by_cases hdata : type = DATA
    · rw [if_pos hdata, if_pos hdata, processDataAttribute_eq]
      simp only [bind_assoc, pure_bind]
      rfl
    · rw [if_neg hdata, if_neg hdata]
      rfl

/-! ## The walk -/

/-- The walk from an offset visits these attributes, given by type and place, and ends. -/
inductive Visits : UInt32 → List (UInt32 × Nat) → Prop where
  | past {off : UInt32} (hoff : ¬ off < drive.mftRecordSize) : Visits off []
  | marker {off : UInt32} (hoff : off < drive.mftRecordSize) (htype : readU32 b off.toNat = .ok END_MARKER) :
      Visits off []
  | stop {off type length : UInt32} (hoff : off < drive.mftRecordSize) (htype : readU32 b off.toNat = .ok type)
      (hne : type ≠ END_MARKER) (hlength : readU32 b (off.toNat + 4) = .ok length)
      (hstop : stopsAt drive off length = true) : Visits off []
  | next {off type length : UInt32} {attrs : List (UInt32 × Nat)} (hoff : off < drive.mftRecordSize)
      (htype : readU32 b off.toNat = .ok type) (hne : type ≠ END_MARKER)
      (hlength : readU32 b (off.toNat + 4) = .ok length) (hstop : stopsAt drive off length = false)
      (hrest : Visits (off + length) attrs) : Visits off ((type, off.toNat) :: attrs)

def visited : Nat → UInt32 → Except Fault (List (UInt32 × Nat))
  | 0, _ => .error .endless
  | rounds + 1, off =>
    if off < drive.mftRecordSize then do
      let type ← readU32 b off.toNat
      if type = END_MARKER then .ok []
      else do
        let length ← readU32 b (off.toNat + 4)
        if stopsAt drive off length then .ok []
        else do
          let attrs ← visited rounds (off + length)
          return (type, off.toNat) :: attrs
    else .ok []

structure DeletedRecord (attrs : List (UInt32 × Nat)) : Prop where
  signature : readU32 b 0 = .ok FILE_SIGNATURE
  deleted : ∃ flags, readU16 b 22 = .ok flags ∧ flags &&& 1 = 0
  walk : ∃ first, readU16 b 20 = .ok first ∧ Visits drive b first.toUInt32 attrs

def readAttributes (attrs : List (UInt32 × Nat)) : Except Fault (List Attribute) :=
  attrs.mapM fun a => readAttribute drive b a.1 a.2

end

section
variable {drive : DriveInfo} {b : ByteMap}

theorem visits_of_visited : ∀ (rounds : Nat) (off : UInt32) (attrs : List (UInt32 × Nat)),
    visited drive b rounds off = .ok attrs → Visits drive b off attrs
  | rounds + 1, off, attrs, h => by
    unfold visited at h
    by_cases hoff : off < drive.mftRecordSize
    · rw [if_pos hoff] at h
      obtain ⟨type, htype, h⟩ := Except.bind_ok h
      by_cases hne : type = END_MARKER
      · rw [if_pos hne] at h
        cases h
        exact .marker hoff (hne ▸ htype)
      · rw [if_neg hne] at h
        obtain ⟨length, hlength, h⟩ := Except.bind_ok h
        by_cases hstop : stopsAt drive off length = true
        · rw [if_pos hstop] at h
          cases h
          exact .stop hoff htype hne hlength hstop
        · rw [if_neg hstop] at h
          obtain ⟨rest, hrest, h⟩ := Except.bind_ok h
          cases h
          exact .next hoff htype hne hlength (Bool.eq_false_iff.mpr hstop)
            (visits_of_visited rounds (off + length) rest hrest)
    · rw [if_neg hoff] at h
      cases h
      exact .past hoff

theorem processAttribute_eq (fileId : UInt16) {off : UInt32} {attrs : List (UInt32 × Nat)}
    (h : Visits drive b off attrs) : ∀ (rounds : Nat) (p : Progress), attrs.length < rounds →
      processAttribute drive b fileId rounds off p = do
        let attributes ← readAttributes drive b attrs
        return attributes.foldl (fun p a => a.store fileId p) p := by
  induction h with
  | past hoff =>
    intro rounds p hr
    cases rounds with
    | zero => cases hr
    | succ rounds =>
      unfold processAttribute
      rw [if_neg hoff]
      rfl
  | marker hoff htype =>
    intro rounds p hr
    cases rounds with
    | zero => cases hr
    | succ rounds =>
      unfold processAttribute
      rw [if_pos hoff, htype]
      rfl
  | stop hoff htype hne hlength hstop =>
    intro rounds p hr
    cases rounds with
    | zero => cases hr
    | succ rounds =>
      unfold processAttribute
      rw [if_pos hoff, htype, ok_bind, if_neg hne, hlength, ok_bind, if_pos hstop]
      rfl
  | next hoff htype hne hlength hstop hrest ih =>
    intro rounds p hr
    cases rounds with
    | zero => cases hr
    | succ rounds =>
      unfold processAttribute
      unfold readAttributes
      rw [if_pos hoff, htype, ok_bind, if_neg hne, hlength, ok_bind, hstop, if_neg (by simp), visitAttribute_eq,
        List.mapM_cons]
      simp only [bind_assoc, pure_bind]
      congr 1
      funext a
      rw [ih rounds (a.store fileId p) (Nat.lt_of_succ_lt_succ hr)]
      rfl

theorem processMftRecord_eq {attrs : List (UInt32 × Nat)} (h : DeletedRecord drive b attrs) {rounds : Nat}
    (hr : attrs.length < rounds) (st : ScanState) :
    processMftRecord drive b rounds st = do
      let attributes ← readAttributes drive b attrs
      return finishRecord (storeAll st.fileId attributes) st := by
  obtain ⟨hsig, ⟨flags, hflags, hdel⟩, ⟨first, hfirst, hwalk⟩⟩ := h
  unfold processMftRecord
  rw [hsig, ok_bind, if_neg (by simp), hflags, ok_bind, if_neg (by simp [hdel]), hfirst, ok_bind,
    processAttribute_eq st.fileId hwalk rounds {} hr]
  simp only [bind_assoc, pure_bind]
  rfl

end

end DataRecovery.NTFS
