import DataRecovery.NTFS.RunList

/-!
# Reads inside the record

The engine checks the length of an attribute against the record, but none of the
offsets and lengths stored in it. No read leaves the record exactly when all those
of the attributes the walk reaches stay inside.
-/

namespace DataRecovery.NTFS

section
variable {buffer : List UInt8}

/-! ## Fields -/

theorem inBounds_readField : ∀ {count i pos acc : Nat} {Q : UInt64 → Prop}, i ≤ 8 → acc < 256 ^ i →
    (InBounds (readField (ofBuffer buffer) count i pos (UInt64.ofNat acc)) Q ↔
      (count = 0 ∨ pos + min count (9 - i) ≤ buffer.length) ∧
        (count + i ≤ 8 → Q (UInt64.ofNat (acc + 256 ^ i * leNat (slice buffer pos count)))))
  | 0, i, pos, acc, Q, hi, hacc => by
    unfold readField
    rw [inBounds_ok]
    simp [slice, leNat, hi]
  | count + 1, i, pos, acc, Q, hi, hacc => by
    unfold readField
    rw [inBounds_bind, inBounds_readByte, inBounds_ite]
    by_cases h8 : i = 8
    · subst h8
      constructor
      · rintro ⟨hpos, -⟩
        exact ⟨by omega, fun hle => absurd hle (by omega)⟩
      · rintro ⟨hin, -⟩
        exact ⟨by omega, fun _ => trivial, fun hshift => absurd (by omega) hshift⟩
    · have ih := @inBounds_readField count (i + 1) (pos + 1) (acc + 256 ^ i * (buffer.getD pos 0).toNat) Q
        (by omega) (acc_lt hacc _)
      rw [or_byte (by omega) hacc, ih]
      constructor
      · rintro ⟨hpos, -, hrest⟩
        obtain ⟨hin, hval⟩ := hrest (by omega)
        refine ⟨by omega, fun hle => ?_⟩
        have h := hval (by omega)
        rw [slice_succ hpos, leNat, Nat.mul_add, ← Nat.mul_assoc, ← Nat.pow_succ, ← Nat.add_assoc]
        exact h
      · rintro ⟨hin, hval⟩
        have hpos : pos < buffer.length := by omega
        refine ⟨hpos, fun h => absurd h (by omega), fun _ => ⟨by omega, fun hle => ?_⟩⟩
        have h := hval (by omega)
        rw [slice_succ hpos, leNat, Nat.mul_add, ← Nat.mul_assoc, ← Nat.pow_succ, ← Nat.add_assoc] at h
        exact h

def fieldAt (buffer : List UInt8) (pos count : Nat) : Nat := leNat (slice buffer pos count)

theorem fieldAt_lt (pos count : Nat) : fieldAt buffer pos count < 256 ^ count := by
  refine Nat.lt_of_lt_of_le (leNat_lt _) (Nat.pow_le_pow_right (by decide) ?_)
  rw [length_slice]
  exact Nat.min_le_left ..

-- a field wider than eight bytes is read up to its ninth, where the shift is undefined
theorem inBounds_field {count pos : Nat} {Q : UInt64 → Prop} :
    InBounds (readField (ofBuffer buffer) count 0 pos 0) Q ↔
      (count = 0 ∨ pos + min count 9 ≤ buffer.length) ∧
        (count ≤ 8 → Q (UInt64.ofNat (fieldAt buffer pos count))) := by
  have h := @inBounds_readField buffer count 0 pos 0 Q (by omega) (by decide)
  rw [Nat.pow_zero, Nat.one_mul, Nat.zero_add] at h
  exact h

theorem inBounds_readRunOffset {size pos : Nat} {Q : UInt64 → Prop} :
    InBounds (readRunOffset (ofBuffer buffer) size pos) Q ↔
      (size = 0 ∨ pos + min size 9 ≤ buffer.length) ∧
        (size ≤ 8 → ¬ (size = 8 ∧ 256 ^ size ≤ 2 * fieldAt buffer pos size) →
          Q (UInt64.ofInt (signed size (fieldAt buffer pos size)))) := by
  unfold readRunOffset
  by_cases h0 : size = 0
  · subst h0
    have hzero : UInt64.ofInt 0 = 0 := rfl
    simp [inBounds_ok, fieldAt, slice, leNat, signed, hzero]
  · rw [if_neg h0, inBounds_bind, inBounds_field]
    refine and_congr_right fun _ => imp_congr_right fun hle => ?_
    rw [extendField_eq h0 hle (fieldAt_lt pos size), inBounds_ite]
    simp [InBounds]

end

/-! ## Run lists -/

section
variable (drive : DriveInfo) (buffer : List UInt8)

def headerAt (pos : Nat) : UInt8 := buffer.getD pos 0

def runAt (pos : Nat) : Run where
  lengthSize := lengthSize (headerAt buffer pos)
  length := fieldAt buffer (pos + 1) (lengthSize (headerAt buffer pos))
  offsetSize := offsetSize (headerAt buffer pos)
  offset := signed (offsetSize (headerAt buffer pos))
    (fieldAt buffer (pos + 1 + lengthSize (headerAt buffer pos)) (offsetSize (headerAt buffer pos)))

def isLast (pos : Nat) : Bool := headerAt buffer pos = 0 || (runAt buffer pos).lengthSize = 0

/-- The bytes after the header that are read before the loop goes on or an operation is undefined. -/
def Run.fieldBytes (r : Run) : Nat := if 8 < r.lengthSize then 9 else r.lengthSize + min r.offsetSize 9

def isUndefined (r : Run) : Bool :=
  8 < r.lengthSize || 8 < r.offsetSize || r.isWideNegative || drive.bootSector.sectorsPerCluster = 0

/-- The run list from `pos` on stays inside the buffer up to where the loop ends (`true`) or
an operation is undefined (`false`). -/
inductive RunWalk : Nat → UInt64 → Bool → Prop where
  | last {pos : Nat} {lcn : UInt64} (hpos : pos < buffer.length) (hlast : isLast buffer pos = true) :
      RunWalk pos lcn true
  | undefined {pos : Nat} {lcn : UInt64} (hpos : pos < buffer.length) (hlast : isLast buffer pos = false)
      (hin : pos + 1 + (runAt buffer pos).fieldBytes ≤ buffer.length)
      (hundef : isUndefined drive (runAt buffer pos) = true) : RunWalk pos lcn false
  | leaves {pos : Nat} {lcn : UInt64} (hpos : pos < buffer.length) (hlast : isLast buffer pos = false)
      (hin : pos + 1 + (runAt buffer pos).fieldBytes ≤ buffer.length)
      (hundef : isUndefined drive (runAt buffer pos) = false)
      (hlcn : drive.lastCluster < lcn + UInt64.ofInt (runAt buffer pos).offset) : RunWalk pos lcn true
  | next {pos : Nat} {lcn : UInt64} {ends : Bool} (hpos : pos < buffer.length) (hlast : isLast buffer pos = false)
      (hin : pos + 1 + (runAt buffer pos).fieldBytes ≤ buffer.length)
      (hundef : isUndefined drive (runAt buffer pos) = false)
      (hlcn : ¬ drive.lastCluster < lcn + UInt64.ofInt (runAt buffer pos).offset)
      (hrest : RunWalk (pos + 1 + (runAt buffer pos).fieldBytes) (lcn + UInt64.ofInt (runAt buffer pos).offset) ends) :
      RunWalk pos lcn ends

end

section
variable {drive : DriveInfo} {buffer : List UInt8}

theorem isLast_eq_true_iff {pos : Nat} :
    isLast buffer pos = true ↔ headerAt buffer pos = 0 ∨ (runAt buffer pos).lengthSize = 0 := by
  rw [isLast, Bool.or_eq_true, decide_eq_true_eq, decide_eq_true_eq]

theorem isLast_eq_false_iff {pos : Nat} :
    isLast buffer pos = false ↔ headerAt buffer pos ≠ 0 ∧ (runAt buffer pos).lengthSize ≠ 0 := by
  rw [← Bool.not_eq_true, isLast_eq_true_iff, not_or]

theorem runWalk_iff {pos : Nat} {lcn : UInt64} {ends : Bool} :
    RunWalk drive buffer pos lcn ends ↔ pos < buffer.length ∧
      if isLast buffer pos then ends = true
      else pos + 1 + (runAt buffer pos).fieldBytes ≤ buffer.length ∧
        if isUndefined drive (runAt buffer pos) then ends = false
        else if drive.lastCluster < lcn + UInt64.ofInt (runAt buffer pos).offset then ends = true
        else RunWalk drive buffer (pos + 1 + (runAt buffer pos).fieldBytes)
          (lcn + UInt64.ofInt (runAt buffer pos).offset) ends := by
  constructor
  · intro h
    cases h with
    | last hpos hlast => simp [hpos, hlast]
    | undefined hpos hlast hin hundef => simp [hpos, hlast, hin, hundef]
    | leaves hpos hlast hin hundef hlcn => simp [hpos, hlast, hin, hundef, hlcn]
    | next hpos hlast hin hundef hlcn hrest =>
      rw [if_neg (by simp [hlast]), if_neg (by simp [hundef]), if_neg hlcn]
      exact ⟨hpos, hin, hrest⟩
  · rintro ⟨hpos, h⟩
    cases hlast : isLast buffer pos with
    | true =>
      rw [if_pos hlast] at h
      exact h ▸ .last hpos hlast
    | false =>
      rw [if_neg (by simp [hlast])] at h
      obtain ⟨hin, h⟩ := h
      cases hundef : isUndefined drive (runAt buffer pos) with
      | true =>
        rw [if_pos hundef] at h
        exact h ▸ .undefined hpos hlast hin hundef
      | false =>
        rw [if_neg (by simp [hundef])] at h
        by_cases hlcn : drive.lastCluster < lcn + UInt64.ofInt (runAt buffer pos).offset
        · rw [if_pos hlcn] at h
          exact h ▸ .leaves hpos hlast hin hundef hlcn
        · rw [if_neg hlcn] at h
          exact .next hpos hlast hin hundef hlcn h

theorem offset_runAt (pos : Nat) :
    signed (runAt buffer pos).offsetSize
      (fieldAt buffer (pos + 1 + (runAt buffer pos).lengthSize) (runAt buffer pos).offsetSize) =
      (runAt buffer pos).offset := rfl

theorem length_runAt (pos : Nat) :
    fieldAt buffer (pos + 1) (runAt buffer pos).lengthSize = (runAt buffer pos).length := rfl

theorem wideNegative_runAt {pos : Nat} :
    (runAt buffer pos).isWideNegative = true ↔
      (runAt buffer pos).offsetSize = 8 ∧ 256 ^ (runAt buffer pos).offsetSize ≤
        2 * fieldAt buffer (pos + 1 + (runAt buffer pos).lengthSize) (runAt buffer pos).offsetSize := by
  have hlt := @fieldAt_lt buffer (pos + 1 + (runAt buffer pos).lengthSize) (runAt buffer pos).offsetSize
  have hneg : (runAt buffer pos).offset < 0 ↔ 256 ^ (runAt buffer pos).offsetSize ≤
      2 * fieldAt buffer (pos + 1 + (runAt buffer pos).lengthSize) (runAt buffer pos).offsetSize := by
    have hcast : (256 : Int) ^ (runAt buffer pos).offsetSize = ((256 ^ (runAt buffer pos).offsetSize : Nat) : Int) := by
      norm_cast
    rw [← offset_runAt, signed, hcast]
    split <;> omega
  simp [Run.isWideNegative, hneg]

theorem inBounds_processRuns_succ {P : Prop} {rounds pos : Nat} {lcn : UInt64} {info : FileInfo}
    (hlast : isLast buffer pos = false) :
    InBounds (processRuns drive (ofBuffer buffer) (rounds + 1) pos lcn info) (fun _ => P) ↔
      pos < buffer.length ∧ pos + 1 + (runAt buffer pos).fieldBytes ≤ buffer.length ∧
        (isUndefined drive (runAt buffer pos) = false →
          if drive.lastCluster < lcn + UInt64.ofInt (runAt buffer pos).offset then P
          else InBounds (processRuns drive (ofBuffer buffer) rounds (pos + 1 + (runAt buffer pos).fieldBytes)
            (lcn + UInt64.ofInt (runAt buffer pos).offset)
            { info with
              cluster := lcn + UInt64.ofInt (runAt buffer pos).offset
              runLength := UInt64.ofNat (runAt buffer pos).length, nonResident := true }) (fun _ => P)) := by
  have hhead : buffer.getD pos 0 = headerAt buffer pos := rfl
  have hl : lengthSize (headerAt buffer pos) = (runAt buffer pos).lengthSize := rfl
  have ho : offsetSize (headerAt buffer pos) = (runAt buffer pos).offsetSize := rfl
  have hparts := isLast_eq_false_iff.mp hlast
  rw [processRuns, inBounds_bind, inBounds_readByte, hhead, if_neg hparts.1, hl, ho, if_neg hparts.2, inBounds_bind,
    inBounds_field]
  simp only [inBounds_bind, inBounds_readRunOffset, inBounds_ite, ← wideNegative_runAt, offset_runAt]
  refine and_congr_right fun _ => ?_
  unfold Run.fieldBytes isUndefined
  by_cases h8 : 8 < (runAt buffer pos).lengthSize
  · simp [h8, hparts]
    omega
  · by_cases ho8 : 8 < (runAt buffer pos).offsetSize
    · simp [h8, ho8, hparts]
      omega
    · cases hwide : (runAt buffer pos).isWideNegative with
      | true =>
        simp [h8, ho8, hparts]
        omega
      | false =>
        by_cases hspc : drive.bootSector.sectorsPerCluster = 0
        · simp [h8, ho8, hspc, hparts, InBounds]
          omega
        · have hle : (runAt buffer pos).lengthSize ≤ 8 ∧ (runAt buffer pos).offsetSize ≤ 8 := by omega
          have hlength : min (runAt buffer pos).lengthSize 9 = (runAt buffer pos).lengthSize := by omega
          have hoffset : min (runAt buffer pos).offsetSize 9 = (runAt buffer pos).offsetSize := by omega
          by_cases hlcn : drive.lastCluster < lcn + UInt64.ofInt (runAt buffer pos).offset
          · simp [h8, ho8, hspc, hparts, hlcn, hlength, hoffset, hle, InBounds]
            rw [← and_assoc]
            exact and_congr_left fun _ => by omega
          · simp [h8, ho8, hspc, hparts, hlcn, hlength, hoffset, hle, Nat.add_assoc, length_runAt]
            rw [← and_assoc]
            exact and_congr_left fun _ => by omega

theorem inBounds_processRuns_last {P : Prop} {rounds pos : Nat} {lcn : UInt64} {info : FileInfo}
    (hlast : isLast buffer pos = true) :
    InBounds (processRuns drive (ofBuffer buffer) (rounds + 1) pos lcn info) (fun _ => P) ↔
      pos < buffer.length ∧ P := by
  rw [processRuns, inBounds_bind, inBounds_readByte]
  have hparts := isLast_eq_true_iff.mp hlast
  refine and_congr_right fun _ => ?_
  change InBounds (if headerAt buffer pos = 0 then _ else if (runAt buffer pos).lengthSize = 0 then _ else _) _ ↔ _
  by_cases h0 : headerAt buffer pos = 0
  · rw [if_pos h0, inBounds_ok]
  · rw [if_neg h0, if_pos (hparts.resolve_left h0), inBounds_ok]

theorem inBounds_processRuns {P : Prop} : ∀ {rounds pos : Nat} {lcn : UInt64} {info : FileInfo}, 0 < rounds →
    buffer.length < pos + rounds →
    (InBounds (processRuns drive (ofBuffer buffer) rounds pos lcn info) (fun _ => P) ↔
      (∃ ends, RunWalk drive buffer pos lcn ends) ∧ (RunWalk drive buffer pos lcn true → P))
  | rounds + 1, pos, lcn, info, _, hrounds => by
    have hwalk : ∀ ends, RunWalk drive buffer pos lcn ends ↔ _ := fun ends => runWalk_iff
    simp only [hwalk]
    cases hlast : isLast buffer pos with
    | true =>
      rw [inBounds_processRuns_last hlast]
      by_cases hpos : pos < buffer.length <;> simp [hpos]
    | false =>
      rw [inBounds_processRuns_succ hlast]
      by_cases hin : pos < buffer.length ∧ pos + 1 + (runAt buffer pos).fieldBytes ≤ buffer.length
      · cases hundef : isUndefined drive (runAt buffer pos) with
        | true => simp [hin]
        | false =>
          by_cases hlcn : drive.lastCluster < lcn + UInt64.ofInt (runAt buffer pos).offset
          · simp [hin, hlcn]
          · have hbytes : 1 ≤ (runAt buffer pos).fieldBytes := by
              have hne := (isLast_eq_false_iff.mp hlast).2
              unfold Run.fieldBytes
              split <;> omega
            simp only [hin, hlcn, true_and, if_false, Bool.false_eq_true, forall_const]
            exact inBounds_processRuns (by omega) (by omega)
      · constructor
        · rintro ⟨h1, h2, -⟩
          exact absurd ⟨h1, h2⟩ hin
        · rintro ⟨⟨ends, h1, h2⟩, -⟩
          rw [if_neg (by simp)] at h2
          exact absurd ⟨h1, h2.1⟩ hin

theorem inBounds_readUnits {P : Prop} : ∀ {n i : Nat},
    InBounds (readUnits (ofBuffer buffer) n i) (fun _ => P) ↔ (n = 0 ∨ i + 2 * n ≤ buffer.length) ∧ P
  | 0, i => by
    unfold readUnits
    simp [inBounds_ok]
  | n + 1, i => by
    unfold readUnits
    simp only [inBounds_bind, inBounds_readU16, inBounds_pure]
    rw [inBounds_readUnits, ← and_assoc]
    exact and_congr_left fun _ => by omega

end

/-! ## Attributes -/

section
variable (drive : DriveInfo) (buffer : List UInt8)

def contentAt (attr : Nat) : Nat := attr + (le16 buffer (attr + 20)).toNat

def runListAt (attr : Nat) : Nat := attr + (le16 buffer (attr + 32)).toNat

def NameInside (attr : Nat) : Prop :=
  attr + 8 < buffer.length ∧
    (buffer.getD (attr + 8) 0 = 0 → attr + 22 ≤ buffer.length ∧ contentAt buffer attr + 64 < buffer.length ∧
      (buffer.getD (contentAt buffer attr + 64) 0 = 0 ∨
        contentAt buffer attr + 66 + 2 * (buffer.getD (contentAt buffer attr + 64) 0).toNat ≤ buffer.length))

def DataInside (attr : Nat) : Prop :=
  attr + 8 < buffer.length ∧
    (buffer.getD (attr + 8) 0 = 0 → attr + 22 ≤ buffer.length ∧
      (le32 buffer (attr + 16) = 0 ∨ contentAt buffer attr + (le32 buffer (attr + 16)).toNat ≤ buffer.length)) ∧
    (buffer.getD (attr + 8) 0 ≠ 0 → attr + 56 ≤ buffer.length ∧
      ∃ ends, RunWalk drive buffer (runListAt buffer attr) 0 ends)

def DataEnds (attr : Nat) : Prop :=
  buffer.getD (attr + 8) 0 ≠ 0 → RunWalk drive buffer (runListAt buffer attr) 0 true

def GoesOn (off : UInt32) : Prop :=
  le32 buffer off.toNat ≠ END_MARKER ∧ stopsAt drive off (le32 buffer (off.toNat + 4)) = false

structure AttributeInside (off : UInt32) : Prop where
  type : off.toNat + 4 ≤ buffer.length
  length : le32 buffer off.toNat ≠ END_MARKER → off.toNat + 8 ≤ buffer.length
  name : GoesOn drive buffer off → le32 buffer off.toNat = FILE_NAME → NameInside buffer off.toNat
  data : GoesOn drive buffer off → le32 buffer off.toNat = DATA → DataInside drive buffer off.toNat

inductive Reached (first : UInt32) : UInt32 → Prop where
  | first : Reached first first
  | next {off : UInt32} (h : Reached first off) (hoff : off < drive.mftRecordSize) (hgo : GoesOn drive buffer off)
      (hends : le32 buffer off.toNat = DATA → DataEnds drive buffer off.toNat) :
      Reached first (off + le32 buffer (off.toNat + 4))

/-- Every attribute the walk comes to lies inside the record with all that is read of it. -/
def Contained (first : UInt32) : Prop :=
  ∀ off, Reached drive buffer first off → off < drive.mftRecordSize → AttributeInside drive buffer off

end

section
variable {drive : DriveInfo} {buffer : List UInt8}

theorem inBounds_processFileNameAttribute {attr : Nat} {fileId : UInt16} {info : FileInfo} {P : Prop} :
    InBounds (processFileNameAttribute (ofBuffer buffer) attr fileId info) (fun _ => P) ↔
      NameInside buffer attr ∧ P := by
  unfold processFileNameAttribute NameInside contentAt
  simp only [inBounds_bind, inBounds_readByte, inBounds_ite, inBounds_readU16, inBounds_readUnits, inBounds_pure]
  generalize buffer.getD (attr + 8) 0 = nonResident
  by_cases h : nonResident = 0
  · simp only [h, true_imp_iff, not_true_eq_false, false_imp_iff, and_true, ← UInt8.toNat_inj, and_assoc]
    rfl
  · simp [h]

theorem inBounds_processDataAttribute (hlen : buffer.length = drive.mftRecordSize.toNat) {attr : Nat} {info : FileInfo}
    {P : Prop} :
    InBounds (processDataAttribute drive (ofBuffer buffer) attr info) (fun _ => P) ↔
      DataInside drive buffer attr ∧ (DataEnds drive buffer attr → P) := by
  have hruns : ∀ pos, buffer.length < pos + drive.runRounds := by
    intro pos
    unfold DriveInfo.runRounds
    omega
  unfold processDataAttribute DataInside DataEnds contentAt runListAt
  simp only [inBounds_bind, inBounds_readByte, inBounds_ite, inBounds_readU16, inBounds_readU32, inBounds_readU64,
    inBounds_readBytes, inBounds_pure]
  generalize buffer.getD (attr + 8) 0 = nonResident
  by_cases h : nonResident = 0
  · have hzero : UInt32.toNat 0 = 0 := rfl
    simp only [h, true_imp_iff, not_true_eq_false, ne_eq, false_imp_iff, and_true, ← UInt32.toNat_inj, ← and_assoc]
    exact and_congr_left fun _ => by omega
  · have hpos : 0 < drive.runRounds := Nat.succ_pos _
    simp only [h, true_imp_iff, not_false_eq_true, ne_eq, false_imp_iff, true_and]
    rw [inBounds_processRuns hpos (hruns _)]
    simp only [← and_assoc]
    exact and_congr_left fun _ => and_congr_left fun _ => by omega

theorem inBounds_visitAttribute (hlen : buffer.length = drive.mftRecordSize.toNat) {fileId : UInt16} {type : UInt32}
    {attr : Nat} {p : Progress} {P : Prop} :
    InBounds (visitAttribute drive (ofBuffer buffer) fileId type attr p) (fun _ => P) ↔
      (type = FILE_NAME → NameInside buffer attr) ∧ (type = DATA → DataInside drive buffer attr) ∧
        ((type = DATA → DataEnds drive buffer attr) → P) := by
  have hne : FILE_NAME ≠ DATA := by decide
  unfold visitAttribute
  by_cases hname : type = FILE_NAME
  · subst hname
    rw [if_pos rfl, inBounds_bind]
    simp only [inBounds_pure, inBounds_processFileNameAttribute]
    simp [hne]
  · by_cases hdata : type = DATA
    · subst hdata
      rw [if_neg hname, if_pos rfl, inBounds_bind]
      simp only [inBounds_pure, inBounds_processDataAttribute hlen]
      simp [hname]
    · simp [inBounds_pure, hname, hdata]

/-! ## The walk -/

theorem inBounds_processAttribute_succ {fileId : UInt16} {rounds : Nat} {off : UInt32} {p : Progress} :
    InBounds (processAttribute drive (ofBuffer buffer) fileId (rounds + 1) off p) (fun _ => True) ↔
      (off < drive.mftRecordSize → off.toNat + 4 ≤ buffer.length ∧
        (le32 buffer off.toNat ≠ END_MARKER → off.toNat + 8 ≤ buffer.length) ∧
        (GoesOn drive buffer off →
          InBounds (visitAttribute drive (ofBuffer buffer) fileId (le32 buffer off.toNat) off.toNat p) fun p' =>
            InBounds (processAttribute drive (ofBuffer buffer) fileId rounds (off + le32 buffer (off.toNat + 4)) p')
              fun _ => True)) := by
  rw [processAttribute]
  unfold GoesOn
  by_cases hoff : off < drive.mftRecordSize
  · rw [if_pos hoff]
    simp only [inBounds_bind, inBounds_readU32, inBounds_ite, inBounds_ok, hoff, true_imp_iff]
    by_cases hend : le32 buffer off.toNat = END_MARKER
    · simp [hend]
    · by_cases hstop : stopsAt drive off (le32 buffer (off.toNat + 4)) = true
      · simp [hend, hstop]
      · simp [hend, hstop]
  · rw [if_neg hoff]
    simp [hoff, inBounds_ok]

section
variable (hlen : buffer.length = drive.mftRecordSize.toNat)
include hlen

theorem inBounds_of_contained {first : UInt32} (h : Contained drive buffer first) (fileId : UInt16) :
    ∀ (rounds : Nat) (off : UInt32) (p : Progress), Reached drive buffer first off →
      InBounds (processAttribute drive (ofBuffer buffer) fileId rounds off p) fun _ => True
  | 0, off, p, _ => trivial
  | rounds + 1, off, p, hreach => by
    rw [inBounds_processAttribute_succ]
    intro hoff
    obtain ⟨htype, hlength, hname, hdata⟩ := h off hreach hoff
    refine ⟨htype, hlength, fun hgo => ?_⟩
    have hvisit : InBounds (visitAttribute drive (ofBuffer buffer) fileId (le32 buffer off.toNat) off.toNat p)
        fun _ => Reached drive buffer first (off + le32 buffer (off.toNat + 4)) :=
      (inBounds_visitAttribute hlen).mpr ⟨hname hgo, hdata hgo, fun hends => hreach.next hoff hgo hends⟩
    exact hvisit.mono fun p' hnext => inBounds_of_contained h fileId rounds _ p' hnext

theorem inBounds_reached {first : UInt32} {fileId : UInt16}
    (h : ∀ rounds, ∃ p, InBounds (processAttribute drive (ofBuffer buffer) fileId rounds first p) fun _ => True)
    {off : UInt32} (hreach : Reached drive buffer first off) :
    ∀ rounds, ∃ p, InBounds (processAttribute drive (ofBuffer buffer) fileId rounds off p) fun _ => True := by
  induction hreach with
  | first => exact h
  | next hreach hoff hgo hends ih =>
    intro rounds
    obtain ⟨p, hp⟩ := ih (rounds + 1)
    have hvisit := ((inBounds_processAttribute_succ.mp hp) hoff).2.2 hgo
    exact ((inBounds_visitAttribute hlen).mp (hvisit.mono fun p' hp' => ⟨p', hp'⟩)).2.2 hends

theorem contained_of_inBounds {first : UInt32} {fileId : UInt16}
    (h : ∀ rounds, ∃ p, InBounds (processAttribute drive (ofBuffer buffer) fileId rounds first p) fun _ => True) :
    Contained drive buffer first := by
  intro off hreach hoff
  obtain ⟨p, hp⟩ := inBounds_reached hlen h hreach 1
  obtain ⟨htype, hlength, hgo⟩ := inBounds_processAttribute_succ.mp hp hoff
  have hvisit : GoesOn drive buffer off → _ := fun g =>
    (inBounds_visitAttribute hlen (P := True)).mp ((hgo g).mono fun _ _ => trivial)
  exact ⟨htype, hlength, fun g => (hvisit g).1, fun g => (hvisit g).2.1⟩

/-- No byte outside the record is read if and only if it is not a deleted record, or all that
is read of the attributes the walk comes to lies inside. -/
theorem parsing_inside_iff (hsize : 48 ≤ drive.mftRecordSize.toNat) (st : ScanState) :
    (∀ rounds i, processMftRecord drive (ofBuffer buffer) rounds st ≠ .error (.outOfBounds i)) ↔
      (le32 buffer 0 = FILE_SIGNATURE → le16 buffer 22 &&& 1 = 0 →
        Contained drive buffer (le16 buffer 20).toUInt32) := by
  have hrecord : ∀ rounds, (∀ i, processMftRecord drive (ofBuffer buffer) rounds st ≠ .error (.outOfBounds i)) ↔
      (le32 buffer 0 = FILE_SIGNATURE → le16 buffer 22 &&& 1 = 0 →
        InBounds (processAttribute drive (ofBuffer buffer) st.fileId rounds (le16 buffer 20).toUInt32 {})
          fun _ => True) := by
    intro rounds
    rw [← inBounds_true_iff]
    unfold processMftRecord
    simp only [inBounds_bind, inBounds_readU32, inBounds_readU16, inBounds_ite, inBounds_ok, inBounds_pure]
    rw [hlen]
    simp [show 4 ≤ drive.mftRecordSize.toNat by omega, show 24 ≤ drive.mftRecordSize.toNat by omega,
      show 22 ≤ drive.mftRecordSize.toNat by omega]
  simp only [hrecord]
  constructor
  · intro h hsig hdel
    exact contained_of_inBounds hlen fun rounds => ⟨{}, h rounds hsig hdel⟩
  · intro h rounds hsig hdel
    exact inBounds_of_contained hlen (h hsig hdel) st.fileId rounds _ {} .first

end

end

/-- A name at 56, and at 148 a stream whose run list at 212 has one run, to cluster 5. -/
def namedRecord : List UInt8 := rawRecord (rawFileName 0x41 ++ rawNonResident [] 9 [0x11, 1, 5, 0])

theorem namedRecord_headers :
    namedRecord.length = 512 ∧ le32 namedRecord 56 = FILE_NAME ∧ le32 namedRecord 60 = 92 ∧
      le32 namedRecord 148 = DATA ∧ le32 namedRecord 152 = 68 ∧ le32 namedRecord 216 = END_MARKER := by
  decide +kernel

theorem namedRecord_runs : RunWalk smallDrive namedRecord 212 0 true :=
  .next (by decide +kernel) (by decide +kernel) (by decide +kernel) (by decide +kernel) (by decide +kernel)
    (.last (by decide +kernel) (by decide +kernel))

theorem namedRecord_contained : Contained smallDrive namedRecord 56 := by
  obtain ⟨hlen, hname, hlength, hdata, hlength', hend⟩ := namedRecord_headers
  have hstop : ¬ GoesOn smallDrive namedRecord 216 := fun h => h.1 hend
  have hreached : ∀ off, Reached smallDrive namedRecord 56 off → off = 56 ∨ off = 148 ∨ off = 216 := by
    intro off h
    induction h with
    | first => exact .inl rfl
    | next h hoff hgo hends ih =>
      rcases ih with rfl | rfl | rfl
      · exact .inr (.inl (congrArg (56 + ·) hlength))
      · exact .inr (.inr (congrArg (148 + ·) hlength'))
      · exact absurd hgo hstop
  intro off hreach hoff
  rcases hreached off hreach with rfl | rfl | rfl
  · refine ⟨by rw [hlen]; decide, fun _ => by rw [hlen]; decide, fun _ _ => ?_, fun _ h => ?_⟩
    · unfold NameInside
      decide +kernel
    · exact absurd (hname.symm.trans h) (by decide)
  · refine ⟨by rw [hlen]; decide, fun _ => by rw [hlen]; decide, fun _ h => ?_, fun _ _ => ⟨?_, fun h => ?_, fun _ => ?_⟩⟩
    · exact absurd (hdata.symm.trans h) (by decide)
    · rw [hlen]
      decide
    · exact absurd h (by decide +kernel)
    · have hruns : runListAt namedRecord 148 = 212 := by decide +kernel
      exact ⟨by rw [hlen]; decide, true, hruns ▸ namedRecord_runs⟩
  · exact ⟨by rw [hlen]; decide, fun h => absurd hend h, fun h => absurd h hstop, fun h => absurd h hstop⟩

theorem namedRecord_inside : namedRecord.length = 512 ∧ ∀ rounds i,
    processMftRecord smallDrive (ofBuffer namedRecord) rounds {} ≠ .error (.outOfBounds i) :=
  ⟨namedRecord_headers.1,
    (parsing_inside_iff namedRecord_headers.1 (by decide) {}).mpr fun _ _ => namedRecord_contained⟩

def outsideRecord : List UInt8 :=
  rawRecord (rawFileName 0x41 ++ rawAttribute 0x80 0 [] (leBytes 4 1 ++ leBytes 2 600 ++ [0, 0]) [7])

theorem read_outside :
    ¬ ∀ (drive : DriveInfo) (buffer : List UInt8), 48 ≤ drive.mftRecordSize.toNat →
      buffer.length = drive.mftRecordSize.toNat → ∀ rounds st i,
        processMftRecord drive (ofBuffer buffer) rounds st ≠ .error (.outOfBounds i) := by
  intro h
  exact h smallDrive outsideRecord (by decide) (by decide +kernel) 3 {} 748 (by decide +kernel)

end DataRecovery.NTFS
