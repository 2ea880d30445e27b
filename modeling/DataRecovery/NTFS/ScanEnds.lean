import DataRecovery.Clusters
import DataRecovery.NTFS.Bounds
import DataRecovery.NTFS.ListedRecords
import DataRecovery.Traversal

/-!
# The end of the MFT scan

The scan takes whatever the records hold at face value: it ends, with every operation on the
way defined, exactly when a record fills the buffer, and no deleted record that can be read
sends it outside the buffer, into an undefined operation or back to an attribute it has
visited.
-/

namespace DataRecovery.NTFS

open Traversal Relation

/-! ## One record -/

section
variable (drive : DriveInfo) (buffer : List UInt8)

structure AttributeLink (off next : UInt32) : Prop where
  inside : off < drive.mftRecordSize
  goesOn : GoesOn drive buffer off
  ends : le32 buffer off.toNat = DATA → DataEnds drive buffer off.toNat
  next : off + le32 buffer (off.toNat + 4) = next

/-- All that is read at `off` lies inside the record, and no operation there is undefined. -/
structure AttributeSound (off : UInt32) : Prop extends AttributeInside drive buffer off where
  ends : GoesOn drive buffer off → le32 buffer off.toNat = DATA → DataEnds drive buffer off.toNat

def SoundFrom (first : UInt32) : Prop :=
  ∀ off, ReflTransGen (AttributeLink drive buffer) first off → off < drive.mftRecordSize → AttributeSound drive buffer off

open Classical in
/-- The walk as a traversal: where it goes on, it calls for the next attribute. -/
noncomputable def walkActions (off : UInt32) : List (Action UInt32 Unit) :=
  if AttributeLink drive buffer off (off + le32 buffer (off.toNat + 4)) then
    [.call (off + le32 buffer (off.toNat + 4))]
  else []

/-- What the record must satisfy if it is a deleted one, with `P` for its walk. -/
structure RecordFits (P : UInt32 → Prop) : Prop where
  signature : 4 ≤ buffer.length
  header : le32 buffer 0 = FILE_SIGNATURE → 24 ≤ buffer.length
  walk : le32 buffer 0 = FILE_SIGNATURE → le16 buffer 22 &&& 1 = 0 → P (le16 buffer 20).toUInt32

def RecordSound : Prop :=
  RecordFits buffer fun first => SoundFrom drive buffer first ∧
    ∀ off, ReflTransGen (AttributeLink drive buffer) first off → ¬ TransGen (AttributeLink drive buffer) off off

def RecordEnds (rounds : Nat) : Prop :=
  RecordFits buffer fun first => SoundFrom drive buffer first ∧ Shallow (walkActions drive buffer) rounds first

end

section
variable {drive : DriveInfo} {buffer : List UInt8}

theorem calls_walkActions : Calls (walkActions drive buffer) = AttributeLink drive buffer := by
  funext off next
  apply propext
  unfold Calls walkActions
  constructor
  · intro h
    split at h
    · rename_i hlink
      cases List.mem_singleton.mp h
      exact hlink
    · cases h
  · intro hlink
    obtain rfl := hlink.next
    rw [if_pos hlink]
    exact List.mem_singleton_self _

theorem RecordEnds.mono {rounds rounds' : Nat} (hle : rounds ≤ rounds') (h : RecordEnds drive buffer rounds) :
    RecordEnds drive buffer rounds' :=
  ⟨h.signature, h.header, fun hsig hdel => ⟨(h.walk hsig hdel).1, (h.walk hsig hdel).2.mono hle⟩⟩

theorem recordSound_iff : RecordSound drive buffer ↔ ∃ rounds, RecordEnds drive buffer rounds := by
  have : Finite UInt32 := finite_uint32
  have hacyclic := @exists_shallow_iff_acyclic _ _ (walkActions drive buffer) _ (le16 buffer 20).toUInt32
  rw [calls_walkActions] at hacyclic
  constructor
  · intro h
    by_cases hdel : le32 buffer 0 = FILE_SIGNATURE ∧ le16 buffer 22 &&& 1 = 0
    · obtain ⟨hsound, hcycles⟩ := h.walk hdel.1 hdel.2
      obtain ⟨rounds, hrounds⟩ := hacyclic.mpr hcycles
      exact ⟨rounds, h.signature, h.header, fun _ _ => ⟨hsound, hrounds⟩⟩
    · exact ⟨0, h.signature, h.header, fun hsig hfree => absurd ⟨hsig, hfree⟩ hdel⟩
  · rintro ⟨rounds, h⟩
    refine ⟨h.signature, h.header, fun hsig hfree => ?_⟩
    obtain ⟨hsound, hrounds⟩ := h.walk hsig hfree
    exact ⟨hsound, hacyclic.mp ⟨rounds, hrounds⟩⟩

theorem succeeds_processAttribute_succ {fileId : UInt16} {rounds : Nat} {off : UInt32} {p : Progress} :
    Succeeds (processAttribute drive (ofBuffer buffer) fileId (rounds + 1) off p) (fun _ => True) ↔
      (off < drive.mftRecordSize → off.toNat + 4 ≤ buffer.length ∧
        (le32 buffer off.toNat ≠ END_MARKER → off.toNat + 8 ≤ buffer.length) ∧
        (GoesOn drive buffer off →
          Succeeds (visitAttribute drive (ofBuffer buffer) fileId (le32 buffer off.toNat) off.toNat p) fun p' =>
            Succeeds (processAttribute drive (ofBuffer buffer) fileId rounds (off + le32 buffer (off.toNat + 4)) p')
              fun _ => True)) := by
  rw [processAttribute]
  unfold GoesOn
  by_cases hoff : off < drive.mftRecordSize
  · rw [if_pos hoff]
    simp only [succeeds_bind, succeeds_readU32, succeeds_ite, succeeds_ok, hoff, true_imp_iff]
    by_cases hend : le32 buffer off.toNat = END_MARKER
    · simp [hend]
    · by_cases hstop : stopsAt drive off (le32 buffer (off.toNat + 4)) = true
      · simp [hend, hstop]
      · simp [hend, hstop]
  · rw [if_neg hoff]
    simp [hoff, succeeds_ok]

section
variable (hlen : buffer.length = drive.mftRecordSize.toNat) {fileId : UInt16}
include hlen

theorem succeeds_visitAttribute {type : UInt32} {attr : Nat} {p : Progress} {P : Prop} :
    Succeeds (visitAttribute drive (ofBuffer buffer) fileId type attr p) (fun _ => P) ↔
      (type = FILE_NAME → NameInside buffer attr) ∧ (type = DATA → DataInside drive buffer attr) ∧
        (type = DATA → DataEnds drive buffer attr) ∧ P := by
  rw [succeeds_iff_inBounds, inBounds_visitAttribute hlen, inBounds_visitAttribute hlen]
  tauto

theorem succeeds_processAttribute : ∀ {rounds : Nat} {off : UInt32} {p : Progress},
    Succeeds (processAttribute drive (ofBuffer buffer) fileId rounds off p) (fun _ => True) ↔
      SoundFrom drive buffer off ∧ Shallow (walkActions drive buffer) rounds off
  | 0, off, p => by
    unfold processAttribute Shallow
    simp [Succeeds]
  | rounds + 1, off, p => by
    have hlink : ∀ next, Calls (walkActions drive buffer) off next ↔ AttributeLink drive buffer off next := fun next => by
      rw [calls_walkActions]
    have ih : ∀ next p, Succeeds (processAttribute drive (ofBuffer buffer) fileId rounds next p) (fun _ => True) ↔
        SoundFrom drive buffer next ∧ Shallow (walkActions drive buffer) rounds next := fun _ _ =>
      succeeds_processAttribute
    have hround := @succeeds_processAttribute_succ drive buffer fileId rounds off p
    simp only [ih, succeeds_visitAttribute hlen] at hround
    rw [hround]
    constructor
    · intro h
      refine ⟨fun w hw hin => ?_, fun next hcall => ?_⟩
      · rcases hw.cases_head with rfl | ⟨next, hto, hw⟩
        · obtain ⟨htype, hlength, hgo⟩ := h hin
          exact ⟨⟨htype, hlength, fun g => (hgo g).1, fun g => (hgo g).2.1⟩, fun g => (hgo g).2.2.1⟩
        · obtain rfl := hto.next
          exact ((h hto.inside).2.2 hto.goesOn).2.2.2.1 w hw hin
      · have hto := (hlink next).mp hcall
        obtain rfl := hto.next
        exact ((h hto.inside).2.2 hto.goesOn).2.2.2.2
    · rintro ⟨hsound, hshallow⟩ hin
      have hoff := hsound off .refl hin
      refine ⟨hoff.type, hoff.length, fun hgo => ⟨hoff.name hgo, hoff.data hgo, hoff.ends hgo, ?_⟩⟩
      have hto : AttributeLink drive buffer off (off + le32 buffer (off.toNat + 4)) := ⟨hin, hgo, hoff.ends hgo, rfl⟩
      exact ⟨fun w hw => hsound w (.head hto hw), hshallow _ ((hlink _).mpr hto)⟩

theorem succeeds_processMftRecord {rounds : Nat} (st : ScanState) :
    Succeeds (processMftRecord drive (ofBuffer buffer) rounds st) (fun _ => True) ↔ RecordEnds drive buffer rounds := by
  have hwalk : ∀ first, Succeeds (processAttribute drive (ofBuffer buffer) st.fileId rounds first {}) (fun _ => True) ↔
      SoundFrom drive buffer first ∧ Shallow (walkActions drive buffer) rounds first := fun _ =>
    succeeds_processAttribute hlen
  unfold processMftRecord
  simp only [succeeds_bind, succeeds_readU32, succeeds_readU16, succeeds_ite, succeeds_ok, succeeds_pure, hwalk]
  constructor
  · rintro ⟨hsignature, hfile⟩
    refine ⟨hsignature, fun hsig => (hfile.2 (not_not.mpr hsig)).1, fun hsig hdel => ?_⟩
    exact ((hfile.2 (not_not.mpr hsig)).2.2 (not_not.mpr hdel)).2
  · intro h
    refine ⟨h.signature, fun _ => trivial, fun hsig => ⟨h.header (not_not.mp hsig), fun _ => trivial, fun hdel => ?_⟩⟩
    have hheader := h.header (not_not.mp hsig)
    exact ⟨by omega, h.walk (not_not.mp hsig) (not_not.mp hdel)⟩

end

end

/-! ## Reading a record -/

section
variable (v : Volume)

/-- The contents of the sectors `i` to `i + count` behind a sector, if all of them can be read. -/
def Volume.contents (currentSector : UInt64) (i count : Nat) : Option (List (List UInt8)) :=
  (List.range' i count).mapM fun i => v.readSector (currentSector + UInt64.ofNat i)

def Volume.recordAt (sectorsPerMftRecord : UInt32) (index : Nat) : Option (List UInt8) :=
  (v.contents (v.mftSector + UInt64.ofNat index * sectorsPerMftRecord.toUInt64) 0 sectorsPerMftRecord.toNat).map
    List.flatten

variable {v} {currentSector : UInt64}

theorem writeAt_nil {buffer : List UInt8} {off : Nat} : writeAt buffer off [] = buffer := by
  unfold writeAt
  rw [List.append_nil, List.length_nil, Nat.add_zero, List.take_append_drop]

/-- What is written behind the bytes just written is written with them. -/
theorem writeAt_writeAt {buffer bytes more : List UInt8} {off : Nat} (h : off + bytes.length ≤ buffer.length) :
    writeAt (writeAt buffer off bytes) (off + bytes.length) more = writeAt buffer off (bytes ++ more) := by
  have hfront : (buffer.take off ++ bytes).length = off + bytes.length := by
    rw [List.length_append, List.length_take, Nat.min_eq_left (by omega)]
  unfold writeAt
  rw [List.length_append, ← hfront, List.take_left, ← List.drop_drop, List.drop_left, List.drop_drop, hfront,
    ← List.append_assoc, Nat.add_assoc]

theorem contents_succ (i count : Nat) : v.contents currentSector i (count + 1) =
    (v.readSector (currentSector + UInt64.ofNat i)).bind fun bytes =>
      (v.contents currentSector (i + 1) count).map (bytes :: ·) := by
  unfold Volume.contents
  rw [List.range'_succ, List.mapM_cons]
  cases v.readSector (currentSector + UInt64.ofNat i) with
  | none => rfl
  | some bytes =>
    cases List.mapM (fun i => v.readSector (currentSector + UInt64.ofNat i)) (List.range' (i + 1) count) <;> rfl

theorem length_contents : ∀ {count i : Nat} {contents : List (List UInt8)},
    v.contents currentSector i count = some contents → contents.flatten.length = count * v.bytesPerSector.toNat
  | 0, i, contents, h => by
    obtain rfl : contents = [] := (Option.some.inj h).symm
    rw [Nat.zero_mul]
    rfl
  | count + 1, i, contents, h => by
    rw [contents_succ] at h
    obtain ⟨bytes, hread, h⟩ := Option.bind_eq_some_iff.mp h
    obtain ⟨rest, hrest, rfl⟩ := Option.map_eq_some_iff.mp h
    have hbytes := (Volume.length_of_readSector hread).trans (UInt16.toNat_toUInt64 _)
    rw [List.flatten_cons, List.length_append, length_contents hrest, hbytes, Nat.add_mul, Nat.one_mul, Nat.add_comm]

theorem readMftSectors_succ {i count : Nat} {buffer bytes : List UInt8}
    (hread : v.readSector (currentSector + UInt64.ofNat i) = some bytes) :
    (i + 1) * v.bytesPerSector.toNat = i * v.bytesPerSector.toNat + bytes.length ∧
      readMftSectors v currentSector (count + 1) i buffer =
        if buffer.length < i * v.bytesPerSector.toNat + bytes.length then .error (.outOfBounds buffer.length)
        else readMftSectors v currentSector count (i + 1) (writeAt buffer (i * v.bytesPerSector.toNat) bytes) := by
  have hlen := (Volume.length_of_readSector hread).trans (UInt16.toNat_toUInt64 _)
  refine ⟨by rw [Nat.add_mul, Nat.one_mul, hlen], ?_⟩
  conv => lhs; unfold readMftSectors
  dsimp only
  rw [hread]

theorem readMftSectors_some : ∀ {count i : Nat} {buffer : List UInt8} {contents : List (List UInt8)},
    v.contents currentSector i count = some contents →
    i * v.bytesPerSector.toNat + contents.flatten.length ≤ buffer.length →
      readMftSectors v currentSector count i buffer =
        .ok (true, writeAt buffer (i * v.bytesPerSector.toNat) contents.flatten)
  | 0, i, buffer, contents, hcontents, _ => by
    obtain rfl : contents = [] := (Option.some.inj hcontents).symm
    rw [List.flatten_nil, writeAt_nil]
    rfl
  | count + 1, i, buffer, contents, hcontents, hroom => by
    rw [contents_succ] at hcontents
    obtain ⟨bytes, hread, hcontents⟩ := Option.bind_eq_some_iff.mp hcontents
    obtain ⟨rest, hrest, rfl⟩ := Option.map_eq_some_iff.mp hcontents
    rw [List.flatten_cons, List.length_append] at hroom
    have hin : i * v.bytesPerSector.toNat + bytes.length ≤ buffer.length := by omega
    obtain ⟨hnext, hstep⟩ := @readMftSectors_succ v currentSector i count buffer bytes hread
    rw [hstep, if_neg (Nat.not_lt.mpr hin), readMftSectors_some hrest, hnext, writeAt_writeAt hin, List.flatten_cons]
    rw [hnext, length_writeAt hin]
    omega

theorem readMftSectors_overflows : ∀ {count i : Nat} {buffer : List UInt8} {contents : List (List UInt8)},
    v.contents currentSector i count = some contents → i * v.bytesPerSector.toNat ≤ buffer.length →
    buffer.length < i * v.bytesPerSector.toNat + contents.flatten.length →
      ∃ fault, readMftSectors v currentSector count i buffer = .error fault
  | 0, i, buffer, contents, hcontents, hi, hover => by
    cases hcontents
    exact absurd hi (Nat.not_le.mpr hover)
  | count + 1, i, buffer, contents, hcontents, hi, hover => by
    rw [contents_succ] at hcontents
    obtain ⟨bytes, hread, hcontents⟩ := Option.bind_eq_some_iff.mp hcontents
    obtain ⟨rest, hrest, rfl⟩ := Option.map_eq_some_iff.mp hcontents
    rw [List.flatten_cons, List.length_append] at hover
    obtain ⟨hnext, hstep⟩ := @readMftSectors_succ v currentSector i count buffer bytes hread
    rw [hstep]
    split
    · exact ⟨_, rfl⟩
    · rename_i hroom
      have hin := Nat.not_lt.mp hroom
      refine readMftSectors_overflows hrest ?_ ?_
      · rw [hnext, length_writeAt hin]
        exact hin
      · rw [hnext, length_writeAt hin]
        omega

theorem readMftSectors_none : ∀ {count i : Nat} {buffer : List UInt8},
    v.contents currentSector i count = none → i + count ≤ buffer.length / v.bytesPerSector.toNat + 1 →
      ∃ left, readMftSectors v currentSector count i buffer = .ok (false, left)
  | 0, i, buffer, hcontents, _ => by cases hcontents
  | count + 1, i, buffer, hcontents, hceil => by
    rw [contents_succ] at hcontents
    cases hread : v.readSector (currentSector + UInt64.ofNat i) with
    | none =>
      unfold readMftSectors
      dsimp only
      rw [hread]
      exact ⟨buffer, rfl⟩
    | some bytes =>
      rw [hread, Option.bind_some, Option.map_eq_none_iff] at hcontents
      -- an unreadable sector follows, so this one is not the last and lies in the buffer
      have hmore : count ≠ 0 := fun h0 => by rw [h0] at hcontents; cases hcontents
      obtain ⟨hnext, hstep⟩ := @readMftSectors_succ v currentSector i count buffer bytes hread
      have hin : i * v.bytesPerSector.toNat + bytes.length ≤ buffer.length := by
        rw [← hnext]
        exact Nat.mul_le_of_le_div _ _ _ (by omega)
      rw [hstep, if_neg (Nat.not_lt.mpr hin)]
      refine readMftSectors_none hcontents ?_
      rw [length_writeAt hin]
      omega

theorem sectors_le_ceil {sectors : UInt32} (h : getSectorsPerMftRecord v = .ok sectors) :
    sectors.toNat ≤ v.driveInfo.mftRecordSize.toNat / v.bytesPerSector.toNat + 1 := by
  have hquot : (v.driveInfo.mftRecordSize / v.bytesPerSector.toUInt32).toNat =
      v.driveInfo.mftRecordSize.toNat / v.bytesPerSector.toNat := by
    rw [UInt32.toNat_div, UInt16.toNat_toUInt32]
  have hone : (1 : UInt32).toNat = 1 := rfl
  unfold getSectorsPerMftRecord at h
  dsimp only at h
  split at h
  · cases h
  · cases h
    split
    · rw [UInt32.toNat_add, hquot, hone]
      exact Nat.mod_le _ _
    · rw [hquot]
      exact Nat.le_succ _

/-- What `readMftRecord` makes of any buffer of the right size. -/
theorem readMftRecord_cases {sectors : UInt32} (hsectors : getSectorsPerMftRecord v = .ok sectors) (index : Nat)
    {buffer : List UInt8} (hbuffer : buffer.length = v.driveInfo.mftRecordSize.toNat) :
    match v.recordAt sectors index with
    | none => ∃ left, readMftRecord v sectors (v.mftSector + UInt64.ofNat index * sectors.toUInt64) buffer = .ok (false, left)
    | some record =>
      if record.length = v.driveInfo.mftRecordSize.toNat then
        readMftRecord v sectors (v.mftSector + UInt64.ofNat index * sectors.toUInt64) buffer = .ok (true, record)
      else ∃ fault, readMftRecord v sectors (v.mftSector + UInt64.ofNat index * sectors.toUInt64) buffer = .error fault := by
  unfold Volume.recordAt readMftRecord
  cases hcontents : v.contents (v.mftSector + UInt64.ofNat index * sectors.toUInt64) 0 sectors.toNat with
  | none =>
    refine readMftSectors_none hcontents ?_
    rw [hbuffer, Nat.zero_add]
    exact sectors_le_ceil hsectors
  | some contents =>
    have hlen := length_contents hcontents
    have hge := sectors_mul_ge hsectors
    dsimp only [Option.map_some]
    split
    · rename_i hfits
      rw [readMftSectors_some hcontents (by rw [hfits, hbuffer]; omega), writeAt, Nat.zero_mul, List.take_zero,
        List.nil_append, hfits, ← hbuffer, Nat.zero_add, List.drop_length, List.append_nil]
    · rename_i hfits
      refine readMftSectors_overflows hcontents (by rw [Nat.zero_mul]; exact Nat.zero_le _) ?_
      rw [hbuffer]
      omega

end

/-! ## All records -/

section
variable (v : Volume)

def EndsAt (sectors : UInt32) (rounds index : Nat) : Prop :=
  ∀ record, v.recordAt sectors index = some record → record.length = v.driveInfo.mftRecordSize.toNat ∧
    RecordEnds v.driveInfo record rounds

variable {v} {sectors : UInt32} (hsectors : getSectorsPerMftRecord v = .ok sectors) {rounds : Nat}
include hsectors

theorem succeeds_scanRecords : ∀ {count index : Nat} {mftBuffer : List UInt8} {st : ScanState},
    mftBuffer.length = v.driveInfo.mftRecordSize.toNat →
      (Succeeds (scanRecords v rounds v.mftSector sectors count (UInt64.ofNat index) mftBuffer st) (fun _ => True) ↔
        ∀ k < count, EndsAt v sectors rounds (index + k))
  | 0, index, mftBuffer, st, _ => by
    unfold scanRecords
    simp [succeeds_ok]
  | count + 1, index, mftBuffer, st, hlen => by
    have hnext : UInt64.ofNat index + 1 = UInt64.ofNat (index + 1) := (UInt64.ofNat_add index 1).symm
    have hread := readMftRecord_cases hsectors index hlen
    have hsplit : (∀ k < count + 1, EndsAt v sectors rounds (index + k)) ↔
        EndsAt v sectors rounds index ∧ ∀ k < count, EndsAt v sectors rounds (index + 1 + k) := by
      rw [Nat.forall_lt_succ_left]
      simp only [Nat.add_zero, Nat.add_right_comm index _ 1, ← Nat.add_assoc]
    have hrest : ∀ {buffer : List UInt8} {st : ScanState}, buffer.length = v.driveInfo.mftRecordSize.toNat →
        (Succeeds (scanRecords v rounds v.mftSector sectors count (UInt64.ofNat (index + 1)) buffer st) (fun _ => True) ↔
          ∀ k < count, EndsAt v sectors rounds (index + 1 + k)) := succeeds_scanRecords
    rw [hsplit]
    unfold scanRecords
    dsimp only
    rw [succeeds_bind, hnext]
    cases hrecord : v.recordAt sectors index with
    | none =>
      rw [hrecord] at hread
      obtain ⟨left, hleft⟩ := hread
      have hends : EndsAt v sectors rounds index := fun record h => by rw [hrecord] at h; cases h
      rw [hleft, succeeds_ok]
      simp only [hends, true_and]
      exact hrest ((length_readMftSectors hleft).trans hlen)
    | some record =>
      have hends : EndsAt v sectors rounds index ↔ record.length = v.driveInfo.mftRecordSize.toNat ∧
          RecordEnds v.driveInfo record rounds := by
        unfold EndsAt
        simp [hrecord]
      rw [hrecord] at hread
      dsimp only at hread
      rw [hends]
      split at hread
      · rename_i hfits
        have hparse := @succeeds_processMftRecord v.driveInfo record hfits rounds st
        rw [hread, succeeds_ok]
        simp only [if_true, hfits, true_and]
        rw [← hparse, succeeds_bind]
        cases processMftRecord v.driveInfo (ofBuffer record) rounds st with
        | ok st' => simpa [succeeds_ok] using hrest hfits
        | error fault => simp [Succeeds]
      · rename_i hfits
        obtain ⟨fault, hfault⟩ := hread
        rw [hfault]
        simp [Succeeds, hfits]

end

/-- Bounds that grow: one suffices for all indices below `n` if each of them has one. -/
theorem exists_common_bound {P : Nat → Nat → Prop} (hmono : ∀ {k bound bound'}, bound ≤ bound' → P bound k → P bound' k) :
    ∀ {n : Nat}, (∀ k < n, ∃ bound, P bound k) → ∃ bound, ∀ k < n, P bound k
  | 0, _ => ⟨0, fun k hk => absurd hk (Nat.not_lt_zero k)⟩
  | n + 1, h => by
    obtain ⟨bound, hbound⟩ := exists_common_bound (P := P) hmono fun k hk => h k (Nat.lt_succ_of_lt hk)
    obtain ⟨last, hlast⟩ := h n (Nat.lt_succ_self n)
    refine ⟨max bound last, fun k hk => ?_⟩
    rcases Nat.lt_succ_iff_lt_or_eq.mp hk with hk | rfl
    · exact hmono (Nat.le_max_left ..) (hbound k hk)
    · exact hmono (Nat.le_max_right ..) hlast

section
variable {v : Volume} {sectors : UInt32}

theorem EndsAt.mono {rounds rounds' index : Nat} (hle : rounds ≤ rounds') (h : EndsAt v sectors rounds index) :
    EndsAt v sectors rounds' index := fun record hrecord => ⟨(h record hrecord).1, (h record hrecord).2.mono hle⟩

theorem exists_endsAt_iff {index : Nat} : (∃ rounds, EndsAt v sectors rounds index) ↔
    ∀ record, v.recordAt sectors index = some record → record.length = v.driveInfo.mftRecordSize.toNat ∧
      RecordSound v.driveInfo record := by
  constructor
  · rintro ⟨rounds, h⟩ record hrecord
    exact ⟨(h record hrecord).1, recordSound_iff.mpr ⟨rounds, (h record hrecord).2⟩⟩
  · intro h
    cases hrecord : v.recordAt sectors index with
    | none => exact ⟨0, fun record hsome => by rw [hrecord] at hsome; cases hsome⟩
    | some record =>
      obtain ⟨hfits, hsound⟩ := h record hrecord
      obtain ⟨rounds, hends⟩ := recordSound_iff.mp hsound
      refine ⟨rounds, fun record' hsome => ?_⟩
      obtain rfl := Option.some.inj (hrecord.symm.trans hsome)
      exact ⟨hfits, hends⟩

end

theorem scanMFT_ok_iff {v : Volume} {rounds : Nat} {st : ScanState} : (∃ st', scanMFT v rounds st = .ok st') ↔
    (v.isValidSector v.mftSector = true → ∃ sectors, getSectorsPerMftRecord v = .ok sectors ∧
      ∀ index < v.device.getTotalMftRecords.toNat, EndsAt v sectors rounds index) := by
  have hstart : v.clusterToSector v.driveInfo.bootSector.mftCluster = v.mftSector := rfl
  unfold scanMFT
  dsimp only
  rw [hstart]
  cases v.isValidSector v.mftSector with
  | false => simp
  | true =>
    cases hsectors : getSectorsPerMftRecord v with
    | error fault => simp [bind, Except.bind]
    | ok sectors =>
      have hzero : UInt64.ofNat 0 = 0 := rfl
      have hscan := @succeeds_scanRecords v sectors hsectors rounds v.device.getTotalMftRecords.toNat 0
        (List.replicate v.driveInfo.mftRecordSize.toNat 0) st List.length_replicate
      simp only [succeeds_true_iff, Nat.zero_add, hzero] at hscan
      simp only [Bool.not_true, Bool.false_eq_true, if_false, true_imp_iff, ok_bind, hscan, Except.ok.injEq,
        exists_eq_left']

/-- The scan ends if and only if it has no valid start, or each record that can be read fills the buffer and is sound. -/
theorem mft_scan_ends_iff (v : Volume) (st : ScanState) :
    (∃ rounds st', scanMFT v rounds st = .ok st') ↔
      (v.isValidSector v.mftSector = true → ∃ sectors, getSectorsPerMftRecord v = .ok sectors ∧
        ∀ index < v.device.getTotalMftRecords.toNat, ∀ record, v.recordAt sectors index = some record →
          record.length = v.driveInfo.mftRecordSize.toNat ∧ RecordSound v.driveInfo record) := by
  simp only [scanMFT_ok_iff, ← exists_endsAt_iff]
  constructor
  · rintro ⟨rounds, h⟩ hvalid
    obtain ⟨sectors, hsectors, hends⟩ := h hvalid
    exact ⟨sectors, hsectors, fun index hindex => ⟨rounds, hends index hindex⟩⟩
  · intro h
    by_cases hvalid : v.isValidSector v.mftSector = true
    · obtain ⟨sectors, hsectors, hends⟩ := h hvalid
      obtain ⟨rounds, hrounds⟩ := exists_common_bound (P := EndsAt v sectors) EndsAt.mono hends
      exact ⟨rounds, fun _ => ⟨sectors, hsectors, hrounds⟩⟩
    · exact ⟨0, fun h => absurd h hvalid⟩

end DataRecovery.NTFS
