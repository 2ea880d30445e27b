import DataRecovery.NTFS.Attributes

/-!
# The end of the attribute walk

The walk adds the stored length of an attribute to its offset in 32 bits and checks
the sum against the record size. A length near 2^32 leads back to an offset before,
so the walk goes forward, and ends, exactly when no such sum wraps. Where it goes is
a matter of the headers alone, whatever the attributes contain.
-/

namespace DataRecovery.NTFS

/-- The record in memory: behind its end a read finds whatever is there. -/
def inMemory (buffer : List UInt8) (pastEnd : Nat → UInt8) : ByteMap :=
  fun i => some (buffer.getD i (pastEnd (i - buffer.length)))

theorem extends_inMemory (buffer : List UInt8) (pastEnd : Nat → UInt8) :
    Extends (ofBuffer buffer) (inMemory buffer pastEnd) := by
  intro i x hx
  unfold inMemory
  rw [List.getD_eq_getElem?_getD, show buffer[i]? = some x from hx]
  rfl

section
variable (drive : DriveInfo) (b : ByteMap)

/-- The loop of `processAttribute` without the work on the attributes: the offset at which it stops. -/
def walkHeaders : Nat → UInt32 → Except Fault UInt32
  | 0, _ => .error .endless
  | rounds + 1, attributeOffset =>
    if attributeOffset < drive.mftRecordSize then do
      let type ← readU32 b attributeOffset.toNat
      if type = END_MARKER then .ok attributeOffset
      else do
        let length ← readU32 b (attributeOffset.toNat + 4)
        if stopsAt drive attributeOffset length then .ok attributeOffset
        else walkHeaders rounds (attributeOffset + length)
    else .ok attributeOffset

structure Passes (off length : UInt32) : Prop where
  inside : off < drive.mftRecordSize
  marked : ∃ type, readU32 b off.toNat = .ok type ∧ type ≠ END_MARKER
  stored : readU32 b (off.toNat + 4) = .ok length
  more : stopsAt drive off length = false

inductive OffsetReached (first : UInt32) : UInt32 → Prop where
  | first : OffsetReached first first
  | next {off length : UInt32} (h : OffsetReached first off) (hpass : Passes drive b off length) :
      OffsetReached first (off + length)

end

/-- The loop from `first` ends, whether the attributes are worked on or not, and each of its rounds increases the
offset. -/
structure WalkEnds (drive : DriveInfo) (buffer : List UInt8) (pastEnd : Nat → UInt8) (first : UInt32) : Prop where
  ends : ∃ rounds last, walkHeaders drive (inMemory buffer pastEnd) rounds first = .ok last
  works : ∀ fileId p, ∃ rounds, processAttribute drive (ofBuffer buffer) fileId rounds first p ≠ .error .endless
  increases : ∀ off length, OffsetReached drive (inMemory buffer pastEnd) first off →
    Passes drive (inMemory buffer pastEnd) off length → off < off + length

/-! ## One attribute -/

section
variable {drive : DriveInfo} {buffer : List UInt8}

theorem endless_ne : ∀ i, Fault.endless ≠ .outOfBounds i := by simp

theorem without_of_ne {α : Type} {bad : Fault} {x : Except Fault α} {Q : α → Prop} (h : x ≠ .error bad)
    (hQ : ∀ a, Q a) : Without bad x Q := by
  cases x with
  | ok a => exact hQ a
  | error e => exact fun he => h (he ▸ rfl)

-- each round reads its header inside the buffer and moves on
theorem processRuns_ne_endless : ∀ {rounds pos : Nat} {lcn : UInt64} {info : FileInfo}, 0 < rounds →
    buffer.length < pos + rounds → processRuns drive (ofBuffer buffer) rounds pos lcn info ≠ .error .endless
  | rounds + 1, pos, lcn, info, _, hrounds => by
    have hshift : Fault.endless ≠ .undefinedShift := by decide
    rw [← without_true_iff, processRuns, without_bind, without_readByte endless_ne]
    intro hpos
    generalize buffer.getD pos 0 = header
    by_cases hheader : header = 0
    · rw [if_pos hheader]
      trivial
    · rw [if_neg hheader]
      by_cases hsize : lengthSize header = 0
      · rw [if_pos hsize]
        trivial
      · rw [if_neg hsize, without_bind]
        refine without_of_ne (readField_ne_error endless_ne hshift _ _ _ _ _) fun runLength => ?_
        rw [without_bind]
        refine without_of_ne (readRunOffset_ne_error endless_ne hshift _ _ _) fun runOffset => ?_
        rw [without_ite, without_ite]
        refine ⟨fun _ => by simp [Without], fun _ => ⟨fun _ => trivial, fun _ => ?_⟩⟩
        exact without_true_iff.mpr (processRuns_ne_endless (by omega) (by omega))

variable (hlen : buffer.length = drive.mftRecordSize.toNat)
include hlen

theorem visitAttribute_ne_endless (fileId : UInt16) (type : UInt32) (attr : Nat) (p : Progress) :
    visitAttribute drive (ofBuffer buffer) fileId type attr p ≠ .error .endless := by
  have hunits : ∀ n i, readUnits (ofBuffer buffer) n i ≠ .error .endless := by
    intro n
    induction n with
    | zero => exact fun i => pure_ne_error
    | succ n ih =>
      intro i
      refine bind_ne_error (bind_ne_error (readLE_ne_error endless_ne _ 2 i) fun _ => pure_ne_error) fun c => ?_
      exact bind_ne_error (ih (i + 2)) fun _ => pure_ne_error
  have hruns : ∀ pos info, processRuns drive (ofBuffer buffer) drive.runRounds pos 0 info ≠ .error .endless := by
    intro pos info
    refine processRuns_ne_endless (Nat.succ_pos _) ?_
    unfold DriveInfo.runRounds
    omega
  unfold visitAttribute
  split
  · refine bind_ne_error ?_ fun _ => pure_ne_error
    unfold processFileNameAttribute
    refine bind_ne_error (readByte_ne_error endless_ne _ _) fun nonResident => ?_
    split
    · refine bind_ne_error (bind_ne_error (readLE_ne_error endless_ne _ 2 _) fun _ => pure_ne_error) fun _ => ?_
      refine bind_ne_error (readByte_ne_error endless_ne _ _) fun _ => ?_
      exact bind_ne_error (hunits _ _) fun _ => pure_ne_error
    · exact pure_ne_error
  · split
    · exact bind_ne_error (processDataAttribute_ne_error endless_ne _ hruns _ _) fun _ => pure_ne_error
    · exact pure_ne_error

/-! ## The walk -/

/-- A walk over the headers takes the same way as the walk that works on the attributes. -/
theorem processAttribute_ne_endless (pastEnd : Nat → UInt8) (fileId : UInt16) : ∀ {rounds : Nat} {off : UInt32} (p : Progress),
    walkHeaders drive (inMemory buffer pastEnd) rounds off ≠ .error .endless →
      processAttribute drive (ofBuffer buffer) fileId rounds off p ≠ .error .endless
  | 0, _, _, h => absurd rfl h
  | rounds + 1, off, p, h => by
    have hread : ∀ i, readU32 (ofBuffer buffer) i ≠ .error .endless := fun i =>
      bind_ne_error (readLE_ne_error endless_ne _ 4 i) fun _ => pure_ne_error
    have hmemory : ∀ {i word}, readU32 (ofBuffer buffer) i = .ok word → readU32 (inMemory buffer pastEnd) i = .ok word :=
      fun {i word} hword => stable_readU32 i _ _ word (extends_inMemory buffer pastEnd) hword
    unfold processAttribute
    unfold walkHeaders at h
    by_cases hoff : off < drive.mftRecordSize
    · rw [if_pos hoff] at h ⊢
      refine bind_ne_error_of_ok (hread _) fun type htype => ?_
      rw [hmemory htype, ok_bind] at h
      by_cases hend : type = END_MARKER
      · rw [if_pos hend]
        exact pure_ne_error
      · rw [if_neg hend] at h ⊢
        refine bind_ne_error_of_ok (hread _) fun length hlength => ?_
        rw [hmemory hlength, ok_bind] at h
        cases hmore : stopsAt drive off length with
        | true => exact pure_ne_error
        | false =>
          rw [hmore, if_neg Bool.false_ne_true] at h
          rw [if_neg Bool.false_ne_true]
          refine bind_ne_error (visitAttribute_ne_endless hlen fileId type off.toNat p) fun p' => ?_
          exact processAttribute_ne_endless pastEnd fileId p' h
    · rw [if_neg hoff]
      exact pure_ne_error

end

/-- Each round takes the offset closer to the record's end. -/
theorem walkHeaders_ends {drive : DriveInfo} {b : ByteMap} {first : UInt32} (hread : ∀ i, ∃ word, readU32 b i = .ok word)
    (h : ∀ off length, OffsetReached drive b first off → Passes drive b off length → off < off + length) :
    ∀ {rounds : Nat} {off : UInt32}, OffsetReached drive b first off → 0 < rounds →
      drive.mftRecordSize.toNat < off.toNat + rounds → ∃ last, walkHeaders drive b rounds off = .ok last
  | rounds + 1, off, hreach, _, hrounds => by
    obtain ⟨type, htype⟩ := hread off.toNat
    obtain ⟨length, hlength⟩ := hread (off.toNat + 4)
    unfold walkHeaders
    by_cases hoff : off < drive.mftRecordSize
    · rw [if_pos hoff, htype, ok_bind, hlength, ok_bind]
      by_cases hend : type = END_MARKER
      · rw [if_pos hend]
        exact ⟨off, rfl⟩
      · rw [if_neg hend]
        cases hmore : stopsAt drive off length with
        | true => exact ⟨off, rfl⟩
        | false =>
          have hpass : Passes drive b off length := ⟨hoff, ⟨type, htype, hend⟩, hlength, hmore⟩
          have hlt := UInt32.lt_iff_toNat_lt.mp (h off length hreach hpass)
          have hsize := UInt32.lt_iff_toNat_lt.mp hoff
          exact walkHeaders_ends hread h (hreach.next hpass) (by omega) (by omega)
    · rw [if_neg hoff]
      exact ⟨off, rfl⟩

theorem readU32_inMemory (buffer : List UInt8) (pastEnd : Nat → UInt8) (i : Nat) :
    ∃ word, readU32 (inMemory buffer pastEnd) i = .ok word := by
  have hbytes : ∀ n i, ∃ xs, readBytes (inMemory buffer pastEnd) n i = .ok xs := by
    intro n
    induction n with
    | zero => exact fun _ => ⟨[], rfl⟩
    | succ n ih =>
      intro i
      obtain ⟨xs, hxs⟩ := ih (i + 1)
      refine ⟨buffer.getD i (pastEnd (i - buffer.length)) :: xs, ?_⟩
      rw [readBytes, hxs]
      rfl
  obtain ⟨xs, hxs⟩ := hbytes 4 i
  refine ⟨.ofNat (leNat xs), ?_⟩
  rw [readU32, readLE, hxs]
  rfl

theorem lt_add_iff {off length : UInt32} (h : length ≠ 0) :
    off < off + length ↔ off.toNat + length.toNat < 2 ^ 32 := by
  have hoff := off.toNat_lt
  have hlength := length.toNat_lt
  have hpos : length.toNat ≠ 0 := fun h0 => h (UInt32.toNat_inj.mp h0)
  rw [UInt32.lt_iff_toNat_lt, UInt32.toNat_add]
  omega

/-- Whatever the record and the memory behind it hold, the walk ends as it should exactly when no sum wraps. -/
theorem walkEnds_iff {drive : DriveInfo} {buffer : List UInt8} (hlen : buffer.length = drive.mftRecordSize.toNat)
    (pastEnd : Nat → UInt8) (first : UInt32) :
    WalkEnds drive buffer pastEnd first ↔
      ∀ off length, OffsetReached drive (inMemory buffer pastEnd) first off →
        Passes drive (inMemory buffer pastEnd) off length → off.toNat + length.toNat < 2 ^ 32 := by
  have hne : ∀ off length, Passes drive (inMemory buffer pastEnd) off length → length ≠ 0 := by
    intro off length hpass h0
    have hmore := hpass.more
    simp [stopsAt, h0] at hmore
  constructor
  · intro h off length hreach hpass
    exact (lt_add_iff (hne off length hpass)).mp (h.increases off length hreach hpass)
  · intro h
    have hincr : ∀ off length, OffsetReached drive (inMemory buffer pastEnd) first off →
        Passes drive (inMemory buffer pastEnd) off length → off < off + length :=
      fun off length hreach hpass => (lt_add_iff (hne off length hpass)).mpr (h off length hreach hpass)
    have hlt : drive.mftRecordSize.toNat < first.toNat + (drive.mftRecordSize.toNat + 1) := by omega
    obtain ⟨last, hlast⟩ :=
      walkHeaders_ends (readU32_inMemory buffer pastEnd) hincr .first (Nat.succ_pos drive.mftRecordSize.toNat) hlt
    have hworks := fun fileId p =>
      processAttribute_ne_endless hlen pastEnd fileId p (ne_of_eq_of_ne hlast pure_ne_error)
    exact ⟨⟨_, last, hlast⟩, fun fileId p => ⟨_, hworks fileId p⟩, hincr⟩

theorem plainRecord_ends : WalkEnds smallDrive (rawRecord (rawFileName 65)) (fun _ => 0) 56 := by
  let b := inMemory (rawRecord (rawFileName 65)) fun _ => 0
  have hlen : (rawRecord (rawFileName 65)).length = smallDrive.mftRecordSize.toNat := by decide +kernel
  have hname : readU32 b ((56 : UInt32).toNat + 4) = .ok 92 := by decide +kernel
  have hend : readU32 b (56 + 92 : UInt32).toNat = .ok END_MARKER := by decide +kernel
  have hlast : ∀ length, ¬ Passes smallDrive b (56 + 92) length := by
    intro length hpass
    obtain ⟨type, htype, hne⟩ := hpass.marked
    exact hne (Except.ok.inj (htype.symm.trans hend))
  have hlength : ∀ length, Passes smallDrive b 56 length → length = 92 :=
    fun length hpass => Except.ok.inj (hpass.stored.symm.trans hname)
  have hreached : ∀ off, OffsetReached smallDrive b 56 off → off = 56 ∨ off = 56 + 92 := by
    intro off hreach
    induction hreach with
    | first => exact .inl rfl
    | next hreach hpass ih =>
      rcases ih with rfl | rfl
      · exact .inr (by rw [hlength _ hpass])
      · exact absurd hpass (hlast _)
  refine (walkEnds_iff hlen (fun _ => 0) 56).mpr fun off length hreach hpass => ?_
  rcases hreached off hreach with rfl | rfl
  · rw [hlength length hpass]
    decide
  · exact absurd hpass (hlast length)

/-! ## A record without an end -/

/-- The attribute at 56 has a length of 2^32 - 8 and leads back to 48, where eight bytes lead to 56. -/
def loopingRecord : List UInt8 :=
  List.replicate 48 0 ++ leBytes 4 0x10 ++ leBytes 4 8 ++ leBytes 4 0x10 ++ leBytes 4 0xFFFFFFF8 ++
    List.replicate 448 0

theorem length_loopingRecord : loopingRecord.length = 512 := by decide +kernel

theorem loopingRecord_endless : ∀ rounds,
    walkHeaders smallDrive (inMemory loopingRecord fun _ => 0) rounds 56 = .error .endless ∧
      walkHeaders smallDrive (inMemory loopingRecord fun _ => 0) rounds 48 = .error .endless
  | 0 => ⟨rfl, rfl⟩
  | rounds + 1 => by
    obtain ⟨ih56, ih48⟩ := loopingRecord_endless rounds
    let b := inMemory loopingRecord fun _ => 0
    have hread : readU32 b 48 = .ok 0x10 ∧ readU32 b 52 = .ok 8 ∧ readU32 b 56 = .ok 0x10 ∧
        readU32 b 60 = .ok 0xFFFFFFF8 := by decide +kernel
    have h56 : (56 : UInt32).toNat = 56 ∧ (48 : UInt32).toNat = 48 := by decide
    constructor
    · rw [walkHeaders, if_pos (by decide), h56.1, hread.2.2.1, ok_bind, if_neg (by decide), hread.2.2.2, ok_bind,
        if_neg (by decide)]
      exact ih48
    · rw [walkHeaders, if_pos (by decide), h56.2, hread.1, ok_bind, if_neg (by decide), hread.2.1, ok_bind,
        if_neg (by decide)]
      exact ih56

theorem wrapping_length_never_ends :
    ¬ ∀ (drive : DriveInfo) (buffer : List UInt8) (pastEnd : Nat → UInt8) (first : UInt32),
      buffer.length = drive.mftRecordSize.toNat → WalkEnds drive buffer pastEnd first := by
  intro h
  have hsize : loopingRecord.length = smallDrive.mftRecordSize.toNat := length_loopingRecord
  obtain ⟨rounds, last, hends⟩ := (h smallDrive loopingRecord (fun _ => 0) 56 hsize).ends
  cases (loopingRecord_endless rounds).1.symm.trans hends

end DataRecovery.NTFS
