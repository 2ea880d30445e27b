import DataRecovery.NTFS.Bounds

/-!
# Shifts in the run list

The fields of a run are as wide as its header says, up to 15 bytes, and the engine
shifts 64-bit registers by the widths it finds. The decoding of a run list is free of
undefined shifts exactly when each run it comes to has fields of at most eight bytes
and no negative offset of eight.
-/

namespace DataRecovery.NTFS

/-- A field of the run is wider than eight bytes, or its offset is eight bytes and negative. -/
def Run.isWide (r : Run) : Bool := 8 < r.lengthSize || 8 < r.offsetSize || r.isWideNegative

section
variable (drive : DriveInfo) (buffer : List UInt8)

/-- The loop over the run list at `start` comes to `pos` with this cluster number. -/
inductive RunReached (start : Nat) : Nat → UInt64 → Prop where
  | first : RunReached start start 0
  | next {pos : Nat} {lcn : UInt64} (h : RunReached start pos lcn) (hlast : isLast buffer pos = false)
      (hin : pos + 1 + (runAt buffer pos).fieldBytes ≤ buffer.length)
      (hundef : isUndefined drive (runAt buffer pos) = false)
      (hlcn : ¬ drive.lastCluster < lcn + UInt64.ofInt (runAt buffer pos).offset) :
      RunReached start (pos + 1 + (runAt buffer pos).fieldBytes) (lcn + UInt64.ofInt (runAt buffer pos).offset)

def ShiftsDefined (start : Nat) : Prop :=
  ∀ (rounds : Nat) (info : FileInfo), processRuns drive (ofBuffer buffer) rounds start 0 info ≠ .error .undefinedShift

def NarrowRuns (start : Nat) : Prop :=
  ∀ pos lcn, RunReached drive buffer start pos lcn → isLast buffer pos = false →
    pos + 1 + (runAt buffer pos).fieldBytes ≤ buffer.length → (runAt buffer pos).isWide = false

end

section
variable {buffer : List UInt8}

/-! ## Fields -/

theorem undefinedShift_ne : ∀ i, Fault.undefinedShift ≠ .outOfBounds i := by simp

theorem without_readField : ∀ {count i pos acc : Nat} {Q : UInt64 → Prop}, i ≤ 8 → acc < 256 ^ i →
    (Without .undefinedShift (readField (ofBuffer buffer) count i pos (UInt64.ofNat acc)) Q ↔
      (count = 0 ∨ pos + min count (9 - i) ≤ buffer.length →
        count + i ≤ 8 ∧ Q (UInt64.ofNat (acc + 256 ^ i * leNat (slice buffer pos count)))))
  | 0, i, pos, acc, Q, hi, hacc => by
    unfold readField
    rw [without_ok]
    simp [slice, leNat, hi]
  | count + 1, i, pos, acc, Q, hi, hacc => by
    unfold readField
    rw [without_bind, without_readByte undefinedShift_ne, without_ite, without_error]
    by_cases h8 : i = 8
    · subst h8
      constructor
      · intro h hin
        exact ((h (by omega)).1 (by omega)).elim
      · intro h hpos
        exact absurd (h (by omega)).1 (by omega)
    · have ih := @without_readField count (i + 1) (pos + 1) (acc + 256 ^ i * (buffer.getD pos 0).toNat) Q
        (by omega) (acc_lt hacc _)
      have hshift : ¬ 64 ≤ i * 8 := by omega
      simp only [hshift, false_imp_iff, not_false_eq_true, true_imp_iff, true_and]
      rw [or_byte (by omega) hacc, ih]
      constructor
      · intro h hin
        have hpos : pos < buffer.length := by omega
        obtain ⟨hle, hval⟩ := h hpos (by omega)
        refine ⟨by omega, ?_⟩
        rw [slice_succ hpos, leNat, Nat.mul_add, ← Nat.mul_assoc, ← Nat.pow_succ, ← Nat.add_assoc]
        exact hval
      · intro h hpos hin
        obtain ⟨hle, hval⟩ := h (by omega)
        refine ⟨by omega, ?_⟩
        rw [slice_succ hpos, leNat, Nat.mul_add, ← Nat.mul_assoc, ← Nat.pow_succ, ← Nat.add_assoc] at hval
        exact hval

theorem without_field {count pos : Nat} {Q : UInt64 → Prop} :
    Without .undefinedShift (readField (ofBuffer buffer) count 0 pos 0) Q ↔
      (count = 0 ∨ pos + min count 9 ≤ buffer.length → count ≤ 8 ∧ Q (UInt64.ofNat (fieldAt buffer pos count))) := by
  have h := @without_readField buffer count 0 pos 0 Q (by omega) (by decide)
  rw [Nat.pow_zero, Nat.one_mul, Nat.zero_add] at h
  exact h

theorem without_readRunOffset {size pos : Nat} {Q : UInt64 → Prop} :
    Without .undefinedShift (readRunOffset (ofBuffer buffer) size pos) Q ↔
      (size = 0 ∨ pos + min size 9 ≤ buffer.length →
        size ≤ 8 ∧ ¬ (size = 8 ∧ 256 ^ size ≤ 2 * fieldAt buffer pos size) ∧
          Q (UInt64.ofInt (signed size (fieldAt buffer pos size)))) := by
  unfold readRunOffset
  by_cases h0 : size = 0
  · subst h0
    have hzero : UInt64.ofInt 0 = 0 := rfl
    simp [without_ok, fieldAt, slice, leNat, signed, hzero]
  · rw [if_neg h0, without_bind, without_field]
    refine imp_congr_right fun _ => and_congr_right fun hle => ?_
    rw [extendField_eq h0 hle (fieldAt_lt pos size), without_ite, without_error, without_ok]
    exact and_congr_right fun hnot => imp_iff_right hnot

end

/-! ## Run lists -/

section
variable {drive : DriveInfo} {buffer : List UInt8} {rounds pos : Nat} {lcn : UInt64} {info : FileInfo}

theorem Run.fieldBytes_of_narrow {r : Run} (h : r.lengthSize ≤ 8 ∧ r.offsetSize ≤ 8) :
    r.fieldBytes = r.lengthSize + r.offsetSize ∧ r.isWide = r.isWideNegative := by
  unfold Run.fieldBytes Run.isWide
  rw [if_neg (by omega), Nat.min_eq_left (by omega), decide_eq_false (by omega), decide_eq_false (by omega)]
  exact ⟨rfl, rfl⟩

theorem Run.isWide_of_not_narrow {r : Run} (h : ¬ (r.lengthSize ≤ 8 ∧ r.offsetSize ≤ 8)) : r.isWide = true := by
  unfold Run.isWide
  simp only [Bool.or_eq_true, decide_eq_true_eq]
  omega

theorem isUndefined_eq (r : Run) :
    isUndefined drive r = (r.isWide || decide (drive.bootSector.sectorsPerCluster = 0)) := rfl

theorem without_processRuns_succ (hlast : isLast buffer pos = false) :
    Without .undefinedShift (processRuns drive (ofBuffer buffer) (rounds + 1) pos lcn info) (fun _ => True) ↔
      (pos + 1 + (runAt buffer pos).fieldBytes ≤ buffer.length → (runAt buffer pos).isWide = false ∧
        (drive.bootSector.sectorsPerCluster ≠ 0 →
          ¬ drive.lastCluster < lcn + UInt64.ofInt (runAt buffer pos).offset →
            Without .undefinedShift
              (processRuns drive (ofBuffer buffer) rounds (pos + 1 + (runAt buffer pos).fieldBytes)
                (lcn + UInt64.ofInt (runAt buffer pos).offset)
                (info.setRun (lcn + UInt64.ofInt (runAt buffer pos).offset,
                  UInt64.ofNat (runAt buffer pos).length))) fun _ => True)) := by
  have hhead : buffer.getD pos 0 = headerAt buffer pos := rfl
  have hl : lengthSize (headerAt buffer pos) = (runAt buffer pos).lengthSize := rfl
  have ho : offsetSize (headerAt buffer pos) = (runAt buffer pos).offsetSize := rfl
  have hparts := isLast_eq_false_iff.mp hlast
  rw [processRuns, without_bind, without_readByte undefinedShift_ne, hhead, if_neg hparts.1, hl, ho, if_neg hparts.2,
    without_bind, without_field]
  simp only [without_bind, without_readRunOffset, without_ite, without_ok, ← wideNegative_runAt, offset_runAt,
    length_runAt]
  by_cases hle : (runAt buffer pos).lengthSize ≤ 8 ∧ (runAt buffer pos).offsetSize ≤ 8
  · obtain ⟨hbytes, hwide⟩ := Run.fieldBytes_of_narrow hle
    rw [hbytes, hwide, ← Nat.add_assoc]
    constructor
    · intro h hin
      obtain ⟨-, hneg, -, hrest⟩ := (h (by omega) (by omega)).2 (by omega)
      exact ⟨by simpa using hneg, fun hspc hlcn => (hrest hspc).2 hlcn⟩
    · intro h hpos hlength
      refine ⟨hle.1, fun hoffset => ?_⟩
      obtain ⟨hneg, hrest⟩ := h (by omega)
      exact ⟨hle.2, by simp [hneg], fun _ => by simp [Without], fun hspc => ⟨fun _ => trivial, hrest hspc⟩⟩
  · have hwide := Run.isWide_of_not_narrow hle
    have hbytes : (runAt buffer pos).fieldBytes = if 8 < (runAt buffer pos).lengthSize then 9
        else (runAt buffer pos).lengthSize + min (runAt buffer pos).offsetSize 9 := rfl
    rw [hwide]
    constructor
    · intro h hin
      by_cases h8 : 8 < (runAt buffer pos).lengthSize
      · rw [if_pos h8] at hbytes
        exact absurd (h (by omega) (by omega)).1 (by omega)
      · rw [if_neg h8] at hbytes
        exact absurd ((h (by omega) (by omega)).2 (by omega)).1 (by omega)
    · intro h hpos hlength
      by_cases h8 : 8 < (runAt buffer pos).lengthSize
      · rw [if_pos h8] at hbytes
        exact absurd (h (by omega)).1 (by simp)
      · rw [if_neg h8] at hbytes
        refine ⟨by omega, fun hoffset => ?_⟩
        exact absurd (h (by omega)).1 (by simp)

theorem without_processRuns_last (hlast : isLast buffer pos = true) :
    Without .undefinedShift (processRuns drive (ofBuffer buffer) (rounds + 1) pos lcn info) (fun _ => True) := by
  have hparts := isLast_eq_true_iff.mp hlast
  rw [processRuns, without_bind, without_readByte undefinedShift_ne]
  intro _
  change Without _ (if headerAt buffer pos = 0 then _ else if (runAt buffer pos).lengthSize = 0 then _ else _) _
  by_cases h0 : headerAt buffer pos = 0
  · rw [if_pos h0, without_ok]
    trivial
  · rw [if_neg h0, if_pos (hparts.resolve_left h0), without_ok]
    trivial

end

section
variable {drive : DriveInfo} {buffer : List UInt8} {start : Nat}

theorem without_of_narrow (h : NarrowRuns drive buffer start) : ∀ {rounds pos : Nat} {lcn : UInt64} {info : FileInfo},
    RunReached drive buffer start pos lcn →
      Without .undefinedShift (processRuns drive (ofBuffer buffer) rounds pos lcn info) fun _ => True
  | 0, pos, lcn, info, _ => by
    unfold processRuns
    simp [Without]
  | rounds + 1, pos, lcn, info, hreach => by
    cases hlast : isLast buffer pos with
    | true => exact without_processRuns_last hlast
    | false =>
      rw [without_processRuns_succ hlast]
      intro hin
      have hwide := h pos lcn hreach hlast hin
      refine ⟨hwide, fun hspc hlcn => without_of_narrow h (hreach.next hlast hin ?_ hlcn)⟩
      rw [isUndefined_eq, hwide, decide_eq_false hspc]
      rfl

theorem without_of_reached
    (h : ∀ rounds info, Without .undefinedShift (processRuns drive (ofBuffer buffer) rounds start 0 info) fun _ => True)
    {pos : Nat} {lcn : UInt64} (hreach : RunReached drive buffer start pos lcn) :
    ∀ rounds, ∃ info, Without .undefinedShift (processRuns drive (ofBuffer buffer) rounds pos lcn info) fun _ => True := by
  induction hreach with
  | first => exact fun rounds => ⟨{}, h rounds {}⟩
  | next hreach hlast hin hundef hlcn ih =>
    intro rounds
    obtain ⟨info, hnext⟩ := ih (rounds + 1)
    rw [isUndefined_eq, Bool.or_eq_false_iff, decide_eq_false_iff_not] at hundef
    exact ⟨_, ((without_processRuns_succ hlast).mp hnext hin).2 hundef.2 hlcn⟩

theorem shiftsDefined_iff_narrow : ShiftsDefined drive buffer start ↔ NarrowRuns drive buffer start := by
  constructor
  · intro h pos lcn hreach hlast hin
    obtain ⟨info, hone⟩ := without_of_reached (fun rounds info => without_true_iff.mpr (h rounds info)) hreach 1
    exact ((without_processRuns_succ hlast).mp hone hin).1
  · intro h rounds info
    exact without_true_iff.mp (without_of_narrow h .first)

/-- A length field of nine bytes. -/
theorem wide_length_shifts : ¬ ∀ (drive : DriveInfo) (buffer : List UInt8) (start : Nat),
    ShiftsDefined drive buffer start := by
  intro h
  have hrun : processRuns smallDrive (ofBuffer [0x09, 1, 0, 0, 0, 0, 0, 0, 0, 0]) 1 0 0 {} = .error .undefinedShift := by
    decide +kernel
  exact h smallDrive _ 0 1 {} hrun

end

end DataRecovery.NTFS
