import DataRecovery.NTFS.Record
import Mathlib.Data.Nat.Bitwise

/-!
# Run lists

A run list is a sequence of runs and a zero byte. Each run has a header with the
widths of its two fields, its length, and the signed difference of its first
cluster from that of the run before; without a difference it is sparse. The loop
of `processDataAttribute` decodes this form, apart from a negative difference in
eight bytes, for which it shifts by 64.
-/

namespace DataRecovery.NTFS

/-! ## The stored form -/

structure Run where
  lengthSize : Nat
  length : Nat
  offsetSize : Nat
  offset : Int

namespace Run

def bytes (r : Run) : List UInt8 :=
  UInt8.ofNat (r.lengthSize + 16 * r.offsetSize) ::
    (leBytes r.lengthSize r.length ++ leBytes r.offsetSize (r.offset % 256 ^ r.offsetSize).toNat)

/-- The fields hold their values. With no offset field the offset is zero. -/
structure WellFormed (r : Run) : Prop where
  lengthSize_pos : 1 ≤ r.lengthSize
  lengthSize_le : r.lengthSize ≤ 8
  offsetSize_le : r.offsetSize ≤ 8
  length_pos : 1 ≤ r.length
  length_lt : r.length < 256 ^ r.lengthSize
  offset_ge : -256 ^ r.offsetSize ≤ 2 * r.offset
  offset_lt : 2 * r.offset < 256 ^ r.offsetSize

instance (r : Run) : Decidable r.WellFormed :=
  decidable_of_iff (1 ≤ r.lengthSize ∧ r.lengthSize ≤ 8 ∧ r.offsetSize ≤ 8 ∧ 1 ≤ r.length ∧
      r.length < 256 ^ r.lengthSize ∧ -256 ^ r.offsetSize ≤ 2 * r.offset ∧ 2 * r.offset < 256 ^ r.offsetSize)
    ⟨fun ⟨h1, h2, h3, h4, h5, h6, h7⟩ => ⟨h1, h2, h3, h4, h5, h6, h7⟩,
      fun ⟨h1, h2, h3, h4, h5, h6, h7⟩ => ⟨h1, h2, h3, h4, h5, h6, h7⟩⟩

def isSparse (r : Run) : Bool := r.offsetSize = 0

/-- The offsets whose sign extension shifts by 64. -/
def isWideNegative (r : Run) : Bool := r.offsetSize = 8 && r.offset < 0

end Run

def runListBytes (runs : List Run) : List UInt8 := runs.flatMap Run.bytes ++ [0]

/-- The clusters of the runs in order, the cluster number counted on from `lcn`; none for a sparse one. -/
def clustersOf : Int → List Run → List (Option Nat)
  | _, [] => []
  | lcn, r :: runs =>
    (List.range r.length).map (fun k => if r.isSparse then none else some ((lcn + r.offset).toNat + k)) ++
      clustersOf (lcn + r.offset) runs

def RunsInside (total : Nat) : Int → List Run → Prop
  | _, [] => True
  | lcn, r :: runs =>
    (r.isSparse = false → 0 ≤ lcn + r.offset ∧ lcn + r.offset + r.length ≤ total) ∧
      RunsInside total (lcn + r.offset) runs

instance decidableRunsInside (total : Nat) : ∀ (lcn : Int) (runs : List Run), Decidable (RunsInside total lcn runs)
  | _, [] => isTrue trivial
  | lcn, r :: runs =>
    have := decidableRunsInside total (lcn + r.offset) runs
    inferInstanceAs (Decidable (_ ∧ RunsInside total (lcn + r.offset) runs))

def StartsInside (total : Nat) : Int → List Run → Prop
  | _, [] => True
  | lcn, r :: runs =>
    (0 ≤ lcn + r.offset ∧ lcn + r.offset ≤ total) ∧ StartsInside total (lcn + r.offset) runs

def lastLCN (lcn : Int) (runs : List Run) : Int := runs.foldl (fun lcn r => lcn + r.offset) lcn

/-! ## Fields -/

theorem or_shift {acc x i : Nat} (hacc : acc < 256 ^ i) : acc ||| x <<< (i * 8) = acc + 256 ^ i * x := by
  have hpow : (256 : Nat) ^ i = 2 ^ (i * 8) := by
    rw [show (256 : Nat) = 2 ^ 8 from rfl, ← Nat.pow_mul, Nat.mul_comm]
  rw [hpow] at hacc ⊢
  rw [Nat.or_comm, Nat.shiftLeft_eq, Nat.mul_comm x, ← Nat.two_pow_add_eq_or_of_lt hacc, Nat.add_comm]

theorem or_byte {acc i : Nat} (hi : i < 8) (hacc : acc < 256 ^ i) (x : UInt8) :
    UInt64.ofNat acc ||| x.toUInt64 <<< UInt64.ofNat (i * 8) = UInt64.ofNat (acc + 256 ^ i * x.toNat) := by
  have hx : x.toUInt64 <<< UInt64.ofNat (i * 8) = UInt64.ofNat (x.toNat <<< (i * 8)) := by
    rw [UInt64.ofNat_shiftLeft _ _ (by omega), UInt64.ofNat_uInt8ToNat]
  rw [hx, ← UInt64.ofNat_or, or_shift hacc]

theorem acc_lt {acc i : Nat} (hacc : acc < 256 ^ i) (x : UInt8) : acc + 256 ^ i * x.toNat < 256 ^ (i + 1) := by
  have hlt := x.toNat_lt
  have hmul : 256 ^ i * x.toNat ≤ 256 ^ i * 255 := Nat.mul_le_mul_left _ (by omega)
  rw [Nat.pow_succ]
  omega

section
variable {b : ByteMap}

theorem readField_of_holds : ∀ (xs : List UInt8) (i pos acc : Nat), Holds b pos xs → i + xs.length ≤ 8 →
    acc < 256 ^ i → readField b xs.length i pos (UInt64.ofNat acc) = .ok (UInt64.ofNat (acc + 256 ^ i * leNat xs))
  | [], i, pos, acc, _, _, _ => by
    rw [leNat, Nat.mul_zero, Nat.add_zero]
    rfl
  | x :: xs, i, pos, acc, hb, hlen, hacc => by
    rw [List.length_cons] at hlen ⊢
    unfold readField
    rw [readByte_of_holds hb, ok_bind, if_neg (by omega), or_byte (by omega) hacc,
      readField_of_holds xs (i + 1) (pos + 1) _ hb.2 (by omega) (acc_lt hacc x), leNat, Nat.pow_succ, Nat.mul_add,
      Nat.mul_assoc, Nat.add_assoc]

theorem readField_leBytes {n x pos : Nat} (hb : Holds b pos (leBytes n x)) (hn : n ≤ 8) (hx : x < 256 ^ n) :
    readField b n 0 pos 0 = .ok (UInt64.ofNat x) := by
  have h := readField_of_holds (leBytes n x) 0 pos 0 hb (by rw [length_leBytes]; omega) (by decide)
  rw [length_leBytes, leNat_leBytes, Nat.mod_eq_of_lt hx, Nat.pow_zero, Nat.one_mul, Nat.zero_add] at h
  exact h

end

/-! ## Sign extension -/

theorem one_shift {k : Nat} (hk : k < 64) : (1 : UInt64) <<< UInt64.ofNat k = UInt64.ofNat (2 ^ k) := by
  rw [← Nat.one_shiftLeft, UInt64.ofNat_shiftLeft _ _ hk]
  rfl

theorem signBit_eq_zero_iff {n k : Nat} (hk : k < 64) (hn : n < 2 ^ (k + 1)) :
    UInt64.ofNat n &&& (1 <<< UInt64.ofNat k) = 0 ↔ n < 2 ^ k := by
  have hmod : n < 2 ^ 64 := Nat.lt_of_lt_of_le hn (Nat.pow_le_pow_right (by decide) hk)
  have hpow : 2 ^ k < 2 ^ 64 := Nat.pow_lt_pow_right (by decide) hk
  rw [one_shift hk, ← UInt64.toNat_inj, UInt64.toNat_and, UInt64.toNat_ofNat_of_lt' hmod,
    UInt64.toNat_ofNat_of_lt' hpow, Nat.and_two_pow]
  by_cases h : n < 2 ^ k
  · rw [Nat.testBit_lt_two_pow h]
    simp [h]
  · rw [Nat.testBit_of_two_pow_le_and_two_pow_add_one_gt (Nat.le_of_not_lt h) hn]
    simp [h]

theorem signExtend {n k : Nat} (hk : k < 64) (hn : n < 2 ^ k) :
    UInt64.ofNat n ||| ~~~((1 <<< UInt64.ofNat k) - 1) = UInt64.ofInt ((n : Int) - 2 ^ k) := by
  have hpow : 2 ^ k < 2 ^ 64 := Nat.pow_lt_pow_right (by decide) hk
  have hmask : (~~~((1 <<< UInt64.ofNat k) - 1 : UInt64)).toNat = 2 ^ k * (2 ^ (64 - k) - 1) := by
    have hone : (1 : UInt64) ≤ UInt64.ofNat (2 ^ k) := by
      rw [UInt64.le_iff_toNat_le, UInt64.toNat_ofNat_of_lt' hpow]
      exact Nat.one_le_two_pow
    rw [one_shift hk, UInt64.toNat_not, UInt64.toNat_sub_of_le _ _ hone, UInt64.toNat_ofNat_of_lt' hpow, Nat.mul_sub,
      ← Nat.pow_add, Nat.add_sub_cancel' (Nat.le_of_lt hk)]
    show 2 ^ 64 - 1 - (2 ^ k - 1) = _
    have := Nat.one_le_two_pow (n := k)
    omega
  have hsplit : 2 ^ k * (2 ^ (64 - k) - 1) = 2 ^ 64 - 2 ^ k := by
    rw [Nat.mul_sub, ← Nat.pow_add, Nat.add_sub_cancel' (Nat.le_of_lt hk), Nat.mul_one]
  apply UInt64.toNat_inj.mp
  rw [UInt64.toNat_or, hmask, UInt64.toNat_ofNat_of_lt' (Nat.lt_trans hn hpow), Nat.or_comm,
    ← Nat.two_pow_add_eq_or_of_lt hn, hsplit]
  unfold UInt64.ofInt
  rw [UInt64.toNat_ofNat']
  have hcast : ((2 : Int) ^ k) = ((2 ^ k : Nat) : Int) := by norm_cast
  rw [hcast]
  omega

theorem ofInt_natCast (n : Nat) : UInt64.ofInt n = UInt64.ofNat n := by
  unfold UInt64.ofInt
  apply UInt64.toNat_inj.mp
  rw [UInt64.toNat_ofNat', UInt64.toNat_ofNat']
  omega

def signed (size n : Nat) : Int := if 2 * n < 256 ^ size then n else n - 256 ^ size

theorem signed_mod {size : Nat} {x : Int} (hge : -256 ^ size ≤ 2 * x) (hlt : 2 * x < 256 ^ size) :
    signed size (x % 256 ^ size).toNat = x ∧ (256 ^ size ≤ 2 * (x % 256 ^ size).toNat ↔ x < 0) := by
  have hcast : (256 : Int) ^ size = ((256 ^ size : Nat) : Int) := by norm_cast
  unfold signed
  rw [hcast] at hge hlt ⊢
  have hpos : 0 < 256 ^ size := Nat.pow_pos (by decide)
  by_cases hneg : x < 0
  · have hval : x % ((256 ^ size : Nat) : Int) = x + (256 ^ size : Nat) := by
      rw [← Int.add_emod_right, Int.emod_eq_of_lt (by omega) (by omega)]
    rw [hval, if_neg (by omega)]
    omega
  · rw [Int.emod_eq_of_lt (by omega) (by omega), if_pos (by omega)]
    omega

theorem extendField_eq {size n : Nat} (hpos : size ≠ 0) (hsize : size ≤ 8) (hn : n < 256 ^ size) :
    (if UInt64.ofNat n &&& (1 <<< UInt64.ofNat (size * 8 - 1)) = 0 then .ok (UInt64.ofNat n)
      else if 64 ≤ size * 8 then .error .undefinedShift
      else .ok (UInt64.ofNat n ||| ~~~((1 <<< UInt64.ofNat (size * 8)) - 1)) : Except Fault UInt64) =
      if size = 8 ∧ 256 ^ size ≤ 2 * n then .error .undefinedShift else .ok (UInt64.ofInt (signed size n)) := by
  have hbits : size * 8 - 1 + 1 = size * 8 := by omega
  have hpow : (256 : Nat) ^ size = 2 ^ (size * 8) := by
    rw [show (256 : Nat) = 2 ^ 8 from rfl, ← Nat.pow_mul, Nat.mul_comm]
  have hhalf : 2 ^ (size * 8) = 2 * 2 ^ (size * 8 - 1) := by
    rw [← Nat.pow_succ', Nat.succ_eq_add_one, hbits]
  have hcast : (256 : Int) ^ size = 2 ^ (size * 8) := by
    have h : ((256 ^ size : Nat) : Int) = ((2 ^ (size * 8) : Nat) : Int) := congrArg Nat.cast hpow
    push_cast at h
    exact h
  have hsign := signBit_eq_zero_iff (n := n) (k := size * 8 - 1) (by omega) (by rw [hbits, ← hpow]; exact hn)
  unfold signed
  by_cases hlo : 2 * n < 256 ^ size
  · rw [if_pos (hsign.mpr (by omega)), if_neg (by omega), if_pos hlo, ofInt_natCast]
  · rw [if_neg (mt hsign.mp (by omega)), if_neg hlo]
    by_cases h8 : size = 8
    · rw [if_pos (by omega), if_pos ⟨h8, by omega⟩]
    · rw [if_neg (by omega), if_neg (by simp [h8]), signExtend (by omega) (by rw [← hpow]; exact hn), hcast]

theorem readRunOffset_of_holds {b : ByteMap} {r : Run} {pos : Nat} (hr : r.WellFormed)
    (hb : Holds b pos (leBytes r.offsetSize (r.offset % 256 ^ r.offsetSize).toNat)) :
    readRunOffset b r.offsetSize pos =
      if r.isWideNegative then .error .undefinedShift else .ok (UInt64.ofInt r.offset) := by
  obtain ⟨-, -, hle, -, -, hge, hlt⟩ := hr
  obtain ⟨hval, hneg⟩ := signed_mod hge hlt
  unfold readRunOffset
  by_cases h0 : r.offsetSize = 0
  · rw [h0, Int.pow_zero] at hge hlt
    have hoff : r.offset = 0 := by omega
    simp only [h0, hoff, Run.isWideNegative, if_true]
    rfl
  · have hn : (r.offset % 256 ^ r.offsetSize).toNat < 256 ^ r.offsetSize := by
      have hcast : (256 : Int) ^ r.offsetSize = ((256 ^ r.offsetSize : Nat) : Int) := by norm_cast
      have hpos : (0 : Int) < (256 ^ r.offsetSize : Nat) := Int.ofNat_lt.mpr (Nat.pow_pos (by decide))
      have hlt := Int.emod_lt_of_pos r.offset hpos
      rw [hcast]
      omega
    rw [if_neg h0, readField_leBytes hb hle hn, ok_bind, extendField_eq h0 hle hn, hval]
    simp only [hneg, Run.isWideNegative, Bool.and_eq_true, decide_eq_true_eq]

/-! ## Faults -/

section
variable {fault : Fault} (hfault : ∀ i, fault ≠ .outOfBounds i) (hshift : fault ≠ .undefinedShift) (b : ByteMap)
include hfault

theorem processDataAttribute_ne_error {drive : DriveInfo}
    (hruns : ∀ pos info, processRuns drive b drive.runRounds pos 0 info ≠ .error fault) (attr : Nat) (info : FileInfo) :
    processDataAttribute drive b attr info ≠ .error fault := by
  have hread : ∀ n i, readLE b n i ≠ .error fault := readLE_ne_error hfault b
  unfold processDataAttribute
  refine bind_ne_error (readByte_ne_error hfault b _) fun nonResident => ?_
  split
  · refine bind_ne_error (bind_ne_error (hread 2 _) fun _ => pure_ne_error) fun contentOffset => ?_
    refine bind_ne_error (bind_ne_error (hread 4 _) fun _ => pure_ne_error) fun contentLength => ?_
    exact bind_ne_error (readBytes_ne_error hfault b _ _) fun _ => pure_ne_error
  · refine bind_ne_error (bind_ne_error (hread 8 _) fun _ => pure_ne_error) fun realSize => ?_
    refine bind_ne_error (bind_ne_error (hread 2 _) fun _ => pure_ne_error) fun dataRunOffset => ?_
    exact hruns _ _

include hshift

theorem readField_ne_error : ∀ (count i pos : Nat) (acc : UInt64), readField b count i pos acc ≠ .error fault
  | 0, _, _, _ => pure_ne_error
  | count + 1, i, pos, acc => bind_ne_error (readByte_ne_error hfault b pos) fun x => by
      split
      · simpa using hshift.symm
      · exact readField_ne_error count (i + 1) (pos + 1) _

theorem readRunOffset_ne_error (offsetSize pos : Nat) : readRunOffset b offsetSize pos ≠ .error fault := by
  unfold readRunOffset
  split
  · simp
  · refine bind_ne_error (readField_ne_error hfault hshift b offsetSize 0 pos 0) fun x => ?_
    split
    · simp
    · split
      · simpa using hshift.symm
      · simp

end

/-! ## The loop -/

def FileInfo.setRun (info : FileInfo) (run : UInt64 × UInt64) : FileInfo :=
  { info with cluster := run.1, runLength := run.2, nonResident := true }

section
variable (drive : DriveInfo) (b : ByteMap)

/-- The values the loop assigns to `cluster` and `runLength`, in order. -/
def decodeRuns : Nat → Nat → UInt64 → Except Fault (List (UInt64 × UInt64))
  | 0, _, _ => .error .endless
  | rounds + 1, pos, currentLCN => do
    let header ← readByte b pos
    if header = 0 then .ok []
    else if lengthSize header = 0 then .ok []
    else do
      let runLength ← readField b (lengthSize header) 0 (pos + 1) 0
      let runOffset ← readRunOffset b (offsetSize header) (pos + 1 + lengthSize header)
      if drive.bootSector.sectorsPerCluster = 0 then .error .divisionByZero
      else if drive.lastCluster < currentLCN + runOffset then .ok []
      else do
        let runs ← decodeRuns rounds (pos + 1 + lengthSize header + offsetSize header) (currentLCN + runOffset)
        return (currentLCN + runOffset, runLength) :: runs

theorem processRuns_eq : ∀ (rounds pos : Nat) (currentLCN : UInt64) (info : FileInfo),
    processRuns drive b rounds pos currentLCN info = do
      let runs ← decodeRuns drive b rounds pos currentLCN
      return runs.foldl FileInfo.setRun info
  | 0, _, _, _ => rfl
  | rounds + 1, pos, currentLCN, info => by
    unfold processRuns decodeRuns
    cases readByte b pos with
    | error e => rfl
    | ok header =>
      rw [ok_bind, ok_bind]
      by_cases h0 : header = 0
      · rw [if_pos h0, if_pos h0]
        rfl
      · rw [if_neg h0, if_neg h0]
        by_cases hl : lengthSize header = 0
        · rw [if_pos hl, if_pos hl]
          rfl
        · rw [if_neg hl, if_neg hl]
          cases readField b (lengthSize header) 0 (pos + 1) 0 with
          | error e => rfl
          | ok runLength =>
            cases readRunOffset b (offsetSize header) (pos + 1 + lengthSize header) with
            | error e => rfl
            | ok runOffset =>
              rw [ok_bind, ok_bind, ok_bind, ok_bind]
              by_cases hspc : drive.bootSector.sectorsPerCluster = 0
              · rw [if_pos hspc, if_pos hspc]
                rfl
              · rw [if_neg hspc, if_neg hspc]
                by_cases hlast : drive.lastCluster < currentLCN + runOffset
                · rw [if_pos hlast, if_pos hlast]
                  rfl
                · rw [if_neg hlast, if_neg hlast, processRuns_eq rounds]
                  cases decodeRuns drive b rounds _ (currentLCN + runOffset) with
                  | error e => rfl
                  | ok runs => rfl

def assigned : Int → List Run → List (UInt64 × UInt64)
  | _, [] => []
  | lcn, r :: runs => (UInt64.ofInt (lcn + r.offset), UInt64.ofNat r.length) :: assigned (lcn + r.offset) runs

theorem header_fields : ∀ l < 16, ∀ o < 16,
    lengthSize (UInt8.ofNat (l + 16 * o)) = l ∧ offsetSize (UInt8.ofNat (l + 16 * o)) = o := by
  decide

end

theorem sparse_offset {r : Run} (hr : r.WellFormed) (hs : r.isSparse = true) : r.offset = 0 := by
  have h0 : r.offsetSize = 0 := by simpa [Run.isSparse] using hs
  have hge := hr.offset_ge
  have hlt := hr.offset_lt
  rw [h0, Int.pow_zero] at hge hlt
  omega

theorem next_inside {total : Nat} {lcn : Int} {r : Run} {runs : List Run} (hr : r.WellFormed)
    (hin : RunsInside total lcn (r :: runs)) (hlo : 0 ≤ lcn) (hhi : lcn ≤ total) :
    0 ≤ lcn + r.offset ∧ lcn + r.offset ≤ total := by
  cases hs : r.isSparse with
  | true =>
    rw [sparse_offset hr hs]
    omega
  | false =>
    have := hin.1 hs
    omega

theorem RunsInside.startsInside {total : Nat} : ∀ {runs : List Run} {lcn : Int}, RunsInside total lcn runs →
    (∀ r ∈ runs, r.WellFormed) → 0 ≤ lcn → lcn ≤ total → StartsInside total lcn runs
  | [], _, _, _, _, _ => trivial
  | r :: runs, lcn, hin, hwf, hlo, hhi => by
    have hnext := next_inside (hwf r (List.mem_cons_self ..)) hin hlo hhi
    exact ⟨hnext, startsInside hin.2 (fun r' hr' => hwf r' (List.mem_cons_of_mem _ hr')) hnext.1 hnext.2⟩

theorem not_lastCluster_lt {drive : DriveInfo} {lcn : Int} (hlo : 0 ≤ lcn) (hhi : lcn ≤ drive.lastCluster.toNat) :
    ¬ drive.lastCluster < UInt64.ofInt lcn := by
  obtain ⟨n, rfl⟩ := Int.eq_ofNat_of_zero_le hlo
  have hlast := drive.lastCluster.toNat_lt
  rw [ofInt_natCast, UInt64.lt_iff_toNat_lt, UInt64.toNat_ofNat_of_lt' (show n < 2 ^ 64 by omega)]
  omega

theorem holds_run {b : ByteMap} {r : Run} {runs : List Run} {pos : Nat} (hb : Holds b pos (runListBytes (r :: runs))) :
    readByte b pos = .ok (UInt8.ofNat (r.lengthSize + 16 * r.offsetSize)) ∧
      Holds b (pos + 1) (leBytes r.lengthSize r.length) ∧
      Holds b (pos + 1 + r.lengthSize) (leBytes r.offsetSize (r.offset % 256 ^ r.offsetSize).toNat) ∧
      Holds b (pos + 1 + r.lengthSize + r.offsetSize) (runListBytes runs) := by
  unfold runListBytes at hb ⊢
  rw [List.flatMap_cons, List.append_assoc, holds_append] at hb
  obtain ⟨hrun, hrest⟩ := hb
  have hfields := hrun.2
  rw [holds_append, length_leBytes] at hfields
  refine ⟨readByte_of_holds hrun, hfields.1, hfields.2, ?_⟩
  rw [Run.bytes, List.length_cons, List.length_append, length_leBytes, length_leBytes] at hrest
  rw [Nat.add_right_comm pos 1, Nat.add_right_comm _ 1, Nat.add_assoc pos]
  exact hrest

section
variable {drive : DriveInfo} {b : ByteMap} (hspc : drive.bootSector.sectorsPerCluster ≠ 0)
include hspc

theorem decodeRuns_of_holds : ∀ (runs : List Run) (rounds pos : Nat) (lcn : Int), Holds b pos (runListBytes runs) →
    (∀ r ∈ runs, r.WellFormed) → StartsInside drive.lastCluster.toNat lcn runs → runs.length < rounds →
    decodeRuns drive b rounds pos (UInt64.ofInt lcn) =
      if runs.any Run.isWideNegative then .error .undefinedShift else .ok (assigned lcn runs)
  | [], rounds + 1, pos, lcn, hb, _, _, _ => by
    unfold decodeRuns
    rw [readByte_of_holds hb]
    rfl
  | r :: runs, rounds + 1, pos, lcn, hb, hwf, ⟨hcur, hin⟩, hrounds => by
    have hr := hwf r (List.mem_cons_self ..)
    obtain ⟨hheader, hlen, hoff, hrest⟩ := holds_run hb
    obtain ⟨hl, ho⟩ := header_fields r.lengthSize (by have := hr.lengthSize_le; omega) r.offsetSize
      (by have := hr.offsetSize_le; omega)
    have hlpos := hr.lengthSize_pos
    have hne : UInt8.ofNat (r.lengthSize + 16 * r.offsetSize) ≠ 0 := by
      intro h
      rw [h] at hl
      rw [← hl] at hlpos
      exact absurd hlpos (by decide)
    have hsum : UInt64.ofInt lcn + UInt64.ofInt r.offset = UInt64.ofInt (lcn + r.offset) := (UInt64.ofInt_add ..).symm
    unfold decodeRuns
    rw [hheader, ok_bind, if_neg hne, hl, if_neg (by omega), readField_leBytes hlen hr.lengthSize_le hr.length_lt,
      ok_bind, ho, readRunOffset_of_holds hr hoff, List.any_cons]
    cases hwide : r.isWideNegative with
    | true => rfl
    | false =>
      rw [if_neg (by simp), ok_bind, if_neg hspc, hsum, if_neg (not_lastCluster_lt hcur.1 hcur.2),
        decodeRuns_of_holds runs rounds _ (lcn + r.offset) hrest (fun r' hr' => hwf r' (List.mem_cons_of_mem _ hr'))
          hin (Nat.lt_of_succ_lt_succ hrounds),
        Bool.false_or]
      cases runs.any Run.isWideNegative with
      | true => rfl
      | false => rfl

end

end DataRecovery.NTFS
