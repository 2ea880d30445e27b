import DataRecovery.NTFS.RunList
import Mathlib.Data.Nat.Find

/-!
# Encoded run lists

A file's runs are stored with their lengths and the differences of their first clusters in
as few bytes as hold them. In a volume of fewer than `2 ^ 55` clusters a difference takes at
most seven, so the shift by 64 does not occur and the loop gives the runs back.
-/

namespace DataRecovery.NTFS

structure Extent (total : Nat) where
  lcn : Nat
  length : Nat
  lcn_lt : lcn < total
  length_pos : 1 ≤ length
  length_lt : length < 2 ^ 64

/-! ## The fewest bytes -/

theorem exists_bytes (n : Nat) : ∃ k, 1 ≤ k ∧ n < 256 ^ k :=
  ⟨n + 1, Nat.succ_pos n, Nat.lt_trans (Nat.lt_succ_self n) (Nat.lt_pow_self (by decide))⟩

theorem exists_signedBytes (d : Int) : ∃ k, 1 ≤ k ∧ -256 ^ k ≤ 2 * d ∧ 2 * d < 256 ^ k := by
  obtain ⟨k, hpos, hlt⟩ := exists_bytes (2 * d).natAbs
  have hcast : (256 : Int) ^ k = ((256 ^ k : Nat) : Int) := by norm_cast
  refine ⟨k, hpos, ?_, ?_⟩ <;> rw [hcast] <;> omega

def lengthBytes (n : Nat) : Nat := Nat.find (exists_bytes n)

def offsetBytes (d : Int) : Nat := Nat.find (exists_signedBytes d)

theorem lengthBytes_le {n k : Nat} (hpos : 1 ≤ k) (h : n < 256 ^ k) : lengthBytes n ≤ k :=
  Nat.find_min' (exists_bytes n) ⟨hpos, h⟩

theorem offsetBytes_le {d : Int} {k : Nat} (hpos : 1 ≤ k) (hge : -256 ^ k ≤ 2 * d) (hlt : 2 * d < 256 ^ k) :
    offsetBytes d ≤ k :=
  Nat.find_min' (exists_signedBytes d) ⟨hpos, hge, hlt⟩

/-! ## The encoding -/

section
variable {total : Nat}

/-- The stored run of an extent that follows one starting at `previous`. -/
def Extent.toRun (previous : Int) (e : Extent total) : Run where
  lengthSize := lengthBytes e.length
  length := e.length
  offsetSize := offsetBytes (e.lcn - previous)
  offset := e.lcn - previous

def encodeRuns : Int → List (Extent total) → List Run
  | _, [] => []
  | previous, e :: es => e.toRun previous :: encodeRuns e.lcn es

def Extent.assigned (e : Extent total) : UInt64 × UInt64 := (UInt64.ofNat e.lcn, UInt64.ofNat e.length)

theorem length_encodeRuns : ∀ (previous : Int) (es : List (Extent total)), (encodeRuns previous es).length = es.length
  | _, [] => rfl
  | _, e :: es => congrArg Nat.succ (length_encodeRuns e.lcn es)

theorem Extent.add_offset (previous : Int) (e : Extent total) : previous + (e.toRun previous).offset = e.lcn := by
  show previous + (e.lcn - previous) = e.lcn
  omega

theorem assigned_encodeRuns : ∀ (previous : Int) (es : List (Extent total)),
    assigned previous (encodeRuns previous es) = es.map Extent.assigned
  | _, [] => rfl
  | previous, e :: es => by
    rw [encodeRuns, NTFS.assigned, e.add_offset, ofInt_natCast, assigned_encodeRuns e.lcn es]
    rfl

theorem startsInside_encodeRuns : ∀ (previous : Int) (es : List (Extent total)),
    StartsInside total previous (encodeRuns previous es)
  | _, [] => trivial
  | previous, e :: es => by
    have hlt := e.lcn_lt
    rw [encodeRuns, StartsInside, e.add_offset]
    exact ⟨by omega, startsInside_encodeRuns e.lcn es⟩

variable (htotal : total < 2 ^ 55)
include htotal

theorem Extent.offsetSize_le {previous : Int} (e : Extent total) (hlo : 0 ≤ previous) (hhi : previous ≤ total) :
    (e.toRun previous).offsetSize ≤ 7 := by
  have hlt := e.lcn_lt
  exact offsetBytes_le (by decide) (by omega) (by omega)

theorem Extent.wellFormed {previous : Int} (e : Extent total) (hlo : 0 ≤ previous) (hhi : previous ≤ total) :
    (e.toRun previous).WellFormed where
  lengthSize_pos := (Nat.find_spec (exists_bytes e.length)).1
  lengthSize_le := lengthBytes_le (by decide) e.length_lt
  offsetSize_le := Nat.le_succ_of_le (e.offsetSize_le htotal hlo hhi)
  length_pos := e.length_pos
  length_lt := (Nat.find_spec (exists_bytes e.length)).2
  offset_ge := (Nat.find_spec (exists_signedBytes (e.lcn - previous))).2.1
  offset_lt := (Nat.find_spec (exists_signedBytes (e.lcn - previous))).2.2

theorem Extent.isWideNegative_eq {previous : Int} (e : Extent total) (hlo : 0 ≤ previous) (hhi : previous ≤ total) :
    (e.toRun previous).isWideNegative = false := by
  have hle := e.offsetSize_le htotal hlo hhi
  have hne : (e.toRun previous).offsetSize ≠ 8 := by omega
  unfold Run.isWideNegative
  rw [decide_eq_false hne, Bool.false_and]

theorem encodeRuns_narrow : ∀ (previous : Int) (es : List (Extent total)), 0 ≤ previous → previous ≤ total →
    ∀ r ∈ encodeRuns previous es, r.WellFormed ∧ r.isWideNegative = false
  | previous, e :: es, hlo, hhi, r, hr => by
    have hlt := e.lcn_lt
    rcases List.mem_cons.mp hr with rfl | hr
    · exact ⟨e.wellFormed htotal hlo hhi, e.isWideNegative_eq htotal hlo hhi⟩
    · exact encodeRuns_narrow e.lcn es (by omega) (by omega) r hr

end

/-- In a volume of fewer than `2 ^ 55` clusters the loop assigns the encoded runs in order. -/
theorem decodeRuns_encodeRuns {drive : DriveInfo} (hclusters : drive.lastCluster.toNat < 2 ^ 55)
    {es : List (Extent drive.lastCluster.toNat)} (hne : es ≠ []) {b : ByteMap} {pos rounds : Nat}
    (hb : Holds b pos (runListBytes (encodeRuns 0 es))) (hrounds : es.length < rounds) :
    decodeRuns drive b rounds pos 0 = .ok (es.map Extent.assigned) ∧
      ∀ info, processRuns drive b rounds pos 0 info = .ok ((es.map Extent.assigned).foldl FileInfo.setRun info) := by
  have hspc : drive.bootSector.sectorsPerCluster ≠ 0 := by
    intro hzero
    have hlast : drive.lastCluster.toNat = 0 := by
      unfold DriveInfo.lastCluster
      rw [hzero, UInt64.toNat_div]
      exact Nat.div_zero _
    obtain ⟨e, -⟩ := List.exists_mem_of_ne_nil es hne
    have hlt := e.lcn_lt
    omega
  have hnarrow := encodeRuns_narrow hclusters 0 es (Int.le_refl 0) (Int.natCast_nonneg _)
  have hwide : (encodeRuns 0 es).any Run.isWideNegative = false :=
    List.any_eq_false.mpr fun r hr => by simp [(hnarrow r hr).2]
  have hdecode := decodeRuns_of_holds hspc (encodeRuns 0 es) rounds pos 0 hb (fun r hr => (hnarrow r hr).1)
    (startsInside_encodeRuns 0 es) (by rwa [length_encodeRuns])
  rw [hwide, if_neg (by simp), assigned_encodeRuns] at hdecode
  have hruns : decodeRuns drive b rounds pos 0 = .ok (es.map Extent.assigned) := hdecode
  refine ⟨hruns, fun info => ?_⟩
  rw [processRuns_eq, hruns]
  rfl

def smallExtents : List (Extent smallDrive.lastCluster.toNat) :=
  [⟨5, 3, by decide, by decide, by decide⟩, ⟨2, 300, by decide, by decide, by decide⟩]

def smallRunList : List UInt8 := [0x11, 0x03, 0x05, 0x12, 0x2C, 0x01, 0xFD, 0x00]

theorem decodeRuns_encodeRuns_small :
    decodeRuns smallDrive (ofBuffer smallRunList) 3 0 0 = .ok [(5, 3), (2, 300)] ∧
      ∀ info, processRuns smallDrive (ofBuffer smallRunList) 3 0 0 info = .ok ((info.setRun (5, 3)).setRun (2, 300)) :=
  @decodeRuns_encodeRuns smallDrive (by decide) smallExtents (by decide) (ofBuffer smallRunList) 0 3 (by decide +kernel)
    (by decide)

end DataRecovery.NTFS
