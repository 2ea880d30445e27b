import Mathlib.Data.Fintype.EquivFin
import DataRecovery.Device

/-!
# Cluster lookups shared by FAT32 and exFAT

Both engines read a 32-bit table entry through one sector buffer and mask it to
28 bits. A sector size that is no multiple of 4 lets the word run over the end
of the buffer; `pastEnd` is whatever memory holds there.
-/

namespace DataRecovery

def wordAt (buffer : List UInt8) (pastEnd : Nat → UInt8) (off : Nat) : UInt32 :=
  .ofNat (leNat ((List.range 4).map fun i => buffer.getD (off + i) (pastEnd (off + i - buffer.length))))

/-- The cluster a table entry stands for: the low 28 bits, with the markers mapped
to the engine's own. -/
def decodeEntry (fatEntry : UInt32) : UInt32 :=
  let nextCluster := fatEntry &&& 0x0FFFFFFF
  if 0x0FFFFFF8 ≤ nextCluster then
    if nextCluster = 0x0FFFFFFF then 0xFFFFFFFF else 0xFFFFFFF7
  else nextCluster

theorem decodeEntry_eq_zero_iff {fatEntry : UInt32} : decodeEntry fatEntry = 0 ↔ fatEntry &&& 0x0FFFFFFF = 0 := by
  unfold decodeEntry
  dsimp only
  split
  · rename_i hmarker
    refine iff_of_false ?_ fun h => ?_
    · split
      · decide
      · decide
    · rw [h] at hmarker
      exact absurd hmarker (by decide)
  · rfl

/-- `getNextCluster` for a table that starts at sector `base`. -/
def fatLookup (read : UInt64 → Option (List UInt8)) (base bytesPerSector : UInt32) (pastEnd : Nat → UInt8)
    (cluster : UInt32) : UInt32 :=
  let fatOffset := cluster * 4
  let fatSector := base + fatOffset / bytesPerSector
  let entryOffset := fatOffset % bytesPerSector
  match read fatSector.toUInt64 with
  | none => 0xFFFFFFFF
  | some sectorBuffer => decodeEntry (wordAt sectorBuffer pastEnd entryOffset.toNat)

def clusterInRange (last bad cluster : UInt32) : Bool :=
  if cluster < 2 || last < cluster then false
  else if bad ≤ cluster then false
  else true

theorem finite_uint32 : Finite UInt32 :=
  Finite.of_injective UInt32.toFin fun _ _ h => UInt32.toFin_inj.mp h

theorem clusterInRange_iff {last bad c : UInt32} :
    clusterInRange last bad c = true ↔ 2 ≤ c ∧ c ≤ last ∧ c < bad := by
  unfold clusterInRange
  simp only [UInt32.le_iff_toNat_le, UInt32.lt_iff_toNat_lt]
  split
  · rename_i h; simp at h; simp; omega
  · rename_i h
    simp at h
    split <;> simp <;> omega

theorem wordAt_eq_le32 {buffer : List UInt8} (pastEnd : Nat → UInt8) {off : Nat} (h : off + 4 ≤ buffer.length) :
    wordAt buffer pastEnd off = le32 buffer off := by
  unfold wordAt le32
  congr 2
  apply List.ext_getElem
  · rw [List.length_map, List.length_range, slice, List.length_take, List.length_drop]
    omega
  · intro i hi _
    have hi : i < 4 := by rwa [List.length_map, List.length_range] at hi
    rw [List.getElem_map, List.getElem_range, List.getD_eq_getElem?_getD, List.getElem?_eq_getElem (by omega)]
    simp only [slice, List.getElem_take, List.getElem_drop, Option.getD_some]

/-! ## Lookups on a readable volume -/

def volumeWord (volume : Nat → UInt8) (off : Nat) : UInt32 :=
  .ofNat (leNat ((List.range 4).map fun i => volume (off + i)))

theorem wordAt_read (volume : Nat → UInt8) (pastEnd : Nat → UInt8) (start size off : Nat) (h : off + 4 ≤ size) :
    wordAt ((List.range size).map fun i => volume (start + i)) pastEnd off = volumeWord volume (start + off) := by
  unfold wordAt volumeWord
  congr 2
  apply List.map_congr_left
  intro i hi
  have hi : i < 4 := List.mem_range.mp hi
  rw [List.getD_eq_getElem?_getD, List.getElem?_map, List.getElem?_range (by omega)]
  simp only [Option.map_some, Option.getD_some]
  rw [Nat.add_assoc]

theorem entry_in_sector {fatOffset size : Nat} (h : 4 ∣ size) (hpos : 0 < size) (ho : 4 ∣ fatOffset) :
    fatOffset % size + 4 ≤ size := by
  have hlt := Nat.mod_lt fatOffset hpos
  have hdvd : 4 ∣ fatOffset % size := (Nat.dvd_mod_iff h).mpr ho
  omega

theorem fatLookup_ofVolume (volume pastEnd : Nat → UInt8) (base size cluster n : UInt32) (m : UInt64)
    (h : 4 ∣ size.toNat) (hpos : 0 < size.toNat) :
    fatLookup (fun s => (Device.ofVolume volume n m).readSector s size) base size pastEnd cluster =
      decodeEntry (volumeWord volume
        ((base + cluster * 4 / size).toNat * size.toNat + (cluster * 4).toNat % size.toNat)) := by
  have hoff : 4 ∣ (cluster * 4).toNat := by
    rw [UInt32.toNat_mul]
    exact (Nat.dvd_mod_iff (by decide)).mpr ⟨cluster.toNat, Nat.mul_comm ..⟩
  have hin := entry_in_sector h hpos hoff
  have hmul : ∀ s : UInt32, (s.toUInt64 * size.toUInt64).toNat = s.toNat * size.toNat := by
    intro s
    have hs := s.toNat_lt
    have hz := size.toNat_lt
    rw [UInt64.toNat_mul, UInt32.toNat_toUInt64, UInt32.toNat_toUInt64, Nat.mod_eq_of_lt]
    exact Nat.lt_of_lt_of_le (Nat.mul_lt_mul'' hs hz) (by decide)
  simp only [fatLookup, Device.ofVolume, hmul, UInt32.toNat_mod]
  rw [wordAt_read _ _ _ _ _ hin]

end DataRecovery
