import DataRecovery.FAT32.Geometry
import DataRecovery.FAT32.ListedOnce

/-!
# FAT32 addresses

When the geometry fits the volume, the 32-bit sector number of an accepted cluster is
exact, no two of them share a sector, and a table that is large enough holds the entry of
each at four times its number.
-/

namespace DataRecovery.FAT32

/-! ## Bytes of the table -/

theorem mapM_bytes {buffer : List UInt8} {off : Nat} (h : off + 4 ≤ buffer.length) :
    ((List.range 4).mapM fun i => buffer[off + i]?) = some (slice buffer off 4) := by
  have hbyte : ∀ i < 4, buffer[off + i]? = some (buffer.getD (off + i) 0) := by
    intro i hi
    rw [List.getD_eq_getElem?_getD, List.getElem?_eq_getElem (by omega), Option.getD_some]
  rw [slice_succ (by omega), slice_succ (by omega), slice_succ (by omega), slice_succ (by omega)]
  simp only [show List.range 4 = [0, 1, 2, 3] from rfl, List.mapM_cons, List.mapM_nil]
  rw [hbyte 0 (by omega), hbyte 1 (by omega), hbyte 2 (by omega), hbyte 3 (by omega)]
  simp [slice]

/-- The bytes of an entry are next to each other in one sector. -/
theorem entry_split {size fatOffset i : Nat} (hdvd : 4 ∣ size) (hpos : 0 < size) (hoff : 4 ∣ fatOffset) (hi : i < 4) :
    (fatOffset + i) / size = fatOffset / size ∧ (fatOffset + i) % size = fatOffset % size + i := by
  have hin := entry_in_sector hdvd hpos hoff
  have hlt : fatOffset % size + i < size := by omega
  have hsplit : fatOffset + i = fatOffset % size + i + size * (fatOffset / size) := by
    have := Nat.mod_add_div fatOffset size
    omega
  constructor
  · rw [hsplit, Nat.add_mul_div_left _ _ hpos, Nat.div_eq_of_lt hlt, Nat.zero_add]
  · rw [hsplit, Nat.add_mul_mod_self_left, Nat.mod_eq_of_lt hlt]

namespace Volume
variable (v : Volume)

def fatByte (k : Nat) : Option UInt8 :=
  (v.readSector (.ofNat (v.bootSector.reservedSectorCount.toNat + k / v.bootSector.bytesPerSector.toNat))).bind
    fun buffer => buffer[k % v.bootSector.bytesPerSector.toNat]?

structure LooksUpEntry (c : UInt32) : Prop where
  sector : (v.driveInfo.fatStartSector + c * 4 / v.bytesPerSector).toNat =
    v.bootSector.reservedSectorCount.toNat + 4 * c.toNat / v.bootSector.bytesPerSector.toNat
  in_buffer : (c * 4 % v.bytesPerSector).toNat + 4 ≤ v.bootSector.bytesPerSector.toNat
  in_table : 4 * c.toNat + 4 ≤ v.bootSector.fatSize32.toNat * v.bootSector.bytesPerSector.toNat
  decoded : v.getNextCluster c = ((List.range 4).mapM fun i => v.fatByte (4 * c.toNat + i)).elim 0xFFFFFFFF
    fun bytes => decodeEntry (.ofNat (leNat bytes))

section
variable {v} {c : UInt32} (hdvd : 4 ∣ v.bootSector.bytesPerSector.toNat) (hc : c < BAD_CLUSTER)

include hc in
theorem fatOffset_toNat : (c * 4).toNat = 4 * c.toNat := by
  have hlt := UInt32.lt_iff_toNat_lt.mp hc
  have hbad : BAD_CLUSTER.toNat = 0x0FFFFFF7 := rfl
  rw [UInt32.toNat_mul, show (4 : UInt32).toNat = 4 from rfl, Nat.mod_eq_of_lt (by omega), Nat.mul_comm]

include hc in
theorem fatSector_toNat : (v.driveInfo.fatStartSector + c * 4 / v.bytesPerSector).toNat =
    v.bootSector.reservedSectorCount.toNat + 4 * c.toNat / v.bootSector.bytesPerSector.toNat := by
  have hlt := UInt32.lt_iff_toNat_lt.mp hc
  have hbad : BAD_CLUSTER.toNat = 0x0FFFFFF7 := rfl
  have hreserved := v.bootSector.reservedSectorCount.toNat_lt
  have hdiv : 4 * c.toNat / v.bootSector.bytesPerSector.toNat ≤ 4 * c.toNat := Nat.div_le_self _ _
  have hsize : v.bytesPerSector.toNat = v.bootSector.bytesPerSector.toNat := UInt16.toNat_toUInt32 _
  have hstart : v.driveInfo.fatStartSector.toNat = v.bootSector.reservedSectorCount.toNat := UInt16.toNat_toUInt32 _
  rw [UInt32.toNat_add, UInt32.toNat_div, fatOffset_toNat hc, hsize, hstart, Nat.mod_eq_of_lt (by omega)]

include hc in
theorem entryOffset_toNat :
    (c * 4 % v.bytesPerSector).toNat = 4 * c.toNat % v.bootSector.bytesPerSector.toNat := by
  have hsize : v.bytesPerSector.toNat = v.bootSector.bytesPerSector.toNat := UInt16.toNat_toUInt32 _
  rw [UInt32.toNat_mod, fatOffset_toNat hc, hsize]

include hdvd

theorem entry_in_buffer (c : Nat) :
    4 * c % v.bootSector.bytesPerSector.toNat + 4 ≤ v.bootSector.bytesPerSector.toNat :=
  entry_in_sector hdvd (UInt16.lt_iff_toNat_lt.mp v.bytesPerSector_pos) (Nat.dvd_mul_right 4 c)

theorem fatByte_entry (c : Nat) {i : Nat} (hi : i < 4) : v.fatByte (4 * c + i) =
    (v.readSector (.ofNat (v.bootSector.reservedSectorCount.toNat + 4 * c / v.bootSector.bytesPerSector.toNat))).bind
      fun buffer => buffer[4 * c % v.bootSector.bytesPerSector.toNat + i]? := by
  obtain ⟨hdiv, hmod⟩ := entry_split hdvd (UInt16.lt_iff_toNat_lt.mp v.bytesPerSector_pos) (Nat.dvd_mul_right 4 c) hi
  unfold fatByte
  rw [hdiv, hmod]

include hc

theorem getNextCluster_eq : v.getNextCluster c =
    (v.readSector (.ofNat (v.bootSector.reservedSectorCount.toNat + 4 * c.toNat / v.bootSector.bytesPerSector.toNat))).elim
      0xFFFFFFFF fun buffer => decodeEntry (le32 buffer (4 * c.toNat % v.bootSector.bytesPerSector.toNat)) := by
  have hsector : (v.driveInfo.fatStartSector + c * 4 / v.bytesPerSector).toUInt64 =
      .ofNat (v.bootSector.reservedSectorCount.toNat + 4 * c.toNat / v.bootSector.bytesPerSector.toNat) := by
    rw [← fatSector_toNat hc]
    exact (UInt64.ofNat_uInt32ToNat _).symm
  have hsize : v.bytesPerSector.toNat = v.bootSector.bytesPerSector.toNat := UInt16.toNat_toUInt32 _
  unfold getNextCluster fatLookup
  dsimp only
  rw [hsector, entryOffset_toNat hc]
  cases hread : v.readSector _ with
  | none => rfl
  | some buffer =>
    have hlen : buffer.length = v.bytesPerSector.toNat := v.device.length_of_read hread
    dsimp only [Option.elim]
    rw [wordAt_eq_le32 _ (by rw [hlen, hsize]; exact entry_in_buffer hdvd c.toNat)]

theorem looksUpEntry (htable : 4 * c.toNat + 4 ≤ v.bootSector.fatSize32.toNat * v.bootSector.bytesPerSector.toNat) :
    v.LooksUpEntry c := by
  refine ⟨fatSector_toNat hc, ?_, htable, ?_⟩
  · rw [entryOffset_toNat hc]
    exact entry_in_buffer hdvd c.toNat
  · have hbytes : ((List.range 4).mapM fun i => v.fatByte (4 * c.toNat + i)) =
        (v.readSector (.ofNat
          (v.bootSector.reservedSectorCount.toNat + 4 * c.toNat / v.bootSector.bytesPerSector.toNat))).bind
            fun buffer => (List.range 4).mapM fun i =>
              buffer[4 * c.toNat % v.bootSector.bytesPerSector.toNat + i]? := by
      have hbyte := fun i (hi : i < 4) => fatByte_entry hdvd c.toNat hi
      simp only [show List.range 4 = [0, 1, 2, 3] from rfl, List.mapM_cons, List.mapM_nil]
      rw [hbyte 0 (by omega), hbyte 1 (by omega), hbyte 2 (by omega), hbyte 3 (by omega)]
      cases v.readSector _ with
      | none => rfl
      | some buffer => rfl
    rw [getNextCluster_eq hdvd hc, hbytes]
    cases hread : v.readSector _ with
    | none => rfl
    | some buffer =>
      have hlen : buffer.length = v.bytesPerSector.toNat := v.device.length_of_read hread
      have hsize : v.bytesPerSector.toNat = v.bootSector.bytesPerSector.toNat := UInt16.toNat_toUInt32 _
      rw [Option.bind_some, mapM_bytes (by rw [hlen, hsize]; exact entry_in_buffer hdvd c.toNat)]
      rfl

end

end Volume

/-! ## Clusters -/

structure ExactAddressing (v : Volume) : Prop where
  number : ∀ c, v.isValidCluster c = true → (v.clusterToSector c).toNat =
    v.driveInfo.dataStartSector.toNat + (c.toNat - 2) * v.bootSector.sectorsPerCluster.toNat
  inside : ∀ c, v.isValidCluster c = true → ∀ sector ∈ v.sectorsOf c,
    v.driveInfo.dataStartSector.toNat ≤ sector.toNat ∧ sector.toNat < v.bootSector.totalSectors.toNat
  disjoint : ∀ c d, v.isValidCluster c = true → v.isValidCluster d = true → c ≠ d →
    (v.sectorsOf c).Disjoint (v.sectorsOf d)
  entry : 4 ∣ v.bootSector.bytesPerSector.toNat →
    4 * (v.driveInfo.maxClusterCount.toNat + 1) ≤
      v.bootSector.fatSize32.toNat * v.bootSector.bytesPerSector.toNat →
    ∀ c, v.isValidCluster c = true → v.LooksUpEntry c

section
variable {v : Volume} (hfits : v.bootSector.Fits) {c : UInt32} (hc : v.isValidCluster c = true)
include hfits hc

/-- The clusters end inside the volume. -/
theorem cluster_end_le : v.driveInfo.dataStartSector.toNat + (c.toNat - 2) * v.bootSector.sectorsPerCluster.toNat +
    v.bootSector.sectorsPerCluster.toNat ≤ v.bootSector.totalSectors.toNat := by
  obtain ⟨htwo, hmax, -⟩ := v.isValidCluster_iff.mp hc
  have htwo : 2 ≤ c.toNat := UInt32.le_iff_toNat_le.mp htwo
  have hmax : c.toNat ≤ v.driveInfo.maxClusterCount.toNat := UInt32.le_iff_toNat_le.mp hmax
  have hexact := exactGeometry_of_le hfits.bytesPerSector_ne hfits.start_le
  have hstart : v.driveInfo.dataStartSector.toNat = v.bootSector.dataStart := hexact.dataStartSector
  have hle : v.bootSector.dataStart ≤ v.bootSector.totalSectors.toNat := hexact.dataStart_le
  have hclusters : v.driveInfo.maxClusterCount.toNat * v.bootSector.sectorsPerCluster.toNat ≤
    v.bootSector.totalSectors.toNat - v.bootSector.dataStart := hexact.clusters_le
  have hmul : (c.toNat - 2 + 1) * v.bootSector.sectorsPerCluster.toNat ≤
      v.driveInfo.maxClusterCount.toNat * v.bootSector.sectorsPerCluster.toNat := Nat.mul_le_mul_right _ (by omega)
  rw [Nat.succ_mul] at hmul
  omega

theorem clusterToSector_exact : (v.clusterToSector c).toNat =
    v.driveInfo.dataStartSector.toNat + (c.toNat - 2) * v.bootSector.sectorsPerCluster.toNat := by
  have hend := cluster_end_le hfits hc
  have htotal := v.bootSector.totalSectors.toNat_lt
  have hspc := UInt8.lt_iff_toNat_lt.mp v.sectorsPerCluster_pos
  rw [(clusterToSector_toNat v hc).2, Nat.mod_eq_of_lt]
  exact Nat.lt_of_lt_of_le (Nat.lt_add_of_pos_right hspc) (Nat.le_trans hend (Nat.le_of_lt htotal))

end

theorem addressing_exact (v : Volume) (hfits : v.bootSector.Fits) : ExactAddressing v := by
  refine ⟨fun c hc => clusterToSector_exact hfits hc, fun c hc sector hsector => ?_,
    fun c d hc hd hne sector hsc hsd => hne (sectorsOf_inj v hc hd hsc hsd), fun hdvd htable c hc => ?_⟩
  · obtain ⟨i, hi, heq⟩ := mem_sectorsOf v hsector
    have hend := cluster_end_le hfits hc
    rw [clusterToSector_exact hfits hc] at heq
    omega
  · obtain ⟨-, hmax, hbad⟩ := v.isValidCluster_iff.mp hc
    have hmax : c.toNat ≤ v.driveInfo.maxClusterCount.toNat := UInt32.le_iff_toNat_le.mp hmax
    exact Volume.looksUpEntry hdvd hbad (by omega)

theorem addressing_exact_small : ExactAddressing (smallVolume []) :=
  addressing_exact (smallVolume []) ⟨by decide, by decide, by decide⟩

end DataRecovery.FAT32
