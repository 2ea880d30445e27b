import DataRecovery.FAT32.Volume

/-!
# The geometry of a FAT32 boot sector

The numbers `readBootSector` computes in 32 bits, and the integers they stand for. Once both
divisors are positive they agree when the areas in front of the clusters are inside the volume.
-/

namespace DataRecovery.FAT32

namespace BootSector

/-- The fields are in the first 90 bytes. -/
theorem ofBytes_append {bytes : List UInt8} (h : 90 ≤ bytes.length) (rest : List UInt8) :
    ofBytes (bytes ++ rest) = ofBytes bytes := by
  have hbyte : ∀ off < 90, (bytes ++ rest).getD off 0 = bytes.getD off 0 := fun off hoff => by
    rw [List.getD_eq_getElem?_getD, List.getElem?_append_left (by omega), List.getD_eq_getElem?_getD]
  have hslice : ∀ off n, off + n ≤ 90 → slice (bytes ++ rest) off n = slice bytes off n :=
    fun off n hoff => slice_append (by omega) rest
  simp only [ofBytes, le16, le32]
  rw [hbyte 13 (by omega), hbyte 16 (by omega)]
  simp only [Nat.reduceAdd, Nat.reduceLeDiff, hslice]

variable (b : BootSector)

def HasSignature : Prop := b.fileSystemType.take 5 = "FAT32".toList.map fun c => UInt8.ofNat c.toNat

instance : Decidable b.HasSignature := inferInstanceAs (Decidable (_ = _))

def dataStart : Nat := b.reservedSectorCount.toNat + b.numFATs.toNat * b.fatSize32.toNat

def rootDir : Nat := (b.rootEntryCount.toNat * 32 + (b.bytesPerSector.toNat - 1)) / b.bytesPerSector.toNat

theorem rootDir_lt : b.rootDir < 2 ^ 22 := by
  have hentries := b.rootEntryCount.toNat_lt
  have hbytes := b.bytesPerSector.toNat_lt
  refine Nat.lt_of_le_of_lt (Nat.div_le_self _ _) ?_
  omega

structure Fits : Prop where
  bytesPerSector_ne : b.bytesPerSector ≠ 0
  sectorsPerCluster_ne : b.sectorsPerCluster ≠ 0
  start_le : b.dataStart + b.rootDir ≤ b.totalSectors.toNat

theorem dataStartSector_toNat : (DriveInfo.ofBootSector b).dataStartSector.toNat = b.dataStart % 2 ^ 32 := by
  simp [DriveInfo.ofBootSector, fatSectors, dataStart]

section
variable {b} (hbytes : b.bytesPerSector ≠ 0)
include hbytes

theorem rootDirSectors_toNat : b.rootDirSectors.toNat = b.rootDir := by
  have hentries := b.rootEntryCount.toNat_lt
  have hlt := b.bytesPerSector.toNat_lt
  have hpos : 0 < b.bytesPerSector.toNat := Nat.pos_of_ne_zero fun h => hbytes (UInt16.toNat_inj.mp h)
  have hone : (1 : UInt32) ≤ b.bytesPerSector.toUInt32 :=
    UInt32.le_iff_toNat_le.mpr (by simpa using Nat.succ_le_of_lt hpos)
  have hsub : (b.bytesPerSector.toUInt32 - 1).toNat = b.bytesPerSector.toNat - 1 := by
    rw [UInt32.toNat_sub_of_le _ _ hone]
    simp
  unfold rootDirSectors rootDir
  rw [UInt32.toNat_div, UInt32.toNat_add, UInt32.toNat_mul, hsub, UInt16.toNat_toUInt32, UInt16.toNat_toUInt32]
  simp only [UInt32.reduceToNat]
  rw [Nat.mod_eq_of_lt (by omega), Nat.mod_eq_of_lt (by omega)]

theorem dataSectors_toNat :
    b.dataSectors.toNat = (2 ^ 32 - (b.dataStart + b.rootDir) % 2 ^ 32 + b.totalSectors.toNat) % 2 ^ 32 := by
  unfold dataSectors
  rw [UInt32.toNat_sub, UInt32.toNat_add, rootDirSectors_toNat hbytes]
  have hstart := b.dataStartSector_toNat
  simp only [DriveInfo.ofBootSector] at hstart
  rw [hstart, Nat.mod_add_mod]

end

end BootSector

structure ExactGeometry (d : DriveInfo) : Prop where
  dataStartSector : d.dataStartSector.toNat = d.bootSector.dataStart
  dataStart_le : d.bootSector.dataStart ≤ d.bootSector.totalSectors.toNat
  maxClusterCount : d.maxClusterCount.toNat =
    (d.bootSector.totalSectors.toNat - (d.bootSector.dataStart + d.bootSector.rootDir)) /
      d.bootSector.sectorsPerCluster.toNat
  clusters_le : d.maxClusterCount.toNat * d.bootSector.sectorsPerCluster.toNat ≤
    d.bootSector.totalSectors.toNat - d.bootSector.dataStart

theorem maxClusterCount_toNat (b : BootSector) :
    (DriveInfo.ofBootSector b).maxClusterCount.toNat = b.dataSectors.toNat / b.sectorsPerCluster.toNat := by
  simp [DriveInfo.ofBootSector]

theorem exactGeometry_of_le {b : BootSector} (hbytes : b.bytesPerSector ≠ 0)
    (hfits : b.dataStart + b.rootDir ≤ b.totalSectors.toNat) : ExactGeometry (.ofBootSector b) := by
  have htotal := b.totalSectors.toNat_lt
  have hsectors : b.dataSectors.toNat = b.totalSectors.toNat - (b.dataStart + b.rootDir) := by
    rw [BootSector.dataSectors_toNat hbytes, Nat.mod_eq_of_lt (a := b.dataStart + b.rootDir) (by omega)]
    omega
  have hmax : (DriveInfo.ofBootSector b).maxClusterCount.toNat =
      (b.totalSectors.toNat - (b.dataStart + b.rootDir)) / b.sectorsPerCluster.toNat := by
    rw [maxClusterCount_toNat, hsectors]
  refine ⟨?_, Nat.le_trans (Nat.le_add_right _ _) hfits, hmax, ?_⟩
  · rw [b.dataStartSector_toNat, Nat.mod_eq_of_lt (by omega)]
    rfl
  · rw [hmax]
    refine Nat.le_trans (Nat.div_mul_le_self _ _) ?_
    exact Nat.sub_le_sub_left (Nat.le_add_right _ _) _

/-- When they do not fit, the data sectors wrap to almost `2 ^ 32`, more than there is room for. -/
theorem ExactGeometry.fits {b : BootSector} (hbytes : b.bytesPerSector ≠ 0) (hsectors : b.sectorsPerCluster ≠ 0)
    (h : ExactGeometry (.ofBootSector b)) : b.dataStart + b.rootDir ≤ b.totalSectors.toNat := by
  by_contra hlt
  have htotal := b.totalSectors.toNat_lt
  have hstart : b.dataStart ≤ b.totalSectors.toNat := h.dataStart_le
  have hroot := b.rootDir_lt
  have hspc := b.sectorsPerCluster.toNat_lt
  have hpos : 0 < b.sectorsPerCluster.toNat := Nat.pos_of_ne_zero fun h => hsectors (UInt8.toNat_inj.mp h)
  have hdata : 2 ^ 32 - b.rootDir ≤ b.dataSectors.toNat := by
    rw [BootSector.dataSectors_toNat hbytes]
    omega
  have hroom : (b.dataSectors.toNat / b.sectorsPerCluster.toNat) * b.sectorsPerCluster.toNat ≤
      b.totalSectors.toNat - b.dataStart := by
    have hle := h.clusters_le
    rwa [maxClusterCount_toNat] at hle
  have hmod := Nat.mod_lt b.dataSectors.toNat hpos
  have hdiv := Nat.div_add_mod' b.dataSectors.toNat b.sectorsPerCluster.toNat
  omega

theorem exactGeometry_iff {b : BootSector} (hbytes : b.bytesPerSector ≠ 0) (hsectors : b.sectorsPerCluster ≠ 0) :
    ExactGeometry (.ofBootSector b) ↔ b.dataStart + b.rootDir ≤ b.totalSectors.toNat :=
  ⟨fun h => h.fits hbytes hsectors, exactGeometry_of_le hbytes⟩

/-! ## What is accepted -/

section
variable {device : Device} {content : List UInt8} (hsize : device.getBytesPerSector = 512)
  (hread : device.readSector 0 512 = some content)
include hsize hread

theorem readBootSector_eq : readBootSector device =
    if ¬ (BootSector.ofBytes content).HasSignature then .error (.exception "Not a valid FAT32 volume")
    else if (BootSector.ofBytes content).bytesPerSector = 0 ∨ (BootSector.ofBytes content).sectorsPerCluster = 0 then
      .error .undefined
    else .ok (.ofBootSector (.ofBytes content)) := by
  have hlen : content.length = 512 := device.length_of_read hread
  unfold readBootSector
  rw [hsize]
  simp only [hread, BootSector.ofBytes_append (show 90 ≤ content.length by omega)]
  rfl

/-- A boot sector is rejected, or accepted with exact geometry, unless it has the signature and
a divisor is 0 or the areas in front of the clusters do not fit. -/
theorem geometry_exact_iff :
    (∃ what, readBootSector device = .error (.exception what)) ∨
        (∃ d, readBootSector device = .ok d ∧ ExactGeometry d) ↔
      ((BootSector.ofBytes content).HasSignature → (BootSector.ofBytes content).Fits) := by
  rw [readBootSector_eq hsize hread]
  generalize BootSector.ofBytes content = b
  by_cases hsignature : b.HasSignature
  · rw [if_neg (not_not_intro hsignature), forall_prop_of_true hsignature]
    by_cases hzero : b.bytesPerSector = 0 ∨ b.sectorsPerCluster = 0
    · rw [if_pos hzero]
      refine iff_of_false ?_ fun hfits => hzero.elim hfits.bytesPerSector_ne hfits.sectorsPerCluster_ne
      rintro (⟨_, hresult⟩ | ⟨_, hresult, _⟩) <;> cases hresult
    · obtain ⟨hbytes, hsectors⟩ := not_or.mp hzero
      rw [if_neg hzero]
      constructor
      · rintro (⟨_, hresult⟩ | ⟨d, hresult, hexact⟩)
        · cases hresult
        · obtain rfl := Except.ok.inj hresult
          exact ⟨hbytes, hsectors, (exactGeometry_iff hbytes hsectors).mp hexact⟩
      · exact fun hfits => .inr ⟨_, rfl, (exactGeometry_iff hbytes hsectors).mpr hfits.start_le⟩
  · rw [if_pos hsignature]
    exact iff_of_true (.inl ⟨_, rfl⟩) fun h => absurd h hsignature

end

/-- The first sector of a volume with one FAT of one sector. -/
def bootBytes (bytesPerSector totalSectors : Nat) : List UInt8 :=
  List.replicate 11 0 ++ leBytes 2 bytesPerSector ++ [1] ++ leBytes 2 1 ++ [1] ++ List.replicate 15 0 ++
    leBytes 4 totalSectors ++ leBytes 4 1 ++ List.replicate 4 0 ++ leBytes 4 2 ++ List.replicate 34 0 ++
    "FAT32".toList.map (fun c => UInt8.ofNat c.toNat) ++ List.replicate 425 0

def bootDevice (content : List UInt8) : Device := .ofSectors [(0, content)] 512

theorem readSector_bootDevice {content : List UInt8} (h : content.length = 512) :
    (bootDevice content).readSector 0 512 = some content := by
  show some (List.take 512 (content ++ List.replicate 512 0)) = some content
  rw [← h, List.take_left]

theorem length_bootBytes (bytesPerSector totalSectors : Nat) :
    (bootBytes bytesPerSector totalSectors).length = 512 := by
  simp only [bootBytes, List.length_append, List.length_replicate, List.length_singleton, List.length_map, length_leBytes]
  rfl

theorem geometry_exact_small :
    (∃ what, readBootSector (bootDevice (bootBytes 512 10)) = .error (.exception what)) ∨
        (∃ d, readBootSector (bootDevice (bootBytes 512 10)) = .ok d ∧ ExactGeometry d) ↔
      ((BootSector.ofBytes (bootBytes 512 10)).HasSignature → (BootSector.ofBytes (bootBytes 512 10)).Fits) :=
  geometry_exact_iff rfl (readSector_bootDevice (length_bootBytes 512 10))

/-- A volume of one sector is accepted, with `2 ^ 32 - 1` clusters, and no sector size means a division by 0. -/
theorem geometry_wrapped :
    (∃ d, readBootSector (bootDevice (bootBytes 512 1)) = .ok d ∧ d.maxClusterCount = 0xFFFFFFFF ∧
        ¬ ExactGeometry d) ∧
      readBootSector (bootDevice (bootBytes 0 10)) = .error .undefined := by
  constructor
  · have haccepted := readBootSector_eq rfl (readSector_bootDevice (length_bootBytes 512 1))
    rw [if_neg (by decide +kernel), if_neg (by decide +kernel)] at haccepted
    refine ⟨_, haccepted, by decide +kernel, fun hexact => ?_⟩
    exact absurd hexact.dataStart_le (by decide +kernel)
  · have hdivides := readBootSector_eq rfl (readSector_bootDevice (length_bootBytes 0 10))
    rwa [if_neg (by decide +kernel), if_pos (by decide +kernel)] at hdivides

end DataRecovery.FAT32
