import DataRecovery.ExFAT.Volume

/-!
# Where exFAT cluster links are read

`getNextCluster` looks entries up from `clusterHeapOffset`, in the cluster heap,
not from `fatOffset`. On a volume with consistent geometry the word it reads is
never the cluster's FAT entry, so volumes with one FAT can disagree on the links.
-/

namespace DataRecovery.ExFAT

def bytesPerSectorOf (b : BootSector) : Nat := 2 ^ b.bytesPerSectorShift.toNat

structure ConsistentGeometry (b : BootSector) : Prop where
  sector_ge : 9 ≤ b.bytesPerSectorShift.toNat
  sector_le : b.bytesPerSectorShift.toNat ≤ 12
  cluster_le : b.bytesPerSectorShift.toNat + b.sectorsPerClusterShift.toNat ≤ 25
  fat_after_boot : 0 < b.fatOffset.toNat
  fat_before_heap : b.fatOffset.toNat + b.fatLength.toNat ≤ b.clusterHeapOffset.toNat
  fat_covers_heap : 4 * (b.clusterCount.toNat + 2) ≤ b.fatLength.toNat * bytesPerSectorOf b
  heap_nonempty : 0 < b.clusterCount.toNat
  heap_in_volume :
    b.clusterHeapOffset.toNat + b.clusterCount.toNat * 2 ^ b.sectorsPerClusterShift.toNat ≤ b.volumeLength.toNat

instance (b : BootSector) : Decidable (ConsistentGeometry b) :=
  decidable_of_iff
    (9 ≤ b.bytesPerSectorShift.toNat ∧ b.bytesPerSectorShift.toNat ≤ 12 ∧
      b.bytesPerSectorShift.toNat + b.sectorsPerClusterShift.toNat ≤ 25 ∧ 0 < b.fatOffset.toNat ∧
      b.fatOffset.toNat + b.fatLength.toNat ≤ b.clusterHeapOffset.toNat ∧
      4 * (b.clusterCount.toNat + 2) ≤ b.fatLength.toNat * bytesPerSectorOf b ∧ 0 < b.clusterCount.toNat ∧
      b.clusterHeapOffset.toNat + b.clusterCount.toNat * 2 ^ b.sectorsPerClusterShift.toNat ≤ b.volumeLength.toNat)
    ⟨fun ⟨h1, h2, h3, h4, h5, h6, h7, h8⟩ => ⟨h1, h2, h3, h4, h5, h6, h7, h8⟩,
      fun ⟨h1, h2, h3, h4, h5, h6, h7, h8⟩ => ⟨h1, h2, h3, h4, h5, h6, h7, h8⟩⟩

def bootOf (bytes : Nat → UInt8) : BootSector := .ofBytes ((List.range 512).map bytes)

/-- The bytes of a readable volume whose boot sector has consistent geometry. -/
structure Image where
  bytes : Nat → UInt8
  consistent : ConsistentGeometry (bootOf bytes)

namespace Image

def boot (I : Image) : BootSector := bootOf I.bytes

def volume (I : Image) : Volume where
  device := .ofVolume I.bytes 512 0
  bootSector := I.boot
  pastEnd := fun _ => 0
  bytesPerSectorShift_lt := by
    have := I.consistent.sector_le
    exact UInt8.lt_iff_toNat_lt.mpr (Nat.lt_of_le_of_lt this (by decide))
  sectorsPerClusterShift_lt := by
    have h := I.consistent.cluster_le
    exact UInt8.lt_iff_toNat_lt.mpr (Nat.lt_of_le_of_lt (Nat.le_trans (Nat.le_add_left _ _) h) (by decide))

def InHeap (I : Image) (c : UInt32) : Prop := 2 ≤ c.toNat ∧ c.toNat ≤ I.boot.clusterCount.toNat + 1

def SameBootSector (I J : Image) : Prop := ∀ i < 512, J.bytes i = I.bytes i

def SameFat (I J : Image) : Prop :=
  ∀ i, I.boot.fatOffset.toNat * bytesPerSectorOf I.boot ≤ i →
    i < (I.boot.fatOffset.toNat + I.boot.fatLength.toNat) * bytesPerSectorOf I.boot → J.bytes i = I.bytes i

def fatEntryOffset (b : BootSector) (c : UInt32) : Nat := b.fatOffset.toNat * bytesPerSectorOf b + 4 * c.toNat

def DecidedByEntry (I : Image) (c : UInt32) : Prop :=
  ∀ J : Image, SameBootSector I J →
    volumeWord J.bytes (fatEntryOffset I.boot c) = volumeWord I.bytes (fatEntryOffset I.boot c) →
    J.volume.getNextCluster c = I.volume.getNextCluster c

def DecidedByFat (I : Image) (c : UInt32) : Prop :=
  ∀ J : Image, SameBootSector I J → SameFat I J → J.volume.getNextCluster c = I.volume.getNextCluster c

/-- The byte offset of the word `getNextCluster` reads, with its two 32-bit wraps. -/
def lookupOffset (b : BootSector) (c : UInt32) : Nat :=
  (b.clusterHeapOffset.toNat + 4 * c.toNat % 2 ^ 32 / bytesPerSectorOf b) % 2 ^ 32 * bytesPerSectorOf b +
    4 * c.toNat % 2 ^ 32 % bytesPerSectorOf b

theorem bytesPerSector_toNat (I : Image) : I.volume.bytesPerSector.toNat = bytesPerSectorOf I.boot :=
  I.volume.bytesPerSector_toNat

theorem four_dvd_bytesPerSector (I : Image) : 4 ∣ bytesPerSectorOf I.boot := by
  have h : 9 ≤ I.boot.bytesPerSectorShift.toNat := I.consistent.sector_ge
  exact Nat.pow_dvd_pow 2 (show 2 ≤ I.boot.bytesPerSectorShift.toNat by omega)

theorem bytesPerSector_ge (I : Image) : 512 ≤ bytesPerSectorOf I.boot := by
  calc 512 = 2 ^ 9 := rfl
    _ ≤ bytesPerSectorOf I.boot := Nat.pow_le_pow_right (by decide) I.consistent.sector_ge

theorem getNextCluster_eq (I : Image) (c : UInt32) :
    I.volume.getNextCluster c = decodeEntry (volumeWord I.bytes (lookupOffset I.boot c)) := by
  have hz := I.bytesPerSector_toNat
  have hc : (c * 4).toNat = 4 * c.toNat % 2 ^ 32 := by
    rw [UInt32.toNat_mul, Nat.mul_comm]; rfl
  have hs : (I.boot.clusterHeapOffset + c * 4 / I.volume.bytesPerSector).toNat =
      (I.boot.clusterHeapOffset.toNat + 4 * c.toNat % 2 ^ 32 / bytesPerSectorOf I.boot) % 2 ^ 32 := by
    rw [UInt32.toNat_add, UInt32.toNat_div, hz, hc]
  unfold lookupOffset
  rw [← hs, ← hc, ← hz]
  refine fatLookup_ofVolume _ _ _ _ _ _ _ ?_ ?_
  · rw [hz]; exact I.four_dvd_bytesPerSector
  · rw [hz]; exact Nat.lt_of_lt_of_le (by decide) I.bytesPerSector_ge

theorem heap_le_lookupOffset (b : BootSector) {c : UInt32}
    (hw : b.clusterHeapOffset.toNat + 4 * c.toNat / bytesPerSectorOf b < 2 ^ 32) :
    b.clusterHeapOffset.toNat * bytesPerSectorOf b ≤ lookupOffset b c := by
  have hq : 4 * c.toNat % 2 ^ 32 / bytesPerSectorOf b ≤ 4 * c.toNat / bytesPerSectorOf b :=
    Nat.div_le_div_right (Nat.mod_le _ _)
  unfold lookupOffset
  rw [Nat.mod_eq_of_lt (show _ < 2 ^ 32 by omega)]
  exact Nat.le_trans (Nat.mul_le_mul_right _ (Nat.le_add_right _ _)) (Nat.le_add_right _ _)

/-! ## Changing one word of the heap -/

def poke (bytes : Nat → UInt8) (off : Nat) (k : UInt8) (i : Nat) : UInt8 :=
  if i = off then k else if off < i ∧ i < off + 4 then 0 else bytes i

theorem poke_below {bytes : Nat → UInt8} {off i : Nat} (k : UInt8) (h : i < off) : poke bytes off k i = bytes i := by
  unfold poke
  rw [if_neg (by omega), if_neg (by omega)]

theorem volumeWord_poke (bytes : Nat → UInt8) (off : Nat) (k : UInt8) :
    volumeWord (poke bytes off k) off = k.toUInt32 := by
  have h : (List.range 4).map (fun i => poke bytes off k (off + i)) = [k, 0, 0, 0] := by
    simp [List.range_succ, poke]
  unfold volumeWord
  rw [h]
  simp [leNat]

theorem bootOf_poke (I : Image) {off : Nat} (k : UInt8) (h : 512 ≤ off) : bootOf (poke I.bytes off k) = I.boot := by
  have hbytes : ∀ i ∈ List.range 512, poke I.bytes off k i = I.bytes i :=
    fun i hi => poke_below k (Nat.lt_of_lt_of_le (List.mem_range.mp hi) h)
  exact congrArg BootSector.ofBytes (List.map_congr_left hbytes)

def poked (I : Image) (off : Nat) (k : UInt8) (h : 512 ≤ off) : Image where
  bytes := poke I.bytes off k
  consistent := by rw [I.bootOf_poke k h]; exact I.consistent

theorem heap_ge (I : Image) : 512 ≤ I.boot.clusterHeapOffset.toNat * bytesPerSectorOf I.boot := by
  have h1 : 0 < I.boot.fatOffset.toNat := I.consistent.fat_after_boot
  have h2 : I.boot.fatOffset.toNat + I.boot.fatLength.toNat ≤ I.boot.clusterHeapOffset.toNat :=
    I.consistent.fat_before_heap
  calc 512 ≤ bytesPerSectorOf I.boot := I.bytesPerSector_ge
    _ = 1 * bytesPerSectorOf I.boot := (Nat.one_mul _).symm
    _ ≤ I.boot.clusterHeapOffset.toNat * bytesPerSectorOf I.boot := Nat.mul_le_mul_right _ (by omega)

theorem getNextCluster_poked (I : Image) (c : UInt32) (k : UInt8) (h : 512 ≤ lookupOffset I.boot c) :
    (I.poked (lookupOffset I.boot c) k h).volume.getNextCluster c = decodeEntry k.toUInt32 := by
  have hb : (I.poked (lookupOffset I.boot c) k h).boot = I.boot := I.bootOf_poke k h
  rw [getNextCluster_eq, hb]
  exact congrArg decodeEntry (volumeWord_poke I.bytes _ k)

theorem exists_other_successor (I : Image) (c : UInt32) (h : 512 ≤ lookupOffset I.boot c) :
    ∃ k, (I.poked (lookupOffset I.boot c) k h).volume.getNextCluster c ≠ I.volume.getNextCluster c := by
  by_cases h0 : (I.poked (lookupOffset I.boot c) 0 h).volume.getNextCluster c = I.volume.getNextCluster c
  · refine ⟨1, fun h1 => ?_⟩
    have h01 := h0.trans h1.symm
    rw [getNextCluster_poked, getNextCluster_poked] at h01
    exact absurd h01 (by decide)
  · exact ⟨0, h0⟩

theorem not_decidedByFat (I : Image) {c : UInt32}
    (hw : I.boot.clusterHeapOffset.toNat + 4 * c.toNat / bytesPerSectorOf I.boot < 2 ^ 32) :
    ¬ I.DecidedByFat c := by
  intro hdec
  have hheap := heap_le_lookupOffset I.boot hw
  have h512 := Nat.le_trans I.heap_ge hheap
  obtain ⟨k, hk⟩ := I.exists_other_successor c h512
  refine hk (hdec _ (fun i hi => poke_below k (Nat.lt_of_lt_of_le hi h512)) fun i _ hi => ?_)
  refine poke_below k (Nat.lt_of_lt_of_le hi (Nat.le_trans ?_ hheap))
  exact Nat.mul_le_mul_right _ I.consistent.fat_before_heap

/-! ## The word looked up against the FAT entry -/

theorem four_dvd_lookupOffset (I : Image) (c : UInt32) : 4 ∣ lookupOffset I.boot c := by
  have hz := I.four_dvd_bytesPerSector
  have hc : 4 ∣ 4 * c.toNat % 2 ^ 32 := (Nat.dvd_mod_iff (by decide)).mpr (Nat.dvd_mul_right 4 _)
  exact Nat.dvd_add (Nat.dvd_mul_left_of_dvd hz _) ((Nat.dvd_mod_iff hz).mpr hc)

theorem four_dvd_fatEntryOffset (I : Image) (c : UInt32) : 4 ∣ fatEntryOffset I.boot c :=
  Nat.dvd_add (Nat.dvd_mul_left_of_dvd I.four_dvd_bytesPerSector _) (Nat.dvd_mul_right 4 _)

theorem lookupOffset_ne_fatEntryOffset (I : Image) {c : UInt32} (hc : I.InHeap c) :
    lookupOffset I.boot c ≠ fatEntryOffset I.boot c := by
  have hpos : 0 < bytesPerSectorOf I.boot := Nat.lt_of_lt_of_le (by decide) I.bytesPerSector_ge
  have hfat : 4 * c.toNat / bytesPerSectorOf I.boot < I.boot.fatLength.toNat := by
    have hcover : 4 * (I.boot.clusterCount.toNat + 2) ≤ I.boot.fatLength.toNat * bytesPerSectorOf I.boot :=
      I.consistent.fat_covers_heap
    have hle := hc.2
    exact (Nat.div_lt_iff_lt_mul hpos).mpr (by omega)
  have hbefore : I.boot.fatOffset.toNat + I.boot.fatLength.toNat ≤ I.boot.clusterHeapOffset.toNat :=
    I.consistent.fat_before_heap
  have hheap : I.boot.clusterHeapOffset.toNat < 2 ^ 32 := UInt32.toNat_lt _
  have hq : 4 * c.toNat % 2 ^ 32 / bytesPerSectorOf I.boot ≤ 4 * c.toNat / bytesPerSectorOf I.boot :=
    Nat.div_le_div_right (Nat.mod_le _ _)
  intro h
  -- equal offsets mean equal sectors: without a wrap the sector is past the FAT, with one before it
  have hsector : (I.boot.clusterHeapOffset.toNat + 4 * c.toNat % 2 ^ 32 / bytesPerSectorOf I.boot) % 2 ^ 32 =
      I.boot.fatOffset.toNat + 4 * c.toNat / bytesPerSectorOf I.boot := by
    have sector : ∀ s o,
        (s * bytesPerSectorOf I.boot + o) / bytesPerSectorOf I.boot = s + o / bytesPerSectorOf I.boot := by
      intro s o
      rw [Nat.mul_comm, Nat.mul_add_div hpos]
    have hdiv := congrArg (· / bytesPerSectorOf I.boot) h
    simp only [lookupOffset, fatEntryOffset, sector] at hdiv
    rwa [Nat.div_eq_of_lt (Nat.mod_lt _ hpos), Nat.add_zero] at hdiv
  generalize 4 * c.toNat % 2 ^ 32 / bytesPerSectorOf I.boot = q at *
  generalize 4 * c.toNat / bytesPerSectorOf I.boot = q' at *
  omega

theorem decidedByEntry_iff (I : Image) {c : UInt32} (hc : I.InHeap c) :
    I.DecidedByEntry c ↔ lookupOffset I.boot c < 512 := by
  have h4 := I.four_dvd_lookupOffset c
  constructor
  · intro hdec
    refine Nat.lt_of_not_le fun h512 => ?_
    obtain ⟨k, hk⟩ := I.exists_other_successor c h512
    refine hk (hdec _ (fun i hi => poke_below k (Nat.lt_of_lt_of_le hi h512)) ?_)
    have hne := I.lookupOffset_ne_fatEntryOffset hc
    have h4' := I.four_dvd_fatEntryOffset c
    unfold volumeWord
    congr 2
    apply List.map_congr_left
    intro i hi
    have hi : i < 4 := List.mem_range.mp hi
    simp only [poked, poke]
    rw [if_neg (by omega), if_neg (by omega)]
  · intro hlt J hboot _
    have hb : J.boot = I.boot :=
      congrArg BootSector.ofBytes (List.map_congr_left fun i hi => hboot i (List.mem_range.mp hi))
    rw [getNextCluster_eq, getNextCluster_eq, hb]
    unfold volumeWord
    congr 3
    apply List.map_congr_left
    intro i hi
    have hi : i < 4 := List.mem_range.mp hi
    exact hboot _ (by omega)

end Image

/-- A link is decided by its FAT entry only where the sector number wraps onto the
boot sector, and on no volume are all links decided by the FAT. -/
theorem links_not_from_fat (I : Image) :
    (∀ c, I.InHeap c → (I.DecidedByEntry c ↔ Image.lookupOffset I.boot c < 512)) ∧
    ¬ ∀ c, I.InHeap c → I.DecidedByFat c := by
  refine ⟨fun c hc => I.decidedByEntry_iff hc, fun h => ?_⟩
  have hn : 0 < I.boot.clusterCount.toNat := I.consistent.heap_nonempty
  have h2 : I.InHeap 2 := ⟨by decide, show 2 ≤ I.boot.clusterCount.toNat + 1 by omega⟩
  have hq : 4 * (2 : UInt32).toNat / bytesPerSectorOf I.boot = 0 := by
    apply Nat.div_eq_of_lt
    exact Nat.lt_of_lt_of_le (by decide) I.bytesPerSector_ge
  refine I.not_decidedByFat (c := 2) ?_ (h 2 h2)
  rw [hq, Nat.add_zero]
  exact UInt32.toNat_lt _

def blankImage : Image where
  bytes i :=
    ([(72, 20), (80, 1), (84, 1), (88, 4), (92, 16), (96, 2), (108, 9)].lookup i).getD 0
  consistent := by decide +kernel

theorem links_decided_by_heap : ¬ ∀ (I : Image) (c : UInt32), I.InHeap c → I.DecidedByFat c := by
  intro h
  have hin : blankImage.InHeap 2 := ⟨by decide, by decide +kernel⟩
  exact blankImage.not_decidedByFat (by decide +kernel) (h blankImage 2 hin)

end DataRecovery.ExFAT
