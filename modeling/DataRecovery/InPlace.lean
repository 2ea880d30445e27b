import DataRecovery.Chunks
import DataRecovery.ExFAT.Recovery
import DataRecovery.FAT32.ScanExact
import DataRecovery.FAT32.Recovery
import DataRecovery.NTFS.Recovery

/-!
# Where recovered sectors end up

The copy loops write what they read one after the other, so a sector that cannot be
read pulls what follows it forward. A recovered sector is in its place when it is
also in that place among the readable sectors.
-/

namespace DataRecovery

/-- Each byte read from the `k`-th sector is at its place in the output, up to the expected size. -/
def InPlace (read : UInt64 → Option (List UInt8)) (bytesPerSector expectedSize : Nat) (sectors : List UInt64)
    (output : List UInt8) : Prop :=
  ∀ k sector buffer b, sectors[k]? = some sector → read sector = some buffer → b < buffer.length →
    k * bytesPerSector + b < expectedSize → output[k * bytesPerSector + b]? = buffer[b]?

/-- Leaving out the unreadable sectors moves none that begins below the expected size. -/
def KeepsPlace (readable : UInt64 → Bool) (bytesPerSector expectedSize : Nat) (sectors : List UInt64) : Prop :=
  ∀ k sector, sectors[k]? = some sector → readable sector = true → 0 < bytesPerSector →
    k * bytesPerSector < expectedSize → (sectors.filter readable)[k]? = some sector

section
variable {read : UInt64 → Option (List UInt8)} {readable : UInt64 → Bool} {n : Nat}
  (hreadable : ∀ sector, (read sector).isSome = readable sector)
include hreadable

theorem flatMap_sectorData (sectors : List UInt64) :
    sectors.flatMap (sectorData read) = (sectors.filter readable).flatMap (sectorData read) := by
  induction sectors with
  | nil => rfl
  | cons sector sectors ih =>
    rw [List.flatMap_cons, List.filter_cons, ih]
    cases hr : read sector with
    | none =>
      have hs : readable sector = false := by rw [← hreadable, hr]; rfl
      rw [hs, if_neg Bool.false_ne_true]
      simp [sectorData, hr]
    | some buffer =>
      have hs : readable sector = true := by rw [← hreadable, hr]; rfl
      rw [hs, if_pos rfl, List.flatMap_cons]

variable (hlen : ∀ sector buffer, read sector = some buffer → buffer.length = n)
include hlen

theorem length_of_readable {sectors : List UInt64} :
    ∀ sector ∈ sectors.filter readable, (sectorData read sector).length = n := by
  intro sector hs
  obtain ⟨_, hr⟩ := List.mem_filter.mp hs
  rw [← hreadable] at hr
  obtain ⟨buffer, hb⟩ := Option.isSome_iff_exists.mp hr
  rw [sectorData, hb]
  exact hlen sector buffer hb

theorem getElem?_written {b : Nat} (hb : b < n) (sectors : List UInt64) (k : Nat) {size : Nat}
    (hk : k * n + b < size) :
    ((sectors.flatMap (sectorData read)).take size)[k * n + b]? =
      (sectors.filter readable)[k]?.bind fun sector => (sectorData read sector)[b]? := by
  rw [List.getElem?_take_of_lt hk, flatMap_sectorData hreadable]
  exact getElem?_flatMap_chunk hb (length_of_readable hreadable hlen) k

theorem inPlace_of_keepsPlace {sectors : List UInt64} {size : Nat} (h : KeepsPlace readable n size sectors) :
    InPlace read n size sectors ((sectors.flatMap (sectorData read)).take size) := by
  intro k sector buffer b hsector hread hb hk
  have hbn : b < n := by rwa [hlen sector buffer hread] at hb
  have hr : readable sector = true := by rw [← hreadable, hread]; rfl
  rw [getElem?_written hreadable hlen hbn sectors k hk,
    h k sector hsector hr (Nat.lt_of_le_of_lt (Nat.zero_le b) hbn) (Nat.lt_of_le_of_lt (Nat.le_add_right _ b) hk)]
  simp [sectorData, hread]

end

def markedRead (readable : UInt64 → Bool) (n : Nat) (mark sector : UInt64) : Option (List UInt8) :=
  if readable sector then some (List.replicate n (if sector = mark then 1 else 0)) else none

theorem markedRead_isSome (readable : UInt64 → Bool) (n : Nat) (mark sector : UInt64) :
    (markedRead readable n mark sector).isSome = readable sector := by
  unfold markedRead
  cases readable sector with
  | true => rfl
  | false => rfl

theorem length_markedRead {readable : UInt64 → Bool} {n : Nat} {mark : UInt64} :
    ∀ sector buffer, markedRead readable n mark sector = some buffer → buffer.length = n := by
  intro sector buffer h
  unfold markedRead at h
  split at h
  · obtain rfl := Option.some.inj h
    exact List.length_replicate
  · cases h

theorem keepsPlace_of_inPlace {readable : UInt64 → Bool} {n size : Nat} {sectors : List UInt64}
    (h : ∀ mark, InPlace (markedRead readable n mark) n size sectors
      ((sectors.flatMap (sectorData (markedRead readable n mark))).take size)) :
    KeepsPlace readable n size sectors := by
  intro k mark hsector hr hn hk
  have hread : markedRead readable n mark mark = some (List.replicate n 1) := by
    unfold markedRead
    rw [if_pos hr, if_pos rfl]
  have hone := h mark k mark _ 0 hsector hread (by rw [List.length_replicate]; exact hn) hk
  rw [getElem?_written (markedRead_isSome readable n mark) length_markedRead hn sectors k hk] at hone
  rw [List.getElem?_replicate, if_pos hn] at hone
  obtain ⟨sector, hk', hbyte⟩ := Option.bind_eq_some_iff.mp hone
  rw [hk']
  congr 1
  by_contra hne
  have hs : readable sector = true := (List.mem_filter.mp (List.mem_of_getElem? hk')).2
  rw [sectorData, markedRead, if_pos hs, if_neg hne, Option.getD_some, List.getElem?_replicate, if_pos hn] at hbyte
  exact absurd hbyte (by decide)

/-- Among sectors that all differ, one stays in its place when every sector before it is readable. -/
theorem keepsPlace_iff_of_nodup {readable : UInt64 → Bool} {n size : Nat} {sectors : List UInt64}
    (hnodup : sectors.Nodup) :
    KeepsPlace readable n size sectors ↔
      ∀ k sector, sectors[k]? = some sector → readable sector = true → 0 < n → k * n < size →
        ∀ before ∈ sectors.take k, readable before = true := by
  refine forall₂_congr fun k sector => forall₄_congr fun hsector hr _ _ => ?_
  obtain ⟨hk, hget⟩ := List.getElem?_eq_some_iff.mp hsector
  have hsplit : sectors.filter readable =
      (sectors.take k).filter readable ++ sector :: (sectors.drop (k + 1)).filter readable := by
    conv => lhs; rw [← List.take_append_drop k sectors, List.drop_eq_getElem_cons hk, hget]
    rw [List.filter_append, List.filter_cons, if_pos hr]
  have hlen : (sectors.take k).length = k := by rw [List.length_take, Nat.min_eq_left (Nat.le_of_lt hk)]
  constructor
  · intro hplace before hbefore
    have hat : (sectors.filter readable)[((sectors.take k).filter readable).length]? = some sector := by
      rw [hsplit, List.getElem?_append_right (Nat.le_refl _), Nat.sub_self]
      rfl
    obtain ⟨hlt, _⟩ := List.getElem?_eq_some_iff.mp hplace
    have hindex := (List.getElem?_inj hlt (hnodup.filter _)).mp (hplace.trans hat.symm)
    have hcount : ((sectors.take k).filter readable).length = (sectors.take k).length := by rw [hlen, ← hindex]
    exact List.length_filter_eq_length_iff.mp hcount before hbefore
  · intro hall
    rw [hsplit, List.filter_eq_self.mpr hall]
    conv => lhs; rw [← hlen]
    simp

/-! ## The copy loops -/

/-- A drive that reads as `read` wherever that fills the buffer. -/
def Device.ofRead (read : UInt64 → Option (List UInt8)) : Device where
  readSector sector size := (read sector).filter fun buffer => buffer.length == size.toNat
  getBytesPerSector := 512
  getTotalMftRecords := 0
  length_of_read := by
    intro sector size buffer h
    simpa using (Option.filter_eq_some_iff.mp h).2

theorem Device.readSector_ofRead {read : UInt64 → Option (List UInt8)} {size : UInt32}
    (hlen : ∀ sector buffer, read sector = some buffer → buffer.length = size.toNat) (sector : UInt64) :
    (Device.ofRead read).readSector sector size = read sector := by
  show (read sector).filter _ = _
  cases hr : read sector with
  | none => rfl
  | some buffer => simp [Option.filter, hlen sector buffer hr]

def CopiesInPlace {κ : Type} (sectorsOf : κ → List UInt64) (readable : UInt64 → Bool)
    (bytesPerSector expectedSize : UInt64) (chain : List κ) : Prop :=
  ∀ read : UInt64 → Option (List UInt8),
    (∀ sector buffer, read sector = some buffer → buffer.length = bytesPerSector.toNat) →
    (∀ sector, (read sector).isSome = readable sector) →
      InPlace read bytesPerSector.toNat expectedSize.toNat (chain.flatMap sectorsOf)
        (copyChain read bytesPerSector expectedSize sectorsOf chain {}).written

theorem copiesInPlace_iff {κ : Type} (sectorsOf : κ → List UInt64) (readable : UInt64 → Bool)
    (bytesPerSector expectedSize : UInt64) (chain : List κ) :
    CopiesInPlace sectorsOf readable bytesPerSector expectedSize chain ↔
      KeepsPlace readable bytesPerSector.toNat expectedSize.toNat (chain.flatMap sectorsOf) := by
  by_cases hpos : 0 < expectedSize
  · have hwritten : ∀ read, (∀ sector buffer, read sector = some buffer → buffer.length = bytesPerSector.toNat) →
        (copyChain read bytesPerSector expectedSize sectorsOf chain {}).written =
          ((chain.flatMap sectorsOf).flatMap (sectorData read)).take expectedSize.toNat := by
      intro read hlen
      rw [copyChain_written read bytesPerSector expectedSize (hlen _ _) sectorsOf chain hpos, List.flatMap_assoc]
    constructor
    · intro h
      refine keepsPlace_of_inPlace fun mark => ?_
      rw [← hwritten _ length_markedRead]
      exact h _ length_markedRead (markedRead_isSome readable _ mark)
    · intro h read hlen hreadable
      rw [hwritten read hlen]
      exact inPlace_of_keepsPlace hreadable hlen h
  · -- nothing is expected, and nothing promised
    have hzero : expectedSize.toNat = 0 := Nat.eq_zero_of_not_pos fun h => hpos (UInt64.lt_iff_toNat_lt.mpr h)
    rw [hzero]
    constructor
    · intro _ k sector _ _ _ hk
      exact absurd hk (Nat.not_lt_zero _)
    · intro _ read _ _ k sector buffer b _ _ _ hk
      rw [hzero] at hk
      exact absurd hk (Nat.not_lt_zero _)

theorem InPlace.of_written {read : UInt64 → Option (List UInt8)} {bytesPerSector expectedSize : Nat}
    {sectors : List UInt64} {host : Host} {files : Files host} {path : Path} {output written : List UInt8}
    (h : InPlace read bytesPerSector expectedSize sectors output)
    (houtput : (files.write path (.data written)).read path = some (.data output)) :
    InPlace read bytesPerSector expectedSize sectors written := by
  obtain rfl := Node.data.inj (Option.some.inj (houtput.symm.trans (read_write _ _ _)))
  exact h

/-! ## The three engines -/

namespace FAT32

def RecoversInPlace (v : Volume) (readable : UInt64 → Bool) (clusterChain : List UInt32) (expectedSize : UInt32) :
    Prop :=
  ∀ w : Volume, w.bootSector = v.bootSector → (∀ sector, (w.readSector sector).isSome = readable sector) →
    ∀ (host : Host) (st : RunState host) (outputPath : Path) (status : RecoveryStatus),
      host.canCreate outputPath = true → status.recoveredClusters = 0 → status.recoveredBytes = 0 →
        ∃ output,
          (recoverFile w clusterChain status outputPath expectedSize st).1.files.read outputPath = some (.data output) ∧
            InPlace w.readSector w.bytesPerSector.toNat expectedSize.toNat (clusterChain.flatMap w.sectorsOf) output

theorem recoversInPlace_iff (v : Volume) (readable : UInt64 → Bool) (clusterChain : List UInt32)
    (expectedSize : UInt32) :
    RecoversInPlace v readable clusterChain expectedSize ↔
      KeepsPlace readable v.bytesPerSector.toNat expectedSize.toNat (clusterChain.flatMap v.sectorsOf) := by
  have hbps : v.bytesPerSector.toUInt64.toNat = v.bytesPerSector.toNat := UInt32.toNat_toUInt64 _
  have hsize : expectedSize.toUInt64.toNat = expectedSize.toNat := UInt32.toNat_toUInt64 _
  rw [← hbps, ← hsize, ← copiesInPlace_iff]
  constructor
  · intro h read hlen hreadable
    let w : Volume := { v with device := .ofRead read }
    have hread : w.readSector = read :=
      funext (Device.readSector_ofRead fun sector buffer hr => (hlen sector buffer hr).trans hbps)
    obtain ⟨output, houtput, hplace⟩ := h w rfl (by rw [hread]; exact hreadable) plainHost { files := ∅ } ⟨[], []⟩ {}
      rfl rfl rfl
    have hwritten := hplace.of_written houtput
    rwa [hread] at hwritten
  · intro h w hboot hreadable host st outputPath status hcreate hclusters hbytes
    obtain ⟨device, bootSector, pastEnd, hbpsPos, hspcPos⟩ := w
    obtain rfl : bootSector = v.bootSector := hboot
    refine ⟨_, ?_, h _ (fun sector buffer hr => (device.length_of_read hr).trans hbps.symm) hreadable⟩
    unfold recoverFile
    rw [if_pos hcreate, hclusters, hbytes]
    exact read_write _ _ _

end FAT32

namespace ExFAT

def RecoversInPlace (v : Volume) (readable : UInt64 → Bool) (clusterChain : List UInt32) (expectedSize : UInt64) :
    Prop :=
  ∀ w : Volume, w.bootSector = v.bootSector → (∀ sector, (w.readSector sector).isSome = readable sector) →
    ∀ (host : Host) (st : RunState host) (outputPath : Path) (status : RecoveryStatus),
      host.canCreate outputPath = true → status.recoveredClusters = 0 → status.recoveredBytes = 0 →
        ∃ output,
          (recoverFile w clusterChain status outputPath expectedSize st).1.files.read outputPath = some (.data output) ∧
            InPlace w.readSector w.bytesPerSector.toNat expectedSize.toNat (clusterChain.flatMap w.sectorsOf) output

theorem recoversInPlace_iff (v : Volume) (readable : UInt64 → Bool) (clusterChain : List UInt32)
    (expectedSize : UInt64) :
    RecoversInPlace v readable clusterChain expectedSize ↔
      KeepsPlace readable v.bytesPerSector.toNat expectedSize.toNat (clusterChain.flatMap v.sectorsOf) := by
  have hbps : v.bytesPerSector.toUInt64.toNat = v.bytesPerSector.toNat := UInt32.toNat_toUInt64 _
  rw [← hbps, ← copiesInPlace_iff]
  constructor
  · intro h read hlen hreadable
    let w : Volume := { v with device := .ofRead read }
    have hread : w.readSector = read :=
      funext (Device.readSector_ofRead fun sector buffer hr => (hlen sector buffer hr).trans hbps)
    obtain ⟨output, houtput, hplace⟩ := h w rfl (by rw [hread]; exact hreadable) plainHost { files := ∅ } ⟨[], []⟩ {}
      rfl rfl rfl
    have hwritten := hplace.of_written houtput
    rwa [hread] at hwritten
  · intro h w hboot hreadable host st outputPath status hcreate hclusters hbytes
    obtain ⟨device, bootSector, pastEnd, hbpsPos, hspcPos⟩ := w
    obtain rfl : bootSector = v.bootSector := hboot
    refine ⟨_, ?_, h _ (fun sector buffer hr => (device.length_of_read hr).trans hbps.symm) hreadable⟩
    unfold recoverFile
    rw [if_pos hcreate, hclusters, hbytes]
    exact read_write _ _ _

end ExFAT

namespace NTFS

def RecoversInPlace (v : Volume) (readable : UInt64 → Bool) (clusterChain : List UInt64) (expectedSize : UInt64) :
    Prop :=
  ∀ w : Volume, w.driveInfo = v.driveInfo → (∀ sector, (w.readSector sector).isSome = readable sector) →
    ∀ (host : Host) (st : RunState host) (outputPath : Path) (status : RecoveryStatus),
      host.canCreate outputPath = true → status.recoveredClusters = 0 → status.recoveredBytes = 0 →
        ∃ output,
          (recoverNonResidentFile w clusterChain status outputPath expectedSize st).1.1.files.read outputPath =
              some (.data output) ∧
            InPlace w.readSector w.bytesPerSector.toNat expectedSize.toNat (clusterChain.flatMap w.sectorsOf) output

theorem recoversInPlace_iff (v : Volume) (readable : UInt64 → Bool) (clusterChain : List UInt64)
    (expectedSize : UInt64) :
    RecoversInPlace v readable clusterChain expectedSize ↔
      KeepsPlace readable v.bytesPerSector.toNat expectedSize.toNat (clusterChain.flatMap v.sectorsOf) := by
  have hbps : v.bytesPerSector.toUInt64.toNat = v.bytesPerSector.toNat := UInt16.toNat_toUInt64 _
  have hbuffer : v.bytesPerSector.toUInt32.toNat = v.bytesPerSector.toUInt64.toNat :=
    (UInt16.toNat_toUInt32 _).trans hbps.symm
  rw [← hbps, ← copiesInPlace_iff]
  constructor
  · intro h read hlen hreadable
    let w : Volume := { v with device := .ofRead read }
    have hread : w.readSector = read :=
      funext (Device.readSector_ofRead fun sector buffer hr => (hlen sector buffer hr).trans hbuffer.symm)
    obtain ⟨output, houtput, hplace⟩ := h w rfl (by rw [hread]; exact hreadable) plainHost { files := ∅ } ⟨[], []⟩ {}
      rfl rfl rfl
    have hwritten := hplace.of_written houtput
    rwa [hread] at hwritten
  · intro h w hboot hreadable host st outputPath status hcreate hclusters hbytes
    obtain ⟨device, driveInfo⟩ := w
    obtain rfl : driveInfo = v.driveInfo := hboot
    refine ⟨_, ?_, h _ (fun sector buffer hr => (device.length_of_read hr).trans hbuffer) hreadable⟩
    unfold recoverNonResidentFile
    rw [if_pos hcreate, hclusters, hbytes]
    exact read_write _ _ _

end NTFS

theorem recovered_in_place_iff (readable : UInt64 → Bool) :
    (∀ (v : FAT32.Volume) clusterChain expectedSize,
      FAT32.RecoversInPlace v readable clusterChain expectedSize ↔
        KeepsPlace readable v.bytesPerSector.toNat expectedSize.toNat (clusterChain.flatMap v.sectorsOf)) ∧
    (∀ (v : ExFAT.Volume) clusterChain expectedSize,
      ExFAT.RecoversInPlace v readable clusterChain expectedSize ↔
        KeepsPlace readable v.bytesPerSector.toNat expectedSize.toNat (clusterChain.flatMap v.sectorsOf)) ∧
    (∀ (v : NTFS.Volume) clusterChain expectedSize,
      NTFS.RecoversInPlace v readable clusterChain expectedSize ↔
        KeepsPlace readable v.bytesPerSector.toNat expectedSize.toNat (clusterChain.flatMap v.sectorsOf)) :=
  ⟨fun v => FAT32.recoversInPlace_iff v readable, fun v => ExFAT.recoversInPlace_iff v readable,
    fun v => NTFS.recoversInPlace_iff v readable⟩

/-- Of a file in two sectors the first cannot be read: the second one's bytes are written at the start. -/
theorem unreadable_sector_shifts :
    ¬ ((∀ (v : FAT32.Volume) readable clusterChain expectedSize,
        FAT32.RecoversInPlace v readable clusterChain expectedSize) ∧
      (∀ (v : ExFAT.Volume) readable clusterChain expectedSize,
        ExFAT.RecoversInPlace v readable clusterChain expectedSize) ∧
      ∀ (v : NTFS.Volume) readable clusterChain expectedSize,
        NTFS.RecoversInPlace v readable clusterChain expectedSize) := by
  intro ⟨h, _⟩
  let v := FAT32.smallVolume []
  have hkeeps := (FAT32.recoversInPlace_iff v (fun sector => sector != 4) [4, 5] 600).mp
    (h v (fun sector => sector != 4) [4, 5] 600)
  have hsectors : ([4, 5] : List UInt32).flatMap v.sectorsOf = [4, 5] := by decide +kernel
  rw [hsectors] at hkeeps
  have hsecond := hkeeps 1 5 rfl (by decide) (by decide) (by decide)
  exact absurd hsecond (by decide)

end DataRecovery
