import DataRecovery.Analysis

/-!
# Copying a chain to the output file

The loop of the three `recoverFile` functions: read each sector of each cluster,
skip it when the read fails, else write as much of it as the expected size has
room for, and stop when that many bytes are written.
-/

namespace DataRecovery

structure CopyState where
  written : List UInt8 := []
  recoveredBytes : UInt64 := 0
  recoveredClusters : UInt64 := 0

section
variable (read : UInt64 → Option (List UInt8)) (bytesPerSector expectedSize : UInt64)

def writeSector (sectorBuffer : List UInt8) (st : CopyState) : CopyState :=
  let bytesToWrite := min bytesPerSector (expectedSize - st.recoveredBytes)
  { st with
    written := st.written ++ sectorBuffer.take bytesToWrite.toNat
    recoveredBytes := st.recoveredBytes + bytesToWrite }

def copyCluster : List UInt64 → CopyState → CopyState
  | [], st => st
  | sector :: rest, st =>
    match read sector with
    | none => copyCluster rest st
    | some sectorBuffer =>
      let st := writeSector bytesPerSector expectedSize sectorBuffer st
      if expectedSize ≤ st.recoveredBytes then st else copyCluster rest st

def copyChain {κ : Type} (sectorsOf : κ → List UInt64) : List κ → CopyState → CopyState
  | [], st => st
  | cluster :: rest, st =>
    let st := copyCluster read bytesPerSector expectedSize (sectorsOf cluster) st
    let st := { st with recoveredClusters := st.recoveredClusters + 1 }
    if expectedSize ≤ st.recoveredBytes then st else copyChain sectorsOf rest st

end

/-! ## What is read -/

section
variable {read read' : UInt64 → Option (List UInt8)} {bytesPerSector expectedSize : UInt64}

theorem copyCluster_congr : ∀ {sectors : List UInt64} {st : CopyState}, (∀ s ∈ sectors, read s = read' s) →
    copyCluster read bytesPerSector expectedSize sectors st = copyCluster read' bytesPerSector expectedSize sectors st
  | [], _, _ => rfl
  | sector :: rest, st, h => by
    have hrest : ∀ s ∈ rest, read s = read' s := fun s hs => h s (List.mem_cons_of_mem _ hs)
    rw [copyCluster, copyCluster, h sector (List.mem_cons_self ..)]
    cases read' sector with
    | none => exact copyCluster_congr hrest
    | some buffer => simp only [copyCluster_congr hrest]

theorem copyChain_congr {κ : Type} {sectorsOf : κ → List UInt64} : ∀ {chain : List κ} {st : CopyState},
    (∀ c ∈ chain, ∀ s ∈ sectorsOf c, read s = read' s) →
      copyChain read bytesPerSector expectedSize sectorsOf chain st =
        copyChain read' bytesPerSector expectedSize sectorsOf chain st
  | [], _, _ => rfl
  | c :: rest, st, h => by
    have hrest : ∀ c ∈ rest, ∀ s ∈ sectorsOf c, read s = read' s := fun c hc => h c (List.mem_cons_of_mem _ hc)
    rw [copyChain, copyChain, copyCluster_congr (h c (List.mem_cons_self ..))]
    simp only [copyChain_congr hrest]

end

/-! ## What is written when every sector is readable -/

section
variable (read : UInt64 → Option (List UInt8)) (bytesPerSector expectedSize : UInt64)

def Wrote (data : List UInt8) (st : CopyState) : Prop :=
  st.written = data.take expectedSize.toNat ∧ st.recoveredBytes.toNat = min expectedSize.toNat data.length

theorem wrote_sector {data sectorBuffer : List UInt8} {st : CopyState} (h : Wrote expectedSize data st)
    (hroom : data.length < expectedSize.toNat) (hlen : sectorBuffer.length = bytesPerSector.toNat) :
    Wrote expectedSize (data ++ sectorBuffer) (writeSector bytesPerSector expectedSize sectorBuffer st) := by
  obtain ⟨hw, hb⟩ := h
  have hsize := expectedSize.toNat_lt
  rw [Nat.min_eq_right (Nat.le_of_lt hroom)] at hb
  have hsub : (expectedSize - st.recoveredBytes).toNat = expectedSize.toNat - data.length := by
    rw [UInt64.toNat_sub_of_le _ _ (UInt64.le_iff_toNat_le.mpr (by omega)), hb]
  have hmin : (min bytesPerSector (expectedSize - st.recoveredBytes)).toNat =
      min bytesPerSector.toNat (expectedSize.toNat - data.length) := by
    rw [← hsub]
    simp only [Nat.min_def, ← UInt64.le_iff_toNat_le]
    show (if bytesPerSector ≤ expectedSize - st.recoveredBytes then _ else _ : UInt64).toNat = _
    split <;> rfl
  constructor
  · simp only [writeSector, hmin, hw, List.take_append]
    rw [List.take_of_length_le (Nat.le_of_lt hroom)]
    congr 1
    rcases Nat.le_total bytesPerSector.toNat (expectedSize.toNat - data.length) with hle | hle
    · rw [Nat.min_eq_left hle, List.take_of_length_le (by omega), List.take_of_length_le (by omega)]
    · rw [Nat.min_eq_right hle]
  · simp only [writeSector, List.length_append, hlen]
    rw [UInt64.toNat_add, hmin, hb, Nat.mod_eq_of_lt (by omega)]
    omega

def sectorData (sector : UInt64) : List UInt8 := (read sector).getD []

theorem wrote_mono {data more : List UInt8} {st : CopyState} (h : Wrote expectedSize data st)
    (hfull : expectedSize.toNat ≤ data.length) : Wrote expectedSize (data ++ more) st := by
  obtain ⟨hw, hb⟩ := h
  constructor
  · rw [hw, List.take_append_of_le_length hfull]
  · rw [hb, List.length_append]; omega

section
variable (hread : ∀ {sector buffer}, read sector = some buffer → buffer.length = bytesPerSector.toNat)
include hread

/-- A failed read writes nothing, so the bytes of the readable sectors move up. -/
theorem wrote_copyCluster : ∀ (sectors : List UInt64) {data : List UInt8} {st : CopyState},
    Wrote expectedSize data st → data.length < expectedSize.toNat →
      Wrote expectedSize (data ++ sectors.flatMap (sectorData read))
        (copyCluster read bytesPerSector expectedSize sectors st)
  | [], data, st, h, _ => by simpa [copyCluster] using h
  | sector :: rest, data, st, h, hroom => by
    rw [List.flatMap_cons, copyCluster]
    cases hr : read sector with
    | none =>
      simpa [sectorData, hr] using wrote_copyCluster rest h hroom
    | some buffer =>
      have hlen := hread hr
      have hst := wrote_sector bytesPerSector expectedSize h hroom hlen
      simp only [sectorData, hr, Option.getD_some, ← List.append_assoc]
      split
      · rename_i hdone
        refine wrote_mono expectedSize hst ?_
        have := UInt64.le_iff_toNat_le.mp hdone
        rw [hst.2] at this
        omega
      · rename_i hdone
        refine wrote_copyCluster rest hst ?_
        have := mt UInt64.le_iff_toNat_le.mpr hdone
        rw [hst.2] at this
        omega

theorem wrote_copyChain {κ : Type} (sectorsOf : κ → List UInt64) : ∀ (chain : List κ) {data : List UInt8}
    {st : CopyState}, Wrote expectedSize data st → data.length < expectedSize.toNat →
      Wrote expectedSize (data ++ chain.flatMap fun c => (sectorsOf c).flatMap (sectorData read))
        (copyChain read bytesPerSector expectedSize sectorsOf chain st)
  | [], data, st, h, _ => by simpa [copyChain] using h
  | c :: rest, data, st, h, hroom => by
    have hst := wrote_copyCluster read bytesPerSector expectedSize hread (sectorsOf c) h hroom
    rw [List.flatMap_cons, copyChain, ← List.append_assoc]
    split
    · rename_i hdone
      refine wrote_mono expectedSize hst ?_
      have := UInt64.le_iff_toNat_le.mp hdone
      rw [hst.2] at this
      omega
    · rename_i hdone
      have hmore : (data ++ (sectorsOf c).flatMap (sectorData read)).length < expectedSize.toNat := by
        have := mt UInt64.le_iff_toNat_le.mpr hdone
        rw [hst.2] at this
        omega
      exact wrote_copyChain sectorsOf rest hst hmore

theorem copyChain_written {κ : Type} (sectorsOf : κ → List UInt64) (chain : List κ) (hpos : 0 < expectedSize) :
    (copyChain read bytesPerSector expectedSize sectorsOf chain {}).written =
      (chain.flatMap fun c => (sectorsOf c).flatMap (sectorData read)).take expectedSize.toNat := by
  have h0 : Wrote expectedSize [] {} := ⟨by simp, by simp⟩
  have h := wrote_copyChain read bytesPerSector expectedSize hread sectorsOf chain h0
    (by simpa using UInt64.lt_iff_toNat_lt.mp hpos)
  simpa using h.1

end

end

end DataRecovery
