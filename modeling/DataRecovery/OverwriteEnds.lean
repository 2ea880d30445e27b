import DataRecovery.Overwrites

/-!
# Whether the overwrite analysis ends

The loop adds up offsets in 64 bits. When the last one does not wrap, the size bounds
the loop; when it wraps, every offset is below the size and only the links can end it.
-/

namespace DataRecovery

def Leaves (getNextCluster : UInt32 → UInt32) (start : UInt32) : Prop := ∃ i, ¬ BelowMarkers (getNextCluster^[i] start)

section
variable (getNextCluster : UInt32 → UInt32) (bytesPerCluster : UInt32) (expectedSize : UInt64) (start : UInt32)

def WalkEnds : Prop :=
  expectedSize.toNat + bytesPerCluster.toNat ≤ 2 ^ 64 ∨ Leaves getNextCluster start

/-- The analysis returns: its loop ends, and the cluster size it divides by is not 0. -/
def AnalysisReturns : Prop :=
  bytesPerCluster ≠ 0 ∧ WalkEnds getNextCluster bytesPerCluster expectedSize start

def linkedClusters : List UInt32 :=
  walkWhile BelowMarkers getNextCluster
    (if expectedSize.toNat + bytesPerCluster.toNat ≤ 2 ^ 64 then
      (expectedSize.toNat + bytesPerCluster.toNat - 1) / bytesPerCluster.toNat
    else 2 ^ 32) start

end

section
variable {getNextCluster : UInt32 → UInt32} {bytesPerCluster : UInt32} {expectedSize : UInt64}

/-! ## When the last offset wraps -/

section
variable (hdvd : bytesPerCluster.toNat ∣ 2 ^ 64) (hwraps : 2 ^ 64 < expectedSize.toNat + bytesPerCluster.toNat)
include hdvd

theorem dvd_offset_add {offset : UInt64} (h : bytesPerCluster.toNat ∣ offset.toNat) :
    bytesPerCluster.toNat ∣ (offset + bytesPerCluster.toUInt64).toNat := by
  rw [UInt64.toNat_add, UInt32.toNat_toUInt64]
  apply (Nat.dvd_mod_iff hdvd).mpr
  exact Nat.dvd_add h (Nat.dvd_refl _)

include hwraps

/-- The offsets are multiples of the cluster size, and all of these are below the file size. -/
theorem offset_below {offset : UInt64} (h : bytesPerCluster.toNat ∣ offset.toNat) : offset < expectedSize := by
  have hlt := offset.toNat_lt
  have hle : bytesPerCluster.toNat ≤ 2 ^ 64 - offset.toNat :=
    Nat.le_of_dvd (Nat.sub_pos_of_lt hlt) (Nat.dvd_sub hdvd h)
  apply UInt64.lt_iff_toNat_lt.mpr
  omega

theorem overwriteWalk_of_leaves : ∀ {i rounds : Nat} {c : UInt32} {offset : UInt64},
    ¬ BelowMarkers (getNextCluster^[i] c) → i < rounds → bytesPerCluster.toNat ∣ offset.toNat →
      ∃ visits, overwriteWalk getNextCluster bytesPerCluster expectedSize rounds c offset = some visits ∧
        visits.map Prod.fst = walkWhile BelowMarkers getNextCluster i c
  | i, rounds + 1, c, offset, hleaves, hi, hoffset => by
    rw [overwriteWalk_succ]
    by_cases hc : BelowMarkers c
    · cases i with
      | zero => exact absurd hc hleaves
      | succ i =>
        have hrest : ¬ BelowMarkers (getNextCluster^[i] (getNextCluster c)) := hleaves
        obtain ⟨visits, hwalk, hclusters⟩ := overwriteWalk_of_leaves hrest (Nat.lt_of_succ_lt_succ hi)
          (dvd_offset_add hdvd hoffset)
        refine ⟨(c, offset) :: visits, ?_, ?_⟩
        · rw [if_pos ⟨offset_below hdvd hwraps hoffset, hc⟩, hwalk]
          rfl
        · rw [walkWhile_of_ok getNextCluster i hc, List.map_cons, hclusters]
    · refine ⟨[], if_neg fun h => hc h.2, ?_⟩
      rw [walkWhile_of_not getNextCluster i hc]
      rfl

theorem overwriteWalk_of_stays : ∀ (rounds : Nat) {c : UInt32} {offset : UInt64},
    (∀ i, BelowMarkers (getNextCluster^[i] c)) → bytesPerCluster.toNat ∣ offset.toNat →
      overwriteWalk getNextCluster bytesPerCluster expectedSize rounds c offset = none
  | 0, _, _, _, _ => rfl
  | rounds + 1, c, offset, hstays, hoffset => by
    rw [overwriteWalk_succ, if_pos ⟨offset_below hdvd hwraps hoffset, hstays 0⟩,
      overwriteWalk_of_stays rounds (fun i => hstays (i + 1)) (dvd_offset_add hdvd hoffset)]
    rfl

end

/-! ## The visits -/

theorem overwriteVisits_of_returns {start : UInt32}
    (hfit : bytesPerCluster ≠ 0 → expectedSize.toNat + bytesPerCluster.toNat ≤ 2 ^ 64 ∨ bytesPerCluster.toNat ∣ 2 ^ 64)
    (h : AnalysisReturns getNextCluster bytesPerCluster expectedSize start) :
    ∃ visits, overwriteVisits getNextCluster bytesPerCluster expectedSize start = .ok visits ∧
      visits.map Prod.fst = linkedClusters getNextCluster bytesPerCluster expectedSize start := by
  obtain ⟨hne, hends⟩ := h
  have hpos : 0 < bytesPerCluster := UInt32.pos_iff_ne_zero.mpr hne
  unfold linkedClusters
  by_cases hle : expectedSize.toNat + bytesPerCluster.toNat ≤ 2 ^ 64
  · rw [if_pos hle]
    exact overwriteVisits_linked getNextCluster expectedSize hpos hle start
  · rw [if_neg hle]
    have hdvd := (hfit hne).resolve_left hle
    obtain ⟨i, hi, hout⟩ := @exists_iterate_lt _ getNextCluster start (fun c => ¬ BelowMarkers c) _ UInt32.toNat _
      (fun _ _ h => UInt32.toNat_inj.mp h) UInt32.toNat_lt (hends.resolve_left hle)
    obtain ⟨visits, hwalk, hclusters⟩ := @overwriteWalk_of_leaves getNextCluster _ _ hdvd (Nat.not_le.mp hle) i
      offsetRounds start 0 hout (Nat.lt_trans hi (by decide)) (Nat.dvd_zero _)
    refine ⟨visits, ?_, ?_⟩
    · unfold overwriteVisits
      rw [if_neg hne, hwalk]
    · rw [hclusters, walkWhile_of_leaves getNextCluster hout (Nat.le_of_lt hi)]

theorem overwriteVisits_of_not_returns {start : UInt32}
    (hfit : bytesPerCluster ≠ 0 → expectedSize.toNat + bytesPerCluster.toNat ≤ 2 ^ 64 ∨ bytesPerCluster.toNat ∣ 2 ^ 64)
    (h : ¬ AnalysisReturns getNextCluster bytesPerCluster expectedSize start) :
    ∃ abort, overwriteVisits getNextCluster bytesPerCluster expectedSize start = .error abort ∧
      (bytesPerCluster ≠ 0 → abort = .divergence) := by
  unfold overwriteVisits
  by_cases hzero : bytesPerCluster = 0
  · exact ⟨.undefined, if_pos hzero, fun hne => absurd hzero hne⟩
  · obtain ⟨hwraps, hstays⟩ := not_or.mp fun hends => h ⟨hzero, hends⟩
    have hnone := @overwriteWalk_of_stays getNextCluster _ _ ((hfit hzero).resolve_left hwraps) (Nat.not_le.mp hwraps)
      offsetRounds start 0 (not_exists_not.mp hstays) (Nat.dvd_zero _)
    rw [if_neg hzero, hnone]
    exact ⟨.divergence, rfl, fun _ => rfl⟩

end

end DataRecovery
