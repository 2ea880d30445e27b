import DataRecovery.ExFAT.DepthLimit
import DataRecovery.ExFAT.Recovery
import DataRecovery.FAT32.ClusterCount

/-!
# When the analysis looks at the recovered clusters

The recovery guesses the next cluster number where a table entry is unusable; the
overwrite analysis goes wherever the entry says. The two agree on the files whose
entries are all usable up to the last cluster the size needs.
-/

namespace DataRecovery

/-! ## The two walks -/

section
variable (getNextCluster : UInt32 → UInt32)

theorem chainFrom_eq_walk : ∀ (room : Nat) (c : UInt32),
    chainFrom getNextCluster room c = walkWhile BelowMarkers (guessNext getNextCluster) room c
  | 0, _ => rfl
  | room + 1, c => by
    have ih := chainFrom_eq_walk room (guessNext getNextCluster c)
    unfold chainFrom walkWhile
    rw [ih]
    by_cases h : BelowMarkers c
    · rw [if_pos h, if_pos (by simp [h.1, h.2])]
    · rw [if_neg h, if_neg]
      intro hall
      simp only [Bool.and_eq_true, decide_eq_true_eq] at hall
      exact h hall

/-- The entry of `c` is usable, or `c` is the last number below the markers and nothing is
left to guess. -/
def LinkKept (c : UInt32) : Prop :=
  unusableLink c (getNextCluster c) = true → c + 1 = FIRST_MARKER ∧ getNextCluster c ≠ c

/-- Up to the last cluster but one of a file of `room` clusters from `start`, every entry
is one the recovery follows. -/
def LinksKept (room : Nat) (start : UInt32) : Prop :=
  ∀ i, i + 1 < room → (∀ j ≤ i, BelowMarkers (getNextCluster^[j] start)) →
    LinkKept getNextCluster (getNextCluster^[i] start)

theorem succ_belowMarkers {c : UInt32} (h : BelowMarkers c) (hne : c + 1 ≠ FIRST_MARKER) : BelowMarkers (c + 1) := by
  have h2 := UInt32.le_iff_toNat_le.mp h.1
  have hlt := UInt32.lt_iff_toNat_lt.mp h.2
  have hm : FIRST_MARKER.toNat = 0x0FFFFFF8 := rfl
  have hadd : (c + 1).toNat = c.toNat + 1 := by
    rw [UInt32.toNat_add, show (1 : UInt32).toNat = 1 from rfl, Nat.mod_eq_of_lt (by omega)]
  have hnat : (c + 1).toNat ≠ FIRST_MARKER.toNat := fun h => hne (UInt32.toNat_inj.mp h)
  exact ⟨UInt32.le_iff_toNat_le.mpr (by rw [hadd]; omega), UInt32.lt_iff_toNat_lt.mpr (by omega)⟩

theorem sameStep_iff {c : UInt32} (h : BelowMarkers c) :
    SameStep BelowMarkers getNextCluster (guessNext getNextCluster) c ↔ LinkKept getNextCluster c := by
  unfold SameStep LinkKept guessNext
  by_cases hu : unusableLink c (getNextCluster c) = true
  · rw [if_pos hu]
    have hcases := hu
    unfold unusableLink at hcases
    simp only [Bool.or_eq_true, beq_iff_eq, decide_eq_true_eq] at hcases
    have hout : getNextCluster c = c ∨ ¬ BelowMarkers (getNextCluster c) := by
      rcases hcases with (heq | hlow) | hhigh
      · exact .inl heq
      · exact .inr fun hb => absurd hlow (UInt32.not_lt.mpr hb.1)
      · exact .inr fun hb => absurd hb.2 (UInt32.not_lt.mpr hhigh)
    constructor
    · rintro (heq | ⟨hnext, hguess⟩) _
      · have hsucc : c + 1 ≠ c := by
          intro hc
          have hone : c + 1 - c = 0 := by rw [hc, UInt32.sub_self]
          rw [UInt32.add_comm, UInt32.add_sub_cancel] at hone
          exact absurd hone (by decide)
        have hne : getNextCluster c ≠ c := fun hself => hsucc (heq.symm.trans hself)
        refine ⟨?_, hne⟩
        by_contra hm
        exact hout.resolve_left hne (heq ▸ succ_belowMarkers h hm)
      · refine ⟨?_, fun hself => hnext (by rw [hself]; exact h)⟩
        by_contra hm
        exact hguess (succ_belowMarkers h hm)
    · intro hkept
      obtain ⟨hm, hne⟩ := hkept hu
      refine .inr ⟨hout.resolve_left hne, ?_⟩
      rw [hm]
      decide
  · rw [if_neg hu]
    exact ⟨fun _ h => absurd h hu, fun _ => .inl rfl⟩

theorem links_eq_chain_iff (room : Nat) (start : UInt32) :
    walkWhile BelowMarkers getNextCluster room start = chainFrom getNextCluster room start ↔
      LinksKept getNextCluster room start := by
  rw [chainFrom_eq_walk, walkWhile_congr_iff]
  exact forall₃_congr fun i _ hok => sameStep_iff getNextCluster (hok i (Nat.le_refl i))

theorem visits_eq_chain_iff {bytesPerCluster : UInt32} {expectedSize : UInt64} {startCluster : UInt32} {w count : Nat}
    (hpos : 0 < bytesPerCluster) (hw : w ≤ 2 ^ 64)
    (hcount : count = if expectedSize.toNat + bytesPerCluster.toNat ≤ w then
      (expectedSize.toNat + bytesPerCluster.toNat - 1) / bytesPerCluster.toNat else 0) :
    (∃ visits, overwriteVisits getNextCluster bytesPerCluster expectedSize startCluster = .ok visits ∧
        visits.map Prod.fst = chainFrom getNextCluster count startCluster) ↔
      ¬ BelowMarkers startCluster ∨ expectedSize = 0 ∨
        expectedSize.toNat + bytesPerCluster.toNat ≤ w ∧
          LinksKept getNextCluster
            ((expectedSize.toNat + bytesPerCluster.toNat - 1) / bytesPerCluster.toNat) startCluster := by
  have hposn : 0 < bytesPerCluster.toNat := UInt32.lt_iff_toNat_lt.mp hpos
  have hne : bytesPerCluster ≠ 0 := by intro h; rw [h] at hposn; exact absurd hposn (by decide)
  constructor
  · intro ⟨visits, hvisits, hchain⟩
    by_cases hstart : BelowMarkers startCluster
    · by_cases hsize : 0 < expectedSize
      · by_cases hfit : expectedSize.toNat + bytesPerCluster.toNat ≤ w
        · obtain ⟨linked, hlinked, hclusters⟩ :=
            overwriteVisits_linked getNextCluster _ hpos (Nat.le_trans hfit hw) startCluster
          obtain rfl : visits = linked := Except.ok.inj (hvisits.symm.trans hlinked)
          rw [hclusters, hcount, if_pos hfit] at hchain
          exact .inr (.inr ⟨hfit, (links_eq_chain_iff getNextCluster _ _).mp hchain⟩)
        · -- the count is 0, yet the start is visited
          rw [hcount, if_neg hfit] at hchain
          exact absurd (List.map_eq_nil_iff.mp hchain) (overwriteVisits_start getNextCluster hsize hstart hvisits)
      · exact .inr (.inl (by simpa using UInt64.not_lt.mp hsize))
    · exact .inl hstart
  · rintro (hstart | hsize | ⟨hfit, hkept⟩)
    · refine ⟨[], overwriteVisits_of_not getNextCluster hne fun h => hstart h.2, ?_⟩
      rw [chainFrom_eq_walk, walkWhile_of_not _ _ hstart]
      rfl
    · refine ⟨[], overwriteVisits_of_not getNextCluster hne fun h => ?_, ?_⟩
      · rw [hsize] at h
        exact absurd h.1 (UInt64.lt_irrefl 0)
      · have hzero : count = 0 := by
          rw [hcount, hsize]
          split
          · exact Nat.div_eq_of_lt (by rw [show (0 : UInt64).toNat = 0 from rfl]; omega)
          · rfl
        rw [hzero]
        rfl
    · obtain ⟨visits, hvisits, hclusters⟩ :=
        overwriteVisits_linked getNextCluster _ hpos (Nat.le_trans hfit hw) startCluster
      refine ⟨visits, hvisits, ?_⟩
      rw [hclusters, hcount, if_pos hfit]
      exact (links_eq_chain_iff getNextCluster _ _).mpr hkept

end

theorem analysis_records {getNextCluster : UInt32 → UInt32} {bytesPerCluster startCluster : UInt32}
    {expectedSize : UInt64} {visits : List (UInt32 × UInt64)} (expectedClusters : UInt64)
    (h : overwriteVisits getNextCluster bytesPerCluster expectedSize startCluster = .ok visits) (st : AnalysisState) :
    ∃ a st', analyzeClusterOverwrites getNextCluster bytesPerCluster expectedClusters startCluster expectedSize st =
        .ok (a, st') ∧
      ∀ c, st'.clusterHistory c = st.clusterHistory c ++ usagesOf st.nextFileId visits c := by
  refine ⟨(analyzeVisits expectedClusters visits st).1, (analyzeVisits expectedClusters visits st).2, ?_, ?_⟩
  · rw [analyzeClusterOverwrites_eq, h]
    rfl
  · exact fun c => replayVisits_history st.nextFileId visits st.clusterHistory {} c

/-! ## Both engines -/

namespace FAT32

def AnalysisFollowsChain (v : Volume) (startCluster size : UInt32) : Prop :=
  ∃ visits, overwriteVisits v.getNextCluster v.bytesPerCluster size.toUInt64 startCluster = .ok visits ∧
    (∀ st, ∃ a st', analyzeClusterOverwrites v startCluster size st = .ok (a, st') ∧
      ∀ c, st'.clusterHistory c = st.clusterHistory c ++ usagesOf st.nextFileId visits c) ∧
    ∀ config outputPath isExtensionPredicted st,
      visits.map Prod.fst = (validateClusterChain v config (startStatus v size) startCluster size outputPath
        isExtensionPredicted st).1

theorem analysisFollowsChain_iff (v : Volume) (startCluster size : UInt32) :
    AnalysisFollowsChain v startCluster size ↔
      ∃ visits, overwriteVisits v.getNextCluster v.bytesPerCluster size.toUInt64 startCluster = .ok visits ∧
        visits.map Prod.fst = chainFrom v.getNextCluster (v.expectedClusters size).toNat startCluster := by
  constructor
  · intro ⟨visits, hvisits, _, hall⟩
    exact ⟨visits, hvisits, (hall {} ⟨[], []⟩ false {}).trans (validateClusterChain_chain ..)⟩
  · intro ⟨visits, hvisits, heq⟩
    exact ⟨visits, hvisits, analysis_records _ hvisits, fun _ _ _ _ => heq.trans (validateClusterChain_chain ..).symm⟩

end FAT32

namespace ExFAT

def AnalysisFollowsChain (v : Volume) (startCluster : UInt32) (size : UInt64) : Prop :=
  ∃ visits, overwriteVisits v.getNextCluster v.analysisBytesPerCluster size startCluster = .ok visits ∧
    (∀ st, ∃ a st', analyzeClusterOverwrites v startCluster size st = .ok (a, st') ∧
      ∀ c, st'.clusterHistory c = st.clusterHistory c ++ usagesOf st.nextFileId visits c) ∧
    ∀ config outputPath isExtensionPredicted st,
      visits.map Prod.fst = (validateClusterChain v config (startStatus v size) startCluster size outputPath
        isExtensionPredicted st).1

theorem analysisFollowsChain_iff (v : Volume) (startCluster : UInt32) (size : UInt64) :
    AnalysisFollowsChain v startCluster size ↔
      ∃ visits, overwriteVisits v.getNextCluster v.analysisBytesPerCluster size startCluster = .ok visits ∧
        visits.map Prod.fst = chainFrom v.getNextCluster (v.expectedClusters size).toNat startCluster := by
  constructor
  · intro ⟨visits, hvisits, _, hall⟩
    exact ⟨visits, hvisits, (hall {} ⟨[], []⟩ false {}).trans (validateClusterChain_chain ..)⟩
  · intro ⟨visits, hvisits, heq⟩
    exact ⟨visits, hvisits, analysis_records _ hvisits, fun _ _ _ _ => heq.trans (validateClusterChain_chain ..).symm⟩

end ExFAT

/-- The analysis follows the recovered chain exactly when there is nothing to follow, or when the
count does not wrap and every entry it needs is one the recovery uses. -/
theorem analysis_follows_chain_iff (startCluster : UInt32) :
    (∀ (v : FAT32.Volume) (size : UInt32), FAT32.AnalysisFollowsChain v startCluster size ↔
      ¬ BelowMarkers startCluster ∨ size = 0 ∨
        size.toNat + v.bytesPerCluster.toNat ≤ 2 ^ 32 ∧
          LinksKept v.getNextCluster (FAT32.clustersFor v size.toNat) startCluster) ∧
    (∀ (v : ExFAT.Volume) (size : UInt64), ExFAT.AnalysisFollowsChain v startCluster size ↔
      v.analysisBytesPerCluster ≠ 0 ∧ (¬ BelowMarkers startCluster ∨ size = 0 ∨
        size.toNat + v.bytesPerCluster.toNat ≤ 2 ^ 64 ∧
          LinksKept v.getNextCluster
            ((size.toNat + v.bytesPerCluster.toNat - 1) / v.bytesPerCluster.toNat) startCluster)) := by
  constructor
  · intro v size
    have hsize : size.toUInt64.toNat = size.toNat := UInt32.toNat_toUInt64 _
    have hzero : size.toUInt64 = 0 ↔ size = 0 := by
      rw [← UInt64.toNat_inj, ← UInt32.toNat_inj, hsize]
      rfl
    rw [FAT32.analysisFollowsChain_iff,
      visits_eq_chain_iff (w := 2 ^ 32) v.getNextCluster v.bytesPerCluster_pos (by decide)
        (by rw [hsize]; exact FAT32.expectedClusters_wrapped v size), hzero, hsize]
    rfl
  · intro v size
    rw [ExFAT.analysisFollowsChain_iff]
    by_cases hne : v.analysisBytesPerCluster = 0
    · refine iff_of_false ?_ fun h => h.1 hne
      intro ⟨visits, hvisits, _⟩
      unfold overwriteVisits at hvisits
      rw [if_pos hne] at hvisits
      cases hvisits
    · have hbpc := v.analysisBytesPerCluster_toNat hne
      have hpos : 0 < v.analysisBytesPerCluster := UInt32.pos_iff_ne_zero.mpr hne
      have hposn : 0 < v.bytesPerCluster.toNat := hbpc ▸ UInt32.lt_iff_toNat_lt.mp hpos
      rw [visits_eq_chain_iff (w := 2 ^ 64) v.getNextCluster hpos (Nat.le_refl _)
        (by rw [hbpc]; exact v.expectedClusters_wrapped hposn size), hbpc]
      exact ⟨fun h => ⟨hne, h⟩, fun h => h.2⟩

/-- A deleted file of two clusters whose table entries are zeroed: the second cluster is
recovered and not looked at. -/
theorem analysis_stops_at_zero :
    ¬ ((∀ (v : FAT32.Volume) (startCluster size : UInt32), FAT32.AnalysisFollowsChain v startCluster size) ∧
      ∀ (v : ExFAT.Volume) (startCluster : UInt32) (size : UInt64), ExFAT.AnalysisFollowsChain v startCluster size) := by
  intro ⟨h, _⟩
  let v := FAT32.smallVolume []
  obtain ⟨visits, hvisits, hchain⟩ := (FAT32.analysisFollowsChain_iff v 4 600).mp (h v 4 600)
  obtain ⟨linked, hlinked, hclusters⟩ := overwriteVisits_linked v.getNextCluster
    (600 : UInt32).toUInt64 v.bytesPerCluster_pos (by decide) 4
  obtain rfl : visits = linked := Except.ok.inj (hvisits.symm.trans hlinked)
  have hone : walkWhile BelowMarkers v.getNextCluster
      (((600 : UInt32).toUInt64.toNat + v.bytesPerCluster.toNat - 1) / v.bytesPerCluster.toNat) 4 = [4] := by
    decide +kernel
  have htwo : chainFrom v.getNextCluster (v.expectedClusters 600).toNat 4 = [4, 5] := by decide +kernel
  rw [hone] at hclusters
  rw [hclusters, htwo] at hchain
  exact absurd hchain (by decide)

end DataRecovery
