import DataRecovery.Chain
import DataRecovery.Chunks
import DataRecovery.Walks

/-!
# The walk of the overwrite analysis

Which clusters `analyzeClusterOverwrites` visits depends on the table, the start
and the size only. The analysis is a replay of these visits over the history, and
unless the offset wraps around they are the clusters along the table's links.
-/

namespace DataRecovery

/-! ## Visits and their replay -/

def BelowMarkers (cluster : UInt32) : Prop := 2 ≤ cluster ∧ cluster < FIRST_MARKER

instance : DecidablePred BelowMarkers := fun cluster => inferInstanceAs (Decidable (2 ≤ cluster ∧ cluster < FIRST_MARKER))

section
variable (getNextCluster : UInt32 → UInt32) (bytesPerCluster : UInt32) (expectedSize : UInt64)

/-- The clusters the loop of `analyzeClusterOverwrites` visits, with the offsets it
records for them; `none` as for the loop. -/
def overwriteWalk : Nat → UInt32 → UInt64 → Option (List (UInt32 × UInt64))
  | 0, _, _ => none
  | rounds + 1, currentCluster, currentOffset =>
    if currentOffset < expectedSize && 2 ≤ currentCluster && currentCluster < FIRST_MARKER then
      (overwriteWalk rounds (getNextCluster currentCluster) (currentOffset + bytesPerCluster.toUInt64)).map fun visits =>
        (currentCluster, currentOffset) :: visits
    else some []

def overwriteVisits (startCluster : UInt32) : Except Abort (List (UInt32 × UInt64)) :=
  if bytesPerCluster = 0 then .error .undefined
  else match overwriteWalk getNextCluster bytesPerCluster expectedSize offsetRounds startCluster 0 with
  | none => .error .divergence
  | some visits => .ok visits

end

def replayVisits (fileId : UInt32) : List (UInt32 × UInt64) → ClusterHistory → OverwriteAnalysis →
    ClusterHistory × OverwriteAnalysis
  | [], history, a => (history, a)
  | (cluster, offset) :: visits, history, a =>
    replayVisits fileId visits (history.recordClusterUsage cluster fileId offset)
      (noteOverlaps cluster (history.findOverlappingUsage cluster) a)

theorem overwriteLoop_eq (getNextCluster : UInt32 → UInt32) (bytesPerCluster : UInt32) (expectedSize : UInt64)
    (fileId : UInt32) : ∀ (rounds : Nat) (c : UInt32) (offset : UInt64) (history : ClusterHistory)
      (a : OverwriteAnalysis),
      overwriteLoop getNextCluster bytesPerCluster expectedSize fileId rounds c offset history a =
        (overwriteWalk getNextCluster bytesPerCluster expectedSize rounds c offset).map fun visits =>
          replayVisits fileId visits history a
  | 0, _, _, _, _ => rfl
  | rounds + 1, c, offset, history, a => by
    unfold overwriteLoop overwriteWalk
    split
    · rw [overwriteLoop_eq getNextCluster bytesPerCluster expectedSize fileId rounds, Option.map_map]
      rfl
    · rfl

def OverwriteAnalysis.withPercentage (expectedClusters : UInt64) (a : OverwriteAnalysis) : OverwriteAnalysis :=
  if a.overwrittenClusters ≠ [] then
    { a with overwritePercentage := a.overwrittenClusters.length / expectedClusters.toNat * 100 }
  else a

def analyzeVisits (expectedClusters : UInt64) (visits : List (UInt32 × UInt64)) (st : AnalysisState) :
    OverwriteAnalysis × AnalysisState :=
  let replayed := replayVisits st.nextFileId visits st.clusterHistory {}
  (replayed.2.withPercentage expectedClusters,
    { clusterHistory := replayed.1, nextFileId := st.nextFileId + 1 })

theorem analyzeClusterOverwrites_eq (getNextCluster : UInt32 → UInt32) (bytesPerCluster : UInt32)
    (expectedClusters : UInt64) (startCluster : UInt32) (expectedSize : UInt64) (st : AnalysisState) :
    analyzeClusterOverwrites getNextCluster bytesPerCluster expectedClusters startCluster expectedSize st =
      (overwriteVisits getNextCluster bytesPerCluster expectedSize startCluster).map fun visits =>
        analyzeVisits expectedClusters visits st := by
  unfold analyzeClusterOverwrites overwriteVisits
  split
  · rfl
  · rw [overwriteLoop_eq]
    cases overwriteWalk getNextCluster bytesPerCluster expectedSize offsetRounds startCluster 0 with
    | none => rfl
    | some visits => rfl

theorem overwriteWalk_succ (getNextCluster : UInt32 → UInt32) (bytesPerCluster : UInt32) (expectedSize : UInt64)
    (rounds : Nat) (c : UInt32) (offset : UInt64) :
    overwriteWalk getNextCluster bytesPerCluster expectedSize (rounds + 1) c offset =
      if offset < expectedSize ∧ BelowMarkers c then
        (overwriteWalk getNextCluster bytesPerCluster expectedSize rounds (getNextCluster c)
          (offset + bytesPerCluster.toUInt64)).map fun visits => (c, offset) :: visits
      else some [] := by
  rw [overwriteWalk]
  by_cases h : offset < expectedSize ∧ BelowMarkers c
  · rw [if_pos h, if_pos (by simp [h.1, h.2.1, h.2.2])]
  · rw [if_neg h, if_neg]
    intro hall
    simp only [Bool.and_eq_true, decide_eq_true_eq] at hall
    exact h ⟨hall.1.1, hall.1.2, hall.2⟩

/-! ## What a replay records and finds -/

section
variable (fileId : UInt32)

def usagesOf (visits : List (UInt32 × UInt64)) (cluster : UInt32) : List ClusterUsage :=
  (visits.filter fun visit => visit.1 = cluster).map fun visit => ⟨fileId, true, visit.2⟩

theorem usagesOf_nil (cluster : UInt32) : usagesOf fileId [] cluster = [] := rfl

theorem usagesOf_cons (visit : UInt32 × UInt64) (visits : List (UInt32 × UInt64)) (c : UInt32) :
    usagesOf fileId (visit :: visits) c =
      if visit.1 = c then ⟨fileId, true, visit.2⟩ :: usagesOf fileId visits c else usagesOf fileId visits c := by
  unfold usagesOf
  rw [List.filter_cons]
  by_cases h : visit.1 = c
  · simp [h]
  · simp [h]

theorem replayVisits_history : ∀ (visits : List (UInt32 × UInt64)) (history : ClusterHistory) (a : OverwriteAnalysis)
    (c : UInt32), (replayVisits fileId visits history a).1 c = history c ++ usagesOf fileId visits c
  | [], _, _, _ => by simp [replayVisits, usagesOf]
  | (cluster, offset) :: visits, history, a, c => by
    rw [replayVisits, replayVisits_history visits, usagesOf_cons]
    unfold ClusterHistory.recordClusterUsage
    by_cases h : c = cluster
    · rw [if_pos h, if_pos h.symm, List.append_assoc]; rfl
    · rw [if_neg h, if_neg fun h' => h h'.symm]

theorem mem_noteOverlaps {cluster c : UInt32} {overlaps : List (ClusterUsage × ClusterUsage)} {a : OverwriteAnalysis} :
    c ∈ (noteOverlaps cluster overlaps a).overwrittenClusters ↔
      c ∈ a.overwrittenClusters ∨ c = cluster ∧ overlaps ≠ [] := by
  unfold noteOverlaps
  split
  · rename_i h; simp [h]
  · rename_i h; simp [h]

/-- A cluster is listed when, at one of its visits, two usages recorded before overlap. -/
theorem mem_replayVisits : ∀ (visits : List (UInt32 × UInt64)) (history : ClusterHistory) (a : OverwriteAnalysis)
    (c : UInt32), c ∈ (replayVisits fileId visits history a).2.overwrittenClusters ↔
      c ∈ a.overwrittenClusters ∨ ∃ pre visit post, visits = pre ++ visit :: post ∧ visit.1 = c ∧
        ClusterHistory.overlapsIn (history c ++ usagesOf fileId pre c) ≠ []
  | [], _, _, _ => by simp [replayVisits]
  | (cluster, offset) :: visits, history, a, c => by
    have hrecord : ∀ pre, (history.recordClusterUsage cluster fileId offset) c ++ usagesOf fileId pre c =
        history c ++ usagesOf fileId ((cluster, offset) :: pre) c := by
      intro pre
      rw [usagesOf_cons]
      unfold ClusterHistory.recordClusterUsage
      by_cases h : c = cluster
      · rw [if_pos h, if_pos h.symm, List.append_assoc]; rfl
      · rw [if_neg h, if_neg fun h' => h h'.symm]
    rw [replayVisits, mem_replayVisits visits, mem_noteOverlaps, or_assoc]
    refine or_congr Iff.rfl ⟨?_, ?_⟩
    · rintro (⟨rfl, hne⟩ | ⟨pre, visit, post, rfl, hc, hne⟩)
      · refine ⟨[], _, visits, rfl, rfl, ?_⟩
        rw [usagesOf_nil, List.append_nil]
        exact hne
      · exact ⟨(cluster, offset) :: pre, visit, post, rfl, hc, by rw [← hrecord]; exact hne⟩
    · rintro ⟨pre, visit, post, heq, hc, hne⟩
      cases pre with
      | nil =>
        obtain ⟨rfl, rfl⟩ := List.cons.inj heq
        rw [usagesOf_nil, List.append_nil] at hne
        subst hc
        exact .inl ⟨rfl, hne⟩
      | cons first pre =>
        obtain ⟨rfl, rfl⟩ := List.cons.inj heq
        exact .inr ⟨pre, visit, post, rfl, hc, by rw [hrecord]; exact hne⟩

theorem replayVisits_hasOverwrite : ∀ (visits : List (UInt32 × UInt64)) (history : ClusterHistory)
    (a : OverwriteAnalysis), (a.hasOverwrite = true ↔ a.overwrittenClusters ≠ []) →
      ((replayVisits fileId visits history a).2.hasOverwrite = true ↔
        (replayVisits fileId visits history a).2.overwrittenClusters ≠ [])
  | [], _, _, h => h
  | (cluster, offset) :: visits, history, a, h => by
    rw [replayVisits]
    refine replayVisits_hasOverwrite visits _ _ ?_
    unfold noteOverlaps
    split
    · exact h
    · simp

theorem replayVisits_percentage : ∀ (visits : List (UInt32 × UInt64)) (history : ClusterHistory)
    (a : OverwriteAnalysis), (replayVisits fileId visits history a).2.overwritePercentage = a.overwritePercentage
  | [], _, _ => rfl
  | (cluster, offset) :: visits, history, a => by
    rw [replayVisits, replayVisits_percentage visits]
    unfold noteOverlaps
    split
    · rfl
    · rfl

theorem length_replayVisits : ∀ (visits : List (UInt32 × UInt64)) (history : ClusterHistory) (a : OverwriteAnalysis),
    (replayVisits fileId visits history a).2.overwrittenClusters.length ≤ a.overwrittenClusters.length + visits.length
  | [], _, _ => Nat.le_refl _
  | (cluster, offset) :: visits, history, a => by
    rw [replayVisits]
    have ih := length_replayVisits visits (history.recordClusterUsage cluster fileId offset)
      (noteOverlaps cluster (history.findOverlappingUsage cluster) a)
    have hnote : (noteOverlaps cluster (history.findOverlappingUsage cluster) a).overwrittenClusters.length ≤
        a.overwrittenClusters.length + 1 := by
      unfold noteOverlaps
      split
      · exact Nat.le_succ _
      · rw [List.length_append]; rfl
    rw [List.length_cons]
    omega

end

theorem withPercentage_clusters (expectedClusters : UInt64) (a : OverwriteAnalysis) :
    (a.withPercentage expectedClusters).overwrittenClusters = a.overwrittenClusters := by
  unfold OverwriteAnalysis.withPercentage
  split
  · rfl
  · rfl

theorem withPercentage_hasOverwrite (expectedClusters : UInt64) (a : OverwriteAnalysis) :
    (a.withPercentage expectedClusters).hasOverwrite = a.hasOverwrite := by
  unfold OverwriteAnalysis.withPercentage
  split
  · rfl
  · rfl

theorem withPercentage_percentage (expectedClusters : UInt64) {a : OverwriteAnalysis} (h : a.overwritePercentage = 0) :
    (a.withPercentage expectedClusters).overwritePercentage =
      (a.overwrittenClusters.length : Rat) / expectedClusters.toNat * 100 := by
  unfold OverwriteAnalysis.withPercentage
  split
  · rfl
  · rename_i hnil
    rw [h, not_not.mp hnil]
    simp

/-! ## Along the links -/

section
variable (getNextCluster : UInt32 → UInt32)

theorem overwriteWalk_linked {bytesPerCluster : UInt32} {expectedSize : UInt64} (hpos : 0 < bytesPerCluster.toNat)
    (hfit : expectedSize.toNat + bytesPerCluster.toNat ≤ 2 ^ 64) :
    ∀ (rounds : Nat) (c : UInt32) (offset : UInt64), expectedSize.toNat - offset.toNat < rounds →
      ∃ visits, overwriteWalk getNextCluster bytesPerCluster expectedSize rounds c offset = some visits ∧
        visits.map Prod.fst = walkWhile BelowMarkers getNextCluster
          ((expectedSize.toNat - offset.toNat + bytesPerCluster.toNat - 1) / bytesPerCluster.toNat) c
  | 0, _, _, h => absurd h (Nat.not_lt_zero _)
  | rounds + 1, c, offset, h => by
    by_cases hoff : offset < expectedSize
    · have hlt := UInt64.lt_iff_toNat_lt.mp hoff
      have hadd : (offset + bytesPerCluster.toUInt64).toNat = offset.toNat + bytesPerCluster.toNat := by
        rw [UInt64.toNat_add, UInt32.toNat_toUInt64, Nat.mod_eq_of_lt (by omega)]
      have hroom : (expectedSize.toNat - offset.toNat + bytesPerCluster.toNat - 1) / bytesPerCluster.toNat =
          (expectedSize.toNat - (offset + bytesPerCluster.toUInt64).toNat + bytesPerCluster.toNat - 1) /
            bytesPerCluster.toNat + 1 := by
        rw [hadd, ← Nat.add_div_right _ hpos]
        by_cases hle : offset.toNat + bytesPerCluster.toNat ≤ expectedSize.toNat
        · congr 1; omega
        · rw [show expectedSize.toNat - (offset.toNat + bytesPerCluster.toNat) = 0 by omega, Nat.zero_add,
            show expectedSize.toNat - offset.toNat + bytesPerCluster.toNat - 1 =
              expectedSize.toNat - offset.toNat - 1 + bytesPerCluster.toNat by omega,
            Nat.add_div_right _ hpos, Nat.add_div_right _ hpos, Nat.div_eq_of_lt (by omega),
            Nat.div_eq_of_lt (by omega)]
      by_cases hc : BelowMarkers c
      · obtain ⟨visits, hwalk, hclusters⟩ := overwriteWalk_linked hpos hfit rounds (getNextCluster c)
          (offset + bytesPerCluster.toUInt64) (by omega)
        refine ⟨(c, offset) :: visits, ?_, ?_⟩
        · rw [overwriteWalk_succ, if_pos ⟨hoff, hc⟩, hwalk]
          rfl
        · rw [hroom, walkWhile_of_ok getNextCluster _ hc, List.map_cons, hclusters]
      · refine ⟨[], ?_, ?_⟩
        · rw [overwriteWalk_succ, if_neg fun h => hc h.2]
        · rw [walkWhile_of_not getNextCluster _ hc]; rfl
    · have hge : expectedSize.toNat ≤ offset.toNat := Nat.le_of_not_lt (mt UInt64.lt_iff_toNat_lt.mpr hoff)
      refine ⟨[], ?_, ?_⟩
      · rw [overwriteWalk_succ, if_neg fun h => hoff h.1]
      · rw [Nat.sub_eq_zero_of_le hge, Nat.zero_add, Nat.div_eq_of_lt (by omega)]
        rfl

/-- Unless adding up the last offset wraps, the analysis visits the clusters along the links,
one for each cluster the size needs. -/
theorem overwriteVisits_linked {bytesPerCluster : UInt32} (expectedSize : UInt64) (hpos : 0 < bytesPerCluster)
    (hfit : expectedSize.toNat + bytesPerCluster.toNat ≤ 2 ^ 64) (startCluster : UInt32) :
    ∃ visits, overwriteVisits getNextCluster bytesPerCluster expectedSize startCluster = .ok visits ∧
      visits.map Prod.fst = walkWhile BelowMarkers getNextCluster
        ((expectedSize.toNat + bytesPerCluster.toNat - 1) / bytesPerCluster.toNat) startCluster := by
  have hposn : 0 < bytesPerCluster.toNat := UInt32.lt_iff_toNat_lt.mp hpos
  have hne : bytesPerCluster ≠ 0 := by intro h; rw [h] at hposn; exact absurd hposn (by decide)
  have hrounds : expectedSize.toNat - (0 : UInt64).toNat < offsetRounds :=
    Nat.lt_of_le_of_lt (Nat.sub_le _ _) expectedSize.toNat_lt
  obtain ⟨visits, hwalk, hclusters⟩ :=
    overwriteWalk_linked getNextCluster hposn hfit offsetRounds startCluster 0 hrounds
  refine ⟨visits, ?_, hclusters⟩
  unfold overwriteVisits
  rw [if_neg hne, hwalk]

theorem overwriteVisits_start {bytesPerCluster : UInt32} {expectedSize : UInt64} {startCluster : UInt32}
    (hsize : 0 < expectedSize) (hstart : BelowMarkers startCluster) {visits : List (UInt32 × UInt64)}
    (h : overwriteVisits getNextCluster bytesPerCluster expectedSize startCluster = .ok visits) : visits ≠ [] := by
  unfold overwriteVisits at h
  split at h
  · cases h
  · rw [show offsetRounds = (2 ^ 64 - 1) + 1 from rfl, overwriteWalk_succ, if_pos ⟨hsize, hstart⟩] at h
    generalize overwriteWalk getNextCluster bytesPerCluster expectedSize (2 ^ 64 - 1) (getNextCluster startCluster)
      (0 + bytesPerCluster.toUInt64) = rest at h
    cases rest with
    | none => cases h
    | some rest =>
      obtain rfl := Except.ok.inj h
      exact List.cons_ne_nil _ _

theorem overwriteVisits_of_not {bytesPerCluster : UInt32} {expectedSize : UInt64} {startCluster : UInt32}
    (hpos : bytesPerCluster ≠ 0) (h : ¬ (0 < expectedSize ∧ BelowMarkers startCluster)) :
    overwriteVisits getNextCluster bytesPerCluster expectedSize startCluster = .ok [] := by
  unfold overwriteVisits
  rw [if_neg hpos, show offsetRounds = (2 ^ 64 - 1) + 1 from rfl, overwriteWalk_succ, if_neg h]

end

end DataRecovery
