import DataRecovery.Folds
import DataRecovery.OverwriteDetection

/-!
# Queries of the cluster history

The history is a map whose lookups insert the cluster that is looked up. Only the usages
recorded for a cluster matter to what a query of it returns, so the lookups of other
queries are not seen, and neither are the times of the usages.
-/

namespace DataRecovery

structure StampedUsage extends ClusterUsage where
  timestamp : UInt64

/-- `clusterUsageHistory`, with `none` where the map has no entry. -/
abbrev UsageMap := UInt32 → Option (List StampedUsage)

namespace UsageMap

/-- The subscript of a map: a missing entry is inserted, with no usages. -/
def access (clusterUsageHistory : UsageMap) (cluster : UInt32) : List StampedUsage × UsageMap :=
  let history := (clusterUsageHistory cluster).getD []
  (history, Function.update clusterUsageHistory cluster (some history))

def recordClusterUsage (clusterUsageHistory : UsageMap) (now : UInt64) (cluster fileId : UInt32)
    (writeOffset : UInt64) : UsageMap :=
  let usage : StampedUsage := { timestamp := now, fileId, isDeleted := true, writeOffset }
  let (history, clusterUsageHistory) := clusterUsageHistory.access cluster
  Function.update clusterUsageHistory cluster (some (history ++ [usage]))

def comparePair (history : List StampedUsage) (i j : Nat) (overlaps : List (StampedUsage × StampedUsage)) :
    List (StampedUsage × StampedUsage) :=
  match pairAt history (i, j) with
  | some (u, w) =>
    if u.fileId != w.fileId && u.isDeleted && w.isDeleted then overlaps ++ [(u, w)] else overlaps
  -- not met: both places are below the size
  | none => overlaps

def findOverlappingUsage (clusterUsageHistory : UsageMap) (cluster : UInt32) :
    List (StampedUsage × StampedUsage) × UsageMap :=
  let (history, clusterUsageHistory) := clusterUsageHistory.access cluster
  let overlaps := (List.range history.length).foldl (fun overlaps i =>
    (List.range' (i + 1) (history.length - (i + 1))).foldl (fun overlaps j => comparePair history i j overlaps)
      overlaps) []
  (overlaps, clusterUsageHistory)

end UsageMap

/-! ## The loops -/

def StampedUsage.overlaps (u w : StampedUsage) : Bool := u.toClusterUsage.overlaps w.toClusterUsage

section
variable (history : List StampedUsage) (overlaps : List (StampedUsage × StampedUsage))

theorem comparePair_eq (i j : Nat) : UsageMap.comparePair history i j overlaps =
    overlaps ++ ((pairAt history (i, j)).filter fun pair => pair.1.overlaps pair.2).toList := by
  unfold UsageMap.comparePair
  cases pairAt history (i, j) with
  | none => exact (List.append_nil _).symm
  | some pair =>
    rw [Option.filter_some]
    change (if pair.1.overlaps pair.2 = true then _ else _) = _
    split
    · rfl
    · exact (List.append_nil _).symm

theorem innerLoop_eq (i : Nat) (js : List Nat) :
    js.foldl (fun overlaps j => UsageMap.comparePair history i j overlaps) overlaps =
      overlaps ++ js.flatMap fun j => ((pairAt history (i, j)).filter fun pair => pair.1.overlaps pair.2).toList :=
  foldl_collect (UsageMap.comparePair history i) id _ (fun j overlaps => comparePair_eq history overlaps i j) js overlaps

end

theorem findOverlappingUsage_fst (m : UsageMap) (cluster : UInt32) :
    (m.findOverlappingUsage cluster).1 = testedPairs StampedUsage.overlaps ((m cluster).getD []) := by
  have houter := foldl_collect (fun i overlaps =>
      (List.range' (i + 1) (((m cluster).getD []).length - (i + 1))).foldl
        (fun overlaps j => UsageMap.comparePair ((m cluster).getD []) i j overlaps) overlaps) id _
    (fun i overlaps => innerLoop_eq ((m cluster).getD []) overlaps i _)
    (List.range ((m cluster).getD []).length) []
  rw [testedPairs, ← filterMap_pairAt, List.filter_filterMap, List.filterMap_eq_flatMap_toList, indexPairs,
    List.flatMap_assoc]
  refine houter.trans (List.flatMap_congr fun i _ => ?_)
  rw [List.flatMap_map]

/-! ## Sequences of calls -/

inductive HistoryCall where
  | record (now : UInt64) (cluster fileId : UInt32) (writeOffset : UInt64)
  | query (cluster : UInt32)

namespace HistoryCall

def run : HistoryCall → UsageMap → UsageMap
  | .record now cluster fileId writeOffset, m => m.recordClusterUsage now cluster fileId writeOffset
  | .query cluster, m => (m.findOverlappingUsage cluster).2

def recorded (c : UInt32) : HistoryCall → List StampedUsage
  | .record now cluster fileId writeOffset =>
    if cluster = c then [{ timestamp := now, fileId, isDeleted := true, writeOffset }] else []
  | .query _ => []

end HistoryCall

def runCalls (calls : List HistoryCall) : UsageMap := calls.foldl (fun m call => call.run m) fun _ => none

def answer (calls : List HistoryCall) (c : UInt32) : List (StampedUsage × StampedUsage) :=
  ((runCalls calls).findOverlappingUsage c).1

def usagesRecorded (calls : List HistoryCall) (c : UInt32) : List StampedUsage := calls.flatMap (HistoryCall.recorded c)

/-- An entry that is inserted with no usages reads as the missing one did. -/
theorem access_getD (m : UsageMap) (cluster c : UInt32) : ((m.access cluster).2 c).getD [] = (m c).getD [] := by
  unfold UsageMap.access
  dsimp only
  by_cases h : c = cluster
  · rw [h, Function.update_self, Option.getD_some]
  · rw [Function.update_of_ne h]

theorem run_getD (c : UInt32) (call : HistoryCall) (m : UsageMap) :
    (call.run m c).getD [] = (m c).getD [] ++ call.recorded c := by
  cases call with
  | record now cluster fileId writeOffset =>
    change (Function.update (m.access cluster).2 cluster _ c).getD [] = _
    by_cases h : c = cluster
    · rw [h, Function.update_self, Option.getD_some, HistoryCall.recorded, if_pos rfl]
    · rw [Function.update_of_ne h, access_getD, HistoryCall.recorded, if_neg (Ne.symm h), List.append_nil]
  | query cluster =>
    rw [HistoryCall.recorded, List.append_nil]
    exact access_getD m cluster c

theorem runCalls_getD (calls : List HistoryCall) (c : UInt32) :
    (runCalls calls c).getD [] = usagesRecorded calls c :=
  foldl_collect HistoryCall.run (fun m => (m c).getD []) _ (run_getD c) calls _

theorem answer_eq (calls : List HistoryCall) (c : UInt32) :
    answer calls c = testedPairs StampedUsage.overlaps (usagesRecorded calls c) := by
  rw [answer, findOverlappingUsage_fst, runCalls_getD]

theorem overlaps_of_recorded {calls : List HistoryCall} {c : UInt32} {u w : StampedUsage}
    (hu : u ∈ usagesRecorded calls c) (hw : w ∈ usagesRecorded calls c) :
    u.overlaps w = true ↔ u.fileId ≠ w.fileId := by
  have hdeleted : ∀ u ∈ usagesRecorded calls c, u.isDeleted = true := by
    intro u hu
    obtain ⟨call, -, hcall⟩ := List.mem_flatMap.mp hu
    cases call with
    | record now cluster fileId writeOffset =>
      rw [HistoryCall.recorded] at hcall
      split at hcall
      · obtain rfl := List.mem_singleton.mp hcall
        rfl
      · cases hcall
    | query cluster => cases hcall
  unfold StampedUsage.overlaps
  rw [overlaps_iff]
  exact and_iff_right ⟨hdeleted u hu, hdeleted w hw⟩

theorem answer_eq_nil_iff {calls : List HistoryCall} {c : UInt32} :
    answer calls c = [] ↔ ∀ u ∈ usagesRecorded calls c, ∀ w ∈ usagesRecorded calls c, u.fileId = w.fileId := by
  rw [answer_eq, testedPairs_eq_nil_iff_forall StampedUsage.overlaps
    (fun u w => overlaps_symm u.toClusterUsage w.toClusterUsage) fun u => overlaps_self u.toClusterUsage]
  refine forall₂_congr fun u hu => forall₂_congr fun w hw => ?_
  rw [← Bool.not_eq_true, overlaps_of_recorded hu hw, not_not]

/-! ## The history of the analysis -/

/-- The history as the analysis has it: without the times, and without the entries that have no usages. -/
def UsageMap.forget (m : UsageMap) : ClusterHistory := fun c => ((m c).getD []).map StampedUsage.toClusterUsage

theorem recordClusterUsage_forget (m : UsageMap) (now : UInt64) (cluster fileId : UInt32) (writeOffset : UInt64) :
    (m.recordClusterUsage now cluster fileId writeOffset).forget =
      m.forget.recordClusterUsage cluster fileId writeOffset := by
  funext c
  have hrun := run_getD c (.record now cluster fileId writeOffset) m
  change ((m.recordClusterUsage now cluster fileId writeOffset c).getD []) = _ at hrun
  rw [UsageMap.forget, hrun, HistoryCall.recorded, ClusterHistory.recordClusterUsage]
  by_cases h : cluster = c
  · rw [if_pos h, if_pos h.symm, List.map_append]
    rfl
  · rw [if_neg h, if_neg (Ne.symm h), List.append_nil]
    rfl

theorem findOverlappingUsage_forget (m : UsageMap) (cluster : UInt32) :
    (m.findOverlappingUsage cluster).1.map (Prod.map StampedUsage.toClusterUsage StampedUsage.toClusterUsage) =
        m.forget.findOverlappingUsage cluster ∧
      (m.findOverlappingUsage cluster).2.forget = m.forget := by
  constructor
  · rw [findOverlappingUsage_fst, ClusterHistory.findOverlappingUsage, overlapsIn_eq, UsageMap.forget, testedPairs_map]
    rfl
  · funext c
    exact congrArg _ (access_getD m cluster c)

/-- The call on the history of the analysis, where a query changes nothing. -/
def HistoryCall.runHistory : HistoryCall → ClusterHistory → ClusterHistory
  | .record _ cluster fileId writeOffset, history => history.recordClusterUsage cluster fileId writeOffset
  | .query _, history => history

theorem run_forget (call : HistoryCall) (m : UsageMap) : (call.run m).forget = call.runHistory m.forget := by
  cases call with
  | record now cluster fileId writeOffset => exact recordClusterUsage_forget m now cluster fileId writeOffset
  | query cluster => exact (findOverlappingUsage_forget m cluster).2

theorem foldl_run_forget : ∀ (calls : List HistoryCall) (m : UsageMap),
    (calls.foldl (fun m call => call.run m) m).forget =
      calls.foldl (fun history call => call.runHistory history) m.forget
  | [], m => rfl
  | call :: calls, m => by
    rw [List.foldl_cons, List.foldl_cons, foldl_run_forget calls, run_forget]

/-- Over any calls the map answers as the history of the analysis does. -/
theorem answer_forget (calls : List HistoryCall) (c : UInt32) :
    (answer calls c).map (Prod.map StampedUsage.toClusterUsage StampedUsage.toClusterUsage) =
      ClusterHistory.findOverlappingUsage (calls.foldl (fun history call => call.runHistory history) fun _ => []) c := by
  rw [answer, (findOverlappingUsage_forget (runCalls calls) c).1, runCalls, foldl_run_forget]
  rfl

/-! ## Exactness -/

structure QueryExact (calls : List HistoryCall) (c : UInt32) : Prop where
  /-- The pairs at the places `i < j` with different file ids, each once and in lexicographic order. -/
  pairs : ∃ places : List (Nat × Nat), places.Pairwise (Prod.Lex (· < ·) (· < ·)) ∧
    (∀ i j, (i, j) ∈ places ↔ i < j ∧ ∃ u w, (usagesRecorded calls c)[i]? = some u ∧
      (usagesRecorded calls c)[j]? = some w ∧ u.fileId ≠ w.fileId) ∧
    (answer calls c).map some = places.map (pairAt (usagesRecorded calls c))
  empty_iff : answer calls c = [] ↔
    ∀ u ∈ usagesRecorded calls c, ∀ w ∈ usagesRecorded calls c, u.fileId = w.fileId
  stays : answer calls c ≠ [] → ∀ later, answer (calls ++ later) c ≠ []
  /-- A query among the calls makes no difference. -/
  unseen : ∀ before d after, calls = before ++ .query d :: after → answer calls c = answer (before ++ after) c

theorem query_exact (calls : List HistoryCall) (c : UInt32) : QueryExact calls c where
  pairs := by
    obtain ⟨places, hsorted, hmem, hplaces⟩ := exists_places StampedUsage.overlaps (usagesRecorded calls c)
    rw [answer_eq]
    refine ⟨places, hsorted, fun i j => (hmem i j).trans (and_congr_right fun _ => ?_), hplaces⟩
    refine exists₂_congr fun u w => and_congr_right fun hu => and_congr_right fun hw => ?_
    exact overlaps_of_recorded (List.mem_of_getElem? hu) (List.mem_of_getElem? hw)
  empty_iff := answer_eq_nil_iff
  stays := by
    intro hne later hnil
    refine hne (answer_eq_nil_iff.mpr fun u hu w hw => ?_)
    have hsub : usagesRecorded calls c ⊆ usagesRecorded (calls ++ later) c := by
      rw [usagesRecorded, usagesRecorded, List.flatMap_append]
      exact List.subset_append_left ..
    exact answer_eq_nil_iff.mp hnil u (hsub hu) w (hsub hw)
  unseen := by
    rintro before d after rfl
    rw [answer_eq, answer_eq, usagesRecorded, usagesRecorded, List.flatMap_append, List.flatMap_append,
      List.flatMap_cons, HistoryCall.recorded, List.nil_append]

end DataRecovery
