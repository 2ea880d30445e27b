import DataRecovery.PairCounts

/-!
# The guessed cluster chain

`validateClusterChain` follows table entries while they look usable and goes on
with the next cluster number where they do not. FAT32 and exFAT share the loop.
-/

namespace DataRecovery

def unusableLink (cluster next : UInt32) : Bool := next == cluster || next < 2 || FIRST_MARKER ≤ next

def guessNext (getNextCluster : UInt32 → UInt32) (cluster : UInt32) : UInt32 :=
  if unusableLink cluster (getNextCluster cluster) then cluster + 1 else getNextCluster cluster

def isClusterInUse (getNextCluster : UInt32 → UInt32) (cluster : UInt32) : Bool :=
  getNextCluster cluster != 0 && getNextCluster cluster != 0xF8FFFFFF

section
variable (getNextCluster : UInt32 → UInt32)

def noteProblem (found : Bool) (cluster : UInt32) (status : RecoveryStatus) : RecoveryStatus :=
  if found then
    { status with
      isCorrupted := true, hasOverwrittenClusters := true
      problematicClusters := status.problematicClusters ++ [cluster.toUInt64] }
  else status

def inspectCluster (used : List UInt32) (cluster : UInt32) (status : RecoveryStatus) : RecoveryStatus :=
  noteProblem (isClusterInUse getNextCluster cluster) cluster (noteProblem (used.contains cluster) cluster status)

/-- The loop of `validateClusterChain` with `room` clusters still expected. -/
def chainLoop (analyze : Bool) : Nat → UInt32 → List UInt32 → RecoveryStatus → List UInt32 × RecoveryStatus
  | 0, _, _, status => ([], status)
  | room + 1, currentCluster, used, status =>
    if 2 ≤ currentCluster && currentCluster < FIRST_MARKER then
      let status := if analyze then inspectCluster getNextCluster used currentCluster status else status
      let rest := chainLoop analyze room (guessNext getNextCluster currentCluster) (currentCluster :: used) status
      (currentCluster :: rest.1, rest.2)
    else ([], status)

def chainFrom : Nat → UInt32 → List UInt32
  | 0, _ => []
  | room + 1, c => if 2 ≤ c && c < FIRST_MARKER then c :: chainFrom room (guessNext getNextCluster c) else []

theorem chainLoop_fst (analyze : Bool) : ∀ (room : Nat) (c : UInt32) (used : List UInt32) (status : RecoveryStatus),
    (chainLoop getNextCluster analyze room c used status).1 = chainFrom getNextCluster room c
  | 0, _, _, _ => rfl
  | room + 1, c, used, status => by
    unfold chainLoop chainFrom
    split
    · simp only [chainLoop_fst analyze room]
    · rfl

theorem chainFrom_cons {room : Nat} {c d : UInt32} {rest : List UInt32}
    (h : chainFrom getNextCluster room c = d :: rest) : d = c := by
  cases room with
  | zero => cases h
  | succ room =>
    unfold chainFrom at h
    split at h
    · exact (List.cons.inj h).1.symm
    · cases h

theorem chainFrom_of_mem {c : UInt32} (h2 : 2 ≤ c) (hc : c < FIRST_MARKER) (room : Nat) :
    chainFrom getNextCluster (room + 1) c = c :: chainFrom getNextCluster room (guessNext getNextCluster c) := by
  unfold chainFrom
  rw [decide_eq_true h2, decide_eq_true hc, Bool.and_self, if_pos rfl]
  cases room with
  | zero => rfl
  | succ room => rfl

theorem chainFrom_of_marker {c : UInt32} (hc : ¬ c < FIRST_MARKER) (room : Nat) : chainFrom getNextCluster room c = [] := by
  cases room with
  | zero => rfl
  | succ room =>
    unfold chainFrom
    rw [decide_eq_false hc, Bool.and_false, if_neg Bool.false_ne_true]

theorem ofNat_range_succ (c room : Nat) : ((List.range (room + 1)).map fun k => UInt32.ofNat (c + k)) =
    UInt32.ofNat c :: (List.range room).map fun k => UInt32.ofNat (c + 1 + k) := by
  rw [List.range_succ_eq_map, List.map_cons, List.map_map]
  congr 1
  apply List.map_congr_left
  intro k _
  show UInt32.ofNat (c + (k + 1)) = UInt32.ofNat (c + 1 + k)
  rw [Nat.add_assoc, Nat.add_comm 1 k]

/-- The chain is the clusters in order exactly when they end at the marker and each of them but the last leads
to the next number. -/
theorem chainFrom_eq_range_iff : ∀ (room c : Nat), 2 ≤ c → c < 2 ^ 32 →
    (chainFrom getNextCluster room (UInt32.ofNat c) = ((List.range room).map fun k => UInt32.ofNat (c + k)) ↔
      room = 0 ∨ c + room ≤ FIRST_MARKER.toNat ∧
        ∀ k, k + 1 < room → guessNext getNextCluster (UInt32.ofNat (c + k)) = UInt32.ofNat (c + k + 1))
  | 0, _, _, _ => by simp [chainFrom]
  | room + 1, c, h2, hc32 => by
    have hm : FIRST_MARKER.toNat = 0x0FFFFFF8 := rfl
    have hc : (UInt32.ofNat c).toNat = c := UInt32.toNat_ofNat_of_lt' hc32
    have hlo : 2 ≤ UInt32.ofNat c := by rw [UInt32.le_iff_toNat_le, hc]; exact h2
    rw [or_iff_right (Nat.succ_ne_zero room), ofNat_range_succ]
    by_cases hhi : UInt32.ofNat c < FIRST_MARKER
    · have hlt := UInt32.lt_iff_toNat_lt.mp hhi
      rw [chainFrom_of_mem getNextCluster hlo hhi, List.cons_eq_cons, and_iff_right rfl]
      cases room with
      | zero => exact iff_of_true rfl ⟨by omega, fun k hk => by omega⟩
      | succ room =>
        have ih := chainFrom_eq_range_iff (room + 1) (c + 1) (by omega) (by omega)
        rw [or_iff_right (Nat.succ_ne_zero room)] at ih
        constructor
        · intro h
          have hnext : guessNext getNextCluster (UInt32.ofNat c) = UInt32.ofNat (c + 1) := by
            rw [ofNat_range_succ] at h
            exact (chainFrom_cons getNextCluster h).symm
          rw [hnext] at h
          obtain ⟨hend, hrest⟩ := ih.mp h
          refine ⟨by omega, fun k hk => ?_⟩
          cases k with
          | zero => exact hnext
          | succ k =>
            have hk' := hrest k (Nat.lt_of_succ_lt_succ hk)
            rwa [Nat.add_assoc, Nat.add_comm 1 k] at hk'
        · intro ⟨hend, hrest⟩
          rw [show guessNext getNextCluster (UInt32.ofNat c) = UInt32.ofNat (c + 1) from hrest 0 (by omega)]
          refine ih.mpr ⟨by omega, fun k hk => ?_⟩
          rw [Nat.add_assoc c 1 k, Nat.add_comm 1 k]
          exact hrest (k + 1) (Nat.succ_lt_succ hk)
    · rw [chainFrom_of_marker getNextCluster hhi]
      rw [UInt32.lt_iff_toNat_lt, hc] at hhi
      exact iff_of_false (fun h => by cases h) fun h => by omega

/-- While the entries are zero the chain is the clusters in order. The last entry is not looked at. -/
theorem chainFrom_of_zero (room c : Nat) (h2 : 2 ≤ c) (hle : c + room ≤ FIRST_MARKER.toNat)
    (hzero : ∀ k, k + 1 < room → getNextCluster (UInt32.ofNat (c + k)) = 0) :
    chainFrom getNextCluster room (UInt32.ofNat c) = (List.range room).map fun k => UInt32.ofNat (c + k) := by
  have hm : FIRST_MARKER.toNat = 0x0FFFFFF8 := rfl
  refine (chainFrom_eq_range_iff getNextCluster room c h2 (by omega)).mpr (.inr ⟨hle, fun k hk => ?_⟩)
  have hu : unusableLink (UInt32.ofNat (c + k)) 0 = true := by simp [unusableLink]
  unfold guessNext
  rw [hzero k hk, hu, if_pos rfl, UInt32.ofNat_add (c + k) 1]
  rfl

theorem chainFrom_start : ∀ {m n : Nat} (c : UInt32), m ≤ n →
    chainFrom getNextCluster m c <+: chainFrom getNextCluster n c
  | 0, _, _, _ => List.nil_prefix
  | m + 1, n + 1, c, h => by
    unfold chainFrom
    split
    · exact List.cons_prefix_cons.mpr ⟨rfl, chainFrom_start _ (Nat.le_of_succ_le_succ h)⟩
    · exact List.prefix_rfl

theorem noteProblem_progress (found : Bool) (c : UInt32) (status : RecoveryStatus) :
    (noteProblem found c status).progress = status.progress := by
  cases found with
  | false => rfl
  | true => rfl

theorem chainLoop_progress (analyze : Bool) : ∀ (room : Nat) (c : UInt32) (used : List UInt32)
    (status : RecoveryStatus),
    (chainLoop getNextCluster analyze room c used status).2.progress = status.progress
  | 0, _, _, _ => rfl
  | room + 1, c, used, status => by
    unfold chainLoop
    split
    · simp only [chainLoop_progress analyze room]
      split
      · unfold inspectCluster
        rw [noteProblem_progress, noteProblem_progress]
      · rfl
    · rfl

end

/-! ## The whole function -/

structure ChainContext where
  getNextCluster : UInt32 → UInt32
  isValidCluster : UInt32 → Bool
  analyze : Bool
  bytesPerCluster : UInt32

section
variable (ctx : ChainContext)

def finishAnalysis (startCluster : UInt32) (clusterChain : List UInt32) (expectedSize expectedClusters : UInt64)
    (filename : WString) (isExtensionPredicted : Bool) (status : RecoveryStatus) (st : AnalysisState) :
    Except Abort (RecoveryStatus × AnalysisState) := do
  let (overwriteAnalysis, st) ←
    analyzeClusterOverwrites ctx.getNextCluster ctx.bytesPerCluster expectedClusters startCluster expectedSize st
  let status := { status with hasOverwrittenClusters := overwriteAnalysis.hasOverwrite }
  let status := if status.hasOverwrittenClusters then { status with isCorrupted := true } else status
  -- the source's `if (status.hasInvalidFileName) status.isCorrupted;` assigns nothing
  let status := { status with hasInvalidFileName := isFileNameCorrupted filename }
  let status := if !ctx.isValidCluster startCluster then { status with isCorrupted := true } else status
  let status :=
    if isExtensionPredicted then { status with isCorrupted := true, hasInvalidExtension := true } else status
  return (analyzeClusterPattern clusterChain status, st)

/-- The chain, filled in before the analysis, and the analysis. `overwriteClusters` is
the cluster count `analyzeClusterOverwrites` computes for itself. -/
def validateClusterChain (status : RecoveryStatus) (startCluster : UInt32)
    (expectedSize overwriteClusters : UInt64) (filename : WString) (isExtensionPredicted : Bool)
    (st : AnalysisState) : List UInt32 × Except Abort (RecoveryStatus × AnalysisState) :=
  let (clusterChain, status) :=
    chainLoop ctx.getNextCluster ctx.analyze status.expectedClusters.toNat startCluster [] status
  (clusterChain,
    if ctx.analyze then
      finishAnalysis ctx startCluster clusterChain expectedSize overwriteClusters filename isExtensionPredicted
        status st
    else .ok (status, st))

theorem validateClusterChain_fst (status : RecoveryStatus) (startCluster : UInt32)
    (expectedSize overwriteClusters : UInt64) (filename : WString) (isExtensionPredicted : Bool)
    (st : AnalysisState) :
    (validateClusterChain ctx status startCluster expectedSize overwriteClusters filename isExtensionPredicted st).1 =
      chainFrom ctx.getNextCluster status.expectedClusters.toNat startCluster :=
  chainLoop_fst ctx.getNextCluster ctx.analyze _ _ _ _

theorem validateClusterChain_plain (hanalyze : ctx.analyze = false) (status : RecoveryStatus) (startCluster : UInt32)
    (expectedSize overwriteClusters : UInt64) (filename : WString) (isExtensionPredicted : Bool)
    (st : AnalysisState) :
    ∃ status', (validateClusterChain ctx status startCluster expectedSize overwriteClusters filename
      isExtensionPredicted st).2 = .ok (status', st) ∧ status'.progress = status.progress := by
  refine ⟨_, ?_, chainLoop_progress ctx.getNextCluster ctx.analyze status.expectedClusters.toNat startCluster []
    status⟩
  unfold validateClusterChain
  dsimp only
  rw [if_neg (by rw [hanalyze]; exact Bool.false_ne_true)]

/-- Unless the overwrite analysis fails to end, there is a status, with the counters untouched. -/
theorem validateClusterChain_ok {expectedSize : UInt64} (hpos : 0 < ctx.bytesPerCluster)
    (hfit : expectedSize.toNat + ctx.bytesPerCluster.toNat ≤ 2 ^ 64) (status : RecoveryStatus)
    (startCluster : UInt32) (overwriteClusters : UInt64) (filename : WString) (isExtensionPredicted : Bool)
    (st : AnalysisState) :
    ∃ status' st', (validateClusterChain ctx status startCluster expectedSize overwriteClusters filename
      isExtensionPredicted st).2 = .ok (status', st') ∧ status'.progress = status.progress := by
  have hloop := chainLoop_progress ctx.getNextCluster ctx.analyze status.expectedClusters.toNat startCluster [] status
  unfold validateClusterChain
  dsimp only
  generalize chainLoop ctx.getNextCluster ctx.analyze status.expectedClusters.toNat startCluster [] status = out
    at hloop
  split
  · obtain ⟨⟨a, st'⟩, ha⟩ := analyzeClusterOverwrites_ok ctx.getNextCluster hpos hfit overwriteClusters
      startCluster st
    unfold finishAnalysis
    rw [ha]
    refine ⟨_, st', rfl, ?_⟩
    rw [analyzeClusterPattern_progress, ← hloop]
    split <;> split <;> split <;> rfl
  · exact ⟨_, st, rfl, hloop⟩

end

end DataRecovery
