import DataRecovery.Engine
import DataRecovery.Overwrites

/-!
# Engines and chains that agree

Two engines that list the same files and do the same to each of them have the same runs. A
chain and its analysis depend on the table entries of a few clusters: those of the chain
itself, and those that links lead to from its start.
-/

namespace DataRecovery

/-! ## Engines -/

section
variable {host : Host} {config : Config} {ι : Type}

theorem processAll_congr {process process' : ι → RunState host → Outcome host} : ∀ {files : List ι},
    (∀ file ∈ files, process file = process' file) → ∀ st, processAll process files st = processAll process' files st
  | [], _, _ => rfl
  | file :: rest, h, st => by
    unfold processAll
    rw [h file (List.mem_cons_self ..)]
    rcases process' file st with ⟨st', _ | abort⟩
    · exact processAll_congr (fun file hfile => h file (List.mem_cons_of_mem _ hfile)) st'
    · rfl

namespace Engine
variable {engine engine' : Engine host config ι} (hid : engine.fileId = engine'.fileId)
include hid

theorem recoverPartition_congr {recoveryList : List ι}
    (hprocess : ∀ file ∈ recoveryList, engine.processFileForRecovery file = engine'.processFileForRecovery file)
    (input : List UInt8) (st : RunState host) :
    engine.recoverPartition input recoveryList st = engine'.recoverPartition input recoveryList st := by
  unfold recoverPartition
  rw [← hid]
  split
  · rfl
  · split
    · unfold askFilesToRecover
      cases readSelection none input with
      | error abort => rfl
      | ok selection =>
        simp only [Except.map]
        cases hselected : selectFilesToRecover engine.fileId selection recoveryList with
        | none => rfl
        | some selected =>
          exact processAll_congr (fun file hfile =>
            hprocess file ((selectFilesToRecover_sublist hselected).subset hfile)) st
    · exact processAll_congr hprocess st

theorem startRecovery_congr (hscan : engine.scan = engine'.scan)
    (hprocess : ∀ recoveryList, engine.scan = .ok recoveryList → ∀ file ∈ recoveryList,
      engine.processFileForRecovery file = engine'.processFileForRecovery file)
    (driveType : DriveType) (input : List UInt8) (st : RunState host) :
    engine.startRecovery driveType input st = engine'.startRecovery driveType input st := by
  unfold startRecovery
  split
  · unfold scanForDeletedFiles
    dsimp only
    cases proceedToScan (openLogFile config st.files).1 input with
    | error abort => rfl
    | ok input =>
      rw [← hscan]
      cases hlist : engine.scan with
      | error abort => rfl
      | ok recoveryList => exact recoverPartition_congr hid (hprocess recoveryList hlist) input _
  · rfl

end Engine

end

/-! ## Chains -/

inductive Followed (getNextCluster : UInt32 → UInt32) : UInt32 → UInt32 → Prop
  | here {c} : BelowMarkers c → Followed getNextCluster c c
  | step {c d} : BelowMarkers c → Followed getNextCluster (getNextCluster c) d → Followed getNextCluster c d

section
variable {getNextCluster getNextCluster' : UInt32 → UInt32}

theorem chainLoop_congr (analyze : Bool) : ∀ {room : Nat} {c : UInt32} {used : List UInt32} {status : RecoveryStatus},
    (∀ d ∈ chainFrom getNextCluster room c, getNextCluster d = getNextCluster' d) →
      chainLoop getNextCluster analyze room c used status = chainLoop getNextCluster' analyze room c used status
  | 0, _, _, _, _ => rfl
  | room + 1, c, used, status, h => by
    unfold chainLoop
    unfold chainFrom at h
    split
    · rename_i hc
      rw [if_pos hc] at h
      have hnext := h c (List.mem_cons_self ..)
      have hguess : guessNext getNextCluster' c = guessNext getNextCluster c := by
        unfold guessNext
        rw [hnext]
      have hinspect : inspectCluster getNextCluster' used c status = inspectCluster getNextCluster used c status := by
        unfold inspectCluster isClusterInUse
        rw [hnext]
      dsimp only
      rw [hguess, hinspect, chainLoop_congr analyze fun d hd => h d (List.mem_cons_of_mem _ hd)]
    · rfl

theorem overwriteLoop_congr (bytesPerCluster : UInt32) (expectedSize : UInt64) (fileId : UInt32) :
    ∀ {rounds : Nat} {c : UInt32} {offset : UInt64} {history : ClusterHistory} {a : OverwriteAnalysis},
      (∀ d, Followed getNextCluster c d → getNextCluster d = getNextCluster' d) →
        overwriteLoop getNextCluster bytesPerCluster expectedSize fileId rounds c offset history a =
          overwriteLoop getNextCluster' bytesPerCluster expectedSize fileId rounds c offset history a
  | 0, _, _, _, _, _ => rfl
  | rounds + 1, c, offset, history, a, h => by
    unfold overwriteLoop
    split
    · rename_i hc
      simp only [Bool.and_eq_true, decide_eq_true_eq] at hc
      have hbelow : BelowMarkers c := ⟨hc.1.2, hc.2⟩
      rw [← h c (.here hbelow)]
      exact overwriteLoop_congr bytesPerCluster expectedSize fileId fun d hd => h d (.step hbelow hd)
    · rfl

/-- The clusters whose table entries `validateClusterChain` depends on. -/
def ChainReads (getNextCluster : UInt32 → UInt32) (analyze : Bool) (room : Nat) (start c : UInt32) : Prop :=
  c ∈ chainFrom getNextCluster room start ∨ analyze = true ∧ Followed getNextCluster start c

theorem validateClusterChain_congr {ctx ctx' : ChainContext} {status : RecoveryStatus} {start : UInt32}
    (hvalid : ctx.isValidCluster = ctx'.isValidCluster) (hanalyze : ctx.analyze = ctx'.analyze)
    (hbytes : ctx.bytesPerCluster = ctx'.bytesPerCluster)
    (h : ∀ c, ChainReads ctx.getNextCluster ctx.analyze status.expectedClusters.toNat start c →
      ctx.getNextCluster c = ctx'.getNextCluster c)
    (expectedSize overwriteClusters : UInt64) (filename : WString) (isExtensionPredicted : Bool) (st : AnalysisState) :
    validateClusterChain ctx status start expectedSize overwriteClusters filename isExtensionPredicted st =
      validateClusterChain ctx' status start expectedSize overwriteClusters filename isExtensionPredicted st := by
  unfold validateClusterChain
  rw [chainLoop_congr ctx.analyze fun d hd => h d (.inl hd), ← hanalyze]
  dsimp only
  split
  · rename_i hon
    unfold finishAnalysis analyzeClusterOverwrites
    rw [overwriteLoop_congr _ _ _ fun d hd => h d (.inr ⟨hon, hd⟩), ← hvalid, ← hbytes]
  · rfl

end

end DataRecovery
