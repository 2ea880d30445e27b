import DataRecovery.FAT32.ClusterCount
import DataRecovery.Findings
import Mathlib.Data.List.Range

/-!
# The verdict on contiguous deleted files

Deleting a file zeroes its table entries, so the guessed chain of a contiguous file is its
clusters in order. On such a chain the analysis raises no false alarm, and the first
entry that is not zero is noticed when the chain gets there.
-/

namespace DataRecovery.FAT32

/-! ## Table entries -/

/-- The low 28 bits of the entry that is looked up for a cluster; `none` when its sector cannot be read. -/
def Volume.tableEntry (v : Volume) (cluster : UInt32) : Option UInt32 :=
  let fatOffset := cluster * 4
  let fatSector := v.driveInfo.fatStartSector + fatOffset / v.bytesPerSector
  let entryOffset := fatOffset % v.bytesPerSector
  (v.readSector fatSector.toUInt64).map fun sectorBuffer =>
    wordAt sectorBuffer v.pastEnd entryOffset.toNat &&& 0x0FFFFFFF

theorem decodeEntry_ne_marker (fatEntry : UInt32) : decodeEntry fatEntry ≠ 0xF8FFFFFF := by
  unfold decodeEntry
  dsimp only
  split
  · split
    · decide
    · decide
  · rename_i hmarker
    intro h
    rw [h] at hmarker
    exact hmarker (by decide)

section
variable {v : Volume}

theorem getNextCluster_eq_zero_iff {c : UInt32} : v.getNextCluster c = 0 ↔ v.tableEntry c = some 0 := by
  unfold Volume.getNextCluster Volume.tableEntry fatLookup
  dsimp only
  cases v.readSector (v.driveInfo.fatStartSector + c * 4 / v.bytesPerSector).toUInt64 with
  | none => simp
  | some buffer => simp [decodeEntry_eq_zero_iff]

theorem getNextCluster_ne_marker (c : UInt32) : v.getNextCluster c ≠ 0xF8FFFFFF := by
  unfold Volume.getNextCluster fatLookup
  dsimp only
  split
  · decide
  · exact decodeEntry_ne_marker _

theorem isClusterInUse_iff {c : UInt32} : isClusterInUse v.getNextCluster c = true ↔ v.tableEntry c ≠ some 0 := by
  unfold isClusterInUse
  rw [Bool.and_eq_true, bne_iff_ne, bne_iff_ne, ne_eq, getNextCluster_eq_zero_iff]
  exact and_iff_left (getNextCluster_ne_marker c)

/-! ## The chain -/

def nthCluster (startCluster : UInt32) (k : Nat) : UInt32 := UInt32.ofNat (startCluster.toNat + k)

variable {startCluster : UInt32}

theorem chainFrom_contiguous {n : Nat} (hvalid : v.isValidCluster startCluster = true)
    (hroom : startCluster.toNat + n ≤ FIRST_MARKER.toNat)
    (hzero : ∀ k, k + 1 < n → v.tableEntry (nthCluster startCluster k) = some 0) :
    chainFrom v.getNextCluster n startCluster = (List.range n).map (nthCluster startCluster) := by
  have h2 : 2 ≤ startCluster.toNat := UInt32.le_iff_toNat_le.mp (v.isValidCluster_iff.mp hvalid).1
  have h := chainFrom_of_zero v.getNextCluster n startCluster.toNat h2 hroom fun k hk =>
    getNextCluster_eq_zero_iff.mpr (hzero k hk)
  rwa [UInt32.ofNat_toNat] at h

theorem nthCluster_toNat {k : Nat} (h : startCluster.toNat + k < FIRST_MARKER.toNat) :
    (nthCluster startCluster k).toNat = startCluster.toNat + k :=
  UInt32.toNat_ofNat_of_lt' (Nat.lt_trans h (by decide))

theorem contiguous_nodup {n : Nat} (hroom : startCluster.toNat + n ≤ FIRST_MARKER.toNat) :
    ((List.range n).map (nthCluster startCluster)).Nodup := by
  refine List.Nodup.map_on ?_ List.nodup_range
  intro i hi j hj heq
  have hi := List.mem_range.mp hi
  have hj := List.mem_range.mp hj
  have h := congrArg UInt32.toNat heq
  rw [nthCluster_toNat (by omega), nthCluster_toNat (by omega)] at h
  omega

theorem contiguous_close {n : Nat} (hroom : startCluster.toNat + n ≤ FIRST_MARKER.toNat) :
    ((List.range n).map (nthCluster startCluster)).IsChain Close := by
  rw [List.isChain_map, List.isChain_range]
  intro k hk
  have hcur := @nthCluster_toNat startCluster k (by omega)
  have hnext := @nthCluster_toNat startCluster (k + 1) (by omega)
  have hsucc : nthCluster startCluster (k + 1) = nthCluster startCluster k + 1 := by
    unfold nthCluster
    rw [← Nat.add_assoc, UInt32.ofNat_add]
    rfl
  refine ⟨UInt32.lt_iff_toNat_lt.mpr (by rw [hcur, Nat.succ_eq_add_one, hnext]; omega), ?_⟩
  rw [Nat.succ_eq_add_one, hsucc]
  have hgap : nthCluster startCluster k + 1 - nthCluster startCluster k - 1 = 0 := by
    rw [UInt32.add_comm, UInt32.add_sub_cancel]
    rfl
  rw [hgap]
  decide

/-- The links end at a cluster whose entry is zero. -/
theorem linkedClusters_of_zero {size : UInt32}
    (hzero : 0 < clustersFor v size.toNat → v.tableEntry startCluster = some 0) {c : UInt32}
    (hc : c ∈ linkedClusters v.getNextCluster v.bytesPerCluster size.toUInt64 startCluster) :
    c = startCluster ∧ (linkedClusters v.getNextCluster v.bytesPerCluster size.toUInt64 startCluster).count c ≤ 1 := by
  have hlinked : linkedClusters v.getNextCluster v.bytesPerCluster size.toUInt64 startCluster =
      walkWhile BelowMarkers v.getNextCluster (clustersFor v size.toNat) startCluster := by
    unfold linkedClusters clustersFor
    rw [if_pos (v.offsets_fit size), UInt32.toNat_toUInt64]
  have hone : walkWhile BelowMarkers v.getNextCluster (clustersFor v size.toNat) startCluster <+: [startCluster] := by
    cases hn : clustersFor v size.toNat with
    | zero => exact List.nil_prefix
    | succ n =>
      have hnext := getNextCluster_eq_zero_iff.mpr (hzero (by omega))
      have hstop : ¬ BelowMarkers (0 : UInt32) := by decide
      unfold walkWhile
      rw [hnext, walkWhile_of_not _ _ hstop]
      split
      · exact List.prefix_rfl
      · exact List.nil_prefix
  rw [hlinked] at hc ⊢
  refine ⟨List.mem_singleton.mp (hone.subset hc), Nat.le_trans (hone.sublist.count_le c) ?_⟩
  exact Nat.le_trans List.count_le_length (Nat.le_refl 1)

end

/-! ## The verdict -/

/-- The two halves of the verdict on the files of a run: clusters that are all free are not
suspected, and the first one that is not free is. -/
structure VerdictRight (v : Volume) (startCluster size : UInt32) : Prop where
  free : ∀ (config : Config) (outputPath : Path) (earlier : List (UInt32 × UInt32)) (st : AnalysisState),
    isFileNameCorrupted outputPath.filename = false → analyzeAll (analyzeFile v) earlier {} = .ok st →
    (∀ k < clustersFor v size.toNat, v.tableEntry (nthCluster startCluster k) = some 0) →
    (∀ i j, VisitedAt (fileVisits v) earlier i startCluster → VisitedAt (fileVisits v) earlier j startCluster →
      i = j) →
    ∃ status st', (validateClusterChain v { config with analyze := true } (startStatus v size) startCluster size
        outputPath false st).2 = .ok (status, st') ∧
      status.isCorrupted = false ∧ status.problematicClusters = []
  inUse : ∀ (config : Config) (outputPath : Path) (earlier : List (UInt32 × UInt32)) (st : AnalysisState),
    isFileNameCorrupted outputPath.filename = false → analyzeAll (analyzeFile v) earlier {} = .ok st →
    ∀ k < clustersFor v size.toNat, (∀ j < k, v.tableEntry (nthCluster startCluster j) = some 0) →
      v.tableEntry (nthCluster startCluster k) ≠ some 0 →
      ∃ status st', (validateClusterChain v { config with analyze := true } (startStatus v size) startCluster size
          outputPath false st).2 = .ok (status, st') ∧
        status.isCorrupted = true ∧ (nthCluster startCluster k).toUInt64 ∈ status.problematicClusters

section
variable {v : Volume} {startCluster size : UInt32} (config : Config) (outputPath : Path) (st : AnalysisState)

theorem validated : ∃ hasOverwrite st',
    (hasOverwrite = true ↔ FoundOverwritten st
      (linkedClusters v.getNextCluster v.bytesPerCluster size.toUInt64 startCluster)) ∧
    (validateClusterChain v { config with analyze := true } (startStatus v size) startCluster size outputPath false
      st).2 = .ok (finalStatus (v.chainContext { config with analyze := true }) startCluster
        (v.expectedClusters size).toUInt64 outputPath.filename false hasOverwrite, st') :=
  @validateClusterChain_of_returns (v.chainContext { config with analyze := true }) startCluster _ size.toUInt64
    outputPath.filename false rfl (fun _ => .inl (v.offsets_fit size)) _ st (analysisReturns v startCluster size)

variable {config outputPath st}

theorem verdict_of_clean {chain : List UInt32}
    (hchain : chainFrom v.getNextCluster (v.expectedClusters size).toNat startCluster = chain)
    (hvalid : v.isValidCluster startCluster = true) (hclean : CleanChain v.getNextCluster chain)
    (hclose : chain.IsChain Close)
    (hfound : ¬ FoundOverwritten st (linkedClusters v.getNextCluster v.bytesPerCluster size.toUInt64 startCluster)) :
    ∃ status st', (validateClusterChain v { config with analyze := true } (startStatus v size) startCluster size
        outputPath false st).2 = .ok (status, st') ∧
      status.isCorrupted = false ∧ status.problematicClusters = [] := by
  obtain ⟨hasOverwrite, st', hover, hok⟩ := @validated v startCluster size config outputPath st
  obtain rfl : hasOverwrite = false := by
    rw [← Bool.not_eq_true, hover]
    exact hfound
  have hchain' : (v.chainContext { config with analyze := true }).chain startCluster
      (v.expectedClusters size).toUInt64 = chain := by
    rw [← hchain, ← UInt32.toNat_toUInt64]
    rfl
  have hnone : problems (v.chainContext { config with analyze := true }).getNextCluster chain [] = [] :=
    cleanChain_iff.mp hclean
  have hstart : (v.chainContext { config with analyze := true }).isValidCluster startCluster = true := hvalid
  refine ⟨_, st', hok, ?_, ?_⟩
  · rw [finalStatus_isCorrupted, hchain', hnone, hstart, patternOf_of_close hclose]
    rfl
  · rw [finalStatus_problematicClusters, hchain', hnone]
    rfl

theorem verdict_of_inUse {c : UInt32}
    (hmem : c ∈ chainFrom v.getNextCluster (v.expectedClusters size).toNat startCluster)
    (huse : isClusterInUse v.getNextCluster c = true) :
    ∃ status st', (validateClusterChain v { config with analyze := true } (startStatus v size) startCluster size
        outputPath false st).2 = .ok (status, st') ∧
      status.isCorrupted = true ∧ c.toUInt64 ∈ status.problematicClusters := by
  obtain ⟨hasOverwrite, st', -, hok⟩ := @validated v startCluster size config outputPath st
  have hproblem : c ∈ problems v.getNextCluster ((v.chainContext { config with analyze := true }).chain startCluster
      (v.expectedClusters size).toUInt64) [] := by
    refine mem_problems_of_inUse v.getNextCluster huse ?_
    rw [← UInt32.toNat_toUInt64] at hmem
    exact hmem
  refine ⟨_, st', hok, ?_, List.mem_map_of_mem hproblem⟩
  have hne := List.isEmpty_eq_false_iff.mpr (List.ne_nil_of_mem hproblem)
  rw [finalStatus_isCorrupted]
  simp only [Volume.chainContext] at hne ⊢
  rw [hne]
  rfl

end

section
variable {v : Volume} {startCluster size : UInt32}

/-- A file whose first entry is free is linked to no other cluster, and that one is its own. -/
theorem not_foundOverwritten_of_once {earlier : List (UInt32 × UInt32)} {st : AnalysisState}
    (hrun : analyzeAll (analyzeFile v) earlier {} = .ok st)
    (hzero : 0 < clustersFor v size.toNat → v.tableEntry startCluster = some 0)
    (honce : ∀ i j, VisitedAt (fileVisits v) earlier i startCluster → VisitedAt (fileVisits v) earlier j startCluster →
      i = j) :
    ¬ FoundOverwritten st (linkedClusters v.getNextCluster v.bytesPerCluster size.toUInt64 startCluster) := by
  have hrec := recorded_analyzeAll (analyzeFile_eq v) earlier [] {} st recorded_nil hrun
  intro ⟨c, hc, hover⟩
  obtain ⟨rfl, hcount⟩ := linkedClusters_of_zero hzero hc
  rcases hover with ⟨u, hu, w, hw, _, hne⟩ | ⟨htwice, _⟩
  · obtain ⟨_, i, hi, hid⟩ := hrec.usages c u hu
    obtain ⟨_, j, hj, hjd⟩ := hrec.usages c w hw
    rw [hid, hjd, honce i j hi hj] at hne
    exact hne rfl
  · omega

theorem verdict_of_wrapped (hvalid : v.isValidCluster startCluster = true)
    (hwraps : ¬ size.toNat + v.bytesPerCluster.toNat ≤ 2 ^ 32) (config : Config) (outputPath : Path) {st : AnalysisState}
    (hfound : ¬ FoundOverwritten st (linkedClusters v.getNextCluster v.bytesPerCluster size.toUInt64 startCluster)) :
    ∃ status st', (validateClusterChain v { config with analyze := true } (startStatus v size) startCluster size
        outputPath false st).2 = .ok (status, st') ∧
      status.isCorrupted = false ∧ status.problematicClusters = [] := by
  have hempty : chainFrom v.getNextCluster (v.expectedClusters size).toNat startCluster = [] := by
    rw [expectedClusters_wrapped, if_neg hwraps]
    rfl
  exact verdict_of_clean hempty hvalid ⟨List.nodup_nil, fun _ hc => by cases hc⟩ List.IsChain.nil hfound

/-- When the count wraps, the first cluster in use would have to be noticed, and none is. -/
theorem VerdictRight.free_of_wrapped (h : VerdictRight v startCluster size) (hvalid : v.isValidCluster startCluster = true)
    (hwraps : ¬ size.toNat + v.bytesPerCluster.toNat ≤ 2 ^ 32) :
    ∀ k < clustersFor v size.toNat, v.tableEntry (nthCluster startCluster k) = some 0 := by
  by_contra huse
  push Not at huse
  have hfirst := Nat.find_spec huse
  obtain ⟨status, st', hok, -, hmem⟩ := h.inUse {} ⟨[], wide "A"⟩ [] {} (by decide) rfl (Nat.find huse) hfirst.1
    (fun j hj => by
      by_contra hne
      exact Nat.find_min huse hj ⟨Nat.lt_trans hj hfirst.1, hne⟩) hfirst.2
  obtain ⟨status', st'', hok', -, hnil⟩ :=
    verdict_of_wrapped hvalid hwraps {} ⟨[], wide "A"⟩ (foundOverwritten_fresh _)
  obtain rfl := congrArg Prod.fst (Except.ok.inj (hok.symm.trans hok'))
  rw [hnil] at hmem
  cases hmem

end

/-- The verdict is right when the cluster count does not wrap. When it does, the chain is empty
and no cluster in use is noticed. -/
theorem verdict_right_iff (v : Volume) (startCluster size : UInt32) (hvalid : v.isValidCluster startCluster = true)
    (hroom : startCluster.toNat + clustersFor v size.toNat - 1 < 0x0FFFFFF7) :
    VerdictRight v startCluster size ↔
      size.toNat + v.bytesPerCluster.toNat ≤ 2 ^ 32 ∨
        ∀ k < clustersFor v size.toNat, v.tableEntry (nthCluster startCluster k) = some 0 := by
  have hmark : FIRST_MARKER.toNat = 0x0FFFFFF8 := rfl
  constructor
  · exact fun h => or_iff_not_imp_left.mpr (h.free_of_wrapped hvalid)
  · intro hcond
    constructor
    · intro config outputPath earlier st _ hrun hzero honce
      have hfirst : 0 < clustersFor v size.toNat → v.tableEntry startCluster = some 0 := by
        intro hpos
        have h0 := hzero 0 hpos
        rwa [nthCluster, Nat.add_zero, UInt32.ofNat_toNat] at h0
      have hfound := not_foundOverwritten_of_once hrun hfirst honce
      by_cases hfits : size.toNat + v.bytesPerCluster.toNat ≤ 2 ^ 32
      · have hchain : chainFrom v.getNextCluster (v.expectedClusters size).toNat startCluster =
            (List.range (clustersFor v size.toNat)).map (nthCluster startCluster) := by
          rw [expectedClusters_toNat hfits]
          exact chainFrom_contiguous hvalid (by omega) fun k hk => hzero k (Nat.lt_of_succ_lt hk)
        refine verdict_of_clean hchain hvalid ⟨contiguous_nodup (by omega), ?_⟩ (contiguous_close (by omega)) hfound
        intro c hc
        obtain ⟨k, hk, rfl⟩ := List.mem_map.mp hc
        rw [← Bool.not_eq_true, isClusterInUse_iff, not_not]
        exact hzero k (List.mem_range.mp hk)
      · exact verdict_of_wrapped hvalid hfits config outputPath hfound
    · intro config outputPath earlier st _ _ k hk hzero huse
      have hfits := hcond.resolve_right fun hall => huse (hall k hk)
      refine verdict_of_inUse ?_ (isClusterInUse_iff.mpr huse)
      rw [expectedClusters_toNat hfits]
      have hstart := @chainFrom_contiguous v startCluster (k + 1) hvalid (by omega) fun j hj =>
        hzero j (Nat.lt_of_succ_lt_succ hj)
      refine (chainFrom_start v.getNextCluster startCluster hk).subset ?_
      rw [hstart]
      exact List.mem_map.mpr ⟨k, List.self_mem_range_succ, rfl⟩

theorem verdict_right_small :
    VerdictRight (smallVolume []) 4 513 ↔
      (513 : UInt32).toNat + (smallVolume []).bytesPerCluster.toNat ≤ 2 ^ 32 ∨
        ∀ k < clustersFor (smallVolume []) (513 : UInt32).toNat, (smallVolume []).tableEntry (nthCluster 4 k) = some 0 :=
  verdict_right_iff (smallVolume []) 4 513 (by decide) (by decide)

/-- A file of the largest size from a cluster in use: nothing is problematic. -/
theorem in_use_unnoticed :
    ¬ ∀ (v : Volume) (startCluster size : UInt32), v.isValidCluster startCluster = true →
      startCluster.toNat + clustersFor v size.toNat - 1 < 0x0FFFFFF7 → VerdictRight v startCluster size := by
  intro h
  let v := smallVolume [(1, List.replicate 16 0 ++ [0xFF, 0xFF, 0xFF, 0x0F])]
  obtain ⟨status, st', hok, -, hmem⟩ := (h v 4 0xFFFFFFFF (by decide) (by decide)).inUse {} ⟨[], wide "A"⟩ [] {}
    (by decide) rfl 0 (by decide) (fun j hj => absurd hj (Nat.not_lt_zero j)) (by decide +kernel)
  obtain ⟨hasOverwrite, st'', -, hok'⟩ := @validated v 4 0xFFFFFFFF {} ⟨[], wide "A"⟩ {}
  obtain rfl := congrArg Prod.fst (Except.ok.inj (hok.symm.trans hok'))
  have hempty : (v.chainContext { analyze := true }).chain 4 (v.expectedClusters 0xFFFFFFFF).toUInt64 = [] := by
    decide +kernel
  rw [finalStatus_problematicClusters, hempty] at hmem
  cases hmem

end DataRecovery.FAT32
