import DataRecovery.ChainBounds

/-!
# The walk along the table

Each cluster of a guessed chain is followed by the one its entry links to, or by the next
number where the link is unusable. The walk stops early only after the last number in front
of the markers.
-/

namespace DataRecovery

def successor (getNextCluster : UInt32 → UInt32) (c : UInt32) : UInt32 :=
  if 2 ≤ getNextCluster c ∧ getNextCluster c < FIRST_MARKER ∧ getNextCluster c ≠ c then getNextCluster c else c + 1

def LAST_NUMBER : UInt32 := 0x0FFFFFF7

/-- A chain of at most `expected` clusters from `start` along the successors, short only at the last number,
and the linked clusters where there are that many. -/
structure IsWalk (getNextCluster : UInt32 → UInt32) (start : UInt32) (expected : Nat) (chain : List UInt32) : Prop where
  head : chain.head? = some start
  step : List.IsChain (fun c d => d = successor getNextCluster c) chain
  length_le : chain.length ≤ expected
  short : chain.length < expected → chain.getLast? = some LAST_NUMBER
  linked : ∀ clusters, clusters.head? = some start → clusters.length = expected →
    (∀ c ∈ clusters, 2 ≤ c ∧ c < FIRST_MARKER) →
    List.IsChain (fun c d => getNextCluster c = d ∧ c ≠ d) clusters → chain = clusters

section
variable (getNextCluster : UInt32 → UInt32)

theorem guessNext_eq (c : UInt32) : guessNext getNextCluster c = successor getNextCluster c := by
  have hiff : unusableLink c (getNextCluster c) = false ↔
      2 ≤ getNextCluster c ∧ getNextCluster c < FIRST_MARKER ∧ getNextCluster c ≠ c := by
    unfold unusableLink
    simp only [Bool.or_eq_false_iff, beq_eq_false_iff_ne, decide_eq_false_iff_not, UInt32.not_lt, UInt32.not_le]
    exact ⟨fun h => ⟨h.1.2, h.2, h.1.1⟩, fun h => ⟨⟨h.2.2, h.1⟩, h.2.1⟩⟩
  unfold guessNext successor
  cases hu : unusableLink c (getNextCluster c) with
  | true => rw [if_pos rfl, if_neg (fun h => by rw [hiff.mpr h] at hu; cases hu)]
  | false => rw [if_neg Bool.false_ne_true, if_pos (hiff.mp hu)]

/-- From the last number alone there is no going on. -/
theorem guessNext_lt_iff {c : UInt32} (hc : c < FIRST_MARKER) :
    guessNext getNextCluster c < FIRST_MARKER ∨ c = LAST_NUMBER := by
  unfold guessNext
  split
  · rw [UInt32.lt_iff_toNat_lt, succ_toNat hc, ← UInt32.toNat_inj]
    have hlt := UInt32.lt_iff_toNat_lt.mp hc
    have hm : FIRST_MARKER.toNat = LAST_NUMBER.toNat + 1 := rfl
    omega
  · rename_i hu
    exact .inl (unusableLink_false (by simpa using hu)).2

theorem chainFrom_isChain : ∀ (room : Nat) (c : UInt32),
    List.IsChain (fun c d => d = successor getNextCluster c) (chainFrom getNextCluster room c)
  | 0, _ => .nil
  | room + 1, c => by
    unfold chainFrom
    split
    · refine List.isChain_cons.mpr ⟨fun d hd => ?_, chainFrom_isChain room _⟩
      obtain ⟨rest, hrest⟩ := List.head?_eq_some_iff.mp hd
      rw [chainFrom_cons getNextCluster hrest, guessNext_eq]
    · exact .nil

theorem length_chainFrom : ∀ (room : Nat) (c : UInt32), (chainFrom getNextCluster room c).length ≤ room
  | 0, _ => Nat.le_refl 0
  | room + 1, c => by
    unfold chainFrom
    split
    · exact Nat.succ_le_succ (length_chainFrom room _)
    · exact Nat.zero_le _

theorem getLast?_of_short : ∀ (room : Nat) (c : UInt32), 2 ≤ c → c < FIRST_MARKER →
    (chainFrom getNextCluster (room + 1) c).length < room + 1 →
    (chainFrom getNextCluster (room + 1) c).getLast? = some LAST_NUMBER
  | room, c, h2, hc, hlen => by
    rw [chainFrom_of_mem getNextCluster h2 hc] at hlen ⊢
    rw [List.length_cons] at hlen
    have hlen := Nat.lt_of_succ_lt_succ hlen
    cases room with
    | zero => exact absurd hlen (Nat.not_lt_zero _)
    | succ room =>
      by_cases hnext : guessNext getNextCluster c < FIRST_MARKER
      · have ih := getLast?_of_short room _ (two_le_guessNext getNextCluster h2 hc) hnext hlen
        rw [List.getLast?_cons, ih]
        rfl
      · rw [chainFrom_of_marker getNextCluster hnext]
        exact congrArg some ((guessNext_lt_iff getNextCluster hc).resolve_left hnext)

theorem successor_of_linked {c d : UInt32} (h : getNextCluster c = d ∧ c ≠ d) (hd : 2 ≤ d ∧ d < FIRST_MARKER) :
    successor getNextCluster c = d := by
  obtain ⟨rfl, hne⟩ := h
  exact if_pos ⟨hd.1, hd.2, hne.symm⟩

theorem chainFrom_of_linked : ∀ {c : UInt32} {rest : List UInt32},
    (∀ d ∈ c :: rest, 2 ≤ d ∧ d < FIRST_MARKER) →
    List.IsChain (fun c d => getNextCluster c = d ∧ c ≠ d) (c :: rest) →
    chainFrom getNextCluster (rest.length + 1) c = c :: rest
  | c, rest, hrange, hlinked => by
    obtain ⟨h2, hc⟩ := hrange c (List.mem_cons_self ..)
    rw [chainFrom_of_mem getNextCluster h2 hc]
    cases rest with
    | nil => rfl
    | cons d rest =>
      obtain ⟨hcd, hrest⟩ := List.isChain_cons_cons.mp hlinked
      have hrange' : ∀ e ∈ d :: rest, 2 ≤ e ∧ e < FIRST_MARKER := fun e he => hrange e (List.mem_cons_of_mem _ he)
      rw [guessNext_eq, successor_of_linked getNextCluster hcd (hrange' d (List.mem_cons_self ..)), List.length_cons,
        chainFrom_of_linked hrange' hrest]

theorem isWalk_chainFrom {start : UInt32} (h2 : 2 ≤ start) (hlt : start < FIRST_MARKER) {expected : Nat}
    (hpos : 1 ≤ expected) : IsWalk getNextCluster start expected (chainFrom getNextCluster expected start) := by
  obtain ⟨room, rfl⟩ := Nat.exists_eq_add_of_le' hpos
  refine ⟨?_, chainFrom_isChain getNextCluster _ _, length_chainFrom getNextCluster _ _,
    getLast?_of_short getNextCluster room start h2 hlt, fun clusters hhead hlen hrange hlinked => ?_⟩
  · rw [chainFrom_of_mem getNextCluster h2 hlt]
    rfl
  · obtain ⟨rest, rfl⟩ := List.head?_eq_some_iff.mp hhead
    rw [← hlen, List.length_cons]
    exact chainFrom_of_linked getNextCluster hrange hlinked

end

namespace FAT32

/-- Whatever the table holds and whichever of its sectors can be read, the function returns, with a walk. -/
theorem validateClusterChain_isWalk (v : Volume) (config : Config) (status : RecoveryStatus)
    (startCluster expectedSize : UInt32) (outputPath : Path) (isExtensionPredicted : Bool) (st : AnalysisState)
    (h2 : 2 ≤ startCluster) (hlt : startCluster < FIRST_MARKER) (hexpected : 1 ≤ status.expectedClusters) :
    ∃ chain status' st',
      validateClusterChain v config status startCluster expectedSize outputPath isExtensionPredicted st =
        (chain, .ok (status', st')) ∧
      IsWalk v.getNextCluster startCluster status.expectedClusters.toNat chain := by
  obtain ⟨status', st', hresult, -⟩ := validateClusterChain_eq v config status startCluster expectedSize outputPath
    isExtensionPredicted st
  exact ⟨_, status', st', hresult, isWalk_chainFrom v.getNextCluster h2 hlt (UInt64.le_iff_toNat_le.mp hexpected)⟩

theorem validateClusterChain_isWalk_small : ∃ chain status' st',
    validateClusterChain (smallVolume []) {} { expectedClusters := 3 } 4 1500 ⟨[], []⟩ false {} = (chain, .ok (status', st')) ∧
      IsWalk (smallVolume []).getNextCluster 4 3 chain :=
  validateClusterChain_isWalk (smallVolume []) {} { expectedClusters := 3 } 4 1500 ⟨[], []⟩ false {} (by decide) (by decide)
    (by decide)

end FAT32

end DataRecovery
