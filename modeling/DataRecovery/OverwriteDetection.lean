import DataRecovery.ExFAT.DepthLimit
import DataRecovery.ExFAT.Recovery
import DataRecovery.FAT32.ClusterCount
import DataRecovery.IndexPairs

/-!
# Which overwrites the analysis detects

A cluster is looked up in the history before its own usage is recorded, so a cluster
shared by two files goes unnoticed until a third usage. The analysis notices a shared
cluster when two earlier files used it, or when the file itself comes back to it.
-/

namespace DataRecovery

/-! ## Overlaps in a history -/

def Overlapping (usages : List ClusterUsage) : Prop :=
  ∃ u ∈ usages, ∃ w ∈ usages, (u.isDeleted = true ∧ w.isDeleted = true) ∧ u.fileId ≠ w.fileId

def ClusterUsage.overlaps (u w : ClusterUsage) : Bool := u.fileId != w.fileId && u.isDeleted && w.isDeleted

theorem overlaps_iff {u w : ClusterUsage} :
    u.overlaps w = true ↔ (u.isDeleted = true ∧ w.isDeleted = true) ∧ u.fileId ≠ w.fileId := by
  unfold ClusterUsage.overlaps
  rw [Bool.and_eq_true, Bool.and_eq_true, bne_iff_ne, and_assoc, and_comm]

theorem overlaps_symm (u w : ClusterUsage) : u.overlaps w = w.overlaps u := by
  rw [Bool.eq_iff_iff, overlaps_iff, overlaps_iff, and_comm (a := u.isDeleted = true), ne_comm]

theorem overlaps_self (u : ClusterUsage) : u.overlaps u = false := by
  rw [← Bool.not_eq_true, overlaps_iff]
  exact fun h => h.2 rfl

theorem overlapsIn_eq : ∀ usages : List ClusterUsage,
    ClusterHistory.overlapsIn usages = testedPairs ClusterUsage.overlaps usages
  | [] => rfl
  | u :: us => by
    rw [testedPairs_cons, ← overlapsIn_eq us]
    rfl

theorem overlapsIn_ne_nil_iff {usages : List ClusterUsage} :
    ClusterHistory.overlapsIn usages ≠ [] ↔ Overlapping usages := by
  rw [overlapsIn_eq, ne_eq, testedPairs_eq_nil_iff_forall _ overlaps_symm overlaps_self]
  push Not
  simp only [ne_eq, Bool.not_eq_false, overlaps_iff]
  rfl

theorem exists_second_of_count {visits : List (UInt32 × UInt64)} {c : UInt32} :
    2 ≤ (visits.map Prod.fst).count c ↔
      ∃ pre visit post, visits = pre ++ visit :: post ∧ visit.1 = c ∧ c ∈ pre.map Prod.fst := by
  induction visits with
  | nil => simp
  | cons first visits ih =>
    rw [List.map_cons, List.count_cons]
    by_cases hc : first.1 = c
    · rw [if_pos (by simp [hc])]
      have hone : 2 ≤ (visits.map Prod.fst).count c + 1 ↔ c ∈ visits.map Prod.fst := by
        rw [← List.count_pos_iff]
        omega
      rw [hone]
      constructor
      · intro h
        obtain ⟨visit, hvisit, hv⟩ := List.mem_map.mp h
        obtain ⟨pre, post, rfl⟩ := List.append_of_mem hvisit
        exact ⟨first :: pre, visit, post, rfl, hv, List.mem_map.mpr ⟨first, List.mem_cons_self .., hc⟩⟩
      · intro ⟨pre, visit, post, heq, hv, hpre⟩
        cases pre with
        | nil => cases hpre
        | cons x pre =>
          obtain ⟨-, rfl⟩ := List.cons.inj heq
          exact List.mem_map.mpr ⟨visit, List.mem_append_right _ (List.mem_cons_self ..), hv⟩
    · rw [if_neg (by simpa using hc), Nat.add_zero, ih]
      constructor
      · intro ⟨pre, visit, post, heq, hv, hpre⟩
        exact ⟨first :: pre, visit, post, by rw [heq]; rfl, hv, List.mem_cons_of_mem _ hpre⟩
      · intro ⟨pre, visit, post, heq, hv, hpre⟩
        cases pre with
        | nil => cases hpre
        | cons x pre =>
          obtain ⟨rfl, rfl⟩ := List.cons.inj heq
          exact ⟨pre, visit, post, rfl, hv, (List.mem_cons.mp hpre).resolve_left fun h => hc h.symm⟩

theorem mem_usagesOf {fileId : UInt32} {visited : List (UInt32 × UInt64)} {c : UInt32} {u : ClusterUsage} :
    u ∈ usagesOf fileId visited c ↔ ∃ offset, (c, offset) ∈ visited ∧ u = ⟨fileId, true, offset⟩ := by
  unfold usagesOf
  rw [List.mem_map]
  constructor
  · intro ⟨visit, hvisit, hu⟩
    obtain ⟨hmem, hc⟩ := List.mem_filter.mp hvisit
    obtain rfl : visit.1 = c := by simpa using hc
    exact ⟨visit.2, hmem, hu.symm⟩
  · intro ⟨offset, hmem, hu⟩
    exact ⟨(c, offset), List.mem_filter.mpr ⟨hmem, by simp⟩, hu.symm⟩

theorem usagesOf_of_visited (fileId : UInt32) {visited : List (UInt32 × UInt64)} {c : UInt32}
    (h : c ∈ visited.map Prod.fst) : ∃ u ∈ usagesOf fileId visited c, u.fileId = fileId := by
  obtain ⟨⟨c', offset⟩, hvisit, hc⟩ := List.mem_map.mp h
  obtain rfl : c' = c := hc
  exact ⟨⟨fileId, true, offset⟩, mem_usagesOf.mpr ⟨offset, hvisit, rfl⟩, rfl⟩

/-- The usages a file records itself overlap with those of other files only. -/
theorem overlapping_append_usagesOf {usages : List ClusterUsage} {fileId : UInt32} {pre : List (UInt32 × UInt64)}
    {c : UInt32} : Overlapping (usages ++ usagesOf fileId pre c) ↔
      Overlapping usages ∨ c ∈ pre.map Prod.fst ∧ ∃ u ∈ usages, u.isDeleted = true ∧ u.fileId ≠ fileId := by
  have hown : ∀ {u : ClusterUsage}, u ∈ usagesOf fileId pre c →
      c ∈ pre.map Prod.fst ∧ u.isDeleted = true ∧ u.fileId = fileId := by
    intro u hu
    obtain ⟨offset, hmem, rfl⟩ := mem_usagesOf.mp hu
    exact ⟨List.mem_map.mpr ⟨_, hmem, rfl⟩, rfl, rfl⟩
  constructor
  · intro ⟨u, hu, w, hw, hdel, hne⟩
    rcases List.mem_append.mp hu with hu | hu
    · rcases List.mem_append.mp hw with hw | hw
      · exact .inl ⟨u, hu, w, hw, hdel, hne⟩
      · obtain ⟨hpre, -, hid⟩ := hown hw
        exact .inr ⟨hpre, u, hu, hdel.1, hid ▸ hne⟩
    · obtain ⟨hpre, -, hid⟩ := hown hu
      rcases List.mem_append.mp hw with hw | hw
      · exact .inr ⟨hpre, w, hw, hdel.2, hid ▸ hne.symm⟩
      · exact absurd (hid.trans (hown hw).2.2.symm) hne
  · rintro (⟨u, hu, w, hw, hdel, hne⟩ | ⟨hpre, u, hu, hdel, hne⟩)
    · exact ⟨u, List.mem_append_left _ hu, w, List.mem_append_left _ hw, hdel, hne⟩
    · obtain ⟨w, hw, hid⟩ := usagesOf_of_visited fileId hpre
      exact ⟨u, List.mem_append_left _ hu, w, List.mem_append_right _ hw, ⟨hdel, (hown hw).2.1⟩, hid.symm ▸ hne⟩

/-- A cluster is listed when the history has overlapping usages of it, or a usage by another
file and the walk comes back to it. -/
theorem mem_overwritten_iff (count : UInt64) (visited : List (UInt32 × UInt64)) (st : AnalysisState) (c : UInt32) :
    c ∈ (analyzeVisits count visited st).1.overwrittenClusters ↔
      c ∈ visited.map Prod.fst ∧
        (Overlapping (st.clusterHistory c) ∨
          2 ≤ (visited.map Prod.fst).count c ∧
            ∃ u ∈ st.clusterHistory c, u.isDeleted = true ∧ u.fileId ≠ st.nextFileId) := by
  have hlisted : c ∈ (analyzeVisits count visited st).1.overwrittenClusters ↔
      ∃ pre visit post, visited = pre ++ visit :: post ∧ visit.1 = c ∧
        (Overlapping (st.clusterHistory c) ∨
          c ∈ pre.map Prod.fst ∧ ∃ u ∈ st.clusterHistory c, u.isDeleted = true ∧ u.fileId ≠ st.nextFileId) := by
    show c ∈ (OverwriteAnalysis.withPercentage _ _).overwrittenClusters ↔ _
    rw [withPercentage_clusters, mem_replayVisits]
    simp only [List.not_mem_nil, false_or, overlapsIn_ne_nil_iff, overlapping_append_usagesOf]
  rw [hlisted, exists_second_of_count]
  constructor
  · rintro ⟨pre, visit, post, heq, hc, hover⟩
    have hmem : c ∈ visited.map Prod.fst := by
      rw [heq]
      exact List.mem_map.mpr ⟨visit, List.mem_append_right _ (List.mem_cons_self ..), hc⟩
    exact ⟨hmem, hover.imp_right fun ⟨hpre, hother⟩ => ⟨⟨pre, visit, post, heq, hc, hpre⟩, hother⟩⟩
  · rintro ⟨hmem, hover | ⟨⟨pre, visit, post, heq, hc, hpre⟩, hother⟩⟩
    · obtain ⟨visit, hvisit, hc⟩ := List.mem_map.mp hmem
      obtain ⟨pre, post, heq⟩ := List.append_of_mem hvisit
      exact ⟨pre, visit, post, heq, hc, .inl hover⟩
    · exact ⟨pre, visit, post, heq, hc, .inr ⟨hpre, hother⟩⟩

theorem hasOverwrite_iff (count : UInt64) (visited : List (UInt32 × UInt64)) (st : AnalysisState) :
    (analyzeVisits count visited st).1.hasOverwrite = true ↔
      (analyzeVisits count visited st).1.overwrittenClusters ≠ [] := by
  show (OverwriteAnalysis.withPercentage _ _).hasOverwrite = true ↔
    (OverwriteAnalysis.withPercentage _ _).overwrittenClusters ≠ []
  rw [withPercentage_hasOverwrite, withPercentage_clusters]
  exact replayVisits_hasOverwrite st.nextFileId visited st.clusterHistory {} (by simp)

/-! ## A run of analyses -/

section
variable {ι : Type} (analyze : ι → AnalysisState → Except Abort (OverwriteAnalysis × AnalysisState))
  (visits : ι → Except Abort (List (UInt32 × UInt64)))

def analyzeAll : List ι → AnalysisState → Except Abort AnalysisState
  | [], st => .ok st
  | file :: rest, st =>
    match analyze file st with
    | .error abort => .error abort
    | .ok (_, st) => analyzeAll rest st

def VisitedAt (files : List ι) (i : Nat) (cluster : UInt32) : Prop :=
  ∃ file visited, files[i]? = some file ∧ visits file = .ok visited ∧ cluster ∈ visited.map Prod.fst

def DetectsOverwrites (earlier : List ι) (file : ι) : Prop :=
  ∃ st a st' visited, analyzeAll analyze earlier {} = .ok st ∧ analyze file st = .ok (a, st') ∧
    visits file = .ok visited ∧
    (a.hasOverwrite = true ↔ ∃ c ∈ visited.map Prod.fst, ∃ i, VisitedAt visits earlier i c) ∧
    ∀ c, c ∈ a.overwrittenClusters ↔ c ∈ visited.map Prod.fst ∧ ∃ i, VisitedAt visits earlier i c

/-- The walks end, and each cluster the file shares with an earlier one was used by two earlier
files, or is used by an earlier file and twice by this one. Files are told apart by
their 32-bit numbers. -/
def Detectable (earlier : List ι) (file : ι) : Prop :=
  (∀ g ∈ earlier ++ [file], ∃ visited, visits g = .ok visited) ∧
    ∀ visited, visits file = .ok visited → ∀ c ∈ visited.map Prod.fst, (∃ i, VisitedAt visits earlier i c) →
      (∃ i j, VisitedAt visits earlier i c ∧ VisitedAt visits earlier j c ∧ UInt32.ofNat i ≠ UInt32.ofNat j) ∨
        2 ≤ (visited.map Prod.fst).count c ∧
          ∃ i, VisitedAt visits earlier i c ∧ UInt32.ofNat i ≠ UInt32.ofNat earlier.length

structure Recorded (files : List ι) (st : AnalysisState) : Prop where
  nextFileId : st.nextFileId = UInt32.ofNat files.length
  usages : ∀ c, ∀ u ∈ st.clusterHistory c, u.isDeleted = true ∧
    ∃ i, VisitedAt visits files i c ∧ u.fileId = UInt32.ofNat i
  visited : ∀ c i, VisitedAt visits files i c → ∃ u ∈ st.clusterHistory c, u.fileId = UInt32.ofNat i

variable {visits}

theorem visitedAt_append {files : List ι} {file : ι} {i : Nat} {c : UInt32} :
    VisitedAt visits (files ++ [file]) i c ↔
      VisitedAt visits files i c ∨
        i = files.length ∧ ∃ visited, visits file = .ok visited ∧ c ∈ visited.map Prod.fst := by
  unfold VisitedAt
  rcases Nat.lt_trichotomy i files.length with hlt | rfl | hgt
  · rw [List.getElem?_append_left hlt]
    exact ⟨.inl, fun h => h.resolve_right fun h => absurd h.1 (Nat.ne_of_lt hlt)⟩
  · rw [List.getElem?_concat_length, List.getElem?_eq_none (Nat.le_refl _)]
    constructor
    · rintro ⟨g, visited, hg, hv, hc⟩
      obtain rfl := Option.some.inj hg
      exact .inr ⟨rfl, visited, hv, hc⟩
    · rintro (⟨g, visited, hg, _⟩ | ⟨_, visited, hv, hc⟩)
      · cases hg
      · exact ⟨file, visited, rfl, hv, hc⟩
  · rw [List.getElem?_eq_none (by rw [List.length_append]; exact hgt), List.getElem?_eq_none (Nat.le_of_lt hgt)]
    constructor
    · rintro ⟨g, visited, hg, _⟩
      cases hg
    · rintro (⟨g, visited, hg, _⟩ | ⟨heq, _⟩)
      · cases hg
      · exact absurd heq (Nat.ne_of_gt hgt)

/-- Two usages of a cluster overlap at a visit when two earlier files used it, or one did and
the file has been there before. -/
theorem listed_iff {earlier : List ι} {st : AnalysisState} (h : Recorded visits earlier st) (count : UInt64)
    (visited : List (UInt32 × UInt64)) (c : UInt32) :
    c ∈ (analyzeVisits count visited st).1.overwrittenClusters ↔
      c ∈ visited.map Prod.fst ∧
        ((∃ i j, VisitedAt visits earlier i c ∧ VisitedAt visits earlier j c ∧ UInt32.ofNat i ≠ UInt32.ofNat j) ∨
          2 ≤ (visited.map Prod.fst).count c ∧
            ∃ i, VisitedAt visits earlier i c ∧ UInt32.ofNat i ≠ UInt32.ofNat earlier.length) := by
  rw [mem_overwritten_iff, h.nextFileId]
  refine and_congr_right fun _ => or_congr ⟨?_, ?_⟩ (and_congr_right fun _ => ⟨?_, ?_⟩)
  · intro ⟨u, hu, w, hw, _, hne⟩
    obtain ⟨_, i, hi, hid⟩ := h.usages c u hu
    obtain ⟨_, j, hj, hjd⟩ := h.usages c w hw
    exact ⟨i, j, hi, hj, by rwa [hid, hjd] at hne⟩
  · intro ⟨i, j, hi, hj, hne⟩
    obtain ⟨u, hu, hid⟩ := h.visited c i hi
    obtain ⟨w, hw, hjd⟩ := h.visited c j hj
    exact ⟨u, hu, w, hw, ⟨(h.usages c u hu).1, (h.usages c w hw).1⟩, by rwa [hid, hjd]⟩
  · intro ⟨u, hu, _, hne⟩
    obtain ⟨_, i, hi, hid⟩ := h.usages c u hu
    exact ⟨i, hi, by rwa [hid] at hne⟩
  · intro ⟨i, hi, hne⟩
    obtain ⟨u, hu, hid⟩ := h.visited c i hi
    exact ⟨u, hu, (h.usages c u hu).1, by rwa [hid]⟩

theorem recorded_nil : Recorded visits [] {} where
  nextFileId := rfl
  usages := fun _ _ h => by cases h
  visited := fun _ _ ⟨_, _, h, _⟩ => by cases h

variable {analyze} {count : ι → UInt64}
  (hreplay : ∀ file st, analyze file st = (visits file).map fun visited => analyzeVisits (count file) visited st)
include hreplay

theorem recorded_step {files : List ι} {file : ι} {st st' : AnalysisState} {a : OverwriteAnalysis}
    (h : Recorded visits files st) (hstep : analyze file st = .ok (a, st')) : Recorded visits (files ++ [file]) st' := by
  rw [hreplay] at hstep
  cases hv : visits file with
  | error abort => rw [hv] at hstep; cases hstep
  | ok visited =>
    rw [hv] at hstep
    have hst' : st' = (analyzeVisits (count file) visited st).2 := (congrArg Prod.snd (Except.ok.inj hstep)).symm
    have hhistory : ∀ c, st'.clusterHistory c = st.clusterHistory c ++ usagesOf st.nextFileId visited c := by
      intro c
      rw [hst']
      exact replayVisits_history st.nextFileId visited st.clusterHistory {} c
    refine ⟨?_, ?_, ?_⟩
    · rw [hst', List.length_append, UInt32.ofNat_add, ← h.nextFileId]
      rfl
    · intro c u hu
      rw [hhistory] at hu
      rcases List.mem_append.mp hu with hold | hnew
      · obtain ⟨hdel, i, hi, hid⟩ := h.usages c u hold
        exact ⟨hdel, i, visitedAt_append.mpr (.inl hi), hid⟩
      · obtain ⟨offset, hmem, rfl⟩ := mem_usagesOf.mp hnew
        exact ⟨rfl, files.length,
          visitedAt_append.mpr (.inr ⟨rfl, visited, hv, List.mem_map.mpr ⟨_, hmem, rfl⟩⟩), h.nextFileId⟩
    · intro c i hi
      rw [hhistory]
      rcases visitedAt_append.mp hi with hold | ⟨rfl, visited', hv', hc⟩
      · obtain ⟨u, hu, hid⟩ := h.visited c i hold
        exact ⟨u, List.mem_append_left _ hu, hid⟩
      · obtain rfl : visited = visited' := Except.ok.inj (hv.symm.trans hv')
        obtain ⟨u, hu, hid⟩ := usagesOf_of_visited st.nextFileId hc
        exact ⟨u, List.mem_append_right _ hu, hid.trans h.nextFileId⟩

theorem recorded_analyzeAll : ∀ (rest done : List ι) (st st' : AnalysisState), Recorded visits done st →
    analyzeAll analyze rest st = .ok st' → Recorded visits (done ++ rest) st'
  | [], done, st, st', h, hrun => by
    obtain rfl : st = st' := Except.ok.inj hrun
    rw [List.append_nil]
    exact h
  | file :: rest, done, st, st', h, hrun => by
    unfold analyzeAll at hrun
    split at hrun
    · cases hrun
    · rename_i a mid hstep
      have hmid := recorded_step hreplay h hstep
      have hrest := recorded_analyzeAll rest (done ++ [file]) mid st' hmid hrun
      rwa [List.append_assoc] at hrest

theorem analyzeAll_ok_iff : ∀ (files : List ι) (st : AnalysisState),
    (∃ st', analyzeAll analyze files st = .ok st') ↔ ∀ g ∈ files, ∃ visited, visits g = .ok visited
  | [], st => by simp [analyzeAll]
  | file :: rest, st => by
    unfold analyzeAll
    rw [hreplay]
    cases hv : visits file with
    | error abort => simp [hv, Except.map]
    | ok visited =>
      have ih := analyzeAll_ok_iff rest (analyzeVisits (count file) visited st).2
      simp only [Except.map, List.mem_cons, forall_eq_or_imp, hv]
      rw [ih]
      exact ⟨fun h => ⟨⟨visited, rfl⟩, h⟩, fun h => h.2⟩

theorem detectsOverwrites_iff (earlier : List ι) (file : ι) :
    DetectsOverwrites analyze visits earlier file ↔ Detectable visits earlier file := by
  constructor
  · intro ⟨st, a, st', visited, hrun, hstep, hv, _, hlist⟩
    have hrec := recorded_analyzeAll hreplay earlier [] {} st recorded_nil hrun
    rw [hreplay, hv] at hstep
    have ha : a = (analyzeVisits (count file) visited st).1 := (congrArg Prod.fst (Except.ok.inj hstep)).symm
    constructor
    · intro g hg
      rcases List.mem_append.mp hg with hg | hg
      · exact (analyzeAll_ok_iff hreplay earlier {}).mp ⟨st, hrun⟩ g hg
      · obtain rfl := List.mem_singleton.mp hg
        exact ⟨visited, hv⟩
    · intro visited' hv' c hc hshared
      obtain rfl : visited = visited' := Except.ok.inj (hv.symm.trans hv')
      have hmem := (hlist c).mpr ⟨hc, hshared⟩
      rw [ha] at hmem
      exact ((listed_iff hrec (count file) visited c).mp hmem).2
  · intro ⟨hends, hshared⟩
    obtain ⟨visited, hv⟩ := hends file (List.mem_append_right _ (List.mem_singleton.mpr rfl))
    obtain ⟨st, hrun⟩ := (analyzeAll_ok_iff hreplay earlier {}).mpr fun g hg => hends g (List.mem_append_left _ hg)
    have hrec := recorded_analyzeAll hreplay earlier [] {} st recorded_nil hrun
    have hlist : ∀ c, c ∈ (analyzeVisits (count file) visited st).1.overwrittenClusters ↔
        c ∈ visited.map Prod.fst ∧ ∃ i, VisitedAt visits earlier i c := by
      intro c
      rw [listed_iff hrec (count file) visited c]
      refine and_congr_right fun hc => ⟨?_, hshared visited hv c hc⟩
      rintro (⟨i, _, hi, _⟩ | ⟨_, i, hi, _⟩)
      · exact ⟨i, hi⟩
      · exact ⟨i, hi⟩
    refine ⟨st, _, _, visited, hrun, by rw [hreplay, hv]; rfl, hv, ?_, hlist⟩
    rw [hasOverwrite_iff]
    constructor
    · intro hne
      obtain ⟨c, hc⟩ := List.exists_mem_of_ne_nil _ hne
      exact ⟨c, (hlist c).mp hc⟩
    · intro ⟨c, hc⟩
      exact List.ne_nil_of_mem ((hlist c).mpr hc)

end

/-! ## Both engines -/

namespace FAT32

def analyzeFile (v : Volume) (file : UInt32 × UInt32) (st : AnalysisState) :
    Except Abort (OverwriteAnalysis × AnalysisState) :=
  analyzeClusterOverwrites v file.1 file.2 st

def fileVisits (v : Volume) (file : UInt32 × UInt32) : Except Abort (List (UInt32 × UInt64)) :=
  overwriteVisits v.getNextCluster v.bytesPerCluster file.2.toUInt64 file.1

theorem analyzeFile_eq (v : Volume) (file : UInt32 × UInt32) (st : AnalysisState) :
    analyzeFile v file st =
      (fileVisits v file).map fun visited => analyzeVisits (v.expectedClusters file.2).toUInt64 visited st :=
  analyzeClusterOverwrites_eq ..

end FAT32

namespace ExFAT

def analyzeFile (v : Volume) (file : UInt32 × UInt64) (st : AnalysisState) :
    Except Abort (OverwriteAnalysis × AnalysisState) :=
  analyzeClusterOverwrites v file.1 file.2 st

def fileVisits (v : Volume) (file : UInt32 × UInt64) : Except Abort (List (UInt32 × UInt64)) :=
  overwriteVisits v.getNextCluster v.analysisBytesPerCluster file.2 file.1

theorem analyzeFile_eq (v : Volume) (file : UInt32 × UInt64) (st : AnalysisState) :
    analyzeFile v file st =
      (fileVisits v file).map fun visited => analyzeVisits (v.overwriteClusters file.2) visited st :=
  analyzeClusterOverwrites_eq ..

end ExFAT

theorem overwrites_detected_iff (v : FAT32.Volume) (w : ExFAT.Volume) :
    (∀ (earlier : List (UInt32 × UInt32)) (file : UInt32 × UInt32),
      DetectsOverwrites (FAT32.analyzeFile v) (FAT32.fileVisits v) earlier file ↔
        Detectable (FAT32.fileVisits v) earlier file) ∧
    (∀ (earlier : List (UInt32 × UInt64)) (file : UInt32 × UInt64),
      DetectsOverwrites (ExFAT.analyzeFile w) (ExFAT.fileVisits w) earlier file ↔
        Detectable (ExFAT.fileVisits w) earlier file) :=
  ⟨fun earlier file => detectsOverwrites_iff (FAT32.analyzeFile_eq v) earlier file,
    fun earlier file => detectsOverwrites_iff (ExFAT.analyzeFile_eq w) earlier file⟩

/-- The second of two files in one cluster finds no overwrite. -/
theorem second_file_undetected :
    ¬ ((∀ (v : FAT32.Volume) (earlier : List (UInt32 × UInt32)) (file : UInt32 × UInt32),
        DetectsOverwrites (FAT32.analyzeFile v) (FAT32.fileVisits v) earlier file) ∧
      ∀ (v : ExFAT.Volume) (earlier : List (UInt32 × UInt64)) (file : UInt32 × UInt64),
        DetectsOverwrites (ExFAT.analyzeFile v) (ExFAT.fileVisits v) earlier file) := by
  intro ⟨h, _⟩
  let v := FAT32.smallVolume []
  have hdet : Detectable (FAT32.fileVisits v) [(4, 1)] (4, 1) :=
    (detectsOverwrites_iff (FAT32.analyzeFile_eq v) [(4, 1)] (4, 1)).mp (h v [(4, 1)] (4, 1))
  obtain ⟨visited, hv, hclusters⟩ := overwriteVisits_linked v.getNextCluster
    (1 : UInt32).toUInt64 v.bytesPerCluster_pos (by decide) 4
  have hone : walkWhile BelowMarkers v.getNextCluster
      (((1 : UInt32).toUInt64.toNat + v.bytesPerCluster.toNat - 1) / v.bytesPerCluster.toNat) 4 = [4] := by
    decide +kernel
  rw [hone] at hclusters
  have hmem : (4 : UInt32) ∈ visited.map Prod.fst := by rw [hclusters]; exact List.mem_singleton.mpr rfl
  have honly : ∀ i, VisitedAt (FAT32.fileVisits v) [((4 : UInt32), (1 : UInt32))] i 4 → i = 0 := by
    intro i ⟨g, _, hg, _⟩
    obtain ⟨hi, _⟩ := List.getElem?_eq_some_iff.mp hg
    exact Nat.lt_one_iff.mp hi
  rcases hdet.2 visited hv 4 hmem ⟨0, (4, 1), visited, rfl, hv, hmem⟩ with ⟨i, j, hi, hj, hne⟩ | ⟨htwice, _⟩
  · rw [honly i hi, honly j hj] at hne
    exact hne rfl
  · rw [hclusters] at htwice
    exact absurd htwice (by decide)

end DataRecovery
