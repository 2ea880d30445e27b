import DataRecovery.ExFAT.FatBase
import DataRecovery.ExFAT.LiveDirectories

/-!
# Long exFAT directories

`scanDirectory` follows a directory's cluster chain by calling itself one level deeper, so
the limit on the nesting cuts the chain after `MAX_RECURSION_DEPTH` clusters. A later
cluster is only reached by way of a subdirectory, which is entered at depth 1 again.
-/

namespace DataRecovery

open Relation

/-- Split a path at its last step of the second kind. -/
theorem reflTransGen_or {α : Type} {r s : α → α → Prop} {a b : α} (h : ReflTransGen (fun x y => r x y ∨ s x y) a b) :
    ReflTransGen r a b ∨
      ∃ x y, ReflTransGen (fun x y => r x y ∨ s x y) a x ∧ s x y ∧ ReflTransGen r y b := by
  induction h with
  | refl => exact .inl .refl
  | tail hpath hstep ih =>
    rcases hstep with hr | hs
    · rcases ih with hfront | ⟨x, y, hx, hxy, hy⟩
      · exact .inl (hfront.tail hr)
      · exact .inr ⟨x, y, hx, hxy, hy.tail hr⟩
    · exact .inr ⟨_, _, hpath, hs, .refl⟩

namespace ExFAT

open Traversal

section
variable (v : Volume)

def NextCall (n m : UInt32 × UInt32) : Prop :=
  n.2 < MAX_RECURSION_DEPTH ∧ v.isValidCluster n.1 = true ∧ v.isValidCluster (v.getNextCluster n.1) = true ∧
    v.getNextCluster n.1 ≠ n.1 ∧ m = (v.getNextCluster n.1, n.2 + 1)

def SubdirectoryCall (n m : UInt32 × UInt32) : Prop :=
  n.2 < MAX_RECURSION_DEPTH ∧ v.isValidCluster n.1 = true ∧
    ∃ d ∈ setsOf v n.1, accepted v d = true ∧ d.isDirectory = true ∧ m = (d.startingCluster, 1)

structure DirectoryChain (start : UInt32) (rest : List UInt32) : Prop where
  valid : v.isValidCluster start = true
  linked : List.IsChain (fun c d => d = v.getNextCluster c ∧ v.isValidCluster d = true) (start :: rest)
  nodup : (start :: rest).Nodup

structure ScannedToEnd (start : UInt32) (rest : List UInt32) : Prop where
  worked : ∀ c ∈ start :: rest, WorksThrough v start c
  listed : ∀ config stack st scan, (config.recover || config.analyze) = true →
    scanDirectory v config stack start 0 st = some scan →
      ∀ c ∈ start :: rest, ∀ d ∈ setsOf v c, accepted v d = true → d.isDirectory = false → d.isDeleted = true →
        ∃ info ∈ scan.recoveryList, ∃ fileId, info = parseFileInfo fileId d

/-- A deleted subdirectory found in the scan of `start` leads to the cluster before the limit. -/
def LedToAgain (start c : UInt32) : Prop :=
  ∃ n m depth, ReflTransGen (DirLink v) (start, 0) n ∧ SubdirectoryCall v n m ∧
    ReflTransGen (NextCall v) m (c, depth) ∧ depth < MAX_RECURSION_DEPTH

variable {v}

theorem dirLink_iff {n m : UInt32 × UInt32} : DirLink v n m ↔ NextCall v n m ∨ SubdirectoryCall v n m := by
  constructor
  · intro h
    cases h with
    | next hdepth hc hnext hne => exact .inl ⟨hdepth, hc, hnext, hne, rfl⟩
    | subdir hdepth hc hd hacc hdir => exact .inr ⟨hdepth, hc, _, hd, hacc, hdir, rfl⟩
  · intro h
    rcases h with ⟨hdepth, hc, hnext, hne, rfl⟩ | ⟨hdepth, hc, d, hd, hacc, hdir, rfl⟩
    · exact .next hdepth hc hnext hne
    · exact .subdir hdepth hc hd hacc hdir

theorem dirLink_eq : DirLink v = fun n m => NextCall v n m ∨ SubdirectoryCall v n m := by
  funext n m
  exact propext dirLink_iff

theorem calls_eq : Calls (actions v) = DirLink v := by
  funext n m
  exact propext (calls_iff v)

namespace DirectoryChain
variable {start : UInt32} {rest : List UInt32} (h : DirectoryChain v start rest)
include h

theorem valid_of_mem {c : UInt32} (hc : c ∈ start :: rest) : v.isValidCluster c = true := by
  obtain ⟨i, hi, rfl⟩ := List.getElem_of_mem hc
  cases i with
  | zero => exact h.valid
  | succ i => exact (List.isChain_iff_getElem.mp h.linked i hi).2

theorem next_eq {i : Nat} (hi : i + 1 < (start :: rest).length) :
    (start :: rest)[i + 1] = v.getNextCluster (start :: rest)[i] :=
  (List.isChain_iff_getElem.mp h.linked i hi).1

/-- The cluster with index `i` is called at depth `i`, up to the first depth that is refused. -/
theorem called : ∀ i (hi : i < (start :: rest).length), i ≤ MAX_RECURSION_DEPTH.toNat →
    ReflTransGen (NextCall v) (start, 0) ((start :: rest)[i], UInt32.ofNat i)
  | 0, _, _ => .refl
  | i + 1, hi, hle => by
    have hmax : MAX_RECURSION_DEPTH.toNat = 100 := rfl
    have hnat : (UInt32.ofNat i).toNat = i := UInt32.toNat_ofNat_of_lt' (show i < 2 ^ 32 by omega)
    have hne : (start :: rest)[i + 1] ≠ (start :: rest)[i] :=
      fun heq => absurd ((List.Nodup.getElem_inj_iff h.nodup).mp heq) (Nat.succ_ne_self i)
    have hvalid := h.valid_of_mem (List.getElem_mem hi)
    refine (called i (Nat.lt_of_succ_lt hi) (Nat.le_of_succ_le hle)).tail ⟨?_, h.valid_of_mem (List.getElem_mem _), ?_, ?_, ?_⟩
    · rw [UInt32.lt_iff_toNat_lt, hnat]
      omega
    · rwa [h.next_eq hi] at hvalid
    · rwa [h.next_eq hi] at hne
    · rw [h.next_eq hi, UInt32.ofNat_add]
      rfl

/-- Without a subdirectory the depth is the index in the chain, as far as the chain goes. -/
theorem index_of_called {n : UInt32 × UInt32} (hpath : ReflTransGen (NextCall v) (start, 0) n) :
    (start :: rest)[n.2.toNat]? = some n.1 ∨ (start :: rest).length ≤ n.2.toNat := by
  induction hpath with
  | refl => exact .inl rfl
  | @tail n m _ hstep ih =>
    obtain ⟨hdepth, -, -, -, rfl⟩ := hstep
    have hmax : MAX_RECURSION_DEPTH.toNat = 100 := rfl
    have hlt := UInt32.lt_iff_toNat_lt.mp hdepth
    have hsucc : (n.2 + 1).toNat = n.2.toNat + 1 := by
      rw [UInt32.toNat_add, UInt32.toNat_one, Nat.mod_eq_of_lt (by omega)]
    rw [hsucc]
    by_cases hi : n.2.toNat + 1 < (start :: rest).length
    · rcases ih with hget | hle
      · obtain ⟨_, hget⟩ := List.getElem?_eq_some_iff.mp hget
        refine .inl ?_
        rw [List.getElem?_eq_getElem hi, h.next_eq hi, hget]
      · omega
    · exact .inr (Nat.le_of_not_lt hi)

/-- A cluster is worked through by the first hundred calls of the chain or by way of a subdirectory. -/
theorem index_lt_of_worksThrough {i : Nat} {c : UInt32} (hget : (start :: rest)[i]? = some c)
    (hworks : WorksThrough v start c) : i < MAX_RECURSION_DEPTH.toNat ∨ LedToAgain v start c := by
  obtain ⟨hi, -⟩ := List.getElem?_eq_some_iff.mp hget
  obtain ⟨depth, hdepth, -, hpath⟩ := hworks
  have hlt := UInt32.lt_iff_toNat_lt.mp hdepth
  rw [calls_eq, dirLink_eq] at hpath
  rcases reflTransGen_or hpath with hnext | ⟨n, m, hn, hnm, hm⟩
  · left
    rcases h.index_of_called hnext with hindex | hend
    · have heq : i = depth.toNat := (List.getElem?_inj hi h.nodup).mp (hget.trans hindex.symm)
      omega
    · have hend : (start :: rest).length ≤ depth.toNat := hend
      omega
  · right
    rw [← dirLink_eq] at hn
    exact ⟨n, m, depth, hn, hnm, hm, hdepth⟩

end DirectoryChain

/-- A directory is scanned to its end exactly when each cluster after the hundredth is also led to by a
deleted subdirectory. -/
theorem scanned_to_end_iff {start : UInt32} {rest : List UInt32} (h : DirectoryChain v start rest) :
    ScannedToEnd v start rest ↔ ∀ i c, (start :: rest)[i]? = some c →
      i < MAX_RECURSION_DEPTH.toNat ∨ LedToAgain v start c := by
  constructor
  · exact fun hscan i c hget => h.index_lt_of_worksThrough hget (hscan.worked c (List.mem_of_getElem? hget))
  · intro hall
    have hlinks : ∀ {n m}, ReflTransGen (NextCall v) n m → ReflTransGen (DirLink v) n m :=
      fun hpath => hpath.lift id fun _ _ hcall => dirLink_iff.mpr (.inl hcall)
    have hworked : ∀ c ∈ start :: rest, WorksThrough v start c := by
      intro c hc
      obtain ⟨i, hi, hget⟩ := List.getElem_of_mem hc
      have hvalid := h.valid_of_mem hc
      unfold WorksThrough
      rw [calls_eq]
      rcases hall i c (by rw [List.getElem?_eq_getElem hi, hget]) with hlt | ⟨n, m, depth, hn, hnm, hm, hdepth⟩
      · have hmax : MAX_RECURSION_DEPTH.toNat = 100 := rfl
        refine ⟨UInt32.ofNat i, ?_, hvalid, ?_⟩
        · rw [UInt32.lt_iff_toNat_lt, UInt32.toNat_ofNat_of_lt' (show i < 2 ^ 32 by omega)]
          exact hlt
        · rw [← hget]
          exact hlinks (h.called i hi (Nat.le_of_lt hlt))
      · exact ⟨depth, hdepth, hvalid, (hn.tail (dirLink_iff.mpr (.inr hnm))).trans (hlinks hm)⟩
    exact ⟨hworked, fun config stack st scan hlist hscan c hc d hd hacc hfile hdel =>
      listed_of_worksThrough v (hworked c hc) config hlist hscan hd hacc hfile hdel⟩

end

/-! ## A chain of 101 clusters -/

/-- The words at the start of the heap link cluster 10 to 11, and so on up to 110. -/
def longDirectory : Volume where
  device := .ofSectors
    [(4, List.replicate 40 0 ++ (List.range 100).flatMap fun k => [UInt8.ofNat (11 + k), 0, 0, 0])] 512
  bootSector :=
    { smallBoot with volumeLength := 204, fatLength := 2, clusterCount := 200, rootDirectoryCluster := 10 }
  pastEnd := fun _ => 0
  bytesPerSectorShift_lt := by decide
  sectorsPerClusterShift_lt := by decide

def longChain : List UInt32 := (List.range 100).map fun i => UInt32.ofNat (11 + i)

theorem longDirectory_chain : DirectoryChain longDirectory 10 longChain :=
  ⟨by decide +kernel, by decide +kernel, by decide +kernel⟩

theorem longDirectory_empty : ∀ c ∈ (10 : UInt32) :: longChain, setsOf longDirectory c = [] := by
  have hzeros : ∀ sector : UInt64, sector ≠ 4 → longDirectory.readSector sector = longDirectory.readSector 5 := by
    intro sector hne
    show some (((List.lookup sector [(4, _)]).getD [] ++ _).take _) = _
    rw [List.lookup_cons, beq_eq_false_iff_ne.mpr hne]
    rfl
  have hsector : setsOfSector longDirectory 5 = [] := List.eq_nil_of_length_eq_zero (by decide +kernel)
  have hafter : (((10 : UInt32) :: longChain).flatMap longDirectory.sectorsOf).all
      (fun sector => sector != 4 && !(longDirectory.maxSectorCount ≤ sector)) = true := by
    decide +kernel
  intro c hc
  refine List.flatMap_eq_nil_iff.mpr fun sector hmem => ?_
  have hsector' := List.all_eq_true.mp hafter sector (List.mem_flatMap.mpr ⟨c, hc, hmem⟩)
  simp only [Bool.and_eq_true, bne_iff_ne, Bool.not_eq_true', decide_eq_false_iff_not] at hsector'
  obtain ⟨hne, hbound⟩ := hsector'
  unfold setsOfSector at hsector ⊢
  rw [if_neg (by decide)] at hsector
  rw [if_neg hbound, hzeros sector hne]
  exact hsector

theorem scanned_to_end_long : ScannedToEnd longDirectory 10 longChain ↔
    ∀ i c, ((10 : UInt32) :: longChain)[i]? = some c →
      i < MAX_RECURSION_DEPTH.toNat ∨ LedToAgain longDirectory 10 c :=
  scanned_to_end_iff longDirectory_chain

/-- No subdirectory is found, so the last of the 101 clusters is not reached. -/
theorem long_directory_cut :
    ¬ ∀ (v : Volume) start rest, ConsistentGeometry v.bootSector → DirectoryChain v start rest →
      ScannedToEnd v start rest := by
  intro h
  have hscan := h longDirectory 10 longChain (by decide +kernel) longDirectory_chain
  have hnone : ∀ {n m}, ReflTransGen (NextCall longDirectory) (10, 0) n → ¬ SubdirectoryCall longDirectory n m := by
    rintro n m hpath ⟨hdepth, -, d, hd, -⟩
    rcases longDirectory_chain.index_of_called hpath with hget | hend
    · rw [longDirectory_empty n.1 (List.mem_of_getElem? hget)] at hd
      cases hd
    · have hlt := UInt32.lt_iff_toNat_lt.mp hdepth
      have hlength : ((10 : UInt32) :: longChain).length = 101 := by decide +kernel
      have hmax : MAX_RECURSION_DEPTH.toNat = 100 := rfl
      omega
  have honly : ∀ n, ReflTransGen (DirLink longDirectory) (10, 0) n → ReflTransGen (NextCall longDirectory) (10, 0) n := by
    intro n hpath
    induction hpath with
    | refl => exact .refl
    | tail _ hlink ih => exact ih.tail ((dirLink_iff.mp hlink).resolve_right (hnone ih))
  have hlast : ((10 : UInt32) :: longChain)[100]? = some 110 := by decide +kernel
  have hworks := hscan.worked 110 (List.mem_of_getElem? hlast)
  rcases longDirectory_chain.index_lt_of_worksThrough hlast hworks with hlt | ⟨n, m, _, hn, hnm, -, -⟩
  · exact absurd hlt (by decide)
  · exact hnone (honly n hn) hnm

end ExFAT

end DataRecovery
