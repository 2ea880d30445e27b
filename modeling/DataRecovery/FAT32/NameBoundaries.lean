import DataRecovery.BlockScan
import DataRecovery.FAT32.ScanExact

/-!
# FAT32 long names and sector boundaries

The long name is collected within one call of `processEntriesInSector`, so what the
long-name entries before the sector of the short entry say is lost, in the middle of a
cluster as well as between two clusters of the chain.
-/

namespace DataRecovery.FAT32

open Scanner Traversal

structure EntryGroup where
  longs : List (List UInt8)
  short : List UInt8
  isLongName_longs : ∀ raw ∈ longs, (DirectoryEntry.ofBytes raw).isLongName = true
  isLongName_short : (DirectoryEntry.ofBytes short).isLongName = false
  firstByte_ne : ∀ raw ∈ longs ++ [short], (DirectoryEntry.ofBytes raw).firstByte ≠ 0

/-- The name that long-name entries spell; the last one has the beginning. -/
def longText (raws : List (List UInt8)) : WString :=
  raws.reverse.flatMap fun raw => getLongFilename (.ofBytes raw)

def nameOf (e : DirectoryEntry) (longFilename : WString) : WString :=
  if longFilename = [] then getShortFilename e e.isDeleted else longFilename

namespace EntryGroup
variable (G : EntryGroup)

def entries : List (List UInt8) := G.longs ++ [G.short]

def entry : DirectoryEntry := .ofBytes G.short

/-- How many of the long-name entries come before the sector of the short entry, when the group starts at
position `p` and a sector has `m` entries. -/
def cut (m p : Nat) : Nat := G.longs.length - (p + G.longs.length) % m

def lost (m p : Nat) : WString := longText (G.longs.take (G.cut m p))

def kept (m p : Nat) : WString := longText (G.longs.drop (G.cut m p))

/-- The name is the same although the group is cut: the part that is lost is empty, or it is the whole name and
equal to the short one. -/
def KeepsName (m p : Nat) : Prop :=
  G.lost m p = [] ∨ G.kept m p = [] ∧ G.lost m p = getShortFilename G.entry G.entry.isDeleted

end EntryGroup

/-- The long name that is collected at the short entry of a group whose long-name entries start at position
`p`, when `longFilename` is collected before them. -/
def collected (m p : Nat) (longs : List (List UInt8)) (longFilename : WString) : WString :=
  longText (longs.drop (longs.length - (p + longs.length) % m)) ++
    if longs.length ≤ (p + longs.length) % m then longFilename else []

theorem longText_append (xs ys : List (List UInt8)) : longText (xs ++ ys) = longText ys ++ longText xs := by
  unfold longText
  rw [List.reverse_append, List.flatMap_append]

theorem longText_cons (x : List UInt8) (xs : List (List UInt8)) :
    longText (x :: xs) = longText xs ++ getLongFilename (.ofBytes x) := by
  have h := longText_append [x] xs
  rw [List.singleton_append] at h
  rw [h]
  unfold longText
  rw [List.reverse_singleton, List.flatMap_singleton]

section
variable (v : Volume)

/-- `processEntriesInSector` as a scanner; past the end of the directory there is no state. -/
def nameScanner : Scanner (List UInt8) (Option WString) (Action UInt32 Found) where
  start := some []
  step state raw :=
    match state with
    | none => ([], none)
    | some longFilename =>
      let e := DirectoryEntry.ofBytes raw
      if e.firstByte = 0 then ([], none)
      else if e.isLongName then ([], some (getLongFilename (.ofBytes raw) ++ longFilename))
      else (directoryEntryActions v e (nameOf e longFilename), some [])
  close _ := []
  close_start := rfl

theorem step_ended (raw : List UInt8) : (nameScanner v).step none raw = ([], none) := rfl

theorem step_unused {raw : List UInt8} (h : (DirectoryEntry.ofBytes raw).firstByte = 0) (longFilename : WString) :
    (nameScanner v).step (some longFilename) raw = ([], none) := if_pos h

theorem step_long {raw : List UInt8} (hfirst : (DirectoryEntry.ofBytes raw).firstByte ≠ 0)
    (hlong : (DirectoryEntry.ofBytes raw).isLongName = true) (longFilename : WString) :
    (nameScanner v).step (some longFilename) raw = ([], some (getLongFilename (.ofBytes raw) ++ longFilename)) := by
  unfold nameScanner
  dsimp only
  rw [if_neg hfirst, if_pos hlong]

theorem step_short {raw : List UInt8} (hfirst : (DirectoryEntry.ofBytes raw).firstByte ≠ 0)
    (hlong : (DirectoryEntry.ofBytes raw).isLongName = false) (longFilename : WString) :
    (nameScanner v).step (some longFilename) raw =
      (directoryEntryActions v (.ofBytes raw) (nameOf (.ofBytes raw) longFilename), some []) := by
  unfold nameScanner
  dsimp only
  rw [if_neg hfirst, hlong]
  rfl

theorem run_ended : ∀ raws : List (List UInt8), (nameScanner v).run raws none = []
  | [] => rfl
  | raw :: raws => by
    rw [Scanner.run, step_ended, run_ended raws]
    rfl

theorem entryActions_eq_run : ∀ (raws : List (List UInt8)) (longFilename : WString),
    entryActions v raws longFilename = (nameScanner v).run raws (some longFilename)
  | [], _ => rfl
  | raw :: raws, longFilename => by
    unfold entryActions Scanner.run
    dsimp only
    by_cases hfirst : (DirectoryEntry.ofBytes raw).firstByte = 0
    · rw [if_pos hfirst, step_unused v hfirst, run_ended]
      rfl
    · rw [if_neg hfirst]
      cases hlong : (DirectoryEntry.ofBytes raw).isLongName with
      | true => rw [step_long v hfirst hlong, if_pos rfl, entryActions_eq_run raws]; rfl
      | false => rw [step_short v hfirst hlong, if_neg Bool.false_ne_true, entryActions_eq_run raws]; rfl

/-! ## One group -/

section
variable (m : Nat) {rest : List (List UInt8)} (G : EntryGroup)

theorem runBlocks_unused : ∀ (raws : List (List UInt8)) (p : Nat) (s : Option WString),
    (∀ raw ∈ raws, (DirectoryEntry.ofBytes raw).firstByte = 0) → (nameScanner v).runBlocks m p raws s = []
  | [], _, _, _ => rfl
  | raw :: raws, p, s, h => by
    have hstep : (nameScanner v).step s raw = ([], none) := by
      cases s with
      | none => exact step_ended v raw
      | some longFilename => exact step_unused v (h raw (List.mem_cons_self ..)) longFilename
    have ih := fun q s => runBlocks_unused raws q s fun x hx => h x (List.mem_cons_of_mem _ hx)
    rw [Scanner.runBlocks, hstep, ih, ih]
    split
    · rfl
    · rfl

/-- At the end of a sector what is collected is lost. -/
theorem collected_cons (hm : 0 < m) (p : Nat) (x : List UInt8) (longs : List (List UInt8)) (longFilename : WString) :
    collected m p (x :: longs) longFilename =
      if m ∣ p + 1 then collected m (p + 1) longs []
      else collected m (p + 1) longs (getLongFilename (.ofBytes x) ++ longFilename) := by
  have hpos : p + (x :: longs).length = p + 1 + longs.length := by rw [List.length_cons]; omega
  have hlt := Nat.mod_lt (p + 1 + longs.length) hm
  have hdiv := Nat.div_add_mod (p + 1 + longs.length) m
  unfold collected
  rw [hpos, List.length_cons]
  by_cases hall : longs.length + 1 ≤ (p + 1 + longs.length) % m
  · have hdvd : ¬ m ∣ p + 1 := by
      intro hdvd
      rw [Nat.add_mod, Nat.mod_eq_zero_of_dvd hdvd, Nat.zero_add, Nat.mod_mod] at hall
      exact absurd (Nat.le_trans hall (Nat.mod_le _ _)) (Nat.not_succ_le_self _)
    rw [if_neg hdvd, if_pos hall, if_pos (Nat.le_of_succ_le hall), Nat.sub_eq_zero_of_le hall,
      Nat.sub_eq_zero_of_le (Nat.le_of_succ_le hall), List.drop_zero, List.drop_zero, longText_cons, List.append_assoc]
  · have hdrop : (x :: longs).drop (longs.length + 1 - (p + 1 + longs.length) % m) =
        longs.drop (longs.length - (p + 1 + longs.length) % m) := by
      rw [Nat.sub_add_comm (by omega), List.drop_succ_cons]
    rw [if_neg hall, hdrop]
    split
    · rw [ite_self]
    · rename_i hdvd
      rw [if_neg]
      intro hle
      refine hdvd ⟨(p + 1 + longs.length) / m, ?_⟩
      omega

theorem runBlocks_longs (hm : 0 < m) {short : List UInt8} (hfirst : (DirectoryEntry.ofBytes short).firstByte ≠ 0)
    (hshort : (DirectoryEntry.ofBytes short).isLongName = false) : ∀ (longs : List (List UInt8)) (p : Nat)
      (longFilename : WString), (∀ raw ∈ longs, (DirectoryEntry.ofBytes raw).firstByte ≠ 0) →
      (∀ raw ∈ longs, (DirectoryEntry.ofBytes raw).isLongName = true) →
        (nameScanner v).runBlocks m p (longs ++ short :: rest) (some longFilename) =
          directoryEntryActions v (.ofBytes short) (nameOf (.ofBytes short) (collected m p longs longFilename)) ++
          (nameScanner v).runBlocks m (p + longs.length + 1) rest (some [])
  | [], p, longFilename, _, _ => by
    have hnil : collected m p [] longFilename = longFilename := by
      unfold collected
      rw [List.length_nil, if_pos (Nat.zero_le _), List.drop_nil]
      rfl
    rw [List.nil_append, Scanner.runBlocks, step_short v hfirst hshort, hnil]
    split
    · rfl
    · rfl
  | x :: longs, p, longFilename, hfirsts, hlongs => by
    have ih := fun name => runBlocks_longs hm hfirst hshort longs (p + 1) name
      (fun y hy => hfirsts y (List.mem_cons_of_mem _ hy)) fun y hy => hlongs y (List.mem_cons_of_mem _ hy)
    have hx := step_long v (hfirsts x (List.mem_cons_self ..)) (hlongs x (List.mem_cons_self ..)) longFilename
    have hq : p + (x :: longs).length + 1 = p + 1 + longs.length + 1 := by rw [List.length_cons]; omega
    rw [List.cons_append, Scanner.runBlocks, hx, collected_cons m hm, hq]
    split
    · exact ih []
    · exact ih _

variable {m} in
theorem runBlocks_group (hm : 0 < m) (p : Nat) :
    (nameScanner v).runBlocks m p (G.entries ++ rest) (some []) =
      directoryEntryActions v G.entry (nameOf G.entry (G.kept m p)) ++
        (nameScanner v).runBlocks m (p + G.entries.length) rest (some []) := by
  have hfirst := fun raw hraw => G.firstByte_ne raw (List.mem_append_left _ hraw)
  have hkept : collected m p G.longs [] = G.kept m p := by
    unfold collected
    rw [ite_self, List.append_nil]
    rfl
  have hlen : p + G.entries.length = p + G.longs.length + 1 := by
    rw [EntryGroup.entries, List.length_append, List.length_singleton, Nat.add_assoc]
  rw [hlen, EntryGroup.entries, List.append_assoc, List.singleton_append]
  rw [runBlocks_longs v m hm (G.firstByte_ne G.short (List.mem_append_right _ (List.mem_singleton_self _)))
    G.isLongName_short G.longs p [] hfirst G.isLongName_longs, hkept]
  rfl

theorem run_longs {short : List UInt8} (hfirst : (DirectoryEntry.ofBytes short).firstByte ≠ 0)
    (hshort : (DirectoryEntry.ofBytes short).isLongName = false) : ∀ (longs : List (List UInt8))
      (longFilename : WString), (∀ raw ∈ longs, (DirectoryEntry.ofBytes raw).firstByte ≠ 0) →
      (∀ raw ∈ longs, (DirectoryEntry.ofBytes raw).isLongName = true) →
        (nameScanner v).run (longs ++ short :: rest) (some longFilename) =
          directoryEntryActions v (.ofBytes short) (nameOf (.ofBytes short) (longText longs ++ longFilename)) ++
            (nameScanner v).run rest (some [])
  | [], longFilename, _, _ => by
    rw [List.nil_append, Scanner.run, step_short v hfirst hshort]
    rfl
  | x :: longs, longFilename, hfirsts, hlongs => by
    rw [List.cons_append, Scanner.run, step_long v (hfirsts x (List.mem_cons_self ..)) (hlongs x (List.mem_cons_self ..)),
      longText_cons, List.append_assoc]
    exact run_longs hfirst hshort longs _ (fun y hy => hfirsts y (List.mem_cons_of_mem _ hy))
      fun y hy => hlongs y (List.mem_cons_of_mem _ hy)

theorem entryActions_group :
    entryActions v (G.entries ++ rest) [] =
      directoryEntryActions v G.entry (nameOf G.entry (longText G.longs)) ++ entryActions v rest [] := by
  have hfirst := fun raw hraw => G.firstByte_ne raw (List.mem_append_left _ hraw)
  rw [entryActions_eq_run, entryActions_eq_run, EntryGroup.entries, List.append_assoc, List.singleton_append]
  rw [run_longs v (G.firstByte_ne G.short (List.mem_append_right _ (List.mem_singleton_self _)))
    G.isLongName_short G.longs [] hfirst G.isLongName_longs, List.append_nil]
  rfl

end

/-! ## A directory of groups -/

def listed (actions : List (Action UInt32 Found)) : List Found :=
  actions.filterMap fun
    | .emit f => some f
    | .call _ => none

theorem listed_append (actions rest : List (Action UInt32 Found)) :
    listed (actions ++ rest) = listed actions ++ listed rest := List.filterMap_append ..

def IsListed (e : DirectoryEntry) : Prop :=
  v.isValidCluster e.startCluster = true ∧ e.isDirectory = false ∧ e.isDeleted = true

theorem listed_of_isListed {e : DirectoryEntry} (h : IsListed v e) (name : WString) :
    listed (directoryEntryActions v e name) = [⟨name, e.startCluster, e.fileSize⟩] := by
  obtain ⟨hvalid, hfile, hdeleted⟩ := h
  unfold directoryEntryActions
  rw [hvalid, hfile, hdeleted]
  rfl

theorem listed_of_not {e : DirectoryEntry} (h : ¬ IsListed v e) (name : WString) :
    listed (directoryEntryActions v e name) = [] := by
  unfold IsListed at h
  unfold directoryEntryActions
  cases hvalid : v.isValidCluster e.startCluster with
  | false => rfl
  | true =>
    cases hdir : e.isDirectory with
    | true => rfl
    | false =>
      cases hdeleted : e.isDeleted with
      | false => rfl
      | true => exact absurd ⟨hvalid, hdir, hdeleted⟩ h

theorem length_listed {e : DirectoryEntry} {name name' : WString} :
    (listed (directoryEntryActions v e name)).length = (listed (directoryEntryActions v e name')).length := by
  by_cases h : IsListed v e
  · rw [listed_of_isListed v h, listed_of_isListed v h]
    rfl
  · rw [listed_of_not v h, listed_of_not v h]

theorem nameOf_kept_iff {e : DirectoryEntry} {kept lost : WString} :
    nameOf e kept = nameOf e (kept ++ lost) ↔ lost = [] ∨ kept = [] ∧ lost = getShortFilename e e.isDeleted := by
  unfold nameOf
  cases lost with
  | nil => rw [List.append_nil]; exact ⟨fun _ => .inl rfl, fun _ => rfl⟩
  | cons c lost =>
    cases kept with
    | nil =>
      rw [if_pos rfl, List.nil_append, if_neg (List.cons_ne_nil c lost)]
      refine ⟨fun h => .inr ⟨rfl, h.symm⟩, fun h => ?_⟩
      rcases h with h | ⟨-, h⟩
      · cases h
      · exact h.symm
    | cons d kept =>
      rw [if_neg (List.cons_ne_nil d kept), if_neg (by rw [List.cons_append]; exact List.cons_ne_nil _ _)]
      refine ⟨fun h => .inl (List.append_right_eq_self.mp h.symm), fun h => ?_⟩
      rcases h with h | ⟨h, -⟩
      · cases h
      · cases h

namespace EntryGroup
variable (G : EntryGroup)

theorem kept_append_lost (m p : Nat) : G.kept m p ++ G.lost m p = longText G.longs := by
  unfold kept lost
  rw [← longText_append, List.take_append_drop]

theorem listed_iff (m p : Nat) :
    listed (directoryEntryActions v G.entry (nameOf G.entry (G.kept m p))) =
        listed (directoryEntryActions v G.entry (nameOf G.entry (longText G.longs))) ↔
      (IsListed v G.entry → G.KeepsName m p) := by
  rw [← G.kept_append_lost m p]
  by_cases h : IsListed v G.entry
  · have hname : nameOf G.entry (G.kept m p) = nameOf G.entry (G.kept m p ++ G.lost m p) ↔ G.KeepsName m p :=
      nameOf_kept_iff
    rw [listed_of_isListed v h, listed_of_isListed v h, List.cons.injEq, Found.mk.injEq, hname]
    simp [h]
  · rw [listed_of_not v h, listed_of_not v h]
    exact ⟨fun _ hlisted => absurd hlisted h, fun _ => rfl⟩

end EntryGroup

def groupsFrom (m : Nat) : Nat → List EntryGroup → List (Action UInt32 Found)
  | _, [] => []
  | p, G :: groups =>
    directoryEntryActions v G.entry (nameOf G.entry (G.kept m p)) ++ groupsFrom m (p + G.entries.length) groups

section
variable {unused : List (List UInt8)} (hunused : ∀ raw ∈ unused, (DirectoryEntry.ofBytes raw).firstByte = 0)
include hunused

theorem runBlocks_groups {m : Nat} (hm : 0 < m) : ∀ (groups : List EntryGroup) (p : Nat),
    (nameScanner v).runBlocks m p (groups.flatMap EntryGroup.entries ++ unused) (some []) = groupsFrom v m p groups
  | [], p => runBlocks_unused v m unused p (some []) hunused
  | G :: groups, p => by
    rw [List.flatMap_cons, List.append_assoc, runBlocks_group v G hm, runBlocks_groups hm groups]
    rfl

theorem entryActions_unused : entryActions v unused [] = [] := by
  cases unused with
  | nil => rfl
  | cons raw unused =>
    unfold entryActions
    dsimp only
    rw [if_pos (hunused raw (List.mem_cons_self ..))]

theorem listed_entryActions : ∀ groups : List EntryGroup,
    listed (entryActions v (groups.flatMap EntryGroup.entries ++ unused) []) =
      groups.flatMap fun G => listed (directoryEntryActions v G.entry (nameOf G.entry (longText G.longs)))
  | [] => by
    rw [List.flatMap_nil, List.nil_append, entryActions_unused v hunused]
    rfl
  | G :: groups => by
    rw [List.flatMap_cons, List.append_assoc, entryActions_group, listed_append, listed_entryActions groups]
    rfl

theorem listed_groups_iff (m : Nat) (groups : List EntryGroup) (p : Nat) :
    listed (groupsFrom v m p groups) = listed (entryActions v (groups.flatMap EntryGroup.entries ++ unused) []) ↔
      ∀ pre G post, groups = pre ++ G :: post → IsListed v G.entry →
        G.KeepsName m (p + (pre.flatMap EntryGroup.entries).length) := by
  have hlen : ∀ (q : Nat) (G : EntryGroup),
      (listed (directoryEntryActions v G.entry (nameOf G.entry (G.kept m q)))).length ≤
        (listed (directoryEntryActions v G.entry (nameOf G.entry (longText G.longs)))).length :=
    fun q G => Nat.le_of_eq (length_listed v)
  have hplaced := @placed_eq_iff _ _ _ EntryGroup.entries _ _ (fun q groups => listed (groupsFrom v m q groups))
    (fun _ => rfl) (fun _ _ _ => listed_append ..) hlen groups p
  rw [listed_entryActions v hunused, hplaced]
  simp only [EntryGroup.listed_iff]

end

/-! ## The chain of a directory -/

def sectorEntries (sector : UInt64) : List (List UInt8) :=
  match v.readSector sector with
  | some sectorBuffer => rawEntries v sectorBuffer
  | none => []

def directoryEntries (chain : List UInt32) : List (List UInt8) :=
  (chain.flatMap v.sectorsOf).flatMap (sectorEntries v)

def directoryActions (chain : List UInt32) : List (Action UInt32 Found) :=
  chain.flatMap fun c => (v.sectorsOf c).flatMap (sectorActions v)

structure Layout (chain : List UInt32) (groups : List EntryGroup) (unused : List (List UInt8)) : Prop where
  valid : ∀ c ∈ chain, v.isValidCluster c = true
  linked : chain.IsChain fun c c' => v.getNextCluster c = c'
  read : ∀ sector ∈ chain.flatMap v.sectorsOf, (v.readSector sector).isSome = true
  entries_eq : directoryEntries v chain = groups.flatMap EntryGroup.entries ++ unused
  unused_first : ∀ raw ∈ unused, (DirectoryEntry.ofBytes raw).firstByte = 0

def KeepsNames (chain : List UInt32) : Prop :=
  listed (directoryActions v chain) = listed (entryActions v (directoryEntries v chain) [])

variable {v} {chain : List UInt32} {groups : List EntryGroup} {unused : List (List UInt8)}

theorem mem_listed {f : Found} {found : List (Action UInt32 Found)} : f ∈ listed found ↔ .emit f ∈ found := by
  unfold listed
  rw [List.mem_filterMap]
  constructor
  · intro ⟨a, ha, hf⟩
    cases a with
    | emit g => rw [← Option.some.inj hf]; exact ha
    | call w => cases hf
  · intro h
    exact ⟨_, h, rfl⟩

/-- What is listed of the chain is what the scan lists of its clusters. -/
theorem mem_listed_directoryActions (h : Layout v chain groups unused) {f : Found} :
    f ∈ listed (directoryActions v chain) ↔ ∃ c ∈ chain, Emits (actions v) c f := by
  rw [mem_listed, directoryActions, List.mem_flatMap]
  refine exists_congr fun c => and_congr_right fun hc => ?_
  unfold Emits actions nextActions
  rw [if_pos (h.valid c hc), List.mem_append]
  refine ⟨.inl, fun hmem => hmem.resolve_right fun hnext => ?_⟩
  split at hnext
  · cases List.mem_singleton.mp hnext
  · cases hnext

theorem calls_chain : ∀ {c : UInt32} {chain : List UInt32}, (∀ d ∈ c :: chain, v.isValidCluster d = true) →
    (c :: chain).IsChain (fun c c' => v.getNextCluster c = c') →
      ∀ c' ∈ c :: chain, Relation.ReflTransGen (Calls (actions v)) c c'
  | c, [], _, _, c', hc' => by
    rw [List.mem_singleton.mp hc']
  | c, d :: chain, hvalid, hlinked, c', hc' => by
    obtain ⟨hnext, hrest⟩ := List.isChain_cons_cons.mp hlinked
    rcases List.mem_cons.mp hc' with rfl | hc'
    · exact .refl
    · have hd : v.isValidCluster d = true := hvalid d (List.mem_cons_of_mem _ (List.mem_cons_self ..))
      have hcall : Calls (actions v) c d := by
        unfold Calls actions nextActions
        rw [if_pos (hvalid c (List.mem_cons_self ..)), hnext, if_pos hd]
        exact List.mem_append_right _ (List.mem_singleton_self _)
      exact .head hcall (calls_chain (fun x hx => hvalid x (List.mem_cons_of_mem _ hx)) hrest c' hc')

theorem length_sectorEntries (h : Layout v chain groups unused) {sector : UInt64}
    (hsector : sector ∈ chain.flatMap v.sectorsOf) : (sectorEntries v sector).length = v.entriesPerSector := by
  obtain ⟨sectorBuffer, hbuffer⟩ := Option.isSome_iff_exists.mp (h.read sector hsector)
  unfold sectorEntries
  rw [hbuffer]
  exact (List.length_map ..).trans List.length_range

theorem groups_of_no_room (h : Layout v chain groups unused) (hm : v.entriesPerSector = 0) : groups = [] := by
  have hnil : directoryEntries v chain = [] := by
    refine List.flatMap_eq_nil_iff.mpr fun sector hsector => ?_
    exact List.eq_nil_of_length_eq_zero ((length_sectorEntries h hsector).trans hm)
  rw [h.entries_eq] at hnil
  cases groups with
  | nil => rfl
  | cons G groups =>
    have hlen := congrArg List.length (List.append_eq_nil_iff.mp hnil).1
    rw [List.flatMap_cons, List.length_append, EntryGroup.entries, List.length_append, List.length_singleton,
      List.length_nil] at hlen
    omega

theorem directoryActions_eq (h : Layout v chain groups unused) :
    directoryActions v chain = (nameScanner v).runBlocks v.entriesPerSector 0 (directoryEntries v chain) (some []) := by
  have hsector : ∀ sector, sectorActions v sector = (nameScanner v).run (sectorEntries v sector) (some []) := by
    intro sector
    unfold sectorActions sectorEntries
    cases v.readSector sector with
    | none => rfl
    | some sectorBuffer => exact entryActions_eq_run v _ _
  have hlen : ∀ block ∈ (chain.flatMap v.sectorsOf).map (sectorEntries v), block.length = v.entriesPerSector := by
    intro block hblock
    obtain ⟨sector, hmem, rfl⟩ := List.mem_map.mp hblock
    exact length_sectorEntries h hmem
  have hrun := (nameScanner v).flatMap_run (Nat.dvd_zero _) hlen
  rw [← List.flatMap_def, List.flatMap_map] at hrun
  unfold directoryActions directoryEntries
  rw [← List.flatMap_assoc, List.flatMap_congr fun sector _ => hsector sector]
  exact hrun

theorem names_survive_iff (h : Layout v chain groups unused) :
    KeepsNames v chain ↔ ∀ pre G post, groups = pre ++ G :: post → IsListed v G.entry →
      G.KeepsName v.entriesPerSector (pre.flatMap EntryGroup.entries).length := by
  unfold KeepsNames
  rw [directoryActions_eq h, h.entries_eq]
  cases Nat.eq_zero_or_pos v.entriesPerSector with
  | inl hm =>
    obtain rfl := groups_of_no_room h hm
    rw [List.flatMap_nil, List.nil_append, runBlocks_unused v _ unused 0 (some []) h.unused_first,
      entryActions_unused v h.unused_first]
    exact ⟨fun _ => forall_split_nil, fun _ => rfl⟩
  | inr hm =>
    have hiff := listed_groups_iff v h.unused_first v.entriesPerSector groups 0
    simp only [Nat.zero_add] at hiff
    rw [runBlocks_groups v h.unused_first hm]
    exact hiff

end

def rawLong : List UInt8 :=
  [0xE5, 0x61, 0, 0x62, 0, 0, 0] ++ List.replicate 4 0xFF ++ [0x0F, 0, 0] ++ List.replicate 12 0xFF ++ [0, 0] ++
    List.replicate 4 0xFF

def longNamed : EntryGroup where
  longs := [rawLong]
  short := rawEntry 0xE5 0x20 5 9
  isLongName_longs := by decide
  isLongName_short := by decide
  firstByte_ne := by decide

def liveEntry : EntryGroup where
  longs := []
  short := rawEntry 0x4C 0x20 0 0
  isLongName_longs := by decide
  isLongName_short := by decide
  firstByte_ne := by decide

def manyNamed : EntryGroup where
  longs := List.replicate 13 rawLong
  short := rawEntry 0xE5 0x20 6 9
  isLongName_longs := by decide
  isLongName_short := by decide
  firstByte_ne := by decide

/-- A directory of two clusters: two files fill the sixteen entries of the first one, and one is in the second. -/
def filledDirectory : Volume :=
  smallVolume [(1, [0, 0, 0, 0, 0, 0, 0, 0, 3, 0, 0, 0]), (2, (manyNamed.entries ++ longNamed.entries).flatten),
    (3, longNamed.entries.flatten)]

theorem names_survive_filled : KeepsNames filledDirectory [2, 3] := by
  have hlayout : Layout filledDirectory [2, 3] [manyNamed, longNamed, longNamed]
      (List.replicate 14 (List.replicate 32 0)) := by
    have hsectors : [2, 3].flatMap filledDirectory.sectorsOf = [2, 3] := by decide +kernel
    refine ⟨?_, ?_, ?_, by decide +kernel, fun raw hraw => ?_⟩
    · exact List.forall_mem_cons.mpr ⟨by decide, List.forall_mem_singleton.mpr (by decide)⟩
    · exact List.isChain_cons_cons.mpr ⟨by decide +kernel, List.isChain_singleton 3⟩
    · rw [hsectors]
      exact List.forall_mem_cons.mpr ⟨by decide +kernel, List.forall_mem_singleton.mpr (by decide +kernel)⟩
    · rw [List.eq_of_mem_replicate hraw]
      rfl
  refine (names_survive_iff hlayout).mpr (forall_split_cons.mpr ⟨fun _ => .inl (by decide +kernel),
    forall_split_cons.mpr ⟨fun _ => .inl (by decide +kernel), forall_split_cons.mpr ⟨fun _ => .inl ?_, forall_split_nil⟩⟩⟩)
  decide +kernel

/-- A directory of two clusters: the long-name entry is the last of the first one, its short entry the first
of the second. -/
def cutName : Volume :=
  smallVolume [(1, [0, 0, 0, 0, 0, 0, 0, 0, 3, 0, 0, 0]),
    (2, (List.replicate 15 liveEntry.short).flatten ++ rawLong), (3, longNamed.short)]

theorem cutName_lost :
    ¬ ∀ (v : Volume) (chain : List UInt32) (groups : List EntryGroup) (unused : List (List UInt8)),
      Layout v chain groups unused → KeepsNames v chain := by
  intro h
  have hlayout : Layout cutName [2, 3] (List.replicate 15 liveEntry ++ [longNamed])
      (List.replicate 15 (List.replicate 32 0)) := by
    have hsectors : [2, 3].flatMap cutName.sectorsOf = [2, 3] := by decide +kernel
    refine ⟨?_, ?_, ?_, by decide +kernel, fun raw hraw => ?_⟩
    · exact List.forall_mem_cons.mpr ⟨by decide, List.forall_mem_singleton.mpr (by decide)⟩
    · exact List.isChain_cons_cons.mpr ⟨by decide +kernel, List.isChain_singleton 3⟩
    · rw [hsectors]
      exact List.forall_mem_cons.mpr ⟨by decide +kernel, List.forall_mem_singleton.mpr (by decide +kernel)⟩
    · rw [List.eq_of_mem_replicate hraw]
      rfl
  have hnames := congrArg (List.map Found.filename) (h cutName [2, 3] _ _ hlayout)
  exact absurd hnames (by decide +kernel)

end DataRecovery.FAT32
