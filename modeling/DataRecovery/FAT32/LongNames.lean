import DataRecovery.FAT32.NameBoundaries

/-!
# The names that a sector spells

The loop over the entries of a sector collects long-name entries until a short entry
uses them up. It is a sequence of calls, one for each short entry with the long-name
entries joined for it. Where these spell a name in the stored form, cut in thirteens
from the end and filled up, the call has exactly that name.
-/

namespace DataRecovery.FAT32

/-! ## Calls -/

structure Call where
  short : List UInt8
  joined : List (List UInt8)
  deriving DecidableEq

namespace Call
variable (c : Call)

def entry : DirectoryEntry := .ofBytes c.short

def name : WString := longText c.joined

end Call

/-- The calls of `processDirectoryEntry`, when `joined` is what has been collected. -/
def calls : List (List UInt8) → List (List UInt8) → List Call
  | [], _ => []
  | raw :: rest, joined =>
    let entry := DirectoryEntry.ofBytes raw
    if entry.firstByte = 0 then []
    else if entry.isLongName then calls rest (joined ++ [raw])
    else ⟨raw, joined⟩ :: calls rest []

section
variable (v : Volume) (config : Config) (iswalnum : UInt16 → Bool) (scan : UInt32 → ScanState → Option ScanState)

theorem processEntries_eq_calls : ∀ (raws joined : List (List UInt8)) (st : ScanState),
    processEntries v config iswalnum scan raws (longText joined) st =
      (calls raws joined).foldlM
        (fun st c => processDirectoryEntry v config iswalnum scan c.entry (nameOf c.entry c.name) st) st
  | [], _, _ => rfl
  | raw :: raws, joined, st => by
    unfold processEntries calls
    dsimp only
    by_cases hfirst : (DirectoryEntry.ofBytes raw).firstByte = 0
    · rw [if_pos hfirst, if_pos hfirst]
      rfl
    · rw [if_neg hfirst, if_neg hfirst]
      cases hlong : (DirectoryEntry.ofBytes raw).isLongName with
      | true =>
        have hjoin : getLongFilename (.ofBytes raw) ++ longText joined = longText (joined ++ [raw]) := by
          rw [longText_append, longText_cons]
          rfl
        rw [if_pos rfl, if_pos rfl, hjoin]
        exact processEntries_eq_calls raws _ st
      | false =>
        rw [if_neg Bool.false_ne_true, if_neg Bool.false_ne_true, List.foldlM_cons]
        exact congrArg _ (funext fun st => processEntries_eq_calls raws [] st)

theorem processEntriesInSector_eq_calls (entriesPerSector : Nat) (sectorBuffer : List UInt8) (st : ScanState) :
    processEntriesInSector v config iswalnum scan entriesPerSector sectorBuffer st =
      (calls ((List.range entriesPerSector).map (entryAt sectorBuffer)) []).foldlM
        (fun st c => processDirectoryEntry v config iswalnum scan c.entry (nameOf c.entry c.name) st) st :=
  processEntries_eq_calls v config iswalnum scan _ [] st

end

/-! ## The stored form of a name -/

def longUnits (raw : List UInt8) : WString :=
  let lfn := LFNEntry.ofBytes raw
  lfn.name1 ++ lfn.name2 ++ lfn.name3

def filling (length : Nat) : WString :=
  if length % 13 = 0 then [] else 0 :: List.replicate (12 - length % 13) 0xFFFF

/-- A short entry with the long-name entries of its name; without a long name there are none. -/
structure NamedGroup extends EntryGroup where
  name : WString
  units : ∀ c ∈ name, 32 ≤ c ∧ c ≠ 0xFFFF
  spelled : longs.reverse.flatMap longUnits = name ++ filling name.length

theorem longText_eq (raws : List (List UInt8)) :
    longText raws = (raws.reverse.flatMap longUnits).filter fun c => !(c == 0 || c == 0xFFFF || c < 32) :=
  List.filter_flatMap.symm

theorem filter_filling (length : Nat) :
    (filling length).filter (fun c => !(c == 0 || c == 0xFFFF || c < 32)) = [] := by
  unfold filling
  split
  · rfl
  · rw [List.filter_cons_of_neg (by decide)]
    refine List.filter_eq_nil_iff.mpr fun c hc => ?_
    rw [List.eq_of_mem_replicate hc]
    decide

theorem NamedGroup.longText_longs (G : NamedGroup) : longText G.longs = G.name := by
  have hkept : G.name.filter (fun c => !(c == 0 || c == 0xFFFF || c < 32)) = G.name := by
    refine List.filter_eq_self.mpr fun c hc => ?_
    obtain ⟨hlow, hne⟩ := G.units c hc
    have hzero : c ≠ 0 := by
      intro h
      rw [h] at hlow
      exact absurd hlow (by decide)
    have hnot : ¬ c < 32 := UInt16.not_lt.mpr hlow
    simp [hzero, hne, hnot]
  rw [longText_eq, G.spelled, List.filter_append, hkept, filter_filling, List.append_nil]

/-! ## A sector of names -/

section
variable {rest : List (List UInt8)}

theorem calls_longs {short : List UInt8} (hfirst : (DirectoryEntry.ofBytes short).firstByte ≠ 0)
    (hshort : (DirectoryEntry.ofBytes short).isLongName = false) : ∀ (longs joined : List (List UInt8)),
      (∀ raw ∈ longs, (DirectoryEntry.ofBytes raw).firstByte ≠ 0) →
      (∀ raw ∈ longs, (DirectoryEntry.ofBytes raw).isLongName = true) →
        calls (longs ++ short :: rest) joined = ⟨short, joined ++ longs⟩ :: calls rest []
  | [], joined, _, _ => by
    rw [List.nil_append, List.append_nil, calls, if_neg hfirst, hshort]
    rfl
  | x :: longs, joined, hfirsts, hlongs => by
    rw [List.cons_append, calls, if_neg (hfirsts x (List.mem_cons_self ..)), hlongs x (List.mem_cons_self ..), if_pos rfl,
      calls_longs hfirst hshort longs _ (fun y hy => hfirsts y (List.mem_cons_of_mem _ hy))
        fun y hy => hlongs y (List.mem_cons_of_mem _ hy),
      List.append_assoc]
    rfl

theorem calls_group (G : EntryGroup) : calls (G.entries ++ rest) [] = ⟨G.short, G.longs⟩ :: calls rest [] := by
  rw [EntryGroup.entries, List.append_assoc, List.singleton_append]
  exact calls_longs (G.firstByte_ne G.short (List.mem_append_right _ (List.mem_singleton_self _))) G.isLongName_short
    G.longs [] (fun raw hraw => G.firstByte_ne raw (List.mem_append_left _ hraw)) G.isLongName_longs

/-- The directory ends before these entries, or with the sector. -/
def Ended (tail : List (List UInt8)) : Prop :=
  ∀ raw, tail.head? = some raw → (DirectoryEntry.ofBytes raw).firstByte = 0

theorem calls_ended {tail : List (List UInt8)} (h : Ended tail) : calls tail [] = [] := by
  cases tail with
  | nil => rfl
  | cons raw tail => exact if_pos (h raw rfl)

theorem calls_groups {tail : List (List UInt8)} (h : Ended tail) : ∀ groups : List NamedGroup,
    calls (groups.flatMap (fun G => G.entries) ++ tail) [] = groups.map fun G => ⟨G.short, G.longs⟩
  | [] => calls_ended h
  | G :: groups => by
    rw [List.flatMap_cons, List.append_assoc, calls_group, calls_groups h groups]
    rfl

end

/-- Each short entry is processed once, in order, with the name spelled before it or its own. -/
theorem processEntriesInSector_names (v : Volume) (config : Config) (iswalnum : UInt16 → Bool)
    (scan : UInt32 → ScanState → Option ScanState) {entriesPerSector : Nat} {sectorBuffer : List UInt8}
    {groups : List NamedGroup} {tail : List (List UInt8)} (htail : Ended tail)
    (hsector : (List.range entriesPerSector).map (entryAt sectorBuffer) = groups.flatMap (fun G => G.entries) ++ tail)
    (st : ScanState) :
    processEntriesInSector v config iswalnum scan entriesPerSector sectorBuffer st =
      groups.foldlM (fun st G => processDirectoryEntry v config iswalnum scan G.entry
        (if G.name = [] then getShortFilename G.entry G.entry.isDeleted else G.name) st) st := by
  have hname : ∀ G : NamedGroup, nameOf G.entry (longText G.longs) =
      if G.name = [] then getShortFilename G.entry G.entry.isDeleted else G.name := fun G => by
    rw [G.longText_longs]
    rfl
  rw [processEntriesInSector_eq_calls, hsector, calls_groups htail, List.foldlM_map]
  simp only [← hname]
  rfl

/-! ## A small sector -/

def rawUnits (first chksum : UInt8) (units : WString) : List UInt8 :=
  let bytes : WString → List UInt8 := List.flatMap fun c => [c.toUInt8, (c >>> 8).toUInt8]
  first :: (bytes (units.take 5) ++ [0x0F, 0, chksum] ++ bytes ((units.drop 5).take 6) ++ [0, 0] ++ bytes (units.drop 11))

def spelledGroup : NamedGroup where
  longs := [rawUnits 0xE5 7 (0x61 :: 0 :: List.replicate 11 0xFFFF), rawUnits 0xE5 7 (List.replicate 13 0x61)]
  short := rawEntry 0xE5 0x20 7 9
  isLongName_longs := by decide
  isLongName_short := by decide
  firstByte_ne := by decide
  name := List.replicate 14 0x61
  units := by
    intro c hc
    rw [List.eq_of_mem_replicate hc]
    decide
  spelled := rfl

def shortGroup (first : UInt8) (h : first ≠ 0) : NamedGroup :=
  { liveEntry with
    short := rawEntry first 0x20 6 9
    isLongName_short := rfl
    firstByte_ne := List.forall_mem_singleton.mpr h
    name := []
    units := List.forall_mem_nil _
    spelled := rfl }

def spelledGroups : List NamedGroup := [spelledGroup, shortGroup 0x4C (by decide), shortGroup 0xE5 (by decide)]

def spelledSector : List UInt8 := (spelledGroups.flatMap fun G => G.entries).flatten ++ List.replicate 352 0

theorem spelledSector_names :
    (processEntriesInSector (smallVolume []) { recover := true } (fun _ => false) (fun _ st => some st) 16
      spelledSector {}).map (fun st => st.recoveryList.map FileInfo.fileName) =
        some [List.replicate 14 0x61, wide "_"] := by
  have hsector : (List.range 16).map (entryAt spelledSector) =
      spelledGroups.flatMap (fun G => G.entries) ++ List.replicate 11 (List.replicate 32 0) := by decide +kernel
  have htail : Ended (List.replicate 11 (List.replicate 32 0)) := by
    intro raw hraw
    cases hraw
    rfl
  rw [processEntriesInSector_names (smallVolume []) _ _ _ htail hsector]
  decide +kernel

end DataRecovery.FAT32
