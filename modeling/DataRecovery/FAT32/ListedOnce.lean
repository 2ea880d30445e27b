import DataRecovery.LabelledTraversal
import DataRecovery.FAT32.Geometry
import DataRecovery.FAT32.ScanExact

/-!
# Listing a deleted file once

The scan does not mark the clusters it has been to. An entry is listed once for each way that
leads to its cluster, from directory entry to directory entry and along FAT links.
-/

namespace DataRecovery.FAT32

open Traversal

inductive Source where
  | entry (sector : UInt64) (index : Nat)
  | link
  deriving DecidableEq

section
variable (v : Volume)

/-! ## Actions with their sources -/

def rawEntriesAt (sector : UInt64) (sectorBuffer : List UInt8) : List (Source × List UInt8) :=
  (List.range v.entriesPerSector).map fun j => (.entry sector j, entryAt sectorBuffer j)

def entryActionsAt : List (Source × List UInt8) → WString → List (Source × Action UInt32 Found)
  | [], _ => []
  | (source, raw) :: rest, longFilename =>
    let e := DirectoryEntry.ofBytes raw
    if e.firstByte = 0 then []
    else if e.isLongName then entryActionsAt rest (getLongFilename (.ofBytes raw) ++ longFilename)
    else
      (directoryEntryActions v e (if longFilename = [] then getShortFilename e e.isDeleted else longFilename)).map
          (source, ·) ++ entryActionsAt rest []

def sectorActionsAt (sector : UInt64) : List (Source × Action UInt32 Found) :=
  match v.readSector sector with
  | some sectorBuffer => entryActionsAt v (rawEntriesAt v sector sectorBuffer) []
  | none => []

def actionsAt (c : UInt32) : List (Source × Action UInt32 Found) :=
  if v.isValidCluster c then (v.sectorsOf c).flatMap (sectorActionsAt v) ++ (nextActions v c).map (.link, ·) else []

theorem entryActionsAt_snd : ∀ (raws : List (Source × List UInt8)) (longFilename : WString),
    (entryActionsAt v raws longFilename).map Prod.snd = entryActions v (raws.map Prod.snd) longFilename
  | [], _ => rfl
  | (source, raw) :: rest, longFilename => by
    rw [entryActionsAt, List.map_cons, entryActions]
    dsimp only
    split
    · rfl
    · split
      · exact entryActionsAt_snd rest _
      · rw [List.map_append, entryActionsAt_snd rest [], List.map_map]
        simp [Function.comp_def]

theorem sectorActionsAt_snd (sector : UInt64) : (sectorActionsAt v sector).map Prod.snd = sectorActions v sector := by
  unfold sectorActionsAt sectorActions
  cases v.readSector sector with
  | none => rfl
  | some sectorBuffer =>
    dsimp only
    rw [entryActionsAt_snd, rawEntriesAt, List.map_map]
    rfl

/-- Without their sources they are the actions of the scan. -/
theorem plain_actionsAt : plain (actionsAt v) = actions v := by
  funext c
  unfold plain actionsAt actions
  split
  · rw [List.map_append, List.map_flatMap, List.map_map]
    simp [Function.comp_def, sectorActionsAt_snd]
  · rfl

/-! ## A scan that keeps the sources -/

section
variable (config : Config) (iswalnum : UInt16 → Bool)

/-- `record`, keeping the source of every item of the list. -/
def recordAt (f : Source × Found) (t : ScanState × List Source) : ScanState × List Source :=
  (record v config iswalnum f.2 t.1, if config.recover || config.analyze then t.2 ++ [f.1] else t.2)

def scanRootAt (stack : Nat) : Option (ScanState × List Source) :=
  run (tagged (actionsAt v)) (recordAt v config iswalnum) stack v.driveInfo.rootDirCluster ({}, [])

theorem scanRootAt_fst (stack : Nat) :
    (scanRootAt v config iswalnum stack).map Prod.fst = scanRoot v config iswalnum stack {} := by
  have h := @run_tagged _ _ _ (actionsAt v) _ _ Prod.fst (record v config iswalnum) (recordAt v config iswalnum)
    (fun _ _ _ => rfl) stack v.driveInfo.rootDirCluster ({}, [])
  rw [plain_actionsAt, ← scanDirectory_eq_run] at h
  exact h

theorem foldl_recordAt (events : List (Source × Found)) (t : ScanState × List Source) :
    (events.foldl (fun t f => recordAt v config iswalnum f t) t).2 =
      t.2 ++ if config.recover || config.analyze then events.map Prod.fst else [] := by
  induction events generalizing t with
  | nil => simp
  | cons f events ih =>
    rw [List.foldl_cons, ih, recordAt]
    by_cases hlist : (config.recover || config.analyze) = true
    · simp only [if_pos hlist, List.map_cons, List.append_assoc, List.singleton_append]
    · simp only [if_neg hlist]

theorem sources_of_scanRootAt {stack : Nat} {st : ScanState} {sources : List Source}
    (h : scanRootAt v config iswalnum stack = some (st, sources)) :
    sources = if config.recover || config.analyze then
      (events (tagged (actionsAt v)) stack v.driveInfo.rootDirCluster).map Prod.fst else [] := by
  have hsources := foldl_recordAt v config iswalnum
    (events (tagged (actionsAt v)) stack v.driveInfo.rootDirCluster) ({}, [])
  rw [(run_eq_some h).2] at hsources
  exact hsources

end

/-! ## Places on the disk -/

def visibleAt : List (Source × List UInt8) → List (Source × DirectoryEntry)
  | [] => []
  | (source, raw) :: rest =>
    (source, .ofBytes raw) :: if (DirectoryEntry.ofBytes raw).firstByte = 0 then [] else visibleAt rest

def entriesAt (c : UInt32) : List (Source × DirectoryEntry) :=
  (v.sectorsOf c).flatMap fun sector =>
    match v.readSector sector with
    | some buffer => visibleAt (rawEntriesAt v sector buffer)
    | none => []

theorem mem_entriesAt {source : Source} {c : UInt32} {e : DirectoryEntry} :
    (source, e) ∈ entriesAt v c ↔ ∃ sector ∈ v.sectorsOf c, ∃ buffer, v.readSector sector = some buffer ∧
      (source, e) ∈ visibleAt (rawEntriesAt v sector buffer) := by
  unfold entriesAt
  simp only [List.mem_flatMap]
  refine exists_congr fun sector => and_congr_right fun _ => ?_
  cases v.readSector sector <;> simp

theorem mem_visibleAt_cons {source source' : Source} {raw : List UInt8} {rest : List (Source × List UInt8)}
    {e : DirectoryEntry} : (source, e) ∈ visibleAt ((source', raw) :: rest) ↔
      source = source' ∧ e = .ofBytes raw ∨
        (DirectoryEntry.ofBytes raw).firstByte ≠ 0 ∧ (source, e) ∈ visibleAt rest := by
  rw [visibleAt, List.mem_cons, Prod.mk.injEq]
  split <;> simp [*]

theorem call_mem_entryActionsAt {source : Source} {d : UInt32} : ∀ {raws : List (Source × List UInt8)} {lf : WString},
    (source, .call d) ∈ entryActionsAt v raws lf ↔ ∃ e, (source, e) ∈ visibleAt raws ∧ IsUsedDirectoryEntry e ∧
      v.isValidCluster e.startCluster = true ∧ d = e.startCluster
  | [], _ => by simp [entryActionsAt, visibleAt]
  | (source', raw) :: rest, lf => by
    simp only [entryActionsAt, mem_visibleAt_cons]
    by_cases h0 : (DirectoryEntry.ofBytes raw).firstByte = 0
    · rw [if_pos h0]
      refine iff_of_false List.not_mem_nil ?_
      rintro ⟨e, ⟨-, rfl⟩ | ⟨hne, -⟩, hused, -⟩
      · exact hused.2 h0
      · exact hne h0
    · rw [if_neg h0]
      by_cases hl : (DirectoryEntry.ofBytes raw).isLongName = true
      · rw [if_pos hl, call_mem_entryActionsAt]
        refine exists_congr fun e => and_congr_left fun ⟨hused, _⟩ => ?_
        rw [or_iff_right, and_iff_right h0]
        rintro ⟨-, rfl⟩
        exact hused.1.2.1 (isLongName_iff.mp hl)
      · rw [if_neg hl, List.mem_append, call_mem_entryActionsAt, List.mem_map]
        have hlf : (DirectoryEntry.ofBytes raw).attr ≠ 0x0F := fun h => hl (isLongName_iff.mpr h)
        constructor
        · rintro (⟨a, ha, heq⟩ | ⟨e, he, hrest⟩)
          · obtain ⟨rfl, rfl⟩ := Prod.mk.inj heq
            obtain ⟨hev, hed, rfl⟩ := (call_mem_directoryEntryActions v).mp ha
            obtain ⟨hattr, hdot⟩ := isDirectory_iff.mp hed
            exact ⟨_, .inl ⟨rfl, rfl⟩, ⟨⟨hattr, hlf, hdot⟩, h0⟩, hev, rfl⟩
          · exact ⟨e, .inr ⟨h0, he⟩, hrest⟩
        · rintro ⟨e, ⟨rfl, rfl⟩ | ⟨-, he⟩, hused, hev, rfl⟩
          · refine .inl ⟨_, (call_mem_directoryEntryActions v).mpr ⟨hev, ?_, rfl⟩, rfl⟩
            exact isDirectory_iff.mpr ⟨hused.1.1, hused.1.2.2⟩
          · exact .inr ⟨e, he, hused, hev, rfl⟩

theorem mem_sectorActionsAt {sector : UInt64} {x : Source × Action UInt32 Found} : x ∈ sectorActionsAt v sector ↔
    ∃ buffer, v.readSector sector = some buffer ∧ x ∈ entryActionsAt v (rawEntriesAt v sector buffer) [] := by
  unfold sectorActionsAt
  cases v.readSector sector <;> simp

theorem mem_actionsAt {c : UInt32} {x : Source × Action UInt32 Found} : x ∈ actionsAt v c ↔
    v.isValidCluster c = true ∧ ((∃ sector ∈ v.sectorsOf c, x ∈ sectorActionsAt v sector) ∨
      v.isValidCluster (v.getNextCluster c) = true ∧ x = (.link, .call (v.getNextCluster c))) := by
  unfold actionsAt nextActions
  by_cases hc : v.isValidCluster c = true
  · rw [if_pos hc, and_iff_right hc, List.mem_append, List.mem_flatMap]
    refine or_congr Iff.rfl ?_
    by_cases hnext : v.isValidCluster (v.getNextCluster c) = true <;> simp [hnext]
  · simp [hc]

theorem call_mem_actionsAt {source : Source} {c d : UInt32} :
    (source, .call d) ∈ actionsAt v c ↔ v.isValidCluster c = true ∧ v.isValidCluster d = true ∧
      ((source = .link ∧ d = v.getNextCluster c) ∨
        ∃ e, (source, e) ∈ entriesAt v c ∧ IsUsedDirectoryEntry e ∧ d = e.startCluster) := by
  rw [mem_actionsAt]
  refine and_congr_right fun _ => ?_
  simp only [mem_sectorActionsAt, call_mem_entryActionsAt, mem_entriesAt, Prod.mk.injEq, Action.call.injEq]
  constructor
  · rintro (⟨sector, hs, buffer, hb, e, he, hused, hev, rfl⟩ | ⟨hnext, rfl, rfl⟩)
    · exact ⟨hev, .inr ⟨e, ⟨sector, hs, buffer, hb, he⟩, hused, rfl⟩⟩
    · exact ⟨hnext, .inl ⟨rfl, rfl⟩⟩
  · rintro ⟨hd, ⟨rfl, rfl⟩ | ⟨e, ⟨sector, hs, buffer, hb, he⟩, hused, rfl⟩⟩
    · exact .inr ⟨hd, rfl, rfl⟩
    · exact .inl ⟨sector, hs, buffer, hb, e, he, hused, hd, rfl⟩

/-! ## A source belongs to one cluster -/

theorem directoryEntryActions_cases (e : DirectoryEntry) (filename : WString) :
    directoryEntryActions v e filename = [] ∨ ∃ a, directoryEntryActions v e filename = [a] := by
  unfold directoryEntryActions
  split
  · split
    · exact .inr ⟨_, rfl⟩
    · split
      · exact .inr ⟨_, rfl⟩
      · exact .inl rfl
  · exact .inl rfl

theorem entryActionsAt_sources : ∀ (raws : List (Source × List UInt8)) (lf : WString),
    ((entryActionsAt v raws lf).map Prod.fst).Sublist (raws.map Prod.fst)
  | [], _ => .slnil
  | (source, raw) :: rest, lf => by
    rw [entryActionsAt]
    split
    · exact List.nil_sublist _
    · split
      · exact (entryActionsAt_sources rest _).cons _
      · have hrest := entryActionsAt_sources rest []
        rcases directoryEntryActions_cases v (.ofBytes raw) (if lf = [] then getShortFilename (.ofBytes raw)
          (DirectoryEntry.ofBytes raw).isDeleted else lf) with hnil | ⟨a, hone⟩
        · rw [hnil]
          exact hrest.cons _
        · rw [hone]
          exact hrest.cons_cons _

theorem sectorActionsAt_sources (sector : UInt64) : ((sectorActionsAt v sector).map Prod.fst).Sublist
    ((List.range v.entriesPerSector).map (Source.entry sector)) := by
  unfold sectorActionsAt
  cases v.readSector sector with
  | none => exact List.nil_sublist _
  | some buffer =>
    have h := entryActionsAt_sources v (rawEntriesAt v sector buffer) []
    rw [rawEntriesAt, List.map_map] at h
    exact h

theorem source_of_sectorActionsAt {sector : UInt64} {source : Source}
    (h : source ∈ (sectorActionsAt v sector).map Prod.fst) : ∃ j, source = .entry sector j := by
  obtain ⟨j, -, rfl⟩ := List.mem_map.mp ((sectorActionsAt_sources v sector).subset h)
  exact ⟨j, rfl⟩

theorem sector_toNat (base : UInt32) {i : Nat} (hi : i < v.bootSector.sectorsPerCluster.toNat) :
    (base.toUInt64 + UInt64.ofNat i).toNat = base.toNat + i := by
  have hbase := base.toNat_lt
  have hspc := v.bootSector.sectorsPerCluster.toNat_lt
  rw [UInt64.toNat_add, UInt32.toNat_toUInt64, UInt64.toNat_ofNat_of_lt' (by simp [UInt64.size]; omega)]
  omega

theorem mem_sectorsOf {c : UInt32} {sector : UInt64} (h : sector ∈ v.sectorsOf c) :
    ∃ i < v.bootSector.sectorsPerCluster.toNat, sector.toNat = (v.clusterToSector c).toNat + i := by
  obtain ⟨i, hi, rfl⟩ := List.mem_map.mp h
  exact ⟨i, List.mem_range.mp hi, sector_toNat v _ (List.mem_range.mp hi)⟩

theorem sectorsOf_nodup (c : UInt32) : (v.sectorsOf c).Nodup := by
  refine List.nodup_range.map_on fun i hi j hj heq => ?_
  have hnat := congrArg UInt64.toNat heq
  rw [sector_toNat v _ (List.mem_range.mp hi), sector_toNat v _ (List.mem_range.mp hj)] at hnat
  exact Nat.add_left_cancel hnat

theorem clusterToSector_toNat {c : UInt32} (hc : v.isValidCluster c = true) :
    c.toNat * v.bootSector.sectorsPerCluster.toNat < 2 ^ 32 ∧ (v.clusterToSector c).toNat =
      (v.driveInfo.dataStartSector.toNat + (c.toNat - 2) * v.bootSector.sectorsPerCluster.toNat) % 2 ^ 32 := by
  obtain ⟨htwo, hmax, -⟩ := v.isValidCluster_iff.mp hc
  have hlt : c.toNat * v.bootSector.sectorsPerCluster.toNat < 2 ^ 32 := by
    have hle : c.toNat ≤ v.bootSector.dataSectors.toNat / v.bootSector.sectorsPerCluster.toNat := by
      rw [← maxClusterCount_toNat]
      exact UInt32.le_iff_toNat_le.mp hmax
    exact Nat.lt_of_le_of_lt (Nat.mul_le_of_le_div _ _ _ hle) v.bootSector.dataSectors.toNat_lt
  refine ⟨hlt, ?_⟩
  unfold Volume.clusterToSector Volume.sectorsPerCluster
  rw [UInt32.toNat_add, UInt32.toNat_mul, UInt32.toNat_sub_of_le _ _ htwo, UInt8.toNat_toUInt32, Nat.add_mod_mod]
  rfl

/-- The clusters have at least `width` sectors between them, also around `2 ^ 32`. -/
theorem no_overlap {start a b width i j : Nat} (hab : a + width ≤ b) (hb : b + width ≤ 2 ^ 32) (hi : i < width)
    (hj : j < width) : (start + a) % 2 ^ 32 + i ≠ (start + b) % 2 ^ 32 + j := by
  omega

theorem sectorsOf_disjoint {c d : UInt32} (hc : v.isValidCluster c = true) (hd : v.isValidCluster d = true)
    (hlt : c.toNat < d.toNat) {sector : UInt64} (hsc : sector ∈ v.sectorsOf c) : sector ∉ v.sectorsOf d := by
  intro hsd
  obtain ⟨i, hi, hci⟩ := mem_sectorsOf v hsc
  obtain ⟨j, hj, hdj⟩ := mem_sectorsOf v hsd
  obtain ⟨-, hcs⟩ := clusterToSector_toNat v hc
  obtain ⟨hdlt, hds⟩ := clusterToSector_toNat v hd
  have htwo : 2 ≤ c.toNat := UInt32.le_iff_toNat_le.mp (v.isValidCluster_iff.mp hc).1
  rw [hcs] at hci
  rw [hds] at hdj
  refine no_overlap ?_ ?_ hi hj (hci.symm.trans hdj)
  · calc (c.toNat - 2) * v.bootSector.sectorsPerCluster.toNat + v.bootSector.sectorsPerCluster.toNat
        = (c.toNat - 2 + 1) * v.bootSector.sectorsPerCluster.toNat := (Nat.succ_mul _ _).symm
      _ ≤ (d.toNat - 2) * v.bootSector.sectorsPerCluster.toNat := Nat.mul_le_mul_right _ (by omega)
  · calc (d.toNat - 2) * v.bootSector.sectorsPerCluster.toNat + v.bootSector.sectorsPerCluster.toNat
        = (d.toNat - 2 + 1) * v.bootSector.sectorsPerCluster.toNat := (Nat.succ_mul _ _).symm
      _ ≤ d.toNat * v.bootSector.sectorsPerCluster.toNat := Nat.mul_le_mul_right _ (by omega)
      _ ≤ 2 ^ 32 := Nat.le_of_lt hdlt

/-- Different clusters have different sectors. -/
theorem sectorsOf_inj {c d : UInt32} (hc : v.isValidCluster c = true) (hd : v.isValidCluster d = true) {sector : UInt64}
    (hsc : sector ∈ v.sectorsOf c) (hsd : sector ∈ v.sectorsOf d) : c = d := by
  rcases Nat.lt_trichotomy c.toNat d.toNat with hlt | heq | hlt
  · exact absurd hsd (sectorsOf_disjoint v hc hd hlt hsc)
  · exact UInt32.toNat_inj.mp heq
  · exact absurd hsc (sectorsOf_disjoint v hd hc hlt hsd)

theorem nodup_actionsAt (c : UInt32) : ((actionsAt v c).map Prod.fst).Nodup := by
  unfold actionsAt
  by_cases hc : v.isValidCluster c = true
  · rw [if_pos hc, List.map_append, List.map_flatMap]
    refine List.nodup_append.mpr ⟨List.pairwise_flatMap.mpr ⟨fun sector _ => ?_, ?_⟩, ?_, fun source hs next hl => ?_⟩
    · refine List.Nodup.sublist (sectorActionsAt_sources v sector) ?_
      exact List.nodup_range.map fun i j heq => (Source.entry.inj heq).2
    · refine (sectorsOf_nodup v c).imp fun hne x hx y hy heq => ?_
      obtain ⟨i, rfl⟩ := source_of_sectorActionsAt v hx
      obtain ⟨j, rfl⟩ := source_of_sectorActionsAt v hy
      exact hne (Source.entry.inj heq).1
    · unfold nextActions
      split
      · exact List.nodup_singleton _
      · exact .nil
    · obtain ⟨sector, -, hx⟩ := List.mem_flatMap.mp hs
      obtain ⟨j, rfl⟩ := source_of_sectorActionsAt v hx
      simp only [List.map_map, List.mem_map, Function.comp_def] at hl
      obtain ⟨_, _, rfl⟩ := hl
      exact fun heq => by cases heq
  · rw [if_neg hc]
    exact .nil

theorem emit_mem_actionsAt_inj {c d : UInt32} {source : Source} {f g : Found} (hc : (source, .emit f) ∈ actionsAt v c)
    (hd : (source, .emit g) ∈ actionsAt v d) : c = d := by
  have hsector : ∀ {c f}, (source, .emit f) ∈ actionsAt v c →
      v.isValidCluster c = true ∧ ∃ sector ∈ v.sectorsOf c, ∃ j, source = .entry sector j := by
    intro c f h
    obtain ⟨hv, ⟨sector, hs, hx⟩ | ⟨-, heq⟩⟩ := (mem_actionsAt v).mp h
    · exact ⟨hv, sector, hs, source_of_sectorActionsAt v (List.mem_map_of_mem (f := Prod.fst) hx)⟩
    · cases heq
  obtain ⟨hvc, sector, hsc, j, rfl⟩ := hsector hc
  obtain ⟨hvd, sector', hsd, j', heq⟩ := hsector hd
  obtain ⟨rfl, rfl⟩ := Source.entry.inj heq
  exact sectorsOf_inj v hvc hvd hsc hsd

/-! ## Ways -/

inductive Leads : UInt32 → List Source → UInt32 → Prop
  | here {c} : v.isValidCluster c = true → Leads c [] c
  | next {c d way} : v.isValidCluster c = true → Leads (v.getNextCluster c) way d → Leads c (.link :: way) d
  | subdir {c d way source e} : v.isValidCluster c = true → (source, e) ∈ entriesAt v c → IsUsedDirectoryEntry e →
      Leads e.startCluster way d → Leads c (source :: way) d

def ReachedOnce : Prop :=
  ∀ c way way', Leads v v.driveInfo.rootDirCluster way c → Leads v v.driveInfo.rootDirCluster way' c →
    (∃ e ∈ entriesOf v c, IsDeletedFileEntry e ∧ v.isValidCluster e.startCluster = true) → way = way'

theorem Leads.valid {c d : UInt32} {way : List Source} (h : Leads v c way d) :
    v.isValidCluster c = true ∧ v.isValidCluster d = true := by
  induction h with
  | here hc => exact ⟨hc, hc⟩
  | next hc _ ih => exact ⟨hc, ih.2⟩
  | subdir hc _ _ _ ih => exact ⟨hc, ih.2⟩

theorem leads_iff_way {c d : UInt32} {way : List Source} :
    Leads v c way d ↔ Way (actionsAt v) c way d ∧ v.isValidCluster d = true := by
  constructor
  · intro h
    induction h with
    | here hc => exact ⟨.here _, hc⟩
    | next hc hway ih =>
      exact ⟨.call ((call_mem_actionsAt v).mpr ⟨hc, (hway.valid v).1, .inl ⟨rfl, rfl⟩⟩) ih.1, ih.2⟩
    | subdir hc he hused hway ih =>
      exact ⟨.call ((call_mem_actionsAt v).mpr ⟨hc, (hway.valid v).1, .inr ⟨_, he, hused, rfl⟩⟩) ih.1, ih.2⟩
  · rintro ⟨h, hd⟩
    induction h with
    | here => exact .here hd
    | call hcall _ ih =>
      obtain ⟨hc, -, ⟨rfl, rfl⟩ | ⟨e, he, hused, rfl⟩⟩ := (call_mem_actionsAt v).mp hcall
      · exact .next hc (ih hd)
      · exact .subdir hc he hused (ih hd)

theorem emits_actionsAt_iff {c : UInt32} : (∃ source f, (source, .emit f) ∈ actionsAt v c) ↔
    v.isValidCluster c = true ∧
      ∃ e ∈ entriesOf v c, IsDeletedFileEntry e ∧ v.isValidCluster e.startCluster = true := by
  have hplain : (∃ source f, (source, .emit f) ∈ actionsAt v c) ↔ ∃ f, Emits (actions v) c f := by
    rw [← plain_actionsAt]
    unfold Emits plain
    simp only [List.mem_map, Prod.exists, exists_eq_right]
    exact exists_comm
  rw [hplain]
  constructor
  · rintro ⟨⟨filename, start, size⟩, h⟩
    obtain ⟨hc, e, he, hdeleted, hev, -⟩ := (emits_iff v).mp ⟨filename, h⟩
    exact ⟨hc, e, he, hdeleted, hev⟩
  · rintro ⟨hc, e, he, hdeleted, hev⟩
    obtain ⟨filename, h⟩ := (emits_iff v).mpr ⟨hc, e, he, hdeleted, hev, rfl, rfl⟩
    exact ⟨_, h⟩

theorem nodup_sources_iff {stack : Nat} (hs : Shallow (plain (actionsAt v)) stack v.driveInfo.rootDirCluster) :
    ((events (tagged (actionsAt v)) stack v.driveInfo.rootDirCluster).map Prod.fst).Nodup ↔ ReachedOnce v := by
  rw [nodup_events_iff hs (nodup_actionsAt v) (emit_mem_actionsAt_inj v)]
  refine forall_congr' fun c => forall_congr' fun way => forall_congr' fun way' => ?_
  rw [emits_actionsAt_iff, leads_iff_way, leads_iff_way]
  constructor
  · exact fun h hway hway' hdeleted => h hway.1 hway'.1 ⟨hway.2, hdeleted⟩
  · exact fun h hway hway' hdeleted => h ⟨hway, hdeleted.1⟩ ⟨hway', hdeleted.1⟩ hdeleted.2

/-! ## The sources are those of the items -/

def FromEntry (info : FileInfo) (source : Source) : Prop :=
  ∃ c e, (source, e) ∈ entriesAt v c ∧ info.cluster = e.startCluster ∧ info.fileSize = e.fileSize.toUInt64

theorem emit_mem_entryActionsAt {source : Source} {f : Found} : ∀ {raws : List (Source × List UInt8)} {lf : WString},
    (source, .emit f) ∈ entryActionsAt v raws lf →
      ∃ e, (source, e) ∈ visibleAt raws ∧ f.cluster = e.startCluster ∧ f.size = e.fileSize
  | [], _, h => by cases h
  | (source', raw) :: rest, lf, h => by
    have htail : ∀ {lf'}, (DirectoryEntry.ofBytes raw).firstByte ≠ 0 → (source, .emit f) ∈ entryActionsAt v rest lf' →
        ∃ e, (source, e) ∈ visibleAt ((source', raw) :: rest) ∧ f.cluster = e.startCluster ∧ f.size = e.fileSize := by
      intro lf' h0 h'
      obtain ⟨e, he, hf⟩ := emit_mem_entryActionsAt h'
      exact ⟨e, mem_visibleAt_cons.mpr (.inr ⟨h0, he⟩), hf⟩
    rw [entryActionsAt] at h
    split at h
    · cases h
    · rename_i h0
      split at h
      · exact htail h0 h
      · rcases List.mem_append.mp h with h | h
        · obtain ⟨a, ha, heq⟩ := List.mem_map.mp h
          obtain ⟨rfl, rfl⟩ := Prod.mk.inj heq
          obtain ⟨-, -, -, rfl⟩ := (emit_mem_directoryEntryActions v).mp ha
          exact ⟨_, mem_visibleAt_cons.mpr (.inl ⟨rfl, rfl⟩), rfl, rfl⟩
        · exact htail h0 h

theorem entry_of_event {stack : Nat} {c : UInt32} (hs : Shallow (tagged (actionsAt v)) stack c) {source : Source}
    {f : Found} (h : (source, f) ∈ events (tagged (actionsAt v)) stack c) :
    ∃ c e, (source, e) ∈ entriesAt v c ∧ f.cluster = e.startCluster ∧ f.size = e.fileSize := by
  obtain ⟨d, -, hemits⟩ := (mem_events hs).mp h
  obtain ⟨⟨source', e | w⟩, ha, heq⟩ := List.mem_map.mp hemits
  · obtain ⟨rfl, rfl⟩ := Prod.mk.inj (Action.emit.inj heq)
    obtain ⟨-, ⟨sector, hsector, hx⟩ | ⟨-, hlink⟩⟩ := (mem_actionsAt v).mp ha
    · obtain ⟨buffer, hb, hx⟩ := (mem_sectorActionsAt v).mp hx
      obtain ⟨e, he, hf⟩ := emit_mem_entryActionsAt v hx
      exact ⟨d, e, (mem_entriesAt v).mpr ⟨sector, hsector, buffer, hb, he⟩, hf⟩
    · cases hlink
  · cases heq

theorem fromEntry_recordAt (config : Config) (iswalnum : UInt16 → Bool) {f : Source × Found}
    (hf : ∃ c e, (f.1, e) ∈ entriesAt v c ∧ f.2.cluster = e.startCluster ∧ f.2.size = e.fileSize)
    {t : ScanState × List Source} (ht : List.Forall₂ (FromEntry v) t.1.recoveryList t.2) :
    List.Forall₂ (FromEntry v) (recordAt v config iswalnum f t).1.recoveryList (recordAt v config iswalnum f t).2 := by
  obtain ⟨c, e, he, hcluster, hsize⟩ := hf
  unfold recordAt record addToRecoveryList
  by_cases hlist : (config.recover || config.analyze) = true
  · simp only [if_pos hlist]
    refine List.rel_append ht (.cons ⟨c, e, he, ?_, ?_⟩ .nil)
    · rw [parseFileInfo_cluster, hcluster]
    · rw [parseFileInfo_fileSize, hsize]
  · simp only [if_neg hlist]
    exact ht

theorem fromEntry_scanRootAt (config : Config) (iswalnum : UInt16 → Bool) {stack : Nat} {st : ScanState}
    {sources : List Source} (h : scanRootAt v config iswalnum stack = some (st, sources)) :
    List.Forall₂ (FromEntry v) st.recoveryList sources := by
  obtain ⟨hs, hevents⟩ := run_eq_some h
  have hfold : ∀ (fs : List (Source × Found)) (t : ScanState × List Source),
      (∀ f ∈ fs, f ∈ events (tagged (actionsAt v)) stack v.driveInfo.rootDirCluster) →
      List.Forall₂ (FromEntry v) t.1.recoveryList t.2 →
      List.Forall₂ (FromEntry v) (fs.foldl (fun t f => recordAt v config iswalnum f t) t).1.recoveryList
        (fs.foldl (fun t f => recordAt v config iswalnum f t) t).2 := by
    intro fs
    induction fs with
    | nil => exact fun _ _ ht => ht
    | cons f fs ih =>
      intro t hfs ht
      refine ih _ (fun f' hf' => hfs f' (List.mem_cons_of_mem _ hf')) ?_
      exact fromEntry_recordAt v config iswalnum (entry_of_event v hs (hfs f (List.mem_cons_self ..))) ht
  have hall := hfold _ ({}, []) (fun _ hf => hf) .nil
  rw [hevents] at hall
  exact hall

end

/-- No entry is listed twice when nothing is listed, or when one way leads to each cluster that has
deleted files. -/
theorem listed_once_iff (v : Volume) (config : Config) (iswalnum : UInt16 → Bool) {stack : Nat} {st : ScanState}
    (h : scanRoot v config iswalnum stack {} = some st) :
    ∃ sources, scanRootAt v config iswalnum stack = some (st, sources) ∧
      List.Forall₂ (FromEntry v) st.recoveryList sources ∧
      (sources.Nodup ↔ (config.recover || config.analyze) = false ∨ ReachedOnce v) := by
  rw [← scanRootAt_fst] at h
  obtain ⟨⟨_, sources⟩, ht, rfl⟩ := Option.map_eq_some_iff.mp h
  refine ⟨sources, ht, fromEntry_scanRootAt v config iswalnum ht, ?_⟩
  rw [sources_of_scanRootAt v config iswalnum ht]
  by_cases hlist : (config.recover || config.analyze) = true
  · rw [if_pos hlist, nodup_sources_iff v (shallow_tagged.mp (run_eq_some ht).1), hlist]
    simp
  · rw [if_neg hlist]
    simp [hlist]

theorem nested_listed_once : ∃ st, scanRoot nestedTwo { recover := true } (fun _ => true) 3 {} = some st ∧
    st.recoveryList.length = 2 ∧
    ∃ sources, scanRootAt nestedTwo { recover := true } (fun _ => true) 3 = some (st, sources) ∧
      List.Forall₂ (FromEntry nestedTwo) st.recoveryList sources ∧
      (sources.Nodup ↔ (true || false) = false ∨ ReachedOnce nestedTwo) := by
  have hlength : (scanRoot nestedTwo { recover := true } (fun _ => true) 3 {}).map
      (fun st => st.recoveryList.length) = some 2 := by decide +kernel
  obtain ⟨st, hst, hlist⟩ := Option.map_eq_some_iff.mp hlength
  exact ⟨st, hst, hlist, listed_once_iff nestedTwo { recover := true } (fun _ => true) hst⟩

/-- The root directory has a deleted and a live entry of one directory, as after it was renamed. -/
def renamed : Volume :=
  smallVolume [(2, rawEntry 0xE5 0x10 3 0 ++ rawEntry 0x44 0x10 3 0), (3, rawEntry 0xE5 0x20 4 9)]

theorem renamed_listed_twice : ∃ st, scanRoot renamed { recover := true } (fun _ => true) 3 {} = some st ∧
    st.recoveryList.map (fun info => (info.fileId, info.cluster)) = [(1, 4), (2, 4)] ∧
    scanRootAt renamed { recover := true } (fun _ => true) 3 = some (st, [.entry 3 0, .entry 3 0]) ∧
    ¬ [Source.entry 3 0, Source.entry 3 0].Nodup := by
  have hrun : (scanRootAt renamed { recover := true } (fun _ => true) 3).map
      (fun t => (t.1.recoveryList.map (fun info => (info.fileId, info.cluster)), t.2)) =
        some ([(1, 4), (2, 4)], [.entry 3 0, .entry 3 0]) := by decide +kernel
  obtain ⟨⟨st, sources⟩, ht, hsame⟩ := Option.map_eq_some_iff.mp hrun
  obtain ⟨hitems, hsources⟩ := Prod.mk.inj hsame
  dsimp only at hitems hsources
  subst hsources
  refine ⟨st, ?_, hitems, ht, by simp⟩
  rw [← scanRootAt_fst, ht]
  rfl

end DataRecovery.FAT32
