import DataRecovery.FAT32.ScanExact

/-!
# The names of listed FAT32 files

Every listed name has a dot past its first character and no terminator, so
`getOutputPath` always numbers it away from the files that exist.
-/

namespace DataRecovery.FAT32

open Traversal

def WellNamed (filename : WString) : Prop := filename ≠ [] ∧ ∀ c ∈ filename, c ≠ 0

theorem widen_ne_zero {c : UInt8} (h : c ≠ 0) : widen c ≠ 0 := by
  have hn : c.toNat ≠ 0 := fun h0 => h (UInt8.toNat_inj.mp h0)
  have hlt := c.toNat_lt
  unfold widen
  intro h0
  have h0 := congrArg UInt16.toNat h0
  split at h0
  · rw [UInt8.toNat_toUInt16] at h0
    exact hn h0
  · rw [UInt16.toNat_add, UInt8.toNat_toUInt16, show (0xFF00 : UInt16).toNat = 0xFF00 from rfl,
      Nat.mod_eq_of_lt (by omega), show (0 : UInt16).toNat = 0 from rfl] at h0
    omega

theorem ne_zero_of_mem_trimmed {field : List UInt8} {c : UInt8} (h : c ∈ trimmed field) : c ≠ 0 := by
  unfold trimmed List.rdropWhile at h
  have hmem := List.mem_reverse.mp ((List.dropWhile_sublist _).subset (List.mem_reverse.mp h))
  simpa using List.mem_takeWhile_imp hmem

theorem ne_zero_of_mem_widened {field : List UInt8} {c : UInt16} (h : c ∈ (trimmed field).map widen) : c ≠ 0 := by
  obtain ⟨b, hb, rfl⟩ := List.mem_map.mp h
  exact widen_ne_zero (ne_zero_of_mem_trimmed hb)

theorem getShortFilename_ne_zero {e : DirectoryEntry} {isDeleted : Bool} {c : UInt16}
    (h : c ∈ getShortFilename e isDeleted) : c ≠ 0 := by
  unfold getShortFilename at h
  dsimp only at h
  split at h
  · exact ne_zero_of_mem_widened h
  · rcases List.mem_append.mp h with h | h
    · rcases List.mem_append.mp h with h | h
      · exact ne_zero_of_mem_widened h
      · have hdot : wide "." = [0x2E] := by decide
        rw [hdot, List.mem_singleton] at h
        rw [h]
        decide
    · exact ne_zero_of_mem_widened h

theorem getShortFilename_ne_nil {e : DirectoryEntry} (h : e.isDeleted = true) : getShortFilename e true ≠ [] := by
  have hname : e.name ≠ [] := by
    intro hn
    have h0 : e.firstByte = 0 := by unfold DirectoryEntry.firstByte; rw [hn]; rfl
    rw [isDeleted_iff, h0] at h
    exact absurd h (by decide)
  obtain ⟨b, rest, hb⟩ := List.exists_cons_of_ne_nil hname
  -- trimming never removes the `_` put in place of the first character
  have htrim : trimmed ((slice e.name 0 8).set 0 0x5F) ≠ [] := by
    rw [hb]
    unfold trimmed slice
    rw [List.drop_zero, List.take_succ_cons, List.set_cons_zero, List.takeWhile_cons_of_pos (by decide)]
    intro h0
    exact absurd (List.rdropWhile_eq_nil_iff.mp h0 0x5F (List.mem_cons_self ..)) (by decide)
  unfold getShortFilename
  dsimp only
  split
  · rw [if_pos rfl]; exact fun h0 => htrim (List.map_eq_nil_iff.mp h0)
  · intro h0
    exact absurd (List.append_eq_nil_iff.mp (List.append_eq_nil_iff.mp h0).1).2 (by decide)

theorem getLongFilename_ne_zero {lfn : LFNEntry} {c : UInt16} (h : c ∈ getLongFilename lfn) : c ≠ 0 := by
  unfold getLongFilename at h
  have hc := (List.mem_filter.mp h).2
  intro h0
  rw [h0] at hc
  exact absurd hc (by decide)

section
variable (v : Volume)

theorem wellNamed_of_emit {f : Found} : ∀ {raws : List (List UInt8)} {lf : WString},
    (∀ c ∈ lf, c ≠ 0) → Action.emit f ∈ entryActions v raws lf → WellNamed f.filename
  | [], _, _, h => by cases h
  | raw :: rest, lf, hlf, h => by
    have hnil : ∀ c ∈ ([] : WString), c ≠ 0 := fun _ hc => by cases hc
    rw [entryActions] at h
    split at h
    · cases h
    · split at h
      · refine wellNamed_of_emit ?_ h
        intro c hc
        rcases List.mem_append.mp hc with hc | hc
        · exact getLongFilename_ne_zero hc
        · exact hlf c hc
      · rcases List.mem_append.mp h with h | h
        · obtain ⟨-, -, hdel, rfl⟩ := (emit_mem_directoryEntryActions v).mp h
          rw [hdel]
          dsimp only
          split
          · exact ⟨getShortFilename_ne_nil hdel, fun c hc => getShortFilename_ne_zero hc⟩
          · rename_i hne; exact ⟨hne, hlf⟩
        · exact wellNamed_of_emit hnil h

theorem Emits.wellNamed {c : UInt32} {f : Found} (h : Emits (actions v) c f) : WellNamed f.filename := by
  unfold Emits actions at h
  split at h
  · rcases List.mem_append.mp h with h | h
    · obtain ⟨s, -, hs⟩ := List.mem_flatMap.mp h
      unfold sectorActions at hs
      split at hs
      · exact wellNamed_of_emit v (fun _ hc => by cases hc) hs
      · cases hs
    · unfold nextActions at h
      split at h
      · simp at h
      · cases h
  · cases h

theorem dot_not_mem_guessFileExtension (signature : List Char) : dot ∉ guessFileExtension signature :=
  guessFileExtension_of_rows (P := (dot ∉ ·)) (by decide) (by decide) signature

theorem findLastDot_predicted {s : WString} (hs : s ≠ []) (c : UInt32) :
    ∃ n, findLastDot (s ++ [dot] ++ v.predictExtension c) = some (n + 1) := by
  have hdot : dot ∉ v.predictExtension c := dot_not_mem_guessFileExtension _
  rw [List.append_assoc, List.singleton_append, findLastDot_append_dot _ _ hdot]
  obtain ⟨n, hn⟩ := Nat.exists_eq_succ_of_ne_zero (mt List.length_eq_zero_iff.mp hs)
  exact ⟨n, by rw [hn]⟩

theorem parseFileInfo_dot (iswalnum : UInt16 → Bool) (fileId : UInt16) {name : WString} (hname : WellNamed name)
    (c size : UInt32) : ∃ n, findLastDot (v.parseFileInfo iswalnum fileId name c size).fullName = some (n + 1) := by
  have hclean : name.filter (· != 0) = name :=
    List.filter_eq_self.mpr fun c hc => by simpa using hname.2 c hc
  rcases parseFileInfo_cases v iswalnum fileId name c size with
    ⟨s, ext, hs, hsplit, hdot, -, hinfo⟩ | ⟨-, s, -, hs, hinfo⟩
  · obtain ⟨n, hn, -⟩ := findLastDot_of_hasExtension ⟨s, hs, hsplit, hdot⟩
    rw [hinfo, hclean]
    exact ⟨n, hn⟩
  · rw [hinfo]
    exact findLastDot_predicted v (hs hname.1) c

theorem zero_not_mem_guessFileExtension (signature : List Char) : 0 ∉ guessFileExtension signature :=
  guessFileExtension_of_rows (P := (0 ∉ ·)) (by decide) (by decide) signature

theorem parseFileInfo_terminator (iswalnum : UInt16 → Bool) (fileId : UInt16) {name : WString}
    (hname : WellNamed name) (c size : UInt32) :
    0 ∉ (v.parseFileInfo iswalnum fileId name c size).fullName := by
  have hname : 0 ∉ name := fun h => hname.2 0 h rfl
  have happend : ∀ s : WString, 0 ∉ s → 0 ∉ s ++ [dot] ++ v.predictExtension c := by
    intro s hs h
    rcases List.mem_append.mp h with h | h
    · rcases List.mem_append.mp h with h | h
      · exact hs h
      · exact absurd (List.mem_singleton.mp h) (by decide)
    · exact zero_not_mem_guessFileExtension _ h
  rcases parseFileInfo_cases v iswalnum fileId name c size with ⟨_, _, -, -, -, -, hinfo⟩ | ⟨-, s, hpre, -, hinfo⟩
  · rw [hinfo]
    exact fun h => hname (List.mem_filter.mp h).1
  · rw [hinfo]
    exact happend s fun h => hname (hpre.subset h)

theorem parseFileInfo_fileSize_le (iswalnum : UInt16 → Bool) (fileId : UInt16) (name : WString) (c size : UInt32) :
    (v.parseFileInfo iswalnum fileId name c size).fileSize ≤ 0xFFFFFFFF := by
  rw [parseFileInfo_fileSize, UInt64.le_iff_toNat_le, UInt32.toNat_toUInt64]
  exact Nat.le_of_lt_succ size.toNat_lt

structure Listed (info : FileInfo) : Prop where
  dot_after_first : ∃ n, findLastDot info.fullName = some (n + 1)
  no_terminator : 0 ∉ info.fullName
  fileSize_le : info.fileSize ≤ 0xFFFFFFFF
  valid : v.isValidCluster info.cluster = true

theorem listed_of_scan (config : Config) (iswalnum : UInt16 → Bool) {stack : Nat} {scan : ScanState}
    (hscan : scanRoot v config iswalnum stack {} = some scan) {info : FileInfo} (hinfo : info ∈ scan.recoveryList) :
    Listed v info := by
  have hvalid := listed_isValidCluster v config iswalnum hscan hinfo
  obtain ⟨c, f, hem, fileId, rfl⟩ := exists_event_of_listed v config iswalnum hscan hinfo
  have hname := Emits.wellNamed v hem
  exact ⟨parseFileInfo_dot v iswalnum fileId hname _ _, parseFileInfo_terminator v iswalnum fileId hname _ _,
    parseFileInfo_fileSize_le v _ _ _ _ _, hvalid⟩

theorem Listed.dotted {info : FileInfo} (h : Listed v info) : Dotted info.fullName := h.dot_after_first

/-- A free name is found for a listed file as long as there are fewer files than numbers. -/
theorem Listed.renamingEnds_of_few {info : FileInfo} (h : Listed v info) {host : Host} {files : Files host}
    (folder : WString) (hfew : 1 + files.keys.length < INT_MAX) : renamingEnds files info.fullName folder = true := by
  obtain ⟨n, hn⟩ := h.dot_after_first
  exact DataRecovery.renamingEnds_of_few folder hn (fun hmem => h.no_terminator (List.mem_of_mem_take hmem)) hfew

end

end DataRecovery.FAT32
