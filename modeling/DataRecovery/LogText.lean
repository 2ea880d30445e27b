import DataRecovery.Delimited
import DataRecovery.ScanLog
import DataRecovery.StoredFiles

/-!
# Reading the log

The log is new when a run opens it, and gets one line for each file. Nothing in a name is
escaped; still the lines can be read back, quotes, parentheses and all, as long as no name
holds the end of a line.
-/

namespace DataRecovery

@[ext]
structure LogEntry where
  fileId : UInt16
  fileName : WString
  fileSize : UInt64
  deriving DecidableEq

def newline : UInt16 := 0x0A

/-- What `writeToLogFile` writes, up to the end of the line. -/
def LogEntry.line (e : LogEntry) : WString :=
  wide "#" ++ toWString e.fileId.toNat ++ wide " Filename: \"" ++ e.fileName ++ wide "\" (" ++
    toWString e.fileSize.toNat ++ wide " bytes)"

def keepsAll : LogStream WString := ⟨fun _ => true, fun logFile text => logFile ++ text⟩

theorem logFileInfo_keepsAll {config : Config} (hlog : config.createFileDataLog = true) (e : LogEntry)
    (logFile : WString) :
    logFileInfo config keepsAll e.fileId e.fileName e.fileSize logFile = logFile ++ (e.line ++ [newline]) := by
  unfold logFileInfo
  rw [if_pos hlog]
  show logFile ++ (_ ++ wide " bytes)\n") = _
  rw [show wide " bytes)\n" = wide " bytes)" ++ [newline] from rfl, ← List.append_assoc _ (wide " bytes)")]
  rfl

theorem foldl_logFileInfo {config : Config} (hlog : config.createFileDataLog = true) {α : Type} (entry : α → LogEntry)
    (files : List α) :
    files.foldl (fun logFile f =>
        logFileInfo config keepsAll (entry f).fileId (entry f).fileName (entry f).fileSize logFile) [] =
      endedLines newline LogEntry.line (files.map entry) := by
  simp only [logFileInfo_keepsAll hlog]
  rw [List.foldl_append_eq_append, List.nil_append, endedLines, List.flatMap_map, List.flatMap_def]

/-! ## One line -/

theorem toWString_injective : Function.Injective toWString := fun m n h => by
  rw [← ofDigits_toWString m, h, ofDigits_toWString]

theorem not_mem_toWString {n : Nat} {c : UInt16} (hc : c.toNat < 48) : c ∉ toWString n := fun h =>
  absurd (mem_toWString h).1 (Nat.not_le.mpr hc)

/-- The number ends at the first blank, and the size begins at the last parenthesis. -/
theorem LogEntry.line_split (e : LogEntry) :
    e.line = 0x23 :: (toWString e.fileId.toNat ++ 0x20 :: (wide "Filename: \"" ++
      (e.fileName ++ wide "\" " ++ 0x28 :: (toWString e.fileSize.toNat ++ wide " bytes)")))) := by
  unfold LogEntry.line
  simp only [List.append_assoc]
  rfl

theorem LogEntry.line_injective : Function.Injective LogEntry.line := fun e f h => by
  rw [e.line_split, f.line_split] at h
  obtain ⟨hid, h⟩ := append_cons_inj (not_mem_toWString (by decide)) (not_mem_toWString (by decide))
    (List.tail_eq_of_cons_eq h)
  have hparen (n : Nat) : (0x28 : UInt16) ∉ toWString n ++ wide " bytes)" := fun hmem =>
    (List.mem_append.mp hmem).elim (not_mem_toWString (by decide)) (by decide)
  obtain ⟨hname, hsize⟩ := append_cons_inj_last (hparen _) (hparen _) (List.append_cancel_left h)
  have hsize := toWString_injective (List.append_cancel_right hsize)
  exact LogEntry.ext (UInt16.toNat_inj.mp (toWString_injective hid)) (List.append_cancel_right hname)
    (UInt64.toNat_inj.mp hsize)

theorem LogEntry.newline_not_mem {e : LogEntry} (h : newline ∉ e.fileName) : newline ∉ e.line := by
  have hdigits (n : Nat) : newline ∉ toWString n := not_mem_toWString (by decide)
  unfold LogEntry.line
  simp only [List.mem_append, not_or]
  exact ⟨⟨⟨⟨⟨⟨by decide, hdigits _⟩, by decide⟩, h⟩, by decide⟩, hdigits _⟩, by decide⟩

/-! ## The log of a scan -/

def FAT32.logEntry (info : FAT32.FileInfo) : LogEntry := ⟨info.fileId, info.fileName, info.fileSize⟩

def ExFAT.logEntry (info : ExFAT.FileInfo) : LogEntry := ⟨info.fileId, info.fileName, info.fileSize⟩

def NTFS.logEntry (info : NTFS.FileInfo) : LogEntry := ⟨info.fileId, info.fileName, info.fileSize⟩

inductive ScanLogged (entries : List LogEntry) (logFile : WString) : Prop
  | fat32 (v : FAT32.Volume) (config : Config) (iswalnum : UInt16 → Bool) (stack : Nat)
      (hlog : config.createFileDataLog = true)
      (hscan : (FAT32.loggedScan v config iswalnum keepsAll stack []).map Prod.snd = some logFile)
      (hfound : (FAT32.scanRoot v config.recovering iswalnum stack {}).map
        (fun found => found.recoveryList.map FAT32.logEntry) = some entries)
  | exFAT (v : ExFAT.Volume) (config : Config) (stack : Nat) (hlog : config.createFileDataLog = true)
      (hscan : (ExFAT.loggedScan v config keepsAll stack []).map Prod.snd = some logFile)
      (hfound : (ExFAT.scanRoot v config.recovering stack {}).map
        (fun found => found.recoveryList.map ExFAT.logEntry) = some entries)
  | ntfs (v : NTFS.Volume) (rounds : Nat) (config : Config) (hlog : config.createFileDataLog = true)
      (hscan : (NTFS.loggedScan v rounds config keepsAll []).map
        (fun s => (s.1.recoveryList.map NTFS.logEntry, s.2)) = .ok (entries, logFile))

theorem ScanLogged.text {entries : List LogEntry} {logFile : WString} (h : ScanLogged entries logFile) :
    logFile = endedLines newline LogEntry.line entries := by
  cases h with
  | fat32 v config iswalnum stack hlog hscan hfound =>
    rw [FAT32.loggedScan_log] at hscan
    obtain ⟨found, hroot, rfl⟩ := Option.map_eq_some_iff.mp hfound
    rw [hroot] at hscan
    exact (Option.some.inj hscan).symm.trans (foldl_logFileInfo hlog FAT32.logEntry found.recoveryList)
  | exFAT v config stack hlog hscan hfound =>
    rw [ExFAT.loggedScan_log] at hscan
    obtain ⟨found, hroot, rfl⟩ := Option.map_eq_some_iff.mp hfound
    rw [hroot] at hscan
    exact (Option.some.inj hscan).symm.trans (foldl_logFileInfo hlog ExFAT.logEntry found.recoveryList)
  | ntfs v rounds config hlog hscan =>
    rw [NTFS.loggedScan_eq] at hscan
    cases hfound : NTFS.scanMFT v rounds {} with
    | error fault => rw [hfound] at hscan; cases hscan
    | ok found =>
      rw [hfound] at hscan
      cases hscan
      exact foldl_logFileInfo hlog NTFS.logEntry found.recoveryList

/-- Whatever the engines and the drives: a log goes on where another ends exactly when the files
found do, and logs are equal exactly when the files are. -/
theorem logs_read_back {entries others : List LogEntry} {logFile other : WString} (h : ScanLogged entries logFile)
    (hother : ScanLogged others other) (hnames : ∀ e ∈ entries, newline ∉ e.fileName)
    (hotherNames : ∀ e ∈ others, newline ∉ e.fileName) :
    (logFile <+: other ↔ entries <+: others) ∧ (logFile = other ↔ entries = others) := by
  have hlines : ∀ e ∈ entries, newline ∉ e.line := fun e he => LogEntry.newline_not_mem (hnames e he)
  have hotherLines : ∀ e ∈ others, newline ∉ e.line := fun e he => LogEntry.newline_not_mem (hotherNames e he)
  rw [h.text, hother.text]
  exact ⟨endedLines_prefix_iff LogEntry.line_injective hlines hotherLines,
    endedLines_inj LogEntry.line_injective hlines hotherLines⟩

theorem logs_read_back_small :
    (wide "#1 Filename: \"_\" (9 bytes)\n" <+: wide "#1 Filename: \"a.b\" (5 bytes)\n#2 Filename: \"a.b\" (3 bytes)\n" ↔
      [(⟨1, wide "_", 9⟩ : LogEntry)] <+: [⟨1, wide "a.b", 5⟩, ⟨2, wide "a.b", 3⟩]) ∧
    (wide "#1 Filename: \"_\" (9 bytes)\n" = wide "#1 Filename: \"a.b\" (5 bytes)\n#2 Filename: \"a.b\" (3 bytes)\n" ↔
      [(⟨1, wide "_", 9⟩ : LogEntry)] = [⟨1, wide "a.b", 5⟩, ⟨2, wide "a.b", 3⟩]) :=
  logs_read_back (.fat32 FAT32.nested {} (fun _ => true) 3 rfl (by decide +kernel) (by decide +kernel))
    (.exFAT ExFAT.dottedVolume {} 1 rfl (by decide +kernel) (by decide +kernel)) (by decide) (by decide)

/-- A name that holds the end of a line can stand for two files. -/
example : endedLines newline LogEntry.line [⟨1, wide "a\" (5 bytes)\n#2 Filename: \"b", 7⟩] =
    endedLines newline LogEntry.line [⟨1, wide "a", 5⟩, ⟨2, wide "b", 7⟩] := by
  decide

end DataRecovery
