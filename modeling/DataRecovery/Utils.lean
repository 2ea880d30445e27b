import Mathlib.Data.List.AList
import Mathlib.Data.List.DropRight
import Mathlib.Data.Nat.Digits.Defs
import DataRecovery.FreshIndex
import DataRecovery.Analysis

/-!
# The output folder

`getOutputPath` and the files a recovery run leaves behind. Two paths can name
one file (the host may ignore case, say), so files are told apart by what `locate`
makes of a path.
-/

namespace DataRecovery

def dot : UInt16 := 0x2E

def findLastDot : WString → Option Nat
  | [] => none
  | c :: cs =>
    match findLastDot cs with
    | some n => some (n + 1)
    | none => if c = dot then some 0 else none

theorem dot_not_mem : ∀ {s : WString}, findLastDot s = none → dot ∉ s
  | [], _, hmem => by cases hmem
  | c :: cs, h, hmem => by
    unfold findLastDot at h
    cases hcs : findLastDot cs with
    | some m => rw [hcs] at h; cases h
    | none =>
      rw [hcs] at h
      rcases List.mem_cons.mp hmem with hc | hmem
      · simp [← hc] at h
      · exact dot_not_mem hcs hmem

theorem findLastDot_split : ∀ {s : WString} {n : Nat}, findLastDot s = some n →
    s = s.take n ++ dot :: s.drop (n + 1) ∧ dot ∉ s.drop (n + 1)
  | [], _, h => by cases h
  | c :: cs, n, h => by
    unfold findLastDot at h
    cases hcs : findLastDot cs with
    | some m =>
      rw [hcs] at h
      obtain rfl : m + 1 = n := by simpa using h
      obtain ⟨hsplit, hdot⟩ := findLastDot_split hcs
      refine ⟨?_, hdot⟩
      rw [List.take_succ_cons, List.cons_append, List.drop_succ_cons, ← hsplit]
    | none =>
      rw [hcs] at h
      dsimp only at h
      split at h
      · rename_i hc
        obtain rfl : 0 = n := by simpa using h
        rw [hc]
        exact ⟨rfl, dot_not_mem hcs⟩
      · cases h

theorem front_ne_nil {name : WString} {n : Nat} (hdot : findLastDot name = some (n + 1)) : name.take (n + 1) ≠ [] := by
  cases name with
  | nil => cases hdot
  | cons c name => exact List.cons_ne_nil _ _

def toWString (n : Nat) : WString :=
  if n = 0 then wide "0" else (Nat.digits 10 n).reverse.map fun d => UInt16.ofNat (48 + d)

/-! ## Paths -/

structure Path where
  folder : WString
  name : WString
  deriving DecidableEq

def isSeparator (c : UInt16) : Bool := c == 0x2F || c == 0x5C

def isDriveLetter (c : UInt16) : Bool := (0x41 ≤ c && c ≤ 0x5A) || (0x61 ≤ c && c ≤ 0x7A)

/-- The last component of a path; a name without separators may start with a drive. -/
def Path.filename (path : Path) : WString :=
  if path.name.any isSeparator then path.name.rtakeWhile fun c => !isSeparator c
  else
    match path.name with
    | c :: 0x3A :: rest => if isDriveLetter c then rest else path.name
    | name => name

/-- The names `getOutputPath` tries: the name itself, then numbered ones. -/
def numberedName (fileName extension : WString) (counter : Nat) : WString :=
  fileName ++ wide "_" ++ toWString counter ++ (if extension = [] then [] else [dot] ++ extension)

/-- The part of a name the operating system sees, up to a terminator. -/
def terminated (name : WString) : WString := name.takeWhile (· != 0)

/-- The host's file system: which file a path names, and which paths a stream can be
opened for writing on. Differently numbered names are different files, unless a terminator
cuts the number off or the extension goes up a directory (`getOutputPath` only numbers
extensions without a dot). Links and device names are left out. -/
structure Host where
  File : Type
  [decEq : DecidableEq File]
  locate : Path → File
  canCreate : Path → Bool
  locate_terminated : ∀ {folder name}, locate ⟨folder, terminated name⟩ = locate ⟨folder, name⟩
  locate_numbered : ∀ {folder fileName extension i j}, 0 ∉ fileName → dot ∉ extension →
    locate ⟨folder, numberedName fileName extension i⟩ = locate ⟨folder, numberedName fileName extension j⟩ → i = j

instance (host : Host) : DecidableEq host.File := host.decEq

theorem ofDigits_toWString (n : Nat) :
    Nat.ofDigits 10 ((toWString n).map fun c => c.toNat - 48).reverse = n := by
  unfold toWString
  split
  · rename_i h; rw [h]; rfl
  · rw [List.map_map, List.map_reverse, List.reverse_reverse]
    have hdigit : ∀ d ∈ Nat.digits 10 n, (UInt16.ofNat (48 + d)).toNat - 48 = d := by
      intro d hd
      have hlt := Nat.digits_lt_base (by decide) hd
      rw [UInt16.toNat_ofNat_of_lt' (Nat.lt_of_lt_of_le (Nat.add_lt_add_left hlt 48) (by decide))]
      omega
    have hmap : (Nat.digits 10 n).map ((fun c : UInt16 => c.toNat - 48) ∘ fun d => UInt16.ofNat (48 + d)) =
        Nat.digits 10 n := (List.map_congr_left hdigit).trans (List.map_id _)
    rw [hmap]
    exact Nat.ofDigits_digits 10 n

theorem terminated_append {s : WString} (h : 0 ∉ s) (t : WString) : terminated (s ++ t) = s ++ terminated t :=
  List.takeWhile_append_of_pos fun c hc => by
    have hne : c ≠ 0 := fun h0 => h (h0 ▸ hc)
    simpa using hne

theorem terminated_terminated (name : WString) : terminated (terminated name) = terminated name := by
  unfold terminated
  rw [List.takeWhile_takeWhile]
  simp only [and_self, Bool.decide_eq_true]

theorem terminated_append_of_mem {s : WString} (h : 0 ∈ s) (t : WString) : terminated (s ++ t) = terminated s := by
  unfold terminated
  induction s with
  | nil => cases h
  | cons c s ih =>
    rw [List.cons_append, List.takeWhile_cons, List.takeWhile_cons]
    cases hc : c != 0 with
    | false => rfl
    | true =>
      have hne : c ≠ 0 := by simpa using hc
      rw [ih ((List.mem_cons.mp h).resolve_left fun h0 => hne h0.symm)]

theorem mem_toWString {n : Nat} {c : UInt16} (h : c ∈ toWString n) : 48 ≤ c.toNat ∧ c.toNat < 58 := by
  unfold toWString at h
  split at h
  · rw [List.mem_singleton.mp h]
    decide
  · obtain ⟨d, hd, rfl⟩ := List.mem_map.mp h
    have hlt := Nat.digits_lt_base (by decide) (List.mem_reverse.mp hd)
    rw [UInt16.toNat_ofNat_of_lt' (Nat.lt_of_lt_of_le (Nat.add_lt_add_left hlt 48) (by decide))]
    omega

theorem zero_not_mem_toWString (n : Nat) : 0 ∉ toWString n := fun h =>
  absurd (mem_toWString h).1 (by decide)

theorem terminated_numberedName {fileName : WString} (hterm : 0 ∉ fileName) (extension : WString) (counter : Nat) :
    terminated (numberedName fileName extension counter) =
      fileName ++ wide "_" ++ toWString counter ++ terminated (if extension = [] then [] else [dot] ++ extension) := by
  have hfront : 0 ∉ fileName ++ wide "_" ++ toWString counter := by
    intro hmem
    rcases List.mem_append.mp hmem with hmem | hmem
    · rcases List.mem_append.mp hmem with hmem | hmem
      · exact hterm hmem
      · exact absurd hmem (by decide)
    · exact zero_not_mem_toWString counter hmem
  exact terminated_append hfront _

theorem toWString_inj {i j : Nat} (h : toWString i = toWString j) : i = j := by
  rw [← ofDigits_toWString i, h, ofDigits_toWString]

def plainHost : Host where
  File := Path
  locate path := ⟨path.folder, terminated path.name⟩
  canCreate := fun _ => true
  locate_terminated := by
    intro folder name
    rw [terminated_terminated]
  locate_numbered := by
    intro folder fileName extension i j hterm _ h
    have h := congrArg Path.name h
    rw [terminated_numberedName hterm, terminated_numberedName hterm] at h
    exact toWString_inj (List.append_cancel_left (List.append_cancel_right h))

inductive Node where
  | data (bytes : List UInt8)
  | untracked

abbrev Files (host : Host) : Type := AList fun _ : host.File => Node

section
variable {host : Host}

def Files.exists (files : Files host) (path : Path) : Bool := (files.lookup (host.locate path)).isSome

/-- Opening for output creates the file or empties it; what is kept is its content when it is closed. -/
def Files.write (files : Files host) (path : Path) (node : Node) : Files host :=
  AList.insert (host.locate path) node files

def Files.read (files : Files host) (path : Path) : Option Node := files.lookup (host.locate path)

def getOutputPath (files : Files host) (fullName folder : WString) : Path :=
  match findLastDot fullName with
  | some (dotPos + 1) =>
    let fileName := fullName.take (dotPos + 1)
    let extension := fullName.drop (dotPos + 2)
    if files.exists ⟨folder, fullName⟩ then
      -- one more try than there are files is enough: `NumberGiven.found`
      let counter := firstFree (fun n => files.exists ⟨folder, numberedName fileName extension n⟩) files.keys.length 1
      ⟨folder, numberedName fileName extension counter⟩
    else ⟨folder, fullName⟩
  | _ => ⟨folder, fullName⟩

def INT_MAX : Nat := 0x7FFFFFFF

/-- Whether `getOutputPath` returns. Its counter is an `int`, and is incremented behind each name that is made:
the last number that it can give is the one before `INT_MAX`. -/
def renamingEnds (files : Files host) (fullName folder : WString) : Bool :=
  match findLastDot fullName with
  | some (dotPos + 1) =>
    let fileName := fullName.take (dotPos + 1)
    let extension := fullName.drop (dotPos + 2)
    let counter := firstFree (fun n => files.exists ⟨folder, numberedName fileName extension n⟩) files.keys.length 1
    !files.exists ⟨folder, fullName⟩ ||
      counter < INT_MAX && !files.exists ⟨folder, numberedName fileName extension counter⟩
  | _ => true

/-- The names `getOutputPath` can give a file: its own, and the numbered ones in turn. -/
def variant (fullName : WString) : Nat → WString
  | 0 => fullName
  | counter + 1 =>
    match findLastDot fullName with
    | some (n + 1) => numberedName (fullName.take (n + 1)) (fullName.drop (n + 2)) (counter + 1)
    | _ => fullName

/-- A name that `getOutputPath` numbers: there is a dot behind its first character. -/
def Dotted (fullName : WString) : Prop := ∃ n, findLastDot fullName = some (n + 1)

def AllTaken (files : Files host) (fullName folder : WString) : Prop :=
  ∀ k < INT_MAX, files.exists ⟨folder, variant fullName k⟩ = true

theorem exists_iff_mem_keys {files : Files host} {path : Path} :
    files.exists path = true ↔ host.locate path ∈ files.keys := by
  unfold Files.exists
  rw [AList.lookup_isSome, AList.mem_keys]

theorem exists_of_locate_eq {files : Files host} {path path' : Path} (h : host.locate path = host.locate path') :
    files.exists path = files.exists path' := by
  unfold Files.exists
  rw [h]

theorem exists_numbered_of_terminator {files : Files host} {fullName folder : WString} {n : Nat}
    (hterm : 0 ∈ fullName.take (n + 1)) (counter : Nat) :
    files.exists ⟨folder, numberedName (fullName.take (n + 1)) (fullName.drop (n + 2)) counter⟩ =
      files.exists ⟨folder, fullName⟩ := by
  apply exists_of_locate_eq
  rw [← host.locate_terminated, ← @Host.locate_terminated host folder fullName]
  congr 2
  conv => rhs; rw [← List.take_append_drop (n + 1) fullName]
  unfold numberedName
  rw [List.append_assoc, List.append_assoc, terminated_append_of_mem hterm, terminated_append_of_mem hterm]

theorem variant_of_pos {fullName : WString} {n k : Nat} (hdot : findLastDot fullName = some (n + 1)) (hk : 1 ≤ k) :
    variant fullName k = numberedName (fullName.take (n + 1)) (fullName.drop (n + 2)) k := by
  cases k with
  | zero => cases hk
  | succ k => rw [variant, hdot]

theorem getOutputPath_of_free {files : Files host} {fullName folder : WString}
    (h : files.exists ⟨folder, fullName⟩ = false) : getOutputPath files fullName folder = ⟨folder, fullName⟩ := by
  unfold getOutputPath
  split
  · dsimp only
    rw [h, if_neg Bool.false_ne_true]
  · rfl

theorem getOutputPath_of_not_dotted {files : Files host} {fullName folder : WString} (h : ¬ Dotted fullName) :
    getOutputPath files fullName folder = ⟨folder, fullName⟩ := by
  unfold getOutputPath
  split
  · rename_i n hn
    exact absurd ⟨n, hn⟩ h
  · rfl

theorem renamingEnds_of_free {files : Files host} {fullName folder : WString}
    (h : files.exists ⟨folder, fullName⟩ = false) : renamingEnds files fullName folder = true := by
  unfold renamingEnds
  split
  · dsimp only
    rw [h]
    rfl
  · rfl

theorem renamingEnds_of_not_dotted {files : Files host} {fullName folder : WString} (h : ¬ Dotted fullName) :
    renamingEnds files fullName folder = true := by
  unfold renamingEnds
  split
  · rename_i n hn
    exact absurd ⟨n, hn⟩ h
  · rfl

structure NumberGiven (files : Files host) (fullName folder : WString) (counter : Nat) : Prop where
  positive : 1 ≤ counter
  few : counter ≤ 1 + files.keys.length
  path : getOutputPath files fullName folder = ⟨folder, variant fullName counter⟩
  below : ∀ k < counter, files.exists ⟨folder, variant fullName k⟩ = true
  ends : renamingEnds files fullName folder = true ↔
    counter < INT_MAX ∧ files.exists ⟨folder, variant fullName counter⟩ = false
  found : ∀ n, findLastDot fullName = some (n + 1) → 0 ∉ fullName.take (n + 1) →
    files.exists ⟨folder, variant fullName counter⟩ = false

section
variable {files : Files host} {fullName folder : WString} {n : Nat} (hdot : findLastDot fullName = some (n + 1))
  (htaken : files.exists ⟨folder, fullName⟩ = true)
include hdot htaken

theorem exists_numberGiven : ∃ counter, NumberGiven files fullName folder counter := by
  let taken := fun k => files.exists ⟨folder, numberedName (fullName.take (n + 1)) (fullName.drop (n + 2)) k⟩
  have hpos := le_firstFree taken files.keys.length 1
  refine ⟨firstFree taken files.keys.length 1, hpos, firstFree_le taken _ _, ?_, fun k hk => ?_, ?_, fun n' hn' hterm => ?_⟩
  · rw [variant_of_pos hdot hpos]
    unfold getOutputPath
    simp only [hdot, htaken, if_true]
    rfl
  · cases k with
    | zero => exact htaken
    | succ k =>
      rw [variant_of_pos hdot (Nat.succ_pos k)]
      exact taken_of_lt_firstFree taken (Nat.succ_pos k) hk
  · rw [variant_of_pos hdot hpos]
    unfold renamingEnds
    simp only [hdot, htaken, Bool.not_true, Bool.false_or, Bool.and_eq_true, decide_eq_true_eq, Bool.not_eq_true']
    rfl
  · -- there are more names than files, and no two of them name one file
    cases hdot.symm.trans hn'
    rw [variant_of_pos hdot hpos]
    have hinj : ∀ i j, 1 ≤ i → 1 ≤ j →
        host.locate ⟨folder, numberedName (fullName.take (n + 1)) (fullName.drop (n + 2)) i⟩ =
          host.locate ⟨folder, numberedName (fullName.take (n + 1)) (fullName.drop (n + 2)) j⟩ → i = j :=
      fun i j _ _ hij => host.locate_numbered hterm (findLastDot_split hdot).2 hij
    exact firstFree_free taken hinj fun i _ hi => exists_iff_mem_keys.mp hi

theorem no_terminator_of_free {k : Nat} (hfree : files.exists ⟨folder, variant fullName k⟩ = false) :
    0 ∉ fullName.take (n + 1) := by
  intro hmem
  cases k with
  | zero => cases hfree.symm.trans htaken
  | succ k =>
    rw [variant_of_pos hdot (Nat.succ_pos k), exists_numbered_of_terminator hmem, htaken] at hfree
    cases hfree

end

/-- The path is the first variant that is free, if `getOutputPath` returns. -/
theorem getOutputPath_variant (files : Files host) (fullName folder : WString) :
    ∃ counter, getOutputPath files fullName folder = ⟨folder, variant fullName counter⟩ ∧
      (∀ k < counter, files.exists ⟨folder, variant fullName k⟩ = true) ∧
      (renamingEnds files fullName folder = true →
        counter < INT_MAX ∧ (Dotted fullName → files.exists ⟨folder, variant fullName counter⟩ = false)) := by
  have hzero {k : Nat} (hk : k < 0) : files.exists ⟨folder, variant fullName k⟩ = true := absurd hk (Nat.not_lt_zero k)
  by_cases hdot : Dotted fullName
  · obtain ⟨n, hdot⟩ := hdot
    cases htaken : files.exists ⟨folder, fullName⟩ with
    | false => exact ⟨0, getOutputPath_of_free htaken, fun _ => hzero, fun _ => ⟨by decide, fun _ => htaken⟩⟩
    | true =>
      obtain ⟨counter, h⟩ := exists_numberGiven hdot htaken
      exact ⟨counter, h.path, h.below, fun hends => (h.ends.mp hends).imp_right fun hfree _ => hfree⟩
  · exact ⟨0, getOutputPath_of_not_dotted hdot, fun _ => hzero, fun _ => ⟨by decide, fun h => absurd h hdot⟩⟩

/-- For a name that it can number, `getOutputPath` returns unless all the names that it can give are taken. -/
theorem renamingEnds_iff {files : Files host} {fullName folder : WString} (hdotted : Dotted fullName) :
    renamingEnds files fullName folder = true ↔ ¬ AllTaken files fullName folder := by
  obtain ⟨n, hdot⟩ := hdotted
  cases htaken : files.exists ⟨folder, fullName⟩ with
  | false =>
    refine iff_of_true (renamingEnds_of_free htaken) fun hall => ?_
    cases htaken.symm.trans (hall 0 (by decide))
  | true =>
    obtain ⟨counter, h⟩ := exists_numberGiven hdot htaken
    rw [h.ends]
    constructor
    · intro ⟨hlt, hfree⟩ hall
      cases hfree.symm.trans (hall counter hlt)
    · intro hsome
      obtain ⟨k, hk, hfree⟩ : ∃ k, k < INT_MAX ∧ files.exists ⟨folder, variant fullName k⟩ = false := by
        simpa [AllTaken] using hsome
      refine ⟨Nat.lt_of_le_of_lt (Nat.not_lt.mp fun hlt => ?_) hk, h.found n hdot (no_terminator_of_free hdot htaken hfree)⟩
      cases hfree.symm.trans (h.below k hlt)

/-- The path of a name that can be numbered is never that of an existing file. -/
theorem getOutputPath_fresh {files : Files host} {fullName folder : WString} (hdotted : Dotted fullName)
    (hends : renamingEnds files fullName folder = true) :
    files.exists (getOutputPath files fullName folder) = false := by
  obtain ⟨counter, hpath, -, hfree⟩ := getOutputPath_variant files fullName folder
  rw [hpath]
  exact (hfree hends).2 hdotted

/-- With fewer files than numbers one of the names is free, if no terminator makes them all one. -/
theorem renamingEnds_of_few {files : Files host} {fullName : WString} (folder : WString) {n : Nat}
    (hdot : findLastDot fullName = some (n + 1)) (hterm : 0 ∉ fullName.take (n + 1))
    (hfew : 1 + files.keys.length < INT_MAX) : renamingEnds files fullName folder = true := by
  cases htaken : files.exists ⟨folder, fullName⟩ with
  | false => exact renamingEnds_of_free htaken
  | true =>
    obtain ⟨counter, h⟩ := exists_numberGiven hdot htaken
    exact h.ends.mpr ⟨Nat.lt_of_le_of_lt h.few hfew, h.found n hdot hterm⟩

theorem read_write (files : Files host) (path : Path) (node : Node) : (files.write path node).read path = some node :=
  AList.lookup_insert files

theorem read_write_of_fresh {files : Files host} {path old : Path} {node content : Node}
    (hfresh : files.exists path = false) (hold : files.read old = some content) :
    (files.write path node).read old = some content := by
  have hne : host.locate old ≠ host.locate path := by
    intro h
    unfold Files.read at hold
    unfold Files.exists at hfresh
    rw [← h, hold] at hfresh
    cases hfresh
  unfold Files.read Files.write
  rw [AList.lookup_insert_ne hne]
  exact hold

end

/-! ## Runs -/

structure RunState (host : Host) where
  files : Files host
  analysis : AnalysisState := {}
  shown : List RecoveryStatus := []

/-- The state a step leaves, and how it ended the run, if it did. -/
abbrev Outcome (host : Host) : Type := RunState host × Option Abort

theorem eq_of_returns {host : Host} {outcome : Outcome host} (h : outcome.2 = none) : outcome = (outcome.1, none) :=
  Prod.ext rfl h

section
variable {host : Host} {ι : Type} (process : ι → RunState host → Outcome host)

def processAll : List ι → RunState host → Outcome host
  | [], st => (st, none)
  | file :: rest, st =>
    match process file st with
    | (st, some abort) => (st, some abort)
    | (st, none) => processAll rest st

theorem processAll_append : ∀ (pre post : List ι) (st : RunState host),
    (processAll process pre st).2 = none →
      processAll process (pre ++ post) st = processAll process post (processAll process pre st).1
  | [], _, _, _ => rfl
  | file :: pre, post, st, h => by
    rw [List.cons_append, processAll]
    rw [processAll] at h
    rw [show processAll process (file :: pre) st = _ from rfl, processAll]
    generalize process file st = out at h ⊢
    rcases out with ⟨st', _ | abort⟩
    · exact processAll_append pre post st' h
    · cases h

theorem processAll_append_cons {pre post : List ι} {file : ι} {st before after : RunState host}
    (hpre : processAll process pre st = (before, none)) (hfile : process file before = (after, none)) :
    processAll process (pre ++ file :: post) st = processAll process post after := by
  rw [processAll_append _ _ _ _ (by rw [hpre]), hpre]
  show processAll process (file :: post) before = _
  rw [processAll, hfile]

theorem processAll_invariant {P : RunState host → Prop} {good : ι → Prop}
    (hstep : ∀ file st, good file → P st → P (process file st).1 ∧ (process file st).2 = none) :
    ∀ (files : List ι) (st : RunState host), (∀ file ∈ files, good file) → P st →
      P (processAll process files st).1 ∧ (processAll process files st).2 = none
  | [], _, _, hP => ⟨hP, rfl⟩
  | file :: rest, st, hgood, hP => by
    obtain ⟨hP', hnone⟩ := hstep file st (hgood file (List.mem_cons_self ..)) hP
    unfold processAll
    generalize process file st = out at hP' hnone
    rcases out with ⟨st', _ | abort⟩
    · exact processAll_invariant hstep rest st' (fun f hf => hgood f (List.mem_cons_of_mem _ hf)) hP'
    · cases hnone

end

/-! ## The user -/

inductive Selection where
  | exit
  | all
  | ids (fileIdVector : List Int)

structure Answers where
  proceedWithoutLog : Bool := true
  selection : Selection := .all

section
variable {host : Host}

/-- `openLogFile`: whether the log is open, if a path is found for it, and the files then. -/
def openLogFile (config : Config) (files : Files host) : Except Abort Bool × Files host :=
  if config.createFileDataLog then
    let logFolder := config.outputFolder ++ wide "\\" ++ config.logFolder
    if !renamingEnds files config.logFile logFolder then (.error .undefined, files)
    else
      let logFilePath := getOutputPath files config.logFile logFolder
      if host.canCreate logFilePath then
        (.ok true, if files.exists logFilePath then files else files.write logFilePath .untracked)
      else (.ok false, files)
  else (.ok false, files)

end

/-- `selectFilesToRecover` after the prompt; `none` when the user leaves. -/
def selectFilesToRecover {ι : Type} (fileId : ι → UInt16) (selection : Selection) (recoveryList : List ι) :
    Option (List ι) :=
  match selection with
  | .exit => none
  | .all => some recoveryList
  | .ids fileIdVector => some (recoveryList.filter fun file => fileIdVector.contains ((fileId file).toNat : Int))

/-- The files `recoverPartition` works on: the user is asked only when no target is set. -/
def selectedFiles {ι : Type} (config : Config) (fileId : ι → UInt16) (selection : Selection) (recoveryList : List ι) :
    Option (List ι) :=
  if config.targetCluster = 0 && config.targetFileSize = 0 then selectFilesToRecover fileId selection recoveryList
  else some recoveryList

theorem selectedFiles_nil {ι : Type} {config : Config} {fileId : ι → UInt16} {selection : Selection}
    {selected : List ι} (h : selectedFiles config fileId selection [] = some selected) : selected = [] := by
  unfold selectedFiles selectFilesToRecover at h
  cases selection with
  | exit =>
    split at h
    · cases h
    · exact (Option.some.inj h).symm
  | all =>
    split at h
    · exact (Option.some.inj h).symm
    · exact (Option.some.inj h).symm
  | ids fileIdVector =>
    split at h
    · exact (Option.some.inj h).symm
    · exact (Option.some.inj h).symm

end DataRecovery
