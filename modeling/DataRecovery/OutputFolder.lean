import DataRecovery.KeptFiles
import DataRecovery.PathResolution

/-!
# Inside the output folder

The name of a file comes from the scanned volume and is used as a path. It names a
file of the output folder, whatever that holds, exactly when what stands before its
last component leads from the folder back to it, and the extension that the numbering
cuts off has no separators.
-/

namespace DataRecovery

/-! ## Windows paths -/

def driveOf : WString → Option UInt16
  | c :: colon :: _ => if colon = 0x3A ∧ isDriveLetter c = true then some c else none
  | _ => none

def afterDrive (path : WString) : WString := if (driveOf path).isSome then path.drop 2 else path

def isRooted (path : WString) : Bool := (afterDrive path).head?.any isSeparator

def components (path : WString) : List WString := (afterDrive path).splitOnP isSeparator

def step (part : WString) : Step WString :=
  if part = [] ∨ part = wide "." then .stay else if part = wide ".." then .up else .down part

def locationOf (folder : WString) : Place (Option UInt16) WString :=
  (Place.mk (driveOf folder) (isRooted folder) 0 []).walk ((components folder).map step)

/-- Where the components of the name start in `fs::path(folder) / name`: another drive or a
root in the name replaces the folder. -/
def startOf (folder name : WString) : Place (Option UInt16) WString :=
  if (driveOf name).isSome && (isRooted name || driveOf name != driveOf folder) then
    ⟨driveOf name, isRooted name, 0, []⟩
  else if isRooted name then ⟨driveOf folder, true, 0, []⟩
  else locationOf folder

def InFolder (folder : WString) (path : Path) : Prop :=
  ∃ dirs file, components (terminated path.name) = dirs ++ [file] ∧ step file = .down file ∧
    (startOf path.folder (terminated path.name)).walk ((dirs ++ [file]).map step) =
      (locationOf folder).go (.down file)

/-- Whatever files there are, the path of the name is in the folder. -/
def StaysIn (host : Host) (folder name : WString) : Prop :=
  ∀ files : Files host, renamingEnds files name folder = true → InFolder folder (getOutputPath files name folder)

/-- The name ends in a file name, and what stands before it leads from the folder to the folder. -/
def LeadsBack (folder name : WString) : Prop :=
  ∃ dirs file, components (terminated name) = dirs ++ [file] ∧ step file = .down file ∧
    (startOf folder (terminated name)).walk (dirs.map step) = locationOf folder

/-- The extension that `getOutputPath` cuts off is not cut by a separator. -/
def WholeExtension (name : WString) : Prop :=
  ∀ n, findLastDot name = some (n + 1) → 0 ∉ name.take (n + 1) →
    ∀ c ∈ terminated (name.drop (n + 2)), isSeparator c = false

/-- The name has no drive and no root, and the components before the last, which is a file name,
cancel. -/
structure Harmless (name : WString) : Prop where
  driveOf_eq : driveOf (terminated name) = none
  isRooted_eq : isRooted (terminated name) = false
  cancels : ∃ dirs file, components (terminated name) = dirs ++ [file] ∧ step file = .down file ∧
    Cancels (dirs.map step)
  wholeExtension : WholeExtension name

theorem inFolder_iff {folder name : WString} : InFolder folder ⟨folder, name⟩ ↔ LeadsBack folder name := by
  have hwalk : ∀ (dirs : List WString) (file : WString), step file = .down file →
      ((startOf folder (terminated name)).walk ((dirs ++ [file]).map step) = (locationOf folder).go (.down file) ↔
        (startOf folder (terminated name)).walk (dirs.map step) = locationOf folder) := by
    intro dirs file hfile
    rw [List.map_append, walk_append, List.map_singleton, walk_cons, walk_nil, hfile]
    exact ⟨go_down_inj, fun h => by rw [h]⟩
  constructor
  · intro ⟨dirs, file, hparts, hfile, hplace⟩
    exact ⟨dirs, file, hparts, hfile, (hwalk dirs file hfile).mp hplace⟩
  · intro ⟨dirs, file, hparts, hfile, hplace⟩
    exact ⟨dirs, file, hparts, hfile, (hwalk dirs file hfile).mpr hplace⟩

/-! ## Components -/

theorem eq_of_step_eq_down {part file : WString} (h : step part = .down file) : part = file := by
  unfold step at h
  split at h
  · cases h
  · split at h
    · cases h
    · exact Step.down.inj h

theorem dot_mem_of_step_eq_up {part : WString} (h : step part = .up) : dot ∈ part := by
  unfold step at h
  split at h
  · cases h
  · split at h
    · rename_i hpart
      rw [hpart]
      decide
    · cases h

theorem step_of_mem {part : WString} {c : UInt16} (hmem : c ∈ part) (hc : c ≠ dot) : step part = .down part := by
  have hnone : ∀ s : WString, (s.all fun x => x == dot) = true → part ≠ s := by
    intro s hs h
    rw [h] at hmem
    exact hc (by simpa using List.all_eq_true.mp hs c hmem)
  unfold step
  rw [if_neg, if_neg (hnone _ (by decide))]
  rintro (h | h)
  · exact hnone [] (by decide) h
  · exact hnone _ (by decide) h

section
variable {front rest : WString} (hfront : front ≠ [])
  (hrest : ∃ c tail, rest = c :: tail ∧ c ≠ 0x3A ∧ isSeparator c = false)
include hfront hrest

theorem driveOf_append : driveOf (front ++ rest) = driveOf front := by
  obtain ⟨c, tail, rfl, hcolon, -⟩ := hrest
  rcases front with _ | ⟨a, _ | ⟨b, front⟩⟩
  · exact absurd rfl hfront
  · show (if c = 0x3A ∧ _ then _ else _) = _
    rw [if_neg fun h => hcolon h.1]
    rfl
  · rfl

theorem afterDrive_append : afterDrive (front ++ rest) = afterDrive front ++ rest := by
  unfold afterDrive
  rw [driveOf_append hfront hrest]
  rcases front with _ | ⟨a, _ | ⟨b, front⟩⟩
  · exact absurd rfl hfront
  · rfl
  · split
    · rfl
    · rfl

theorem isRooted_append : isRooted (front ++ rest) = isRooted front := by
  unfold isRooted
  rw [afterDrive_append hfront hrest]
  obtain ⟨c, tail, rfl, -, hsep⟩ := hrest
  cases afterDrive front with
  | nil => simpa using hsep
  | cons a front => rfl

theorem startOf_append (folder : WString) : startOf folder (front ++ rest) = startOf folder front := by
  unfold startOf
  rw [driveOf_append hfront hrest, isRooted_append hfront hrest]

end

theorem exists_components {front : WString} (hfront : front ≠ []) :
    ∃ dirs last, ∀ {rest head : WString} {tail : List WString},
      (∃ c tail, rest = c :: tail ∧ c ≠ 0x3A ∧ isSeparator c = false) → rest.splitOnP isSeparator = head :: tail →
        components (front ++ rest) = dirs ++ (last ++ head) :: tail := by
  obtain ⟨dirs, last, hsplit⟩ := exists_splitOnP_append isSeparator (afterDrive front)
  refine ⟨dirs, last, fun hrest h => ?_⟩
  unfold components
  rw [afterDrive_append hfront hrest]
  exact hsplit h

/-! ## The numbered name -/

theorem toWString_ne_nil (counter : Nat) : toWString counter ≠ [] := by
  unfold toWString
  split
  · decide
  · rename_i hpos
    simpa using Nat.digits_ne_nil_iff_ne_zero.mpr hpos

theorem digit_ne {counter : Nat} {c d : UInt16} (hc : c ∈ toWString counter) (hd : d.toNat < 48 ∨ 58 ≤ d.toNat) :
    c ≠ d := by
  intro hcd
  have hdigit := mem_toWString hc
  rw [hcd] at hdigit
  omega

theorem isSeparator_of_mem_toWString {counter : Nat} : ∀ c ∈ toWString counter, isSeparator c = false := by
  intro c hc
  unfold isSeparator
  rw [beq_eq_false_iff_ne.mpr (digit_ne hc (by decide)), beq_eq_false_iff_ne.mpr (digit_ne hc (by decide))]
  rfl

theorem numbered_plain {rest : WString} (hrest : ∀ c ∈ rest, isSeparator c = false) (counter : Nat) :
    ∀ c ∈ wide "_" ++ toWString counter ++ rest, isSeparator c = false := by
  intro c hc
  rcases List.mem_append.mp hc with hc | hc
  · rcases List.mem_append.mp hc with hc | hc
    · rw [List.mem_singleton.mp hc]
      rfl
    · exact isSeparator_of_mem_toWString c hc
  · exact hrest c hc

/-- Past the last dot no component goes up. -/
theorem not_up_of_extension {extension : WString} (hext : dot ∉ extension) {parts : List WString}
    (hparts : parts ⊆ (terminated extension).splitOnP isSeparator) : .up ∉ parts.map step := by
  intro hmem
  obtain ⟨part, hpart, hstep⟩ := List.mem_map.mp hmem
  have hin := mem_of_mem_splitOnP (hparts hpart) (dot_mem_of_step_eq_up hstep)
  exact hext ((List.takeWhile_prefix _).subset hin)

section
variable {folder name : WString} {n : Nat} (hdot : findLastDot name = some (n + 1)) (hterm : 0 ∉ name.take (n + 1))
include hterm

theorem terminated_numbered (counter : Nat) :
    terminated (numberedName (name.take (n + 1)) (name.drop (n + 2)) counter) =
      name.take (n + 1) ++ (wide "_" ++ toWString counter ++
        if name.drop (n + 2) = [] then [] else dot :: terminated (name.drop (n + 2))) := by
  rw [terminated_numberedName hterm, List.append_assoc, List.append_assoc, List.append_assoc]
  split
  · rfl
  · rfl

include hdot

theorem terminated_dotted :
    terminated name = name.take (n + 1) ++ dot :: terminated (name.drop (n + 2)) := by
  conv => lhs; rw [(findLastDot_split hdot).1]
  rw [terminated_append hterm]
  rfl

theorem leadsBack_numbered (hwhole : ∀ c ∈ terminated (name.drop (n + 2)), isSeparator c = false)
    (h : LeadsBack folder name) (counter : Nat) :
    LeadsBack folder (numberedName (name.take (n + 1)) (name.drop (n + 2)) counter) := by
  obtain ⟨dirs, file, hparts, -, hback⟩ := h
  obtain ⟨dirs', last, hsplit⟩ := exists_components (front_ne_nil hdot)
  let mark := wide "_" ++ toWString counter ++
    if name.drop (n + 2) = [] then [] else dot :: terminated (name.drop (n + 2))
  have hdotted : ∀ c ∈ dot :: terminated (name.drop (n + 2)), isSeparator c = false := by
    intro c hc
    rcases List.mem_cons.mp hc with rfl | hc
    · rfl
    · exact hwhole c hc
  have hmark : ∀ c ∈ mark, isSeparator c = false := by
    refine numbered_plain (fun c hc => ?_) counter
    split at hc
    · cases hc
    · exact hdotted c hc
  have hplain : ∃ c tail, mark = c :: tail ∧ c ≠ 0x3A ∧ isSeparator c = false := ⟨0x5F, _, rfl, by decide, rfl⟩
  have hname := hsplit ⟨dot, _, rfl, by decide, rfl⟩ (List.splitOnP_eq_singleton hdotted)
  have hnumbered := hsplit hplain (List.splitOnP_eq_singleton hmark)
  rw [← terminated_dotted hdot hterm, hparts] at hname
  obtain ⟨rfl, -⟩ := List.append_inj' hname rfl
  rw [terminated_dotted hdot hterm, startOf_append (front_ne_nil hdot) ⟨dot, _, rfl, by decide, rfl⟩] at hback
  rw [← startOf_append (front_ne_nil hdot) hplain] at hback
  rw [← terminated_numbered hterm counter] at hnumbered hback
  exact ⟨dirs, last ++ mark, hnumbered, step_of_mem (List.mem_append_right _ (List.mem_cons_self ..)) (by decide), hback⟩

/-- A separator in the extension leaves the number in a directory, and the way through that
directory does not lead to the folder too. -/
theorem wholeExtension_of_leadsBack (h : LeadsBack folder name) {counter : Nat}
    (h' : LeadsBack folder (numberedName (name.take (n + 1)) (name.drop (n + 2)) counter)) :
    ∀ c ∈ terminated (name.drop (n + 2)), isSeparator c = false := by
  by_cases hext : name.drop (n + 2) = []
  · rw [hext]
    intro c hc
    cases hc
  obtain ⟨head, tail, hcut⟩ :=
    List.exists_cons_of_ne_nil (List.splitOnP_ne_nil isSeparator (terminated (name.drop (n + 2))))
  rcases List.eq_nil_or_concat tail with rfl | ⟨inner, file, rfl⟩
  · exact none_of_splitOnP hcut
  let mark := wide "_" ++ toWString counter ++ [dot]
  have hdotplain : ∀ c ∈ [dot], isSeparator c = false := List.forall_mem_singleton.mpr rfl
  have hdotcut := splitOnP_append_of_none hcut hdotplain
  have hmarkcut := splitOnP_append_of_none hcut (numbered_plain hdotplain counter)
  obtain ⟨dirs, last, hsplit⟩ := exists_components (front_ne_nil hdot)
  have hthrough : ∀ {full rest part : WString}, terminated full = name.take (n + 1) ++ rest →
      (∃ c tail, rest = c :: tail ∧ c ≠ 0x3A ∧ isSeparator c = false) →
      rest.splitOnP isSeparator = part :: inner.concat file → LeadsBack folder full →
        (((startOf folder (name.take (n + 1))).walk (dirs.map step)).go (step (last ++ part))).walk (inner.map step) =
          locationOf folder := by
    intro full rest part hfull hplain hrest ⟨dirs', file', hparts, _, hback⟩
    rw [hfull, hsplit hplain hrest, List.concat_eq_append, ← List.cons_append, ← List.append_assoc] at hparts
    obtain ⟨rfl, -⟩ := List.append_inj' hparts rfl
    rw [hfull, startOf_append (front_ne_nil hdot) hplain, List.map_append, walk_append] at hback
    exact hback
  have hfirst := hthrough (terminated_dotted hdot hterm) ⟨dot, _, rfl, by decide, rfl⟩ hdotcut h
  have hnumber : terminated (numberedName (name.take (n + 1)) (name.drop (n + 2)) counter) =
      name.take (n + 1) ++ (mark ++ terminated (name.drop (n + 2))) := by
    rw [terminated_numbered hterm, if_neg hext, List.append_assoc (wide "_" ++ toWString counter)]
    rfl
  have hsecond := hthrough hnumber ⟨0x5F, _, rfl, by decide, rfl⟩ hmarkcut h'
  have hup : .up ∉ inner.map step := by
    refine not_up_of_extension (findLastDot_split hdot).2 fun part hpart => ?_
    rw [hcut, List.concat_eq_append]
    exact List.mem_cons_of_mem _ (List.mem_append_left _ hpart)
  have hgo := walk_inj hup (hfirst.trans hsecond.symm)
  have hname : (0x5F : UInt16) ∈ last ++ (mark ++ head) :=
    List.mem_append_right _ (List.mem_append_left _ (List.mem_cons_self ..))
  rw [step_of_mem hname (by decide)] at hgo
  have hsame := eq_of_step_eq_down (eq_down_of_go hgo)
  have hlen := congrArg List.length (List.append_cancel_left hsame)
  have hmarklen : mark.length = 1 + (toWString counter).length + 1 := by
    rw [List.length_append, List.length_append]
    rfl
  rw [List.length_append, List.length_append, hmarklen, List.length_singleton] at hlen
  omega

end

/-! ## A host that resolves paths -/

def resolve (path : Path) : Place (Option UInt16) WString :=
  (startOf path.folder (terminated path.name)).walk ((components (terminated path.name)).map step)

theorem exists_extension_parts {extension : WString} (hext : dot ∉ extension) :
    ∃ head parts, (terminated (if extension = [] then [] else [dot] ++ extension)).splitOnP isSeparator = head :: parts ∧
      .up ∉ parts.map step := by
  split
  · exact ⟨[], [], rfl, List.not_mem_nil⟩
  · obtain ⟨head, parts, hcut⟩ :=
      List.exists_cons_of_ne_nil (List.splitOnP_ne_nil isSeparator (terminated extension))
    refine ⟨[dot] ++ head, parts, splitOnP_append_of_none hcut (List.forall_mem_singleton.mpr rfl), ?_⟩
    exact not_up_of_extension hext (hcut ▸ List.subset_cons_self ..)

/-- Past the number no component goes up, so paths with different numbers lead to different places. -/
theorem resolve_numbered_inj {folder fileName extension : WString} {i j : Nat} (hterm : 0 ∉ fileName)
    (hext : dot ∉ extension)
    (h : resolve ⟨folder, numberedName fileName extension i⟩ = resolve ⟨folder, numberedName fileName extension j⟩) :
    i = j := by
  let front := fileName ++ wide "_"
  let tail := terminated (if extension = [] then [] else [dot] ++ extension)
  have hfront : front ≠ [] := List.append_ne_nil_of_right_ne_nil _ (by decide)
  obtain ⟨head, parts, hcut, hup⟩ := exists_extension_parts hext
  obtain ⟨dirs, last, hsplit⟩ := exists_components hfront
  have hpath : ∀ k, resolve ⟨folder, numberedName fileName extension k⟩ =
      (((startOf folder front).walk (dirs.map step)).go (.down (last ++ (toWString k ++ head)))).walk (parts.map step) := by
    intro k
    obtain ⟨c, digits, hdigits⟩ := List.exists_cons_of_ne_nil (toWString_ne_nil k)
    have hc : c ∈ toWString k := hdigits ▸ List.mem_cons_self ..
    have hrest : ∃ c more, toWString k ++ tail = c :: more ∧ c ≠ 0x3A ∧ isSeparator c = false :=
      ⟨c, digits ++ tail, by rw [hdigits]; rfl, digit_ne hc (by decide), isSeparator_of_mem_toWString c hc⟩
    have hname : terminated (numberedName fileName extension k) = front ++ (toWString k ++ tail) := by
      rw [terminated_numberedName hterm, List.append_assoc]
    have hin : c ∈ last ++ (toWString k ++ head) := List.mem_append_right _ (List.mem_append_left _ hc)
    unfold resolve
    dsimp only
    rw [hname, startOf_append hfront hrest, hsplit hrest (splitOnP_append_of_none hcut isSeparator_of_mem_toWString),
      List.map_append, walk_append, List.map_cons, walk_cons, step_of_mem hin (digit_ne hc (by decide))]
  rw [hpath, hpath] at h
  have hdown := eq_down_of_go (walk_inj hup h)
  exact toWString_inj (List.append_cancel_right (List.append_cancel_left (Step.down.inj hdown)))

/-- Files are told apart by where their paths lead. -/
def resolvingHost : Host where
  File := Place (Option UInt16) WString
  locate := resolve
  canCreate := fun _ => true
  locate_terminated := by
    intro folder name
    unfold resolve
    rw [terminated_terminated]
  locate_numbered := resolve_numbered_inj

/-! ## The names that stay -/

theorem staysIn_iff {host : Host} {folder name : WString} :
    StaysIn host folder name ↔ LeadsBack folder name ∧ WholeExtension name := by
  constructor
  · intro h
    have hfree : (∅ : Files host).exists ⟨folder, name⟩ = false := rfl
    have hback : LeadsBack folder name := by
      have hin := h ∅ (renamingEnds_of_free hfree)
      rw [getOutputPath_of_free hfree] at hin
      exact inFolder_iff.mp hin
    refine ⟨hback, fun n hdot hterm => ?_⟩
    let files := (∅ : Files host).write ⟨folder, name⟩ .untracked
    have htaken : files.exists ⟨folder, name⟩ = true := by
      show ((∅ : Files host).write _ _ |>.read ⟨folder, name⟩).isSome = true
      rw [read_write]
      rfl
    have hkeys : files.keys.length ≤ 1 := length_keys_write _ _ _
    have hfew : 1 + files.keys.length < INT_MAX := Nat.lt_of_le_of_lt (Nat.add_le_add_left hkeys 1) (by decide)
    obtain ⟨counter, hnumber⟩ := exists_numberGiven hdot htaken
    have hin := h files (renamingEnds_of_few folder hdot hterm hfew)
    rw [hnumber.path, variant_of_pos hdot hnumber.positive] at hin
    exact wholeExtension_of_leadsBack hdot hterm hback (inFolder_iff.mp hin)
  · intro ⟨hback, hwhole⟩ files hends
    cases htaken : files.exists ⟨folder, name⟩ with
    | false =>
      rw [getOutputPath_of_free htaken]
      exact inFolder_iff.mpr hback
    | true =>
      by_cases hdotted : Dotted name
      · obtain ⟨n, hdot⟩ := hdotted
        obtain ⟨counter, hnumber⟩ := exists_numberGiven hdot htaken
        have hterm := no_terminator_of_free hdot htaken (hnumber.ends.mp hends).2
        rw [hnumber.path, variant_of_pos hdot hnumber.positive]
        exact inFolder_iff.mpr (leadsBack_numbered hdot hterm (hwhole n hdot hterm) hback counter)
      · rw [getOutputPath_of_not_dotted hdotted]
        exact inFolder_iff.mpr hback

/-- The file stays in the output folder exactly when the name leads back to it, and the extension is whole. -/
theorem stays_in_folder_iff (host : Host) (config : Config) (name : WString) :
    StaysIn host config.outputFolder name ↔ LeadsBack config.outputFolder name ∧ WholeExtension name :=
  staysIn_iff

/-! ## Every folder -/

theorem startOf_plain {folder name : WString} (hdrive : driveOf name = none) (hrooted : isRooted name = false) :
    startOf folder name = locationOf folder := by
  unfold startOf
  rw [hdrive, hrooted]
  rfl

theorem plain_of_walk {folder name : WString} {steps : List (Step WString)} (hdrive : driveOf folder = none)
    (hrooted : isRooted folder = false) (h : (startOf folder name).walk steps = locationOf folder) :
    driveOf name = none ∧ isRooted name = false := by
  have hfolder := root_walk ((components folder).map step) (Place.mk (driveOf folder) (isRooted folder) 0 [])
  have hname := root_walk steps (startOf folder name)
  rw [h] at hname
  have hroot : driveOf folder = (startOf folder name).root := hfolder.1.symm.trans hname.1
  have hroots : isRooted folder = (startOf folder name).rooted := hfolder.2.symm.trans hname.2
  rw [hdrive] at hroot
  rw [hrooted] at hroots
  unfold startOf at hroot hroots
  rw [hdrive] at hroot hroots
  cases hd : driveOf name with
  | some d =>
    rw [hd] at hroot
    have hother : (isRooted name || (some d != none)) = true := by rw [show (some d != none) = true from rfl, Bool.or_true]
    rw [hother] at hroot
    cases hroot
  | none =>
    rw [hd] at hroots
    cases hr : isRooted name with
    | false => exact ⟨rfl, rfl⟩
    | true =>
      rw [hr] at hroots
      cases hroots

theorem leadsBack_all_iff {name : WString} :
    (∀ folder, LeadsBack folder name) ↔
      driveOf (terminated name) = none ∧ isRooted (terminated name) = false ∧
        ∃ dirs file, components (terminated name) = dirs ++ [file] ∧ step file = .down file ∧
          Cancels (dirs.map step) := by
  constructor
  · intro h
    obtain ⟨dirs, file, hparts, hfile, hx⟩ := h (wide "a")
    obtain ⟨dirs', file', hparts', -, hy⟩ := h (wide "b")
    rw [hparts] at hparts'
    obtain ⟨rfl, -⟩ := List.append_inj' hparts' rfl
    obtain ⟨hdrive, hrooted⟩ := plain_of_walk (by decide) (by decide) hx
    rw [startOf_plain hdrive hrooted] at hx hy
    have hne : wide "a" ≠ wide "b" := by decide
    exact ⟨hdrive, hrooted, dirs, file, hparts, hfile, cancels_of_walk hne hx hy⟩
  · intro ⟨hdrive, hrooted, dirs, file, hparts, hfile, hcancels⟩ folder
    refine ⟨dirs, file, hparts, hfile, ?_⟩
    rw [startOf_plain hdrive hrooted, walk_of_cancels hcancels]

/-- The names that stay in the folder whatever it is called. -/
theorem staysIn_all_iff {host : Host} (name : WString) : (∀ folder, StaysIn host folder name) ↔ Harmless name := by
  constructor
  · intro h
    obtain ⟨hdrive, hrooted, hparts⟩ := leadsBack_all_iff.mp fun folder => (staysIn_iff.mp (h folder)).1
    exact ⟨hdrive, hrooted, hparts, (staysIn_iff.mp (h [])).2⟩
  · intro h folder
    exact staysIn_iff.mpr ⟨leadsBack_all_iff.mpr ⟨h.driveOf_eq, h.isRooted_eq, h.cancels⟩ folder, h.wholeExtension⟩

def climbing : ExFAT.Volume :=
  ExFAT.smallVolume [(4, ([0x05] ++ List.replicate 31 0) ++
    ([0x40] ++ List.replicate 19 0 ++ [3, 0, 0, 0] ++ [9, 0, 0, 0, 0, 0, 0, 0]) ++
    ([0x41, 0, 0x2E, 0, 0x2E, 0, 0x5C, 0, 0x78, 0] ++ List.replicate 22 0))]

theorem name_leaves_folder :
    ¬ ∀ (host : Host) (v : ExFAT.Volume) (config : Config) (stack : Nat) (scan : ExFAT.ScanState)
        (info : ExFAT.FileInfo), ExFAT.scanRoot v config stack {} = some scan → info ∈ scan.recoveryList →
      StaysIn host config.outputFolder info.fileName := by
  intro h
  let config : Config := { recover := true }
  let info : ExFAT.FileInfo := ⟨1, [0x2E, 0x2E, 0x5C, 0x78], 9, 3⟩
  obtain ⟨scan, hscan, hlist⟩ : ∃ scan, ExFAT.scanRoot climbing config 3 {} = some scan ∧
      scan.recoveryList = [info] := Option.map_eq_some_iff.mp (by decide +kernel)
  have hstays := h resolvingHost climbing config 3 scan info hscan (hlist ▸ List.mem_singleton_self _)
  obtain ⟨dirs, file, hparts, -, hplace⟩ := (staysIn_iff.mp hstays).1
  have hcut : components (terminated info.fileName) = [wide ".."] ++ [wide "x"] := by decide
  obtain ⟨rfl, -⟩ := List.append_inj' (hparts.symm.trans hcut) rfl
  exact absurd hplace (by decide)

end DataRecovery
