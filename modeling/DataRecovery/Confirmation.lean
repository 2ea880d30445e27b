import DataRecovery.Prompt

/-!
# Going on without a log

`confirmProceedWithoutLogFile` reads lines until one is an answer. The last line of the input
may have no end; when it is no answer either, `std::getline` leaves it in place and the loop
sees it again and again.
-/

namespace DataRecovery

def reply (userResponse : List UInt8) : Option Bool :=
  if userResponse = [byte 'Y'] ∨ userResponse = [] then some true
  else if userResponse = [byte 'N'] then some false
  else none

/-- The loop, with what it has read of the line so far; the answer, and the input behind it. -/
def confirmLoop : List UInt8 → List UInt8 → Except Abort (Bool × List UInt8)
  | userResponse, [] =>
    match reply userResponse with
    | some proceed => .ok (proceed, [])
    | none => .error .divergence
  | userResponse, c :: rest =>
    if c = byte '\n' then
      match reply userResponse with
      | some proceed => .ok (proceed, rest)
      | none => confirmLoop [] rest
    else confirmLoop (userResponse ++ [toUpper c]) rest

def confirmProceedWithoutLogFile (input : List UInt8) : Except Abort (Bool × List UInt8) := confirmLoop [] input

/-! ## The first answer -/

def lines (input : List UInt8) : List (List UInt8) := input.splitOn (byte '\n')

def lineReply (line : List UInt8) : Option Bool := reply (line.map toUpper)

def firstReply : List (List UInt8) → Option (Bool × List (List UInt8))
  | [] => none
  | line :: rest =>
    match lineReply line with
    | some proceed => some (proceed, rest)
    | none => firstReply rest

theorem firstReply_eq_some {proceed : Bool} {after : List (List UInt8)} : ∀ {texts : List (List UInt8)},
    firstReply texts = some (proceed, after) ↔ ∃ before line, texts = before ++ line :: after ∧
      (∀ l ∈ before, lineReply l = none) ∧ lineReply line = some proceed
  | [] => by
    refine ⟨fun h => (by cases h), ?_⟩
    rintro ⟨before, line, heq, -⟩
    cases before <;> cases heq
  | text :: texts => by
    unfold firstReply
    constructor
    · intro h
      split at h
      · rename_i p hp
        obtain ⟨rfl, rfl⟩ := Prod.mk.inj (Option.some.inj h)
        exact ⟨[], text, rfl, by simp, hp⟩
      · rename_i hnone
        obtain ⟨before, line, rfl, hbefore, hline⟩ := firstReply_eq_some.mp h
        refine ⟨text :: before, line, rfl, fun l hl => ?_, hline⟩
        rcases List.mem_cons.mp hl with rfl | hl
        · exact hnone
        · exact hbefore l hl
    · rintro ⟨before, line, heq, hbefore, hline⟩
      cases before with
      | nil =>
        obtain ⟨rfl, rfl⟩ := List.cons.inj heq
        rw [hline]
      | cons first before =>
        obtain ⟨rfl, rfl⟩ := List.cons.inj heq
        rw [hbefore text (List.mem_cons_self ..)]
        exact firstReply_eq_some.mpr ⟨before, line, rfl, fun l hl => hbefore l (List.mem_cons_of_mem _ hl), hline⟩

theorem firstReply_eq_none : ∀ {texts : List (List UInt8)},
    firstReply texts = none ↔ ∀ line ∈ texts, lineReply line = none
  | [] => by simp [firstReply]
  | text :: texts => by
    unfold firstReply
    rw [List.forall_mem_cons]
    cases lineReply text with
    | some proceed => simp
    | none => simpa using firstReply_eq_none

/-- The loop finds the first answer, whatever part of the first line it has read. -/
theorem confirmLoop_eq : ∀ (front input : List UInt8), confirmLoop (front.map toUpper) input =
    match firstReply ((lines input).modifyHead (front ++ ·)) with
    | some (proceed, after) => .ok (proceed, [byte '\n'].intercalate after)
    | none => .error .divergence
  | front, [] => by
    have hlines : (lines []).modifyHead (front ++ ·) = [front] := by simp [lines]
    rw [hlines]
    unfold confirmLoop firstReply lineReply
    cases reply (front.map toUpper) <;> rfl
  | front, c :: rest => by
    unfold confirmLoop
    by_cases hc : c = byte '\n'
    · have hlines : (lines (c :: rest)).modifyHead (front ++ ·) = front :: lines rest := by
        unfold lines
        rw [List.splitOn_cons_eq_if_modifyHead, if_pos (by simpa using hc), List.modifyHead_cons, List.append_nil]
      rw [if_pos hc, hlines]
      unfold firstReply lineReply
      cases reply (front.map toUpper) with
      | some proceed =>
        dsimp only
        rw [lines, List.intercalate_splitOn]
      | none =>
        have hrest := confirmLoop_eq [] rest
        rw [modifyHead_nil_append] at hrest
        exact hrest
    · have hlines : (lines (c :: rest)).modifyHead (front ++ ·) = (lines rest).modifyHead ((front ++ [c]) ++ ·) := by
        unfold lines
        rw [List.splitOn_cons_eq_if_modifyHead, if_neg (by simpa using hc), List.modifyHead_modifyHead]
        congr 1
        funext line
        simp
      have hrest := confirmLoop_eq (front ++ [c]) rest
      rw [List.map_append, List.map_singleton] at hrest
      rw [if_neg hc, hlines]
      exact hrest

/-- The answer is that of the first line which is one, read without regard to case, and the input goes on
behind that line; without such a line the question is asked for ever. -/
theorem confirmation_read (input : List UInt8) :
    (∀ proceed rest, confirmProceedWithoutLogFile input = .ok (proceed, rest) ↔
      ∃ before line after, lines input = before ++ line :: after ∧ (∀ l ∈ before, lineReply l = none) ∧
        lineReply line = some proceed ∧ rest = [byte '\n'].intercalate after) ∧
    (confirmProceedWithoutLogFile input = .error .divergence ↔ ∀ line ∈ lines input, lineReply line = none) := by
  have hloop := confirmLoop_eq [] input
  rw [modifyHead_nil_append] at hloop
  unfold confirmProceedWithoutLogFile
  rw [List.map_nil] at hloop
  rw [hloop]
  cases hfirst : firstReply (lines input) with
  | none =>
    refine ⟨fun proceed rest => ⟨fun h => (by cases h), ?_⟩, iff_of_true rfl (firstReply_eq_none.mp hfirst)⟩
    rintro ⟨before, line, after, hlines, hbefore, hline, -⟩
    rw [firstReply_eq_some.mpr ⟨before, line, hlines, hbefore, hline⟩] at hfirst
    cases hfirst
  | some found =>
    obtain ⟨proceed', after'⟩ := found
    constructor
    · intro proceed rest
      constructor
      · intro h
        obtain ⟨rfl, rfl⟩ := Prod.mk.inj (Except.ok.inj h)
        obtain ⟨before, line, hlines, hbefore, hline⟩ := firstReply_eq_some.mp hfirst
        exact ⟨before, line, after', hlines, hbefore, hline, rfl⟩
      · rintro ⟨before, line, after, hlines, hbefore, hline, rfl⟩
        have hsame := hfirst.symm.trans (firstReply_eq_some.mpr ⟨before, line, hlines, hbefore, hline⟩)
        obtain ⟨rfl, rfl⟩ := Prod.mk.inj (Option.some.inj hsame)
        rfl
    · refine ⟨fun h => (by cases h), fun hnone => ?_⟩
      rw [firstReply_eq_none.mpr hnone] at hfirst
      cases hfirst

end DataRecovery
