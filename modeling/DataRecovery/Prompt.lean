import DataRecovery.Utils

/-!
# Asking which files to recover

The three engines have the same `selectFilesToRecover`. Its input is the bytes the user types
(and then the input ends); what is asked for is read off the line behind option 2.
-/

namespace DataRecovery

def byte (c : Char) : UInt8 := UInt8.ofNat c.toNat

/-- `isspace` of the C locale. -/
def isSpace (c : UInt8) : Bool := c = 32 || (9 ≤ c && c ≤ 13)

def isDigit (c : UInt8) : Bool := byte '0' ≤ c && c ≤ byte '9'

/-- The C locale leaves bytes above 127 alone. -/
def toUpper (c : UInt8) : UInt8 := if byte 'a' ≤ c ∧ c ≤ byte 'z' then c - 32 else c

/-! ## Reading numbers -/

def decimal (digits : List UInt8) : Nat := digits.foldl (fun n c => 10 * n + (c - byte '0').toNat) 0

def sign (text : List UInt8) : Int × List UInt8 :=
  match text.dropWhile isSpace with
  | [] => (1, [])
  | c :: rest => if c = byte '-' then (-1, rest) else if c = byte '+' then (1, rest) else (1, c :: rest)

def strtol (text : List UInt8) : Option Int :=
  let digits := (sign text).2.takeWhile isDigit
  if digits = [] then none else some ((sign text).1 * decimal digits)

inductive StoiError where
  | invalidArgument
  | outOfRange

def IsInt (n : Int) : Prop := -2147483648 ≤ n ∧ n ≤ 2147483647

instance (n : Int) : Decidable (IsInt n) := inferInstanceAs (Decidable (_ ∧ _))

def stoi (text : List UInt8) : Except StoiError Int :=
  match strtol text with
  | none => .error .invalidArgument
  | some n => if IsInt n then .ok n else .error .outOfRange

/-! ## The prompt -/

/-- The word `std::cin >> fileIds` reads. -/
def readWord (input : List UInt8) : List UInt8 := (input.dropWhile isSpace).takeWhile (!isSpace ·)

/-- What `std::getline` with the delimiter `,` gives until it fails; `id` is what it has read so far. -/
def getlines : List UInt8 → List UInt8 → List (List UInt8)
  | id, [] => if id = [] then [] else [id]
  | id, c :: rest => if c = byte ',' then id :: getlines [] rest else getlines (id ++ [c]) rest

/-- An `out_of_range` is not caught. -/
def readIds : List (List UInt8) → List Int → Except Abort Selection
  | [], fileIdVector => .ok (.ids fileIdVector)
  | id :: rest, fileIdVector =>
    match stoi id with
    | .ok n => readIds rest (fileIdVector ++ [n])
    | .error .invalidArgument => .ok .all
    | .error .outOfRange => .error (.exception "stoi")

/-- `userResponse` has no value before a byte is read, and keeps its value when there is none left. -/
def readSelection : Option UInt8 → List UInt8 → Except Abort Selection
  | none, [] => .error .undefined
  | some _, [] => .error .divergence
  | userResponse, c :: rest =>
    if isSpace c then readSelection userResponse rest
    else if toUpper c = byte '0' then .ok .exit
    else if toUpper c = byte '1' then .ok .all
    else if toUpper c = byte '2' then readIds (getlines [] (readWord rest)) []
    else readSelection (some (toUpper c)) rest

/-- `selectFilesToRecover` with its prompt; `none` is `exit(0)`. -/
def askFilesToRecover {ι : Type} (fileId : ι → UInt16) (input : List UInt8) (recoveryList : List ι) :
    Except Abort (Option (List ι)) :=
  (readSelection none input).map fun selection => selectFilesToRecover fileId selection recoveryList

/-! ## What is asked for -/

def chosen (input : List UInt8) : List UInt8 :=
  input.dropWhile fun c => c ≠ byte '0' ∧ c ≠ byte '1' ∧ c ≠ byte '2'

def tokens (rest : List UInt8) : List (List UInt8) :=
  ((rest.dropWhile isSpace).takeWhile (· ≠ byte '\n')).splitOn (byte ',')

/-- The number a token is, blanks around it aside. -/
def number (token : List UInt8) : Option Int :=
  if ((sign token).2.dropWhile isDigit).all isSpace then strtol token else none

def listed (rest : List UInt8) (id : UInt16) : Bool := (tokens rest).any fun token => number token == some (id.toNat : Int)

/-- The tokens that begin in front of the first blank of the line. -/
def reached (rest : List UInt8) : List (List UInt8) := (tokens rest).take (getlines [] (readWord rest)).length

/-- The selection is what was asked for: all and only the files whose numbers are listed, when all tokens
are numbers; none that is not listed otherwise. -/
structure SelectsAsked {ι : Type} (fileId : ι → UInt16) (input : List UInt8) (recoveryList : List ι) : Prop where
  ends : ∃ outcome, askFilesToRecover fileId input recoveryList = .ok outcome
  exact : ∀ rest, chosen input = byte '2' :: rest → (∀ token ∈ tokens rest, number token ≠ none) →
    askFilesToRecover fileId input recoveryList =
      .ok (some (recoveryList.filter fun file => listed rest (fileId file)))
  within : ∀ rest selected, chosen input = byte '2' :: rest →
    askFilesToRecover fileId input recoveryList = .ok (some selected) → ∀ file ∈ selected, listed rest (fileId file)

/-- No number is beyond `int`, in front of the first text that does not begin with one. -/
def InRange (texts : List (List UInt8)) : Prop :=
  ∀ before text after, texts = before ++ text :: after → (∀ t ∈ before, strtol t ≠ none) →
    ∀ n, strtol text = some n → IsInt n

structure Understood {ι : Type} (fileId : ι → UInt16) (rest : List UInt8) (recoveryList : List ι) : Prop where
  in_range : InRange (reached rest)
  /-- If a token does not begin with a number, every file is listed. -/
  numeric : (∃ token ∈ reached rest, strtol token = none) → ∀ file ∈ recoveryList, listed rest (fileId file)
  /-- The number in front of something else is not a file's, or is listed as well. -/
  complete : (∀ token ∈ reached rest, strtol token ≠ none) → ∀ token ∈ reached rest, number token = none →
    ∀ file ∈ recoveryList, strtol token = some ((fileId file).toNat : Int) → listed rest (fileId file)
  /-- A number behind the first blank is not a file's, or is in front of it as well. -/
  unbroken : (∀ token ∈ tokens rest, number token ≠ none) → ∀ file ∈ recoveryList, listed rest (fileId file) →
    ∃ token ∈ reached rest, number token = some ((fileId file).toNat : Int)

/-! ## What is read -/

theorem number_eq_some {token : List UInt8} {n : Int} (h : number token = some n) : strtol token = some n := by
  unfold number at h
  split at h
  · exact h
  · cases h

theorem number_of_ne {token : List UInt8} (h : number token ≠ none) : number token = strtol token := by
  obtain ⟨n, hn⟩ := Option.ne_none_iff_exists'.mp h
  rw [hn, number_eq_some hn]

theorem listed_eq_true_iff {rest : List UInt8} {id : UInt16} :
    listed rest id = true ↔ ∃ token ∈ tokens rest, number token = some (id.toNat : Int) := by
  simp [listed]

theorem takeWhile_append_of_stop {α : Type} {p : α → Bool} {stop : List α} (hstop : ∀ c ∈ stop.head?, p c = false)
    (l : List α) : (l ++ stop).takeWhile p = l.takeWhile p := by
  induction l with
  | nil =>
    cases stop with
    | nil => rfl
    | cons c stop => simp [hstop c rfl]
  | cons a l ih =>
    rw [List.cons_append, List.takeWhile_cons, List.takeWhile_cons, ih]

theorem takeWhile_takeWhile_of_imp {α : Type} {p q : α → Bool} (h : ∀ a, q a = true → p a = true) :
    ∀ l : List α, (l.takeWhile p).takeWhile q = l.takeWhile q
  | [] => rfl
  | a :: l => by
    by_cases hq : q a = true
    · rw [List.takeWhile_cons_of_pos (h a hq), List.takeWhile_cons_of_pos hq, List.takeWhile_cons_of_pos hq,
        takeWhile_takeWhile_of_imp h l]
    · rw [List.takeWhile_cons_of_neg hq]
      by_cases hp : p a = true
      · rw [List.takeWhile_cons_of_pos hp, List.takeWhile_cons_of_neg hq]
      · rw [List.takeWhile_cons_of_neg hp, List.takeWhile_nil]

theorem modifyHead_nil_append {α : Type} (l : List (List α)) : l.modifyHead ([] ++ ·) = l := by
  cases l <;> rfl

theorem not_isDigit_of_isSpace {c : UInt8} (h : isSpace c = true) : isDigit c = false := by
  grind [isSpace, isDigit, byte]

theorem sign_append {id : List UInt8} (hid : id ≠ []) (hspace : ∀ c ∈ id, isSpace c = false) (stop : List UInt8) :
    sign (id ++ stop) = ((sign id).1, (sign id).2 ++ stop) := by
  cases id with
  | nil => exact absurd rfl hid
  | cons c id =>
    have hc := hspace c (List.mem_cons_self ..)
    unfold sign
    rw [List.cons_append, List.dropWhile_cons_of_neg (by simp [hc]), List.dropWhile_cons_of_neg (by simp [hc])]
    dsimp only
    by_cases hminus : c = byte '-'
    · rw [if_pos hminus, if_pos hminus]
    · rw [if_neg hminus, if_neg hminus]
      by_cases hplus : c = byte '+'
      · rw [if_pos hplus, if_pos hplus]
      · rw [if_neg hplus, if_neg hplus]
        rfl

/-- What comes behind a blank does not matter to the number at the beginning. -/
theorem strtol_append {id stop : List UInt8} (hid : id ≠ []) (hspace : ∀ c ∈ id, isSpace c = false)
    (hstop : ∀ c ∈ stop.head?, isSpace c = true) : strtol (id ++ stop) = strtol id := by
  have hdigits := takeWhile_append_of_stop (fun c hc => not_isDigit_of_isSpace (hstop c hc)) (sign id).2
  unfold strtol
  rw [sign_append hid hspace]
  dsimp only
  rw [hdigits]

theorem ne_comma_of_isSpace {c : UInt8} (h : isSpace c = true) : (c == byte ',') = false := by
  grind [isSpace, byte]

theorem isSpace_head_splitOn {stop token : List UInt8} {more : List (List UInt8)}
    (hstop : ∀ c ∈ stop.head?, isSpace c = true) (htokens : stop.splitOn (byte ',') = token :: more) :
    ∀ c ∈ token.head?, isSpace c = true := by
  cases stop with
  | nil =>
    rw [List.splitOn_nil] at htokens
    obtain ⟨rfl, -⟩ := List.cons.inj htokens
    exact fun c hc => by cases hc
  | cons b stop =>
    have hb := hstop b rfl
    obtain ⟨token', more', hrest⟩ := List.exists_cons_of_ne_nil (List.splitOn_ne_nil (byte ',') stop)
    rw [List.splitOn_cons_eq_if_modifyHead, ne_comma_of_isSpace hb, hrest, if_neg Bool.false_ne_true,
      List.modifyHead_cons] at htokens
    obtain ⟨rfl, -⟩ := List.cons.inj htokens
    exact fun c hc => Option.some.inj hc ▸ hb

/-- `getline` splits the word as the line is split, only that the last token may be cut at a blank. -/
theorem getlines_map_strtol {word stop : List UInt8} (hstop : ∀ c ∈ stop.head?, isSpace c = true) :
    ∀ {id : List UInt8}, (∀ c ∈ id ++ word, isSpace c = false) →
      (getlines id word).map strtol =
        ((((word ++ stop).splitOn (byte ',')).modifyHead (id ++ ·)).take (getlines id word).length).map strtol := by
  induction word with
  | nil =>
    intro id hspace
    by_cases hid : id = []
    · simp [getlines, hid]
    · obtain ⟨token, more, htokens⟩ := List.exists_cons_of_ne_nil (List.splitOn_ne_nil (byte ',') stop)
      have htoken := strtol_append hid (by simpa using hspace) (isSpace_head_splitOn hstop htokens)
      rw [getlines, if_neg hid, List.nil_append, htokens, List.modifyHead_cons]
      simp [htoken]
  | cons c word ih =>
    intro id hspace
    have hword : ∀ c' ∈ c :: word, isSpace c' = false := fun c' hc' => hspace c' (List.mem_append_right _ hc')
    rw [getlines, List.cons_append, List.splitOn_cons_eq_if_modifyHead]
    by_cases hcomma : c = byte ','
    · have hrest := @ih [] fun c' hc' => hword c' (List.mem_cons_of_mem _ hc')
      rw [if_pos hcomma, if_pos (by simp [hcomma]), List.modifyHead_cons, List.append_nil, List.length_cons,
        List.take_succ_cons, List.map_cons, List.map_cons, hrest, modifyHead_nil_append]
    · have hrest := @ih (id ++ [c]) (by simpa using hspace)
      rw [if_neg hcomma, if_neg (by simpa using hcomma), hrest, List.modifyHead_modifyHead]
      simp [Function.comp_def]

theorem reached_map_strtol (rest : List UInt8) :
    (getlines [] (readWord rest)).map strtol = (reached rest).map strtol := by
  let line := (rest.dropWhile isSpace).takeWhile (· ≠ byte '\n')
  -- a line ends with a blank, so the word is a part of the line
  have hword : readWord rest = line.takeWhile (!isSpace ·) := by
    refine (takeWhile_takeWhile_of_imp (fun c hc => ?_) _).symm
    have hne : c ≠ byte '\n' := by
      rintro rfl
      exact absurd hc (by decide)
    simpa using hne
  have hline : line = readWord rest ++ line.dropWhile (!isSpace ·) := by
    rw [hword, List.takeWhile_append_dropWhile]
  have hstop : ∀ c ∈ (line.dropWhile (!isSpace ·)).head?, isSpace c = true := by
    intro c hc
    have h := List.head?_dropWhile_not (!isSpace ·) line
    rw [Option.mem_def.mp hc] at h
    simpa using h
  have hspace : ∀ c ∈ [] ++ readWord rest, isSpace c = false := fun c hc => by
    simpa using List.mem_takeWhile_imp hc
  have h := getlines_map_strtol hstop hspace
  rwa [← hline, modifyHead_nil_append] at h

/-! ## The outcome of a prompt -/

theorem stoi_of_some {text : List UInt8} {n : Int} (h : strtol text = some n) :
    stoi text = if IsInt n then .ok n else .error .outOfRange := by
  rw [stoi, h]

theorem readIds_congr : ∀ {pieces texts : List (List UInt8)}, pieces.map strtol = texts.map strtol →
    ∀ fileIdVector, readIds pieces fileIdVector = readIds texts fileIdVector
  | [], [], _, _ => rfl
  | [], _ :: _, h, _ => by cases h
  | _ :: _, [], h, _ => by cases h
  | piece :: pieces, text :: texts, h, fileIdVector => by
    rw [List.map_cons, List.map_cons] at h
    obtain ⟨hfirst, hrest⟩ := List.cons.inj h
    have hstoi : stoi piece = stoi text := by rw [stoi, stoi, hfirst]
    simp only [readIds, hstoi, readIds_congr hrest]

/-- `stoi` throws `out_of_range` before a text without a number comes. -/
theorem readIds_of_range {text : List UInt8} {n : Int} (htext : strtol text = some n) (hrange : ¬ IsInt n)
    (after : List (List UInt8)) : ∀ {before : List (List UInt8)}, (∀ t ∈ before, strtol t ≠ none) →
      ∀ fileIdVector, readIds (before ++ text :: after) fileIdVector = .error (.exception "stoi")
  | [], _, _ => by rw [List.nil_append, readIds, stoi_of_some htext, if_neg hrange]
  | t :: before, hbefore, fileIdVector => by
    obtain ⟨m, hm⟩ := Option.ne_none_iff_exists'.mp (hbefore t (List.mem_cons_self ..))
    have hrest := fun t' ht' => hbefore t' (List.mem_cons_of_mem _ ht')
    rw [List.cons_append, readIds, stoi_of_some hm]
    by_cases hint : IsInt m
    · rw [if_pos hint]
      exact readIds_of_range htext hrange after hrest _
    · rw [if_neg hint]

theorem InRange.tail {text : List UInt8} {texts : List (List UInt8)} (h : InRange (text :: texts))
    (htext : strtol text ≠ none) : InRange texts := by
  intro before text' after heq hbefore
  refine h (text :: before) text' after (by rw [heq, List.cons_append]) fun t ht => ?_
  rcases List.mem_cons.mp ht with rfl | ht
  · exact htext
  · exact hbefore t ht

theorem readIds_of_inRange : ∀ {texts : List (List UInt8)}, InRange texts → ∀ fileIdVector,
    readIds texts fileIdVector =
      .ok (if ∃ t ∈ texts, strtol t = none then .all else .ids (fileIdVector ++ texts.filterMap strtol))
  | [], _, fileIdVector => by simp [readIds]
  | text :: texts, h, fileIdVector => by
    cases htext : strtol text with
    | none =>
      rw [readIds, stoi, htext, if_pos ⟨text, List.mem_cons_self .., htext⟩]
    | some n =>
      have hint := h [] text texts rfl (fun t ht => by cases ht) n htext
      have hrest := h.tail (by simp [htext])
      rw [readIds, stoi_of_some htext, if_pos hint]
      show readIds texts (fileIdVector ++ [n]) = _
      rw [readIds_of_inRange hrest, List.filterMap_cons_some htext]
      simp [htext]

theorem inRange_of_readIds {texts : List (List UInt8)} {fileIdVector : List Int} {selection : Selection}
    (h : readIds texts fileIdVector = .ok selection) : InRange texts := by
  intro before text after heq hbefore n hn
  by_contra hrange
  rw [heq, readIds_of_range hn hrange after hbefore] at h
  cases h

theorem toUpper_eq_iff {c d : UInt8} (hd : d < 65) : toUpper c = d ↔ c = d := by
  grind [toUpper, byte]

def IsOption (c : UInt8) : Prop := c = byte '0' ∨ c = byte '1' ∨ c = byte '2'

theorem chosen_cons_of_isOption {c : UInt8} (hc : IsOption c) (input : List UInt8) : chosen (c :: input) = c :: input := by
  refine List.dropWhile_cons_of_neg ?_
  rcases hc with rfl | rfl | rfl <;> decide

theorem chosen_cons_of_not {c : UInt8} (hc : ¬ IsOption c) (input : List UInt8) : chosen (c :: input) = chosen input := by
  refine List.dropWhile_cons_of_pos ?_
  simpa [IsOption] using hc

theorem readSelection_cons_of_not {c : UInt8} (hc : ¬ IsOption c) (userResponse : Option UInt8) (input : List UInt8) :
    ∃ response, readSelection userResponse (c :: input) = readSelection response input := by
  obtain ⟨h0, h1, h2⟩ : c ≠ byte '0' ∧ c ≠ byte '1' ∧ c ≠ byte '2' := by simpa [IsOption] using hc
  rw [readSelection]
  by_cases hspace : isSpace c = true
  · exact ⟨_, if_pos hspace⟩
  · rw [if_neg hspace, if_neg ((toUpper_eq_iff (by decide)).not.mpr h0), if_neg ((toUpper_eq_iff (by decide)).not.mpr h1),
      if_neg ((toUpper_eq_iff (by decide)).not.mpr h2)]
    exact ⟨_, rfl⟩

/-- Without an option the loop never ends, or begins with a byte that was not set. -/
theorem readSelection_of_chosen_nil : ∀ {input : List UInt8}, chosen input = [] →
    ∀ userResponse, ∃ abort, readSelection userResponse input = .error abort
  | [], _, none => ⟨_, rfl⟩
  | [], _, some _ => ⟨_, rfl⟩
  | c :: input, h, userResponse => by
    by_cases hc : IsOption c
    · rw [chosen_cons_of_isOption hc] at h
      cases h
    · rw [chosen_cons_of_not hc] at h
      obtain ⟨response, hresponse⟩ := readSelection_cons_of_not hc userResponse input
      rw [hresponse]
      exact readSelection_of_chosen_nil h response

theorem readSelection_of_chosen {option : UInt8} {rest : List UInt8} : ∀ {input : List UInt8},
    chosen input = option :: rest → ∀ userResponse, IsOption option ∧ readSelection userResponse input =
      if option = byte '0' then .ok .exit else if option = byte '1' then .ok .all
      else readIds (getlines [] (readWord rest)) []
  | [], h, _ => by cases h
  | c :: input, h, userResponse => by
    by_cases hc : IsOption c
    · rw [chosen_cons_of_isOption hc] at h
      obtain ⟨rfl, rfl⟩ := List.cons.inj h
      refine ⟨hc, ?_⟩
      rw [readSelection]
      rcases hc with rfl | rfl | rfl <;> rfl
    · rw [chosen_cons_of_not hc] at h
      obtain ⟨response, hresponse⟩ := readSelection_cons_of_not hc userResponse input
      rw [hresponse]
      exact readSelection_of_chosen h response

section
variable {ι : Type} {fileId : ι → UInt16} {recoveryList : List ι} {input rest : List UInt8}

theorem askFilesToRecover_of_two (h : chosen input = byte '2' :: rest) :
    askFilesToRecover fileId input recoveryList =
      (readIds (reached rest) []).map fun selection => selectFilesToRecover fileId selection recoveryList := by
  unfold askFilesToRecover
  rw [(readSelection_of_chosen h none).2, readIds_congr (reached_map_strtol rest)]
  rfl

theorem askFilesToRecover_of_inRange (h : chosen input = byte '2' :: rest) (hrange : InRange (reached rest)) :
    askFilesToRecover fileId input recoveryList = .ok (some (
      if ∃ t ∈ reached rest, strtol t = none then recoveryList
      else recoveryList.filter fun file => ((reached rest).filterMap strtol).contains ((fileId file).toNat : Int))) := by
  rw [askFilesToRecover_of_two h, readIds_of_inRange hrange]
  by_cases hnone : ∃ t ∈ reached rest, strtol t = none
  · rw [if_pos hnone, if_pos hnone]
    rfl
  · rw [if_neg hnone, if_neg hnone]
    rfl

theorem mem_tokens_of_reached {token : List UInt8} (h : token ∈ reached rest) : token ∈ tokens rest :=
  List.mem_of_mem_take h

theorem selected_by_token {file : ι} :
    ((reached rest).filterMap strtol).contains ((fileId file).toNat : Int) = true ↔
      ∃ token ∈ reached rest, strtol token = some ((fileId file).toNat : Int) := by
  rw [List.contains_iff_mem, List.mem_filterMap]

theorem reached_numeric (hall : ∀ token ∈ tokens rest, number token ≠ none) :
    ¬ ∃ t ∈ reached rest, strtol t = none := by
  rintro ⟨token, htoken, hnone⟩
  have hnumber := hall token (mem_tokens_of_reached htoken)
  exact hnumber (number_of_ne hnumber ▸ hnone)

theorem SelectsAsked.understood (hasked : SelectsAsked fileId input recoveryList) (h : chosen input = byte '2' :: rest) :
    Understood fileId rest recoveryList := by
  have hrange : InRange (reached rest) := by
    obtain ⟨outcome, hends⟩ := hasked.ends
    rw [askFilesToRecover_of_two h] at hends
    cases hids : readIds (reached rest) [] with
    | ok selection => exact inRange_of_readIds hids
    | error abort =>
      rw [hids] at hends
      cases hends
  have hask := @askFilesToRecover_of_inRange ι fileId recoveryList input rest h hrange
  refine ⟨hrange, fun hnone file hfile => ?_, fun hall token htoken _ file hfile hid => ?_,
    fun hall file hfile hlisted => ?_⟩
  · rw [if_pos hnone] at hask
    exact hasked.within rest _ h hask file hfile
  · rw [if_neg fun ⟨t, ht, hnone⟩ => hall t ht hnone] at hask
    refine hasked.within rest _ h hask file (List.mem_filter.mpr ⟨hfile, ?_⟩)
    exact selected_by_token.mpr ⟨token, htoken, hid⟩
  · rw [if_neg (reached_numeric hall), hasked.exact rest h hall] at hask
    have hselected : file ∈ recoveryList.filter fun file => listed rest (fileId file) :=
      List.mem_filter.mpr ⟨hfile, hlisted⟩
    rw [Option.some.inj (Except.ok.inj hask), List.mem_filter] at hselected
    obtain ⟨token, htoken, hid⟩ := selected_by_token.mp hselected.2
    exact ⟨token, htoken, (number_of_ne (hall token (mem_tokens_of_reached htoken))).trans hid⟩

theorem Understood.selectsAsked (hrest : Understood fileId rest recoveryList) (h : chosen input = byte '2' :: rest) :
    SelectsAsked fileId input recoveryList := by
  have hask := @askFilesToRecover_of_inRange ι fileId recoveryList input rest h hrest.in_range
  have hsame : ∀ {rest'}, chosen input = byte '2' :: rest' → rest' = rest := fun h' =>
    (List.cons.inj (h'.symm.trans h)).2
  refine ⟨⟨_, hask⟩, fun rest' h' hall => ?_, fun rest' selected h' hselected file hfile => ?_⟩
  · obtain rfl := hsame h'
    rw [hask, if_neg (reached_numeric hall)]
    refine congrArg (fun l => Except.ok (some l)) (List.filter_congr fun file hfile => ?_)
    rw [Bool.eq_iff_iff, selected_by_token]
    constructor
    · intro ⟨token, htoken, hid⟩
      have htokens := mem_tokens_of_reached htoken
      exact listed_eq_true_iff.mpr ⟨token, htokens, (number_of_ne (hall token htokens)).trans hid⟩
    · intro hlisted
      obtain ⟨token, htoken, hid⟩ := hrest.unbroken hall file hfile hlisted
      exact ⟨token, htoken, number_eq_some hid⟩
  · obtain rfl := hsame h'
    rw [hask] at hselected
    obtain rfl := Option.some.inj (Except.ok.inj hselected)
    by_cases hnone : ∃ t ∈ reached rest', strtol t = none
    · rw [if_pos hnone] at hfile
      exact hrest.numeric hnone file hfile
    · rw [if_neg hnone, List.mem_filter, selected_by_token] at hfile
      obtain ⟨hmem, token, htoken, hid⟩ := hfile
      by_cases hnumber : number token = none
      · exact hrest.complete (fun t ht hnil => hnone ⟨t, ht, hnil⟩) token htoken hnumber file hmem hid
      · exact listed_eq_true_iff.mpr ⟨token, mem_tokens_of_reached htoken, (number_of_ne hnumber).trans hid⟩

end

/-- What was asked for is selected when there is an option and, for option 2, its line is understood. -/
theorem selects_asked_iff {ι : Type} (fileId : ι → UInt16) (input : List UInt8) (recoveryList : List ι) :
    SelectsAsked fileId input recoveryList ↔
      ∃ option rest, chosen input = option :: rest ∧ (option = byte '2' → Understood fileId rest recoveryList) := by
  cases hchosen : chosen input with
  | nil =>
    refine iff_of_false (fun hasked => ?_) fun ⟨_, _, h, _⟩ => by cases h
    obtain ⟨outcome, hends⟩ := hasked.ends
    obtain ⟨abort, habort⟩ := readSelection_of_chosen_nil hchosen none
    rw [askFilesToRecover, habort] at hends
    cases hends
  | cons option rest =>
    constructor
    · exact fun hasked => ⟨option, rest, rfl, fun htwo => hasked.understood (htwo ▸ hchosen)⟩
    · rintro ⟨_, _, hsame, hunderstood⟩
      obtain ⟨rfl, rfl⟩ := List.cons.inj hsame
      by_cases htwo : option = byte '2'
      · exact (hunderstood htwo).selectsAsked (htwo ▸ hchosen)
      · obtain ⟨hoption, hread⟩ := readSelection_of_chosen hchosen none
        refine ⟨?_, fun rest' h _ => absurd (List.cons.inj (hchosen.symm.trans h)).1 htwo,
          fun rest' _ h _ => absurd (List.cons.inj (hchosen.symm.trans h)).1 htwo⟩
        rw [askFilesToRecover, hread]
        rcases hoption with rfl | rfl | rfl
        · exact ⟨_, rfl⟩
        · exact ⟨_, rfl⟩
        · exact absurd rfl htwo

def typed (answers : String) : List UInt8 := answers.toList.map byte

/-- A typing error selects every file, a number beyond `int` ends the program, and without an option
the prompt is repeated for ever. -/
theorem selection_unasked :
    (askFilesToRecover id (typed "2\n1,x\n") [1, 2, 3] = .ok (some [1, 2, 3]) ∧
        ¬ SelectsAsked id (typed "2\n1,x\n") [1, 2, 3]) ∧
      askFilesToRecover id (typed "2\n1,2147483648\n") [1, 2, 3] = .error (.exception "stoi") ∧
      askFilesToRecover id (typed "3\n") [1, 2, 3] = .error .divergence := by
  have hall : askFilesToRecover id (typed "2\n1,x\n") [1, 2, 3] = .ok (some [1, 2, 3]) := by rfl
  refine ⟨⟨hall, fun hasked => ?_⟩, by rfl, by rfl⟩
  have hlisted := hasked.within (typed "\n1,x\n") [1, 2, 3] (by rfl) hall 3 (by simp)
  exact absurd hlisted (by decide +kernel)

end DataRecovery
