import DataRecovery.Prompt

/-!
# The command line

`parseCommandLine` reads the arguments behind the program's name from left to right. What it
accepts is a list of options, each in one of two spellings; the settings do not depend on the
order of the options, except that the last drive counts.
-/

namespace DataRecovery

def narrow (s : String) : List UInt8 := s.toList.map byte

structure ProgramConfig extends Config where
  drivePath : WString := []

def parseFlag (arg : List UInt8) (config : ProgramConfig) : Except Abort ProgramConfig :=
  if arg = narrow "-l" ∨ arg = narrow "--no-log" then .ok { config with createFileDataLog := false }
  else if arg = narrow "-r" ∨ arg = narrow "--recover" then .ok { config with recover := true }
  else if arg = narrow "-a" ∨ arg = narrow "--analyze" then .ok { config with analyze := true }
  else if arg = narrow "-h" ∨ arg = narrow "--help" then .error (.exit 0)
  else .error (.exit 1)

section
variable (multiByteToWideChar : List UInt8 → WString)

/-- `MultiByteToWideChar` is not called for an empty string. -/
def stringToWstring (str : List UInt8) : WString := if str = [] then [] else multiByteToWideChar str

/-- The loop of `parseCommandLine` over the remaining arguments, and the test behind it. -/
def parseCommandLine : List (List UInt8) → ProgramConfig → Except Abort ProgramConfig
  | [], config =>
    if config.drivePath = [] then .error (.exception "--drive argument is missing") else .ok config
  | arg :: rest, config =>
    if arg = narrow "-d" ∨ arg = narrow "--drive" then
      match rest with
      | [] => .error (.exit 1)
      | drive :: rest => parseCommandLine rest { config with drivePath := stringToWstring multiByteToWideChar drive }
    else
      match parseFlag arg config with
      | .ok config => parseCommandLine rest config
      | .error abort => .error abort

end

/-! ## What is written on a command line -/

inductive CommandOption where
  | drive (path : List UInt8)
  | noLog
  | recover
  | analyze
  deriving DecidableEq

namespace CommandOption

def arguments : Bool → CommandOption → List (List UInt8)
  | true, drive path => [narrow "--drive", path]
  | false, drive path => [narrow "-d", path]
  | true, noLog => [narrow "--no-log"]
  | false, noLog => [narrow "-l"]
  | true, recover => [narrow "--recover"]
  | false, recover => [narrow "-r"]
  | true, analyze => [narrow "--analyze"]
  | false, analyze => [narrow "-a"]

def path? : CommandOption → Option (List UInt8)
  | drive path => some path
  | _ => none

end CommandOption

def render (options : List (Bool × CommandOption)) : List (List UInt8) :=
  options.flatMap fun option => option.2.arguments option.1

def IsHelp (arg : List UInt8) : Prop := arg = narrow "-h" ∨ arg = narrow "--help"

def Faulty : List (List UInt8) → Prop
  | [] => False
  | arg :: rest =>
    ¬ IsHelp arg ∧ (∀ long option more, arg :: rest ≠ CommandOption.arguments long option ++ more)

section
variable (multiByteToWideChar : List UInt8 → WString)

def driveNamed (options : List CommandOption) : WString :=
  ((options.filterMap CommandOption.path?).getLast?.map (stringToWstring multiByteToWideChar)).getD []

def settings (options : List CommandOption) : ProgramConfig where
  drivePath := driveNamed multiByteToWideChar options
  createFileDataLog := !options.contains .noLog
  recover := options.contains .recover
  analyze := options.contains .analyze

/-! ## One option -/

def ProgramConfig.set (config : ProgramConfig) : CommandOption → ProgramConfig
  | .drive path => { config with drivePath := stringToWstring multiByteToWideChar path }
  | .noLog => { config with createFileDataLog := false }
  | .recover => { config with recover := true }
  | .analyze => { config with analyze := true }

theorem parseCommandLine_flag {arg : List UInt8} (hdrive : ¬ (arg = narrow "-d" ∨ arg = narrow "--drive"))
    (rest : List (List UInt8)) (config : ProgramConfig) :
    parseCommandLine multiByteToWideChar (arg :: rest) config =
      match parseFlag arg config with
      | .ok config => parseCommandLine multiByteToWideChar rest config
      | .error abort => .error abort := by
  conv => lhs; unfold parseCommandLine
  rw [if_neg hdrive]

theorem parseCommandLine_option (long : Bool) (option : CommandOption) (rest : List (List UInt8))
    (config : ProgramConfig) :
    parseCommandLine multiByteToWideChar (option.arguments long ++ rest) config =
      parseCommandLine multiByteToWideChar rest (config.set multiByteToWideChar option) := by
  cases option with
  | drive path =>
    cases long
    · exact if_pos (.inl rfl)
    · exact if_pos (.inr rfl)
  | noLog => cases long <;> exact parseCommandLine_flag multiByteToWideChar (by decide) rest config
  | recover => cases long <;> exact parseCommandLine_flag multiByteToWideChar (by decide) rest config
  | analyze => cases long <;> exact parseCommandLine_flag multiByteToWideChar (by decide) rest config

theorem parseCommandLine_render : ∀ (options : List (Bool × CommandOption)) (rest : List (List UInt8))
    (config : ProgramConfig),
    parseCommandLine multiByteToWideChar (render options ++ rest) config =
      parseCommandLine multiByteToWideChar rest
        ((options.map Prod.snd).foldl (ProgramConfig.set multiByteToWideChar) config)
  | [], _, _ => rfl
  | (long, option) :: options, rest, config => by
    have hcons : render ((long, option) :: options) ++ rest = option.arguments long ++ (render options ++ rest) := by
      rw [render, List.flatMap_cons, List.append_assoc]
      rfl
    rw [hcons, parseCommandLine_option, parseCommandLine_render options]
    rfl

theorem foldl_set : ∀ options : List CommandOption,
    options.foldl (ProgramConfig.set multiByteToWideChar) {} = settings multiByteToWideChar options := by
  intro options
  induction options using List.reverseRecOn with
  | nil => rfl
  | append_singleton options option ih =>
    rw [List.foldl_concat, ih]
    cases option <;> simp [ProgramConfig.set, settings, driveNamed, CommandOption.path?]

/-! ## Command lines -/

theorem parseCommandLine_help {arg : List UInt8} (h : IsHelp arg) (rest : List (List UInt8)) (config : ProgramConfig) :
    parseCommandLine multiByteToWideChar (arg :: rest) config = .error (.exit 0) := by
  rcases h with rfl | rfl
  · exact parseCommandLine_flag multiByteToWideChar (by decide) rest config
  · exact parseCommandLine_flag multiByteToWideChar (by decide) rest config

theorem parseFlag_of_unknown {arg : List UInt8} (hhelp : ¬ IsHelp arg)
    (hflag : ∀ long option, [arg] ≠ CommandOption.arguments long option) (config : ProgramConfig) :
    parseFlag arg config = .error (.exit 1) := by
  have hne : ∀ long option spelling, CommandOption.arguments long option = [spelling] → arg ≠ spelling :=
    fun long option _ hspelling heq => hflag long option (heq ▸ hspelling.symm)
  unfold parseFlag
  rw [if_neg (not_or.mpr ⟨hne false .noLog _ rfl, hne true .noLog _ rfl⟩),
    if_neg (not_or.mpr ⟨hne false .recover _ rfl, hne true .recover _ rfl⟩),
    if_neg (not_or.mpr ⟨hne false .analyze _ rfl, hne true .analyze _ rfl⟩)]
  exact if_neg hhelp

theorem parseCommandLine_faulty : ∀ {rest : List (List UInt8)}, Faulty rest → ∀ config : ProgramConfig,
    parseCommandLine multiByteToWideChar rest config = .error (.exit 1)
  | arg :: rest, h, config => by
    obtain ⟨hhelp, hoption⟩ := h
    by_cases hdrive : arg = narrow "-d" ∨ arg = narrow "--drive"
    · unfold parseCommandLine
      rw [if_pos hdrive]
      cases rest with
      | nil => rfl
      | cons path rest =>
        rcases hdrive with rfl | rfl
        · exact absurd rfl (hoption false (.drive path) rest)
        · exact absurd rfl (hoption true (.drive path) rest)
    · have hunknown : ∀ long option, [arg] ≠ CommandOption.arguments long option := fun long option heq =>
        hoption long option rest (by rw [← heq, List.singleton_append])
      rw [parseCommandLine_flag multiByteToWideChar hdrive, parseFlag_of_unknown hhelp hunknown]

/-- Options are read off the front as long as there are any. -/
theorem exists_split : ∀ args : List (List UInt8), ∃ options rest, args = render options ++ rest ∧
    (rest = [] ∨ (∃ arg more, rest = arg :: more ∧ IsHelp arg) ∨ Faulty rest) := by
  intro args
  induction hn : args.length using Nat.strong_induction_on generalizing args with
  | _ n ih =>
    cases args with
    | nil => exact ⟨[], [], rfl, .inl rfl⟩
    | cons arg rest =>
      by_cases hoption : ∃ long option more, arg :: rest = CommandOption.arguments long option ++ more
      · obtain ⟨long, option, more, heq⟩ := hoption
        have hlt : more.length < n := by
          rw [← hn, heq, List.length_append]
          cases long <;> cases option <;> simp [CommandOption.arguments]
        obtain ⟨options, last, hmore, hlast⟩ := ih more.length hlt more rfl
        refine ⟨(long, option) :: options, last, ?_, hlast⟩
        rw [heq, hmore, ← List.append_assoc]
        rfl
      · refine ⟨[], arg :: rest, rfl, .inr ?_⟩
        by_cases hhelp : IsHelp arg
        · exact .inl ⟨arg, rest, rfl, hhelp⟩
        · exact .inr ⟨hhelp, fun long option more heq => hoption ⟨long, option, more, heq⟩⟩

/-- How a command line ends is decided by what comes behind its options. -/
theorem parseCommandLine_cases (args : List (List UInt8)) :
    (∃ options, args = render options ∧ parseCommandLine multiByteToWideChar args {} =
        if driveNamed multiByteToWideChar (options.map Prod.snd) = [] then
          .error (.exception "--drive argument is missing")
        else .ok (settings multiByteToWideChar (options.map Prod.snd))) ∨
    ((∃ options arg rest, args = render options ++ arg :: rest ∧ IsHelp arg) ∧
      parseCommandLine multiByteToWideChar args {} = .error (.exit 0)) ∨
    ((∃ options rest, args = render options ++ rest ∧ Faulty rest) ∧
      parseCommandLine multiByteToWideChar args {} = .error (.exit 1)) := by
  obtain ⟨options, rest, rfl, rfl | ⟨arg, more, rfl, hhelp⟩ | hfaulty⟩ := exists_split args
  · refine .inl ⟨options, List.append_nil _, ?_⟩
    rw [parseCommandLine_render, foldl_set]
    rfl
  · refine .inr (.inl ⟨⟨options, arg, more, rfl, hhelp⟩, ?_⟩)
    rw [parseCommandLine_render, parseCommandLine_help multiByteToWideChar hhelp]
  · refine .inr (.inr ⟨⟨options, rest, rfl, hfaulty⟩, ?_⟩)
    rw [parseCommandLine_render, parseCommandLine_faulty multiByteToWideChar hfaulty]

theorem parseCommandLine_options (options : List (Bool × CommandOption)) :
    parseCommandLine multiByteToWideChar (render options) {} =
      if driveNamed multiByteToWideChar (options.map Prod.snd) = [] then
        .error (.exception "--drive argument is missing")
      else .ok (settings multiByteToWideChar (options.map Prod.snd)) := by
  have hrender := parseCommandLine_render multiByteToWideChar options [] {}
  rw [List.append_nil, foldl_set] at hrender
  exact hrender

theorem exists_options_of_ok {args : List (List UInt8)} {config : ProgramConfig}
    (h : parseCommandLine multiByteToWideChar args {} = .ok config) :
    ∃ options, args = render options ∧ driveNamed multiByteToWideChar (options.map Prod.snd) ≠ [] ∧
      config = settings multiByteToWideChar (options.map Prod.snd) := by
  rcases parseCommandLine_cases multiByteToWideChar args with ⟨options, hargs, hparse⟩ | ⟨-, hparse⟩ | ⟨-, hparse⟩
  · rw [hparse] at h
    split at h
    · cases h
    · rename_i hdrive
      exact ⟨options, hargs, hdrive, (Except.ok.inj h).symm⟩
  · rw [hparse] at h; cases h
  · rw [hparse] at h; cases h

/-- A command line is accepted when it is options only, with a drive among them; it ends the program with
success at the first thing that asks for help, and with failure at the first that is not an option. -/
theorem command_line_read (args : List (List UInt8)) :
    (∀ config, parseCommandLine multiByteToWideChar args {} = .ok config ↔
      ∃ options, args = render options ∧ driveNamed multiByteToWideChar (options.map Prod.snd) ≠ [] ∧
        config = settings multiByteToWideChar (options.map Prod.snd)) ∧
    (parseCommandLine multiByteToWideChar args {} = .error (.exit 0) ↔
      ∃ options arg rest, args = render options ++ arg :: rest ∧ IsHelp arg) ∧
    (parseCommandLine multiByteToWideChar args {} = .error (.exit 1) ↔
      ∃ options rest, args = render options ++ rest ∧ Faulty rest) ∧
    (∀ what, parseCommandLine multiByteToWideChar args {} = .error (.exception what) ↔
      what = "--drive argument is missing" ∧
        ∃ options, args = render options ∧ driveNamed multiByteToWideChar (options.map Prod.snd) = []) := by
  refine ⟨fun config => ⟨exists_options_of_ok multiByteToWideChar, ?_⟩, ⟨fun h => ?_, ?_⟩, ⟨fun h => ?_, ?_⟩,
    fun what => ⟨fun h => ?_, ?_⟩⟩
  · rintro ⟨options, rfl, hdrive, rfl⟩
    rw [parseCommandLine_options, if_neg hdrive]
  · rcases parseCommandLine_cases multiByteToWideChar args with ⟨options, hargs, hparse⟩ | ⟨hhelp, -⟩ | ⟨-, hparse⟩
    · rw [hparse] at h
      split at h <;> cases h
    · exact hhelp
    · rw [hparse] at h; cases h
  · rintro ⟨options, arg, rest, rfl, hhelp⟩
    rw [parseCommandLine_render, parseCommandLine_help multiByteToWideChar hhelp]
  · rcases parseCommandLine_cases multiByteToWideChar args with ⟨options, hargs, hparse⟩ | ⟨-, hparse⟩ | ⟨hfaulty, -⟩
    · rw [hparse] at h
      split at h <;> cases h
    · rw [hparse] at h; cases h
    · exact hfaulty
  · rintro ⟨options, rest, rfl, hfaulty⟩
    rw [parseCommandLine_render, parseCommandLine_faulty multiByteToWideChar hfaulty]
  · rcases parseCommandLine_cases multiByteToWideChar args with ⟨options, hargs, hparse⟩ | ⟨-, hparse⟩ | ⟨-, hparse⟩
    · rw [hparse] at h
      split at h
      · rename_i hdrive
        cases h
        exact ⟨rfl, options, hargs, hdrive⟩
      · cases h
    · rw [hparse] at h; cases h
    · rw [hparse] at h; cases h
  · rintro ⟨rfl, options, rfl, hdrive⟩
    rw [parseCommandLine_options, if_pos hdrive]

end

end DataRecovery
