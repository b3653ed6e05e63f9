import InsertLayout.CommandLine.Arguments

/-!
# What arguments are read into

Reading stops before the last argument only for help, the version or a refusal (`goesOn_readAll`),
so the settings of a run are those that are left when all arguments have been read, and they never
ask for files to be both overwritten and reported (`check_eq_false_of_write`). `Adds` says what one
more argument adds to them; hence files are overwritten exactly if a flag for it is among the
arguments, and reported likewise, the file with the options is the value of the option for it, and
the paths are the arguments that are neither flags nor values (`reads_of_ofArguments`).
-/

set_option autoImplicit false

namespace InsertLayout

namespace Invocation

/-! ## Reading on -/

/-- Reading does not end with a run before the last argument. -/
def GoesOn {α : Type} (reading : Reading α) : Prop := ∀ settings, reading ≠ .error (.run settings)

section
variable {α β : Type}

theorem goesOn_ok (a : α) : GoesOn (.ok a : Reading α) := fun _ h => by cases h

theorem goesOn_refuse (reason : Misuse) : GoesOn (refuse reason : Reading α) := fun _ h => by
  cases h

theorem GoesOn.error {e : Invocation} {reading : Reading α} (h : GoesOn reading)
    (he : reading = .error e) : GoesOn (.error e : Reading β) := fun settings heq =>
  h settings (he.trans (congrArg Except.error (Except.error.inj heq)))

theorem goesOn_ite {p : Prop} [Decidable p] {a b : Reading α} (ha : GoesOn a) (hb : GoesOn b) :
    GoesOn (if p then a else b) := by
  split
  · exact ha
  · exact hb

end

theorem goesOn_complete {reading : Reading Settings} (h : GoesOn reading) :
    GoesOn (complete reading) := by
  cases reading with
  | ok settings => exact goesOn_ok _
  | error invocation => exact h.error rfl

/-! ## One argument -/

theorem goesOn_setWrite (settings : Settings) : GoesOn (setWrite settings) :=
  goesOn_ite (goesOn_refuse _) (goesOn_ok _)

theorem goesOn_setCheck (settings : Settings) : GoesOn (setCheck settings) :=
  goesOn_ite (goesOn_refuse _) (goesOn_ok _)

theorem goesOn_setConfig (settings : Settings) (path : Path) : GoesOn (setConfig settings path) :=
  goesOn_ite (goesOn_refuse _) (goesOn_ite (goesOn_refuse _) (goesOn_ok _))

theorem goesOn_addPath (settings : Settings) (path : Path) : GoesOn (addPath settings path) :=
  goesOn_ite (goesOn_refuse _) (goesOn_ok _)

theorem goesOn_readLong (settings : Settings) (flag : Text) : GoesOn (readLong settings flag) := by
  have hhelp : GoesOn (.error .help : Reading Progress) := fun _ h => by cases h
  have hversion : GoesOn (.error .version : Reading Progress) := fun _ h => by cases h
  unfold readLong
  refine goesOn_ite (goesOn_ite (goesOn_refuse _) (goesOn_complete (goesOn_setWrite _))) ?_
  refine goesOn_ite (goesOn_ite (goesOn_refuse _) (goesOn_complete (goesOn_setCheck _))) ?_
  refine goesOn_ite (goesOn_ite (goesOn_refuse _) hhelp) ?_
  refine goesOn_ite (goesOn_ite (goesOn_refuse _) hversion) (goesOn_ite ?_ (goesOn_refuse _))
  split
  · exact goesOn_complete (goesOn_setConfig _ _)
  · exact goesOn_ok _

theorem goesOn_readShort (settings : Settings) (flags : Text) :
    GoesOn (readShort settings flags) := by
  fun_induction readShort settings flags with
  | case1 => exact goesOn_ok _
  | case2 _ _ _ _ ih => exact ih
  | case3 settings _ _ h => exact (goesOn_setWrite settings).error h
  | case4 => exact fun _ h => by cases h
  | case5 => exact fun _ h => by cases h
  | case6 => exact goesOn_ok _
  | case7 => exact goesOn_complete (goesOn_setConfig _ _)
  | case8 => exact goesOn_complete (goesOn_setConfig _ _)
  | case9 => exact goesOn_refuse _

theorem goesOn_readArgument (progress : Progress) (argument : Text) :
    GoesOn (readArgument progress argument) := by
  unfold readArgument
  refine goesOn_ite (goesOn_ite (goesOn_refuse _) (goesOn_complete (goesOn_setConfig _ _))) ?_
  split
  · exact goesOn_readLong _ _
  · exact goesOn_readShort _ _
  · exact goesOn_complete (goesOn_addPath _ _)

/-! ## All arguments -/

theorem goesOn_readPaths (settings : Settings) (paths : List Text) :
    GoesOn (readPaths settings paths) := by
  fun_induction readPaths settings paths with
  | case1 => exact goesOn_ok _
  | case2 _ _ _ _ _ ih => exact ih
  | case3 settings path _ _ h => exact (goesOn_addPath settings path).error h

theorem goesOn_readAll (progress : Progress) (arguments : List Text) :
    GoesOn (readAll progress arguments) := by
  induction arguments generalizing progress with
  | nil => exact goesOn_ite (goesOn_refuse _) (goesOn_ok _)
  | cons argument arguments ih =>
    unfold readAll
    refine goesOn_ite (goesOn_ite (goesOn_refuse _) (goesOn_readPaths _ _)) ?_
    cases h : readArgument progress argument with
    | ok progress => exact ih progress
    | error e => exact (goesOn_readArgument progress argument).error h

/-- A run has the settings that are left when all arguments have been read. -/
theorem readAll_of_ofArguments {arguments : List Text} {settings : Settings}
    (h : ofArguments arguments = .run settings) :
    readAll { settings := {} } arguments = .ok settings ∧
      (settings.write && settings.check) = false := by
  unfold ofArguments at h
  cases hread : readAll { settings := {} } arguments with
  | error invocation =>
    rw [hread] at h
    exact absurd (hread.trans (congrArg Except.error h)) (goesOn_readAll _ _ settings)
  | ok settings' =>
    rw [hread] at h
    dsimp only at h
    split at h
    · cases h
    · rename_i hboth
      obtain rfl := Invocation.run.inj h
      exact ⟨rfl, Bool.not_eq_true _ ▸ hboth⟩

/-- Overwriting and reporting exclude each other. -/
theorem check_eq_false_of_write {arguments : List Text} {settings : Settings}
    (h : ofArguments arguments = .run settings) (hwrite : settings.write = true) :
    settings.check = false := by
  obtain ⟨-, hboth⟩ := readAll_of_ofArguments h
  rw [hwrite, Bool.true_and] at hboth
  exact hboth

/-! ## What arguments say -/

/-- Whether an argument is a flag to overwrite files. -/
def isWrite (argument : Text) : Bool :=
  argument = "--write".toList || argument.take 2 = ['-', 'w']

/-- Whether an argument is the flag to report files. -/
def isCheck (argument : Text) : Bool := argument = "--check".toList

/-- Whether the value of the option is the argument behind this one. -/
def takesNext (argument : Text) : Bool :=
  argument = "--config".toList || argument = "-c".toList || argument = "-wc".toList

/-- The value of the option in letters behind a dash. -/
def valueOfLetters? : Text → Option Path
  | 'w' :: letters => valueOfLetters? letters
  | 'c' :: '=' :: path => some path
  | 'c' :: c :: path => some (c :: path)
  | _ => none

/-- The value of the option in the argument that holds the option itself. -/
def valueWithin? : Text → Option Path
  | '-' :: '-' :: flag =>
    if "config=".toList.isPrefixOf flag then some (flag.drop "config=".length) else none
  | '-' :: letters => valueOfLetters? letters
  | _ => none

/-- The arguments before a lone `--`. -/
def flags (arguments : List Text) : List Text := arguments.takeWhile (· ≠ ['-', '-'])

/-- The paths among arguments, the first of which may be the value of the option. -/
def pathsIn (isValue : Bool) : List Text → List Path
  | [] => []
  | argument :: arguments =>
    if argument = ['-', '-'] then arguments
    else if isValue then pathsIn false arguments
    else if isFlag argument then pathsIn (takesNext argument) arguments
    else argument :: pathsIn false arguments

/-- The value of the option among arguments, which the first of them may be. -/
def valueIn? (isValue : Bool) : List Text → Option Path
  | [] => none
  | argument :: arguments =>
    if argument = ['-', '-'] then none
    else if isValue then some argument
    else (valueWithin? argument).or (valueIn? (takesNext argument) arguments)

/-- What one more argument adds to the settings, and whether the next one is a value. -/
structure Adds (progress : Progress) (argument : Text) (next : Progress) : Prop where
  write : next.settings.write = (progress.settings.write || isWrite argument)
  check : next.settings.check = (progress.settings.check || isCheck argument)
  config : next.settings.config = progress.settings.config.or
    (if progress.awaitsValue then some argument else valueWithin? argument)
  paths : next.settings.paths = progress.settings.paths ++
    if progress.awaitsValue || isFlag argument then [] else [argument]
  awaitsValue : next.awaitsValue =
    (!progress.awaitsValue && isFlag argument && takesNext argument)

theorem complete_eq_ok_iff {reading : Reading Settings} {progress : Progress} :
    complete reading = .ok progress ↔ reading = .ok progress.settings ∧
      progress.awaitsValue = false := by
  obtain ⟨settings, awaitsValue⟩ := progress
  unfold complete
  cases reading with
  | error e => simp [Except.map]
  | ok settings' => simp [Except.map, eq_comm]

theorem setWrite_eq_ok_iff {settings next : Settings} : setWrite settings = .ok next ↔
    settings.write = false ∧ next = { settings with write := true } := by
  unfold setWrite refuse
  cases settings.write <;> simp [eq_comm]

theorem setCheck_eq_ok_iff {settings next : Settings} : setCheck settings = .ok next ↔
    settings.check = false ∧ next = { settings with check := true } := by
  unfold setCheck refuse
  cases settings.check <;> simp [eq_comm]

/-- The option is given once, and leaves the flags and the paths as they are. -/
theorem of_setConfig_eq_ok {settings next : Settings} {path : Path}
    (h : setConfig settings path = .ok next) :
    settings.config = none ∧ next = { settings with config := some path } := by
  unfold setConfig refuse at h
  split at h
  · cases h
  · rename_i hconfig
    split at h
    · cases h
    · exact ⟨by simpa using hconfig, (Except.ok.inj h).symm⟩

theorem of_addPath_eq_ok {settings next : Settings} {path : Path}
    (h : addPath settings path = .ok next) :
    next = { settings with paths := settings.paths ++ [path] } := by
  unfold addPath refuse at h
  split at h
  · cases h
  · exact (Except.ok.inj h).symm

/-- A long flag is its name, or its name and a value. -/
theorem eq_takeWhile_of_tail? {flag : Text} (h : (flag.dropWhile (· != '=')).tail? = none) :
    flag = flag.takeWhile (· != '=') := by
  have happend := List.takeWhile_append_dropWhile (p := (· != '=')) (l := flag)
  cases hrest : flag.dropWhile (· != '=') with
  | nil =>
    rw [hrest, List.append_nil] at happend
    exact happend.symm
  | cons c rest =>
    rw [hrest] at h
    cases h

/-- The option with a value is its name, an equals sign and the value. -/
theorem eq_append_of_tail? {flag name value : Text} (hname : flag.takeWhile (· != '=') = name)
    (h : (flag.dropWhile (· != '=')).tail? = some value) : flag = name ++ '=' :: value := by
  have happend := List.takeWhile_append_dropWhile (p := (· != '=')) (l := flag)
  cases hrest : flag.dropWhile (· != '=') with
  | nil =>
    rw [hrest] at h
    cases h
  | cons c rest =>
    have hc : c = '=' := by
      have hne : flag.dropWhile (· != '=') ≠ [] := by simp [hrest]
      simpa [hrest] using List.head_dropWhile_not (· != '=') hne
    rw [hrest] at h happend
    obtain rfl := Option.some.inj h
    rw [← happend, hname, hc]

theorem isWrite_long (flag : Text) :
    isWrite ('-' :: '-' :: flag) = decide (flag = "write".toList) := by
  have hname : "--write".toList = '-' :: '-' :: "write".toList := rfl
  unfold isWrite
  simp only [hname, List.cons.injEq, true_and]
  simp

theorem isCheck_long (flag : Text) :
    isCheck ('-' :: '-' :: flag) = decide (flag = "check".toList) := by
  have hname : "--check".toList = '-' :: '-' :: "check".toList := rfl
  unfold isCheck
  simp only [hname, List.cons.injEq, true_and]

theorem takesNext_long (flag : Text) :
    takesNext ('-' :: '-' :: flag) = decide (flag = "config".toList) := by
  have hname : "--config".toList = '-' :: '-' :: "config".toList := rfl
  have hshort : "-c".toList = ['-', 'c'] := rfl
  have hshorts : "-wc".toList = ['-', 'w', 'c'] := rfl
  have hdash : '-' ≠ 'c' ∧ '-' ≠ 'w' := by decide
  unfold takesNext
  simp only [hname, hshort, hshorts, List.cons.injEq, true_and, hdash.1, hdash.2, false_and,
    decide_false, Bool.or_false]

/-- A long flag that is accepted: one of the two flags, or the option with its value or without. -/
theorem of_readLong_eq_ok {settings : Settings} {flag : Text} {next : Progress}
    (h : readLong settings flag = .ok next) :
    (flag = "write".toList ∧ next = { settings := { settings with write := true } }) ∨
      (flag = "check".toList ∧ next = { settings := { settings with check := true } }) ∨
      (∃ path, flag = "config=".toList ++ path ∧ settings.config = none ∧
        next = { settings := { settings with config := some path } }) ∨
      (flag = "config".toList ∧ next = { settings, awaitsValue := true }) := by
  have hbare (hvalue : (flag.dropWhile (· != '=')).tail?.isSome ≠ true) {name : Text}
      (hname : flag.takeWhile (· != '=') = name) : flag = name :=
    (eq_takeWhile_of_tail? (by simpa using hvalue)).trans hname
  unfold readLong refuse at h
  dsimp only at h
  by_cases hwrite : flag.takeWhile (· != '=') = "write".toList
  · rw [if_pos hwrite] at h
    split at h
    · cases h
    · rename_i hvalue
      obtain ⟨hset, hawaits⟩ := complete_eq_ok_iff.1 h
      obtain ⟨-, hset⟩ := setWrite_eq_ok_iff.1 hset
      exact .inl ⟨hbare hvalue hwrite, Progress.ext hset hawaits⟩
  rw [if_neg hwrite] at h
  by_cases hcheck : flag.takeWhile (· != '=') = "check".toList
  · rw [if_pos hcheck] at h
    split at h
    · cases h
    · rename_i hvalue
      obtain ⟨hset, hawaits⟩ := complete_eq_ok_iff.1 h
      obtain ⟨-, hset⟩ := setCheck_eq_ok_iff.1 hset
      exact .inr (.inl ⟨hbare hvalue hcheck, Progress.ext hset hawaits⟩)
  rw [if_neg hcheck] at h
  by_cases hhelp : flag.takeWhile (· != '=') = "help".toList
  · rw [if_pos hhelp] at h
    split at h <;> cases h
  rw [if_neg hhelp] at h
  by_cases hversion : flag.takeWhile (· != '=') = "version".toList
  · rw [if_pos hversion] at h
    split at h <;> cases h
  rw [if_neg hversion] at h
  by_cases hconfig : flag.takeWhile (· != '=') = "config".toList
  · rw [if_pos hconfig] at h
    split at h
    · rename_i path hvalue
      obtain ⟨hset, hawaits⟩ := complete_eq_ok_iff.1 h
      obtain ⟨hnone, hset⟩ := of_setConfig_eq_ok hset
      exact .inr (.inr (.inl
        ⟨path, eq_append_of_tail? hconfig hvalue, hnone, Progress.ext hset hawaits⟩))
    · rename_i hvalue
      have hflag := (eq_takeWhile_of_tail? hvalue).trans hconfig
      exact .inr (.inr (.inr ⟨hflag, (Except.ok.inj h).symm⟩))
  · rw [if_neg hconfig] at h
    cases h

/-- A long flag adds what its name says; the option waits for its value if it is without. -/
theorem adds_long {settings : Settings} {flag : Text} {next : Progress}
    (hwrite : next.settings.write = (settings.write || decide (flag = "write".toList)))
    (hcheck : next.settings.check = (settings.check || decide (flag = "check".toList)))
    (hconfig : next.settings.config = settings.config.or (valueWithin? ('-' :: '-' :: flag)))
    (hpaths : next.settings.paths = settings.paths)
    (hawaits : next.awaitsValue = decide (flag = "config".toList)) :
    Adds { settings } ('-' :: '-' :: flag) next where
  write := by rw [hwrite, isWrite_long]
  check := by rw [hcheck, isCheck_long]
  config := hconfig
  paths := hpaths.trans (List.append_nil _).symm
  awaitsValue := by
    rw [hawaits, takesNext_long]
    rfl

theorem adds_readLong {settings : Settings} {flag : Text} {next : Progress}
    (h : readLong settings flag = .ok next) : Adds { settings } ('-' :: '-' :: flag) next := by
  rcases of_readLong_eq_ok h with ⟨rfl, rfl⟩ | ⟨rfl, rfl⟩ | ⟨path, rfl, hnone, rfl⟩ | ⟨rfl, rfl⟩
  · exact adds_long (by simp) (by simp) Option.or_none.symm rfl (by simp)
  · exact adds_long (by simp) (by simp) Option.or_none.symm rfl (by simp)
  · exact adds_long (by simp) (by simp) (hnone ▸ rfl) rfl (by simp)
  · exact adds_long (by simp) (by simp) Option.or_none.symm rfl (by simp)

/-- What letters behind a dash say; the letter to overwrite files stands there at most once. -/
theorem of_readShort_eq_ok {settings : Settings} {letters : Text} {next : Progress}
    (h : readShort settings letters = .ok next) :
    next.settings.write = (settings.write || decide (letters.head? = some 'w')) ∧
      next.settings.check = settings.check ∧
      next.settings.config = settings.config.or (valueOfLetters? letters) ∧
      next.settings.paths = settings.paths ∧
      (next.awaitsValue = true ↔ letters = ['c'] ∨ letters = ['w', 'c']) ∧
      (letters.head? = some 'w' → settings.write = false) := by
  fun_induction readShort settings letters with
  | case1 settings =>
    obtain rfl := Except.ok.inj h
    simp [valueOfLetters?]
  | case2 settings letters settings' hset ih =>
    obtain ⟨hwrite, rfl⟩ := setWrite_eq_ok_iff.1 hset
    obtain ⟨hnext, hcheck, hconfig, hpaths, hawaits, honce⟩ := ih h
    refine ⟨by simp [hnext], hcheck, hconfig, hpaths, ?_, fun _ => hwrite⟩
    rw [hawaits]
    refine ⟨?_, fun heq => .inl (by simpa using heq)⟩
    intro heq
    rcases heq with rfl | rfl
    · exact .inr rfl
    · exact absurd (honce rfl) (by simp)
  | case3 => cases h
  | case4 => cases h
  | case5 => cases h
  | case6 settings =>
    obtain rfl := Except.ok.inj h
    simp [valueOfLetters?]
  | case7 settings path =>
    obtain ⟨hset, hawaits⟩ := complete_eq_ok_iff.1 h
    obtain ⟨hnone, hset⟩ := of_setConfig_eq_ok hset
    simp [hset, hawaits, hnone, valueOfLetters?]
  | case8 settings path hvalue hequals =>
    obtain ⟨hset, hawaits⟩ := complete_eq_ok_iff.1 h
    obtain ⟨hnone, hset⟩ := of_setConfig_eq_ok hset
    obtain ⟨c, path, rfl⟩ := List.exists_cons_of_ne_nil hvalue
    have hne : c ≠ '=' := fun heq => hequals path (heq ▸ rfl)
    simp [hset, hawaits, hnone, valueOfLetters?]
  | case9 => cases h

theorem valueWithin?_short {c : Char} (hdash : c ≠ '-') (letters : Text) :
    valueWithin? ('-' :: c :: letters) = valueOfLetters? (c :: letters) := by
  unfold valueWithin?
  split
  · rename_i heq
    exact absurd (List.cons.inj (List.cons.inj heq).2).1 hdash
  · rename_i heq
    rw [(List.cons.inj heq).2]
  · rename_i hshort
    exact absurd rfl (hshort _)

theorem adds_readShort {settings : Settings} {c : Char} {letters : Text} (hdash : c ≠ '-')
    {next : Progress} (h : readShort settings (c :: letters) = .ok next) :
    Adds { settings } ('-' :: c :: letters) next := by
  obtain ⟨hwrite, hcheck, hconfig, hpaths, hawaits, -⟩ := of_readShort_eq_ok h
  have hlong (name : Text) : ('-' :: c :: letters = '-' :: '-' :: name) = False := by simp [hdash]
  refine ⟨?_, ?_, ?_, ?_, ?_⟩
  · have hname : "--write".toList = '-' :: '-' :: "write".toList := rfl
    rw [hwrite]
    unfold isWrite
    simp only [hname, hlong]
    simp
  · have hname : "--check".toList = '-' :: '-' :: "check".toList := rfl
    rw [hcheck]
    unfold isCheck
    simp only [hname, hlong, decide_false, Bool.or_false]
  · rw [hconfig, valueWithin?_short hdash]
    rfl
  · rw [hpaths]
    exact (List.append_nil _).symm
  · have hname : "--config".toList = '-' :: '-' :: "config".toList := rfl
    have hshort : "-c".toList = ['-', 'c'] := rfl
    have hshorts : "-wc".toList = ['-', 'w', 'c'] := rfl
    unfold takesNext
    rw [Bool.eq_iff_iff, hawaits]
    simp only [hname, hshort, hshorts, hlong]
    simp [isFlag]

theorem isWrite_eq_false_of_path {argument : Text} (h : isFlag argument = false) :
    isWrite argument = false := by
  refine Bool.eq_false_iff.2 fun hwrite => ?_
  rw [isWrite, Bool.or_eq_true] at hwrite
  rcases hwrite with hname | hletters
  · rw [of_decide_eq_true hname] at h
    cases h
  · rw [← List.take_append_drop 2 argument, of_decide_eq_true hletters] at h
    cases h

theorem isCheck_eq_false_of_path {argument : Text} (h : isFlag argument = false) :
    isCheck argument = false := by
  refine decide_eq_false fun hname => ?_
  rw [hname] at h
  cases h

theorem takesNext_eq_false_of_path {argument : Text} (h : isFlag argument = false) :
    takesNext argument = false := by
  refine Bool.eq_false_iff.2 fun hnext => ?_
  rw [takesNext, Bool.or_eq_true, Bool.or_eq_true] at hnext
  rcases hnext with (hname | hname) | hname
  · rw [of_decide_eq_true hname] at h
    cases h
  · rw [of_decide_eq_true hname] at h
    cases h
  · rw [of_decide_eq_true hname] at h
    cases h

theorem valueWithin?_eq_none_of_path {argument : Text} (h : isFlag argument = false) :
    valueWithin? argument = none := by
  unfold valueWithin?
  split
  · cases h
  · rename_i letters _
    cases letters with
    | nil => rfl
    | cons => cases h
  · rfl

/-- What one more argument adds. -/
theorem adds_readArgument {progress next : Progress} {argument : Text}
    (h : readArgument progress argument = .ok next) : Adds progress argument next := by
  obtain ⟨settings, awaitsValue⟩ := progress
  unfold readArgument refuse at h
  cases awaitsValue with
  | true =>
    rw [if_pos rfl] at h
    split at h
    · cases h
    · rename_i hflag
      have hflag := Bool.eq_false_iff.2 hflag
      obtain ⟨hset, hawaits⟩ := complete_eq_ok_iff.1 h
      obtain ⟨hnone, hset⟩ := of_setConfig_eq_ok hset
      refine ⟨?_, ?_, ?_, ?_, hawaits⟩
      · rw [hset, isWrite_eq_false_of_path hflag, Bool.or_false]
      · rw [hset, isCheck_eq_false_of_path hflag, Bool.or_false]
      · rw [hset, hnone]
        rfl
      · rw [hset]
        exact (List.append_nil _).symm
  | false =>
    rw [if_neg Bool.false_ne_true] at h
    split at h
    · exact adds_readLong h
    · rename_i hlong
      exact adds_readShort hlong h
    · rename_i hlong hshort
      have hflag : isFlag argument = false := by
        unfold isFlag
        split
        · exact absurd rfl (hshort _ _)
        · rfl
      obtain ⟨hset, hawaits⟩ := complete_eq_ok_iff.1 h
      have hset := of_addPath_eq_ok hset
      refine ⟨?_, ?_, ?_, ?_, ?_⟩
      · rw [hset, isWrite_eq_false_of_path hflag, Bool.or_false]
      · rw [hset, isCheck_eq_false_of_path hflag, Bool.or_false]
      · rw [hset, valueWithin?_eq_none_of_path hflag]
        exact Option.or_none.symm
      · rw [hset, hflag]
        rfl
      · rw [hawaits, hflag]
        rfl

/-! ## What all arguments say -/

theorem of_readPaths_eq_ok {settings next : Settings} {paths : List Text}
    (h : readPaths settings paths = .ok next) :
    next = { settings with paths := settings.paths ++ paths } := by
  induction paths generalizing settings with
  | nil =>
    obtain rfl := Except.ok.inj h
    rw [List.append_nil]
  | cons path paths ih =>
    unfold readPaths at h
    cases hadd : addPath settings path with
    | error e =>
      rw [hadd] at h
      cases h
    | ok settings' =>
      rw [hadd] at h
      rw [ih h, of_addPath_eq_ok hadd]
      simp

/-- What several arguments add. -/
theorem of_readAll_eq_ok {progress : Progress} {arguments : List Text} {settings : Settings}
    (h : readAll progress arguments = .ok settings) :
    settings.write = (progress.settings.write || (flags arguments).any isWrite) ∧
      settings.check = (progress.settings.check || (flags arguments).any isCheck) ∧
      settings.config = progress.settings.config.or (valueIn? progress.awaitsValue arguments) ∧
      settings.paths = progress.settings.paths ++ pathsIn progress.awaitsValue arguments := by
  induction arguments generalizing progress with
  | nil =>
    unfold readAll refuse at h
    split at h
    · cases h
    · obtain rfl := Except.ok.inj h
      simp [flags, valueIn?, pathsIn]
  | cons argument arguments ih =>
    unfold readAll refuse at h
    by_cases hdashes : argument = ['-', '-']
    · rw [if_pos hdashes] at h
      split at h
      · cases h
      · rw [of_readPaths_eq_ok h]
        simp [flags, valueIn?, pathsIn, hdashes]
    · rw [if_neg hdashes] at h
      cases hread : readArgument progress argument with
      | error e =>
        rw [hread] at h
        cases h
      | ok next =>
        rw [hread] at h
        obtain ⟨hwrite, hcheck, hconfig, hpaths⟩ := ih h
        obtain ⟨hwrite', hcheck', hconfig', hpaths', hawaits⟩ := adds_readArgument hread
        have hflags : flags (argument :: arguments) = argument :: flags arguments := by
          simp [flags, hdashes]
        refine ⟨?_, ?_, ?_, ?_⟩
        · rw [hwrite, hwrite', hflags, List.any_cons, Bool.or_assoc]
        · rw [hcheck, hcheck', hflags, List.any_cons, Bool.or_assoc]
        · rw [hconfig, hconfig', hawaits, valueIn?, if_neg hdashes, Option.or_assoc]
          cases progress.awaitsValue with
          | true => rfl
          | false =>
            cases hflag : isFlag argument with
            | true => rfl
            | false =>
              rw [takesNext_eq_false_of_path hflag]
              rfl
        · rw [hpaths, hpaths', hawaits, pathsIn, if_neg hdashes, List.append_assoc]
          cases progress.awaitsValue <;> cases isFlag argument <;> simp

/-- What the settings of a run say is what its arguments ask for. -/
structure Reads (arguments : List Text) (settings : Settings) : Prop where
  write : settings.write = true ↔
    ∃ flag ∈ flags arguments, flag = "--write".toList ∨ flag.take 2 = ['-', 'w']
  check : settings.check = true ↔ "--check".toList ∈ flags arguments
  config : settings.config = valueIn? false arguments
  paths : settings.paths = pathsIn false arguments

theorem reads_of_ofArguments {arguments : List Text} {settings : Settings}
    (h : ofArguments arguments = .run settings) : Reads arguments settings := by
  obtain ⟨hwrite, hcheck, hconfig, hpaths⟩ := of_readAll_eq_ok (readAll_of_ofArguments h).1
  refine ⟨?_, ?_, hconfig, hpaths⟩
  · rw [hwrite, Bool.false_or, List.any_eq_true]
    refine exists_congr fun flag => and_congr_right fun _ => ?_
    rw [isWrite, Bool.or_eq_true, decide_eq_true_iff, decide_eq_true_iff]
  · rw [hcheck, Bool.false_or, List.any_eq_true]
    refine ⟨fun hany => ?_, fun hmem => ⟨_, hmem, decide_eq_true rfl⟩⟩
    obtain ⟨flag, hmem, hflag⟩ := hany
    exact of_decide_eq_true hflag ▸ hmem

end Invocation

end InsertLayout
