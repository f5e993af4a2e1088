import RtosLwip.Base.Text

/-!
# The Command Line

`cmnCmdLine.c`. A line is cut into its arguments, the command its first argument
stands for is looked up in the table, and the callback of the command writes one
part of the output. As long as the callback reports that there is more to come,
the command is kept in a static variable, and whatever line is given next, the
callback of that command is run again.

The table and its callbacks are those of the program at hand: there is one for the
bootloader, one for the RTOS and one for the simulator. What a callback returns and
what it writes is part of the input of a call.

## Main definitions

* `cmdParseParameters`, `cmnCmdLineProcess`: The functions of the source.
* `firstWord`, `commandFor`: The first word of a line, and the command it asks for.
* `Plain`: A line that starts with a word which can be stored.

## Theorems

* `called_of_idle`: A plain line runs the command it asks for if none is in progress.
* `called_of_inProgress`: A command in progress is run whatever the line says.
* `called_of_unworded`: Without a first argument it is the first command of the table.
* `currentCmd_eq_none_iff`: A command is in progress as long as it has more to come.
-/

namespace RtosLwip

namespace Cli

/-- `EXT_CMD_MAX_ARGUMENTS`. -/
def maxArguments : Nat := 10

/-- `EXT_CMD_MAX_LENGTH`. -/
def maxLength : Nat := 32

/-- A space or `ASCII_KEY_TAB`. -/
def isBlank (c : UInt8) : Bool := c = 32 || c = 9

/-- `_extGetOneArgument` of what is between `start` and `end`. The arguments stored
    so far are as many as `argc` says. -/
def getOneArgument (argv : List (List UInt8)) (word : List UInt8) : List (List UInt8) :=
  if argv.length < maxArguments ∧ word.length ≤ maxLength - 1 then argv ++ [word] else argv

/-- The loop of `_cmdParseParameters`. `word` is what is between `start` and `cmdStr`,
    and `skipping` says that the inner loop is on, which passes over the blanks behind
    the one that has ended an argument. -/
def parseLoop (argv : List (List UInt8)) (word : List UInt8) (skipping : Bool) :
    List UInt8 → List (List UInt8)
  | [] => if word = [] then argv else getOneArgument argv word
  | c :: rest =>
      if isBlank c then
        if skipping then parseLoop argv [] true rest
        -- a blank at the start of the line ends an argument without a byte
        else parseLoop (getOneArgument argv word) [] true rest
      else
        parseLoop argv (word ++ [c]) false rest

/-- `_cmdParseParameters`: the arguments that are stored. -/
def cmdParseParameters (cmdStr : List UInt8) : List (List UInt8) :=
  parseLoop [] [] false (cstr cmdStr)

/-- `argv[0]`, which is the empty text if there is no argument. -/
def firstArgument (argv : List (List UInt8)) : List UInt8 := argv.headD []

/-- `EXT_CLI_CMD_T`: an entry of the table. -/
structure ExtCliCmd (κ : Type) where
  name : List UInt8
  callback : κ
  deriving DecidableEq, Repr

/-- What a callback returns, and the text it leaves in `outBuffer`. -/
structure Answer where
  ret : UInt8
  outBuffer : List UInt8
  deriving DecidableEq, Repr

/-- `argv` and `currentCmd`, which all callers share. -/
structure CommandLine (κ : Type) where
  argv : List (List UInt8)
  currentCmd : Option (ExtCliCmd κ)
  deriving DecidableEq, Repr

/-- What a call of `cmnCmdLineProcess` returns, writes and runs. -/
structure Processed (κ : Type) where
  ret : UInt8
  outBuffer : List UInt8
  called : Option κ
  line : CommandLine κ
  deriving DecidableEq, Repr

/-- The text for a line that names no command. -/
def notRecognised (cmdInput : List UInt8) : List UInt8 :=
  ascii "Command '" ++ cmdInput ++
    ascii "' not recognised.  Enter 'help' to view a list of available commands.\r\n\r\n"

variable {κ : Type}

/-- The search through `extCmds`. -/
def searchCmd (extCmds : List (ExtCliCmd κ)) (argv0 : List UInt8) : Option (ExtCliCmd κ) :=
  extCmds.find? fun cmd => strncmpEq argv0 cmd.name argv0.length

/-- `cmnCmdLineProcess`. -/
def cmnCmdLineProcess (extCmds : List (ExtCliCmd κ)) (answer : Answer) (cmdInput : List UInt8)
    (bufferSize : Nat) (s : CommandLine κ) : Processed κ :=
  let argv := cmdParseParameters cmdInput
  match s.currentCmd.or (searchCmd extCmds (firstArgument argv)) with
  | some cmd =>
      { ret := answer.ret
        outBuffer := cstr answer.outBuffer
        called := some cmd.callback
        line := ⟨argv, if answer.ret = 0 then none else some cmd⟩ }
  | none =>
      { ret := 0
        outBuffer := (notRecognised (cstr cmdInput)).take (bufferSize - 1)
        called := none
        line := ⟨argv, none⟩ }

/-- The first word of a line. -/
def firstWord (line : List UInt8) : Option (List UInt8) :=
  match ((cstr line).dropWhile isBlank).takeWhile (!isBlank ·) with
  | [] => none
  | word => some word

/-- The first command of the table whose name starts with the first word of a line. -/
def commandFor (extCmds : List (ExtCliCmd κ)) (line : List UInt8) : Option (ExtCliCmd κ) :=
  (firstWord line).bind fun word => extCmds.find? fun cmd => word.isPrefixOf cmd.name

/-- What a line starts with, up to its first blank. -/
def leadingWord (line : List UInt8) : List UInt8 := (cstr line).takeWhile (!isBlank ·)

/-- The line starts with a word, and the word can be stored. -/
def Plain (line : List UInt8) : Prop :=
  leadingWord line ≠ [] ∧ (leadingWord line).length < maxLength

instance (line : List UInt8) : Decidable (Plain line) :=
  inferInstanceAs (Decidable (_ ∧ _))

/-- What is stored stays stored. -/
theorem prefix_parseLoop (argv : List (List UInt8)) (word : List UInt8) (skipping : Bool)
    (text : List UInt8) : argv <+: parseLoop argv word skipping text := by
  have hone : ∀ (argv : List (List UInt8)) word, argv <+: getOneArgument argv word := by
    intro argv word
    unfold getOneArgument
    split
    · exact List.prefix_append _ _
    · exact List.prefix_rfl
  induction text generalizing argv word skipping with
  | nil =>
      rw [parseLoop]
      split
      · exact List.prefix_rfl
      · exact hone argv word
  | cons c rest ih =>
      rw [parseLoop]
      split
      · split
        · exact ih argv [] true
        · exact (hone argv word).trans (ih _ [] true)
      · exact ih argv (word ++ [c]) false

theorem firstArgument_of_prefix {argv : List (List UInt8)} {word : List UInt8}
    (h : [word] <+: argv) : firstArgument argv = word := by
  rcases h with ⟨rest, rfl⟩
  rfl

/-- The first argument is what the line starts with, if that can be stored. -/
theorem firstArgument_parseLoop (word text : List UInt8)
    (hne : word ++ text.takeWhile (!isBlank ·) ≠ [])
    (hlen : (word ++ text.takeWhile (!isBlank ·)).length < maxLength) :
    firstArgument (parseLoop [] word false text) = word ++ text.takeWhile (!isBlank ·) := by
  have hone : ∀ word : List UInt8, word.length < maxLength → getOneArgument [] word = [word] := by
    intro word hword
    exact if_pos ⟨by decide, Nat.le_pred_of_lt hword⟩
  induction text generalizing word with
  | nil =>
      rw [List.takeWhile_nil, List.append_nil] at hne hlen ⊢
      rw [parseLoop, if_neg hne, hone word hlen]
      rfl
  | cons c rest ih =>
      rw [parseLoop]
      by_cases hc : isBlank c
      · -- the word ends here, and what is behind it is stored behind it
        rw [List.takeWhile_cons_of_neg (by simp [hc]), List.append_nil] at hne hlen ⊢
        rw [if_pos hc, if_neg Bool.false_ne_true, hone word hlen]
        exact firstArgument_of_prefix (prefix_parseLoop [word] [] true rest)
      · have htake : (c :: rest).takeWhile (!isBlank ·) = c :: rest.takeWhile (!isBlank ·) :=
          List.takeWhile_cons_of_pos (by simp [hc])
        rw [htake, List.append_cons word c (rest.takeWhile _)] at hne hlen ⊢
        rw [if_neg hc]
        exact ih (word ++ [c]) hne hlen

theorem firstArgument_of_plain {line : List UInt8} (h : Plain line) :
    firstArgument (cmdParseParameters line) = leadingWord line :=
  firstArgument_parseLoop [] (cstr line) h.1 h.2

/-- A line without a word in front has the empty text for its first argument. -/
theorem firstArgument_of_unworded {line : List UInt8} (h : leadingWord line = []) :
    firstArgument (cmdParseParameters line) = [] := by
  unfold cmdParseParameters
  unfold leadingWord at h
  cases htext : cstr line with
  | nil => rfl
  | cons c rest =>
      rw [htext] at h
      have hc : isBlank c := by
        by_contra hc
        rw [List.takeWhile_cons_of_pos (by simp [hc])] at h
        exact List.cons_ne_nil _ _ h
      rw [parseLoop, if_pos hc, if_neg Bool.false_ne_true]
      exact firstArgument_of_prefix (prefix_parseLoop [[]] [] true rest)

theorem firstWord_of_leadingWord {line : List UInt8} (h : leadingWord line ≠ []) :
    firstWord line = some (leadingWord line) := by
  have hdrop : (cstr line).dropWhile isBlank = cstr line := by
    unfold leadingWord at h
    cases htext : cstr line with
    | nil => rfl
    | cons c rest =>
        rw [htext] at h
        refine List.dropWhile_cons_of_neg fun hc => h ?_
        exact List.takeWhile_cons_of_neg (by simp [hc])
  unfold firstWord
  rw [hdrop]
  split
  · exact absurd ‹_› h
  · rfl

theorem commandFor_cstr (extCmds : List (ExtCliCmd κ)) (line : List UInt8) :
    commandFor extCmds (cstr line) = commandFor extCmds line := by
  have htwice : cstr (cstr line) = cstr line :=
    cstr_of_nul_free fun c hc => ne_zero_of_mem_cstr hc
  rw [commandFor, commandFor, firstWord, firstWord, htwice]

/-- `strncmp` over the length of a text finds no difference where the text is the
    start of the other. -/
theorem strncmpEq_length (word name : List UInt8) :
    strncmpEq word name word.length = word.isPrefixOf name := by
  rw [Bool.eq_iff_iff, List.isPrefixOf_iff_prefix, List.prefix_iff_eq_take, strncmpEq,
    List.take_length, decide_eq_true_iff]

section Calls

variable (extCmds : List (ExtCliCmd κ)) (answer : Answer) (line : List UInt8) (bufferSize : Nat)
  (s : CommandLine κ)

/-- A plain line runs the command it asks for if none is in progress. -/
theorem called_of_idle (hplain : Plain line) (hidle : s.currentCmd = none) :
    (cmnCmdLineProcess extCmds answer line bufferSize s).called =
      (commandFor extCmds line).map (·.callback) := by
  have hfound : searchCmd extCmds (firstArgument (cmdParseParameters line)) =
      commandFor extCmds line := by
    rw [firstArgument_of_plain hplain, commandFor, firstWord_of_leadingWord hplain.1, searchCmd,
      Option.bind_some]
    simp only [strncmpEq_length]
  rw [cmnCmdLineProcess, hidle, Option.none_or, hfound]
  cases commandFor extCmds line with
  | none => rfl
  | some cmd => rfl

/-- A command in progress is run whatever the line says. -/
theorem called_of_inProgress {cmd : ExtCliCmd κ} (h : s.currentCmd = some cmd) :
    (cmnCmdLineProcess extCmds answer line bufferSize s).called = some cmd.callback := by
  rw [cmnCmdLineProcess, h]
  rfl

/-- A line with nothing or a blank in front runs the first command of the table. -/
theorem called_of_unworded (hline : leadingWord line = []) (hidle : s.currentCmd = none) :
    (cmnCmdLineProcess extCmds answer line bufferSize s).called =
      extCmds.head?.map (·.callback) := by
  -- the empty text is what every name starts with
  have hfound : searchCmd extCmds (firstArgument (cmdParseParameters line)) = extCmds.head? := by
    rw [firstArgument_of_unworded hline, searchCmd]
    cases extCmds with
    | nil => rfl
    | cons cmd rest => rfl
  rw [cmnCmdLineProcess, hidle, Option.none_or, hfound]
  cases extCmds.head? with
  | none => rfl
  | some cmd => rfl

/-- A command is in progress as long as it has more to come. -/
theorem currentCmd_eq_none_iff :
    (cmnCmdLineProcess extCmds answer line bufferSize s).line.currentCmd = none ↔
      (cmnCmdLineProcess extCmds answer line bufferSize s).ret = 0 := by
  unfold cmnCmdLineProcess
  dsimp only
  split
  · by_cases hret : answer.ret = 0
    · simp [hret]
    · simp [hret]
  · simp

/-- There is more to come only if the callback says so. -/
theorem answer_of_ret_ne_zero
    (h : (cmnCmdLineProcess extCmds answer line bufferSize s).ret ≠ 0) :
    answer.ret ≠ 0 ∧
      (cmnCmdLineProcess extCmds answer line bufferSize s).outBuffer = cstr answer.outBuffer := by
  unfold cmnCmdLineProcess at h ⊢
  dsimp only at h ⊢
  split at h
  · exact ⟨h, rfl⟩
  · exact absurd rfl h

end Calls

end Cli

end RtosLwip
