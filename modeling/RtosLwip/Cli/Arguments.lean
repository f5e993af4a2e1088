import RtosLwip.Base.Arrays
import RtosLwip.Base.Strings
import RtosLwip.Cli.CommandLine
import Mathlib.Data.List.GetD

/-!
# The Array of the Arguments

`argc` and `argv` of `cmnCmdLine.c` as the array that they are: ten rows of 32 bytes that
keep what was in them. `Cli.CommandLine` says which texts are stored, and here the writes
into the array are made one by one. They stay inside of it, and what is in it afterwards is
the list of `Cli.CommandLine`.

That list is the words of the line which are short enough, and no more than fit, unless
the line begins with a blank. Then the first argument is a text without a character.

## Main definitions

* `Arguments`: `argc` and `argv`.
* `parseParameters`: `_cmdParseParameters` on the array.
* `Holds`: The array holds some texts, and no others.
* `runs`, `words`, `expected`: The words of a line, and those that are to be stored.

## Theorems

* `exists_storeArgument`: A store keeps to the array, and does what `getOneArgument` says.
* `exists_parseParameters`: The same of the whole parser.
* `parseLoop_eq`: What is stored from a line that does not begin with a blank.
* `expected_iff`: The array holds the words exactly if the line does not begin with a blank.
-/

namespace RtosLwip

namespace Cli

/-- `argc` and `argv`. -/
structure Arguments where
  argc : Nat
  argv : Rows maxArguments maxLength
  deriving DecidableEq, Repr

/-- `_extGetOneArgument`. -/
def storeArgument (s : Arguments) (word : List UInt8) : Option Arguments :=
  if s.argc < maxArguments ∧ word.length ≤ maxLength - 1 then do
    let argv ← s.argv.write s.argc 0 word
    let argv ← argv.write s.argc word.length [0]
    return ⟨s.argc + 1, argv⟩
  else
    some s

/-- The loop that clears the first byte of the rows from `i` on. -/
def clearRows (argv : Rows maxArguments maxLength) : List Nat →
    Option (Rows maxArguments maxLength)
  | [] => some argv
  | i :: rest => (argv.write i 0 [0]).bind fun argv => clearRows argv rest

/-- The loop of `_cmdParseParameters`, over what is left of the line. -/
def parseWords (s : Arguments) (word : List UInt8) (skipping : Bool) :
    List UInt8 → Option Arguments
  | [] => if word = [] then some s else storeArgument s word
  | c :: rest =>
      if isBlank c then
        if skipping then parseWords s [] true rest
        else (storeArgument s word).bind fun s => parseWords s [] true rest
      else
        parseWords s (word ++ [c]) false rest

/-- `_cmdParseParameters`. -/
def parseParameters (s : Arguments) (cmdStr : List UInt8) : Option Arguments := do
  let argv ← clearRows s.argv (List.range maxArguments)
  parseWords ⟨0, argv⟩ [] false (cstr cmdStr)

/-- The array holds the texts, and the rows behind them are empty. -/
structure Holds (texts : List (List UInt8)) (s : Arguments) : Prop where
  argc : s.argc = texts.length
  fits : texts.length ≤ maxArguments
  rows : ∀ i < maxArguments, IsText (s.argv.row i) (texts.getD i [])

/-- The longest runs of characters that are no blanks. -/
def runs (text : List UInt8) : List (List UInt8) := (text.splitOnP isBlank).filter (· ≠ [])

/-- The words of a line. -/
def words (line : List UInt8) : List (List UInt8) := runs (cstr line)

/-- The words that fit a row, as many as there are rows. -/
def expected (line : List UInt8) : List (List UInt8) :=
  ((words line).filter (·.length < maxLength)).take maxArguments

/-- The line begins with a space or a tab. -/
def StartsBlank : List UInt8 → Prop
  | [] => False
  | c :: _ => isBlank c

/-- The clearing loop reaches every row, and leaves empty texts. -/
theorem exists_clearRows (argv : Rows maxArguments maxLength) {is : List Nat}
    (h : ∀ i ∈ is, i < maxArguments) :
    ∃ argv', clearRows argv is = some argv' ∧
      (∀ i ∈ is, IsText (argv'.row i) []) ∧ ∀ i ∉ is, argv'.row i = argv.row i := by
  induction is generalizing argv with
  | nil => exact ⟨argv, rfl, nofun, fun _ _ => rfl⟩
  | cons i rest ih =>
      have hi := h i List.mem_cons_self
      have hinside : 0 + [(0 : UInt8)].length ≤ maxLength := by decide
      rcases Rows.exists_write argv hi hinside with ⟨argv₁, hwrite, hrow, hothers⟩
      rcases ih argv₁ fun k hk => h k (List.mem_cons_of_mem _ hk) with
        ⟨argv₂, hclear, hcleared, hkept⟩
      refine ⟨argv₂, ?_, fun k hk => ?_, fun k hk => ?_⟩
      · rw [clearRows, hwrite, Option.bind_some, hclear]
      · by_cases hrest : k ∈ rest
        · exact hcleared k hrest
        · -- the row is the one that was cleared first, and it is not written again
          have hki : k = i := (List.mem_cons.mp hk).resolve_right hrest
          rw [hkept k hrest, hki, hrow]
          exact @isText_of_append [] _ (List.forall_mem_nil _)
      · rw [List.mem_cons, not_or] at hk
        rw [hkept k hk.2, hothers k hk.1]

/-- Behind the clearing loop the array holds nothing. -/
theorem holds_cleared (argv : Rows maxArguments maxLength) :
    ∃ argv', clearRows argv (List.range maxArguments) = some argv' ∧ Holds [] ⟨0, argv'⟩ := by
  rcases exists_clearRows argv fun i hi => List.mem_range.mp hi with ⟨argv', hclear, htext, -⟩
  refine ⟨argv', hclear, rfl, Nat.zero_le _, fun i hi => ?_⟩
  rw [List.getD_nil]
  exact htext i (List.mem_range.mpr hi)

/-- One call of `_extGetOneArgument` stays in the array, and adds the text to it if there
    is a row for it and it is short enough. -/
theorem exists_storeArgument {texts : List (List UInt8)} {s : Arguments} (h : Holds texts s)
    {word : List UInt8} (hword : ∀ c ∈ word, c ≠ 0) :
    ∃ s', storeArgument s word = some s' ∧ Holds (getOneArgument texts word) s' := by
  unfold storeArgument getOneArgument
  rw [h.argc]
  split
  next hroom =>
    have hshort : word.length < maxLength := Nat.lt_of_le_pred (by decide) hroom.2
    have hinside : 0 + word.length ≤ maxLength := by omega
    have hnul : word.length + [(0 : UInt8)].length ≤ maxLength := hshort
    rcases Rows.exists_write s.argv hroom.1 hinside with ⟨argv₁, hcopy, hrow₁, hothers₁⟩
    rcases Rows.exists_write argv₁ hroom.1 hnul with ⟨argv₂, hstore, hrow₂, hothers₂⟩
    refine ⟨⟨texts.length + 1, argv₂⟩, ?_, ?_, ?_, fun i hi => ?_⟩
    · simp only [hcopy, hstore, Option.bind_eq_bind, Option.bind_some, Option.pure_def]
    · rw [List.length_append]
      rfl
    · rw [List.length_append]
      exact hroom.1
    · by_cases hlast : i = texts.length
      · -- the bytes of the word, and the NUL in the place behind them
        subst hlast
        rw [List.take_zero, List.nil_append, Nat.zero_add] at hrow₁
        rw [hrow₂, hrow₁, List.getD_append_right _ _ _ _ (Nat.le_refl _), Nat.sub_self,
          List.take_left, List.append_assoc]
        exact isText_of_append hword
      · rw [hothers₂ i hlast, hothers₁ i hlast]
        have hold := h.rows i hi
        by_cases hlt : i < texts.length
        · rwa [List.getD_append _ _ _ _ hlt]
        · rw [List.getD_eq_default _ _ (by omega)] at hold
          rwa [List.getD_eq_default _ _ (by rw [List.length_append, List.length_singleton]; omega)]
  next => exact ⟨s, rfl, h⟩

/-- The loop stays in the array, and leaves in it what the list model says. -/
theorem exists_parseWords {texts : List (List UInt8)} {s : Arguments} (h : Holds texts s)
    {word : List UInt8} (skipping : Bool) {line : List UInt8} (hword : ∀ c ∈ word, c ≠ 0)
    (hline : ∀ c ∈ line, c ≠ 0) :
    ∃ s', parseWords s word skipping line = some s' ∧
      Holds (parseLoop texts word skipping line) s' := by
  induction line generalizing texts s word skipping with
  | nil =>
      rw [parseWords, parseLoop]
      split
      · exact ⟨s, rfl, h⟩
      · exact exists_storeArgument h hword
  | cons c rest ih =>
      have hrest := List.forall_mem_of_forall_mem_cons hline
      rw [parseWords, parseLoop]
      split
      · split
        · exact ih h true (List.forall_mem_nil _) hrest
        · rcases exists_storeArgument h hword with ⟨s₁, hstore, hs₁⟩
          rw [hstore, Option.bind_some]
          exact ih hs₁ true (List.forall_mem_nil _) hrest
      · refine ih h false (fun b hb => ?_) hrest
        rcases List.mem_append.mp hb with hb | hb
        · exact hword b hb
        · exact hline b (List.mem_of_mem_head? (by rw [List.mem_singleton.mp hb]; rfl))

/-- The parser stays in the array, whatever was in it, and leaves in it what the list model
    says. -/
theorem exists_parseParameters (s : Arguments) (line : List UInt8) :
    ∃ s', parseParameters s line = some s' ∧ Holds (cmdParseParameters line) s' := by
  rcases holds_cleared s.argv with ⟨argv, hclear, hempty⟩
  have hline : ∀ c ∈ cstr line, c ≠ 0 := fun c hc => ne_zero_of_mem_cstr hc
  rcases exists_parseWords hempty false (List.forall_mem_nil _) hline with ⟨s', hparse, hs'⟩
  refine ⟨s', ?_, hs'⟩
  rw [parseParameters, hclear]
  exact hparse

/-- The array holds one list of texts only. -/
theorem Holds.unique {texts texts' : List (List UInt8)} {s : Arguments} (h : Holds texts s)
    (h' : Holds texts' s) : texts = texts' := by
  have hlen : texts.length = texts'.length := h.argc.symm.trans h'.argc
  refine List.ext_getElem hlen fun i hi hi' => ?_
  have hrow := h.rows i (Nat.lt_of_lt_of_le hi h.fits)
  have hrow' := h'.rows i (Nat.lt_of_lt_of_le hi h.fits)
  rw [List.getD_eq_getElem _ _ hi] at hrow
  rw [List.getD_eq_getElem _ _ hi'] at hrow'
  exact hrow.2.symm.trans hrow'.2

/-- Texts stored one after the other: the short ones, as long as there is room. -/
theorem foldl_getOneArgument (texts runs : List (List UInt8)) :
    runs.foldl getOneArgument texts =
      texts ++ (runs.filter (·.length < maxLength)).take (maxArguments - texts.length) := by
  induction runs generalizing texts with
  | nil => rw [List.filter_nil, List.take_nil, List.append_nil]; rfl
  | cons word rest ih =>
      rw [List.foldl_cons, ih, getOneArgument]
      by_cases hword : word.length < maxLength
      · rw [List.filter_cons_of_pos (by simpa using hword)]
        by_cases hroom : texts.length < maxArguments
        · have hleft : maxArguments - texts.length = maxArguments - (texts.length + 1) + 1 := by
            omega
          rw [if_pos ⟨hroom, Nat.le_sub_one_of_lt hword⟩, List.length_append,
            List.length_singleton, hleft, List.take_succ_cons, List.append_assoc]
          rfl
        · have hnone : maxArguments - texts.length = 0 := by omega
          rw [if_neg fun h => hroom h.1, hnone, List.take_zero, List.take_zero]
      · rw [if_neg fun h => hword (Nat.lt_of_le_pred (by decide) h.2),
          List.filter_cons_of_neg (by simpa using hword)]

/-- What the loop does with the rest of a line that it has not begun with a blank: either it
    is inside a word, or it passes over the blanks behind one. -/
theorem parseLoop_eq (texts : List (List UInt8)) {word : List UInt8} {skipping : Bool}
    (line : List UInt8) (hword : ∀ c ∈ word, isBlank c = false)
    (hskip : skipping = true ↔ word = []) :
    parseLoop texts word skipping line = (runs (word ++ line)).foldl getOneArgument texts := by
  induction line generalizing texts word skipping with
  | nil =>
      rw [parseLoop, List.append_nil, runs, List.splitOnP_eq_singleton hword]
      split
      next hnil => rw [hnil]; rfl
      next hne => rw [List.filter_cons_of_pos (by simpa using hne)]; rfl
  | cons c rest ih =>
      rw [parseLoop]
      split
      next hc =>
        have hsplit : (word ++ c :: rest).splitOnP isBlank = word :: rest.splitOnP isBlank :=
          List.splitOnP_append_cons_of_forall_mem hword c hc rest
        split
        next hskipping =>
          have hnil := hskip.mp hskipping
          rw [runs, hsplit, List.filter_cons_of_neg (by simpa using hnil)]
          exact ih texts (List.forall_mem_nil _) ⟨fun _ => rfl, fun _ => rfl⟩
        next hskipping =>
          have hne : word ≠ [] := fun hnil => hskipping (hskip.mpr hnil)
          rw [runs, hsplit, List.filter_cons_of_pos (by simpa using hne), List.foldl_cons]
          exact ih _ (List.forall_mem_nil _) ⟨fun _ => rfl, fun _ => rfl⟩
      next hc =>
        have hne : word ++ [c] ≠ [] := List.append_ne_nil_of_right_ne_nil _ (List.cons_ne_nil _ _)
        rw [List.append_cons word c rest]
        refine ih texts (fun b hb => ?_)
          ⟨fun h => absurd h Bool.false_ne_true, fun hnil => absurd hnil hne⟩
        rcases List.mem_append.mp hb with hb | hb
        · exact hword b hb
        · rw [List.mem_singleton.mp hb]
          exact Bool.eq_false_of_not_eq_true hc

theorem startsBlank_cstr (line : List UInt8) : StartsBlank (cstr line) ↔ StartsBlank line := by
  cases line with
  | nil => exact Iff.rfl
  | cons c rest =>
      by_cases hc : c = 0
      · subst hc
        exact ⟨False.elim, fun h => absurd (show isBlank 0 from h) (by decide)⟩
      · rw [cstr, List.takeWhile_cons_of_pos (by simpa using hc)]
        exact Iff.rfl

/-- A line that does not begin with a blank. -/
theorem cmdParseParameters_of_not_startsBlank {line : List UInt8} (h : ¬ StartsBlank line) :
    cmdParseParameters line = expected line := by
  rw [← startsBlank_cstr] at h
  rw [expected, words, cmdParseParameters]
  cases hline : cstr line with
  | nil => rfl
  | cons c rest =>
      rw [hline] at h
      have hne : ¬ isBlank c = true := h
      have hc : isBlank c = false := Bool.eq_false_of_not_eq_true hne
      have hword : ∀ b ∈ [c], isBlank b = false := List.forall_mem_singleton.mpr hc
      rw [parseLoop, if_neg hne, List.nil_append, parseLoop_eq [] rest hword (by simp),
        foldl_getOneArgument]
      rfl

/-- A line that begins with a blank: its first argument has no character. -/
theorem cmdParseParameters_of_startsBlank {line : List UInt8} (h : StartsBlank line) :
    [[]] <+: cmdParseParameters line := by
  rw [← startsBlank_cstr] at h
  rw [cmdParseParameters]
  cases hline : cstr line with
  | nil => rw [hline] at h; exact h.elim
  | cons c rest =>
      rw [hline] at h
      have hc : isBlank c = true := h
      rw [parseLoop, if_pos hc, if_neg Bool.false_ne_true]
      exact prefix_parseLoop [[]] [] true rest

/-- No word is without a character. -/
theorem nil_not_mem_expected (line : List UInt8) : [] ∉ expected line := by
  intro h
  have hmem := List.mem_of_mem_filter (List.mem_of_mem_take h)
  exact absurd rfl (of_decide_eq_true (List.mem_filter.mp hmem).2)

/-- `_cmdParseParameters` stays in the array, and the array holds the words of the line behind
    it if and only if the line does not begin with a blank. -/
theorem expected_iff (s : Arguments) (line : List UInt8) :
    ∃ s', parseParameters s line = some s' ∧
      (Holds (expected line) s' ↔ ¬ StartsBlank line) := by
  rcases exists_parseParameters s line with ⟨s', hparse, hholds⟩
  refine ⟨s', hparse, fun h hblank => ?_, fun hblank => ?_⟩
  · have hfirst := cmdParseParameters_of_startsBlank hblank
    rw [hholds.unique h] at hfirst
    exact nil_not_mem_expected line (hfirst.subset List.mem_cons_self)
  · rwa [← cmdParseParameters_of_not_startsBlank hblank]

/-- The array before the first line. -/
def noArguments : Arguments := ⟨0, Vector.replicate _ (Vector.replicate _ 0)⟩

/-- ` a`: two arguments where there is one word. -/
theorem expected_blank_a :
    ∃ s', parseParameters noArguments [32, 97] = some s' ∧
      s'.argc = 2 ∧ expected [32, 97] = [[97]] ∧ ¬ Holds (expected [32, 97]) s' := by
  rcases exists_parseParameters noArguments [32, 97] with ⟨s', hparse, hholds⟩
  have htwo : cmdParseParameters [32, 97] = [[], [97]] := by decide
  have hone : expected [32, 97] = [[97]] := by decide
  rw [htwo] at hholds
  refine ⟨s', hparse, hholds.argc, hone, fun h => ?_⟩
  rw [hone] at h
  exact absurd (hholds.unique h) (by decide)

end Cli

end RtosLwip
