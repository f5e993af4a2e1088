import RtosLwip.Base.Numerals
import RtosLwip.Cmd.Lookups

/-!
# The Tokens of What Is Printed

A text that is printed is made of brackets, colons and commas, strings in quotes and
numbers. If no string holds a quote or a backslash, the tokenizer finds one token for
each string and each number, with the same characters, and the lookups find behind a
key what was printed behind it.

The tokenizer is followed piece by piece, each at its position in the whole text.

## Main definitions

* `Lexeme`: A piece of a text that holds no bracket.
* `Content`: What a token stands for.
* `Shows`: A token stands for it.
* `filled`: A token array with some tokens in it, and nothing behind them.
* `jsmnScan`: The loop of the tokenizer with enough rounds.
* `afterKey`: What follows a key in a list of contents.
* `Field`, `fieldsLex`: Keys with their values.

## Theorems

* `jsmnScan_lexemes`: The tokens of the pieces of a text.
* `close_filled`: A bracket closes the last one that is open.
* `value_filled`: The lookups find what follows a key.
* `afterKey_fields`: What follows a key is its value.
-/

namespace RtosLwip

namespace Cmd

/-- A piece of a text that holds no bracket. -/
inductive Lexeme where
  | colon
  | comma
  | string (s : List UInt8)
  | number (n : Nat)

/-- What a token stands for. -/
inductive Content where
  | object
  | array
  | string (s : List UInt8)
  | number (n : Nat)
  deriving DecidableEq

def Lexeme.text : Lexeme → List UInt8
  | colon => [58]
  | comma => [44]
  | string s => quoted s
  | number n => dec n

def Lexeme.content : Lexeme → Option Content
  | colon => none
  | comma => none
  | string s => some (.string s)
  | number n => some (.number n)

/-- The characters of a text that is made of pieces. -/
def lexText (l : List Lexeme) : List UInt8 := l.flatMap Lexeme.text

/-- What its tokens stand for. -/
def lexContents (l : List Lexeme) : List Content := l.filterMap Lexeme.content

/-- A string that is printed as it is. -/
def Plain (s : List UInt8) : Prop := ∀ c ∈ s, c ≠ 0 ∧ c ≠ 34 ∧ c ≠ 92

/-- The text goes on with what ends a primitive. -/
def EndsPrimitive (rest : List UInt8) : Prop := ∃ c t, rest = c :: t ∧ isDelimiter c = true

/-- The strings are plain, and every number comes to an end. -/
def Readable : List Lexeme → List UInt8 → Prop
  | [], _ => True
  | .colon :: l, rest => Readable l rest
  | .comma :: l, rest => Readable l rest
  | .string s :: l, rest => Plain s ∧ Readable l rest
  | .number _ :: l, rest => EndsPrimitive (lexText l ++ rest) ∧ Readable l rest

/-- A token of a text in memory stands for something. -/
def Shows (mem : List UInt8) (tok : Jsmntok) : Content → Prop
  | .object => tok.type = .object
  | .array => tok.type = .array
  | .string s => tok.type = .string ∧ tok.length = s.length ∧
      (mem.drop tok.start).take s.length = s ∧ Plain s
  | .number n => tok.type = .primitive ∧ scanInt (mem.drop tok.start) = some (n : Int)

/-- A token array of 100 tokens of which some are used, with nothing behind them. -/
def filled (used : List Jsmntok) : Tokens :=
  ⟨used ++ List.replicate (100 - used.length) .zero, used.length⟩

theorem alloc_filled {used : List Jsmntok} (h : used.length < 100) (t : Jsmntok) :
    (filled used).alloc t = some (filled (used ++ [t])) := by
  have hrep : List.replicate (100 - used.length) Jsmntok.zero =
      .zero :: List.replicate (100 - (used ++ [t]).length) .zero := by
    rw [← List.replicate_succ, List.length_append, List.length_singleton]
    congr 1
    omega
  have hsize : ¬ (filled used).tokens.length ≤ (filled used).toknext := by
    unfold filled
    rw [List.length_append, List.length_replicate]
    dsimp only
    omega
  unfold Tokens.alloc
  rw [if_neg hsize]
  unfold filled
  dsimp only
  rw [hrep, List.set_append_right _ _ (Nat.le_refl _), Nat.sub_self, List.set_cons_zero,
    List.append_assoc, List.length_append, List.length_singleton]
  rfl

section Loop

theorem le_of_jsmnParsePrimitive {js : List UInt8} {pos stop : Nat}
    (h : jsmnParsePrimitive js pos = .ok stop) : pos ≤ stop := by
  induction js generalizing pos with
  | nil =>
      cases h
      exact Nat.le_refl _
  | cons c rest ih =>
      unfold jsmnParsePrimitive at h
      split at h
      · cases h
        exact Nat.le_refl _
      · split at h
        · cases h
        · exact Nat.le_of_succ_le (ih h)

/-- Rounds that are left over do nothing. -/
theorem jsmnLoop_fuel {fuel fuel' : Nat} {js : List UInt8} (h : js.length ≤ fuel)
    (h' : js.length ≤ fuel') (pos : Nat) (s : Tokens) :
    jsmnLoop fuel js pos s = jsmnLoop fuel' js pos s := by
  induction fuel generalizing fuel' js pos s with
  | zero =>
      have hnil : js = [] := List.length_eq_zero_iff.mp (Nat.le_zero.mp h)
      subst hnil
      cases fuel' <;> rfl
  | succ fuel ih =>
      rcases js with _ | ⟨c, rest⟩
      · cases fuel' <;> rfl
      obtain ⟨fuel', rfl⟩ : ∃ k, fuel' = k + 1 := ⟨fuel' - 1, by simp at h'; omega⟩
      rw [List.length_cons, Nat.add_le_add_iff_right] at h h'
      have hdrop : ∀ (k pos : Nat) (s : Tokens),
          jsmnLoop fuel (rest.drop k) pos s = jsmnLoop fuel' (rest.drop k) pos s := by
        intro k pos s
        exact ih (by rw [List.length_drop]; omega) (by rw [List.length_drop]; omega) pos s
      have hrest := fun pos s => hdrop 0 pos s
      simp only [List.drop_zero] at hrest
      unfold jsmnLoop
      simp only [hrest, hdrop]
      by_cases hprim : c = 0 ∨ isDelimiter c = true
      · rcases hprim with hnul | hdelim
        · rw [if_pos hnul, if_pos hnul]
        · simp only [if_pos hdelim]
      · rw [not_or] at hprim
        cases hparse : jsmnParsePrimitive (c :: rest) pos with
        | error e => rfl
        | ok stop =>
            -- a primitive has at least one character
            have hpos : pos < stop := by
              unfold jsmnParsePrimitive at hparse
              rw [if_neg (not_or.mpr hprim)] at hparse
              split at hparse
              · cases hparse
              · exact le_of_jsmnParsePrimitive hparse
            obtain ⟨k, hk⟩ : ∃ k, stop - pos = k + 1 := ⟨stop - pos - 1, by omega⟩
            simp only [hk, List.drop_succ_cons, hdrop]

end Loop

/-- The loop of the tokenizer, with enough rounds. -/
def jsmnScan (js : List UInt8) (pos : Nat) (s : Tokens) : Tokens × Option JsmnErr :=
  jsmnLoop js.length js pos s

theorem jsmnLoop_eq_scan {fuel : Nat} {js : List UInt8} (h : js.length ≤ fuel) (pos : Nat)
    (s : Tokens) : jsmnLoop fuel js pos s = jsmnScan js pos s :=
  jsmnLoop_fuel h (Nat.le_refl _) pos s

section Scan

variable {used : List Jsmntok} (pos : Nat)

/-- A colon or a comma is passed over. -/
theorem jsmnScan_delimiter {c : UInt8} (h : c = 58 ∨ c = 44) (rest : List UInt8) (s : Tokens) :
    jsmnScan (c :: rest) pos s = jsmnScan rest (pos + 1) s := by
  unfold jsmnScan
  rw [List.length_cons, jsmnLoop]
  rcases h with rfl | rfl <;> rfl

/-- An opening bracket. -/
theorem jsmnScan_open {c : UInt8} (h : c = 123 ∨ c = 91) (rest : List UInt8)
    (hcap : used.length < 100) :
    jsmnScan (c :: rest) pos (filled used) = jsmnScan rest (pos + 1)
      (filled (used ++ [⟨if c = 123 then .object else .array, pos, none⟩])) := by
  unfold jsmnScan
  rw [List.length_cons, jsmnLoop]
  rcases h with rfl | rfl <;> simp [alloc_filled hcap]

/-- A closing bracket. -/
theorem jsmnScan_close {c : UInt8} (h : c = 125 ∨ c = 93) (rest : List UInt8) {s s' : Tokens}
    (hclose : s.close (if c = 125 then .object else .array) (pos + 1) = .ok s') :
    jsmnScan (c :: rest) pos s = jsmnScan rest (pos + 1) s' := by
  unfold jsmnScan
  rw [List.length_cons, jsmnLoop]
  rcases h with rfl | rfl
  · rw [if_neg (by decide), if_neg (by decide), if_pos (Or.inl rfl), hclose]
  · rw [if_neg (by decide), if_neg (by decide), if_pos (Or.inr rfl), hclose]

theorem jsmnParseString_plain {s : List UInt8} (h : Plain s) (rest : List UInt8) :
    jsmnParseString (s ++ 34 :: rest) pos 0 = .ok (pos + s.length) := by
  induction s generalizing pos with
  | nil =>
      rw [List.nil_append, jsmnParseString.eq_def]
      rfl
  | cons c s ih =>
      obtain ⟨hnul, hquote, hslash⟩ := h c List.mem_cons_self
      rw [List.cons_append, jsmnParseString.eq_def]
      dsimp only
      rw [if_neg hnul, if_neg hquote, if_neg hslash,
        ih (pos + 1) fun x hx => h x (List.mem_cons_of_mem c hx), List.length_cons]
      congr 1
      omega

/-- A string whose end is found. -/
theorem jsmnScan_quoted {s rest : List UInt8}
    (hparse : jsmnParseString (s ++ 34 :: rest) (pos + 1) 0 = .ok (pos + 1 + s.length))
    (hcap : used.length < 100) :
    jsmnScan (quoted s ++ rest) pos (filled used) = jsmnScan rest (pos + (s.length + 2))
      (filled (used ++ [⟨.string, pos + 1, some (pos + 1 + s.length)⟩])) := by
  have hsplit : quoted s ++ rest = 34 :: (s ++ 34 :: rest) := by
    simp [quoted]
  have hdrop : (s ++ 34 :: rest).drop (pos + 1 + s.length - pos) = rest := by
    have hlen : pos + 1 + s.length - pos = s.length + 1 := by omega
    rw [hlen, ← List.drop_drop, List.drop_left, List.drop_succ_cons, List.drop_zero]
  rw [hsplit]
  conv_lhs => unfold jsmnScan
  rw [List.length_cons, jsmnLoop]
  simp only [if_neg (show ¬ (34 : UInt8) = 0 by decide),
    if_neg (show ¬ ((34 : UInt8) = 123 ∨ (34 : UInt8) = 91) by decide),
    if_neg (show ¬ ((34 : UInt8) = 125 ∨ (34 : UInt8) = 93) by decide), if_true,
    hparse, alloc_filled hcap, hdrop]
  rw [jsmnLoop_eq_scan (by rw [List.length_append, List.length_cons]; omega)]
  congr 1
  omega

theorem jsmnScan_string {s : List UInt8} (h : Plain s) (rest : List UInt8)
    (hcap : used.length < 100) :
    jsmnScan (quoted s ++ rest) pos (filled used) = jsmnScan rest (pos + (s.length + 2))
      (filled (used ++ [⟨.string, pos + 1, some (pos + 1 + s.length)⟩])) :=
  jsmnScan_quoted pos (jsmnParseString_plain _ h rest) hcap

/-- A primitive whose end is found. -/
theorem jsmnScan_primitive {c : UInt8} {w rest : List UInt8}
    (hend : ¬ (c = 0 ∨ isDelimiter c = true)) (hopen : ¬ (c = 123 ∨ c = 91))
    (hclose : ¬ (c = 125 ∨ c = 93)) (hquote : c ≠ 34)
    (hparse : jsmnParsePrimitive (c :: w ++ rest) pos = .ok (pos + (c :: w).length))
    (hcap : used.length < 100) :
    jsmnScan (c :: w ++ rest) pos (filled used) = jsmnScan rest (pos + (c :: w).length)
      (filled (used ++ [⟨.primitive, pos, some (pos + (c :: w).length)⟩])) := by
  have hdrop : (c :: w ++ rest).drop (pos + (c :: w).length - pos) = rest := by
    rw [Nat.add_sub_cancel_left, List.drop_left]
  conv_lhs => unfold jsmnScan
  rw [not_or] at hend
  rw [List.cons_append] at hparse hdrop ⊢
  rw [List.length_cons, jsmnLoop]
  simp only [if_neg hend.1, if_neg hopen, if_neg hclose, if_neg hquote, if_neg hend.2, hparse,
    alloc_filled hcap, hdrop]
  exact jsmnLoop_eq_scan (by rw [List.length_append]; omega) _ _

/-- A digit stands for nothing else. -/
theorem digit_only {c : UInt8} (h : isDigit c = true) : ¬ (c = 0 ∨ isDelimiter c = true) ∧
    ¬ (c < 32 ∨ 127 ≤ c) ∧ ¬ (c = 123 ∨ c = 91) ∧ ¬ (c = 125 ∨ c = 93) ∧ c ≠ 34 := by
  have hall : ∀ n < 256, isDigit (UInt8.ofNat n) = true →
      ¬ (UInt8.ofNat n = 0 ∨ isDelimiter (UInt8.ofNat n) = true) ∧
        ¬ (UInt8.ofNat n < 32 ∨ 127 ≤ UInt8.ofNat n) ∧
        ¬ (UInt8.ofNat n = 123 ∨ UInt8.ofNat n = 91) ∧
        ¬ (UInt8.ofNat n = 125 ∨ UInt8.ofNat n = 93) ∧ UInt8.ofNat n ≠ 34 := by
    decide +kernel
  have hc := hall c.toNat c.toNat_lt
  rw [UInt8.ofNat_toNat] at hc
  exact hc h

/-- What ends a primitive is no digit. -/
theorem EndsPrimitive.endsNumber {rest : List UInt8} (h : EndsPrimitive rest) :
    EndsNumber rest := by
  obtain ⟨c, t, rfl, hc⟩ := h
  intro x hx
  cases hx
  cases hdigit : isDigit c with
  | false => rfl
  | true => exact absurd (Or.inr hc) (digit_only hdigit).1

theorem jsmnParsePrimitive_digits {ds : List UInt8} (h : ∀ c ∈ ds, isDigit c = true)
    {rest : List UInt8} (hrest : EndsPrimitive rest) :
    jsmnParsePrimitive (ds ++ rest) pos = .ok (pos + ds.length) := by
  induction ds generalizing pos with
  | nil =>
      obtain ⟨c, t, rfl, hc⟩ := hrest
      rw [List.nil_append, jsmnParsePrimitive, if_pos (Or.inr hc)]
      rfl
  | cons c ds ih =>
      obtain ⟨hend, hchar, -⟩ := digit_only (h c List.mem_cons_self)
      rw [List.cons_append, jsmnParsePrimitive, if_neg hend, if_neg hchar,
        ih (pos + 1) fun x hx => h x (List.mem_cons_of_mem c hx), List.length_cons]
      congr 1
      omega

theorem jsmnScan_number (n : Nat) {rest : List UInt8} (hrest : EndsPrimitive rest)
    (hcap : used.length < 100) :
    jsmnScan (dec n ++ rest) pos (filled used) = jsmnScan rest (pos + (dec n).length)
      (filled (used ++ [⟨.primitive, pos, some (pos + (dec n).length)⟩])) := by
  have hdigits : ∀ c ∈ dec n, isDigit c = true := fun c hc => isDigit_of_mem_dec hc
  have hparse := jsmnParsePrimitive_digits pos hdigits hrest
  cases hd : dec n with
  | nil => exact absurd hd (dec_ne_nil n)
  | cons c ds =>
      rw [hd] at hparse hdigits
      obtain ⟨hend, -, hopen, hclose, hquote⟩ := digit_only (hdigits c List.mem_cons_self)
      exact jsmnScan_primitive pos hend hopen hclose hquote hparse hcap

end Scan

/-- The pieces that can be read, one by one. -/
theorem readable_cons {x : Lexeme} {l : List Lexeme} {rest : List UInt8}
    (h : Readable (x :: l) rest) :
    (∀ s, x = .string s → Plain s) ∧ (∀ n, x = .number n → EndsPrimitive (lexText l ++ rest)) ∧
      Readable l rest := by
  cases x with
  | colon => exact ⟨nofun, nofun, h⟩
  | comma => exact ⟨nofun, nofun, h⟩
  | string s =>
      refine ⟨?_, nofun, h.2⟩
      intro s' heq
      cases heq
      exact h.1
  | number n => exact ⟨nofun, fun _ _ => h.1, h.2⟩

/-- The tokens of one piece. -/
theorem jsmnScan_lexeme {mem : List UInt8} (x : Lexeme) (before rest tail : List UInt8)
    (used : List Jsmntok) (hmem : mem = before ++ (x.text ++ rest) ++ tail)
    (hplain : ∀ s, x = .string s → Plain s) (hends : ∀ n, x = .number n → EndsPrimitive rest)
    (hcap : used.length + x.content.toList.length ≤ 100) :
    ∃ toks, List.Forall₂ (Shows mem) toks x.content.toList ∧ (∀ tok ∈ toks, tok.stop ≠ none) ∧
      jsmnScan (x.text ++ rest) before.length (filled used) =
        jsmnScan rest (before ++ x.text).length (filled (used ++ toks)) := by
  rw [List.length_append]
  cases x with
  | colon =>
      refine ⟨[], .nil, nofun, ?_⟩
      rw [List.append_nil]
      exact jsmnScan_delimiter _ (Or.inl rfl) rest _
  | comma =>
      refine ⟨[], .nil, nofun, ?_⟩
      rw [List.append_nil]
      exact jsmnScan_delimiter _ (Or.inr rfl) rest _
  | string s =>
      have hs := hplain s rfl
      have hlen : (quoted s).length = s.length + 2 := by
        simp [quoted]
      have hstart : mem.drop (before.length + 1) = s ++ (34 :: (rest ++ tail)) := by
        rw [hmem, ← List.drop_drop, List.append_assoc, List.drop_left]
        simp [Lexeme.text, quoted]
      refine ⟨[⟨.string, before.length + 1, some (before.length + 1 + s.length)⟩],
        .cons ⟨rfl, ?_, ?_, hs⟩ .nil, ?_, ?_⟩
      · simp [Jsmntok.length]
      · rw [hstart, List.take_left]
      · intro tok htok
        rw [List.mem_singleton.mp htok]
        exact nofun
      · rw [Lexeme.text, hlen]
        exact jsmnScan_string _ hs rest (by simpa [Lexeme.content] using hcap)
  | number n =>
      have hrest := hends n rfl
      refine ⟨[⟨.primitive, before.length, some (before.length + (dec n).length)⟩],
        .cons ⟨rfl, ?_⟩ .nil, ?_, jsmnScan_number _ n hrest (by simpa [Lexeme.content] using hcap)⟩
      · have hnext : EndsNumber (rest ++ tail) := by
          obtain ⟨c, t, rfl, hc⟩ := hrest
          exact EndsPrimitive.endsNumber ⟨c, t ++ tail, rfl, hc⟩
        rw [hmem, List.append_assoc, List.drop_left, List.append_assoc]
        exact scanInt_dec n hnext
      · intro tok htok
        rw [List.mem_singleton.mp htok]
        exact nofun

/-- The tokens of the pieces of a text stand for its strings and numbers, and they are
    closed. -/
theorem jsmnScan_lexemes {mem : List UInt8} (l : List Lexeme) (before rest tail : List UInt8)
    (used : List Jsmntok) (hmem : mem = before ++ (lexText l ++ rest) ++ tail)
    (hread : Readable l rest) (hcap : used.length + (lexContents l).length ≤ 100) :
    ∃ toks, List.Forall₂ (Shows mem) toks (lexContents l) ∧ (∀ tok ∈ toks, tok.stop ≠ none) ∧
      jsmnScan (lexText l ++ rest) before.length (filled used) =
        jsmnScan rest (before ++ lexText l).length (filled (used ++ toks)) := by
  induction l generalizing before used with
  | nil =>
      refine ⟨[], .nil, nofun, ?_⟩
      rw [lexText, List.flatMap_nil, List.nil_append, List.append_nil, List.append_nil]
  | cons x l ih =>
      have htext : lexText (x :: l) = x.text ++ lexText l := rfl
      have hcontents : lexContents (x :: l) = x.content.toList ++ lexContents l := by
        unfold lexContents
        cases hx : x.content with
        | none => rw [List.filterMap_cons_none hx]; rfl
        | some c => rw [List.filterMap_cons_some hx]; rfl
      obtain ⟨hplain, hends, hread⟩ := readable_cons hread
      have hmem' : mem = before ++ (x.text ++ (lexText l ++ rest)) ++ tail := by
        rw [hmem, htext]
        simp only [List.append_assoc]
      rw [hcontents, List.length_append] at hcap
      rw [htext, List.append_assoc]
      obtain ⟨toks, hshows, hclosed, hscan⟩ :=
        jsmnScan_lexeme x before (lexText l ++ rest) tail used hmem' hplain hends (by omega)
      have hlen := hshows.length_eq
      obtain ⟨toks', hshows', hclosed', hscan'⟩ := ih (before ++ x.text) (used ++ toks)
        (by rw [hmem']; simp only [List.append_assoc]) hread
        (by rw [List.length_append, hlen]; omega)
      refine ⟨toks ++ toks', ?_, ?_, ?_⟩
      · rw [hcontents]
        exact List.rel_append hshows hshows'
      · intro tok htok
        rcases List.mem_append.mp htok with h | h
        · exact hclosed tok h
        · exact hclosed' tok h
      · rw [hscan, hscan', List.append_assoc, List.append_assoc]

section Close

theorem lastOpen_eq_none {tokens : List Jsmntok} {n : Nat}
    (h : ∀ i < n, (tokens.getD i .zero).stop ≠ none) : Tokens.lastOpen tokens n = none := by
  induction n with
  | zero => rfl
  | succ n ih =>
      rw [Tokens.lastOpen, if_neg (h n (Nat.lt_succ_self n))]
      exact ih fun i hi => h i (Nat.lt_succ_of_lt hi)

theorem lastOpen_eq_some {tokens : List Jsmntok} {n i : Nat} (hi : i < n)
    (hopen : (tokens.getD i .zero).stop = none)
    (hclosed : ∀ j, i < j → j < n → (tokens.getD j .zero).stop ≠ none) :
    Tokens.lastOpen tokens n = some i := by
  induction n with
  | zero => exact absurd hi (Nat.not_lt_zero i)
  | succ n ih =>
      rw [Tokens.lastOpen]
      by_cases hlast : i = n
      · rw [← hlast, if_pos hopen]
      · rw [if_neg (hclosed n (by omega) (Nat.lt_succ_self n))]
        exact ih (by omega) fun j hj hjn => hclosed j hj (Nat.lt_succ_of_lt hjn)

theorem getD_filled {used : List Jsmntok} {i : Nat} (h : i < used.length) :
    (filled used).tokens.getD i .zero = used[i] := by
  unfold filled
  dsimp only
  rw [List.getD_eq_getElem?_getD, List.getElem?_append_left h, List.getElem?_eq_getElem h,
    Option.getD_some]

/-- A bracket closes the last one that is open. -/
theorem close_filled (a : List Jsmntok) {t : Jsmntok} (ht : t.stop = none) (b : List Jsmntok)
    (hb : ∀ tok ∈ b, tok.stop ≠ none) (stop : Nat) :
    (filled (a ++ t :: b)).close t.type stop =
      .ok (filled (a ++ { t with stop := some stop } :: b)) := by
  have hlen : (a ++ t :: b).length = a.length + (b.length + 1) := by
    rw [List.length_append, List.length_cons]
  have hat : (filled (a ++ t :: b)).tokens.getD a.length .zero = t := by
    rw [getD_filled (by omega), List.getElem_append_right (Nat.le_refl _)]
    simp
  have hopen : Tokens.lastOpen (filled (a ++ t :: b)).tokens (filled (a ++ t :: b)).toknext =
      some a.length := by
    refine lastOpen_eq_some ?_ ?_ fun j hj hjn => ?_
    · change a.length < (a ++ t :: b).length
      omega
    · rw [hat]
      exact ht
    · have hjn' : j < (a ++ t :: b).length := hjn
      rw [getD_filled hjn', List.getElem_append_right (by omega)]
      obtain ⟨k, hk⟩ : ∃ k, j - a.length = k + 1 := ⟨j - a.length - 1, by omega⟩
      simp only [hk, List.getElem_cons_succ]
      exact hb _ (List.getElem_mem _)
  have hset : (filled (a ++ t :: b)).tokens.set a.length { t with stop := some stop } =
      (filled (a ++ { t with stop := some stop } :: b)).tokens := by
    unfold filled
    dsimp only
    rw [List.append_assoc, List.set_append_right _ _ (Nat.le_refl _), Nat.sub_self,
      List.cons_append, List.set_cons_zero, List.append_assoc, List.cons_append,
      List.length_append, List.length_append, List.length_cons, List.length_cons]
  have hnext : (filled (a ++ { t with stop := some stop } :: b)).toknext =
      (filled (a ++ t :: b)).toknext := by
    unfold filled
    dsimp only
    rw [List.length_append, List.length_append, List.length_cons, List.length_cons]
  unfold Tokens.close
  rw [hopen]
  dsimp only
  rw [hat, if_pos rfl, hset, ← hnext]

/-- In the end no bracket is open. -/
theorem lastOpen_filled {used : List Jsmntok} (h : ∀ tok ∈ used, tok.stop ≠ none) :
    Tokens.lastOpen (filled used).tokens (filled used).toknext = none := by
  refine lastOpen_eq_none fun i hi => ?_
  rw [getD_filled hi]
  exact h _ (List.getElem_mem _)

end Close

/-- What follows a key in a list of contents, if it is there. -/
def afterKey (key : List UInt8) : List Content → Option (Option Content)
  | [] => none
  | c :: l => if c = .string key then some l.head? else afterKey key l

/-- The value that a lookup finds for something. -/
def Content.value : Content → Value
  | object => .other
  | array => .array
  | string s => .string s
  | number n => .primitive (some (n : Int))

theorem jsoneq_shows {mem key : List UInt8} {tok : Jsmntok} {c : Content} (h : Shows mem tok c) :
    jsoneq mem key tok = decide (c = .string key) := by
  unfold jsoneq
  cases c with
  | object =>
      rw [show tok.type = .object from h]
      rfl
  | array =>
      rw [show tok.type = .array from h]
      rfl
  | number n =>
      rw [h.1]
      rfl
  | string s =>
      obtain ⟨htype, hlen, hslice, -⟩ := h
      rw [htype, hlen, hslice]
      by_cases heq : s = key
      · subst heq
        simp
      · simp [heq]

/-- What a lookup makes of the token that it finds. -/
def Doc.valueOf (d : Doc) (tok : Jsmntok) : Value :=
  match tok.type with
  | .string => .string (d.stringOf tok)
  | .primitive => .primitive (scanInt (d.text.drop tok.start))
  | .array => .array
  | .object => .other
  | .undefined => .other

theorem valueOf_shows {d : Doc} {tok : Jsmntok} {c : Content} (h : Shows d.text tok c) :
    d.valueOf tok = c.value := by
  unfold Doc.valueOf
  cases c with
  | object =>
      rw [show tok.type = .object from h]
      rfl
  | array =>
      rw [show tok.type = .array from h]
      rfl
  | number n =>
      rw [h.1]
      dsimp only
      rw [h.2]
      rfl
  | string s =>
      obtain ⟨htype, hlen, hslice, hplain⟩ := h
      rw [htype]
      dsimp only
      rw [Doc.stringOf, hlen, hslice, cstr_of_nul_free fun c hc => (hplain c hc).1]
      rfl

/-- The first token that equals a key, and the one behind it. -/
theorem findIdx_shows {d : Doc} {toks : List Jsmntok} {l : List Content}
    (h : List.Forall₂ (Shows d.text) toks l) (key : List UInt8) (first : Jsmntok) (k : Nat) :
    (((toks ++ [Jsmntok.zero]).findIdx? (jsoneq d.text key)).map fun i =>
      d.valueOf ((first :: toks ++ List.replicate k Jsmntok.zero).getD (i + 2) Jsmntok.zero)) =
        (afterKey key l).map fun c => (c.map Content.value).getD .other := by
  induction h generalizing first with
  | nil => rfl
  | @cons tok c toks l hc hrest ih =>
      have hnext : d.valueOf ((toks ++ List.replicate k Jsmntok.zero).getD 0 Jsmntok.zero) =
          ((l.head?).map Content.value).getD .other := by
        cases hrest with
        | nil => cases k <;> rfl
        | cons hc' _ => exact valueOf_shows hc'
      have hfirst : (tok :: toks ++ [Jsmntok.zero]).findIdx? (jsoneq d.text key) =
          if jsoneq d.text key tok then some 0
          else ((toks ++ [Jsmntok.zero]).findIdx? (jsoneq d.text key)).map (· + 1) :=
        List.findIdx?_cons
      rw [hfirst, jsoneq_shows hc, afterKey]
      by_cases hkey : c = .string key
      · simp only [hkey, decide_true, if_true, Option.map_some, Option.some.injEq]
        exact hnext
      · simp only [hkey, decide_false, Bool.false_eq_true, if_false, Option.map_map]
        rw [← ih tok]
        rfl

/-- The lookups find what follows a key. -/
theorem value_filled {d : Doc} {first : Jsmntok} {toks : List Jsmntok} {l : List Content}
    (hd : d.toTokens = filled (first :: toks)) (hcap : toks.length < 99)
    (h : List.Forall₂ (Shows d.text) toks l) (key : Key) :
    d.value key = (afterKey key.text l).map fun c => (c.map Content.value).getD .other := by
  have htokens : d.tokens = first :: toks ++ List.replicate (99 - toks.length) .zero := by
    rw [hd]
    unfold filled
    have hrest : 100 - (first :: toks).length = 99 - toks.length := by
      rw [List.length_cons]
      omega
    rw [hrest]
  have hnext : d.toknext = toks.length + 1 := by
    rw [hd]
    rfl
  have htake : (d.tokens.drop 1).take d.toknext = toks ++ [.zero] := by
    obtain ⟨k, hk⟩ : ∃ k, 99 - toks.length = k + 1 := ⟨98 - toks.length, by omega⟩
    rw [htokens, hnext, hk, List.cons_append, List.drop_succ_cons, List.drop_zero,
      List.replicate_succ, List.take_append, List.take_of_length_le (by omega),
      Nat.add_sub_cancel_left]
    rfl
  rw [← findIdx_shows h key.text first (99 - toks.length), ← htake, ← htokens]
  unfold Doc.value Doc.extJsonFindKeyToken
  rw [Option.map_map]
  rfl

/-- A value that is printed behind its key. -/
inductive Scalar where
  | string (s : List UInt8)
  | number (n : Nat)

def Scalar.lexeme : Scalar → Lexeme
  | string s => .string s
  | number n => .number n

def Scalar.content : Scalar → Content
  | string s => .string s
  | number n => .number n

abbrev Field := Key × Scalar

/-- A key with its value. -/
def fieldLex (f : Field) : List Lexeme := [.string f.1.text, .colon, f.2.lexeme]

/-- Keys with their values, each with a comma behind it. -/
def fieldsLex (fs : List Field) : List Lexeme := fs.flatMap fun f => fieldLex f ++ [.comma]

/-- What the tokens of some fields stand for. -/
def fieldsContents (fs : List Field) : List Content :=
  fs.flatMap fun f => [.string f.1.text, f.2.content]

section Fields

theorem lexText_append (a b : List Lexeme) : lexText (a ++ b) = lexText a ++ lexText b :=
  List.flatMap_append

theorem lexContents_append (a b : List Lexeme) :
    lexContents (a ++ b) = lexContents a ++ lexContents b := List.filterMap_append

theorem lexContents_fieldLex (f : Field) :
    lexContents (fieldLex f) = [.string f.1.text, f.2.content] := by
  obtain ⟨key, _ | _⟩ := f <;> rfl

theorem lexContents_fieldsLex (fs : List Field) :
    lexContents (fieldsLex fs) = fieldsContents fs := by
  induction fs with
  | nil => rfl
  | cons f fs ih =>
      have hcons : fieldsLex (f :: fs) = fieldLex f ++ (.comma :: fieldsLex fs) := rfl
      have hcomma : lexContents (.comma :: fieldsLex fs) = lexContents (fieldsLex fs) := rfl
      rw [hcons, lexContents_append, lexContents_fieldLex, hcomma, ih]
      rfl

theorem plain_key (key : Key) : Plain key.text := by
  cases key <;> unfold Plain <;> decide +kernel

theorem readable_fieldLex {f : Field} (h : ∀ s, f.2 = .string s → Plain s) {l : List Lexeme}
    {rest : List UInt8} (hends : ∀ n, f.2 = .number n → EndsPrimitive (lexText l ++ rest))
    (hl : Readable l rest) : Readable (fieldLex f ++ l) rest := by
  obtain ⟨key, s | n⟩ := f
  · exact ⟨plain_key key, h s rfl, hl⟩
  · exact ⟨plain_key key, hends n rfl, hl⟩

theorem readable_fieldsLex {fs : List Field} (h : ∀ f ∈ fs, ∀ s, f.2 = .string s → Plain s)
    {l : List Lexeme} {rest : List UInt8} (hl : Readable l rest) :
    Readable (fieldsLex fs ++ l) rest := by
  induction fs with
  | nil => exact hl
  | cons f fs ih =>
      have hcons : fieldsLex (f :: fs) ++ l = fieldLex f ++ (.comma :: (fieldsLex fs ++ l)) := by
        simp [fieldsLex]
      rw [hcons]
      refine readable_fieldLex (h f List.mem_cons_self) (fun _ _ => ⟨44, _, rfl, rfl⟩) ?_
      exact ih fun f' hf' => h f' (List.mem_cons_of_mem f hf')

/-- The keys. -/
def Key.all : List Key :=
  [.target, .command, .loginAck, .pwdMsg, .dataArray, .pName, .cName, .model, .fwVer, .mac, .ip,
    .mask, .gateway, .dhcp, .isMcast, .mcastIp, .isDip, .backupMcIp, .rsBaudrate, .rsDatabits,
    .rsParity, .rsStopbits, .videoPort, .audioPort, .adPort, .stPort, .videoWidth, .videoHeight,
    .videoFramerate, .videoColorspace, .videoDepth, .videoInterlaced, .videoSegmented,
    .audioSampeRate, .audioDepth, .audioChannels, .isConnect, .svr811Ip, .svr811Port,
    .rs232DataHex, .rs232Feedback, .rs232WaitTime, .scGetId, .scSetKey, .scGetStatus]

/-- A key is known by its text. -/
theorem Key.find_text (key : Key) : Key.all.find? (fun k => k.text = key.text) = some key := by
  cases key <;> decide

theorem Key.text_injective {a b : Key} (h : a.text = b.text) : a = b := by
  have ha := Key.find_text a
  rw [h, Key.find_text b] at ha
  exact (Option.some.inj ha).symm

/-- The value behind a key is that of its first field, if no value before it looks like
    the key. -/
theorem afterKey_fields (key : Key) (fs : List Field) (l : List Content)
    (h : ∀ f ∈ fs.takeWhile (·.1 ≠ key), f.2.content ≠ .string key.text) :
    afterKey key.text (fieldsContents fs ++ l) =
      match fs.find? (·.1 = key) with
      | some f => some (some f.2.content)
      | none => afterKey key.text l := by
  induction fs with
  | nil => rfl
  | cons f fs ih =>
      have hcons : fieldsContents (f :: fs) ++ l =
          .string f.1.text :: f.2.content :: (fieldsContents fs ++ l) := rfl
      rw [hcons, afterKey]
      by_cases hkey : f.1 = key
      · rw [if_pos (by rw [hkey]), List.find?_cons_of_pos (by simpa using hkey)]
        rfl
      · have hother : Content.string f.1.text ≠ .string key.text := by
          intro heq
          cases heq' : f.1.text with
          | _ => exact hkey (Key.text_injective (Content.string.inj heq))
        rw [List.takeWhile_cons_of_pos (by simpa using hkey)] at h
        rw [if_neg hother, afterKey, if_neg (h f List.mem_cons_self),
          List.find?_cons_of_neg (by simpa using hkey)]
        exact ih fun f' hf' => h f' (List.mem_cons_of_mem f hf')

end Fields

end Cmd

end RtosLwip
