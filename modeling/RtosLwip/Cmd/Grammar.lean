import RtosLwip.Cmd.Printed

/-!
# The Tokens of a JSON Text

The grammar of JSON, and the tokens that its texts have: one for each string,
each number or literal, each array and each object, in the order in which they
begin. The grammar says of every token at once whether it is the key of a
member, which the tokenizer does not.

The tokenizer comes to these tokens, in every text of the grammar that has no
more of them than the array has room for.

## Main definitions

* `Entry`: A token, its characters if it is a string, and whether it is a key.
* `Spells`: The texts of the grammar, with their tokens.
* `IsJson`: A JSON text.

## Theorems

* `jsmnScan_spells`: The tokenizer follows the grammar.
* `jsmnParse_json`: The tokens of a JSON text.
* `jsoneq_spells`: The tokens that are equal to a key.
* `Spells.keysFollowed`: The token behind a key belongs to the text.
-/

namespace RtosLwip

namespace Cmd

/-- A token of a text. `string` is what stands between the quotes, if the token
    is a string. -/
structure Entry where
  token : Jsmntok
  string : Option (List UInt8)
  isKey : Bool
  deriving DecidableEq

/-- The space between the tokens: blanks, tabs and line ends. -/
def IsSpace (w : List UInt8) : Prop := ∀ c ∈ w, c = 32 ∨ c = 9 ∨ c = 10 ∨ c = 13

instance (w : List UInt8) : Decidable (IsSpace w) :=
  inferInstanceAs (Decidable (∀ c ∈ w, c = 32 ∨ c = 9 ∨ c = 10 ∨ c = 13))

/-- A character of a number or a literal. -/
def isWordChar (c : UInt8) : Bool :=
  isDigit c || (97 ≤ c && c ≤ 122) || c = 43 || c = 45 || c = 46 || c = 69

/-- The numbers, `true`, `false` and `null` are such words. -/
def IsWord (w : List UInt8) : Prop := w ≠ [] ∧ ∀ c ∈ w, isWordChar c = true

instance (w : List UInt8) : Decidable (IsWord w) :=
  inferInstanceAs (Decidable (w ≠ [] ∧ ∀ c ∈ w, isWordChar c = true))

/-- What may stand between the quotes of a string. -/
inductive IsChars : List UInt8 → Prop where
  | nil : IsChars []
  | char {c : UInt8} {s : List UInt8} (h : 32 ≤ c) (hquote : c ≠ 34) (hslash : c ≠ 92)
      (hs : IsChars s) : IsChars (c :: s)
  | escape {e : UInt8} {s : List UInt8} (h : isEscape e = true) (hs : IsChars s) :
      IsChars (92 :: e :: s)
  | unicode {a b c d : UInt8} {s : List UInt8}
      (h : ∀ x ∈ [a, b, c, d], (hexDigit x).isSome = true) (hs : IsChars s) :
      IsChars (92 :: 117 :: a :: b :: c :: d :: s)

/-- The parts of a text: a value, an element of an array or a member of an
    object, and a list of these. -/
inductive Part where
  | value
  | element (keyed : Bool)
  | list (keyed : Bool)

/-- The token of a string that begins at a position. -/
def stringToken (pos : Nat) (s : List UInt8) : Jsmntok :=
  ⟨.string, pos + 1, some (pos + 1 + s.length)⟩

/-- The texts of the grammar at a position, and their tokens. -/
inductive Spells : Part → Nat → List UInt8 → List Entry → Prop where
  | word (pos : Nat) {w : List UInt8} (h : IsWord w) :
      Spells .value pos w [⟨⟨.primitive, pos, some (pos + w.length)⟩, none, false⟩]
  | string (pos : Nat) {s : List UInt8} (h : IsChars s) :
      Spells .value pos (quoted s) [⟨stringToken pos s, some s, false⟩]
  | array {pos : Nat} {body : List UInt8} {es : List Entry}
      (h : Spells (.list false) (pos + 1) body es) :
      Spells .value pos (91 :: (body ++ [93]))
        (⟨⟨.array, pos, some (pos + 1 + body.length + 1)⟩, none, false⟩ :: es)
  | object {pos : Nat} {body : List UInt8} {es : List Entry}
      (h : Spells (.list true) (pos + 1) body es) :
      Spells .value pos (123 :: (body ++ [125]))
        (⟨⟨.object, pos, some (pos + 1 + body.length + 1)⟩, none, false⟩ :: es)
  | element {pos : Nat} {v : List UInt8} {es : List Entry} (h : Spells .value pos v es) :
      Spells (.element false) pos v es
  | member {pos : Nat} {k w w' v : List UInt8} {es : List Entry} (hk : IsChars k)
      (hw : IsSpace w) (hw' : IsSpace w')
      (h : Spells .value (pos + (quoted k).length + w.length + 1 + w'.length) v es) :
      Spells (.element true) pos (quoted k ++ (w ++ 58 :: (w' ++ v)))
        (⟨stringToken pos k, some k, true⟩ :: es)
  | empty {keyed : Bool} (pos : Nat) {w : List UInt8} (hw : IsSpace w) :
      Spells (.list keyed) pos w []
  | last {keyed : Bool} {pos : Nat} {w v w' : List UInt8} {es : List Entry} (hw : IsSpace w)
      (h : Spells (.element keyed) (pos + w.length) v es) (hw' : IsSpace w') :
      Spells (.list keyed) pos (w ++ (v ++ w')) es
  | next {keyed : Bool} {pos : Nat} {w v w' l : List UInt8} {es es' : List Entry}
      (hw : IsSpace w) (h : Spells (.element keyed) (pos + w.length) v es) (hw' : IsSpace w')
      (hl : Spells (.list keyed) (pos + w.length + v.length + w'.length + 1) l es')
      (hne : es' ≠ []) :
      Spells (.list keyed) pos (w ++ (v ++ (w' ++ 44 :: l))) (es ++ es')

/-- A JSON text with its tokens: a value, and space around it. -/
inductive IsJson : List UInt8 → List Entry → Prop where
  | intro {w v w' : List UInt8} {es : List Entry} (hw : IsSpace w)
      (h : Spells .value w.length v es) (hw' : IsSpace w') : IsJson (w ++ (v ++ w')) es

/-! ### Scanning -/

/-- A character that ends a primitive, or the end of the text. -/
def EndsWord (rest : List UInt8) : Prop := rest = [] ∨ EndsPrimitive rest

theorem endsWord_cons {c : UInt8} (h : isDelimiter c = true) (rest : List UInt8) :
    EndsWord (c :: rest) := Or.inr ⟨c, rest, rfl, h⟩

theorem isDelimiter_space {c : UInt8} (h : c = 32 ∨ c = 9 ∨ c = 10 ∨ c = 13) :
    isDelimiter c = true := by
  rcases h with rfl | rfl | rfl | rfl
  all_goals rfl

/-- Space in front of what ends a primitive ends a primitive. -/
theorem endsWord_space {w rest : List UInt8} (hw : IsSpace w) (h : EndsWord rest) :
    EndsWord (w ++ rest) := by
  cases w with
  | nil => exact h
  | cons c w => exact endsWord_cons (isDelimiter_space (hw c List.mem_cons_self)) _

/-- Space is passed over. -/
theorem jsmnScan_space {w : List UInt8} (hw : IsSpace w) (rest : List UInt8) (pos : Nat)
    (s : Tokens) : jsmnScan (w ++ rest) pos s = jsmnScan rest (pos + w.length) s := by
  induction w generalizing pos with
  | nil => rfl
  | cons c w ih =>
      have hstep : jsmnScan (c :: (w ++ rest)) pos s = jsmnScan (w ++ rest) (pos + 1) s := by
        unfold jsmnScan
        rw [List.length_cons, jsmnLoop]
        rcases hw c List.mem_cons_self with rfl | rfl | rfl | rfl
        all_goals rfl
      rw [List.cons_append, hstep, ih (fun x hx => hw x (List.mem_cons_of_mem c hx)),
        List.length_cons]
      congr 1
      omega

/-- Four hexadecimal digits behind `\u`. -/
theorem jsmnParseString_digits {ds : List UInt8} (h : ∀ x ∈ ds, (hexDigit x).isSome = true)
    (rest : List UInt8) (pos : Nat) :
    jsmnParseString (ds ++ rest) pos ds.length = jsmnParseString rest (pos + ds.length) 0 := by
  induction ds generalizing pos with
  | nil => rfl
  | cons c ds ih =>
      have hc := h c List.mem_cons_self
      have hnul : c ≠ 0 := by
        rintro rfl
        exact absurd hc (by decide)
      rw [List.cons_append, List.length_cons, jsmnParseString.eq_def]
      dsimp only
      rw [if_neg hnul, if_pos hc, ih (fun x hx => h x (List.mem_cons_of_mem c hx))]
      congr 1
      omega

/-- The end of a string is found behind its characters. -/
theorem jsmnParseString_chars {s : List UInt8} (h : IsChars s) (rest : List UInt8) (pos : Nat) :
    jsmnParseString (s ++ 34 :: rest) pos 0 = .ok (pos + s.length) := by
  induction h generalizing pos with
  | nil =>
      rw [List.nil_append, jsmnParseString.eq_def]
      rfl
  | @char c s hc hquote hslash _ ih =>
      have hnul : c ≠ 0 := by
        rintro rfl
        exact absurd hc (by decide)
      rw [List.cons_append, jsmnParseString.eq_def]
      dsimp only
      rw [if_neg hnul, if_neg hquote, if_neg hslash, ih (pos + 1), List.length_cons]
      congr 1
      omega
  | @escape e s he _ ih =>
      rw [List.cons_append, List.cons_append, jsmnParseString.eq_def]
      dsimp only
      rw [if_neg (by decide), if_neg (by decide), if_pos rfl, if_pos he, ih (pos + 2),
        List.length_cons, List.length_cons]
      congr 1
      omega
  | @unicode a b c d s hdigits _ ih =>
      have hfour := jsmnParseString_digits hdigits (s ++ 34 :: rest) (pos + 2)
      rw [List.cons_append, List.cons_append, jsmnParseString.eq_def]
      dsimp only
      rw [if_neg (by decide), if_neg (by decide), if_pos rfl, if_neg (by decide), if_pos rfl]
      refine hfour.trans ?_
      rw [ih]
      simp only [List.length_cons, List.length_nil]
      congr 1
      omega

/-- A string. -/
theorem jsmnScan_chars {s : List UInt8} (h : IsChars s) (rest : List UInt8) (pos : Nat)
    {used : List Jsmntok} (hcap : used.length < 100) :
    jsmnScan (quoted s ++ rest) pos (filled used) = jsmnScan rest (pos + (quoted s).length)
      (filled (used ++ [stringToken pos s])) := by
  have hlen : (quoted s).length = s.length + 2 := by
    simp only [quoted, List.length_append, List.length_cons, List.length_nil]
  rw [hlen]
  exact jsmnScan_quoted pos (jsmnParseString_chars h rest (pos + 1)) hcap

/-- A character of a word stands for nothing else. -/
theorem wordChar_only {c : UInt8} (h : isWordChar c = true) : ¬ (c = 0 ∨ isDelimiter c = true) ∧
    ¬ (c < 32 ∨ 127 ≤ c) ∧ ¬ (c = 123 ∨ c = 91) ∧ ¬ (c = 125 ∨ c = 93) ∧ c ≠ 34 := by
  have hall : ∀ n < 256, isWordChar (UInt8.ofNat n) = true →
      ¬ (UInt8.ofNat n = 0 ∨ isDelimiter (UInt8.ofNat n) = true) ∧
        ¬ (UInt8.ofNat n < 32 ∨ 127 ≤ UInt8.ofNat n) ∧
        ¬ (UInt8.ofNat n = 123 ∨ UInt8.ofNat n = 91) ∧
        ¬ (UInt8.ofNat n = 125 ∨ UInt8.ofNat n = 93) ∧ UInt8.ofNat n ≠ 34 := by
    decide +kernel
  have hc := hall c.toNat c.toNat_lt
  rw [UInt8.ofNat_toNat] at hc
  exact hc h

theorem jsmnParsePrimitive_word {w : List UInt8} (h : ∀ c ∈ w, isWordChar c = true)
    {rest : List UInt8} (hrest : EndsWord rest) (pos : Nat) :
    jsmnParsePrimitive (w ++ rest) pos = .ok (pos + w.length) := by
  induction w generalizing pos with
  | nil =>
      rcases hrest with rfl | ⟨c, t, rfl, hc⟩
      · rfl
      · rw [List.nil_append, jsmnParsePrimitive, if_pos (Or.inr hc)]
        rfl
  | cons c w ih =>
      rcases wordChar_only (h c List.mem_cons_self) with ⟨hend, hchar, -⟩
      rw [List.cons_append, jsmnParsePrimitive, if_neg hend, if_neg hchar,
        ih (fun x hx => h x (List.mem_cons_of_mem c hx)), List.length_cons]
      congr 1
      omega

/-- A number or a literal. -/
theorem jsmnScan_word {w : List UInt8} (h : IsWord w) {rest : List UInt8} (hrest : EndsWord rest)
    (pos : Nat) {used : List Jsmntok} (hcap : used.length < 100) :
    jsmnScan (w ++ rest) pos (filled used) = jsmnScan rest (pos + w.length)
      (filled (used ++ [⟨.primitive, pos, some (pos + w.length)⟩])) := by
  have hparse := jsmnParsePrimitive_word h.2 hrest pos
  cases w with
  | nil => exact absurd rfl h.1
  | cons c w =>
      rcases wordChar_only (h.2 c List.mem_cons_self) with ⟨hend, -, hopen, hclose, hquote⟩
      exact jsmnScan_primitive pos hend hopen hclose hquote hparse hcap

/-- The tokens of a text are closed. -/
theorem Spells.closed {part : Part} {pos : Nat} {text : List UInt8} {es : List Entry}
    (h : Spells part pos text es) : ∀ e ∈ es, e.token.stop ≠ none := by
  induction h with
  | word pos _ => exact List.forall_mem_singleton.mpr nofun
  | string pos _ => exact List.forall_mem_singleton.mpr nofun
  | array _ ih => exact List.forall_mem_cons.mpr ⟨nofun, ih⟩
  | object _ ih => exact List.forall_mem_cons.mpr ⟨nofun, ih⟩
  | element _ ih => exact ih
  | member _ _ _ _ ih => exact List.forall_mem_cons.mpr ⟨nofun, ih⟩
  | empty pos _ => exact nofun
  | last _ _ _ ih => exact ih
  | next _ _ _ _ _ ih ih' => exact List.forall_mem_append.mpr ⟨ih, ih'⟩

/-- The tokens of a text, without what the grammar knows of them. -/
def tokensOf (es : List Entry) : List Jsmntok := es.map Entry.token

/-- A bracket, what is between it and the one that closes it, and this one. -/
theorem jsmnScan_brackets {o c : UInt8} (ho : o = 123 ∨ o = 91) (hc : c = 125 ∨ c = 93)
    (hsame : o = 123 ↔ c = 125) {pos : Nat} {body rest : List UInt8} {es : List Entry}
    {used : List Jsmntok} (hcap : used.length + (es.length + 1) ≤ 100)
    (hclosed : ∀ e ∈ es, e.token.stop ≠ none)
    (hbody : ∀ used' : List Jsmntok, used'.length + es.length ≤ 100 →
      jsmnScan (body ++ c :: rest) (pos + 1) (filled used')
        = jsmnScan (c :: rest) (pos + 1 + body.length) (filled (used' ++ tokensOf es))) :
    jsmnScan (o :: (body ++ [c]) ++ rest) pos (filled used)
      = jsmnScan rest (pos + (o :: (body ++ [c])).length) (filled (used ++
        ⟨if o = 123 then .object else .array, pos, some (pos + 1 + body.length + 1)⟩ ::
          tokensOf es)) := by
  let t : Jsmntok := ⟨if o = 123 then .object else .array, pos, none⟩
  have htext : o :: (body ++ [c]) ++ rest = o :: (body ++ c :: rest) := by
    rw [List.cons_append, List.append_assoc, List.singleton_append]
  have hroom : used.length < 100 := by omega
  have hopen := jsmnScan_open pos ho (body ++ c :: rest) hroom
  have hbody' := hbody (used ++ [t]) (by rw [List.length_append, List.length_singleton]; omega)
  have htype : t.type = if c = 125 then .object else .array := by
    simp only [t, hsame]
  have hclose : (filled (used ++ t :: tokensOf es)).close (if c = 125 then .object else .array)
      (pos + 1 + body.length + 1) = .ok (filled (used ++
        ⟨if o = 123 then .object else .array, pos, some (pos + 1 + body.length + 1)⟩ ::
          tokensOf es)) := by
    rw [← htype]
    refine close_filled used (t := t) rfl (tokensOf es) (fun tok htok => ?_) _
    rcases List.mem_map.mp htok with ⟨e, he, rfl⟩
    exact hclosed e he
  rw [List.append_assoc, List.singleton_append] at hbody'
  rw [htext, hopen, hbody', jsmnScan_close _ hc rest hclose, List.length_cons, List.length_append,
    List.length_singleton]
  congr 1
  omega

/-- The tokenizer follows the grammar. -/
theorem jsmnScan_spells {part : Part} {pos : Nat} {text : List UInt8} {es : List Entry}
    (h : Spells part pos text es) (used : List Jsmntok) {rest : List UInt8} (hrest : EndsWord rest)
    (hcap : used.length + es.length ≤ 100) :
    jsmnScan (text ++ rest) pos (filled used)
      = jsmnScan rest (pos + text.length) (filled (used ++ tokensOf es)) := by
  induction h generalizing used rest with
  | word pos hw => exact jsmnScan_word hw hrest pos (Nat.lt_of_succ_le hcap)
  | string pos hs => exact jsmnScan_chars hs rest pos (Nat.lt_of_succ_le hcap)
  | @array pos body es hbody ih =>
      exact jsmnScan_brackets (Or.inr rfl) (Or.inr rfl) (by decide) hcap hbody.closed
        fun used' hcap' => ih used' (endsWord_cons rfl rest) hcap'
  | @object pos body es hbody ih =>
      exact jsmnScan_brackets (Or.inl rfl) (Or.inl rfl) (by decide) hcap hbody.closed
        fun used' hcap' => ih used' (endsWord_cons rfl rest) hcap'
  | element _ ih => exact ih used hrest hcap
  | @member pos k w w' v es hk hw hw' hv ih =>
      rw [List.length_cons] at hcap
      -- the key, the colon between two spaces, and the value
      have hroom : used.length < 100 := by omega
      have hkey := jsmnScan_chars hk (w ++ 58 :: (w' ++ (v ++ rest))) pos hroom
      have hvalue := ih (used ++ [stringToken pos k]) hrest
        (by rw [List.length_append, List.length_singleton]; omega)
      simp only [List.append_assoc, List.cons_append] at hvalue ⊢
      rw [hkey, jsmnScan_space hw, jsmnScan_delimiter _ (Or.inl rfl), jsmnScan_space hw', hvalue]
      congr 1
      simp only [List.length_append, List.length_cons]
      omega
  | @empty keyed pos w hw =>
      rw [jsmnScan_space hw, tokensOf, List.map_nil, List.append_nil]
  | @last keyed pos w v w' es hw hv hw' ih =>
      have hvalue := ih used (endsWord_space hw' hrest) hcap
      simp only [List.append_assoc]
      rw [jsmnScan_space hw, hvalue, jsmnScan_space hw']
      congr 1
      simp only [List.length_append]
      omega
  | @next keyed pos w v w' l es es' hw hv hw' hl hne ih ih' =>
      rw [List.length_append] at hcap
      have hends := endsWord_space hw' (endsWord_cons (c := 44) rfl (l ++ rest))
      have hvalue := ih used hends (by omega)
      have hlist := ih' (used ++ tokensOf es) hrest
        (by rw [List.length_append, tokensOf, List.length_map]; omega)
      simp only [List.append_assoc, List.cons_append]
      rw [jsmnScan_space hw, hvalue, jsmnScan_space hw', jsmnScan_delimiter _ (Or.inr rfl), hlist,
        tokensOf, tokensOf, tokensOf, List.map_append, List.append_assoc]
      congr 1
      simp only [List.length_append, List.length_cons]
      omega

/-- The tokens of a JSON text, in a fresh array. -/
theorem jsmnParse_json {js : List UInt8} {es : List Entry} (h : IsJson js es)
    (hcap : es.length ≤ 100) : jsmnParse js (filled []).tokens = (filled (tokensOf es), none) := by
  rcases h with @⟨w, v, w', es, hw, hv, hw'⟩
  have hends : EndsWord w' := by
    have hspace := endsWord_space hw' (Or.inl rfl)
    rwa [List.append_nil] at hspace
  have hscan : jsmnScan (w ++ (v ++ w')) 0 (filled [])
      = (filled (tokensOf es), none) := by
    rw [jsmnScan_space hw, Nat.zero_add, jsmnScan_spells hv [] hends (by simpa using hcap),
      List.nil_append]
    have hlast := jsmnScan_space hw' [] (w.length + v.length) (filled (tokensOf es))
    rw [List.append_nil] at hlast
    rw [hlast]
    rfl
  have hloop : jsmnLoop (w ++ (v ++ w')).length (w ++ (v ++ w')) 0 ⟨(filled []).tokens, 0⟩
      = (filled (tokensOf es), none) := hscan
  unfold jsmnParse
  rw [hloop]
  dsimp only
  rw [lastOpen_filled]
  intro tok htok
  rcases List.mem_map.mp htok with ⟨e, he, rfl⟩
  exact hv.closed e he

/-! ### What the tokens say -/

/-- The token of a string is equal to its characters and to nothing else. -/
theorem jsoneq_stringToken {before text s rest : List UInt8}
    (htext : text = before ++ (quoted s ++ rest)) (key : List UInt8) :
    jsoneq text key (stringToken before.length s) = decide (some s = some key) := by
  have hslice : (text.drop (before.length + 1)).take s.length = s := by
    rw [htext, ← List.drop_drop, List.drop_left, quoted, List.cons_append, List.cons_append,
      List.drop_succ_cons, List.drop_zero, List.append_assoc, List.take_left]
  have hlen : (stringToken before.length s).length = s.length := by
    simp only [stringToken, Jsmntok.length, Option.getD_some, Nat.add_sub_cancel_left]
  unfold jsoneq
  rw [hlen]
  simp only [stringToken, hslice, Option.some.injEq]
  by_cases heq : s = key
  · subst heq
    simp
  · simp [heq]

/-- The tokens that are equal to a key are the strings that are spelled so. -/
theorem jsoneq_spells {part : Part} {pos : Nat} {text : List UInt8} {es : List Entry}
    (h : Spells part pos text es) {mem before rest : List UInt8} (hpos : before.length = pos)
    (hmem : mem = before ++ (text ++ rest)) (key : List UInt8) :
    ∀ e ∈ es, jsoneq mem key e.token = decide (e.string = some key) := by
  induction h generalizing before rest with
  | word pos _ => exact List.forall_mem_singleton.mpr rfl
  | @string pos s _ =>
      subst hpos
      exact List.forall_mem_singleton.mpr (jsoneq_stringToken hmem key)
  | @array pos body es _ ih =>
      refine List.forall_mem_cons.mpr ⟨rfl, ?_⟩
      refine @ih (before ++ [91]) (93 :: rest) ?_ ?_
      · rw [List.length_append, hpos, List.length_singleton]
      · rw [hmem]
        simp only [List.append_assoc, List.cons_append, List.nil_append]
  | @object pos body es _ ih =>
      refine List.forall_mem_cons.mpr
        ⟨rfl, @ih (before ++ [123]) (125 :: rest) ?_ ?_⟩
      · rw [List.length_append, hpos, List.length_singleton]
      · rw [hmem]
        simp only [List.append_assoc, List.cons_append, List.nil_append]
  | element _ ih => exact ih hpos hmem
  | @member pos k w w' v es _ _ _ _ ih =>
      refine List.forall_mem_cons.mpr ⟨?_, @ih (before ++ (quoted k ++ (w ++ 58 :: w')))
        rest ?_ ?_⟩
      · subst hpos
        rw [List.append_assoc] at hmem
        exact jsoneq_stringToken hmem key
      · simp only [List.length_append, List.length_cons, hpos]
        omega
      · rw [hmem]
        simp only [List.append_assoc, List.cons_append]
  | empty pos _ => exact nofun
  | @last keyed pos w v w' es _ _ _ ih =>
      refine @ih (before ++ w) (w' ++ rest) ?_ ?_
      · rw [List.length_append, hpos]
      · rw [hmem]
        simp only [List.append_assoc]
  | @next keyed pos w v w' l es es' _ _ _ _ _ ih ih' =>
      refine List.forall_mem_append.mpr ⟨@ih (before ++ w) (w' ++ 44 :: l ++ rest)
        ?_ ?_, @ih' (before ++ (w ++ (v ++ (w' ++ [44])))) rest ?_ ?_⟩
      · rw [List.length_append, hpos]
      · rw [hmem]
        simp only [List.append_assoc]
      · simp only [List.length_append, List.length_singleton, hpos]
        omega
      · rw [hmem]
        simp only [List.append_assoc, List.cons_append, List.nil_append]

/-- Behind every key there is a token. -/
def KeysFollowed : List Entry → Prop
  | [] => True
  | e :: es => (e.isKey = true → es ≠ []) ∧ KeysFollowed es

theorem KeysFollowed.append {es es' : List Entry} (h : KeysFollowed es) (h' : KeysFollowed es') :
    KeysFollowed (es ++ es') := by
  induction es with
  | nil => exact h'
  | cons e es ih =>
      refine ⟨fun he hnil => ?_, ih h.2⟩
      exact h.1 he (List.append_eq_nil_iff.mp hnil).1

/-- A value begins with a token that is no key. -/
theorem Spells.head_value {pos : Nat} {text : List UInt8} {es : List Entry}
    (h : Spells .value pos text es) : ∃ e es', es = e :: es' ∧ e.isKey = false := by
  cases h with
  | word _ _ => exact ⟨_, _, rfl, rfl⟩
  | string _ _ => exact ⟨_, _, rfl, rfl⟩
  | array _ => exact ⟨_, _, rfl, rfl⟩
  | object _ => exact ⟨_, _, rfl, rfl⟩

/-- The token behind a key belongs to the text. -/
theorem Spells.keysFollowed {part : Part} {pos : Nat} {text : List UInt8} {es : List Entry}
    (h : Spells part pos text es) : KeysFollowed es := by
  induction h with
  | word _ _ => exact ⟨nofun, trivial⟩
  | string _ _ => exact ⟨nofun, trivial⟩
  | array _ ih => exact ⟨nofun, ih⟩
  | object _ ih => exact ⟨nofun, ih⟩
  | element _ ih => exact ih
  | member _ _ _ hv ih =>
      rcases hv.head_value with ⟨e, es', rfl, _⟩
      exact ⟨fun _ => List.cons_ne_nil _ _, ih⟩
  | empty _ _ => exact trivial
  | last _ _ _ ih => exact ih
  | next _ _ _ _ _ ih ih' => exact ih.append ih'

end Cmd

end RtosLwip
