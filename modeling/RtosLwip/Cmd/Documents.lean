import RtosLwip.Cmd.Grammar

/-!
# What the Tokenizer Accepts

The tokenizer is not strict: it matches the brackets and finds the ends of strings and
of primitives, and asks for nothing else. The texts that it accepts are therefore those
of a small grammar. A text is a sequence of separators, strings, primitives and groups
in brackets, and a primitive goes on to the next separator or closing bracket.

`Json` has the texts of this grammar as its values. A text is accepted exactly if it is
that of such a value, up to a NUL, and if there are enough tokens. The tokens are then
those of the value. One direction follows a value through the tokenizer, by induction
on the value. The other one goes through an accepting run backwards: `Rest` says what is
still to come when some brackets are open, and each round of the loop puts its piece in
front of it.

That the tokens are nested is then a property of the grammar.

## Main definitions

* `StringBody`, `Word`: What stands between two quotes, and what a primitive is.
* `Json`: The texts that are accepted, by their structure.
* `Json.render`, `Json.tokens`: The characters and the tokens of such a text.
* `Rest`: What is to come when some brackets are open.

## Theorems

* `jsmnParse_iff`: The accepted texts and their tokens.
* `jsmnParse_positions`: Where the tokens of an accepted text are.
-/

namespace RtosLwip

namespace Cmd

/-- What may stand between two quotes. -/
inductive StringBody : List UInt8 → Prop where
  | nil : StringBody []
  | plain {c : UInt8} {s : List UInt8} (hc : c ≠ 0 ∧ c ≠ 34 ∧ c ≠ 92) (hs : StringBody s) :
      StringBody (c :: s)
  | escape {c : UInt8} {s : List UInt8} (hc : isEscape c = true) (hs : StringBody s) :
      StringBody (92 :: c :: s)
  | unicode {ds s : List UInt8} (hlen : ds.length = 4) (hds : ∀ d ∈ ds, (hexDigit d).isSome = true)
      (hs : StringBody s) : StringBody (92 :: 117 :: (ds ++ s))

/-- A character of a primitive. -/
def IsWordByte (c : UInt8) : Prop := 32 ≤ c ∧ c < 127 ∧ isDelimiter c = false

/-- A primitive: any characters that are no separators, of which the first opens nothing. -/
def Word (w : List UInt8) : Prop :=
  (∀ c ∈ w, IsWordByte c) ∧ ∃ c t, w = c :: t ∧ c ≠ 123 ∧ c ≠ 91 ∧ c ≠ 34

/-- A colon, a comma or a blank. -/
def IsSeparator (c : UInt8) : Prop := isDelimiter c = true ∧ c ≠ 93 ∧ c ≠ 125

/-- What is behind a primitive. -/
def StopsWord (rest : List UInt8) : Prop :=
  rest = [] ∨ ∃ c t, rest = c :: t ∧ (c = 0 ∨ isDelimiter c = true)

/-- A text with its structure: a first piece, and what follows it. -/
inductive Json where
  | nil
  | separator (c : UInt8) (rest : Json)
  | string (body : List UInt8) (rest : Json)
  | primitive (word : List UInt8) (rest : Json)
  | group (object : Bool) (inner rest : Json)

namespace Json

def openBracket (object : Bool) : UInt8 := if object then 123 else 91

def closeBracket (object : Bool) : UInt8 := if object then 125 else 93

def groupType (object : Bool) : JsmnType := if object then .object else .array

/-- The characters of a text. -/
def render : Json → List UInt8
  | nil => []
  | separator c rest => c :: rest.render
  | string body rest => 34 :: (body ++ 34 :: rest.render)
  | primitive word rest => word ++ rest.render
  | group object inner rest =>
      openBracket object :: (inner.render ++ closeBracket object :: rest.render)

/-- The pieces are of their kinds, and what follows a primitive ends it. -/
def Valid : Json → Prop
  | nil => True
  | separator c rest => IsSeparator c ∧ rest.Valid
  | string body rest => StringBody body ∧ rest.Valid
  | primitive word rest => Word word ∧ StopsWord rest.render ∧ rest.Valid
  | group _ inner rest => inner.Valid ∧ rest.Valid

/-- The tokens of a text that begins at a position. -/
def tokens : Json → Nat → List Jsmntok
  | nil, _ => []
  | separator _ rest, pos => rest.tokens (pos + 1)
  | string body rest, pos =>
      ⟨.string, pos + 1, some (pos + 1 + body.length)⟩ :: rest.tokens (pos + body.length + 2)
  | primitive word rest, pos =>
      ⟨.primitive, pos, some (pos + word.length)⟩ :: rest.tokens (pos + word.length)
  | group object inner rest, pos =>
      ⟨groupType object, pos, some (pos + inner.render.length + 2)⟩ ::
        (inner.tokens (pos + 1) ++ rest.tokens (pos + inner.render.length + 2))

/-- How many tokens a text has. -/
def count : Json → Nat
  | nil => 0
  | separator _ rest => rest.count
  | string _ rest => rest.count + 1
  | primitive _ rest => rest.count + 1
  | group _ inner rest => inner.count + rest.count + 1

@[simp] theorem length_tokens (d : Json) (pos : Nat) : (d.tokens pos).length = d.count := by
  induction d generalizing pos with
  | nil => rfl
  | separator c rest ih => exact ih _
  | string body rest ih => rw [tokens, List.length_cons, ih, count]
  | primitive word rest ih => rw [tokens, List.length_cons, ih, count]
  | group object inner rest ihi ihr =>
      rw [tokens, List.length_cons, List.length_append, ihi, ihr, count]

/-- All tokens are closed. -/
theorem stop_tokens (d : Json) (pos : Nat) : ∀ t ∈ d.tokens pos, t.stop ≠ none := by
  induction d generalizing pos with
  | nil => exact List.forall_mem_nil _
  | separator c rest ih => exact ih _
  | string body rest ih => exact List.forall_mem_cons.mpr ⟨Option.some_ne_none _, ih _⟩
  | primitive word rest ih => exact List.forall_mem_cons.mpr ⟨Option.some_ne_none _, ih _⟩
  | group object inner rest ihi ihr =>
      refine List.forall_mem_cons.mpr ⟨Option.some_ne_none _, fun t ht => ?_⟩
      rcases List.mem_append.mp ht with h | h
      · exact ihi _ t h
      · exact ihr _ t h

end Json

/-! ### Strings and primitives -/

/-- The closing quote is found. -/
theorem StringBody.parse {s : List UInt8} (h : StringBody s) (rest : List UInt8) (pos : Nat) :
    jsmnParseString (s ++ 34 :: rest) pos 0 = .ok (pos + s.length) := by
  induction h generalizing pos with
  | nil =>
      rw [List.nil_append, jsmnParseString.eq_def]
      rfl
  | @plain c s hc hs ih =>
      rw [List.cons_append, jsmnParseString.eq_def]
      dsimp only
      rw [if_neg hc.1, if_neg hc.2.1, if_neg hc.2.2, ih, List.length_cons, Nat.add_assoc,
        Nat.add_comm 1]
  | @escape c s hc hs ih =>
      rw [List.cons_append, List.cons_append, jsmnParseString.eq_def]
      dsimp only
      rw [if_neg (by decide), if_neg (by decide), if_pos rfl, if_pos hc, ih, List.length_cons,
        List.length_cons]
      congr 1
      omega
  | @unicode ds s hlen hds hs ih =>
      rw [List.cons_append, List.cons_append, List.append_assoc, jsmnParseString.eq_def]
      dsimp only
      rw [if_neg (by decide), if_neg (by decide), if_pos rfl, if_neg (by decide), if_pos rfl,
        ← hlen, jsmnParseString_digits hds, ih, List.length_cons, List.length_cons,
        List.length_append]
      congr 1
      omega

/-- Digits that were asked for are there. -/
theorem exists_digits {js : List UInt8} {pos n stop : Nat}
    (h : jsmnParseString js pos n = .ok stop) :
    ∃ ds rest, js = ds ++ rest ∧ ds.length = n ∧ (∀ d ∈ ds, (hexDigit d).isSome = true) ∧
      jsmnParseString rest (pos + n) 0 = .ok stop := by
  induction n generalizing js pos with
  | zero => exact ⟨[], js, rfl, rfl, List.forall_mem_nil _, h⟩
  | succ n ih =>
      cases js with
      | nil =>
          rw [jsmnParseString] at h
          cases h
      | cons c js =>
          rw [jsmnParseString] at h
          by_cases hnul : c = 0
          · rw [if_pos hnul] at h
            cases h
          rw [if_neg hnul] at h
          by_cases hhex : (hexDigit c).isSome = true
          · rw [if_pos hhex] at h
            obtain ⟨ds, rest, rfl, hlen, hds, hrest⟩ := ih h
            refine ⟨c :: ds, rest, rfl, ?_, List.forall_mem_cons.mpr ⟨hhex, hds⟩, ?_⟩
            · rw [List.length_cons, hlen]
            · rw [← hrest, Nat.add_assoc, Nat.add_comm 1]
          · rw [if_neg hhex] at h
            cases h

/-- What stands before the closing quote is what may stand there. -/
theorem exists_stringBody {js : List UInt8} {pos stop : Nat}
    (h : jsmnParseString js pos 0 = .ok stop) :
    ∃ s rest, js = s ++ 34 :: rest ∧ StringBody s ∧ stop = pos + s.length := by
  -- an escape takes more than one character, so the induction is on the length
  induction hn : js.length using Nat.strong_induction_on generalizing js pos with
  | _ n ih =>
      cases js with
      | nil =>
          rw [jsmnParseString] at h
          cases h
      | cons c js =>
          rw [jsmnParseString.eq_def] at h
          dsimp only at h
          rw [List.length_cons] at hn
          by_cases hnul : c = 0
          · rw [if_pos hnul] at h
            cases h
          rw [if_neg hnul] at h
          by_cases hquote : c = 34
          · rw [if_pos hquote] at h
            exact ⟨[], js, by rw [hquote]; rfl, .nil, (Except.ok.inj h).symm⟩
          rw [if_neg hquote] at h
          by_cases hslash : c = 92
          · rw [if_pos hslash] at h
            subst hslash
            cases js with
            | nil => cases h
            | cons e js =>
                dsimp only at h
                rw [List.length_cons] at hn
                by_cases hesc : isEscape e = true
                · rw [if_pos hesc] at h
                  obtain ⟨s, rest, rfl, hs, hstop⟩ := ih js.length (by omega) h rfl
                  refine ⟨92 :: e :: s, rest, rfl, .escape hesc hs, ?_⟩
                  rw [hstop, List.length_cons, List.length_cons]
                  omega
                rw [if_neg hesc] at h
                by_cases hu : e = 117
                · rw [if_pos hu] at h
                  subst hu
                  obtain ⟨ds, r, rfl, hlen, hds, hr⟩ := exists_digits h
                  rw [List.length_append] at hn
                  obtain ⟨s, rest, rfl, hs, hstop⟩ := ih r.length (by omega) hr rfl
                  refine ⟨92 :: 117 :: (ds ++ s), rest, ?_, .unicode hlen hds hs, ?_⟩
                  · rw [List.cons_append, List.cons_append, List.append_assoc]
                  · rw [hstop, List.length_cons, List.length_cons, List.length_append]
                    omega
                · rw [if_neg hu] at h
                  cases h
          · rw [if_neg hslash] at h
            obtain ⟨s, rest, rfl, hs, hstop⟩ := ih js.length (by omega) h rfl
            refine ⟨c :: s, rest, rfl, .plain ⟨hnul, hquote, hslash⟩ hs, ?_⟩
            rw [hstop, List.length_cons]
            omega

theorem IsWordByte.ne_zero {c : UInt8} (h : IsWordByte c) : c ≠ 0 := by
  rintro rfl
  exact absurd h.1 (by decide)

/-- A primitive goes on to what ends it. -/
theorem jsmnParsePrimitive_bytes {w rest : List UInt8} (hw : ∀ c ∈ w, IsWordByte c)
    (hrest : StopsWord rest) (pos : Nat) :
    jsmnParsePrimitive (w ++ rest) pos = .ok (pos + w.length) := by
  induction w generalizing pos with
  | nil =>
      rcases hrest with rfl | ⟨c, t, rfl, hc⟩
      · rfl
      · rw [List.nil_append, jsmnParsePrimitive, if_pos hc]
        rfl
  | cons c w ih =>
      obtain ⟨hc, htail⟩ := List.forall_mem_cons.mp hw
      have hend : ¬ (c = 0 ∨ isDelimiter c = true) := by
        rw [not_or, Bool.not_eq_true]
        exact ⟨hc.ne_zero, hc.2.2⟩
      have hrange : ¬ (c < 32 ∨ 127 ≤ c) := by
        rw [not_or, UInt8.not_lt, UInt8.not_le]
        exact ⟨hc.1, hc.2.1⟩
      rw [List.cons_append, jsmnParsePrimitive, if_neg hend, if_neg hrange, ih htail,
        List.length_cons, Nat.add_assoc, Nat.add_comm 1]

theorem exists_word {js : List UInt8} {pos stop : Nat} (h : jsmnParsePrimitive js pos = .ok stop) :
    ∃ w rest, js = w ++ rest ∧ (∀ c ∈ w, IsWordByte c) ∧ StopsWord rest ∧
      stop = pos + w.length := by
  induction js generalizing pos with
  | nil =>
      rw [jsmnParsePrimitive] at h
      exact ⟨[], [], rfl, List.forall_mem_nil _, .inl rfl, (Except.ok.inj h).symm⟩
  | cons c js ih =>
      rw [jsmnParsePrimitive] at h
      by_cases hend : c = 0 ∨ isDelimiter c = true
      · rw [if_pos hend] at h
        exact ⟨[], c :: js, rfl, List.forall_mem_nil _, .inr ⟨c, js, rfl, hend⟩,
          (Except.ok.inj h).symm⟩
      rw [if_neg hend] at h
      by_cases hrange : c < 32 ∨ 127 ≤ c
      · rw [if_pos hrange] at h
        cases h
      rw [if_neg hrange] at h
      obtain ⟨w, rest, rfl, hw, hrest, hstop⟩ := ih h
      rw [not_or, UInt8.not_lt, UInt8.not_le] at hrange
      rw [not_or, Bool.not_eq_true] at hend
      refine ⟨c :: w, rest, rfl, List.forall_mem_cons.mpr ⟨⟨hrange.1, hrange.2, hend.2⟩, hw⟩,
        hrest, ?_⟩
      rw [hstop, List.length_cons]
      omega

/-! ### The token array -/

/-- A token array of which some tokens are used, with whatever earlier texts have left behind. -/
def loaded (used stale : List Jsmntok) : Tokens := ⟨used ++ stale, used.length⟩

theorem alloc_loaded (used : List Jsmntok) (old : Jsmntok) (stale : List Jsmntok) (t : Jsmntok) :
    (loaded used (old :: stale)).alloc t = some (loaded (used ++ [t]) stale) := by
  have hroom : ¬ (used ++ old :: stale).length ≤ used.length := by
    rw [List.length_append, List.length_cons]
    omega
  have hset : (used ++ old :: stale).set used.length t = used ++ t :: stale := by
    rw [List.set_append_right _ _ (Nat.le_refl _), Nat.sub_self, List.set_cons_zero]
  unfold loaded Tokens.alloc
  dsimp only
  rw [if_neg hroom, hset, List.length_append, List.append_assoc]
  rfl

theorem alloc_loaded_nil (used : List Jsmntok) (t : Jsmntok) : (loaded used []).alloc t = none := by
  unfold loaded Tokens.alloc
  dsimp only
  rw [if_pos (by rw [List.append_nil])]

/-- The last open token, from the end of the used ones. -/
theorem lastOpen_concat (used : List Jsmntok) (t : Jsmntok) (stale : List Jsmntok) :
    Tokens.lastOpen (used ++ [t] ++ stale) (used ++ [t]).length =
      if t.stop = none then some used.length
      else Tokens.lastOpen (used ++ t :: stale) used.length := by
  have hget : (used ++ t :: stale).getD used.length .zero = t := by
    simp
  rw [List.append_assoc, List.singleton_append, List.length_append, List.length_singleton,
    Tokens.lastOpen, hget]

/-- Either all used tokens are closed, or the last one that is open is found. -/
theorem lastOpen_cases (used stale : List Jsmntok) :
    (Tokens.lastOpen (used ++ stale) used.length = none ∧ ∀ t ∈ used, t.stop ≠ none) ∨
    ∃ a t b, used = a ++ t :: b ∧ t.stop = none ∧ (∀ u ∈ b, u.stop ≠ none) ∧
      Tokens.lastOpen (used ++ stale) used.length = some a.length := by
  induction used using List.reverseRecOn generalizing stale with
  | nil => exact .inl ⟨rfl, List.forall_mem_nil _⟩
  | append_singleton used t ih =>
      rw [lastOpen_concat]
      by_cases ht : t.stop = none
      · exact .inr ⟨used, t, [], rfl, ht, List.forall_mem_nil _, if_pos ht⟩
      · rw [if_neg ht]
        rcases ih (t :: stale) with ⟨hnone, hall⟩ | ⟨a, u, b, rfl, hu, hb, hsome⟩
        · refine .inl ⟨hnone, fun v hv => ?_⟩
          rcases List.mem_append.mp hv with h | h
          · exact hall v h
          · rwa [List.mem_singleton.mp h]
        · refine .inr ⟨a, u, b ++ [t], by simp, hu, fun v hv => ?_, hsome⟩
          rcases List.mem_append.mp hv with h | h
          · exact hb v h
          · rwa [List.mem_singleton.mp h]

/-- The types of the open tokens, the innermost first. -/
def openTypes (used : List Jsmntok) : List JsmnType :=
  ((used.filter fun t => t.stop = none).map Jsmntok.type).reverse

theorem openTypes_eq_nil {used : List Jsmntok} (h : ∀ t ∈ used, t.stop ≠ none) :
    openTypes used = [] := by
  have hnil : used.filter (fun t => t.stop = none) = [] :=
    List.filter_eq_nil_iff.mpr fun t ht => by simpa using h t ht
  rw [openTypes, hnil]
  rfl

theorem openTypes_append (a b : List Jsmntok) :
    openTypes (a ++ b) = openTypes b ++ openTypes a := by
  rw [openTypes, List.filter_append, List.map_append, List.reverse_append]
  rfl

theorem openTypes_cons (t : Jsmntok) (b : List Jsmntok) (hb : ∀ u ∈ b, u.stop ≠ none) :
    openTypes (t :: b) = if t.stop = none then [t.type] else [] := by
  have hsplit : t :: b = [t] ++ b := rfl
  rw [hsplit, openTypes_append, openTypes_eq_nil hb, List.nil_append, openTypes]
  by_cases ht : t.stop = none
  · simp [ht]
  · simp [ht]

/-- What a closing bracket does: the innermost open token is closed, if it is of its type. -/
theorem close_loaded (a : List Jsmntok) {t : Jsmntok} (ht : t.stop = none) (b : List Jsmntok)
    (hb : ∀ u ∈ b, u.stop ≠ none) (stale : List Jsmntok) (type : JsmnType) (stop : Nat) :
    (loaded (a ++ t :: b) stale).close type stop =
      if t.type = type then .ok (loaded (a ++ { t with stop := some stop } :: b) stale)
      else .error .inval := by
  have hopen : Tokens.lastOpen ((a ++ t :: b) ++ stale) (a ++ t :: b).length = some a.length := by
    rcases lastOpen_cases (a ++ t :: b) stale with ⟨-, hall⟩ | ⟨a', u, b', heq, hu, hb', hsome⟩
    · exact absurd ht (hall t (by simp))
    · rw [hsome]
      -- a list has only one last element that is open
      rcases List.append_eq_append_iff.mp heq with ⟨c, rfl, hc⟩ | ⟨c, rfl, hc⟩
      · cases c with
        | nil => rw [List.append_nil]
        | cons x c =>
            obtain ⟨rfl, rfl⟩ := List.cons.inj hc
            exact absurd hu (hb u (by simp))
      · cases c with
        | nil => rw [List.append_nil]
        | cons x c =>
            obtain ⟨rfl, rfl⟩ := List.cons.inj hc
            exact absurd ht (hb' t (by simp))
  have hget : ((a ++ t :: b) ++ stale).getD a.length .zero = t := by simp
  have hset : ((a ++ t :: b) ++ stale).set a.length { t with stop := some stop } =
      (a ++ { t with stop := some stop } :: b) ++ stale := by simp
  unfold loaded Tokens.close
  dsimp only
  rw [hopen]
  dsimp only
  rw [hget]
  by_cases htype : t.type = type
  · rw [if_pos htype, if_pos htype, hset]
    simp
  · rw [if_neg htype, if_neg htype]

/-! ### A value is scanned -/

theorem scan_nil (pos : Nat) (s : Tokens) : jsmnScan [] pos s = (s, none) := rfl

theorem scan_nul (rest : List UInt8) (pos : Nat) (s : Tokens) :
    jsmnScan (0 :: rest) pos s = (s, none) := by
  unfold jsmnScan
  rw [List.length_cons, jsmnLoop, if_pos rfl]

theorem IsSeparator.ne {c : UInt8} (h : IsSeparator c) :
    c ≠ 0 ∧ ¬ (c = 123 ∨ c = 91) ∧ ¬ (c = 125 ∨ c = 93) ∧ c ≠ 34 := by
  refine ⟨?_, ?_, not_or.mpr ⟨h.2.2, h.2.1⟩, ?_⟩
  · rintro rfl
    exact absurd h.1 (by decide)
  · rintro (rfl | rfl)
    · exact absurd h.1 (by decide)
    · exact absurd h.1 (by decide)
  · rintro rfl
    exact absurd h.1 (by decide)

theorem scan_separator {c : UInt8} (hc : IsSeparator c) (rest : List UInt8) (pos : Nat)
    (s : Tokens) : jsmnScan (c :: rest) pos s = jsmnScan rest (pos + 1) s := by
  obtain ⟨hnul, hopen, hclose, hquote⟩ := hc.ne
  unfold jsmnScan
  rw [List.length_cons, jsmnLoop, if_neg hnul, if_neg hopen, if_neg hclose, if_neg hquote,
    if_pos hc.1]

theorem scan_open (object : Bool) (rest : List UInt8) (pos : Nat) (used : List Jsmntok)
    (old : Jsmntok) (stale : List Jsmntok) :
    jsmnScan (Json.openBracket object :: rest) pos (loaded used (old :: stale)) =
      jsmnScan rest (pos + 1) (loaded (used ++ [⟨Json.groupType object, pos, none⟩]) stale) := by
  unfold jsmnScan
  rw [List.length_cons, jsmnLoop]
  cases object with
  | true =>
      have hopen : Json.openBracket true = 123 := rfl
      rw [hopen, if_neg (by decide), if_pos (.inl rfl), alloc_loaded]
      rfl
  | false =>
      have hopen : Json.openBracket false = 91 := rfl
      rw [hopen, if_neg (by decide), if_pos (.inr rfl), alloc_loaded]
      rfl

theorem scan_closeBracket {object : Bool} {s s' : Tokens} {pos : Nat}
    (h : s.close (Json.groupType object) (pos + 1) = .ok s') (rest : List UInt8) :
    jsmnScan (Json.closeBracket object :: rest) pos s = jsmnScan rest (pos + 1) s' := by
  cases object with
  | true => exact jsmnScan_close pos (.inl rfl) rest h
  | false => exact jsmnScan_close pos (.inr rfl) rest h

/-- What is behind a string. -/
theorem drop_string (body rest : List UInt8) (pos : Nat) :
    (body ++ 34 :: rest).drop (pos + 1 + body.length - pos) = rest := by
  have hlen : pos + 1 + body.length - pos = body.length + 1 := by omega
  rw [hlen, List.drop_append, List.drop_of_length_le (Nat.le_succ _), Nat.add_sub_cancel_left]
  rfl

theorem scan_string {body : List UInt8} (hbody : StringBody body) (rest : List UInt8) (pos : Nat)
    (used : List Jsmntok) (old : Jsmntok) (stale : List Jsmntok) :
    jsmnScan (34 :: (body ++ 34 :: rest)) pos (loaded used (old :: stale)) =
      jsmnScan rest (pos + body.length + 2)
        (loaded (used ++ [⟨.string, pos + 1, some (pos + 1 + body.length)⟩]) stale) := by
  have hnext : pos + body.length + 2 = pos + 1 + body.length + 1 := by omega
  unfold jsmnScan
  rw [List.length_cons, jsmnLoop, if_neg (by decide), if_neg (by decide), if_neg (by decide),
    if_pos rfl, hbody.parse]
  dsimp only
  rw [alloc_loaded]
  dsimp only
  rw [drop_string, hnext]
  exact jsmnLoop_eq_scan (by simp; omega) _ _

theorem scan_word {w : List UInt8} (hw : Word w) {rest : List UInt8} (hrest : StopsWord rest)
    (pos : Nat) (used : List Jsmntok) (old : Jsmntok) (stale : List Jsmntok) :
    jsmnScan (w ++ rest) pos (loaded used (old :: stale)) =
      jsmnScan rest (pos + w.length)
        (loaded (used ++ [⟨.primitive, pos, some (pos + w.length)⟩]) stale) := by
  obtain ⟨hall, c, t, rfl, hobject, harray, hquote⟩ := hw
  have hc := hall c List.mem_cons_self
  have hclose : ¬ (c = 125 ∨ c = 93) := by
    rintro (rfl | rfl)
    · exact absurd hc.2.2 (by decide)
    · exact absurd hc.2.2 (by decide)
  have hparse := jsmnParsePrimitive_bytes hall hrest pos
  have hdrop : (c :: t ++ rest).drop (pos + (c :: t).length - pos) = rest := by
    rw [Nat.add_sub_cancel_left, List.drop_left]
  rw [List.cons_append] at hparse hdrop ⊢
  unfold jsmnScan
  rw [List.length_cons, jsmnLoop, if_neg hc.ne_zero, if_neg (not_or.mpr ⟨hobject, harray⟩),
    if_neg hclose, if_neg hquote, if_neg (by rw [hc.2.2]; exact Bool.false_ne_true), hparse]
  dsimp only
  rw [alloc_loaded]
  dsimp only
  rw [hdrop]
  exact jsmnLoop_eq_scan (by simp) _ _

/-- What comes behind a text ends a primitive, if its own rest does not. -/
theorem StopsWord.append {a b : List UInt8} (ha : StopsWord a) (hb : StopsWord b) :
    StopsWord (a ++ b) := by
  rcases ha with rfl | ⟨c, t, rfl, hc⟩
  · exact hb
  · exact .inr ⟨c, t ++ b, rfl, hc⟩

theorem stopsWord_closeBracket (object : Bool) (rest : List UInt8) :
    StopsWord (Json.closeBracket object :: rest) := by
  refine .inr ⟨_, rest, rfl, .inr ?_⟩
  cases object <;> rfl

/-- A value is scanned, and its tokens are put behind the others. -/
theorem scan_render (d : Json) (hd : d.Valid) (rest : List UInt8) (hrest : StopsWord rest)
    (pos : Nat) (used stale : List Jsmntok) (hroom : d.count ≤ stale.length) :
    jsmnScan (d.render ++ rest) pos (loaded used stale) =
      jsmnScan rest (pos + d.render.length)
        (loaded (used ++ d.tokens pos) (stale.drop d.count)) := by
  induction d generalizing rest pos used stale with
  | nil =>
      rw [Json.tokens, List.append_nil]
      rfl
  | separator c d ih =>
      rw [Json.render, List.cons_append, scan_separator hd.1, ih hd.2 rest hrest _ _ _ hroom,
        List.length_cons, Nat.add_assoc, Nat.add_comm 1, Json.tokens, Json.count]
  | string body d ih =>
      rw [Json.count] at hroom
      cases stale with
      | nil => exact absurd hroom (Nat.not_succ_le_zero _)
      | cons old stale =>
          rw [List.length_cons] at hroom
          have hlen : pos + body.length + 2 + d.render.length =
              pos + (34 :: (body ++ 34 :: d.render)).length := by
            simp only [List.length_cons, List.length_append]
            omega
          rw [Json.render, List.cons_append, List.append_assoc, List.cons_append,
            scan_string hd.1, ih hd.2 rest hrest _ _ _ (Nat.le_of_succ_le_succ hroom),
            Json.tokens, Json.count, List.drop_succ_cons, List.append_assoc,
            List.singleton_append, hlen]
  | primitive w d ih =>
      rw [Json.count] at hroom
      cases stale with
      | nil => exact absurd hroom (Nat.not_succ_le_zero _)
      | cons old stale =>
          rw [List.length_cons] at hroom
          rw [Json.render, List.append_assoc, scan_word hd.1 (hd.2.1.append hrest),
            ih hd.2.2 rest hrest _ _ _ (Nat.le_of_succ_le_succ hroom), Json.tokens, Json.count,
            List.drop_succ_cons, List.append_assoc, List.singleton_append, List.length_append,
            Nat.add_assoc]
  | group object inner d ihi ihr =>
      rw [Json.count] at hroom
      cases stale with
      | nil => exact absurd hroom (Nat.not_succ_le_zero _)
      | cons old stale =>
          rw [List.length_cons] at hroom
          have hinner := ihi hd.1 (Json.closeBracket object :: (d.render ++ rest))
            (stopsWord_closeBracket object _) (pos + 1)
            (used ++ [⟨Json.groupType object, pos, none⟩]) stale (by omega)
          -- the bracket of the group is the last one that is open
          have hclose := close_loaded used (t := ⟨Json.groupType object, pos, none⟩) rfl
            (inner.tokens (pos + 1)) (inner.stop_tokens (pos + 1)) (stale.drop inner.count)
            (Json.groupType object) (pos + 1 + inner.render.length + 1)
          rw [if_pos rfl] at hclose
          have hlen : pos + 1 + inner.render.length + 1 = pos + inner.render.length + 2 := by omega
          have hlen' : pos + inner.render.length + 2 + d.render.length = pos +
              (Json.openBracket object ::
                (inner.render ++ Json.closeBracket object :: d.render)).length := by
            simp only [List.length_cons, List.length_append]
            omega
          rw [Json.render, List.cons_append, List.append_assoc, List.cons_append, scan_open,
            hinner, List.append_assoc, List.singleton_append, scan_closeBracket hclose,
            ihr hd.2 rest hrest _ _ _ (by rw [List.length_drop]; omega), List.drop_drop, hlen,
            hlen', Json.tokens, Json.count, List.drop_succ_cons, List.append_assoc,
            List.cons_append]

/-! ### An accepting run is that of a value -/

/-- What is to come when brackets of some kinds are open, with so many tokens: for each bracket a
    text and the closing bracket, and in the end a text that may have a NUL behind it. -/
def Rest : List Bool → List UInt8 → Nat → Prop
  | [], js, n => ∃ d : Json, d.Valid ∧ (js = d.render ∨ ∃ t, js = d.render ++ 0 :: t) ∧ d.count = n
  | object :: open', js, n => ∃ (d : Json) (r : List UInt8) (m : Nat), d.Valid ∧
      js = d.render ++ Json.closeBracket object :: r ∧ Rest open' r m ∧ n = d.count + m

/-- A piece comes in front of what is to come. -/
theorem Rest.cons {open' : List Bool} {js p : List UInt8} {n k : Nat} (f : Json → Json)
    (hrender : ∀ d, (f d).render = p ++ d.render)
    (hvalid : ∀ d t, Json.Valid d → js = d.render ++ t → (f d).Valid)
    (hcount : ∀ d, (f d).count = k + d.count) (h : Rest open' js n) :
    Rest open' (p ++ js) (k + n) := by
  cases open' with
  | nil =>
      obtain ⟨d, hd, hjs, rfl⟩ := h
      rcases hjs with rfl | ⟨t, rfl⟩
      · exact ⟨f d, hvalid d [] hd (List.append_nil _).symm, .inl (hrender d).symm, hcount d⟩
      · refine ⟨f d, hvalid d _ hd rfl, .inr ⟨t, ?_⟩, hcount d⟩
        rw [hrender, List.append_assoc]
  | cons object open' =>
      obtain ⟨d, r, m, hd, rfl, hr, rfl⟩ := h
      refine ⟨f d, r, m, hvalid d _ hd rfl, ?_, hr, ?_⟩
      · rw [hrender, List.append_assoc]
      · rw [hcount, Nat.add_assoc]

/-- An opening bracket comes in front: the bracket that closes it is to come. -/
theorem Rest.group {object : Bool} {open' : List Bool} {js : List UInt8} {n : Nat}
    (h : Rest (object :: open') js n) : Rest open' (Json.openBracket object :: js) (n + 1) := by
  obtain ⟨d, r, m, hd, rfl, hr, rfl⟩ := h
  have hcons := hr.cons (p := Json.openBracket object :: (d.render ++ [Json.closeBracket object]))
    (k := d.count + 1) (Json.group object d) (fun e => by simp [Json.render])
    (fun e t he _ => ⟨hd, he⟩) (fun e => by rw [Json.count]; omega)
  have hn : d.count + 1 + m = d.count + m + 1 := by omega
  rw [hn] at hcons
  simpa using hcons

theorem StopsWord.left {a b : List UInt8} (h : StopsWord (a ++ b)) : StopsWord a := by
  cases a with
  | nil => exact .inl rfl
  | cons c a =>
      rcases h with h | ⟨c', t, heq, hc⟩
      · cases h
      · obtain ⟨rfl, -⟩ := List.cons.inj heq
        exact .inr ⟨c, a, rfl, hc⟩

/-- The run ends here. -/
theorem rest_of_end {open' : List Bool} {js : List UInt8} {used stale : List Jsmntok}
    (hopen : openTypes used = open'.map Json.groupType)
    (hclosed : Tokens.lastOpen (loaded used stale).tokens (loaded used stale).toknext = none)
    (hjs : js = [] ∨ ∃ t, js = 0 :: t) : Rest open' js 0 := by
  have hall : ∀ t ∈ used, t.stop ≠ none := by
    rcases lastOpen_cases used stale with ⟨-, h⟩ | ⟨a, t, b, -, -, -, hsome⟩
    · exact h
    · exact absurd (hsome.symm.trans hclosed) (Option.some_ne_none _)
  rw [openTypes_eq_nil hall] at hopen
  obtain rfl := List.map_eq_nil_iff.mp hopen.symm
  exact ⟨.nil, trivial, hjs, rfl⟩

/-- Every run of so many rounds that accepts with this result has before it what is to come. -/
def RestAfter (fuel : Nat) (s : Tokens) : Prop :=
  ∀ (js : List UInt8) (pos : Nat) (used stale : List Jsmntok) (open' : List Bool),
    openTypes used = open'.map Json.groupType → js.length ≤ fuel →
    jsmnLoop fuel js pos (loaded used stale) = (s, none) → ∃ n ≤ stale.length, Rest open' js n

section Round

variable {fuel pos : Nat} {s : Tokens} {used stale : List Jsmntok} {open' : List Bool}
  {rest : List UInt8}

/-- A round that takes an opening bracket. -/
theorem rest_of_open (ih : RestAfter fuel s) (object : Bool)
    (hopen : openTypes used = open'.map Json.groupType) (hfuel : rest.length ≤ fuel)
    (hrun : jsmnLoop (fuel + 1) (Json.openBracket object :: rest) pos (loaded used stale) =
      (s, none)) : ∃ n ≤ stale.length, Rest open' (Json.openBracket object :: rest) n := by
  have hbracket : Json.openBracket object ≠ 0 ∧
      (Json.openBracket object = 123 ∨ Json.openBracket object = 91) ∧
      (if Json.openBracket object = 123 then JsmnType.object else .array) =
        Json.groupType object := by
    cases object <;> decide
  rw [jsmnLoop, if_neg hbracket.1, if_pos hbracket.2.1, hbracket.2.2] at hrun
  cases stale with
  | nil =>
      rw [alloc_loaded_nil] at hrun
      cases hrun
  | cons old stale =>
      rw [alloc_loaded] at hrun
      have hopen' : openTypes (used ++ [⟨Json.groupType object, pos, none⟩]) =
          (object :: open').map Json.groupType := by
        rw [openTypes_append, hopen]
        rfl
      obtain ⟨n, hn, hrest⟩ := ih _ _ _ _ _ hopen' hfuel hrun
      exact ⟨n + 1, Nat.succ_le_succ hn, hrest.group⟩

/-- A round that takes a closing bracket: the innermost bracket that is open is of its kind. -/
theorem rest_of_close (ih : RestAfter fuel s) (object : Bool)
    (hopen : openTypes used = open'.map Json.groupType) (hfuel : rest.length ≤ fuel)
    (hrun : jsmnLoop (fuel + 1) (Json.closeBracket object :: rest) pos (loaded used stale) =
      (s, none)) : ∃ n ≤ stale.length, Rest open' (Json.closeBracket object :: rest) n := by
  have hbracket : Json.closeBracket object ≠ 0 ∧
      ¬ (Json.closeBracket object = 123 ∨ Json.closeBracket object = 91) ∧
      (Json.closeBracket object = 125 ∨ Json.closeBracket object = 93) ∧
      (if Json.closeBracket object = 125 then JsmnType.object else .array) =
        Json.groupType object := by
    cases object <;> decide
  rw [jsmnLoop, if_neg hbracket.1, if_neg hbracket.2.1, if_pos hbracket.2.2.1,
    hbracket.2.2.2] at hrun
  rcases lastOpen_cases used stale with ⟨hnone, -⟩ | ⟨a, t, b, rfl, ht, hb, -⟩
  · have herr : (loaded used stale).close (Json.groupType object) (pos + 1) = .error .inval := by
      unfold Tokens.close loaded
      dsimp only
      rw [hnone]
    rw [herr] at hrun
    cases hrun
  · rw [close_loaded a ht b hb] at hrun
    by_cases hmatch : t.type = Json.groupType object
    · rw [if_pos hmatch] at hrun
      have hsplit : openTypes (a ++ t :: b) = t.type :: openTypes a := by
        rw [openTypes_append, openTypes_cons t b hb, if_pos ht]
        rfl
      have hsplit' : openTypes (a ++ { t with stop := some (pos + 1) } :: b) = openTypes a := by
        rw [openTypes_append, openTypes_cons _ b hb, if_neg (Option.some_ne_none _)]
        rfl
      rw [hsplit] at hopen
      cases open' with
      | nil => cases hopen
      | cons object' open' =>
          obtain ⟨hhead, htail⟩ := List.cons.inj hopen
          obtain rfl : object = object' := by
            rw [hmatch] at hhead
            cases object <;> cases object' <;> first | rfl | cases hhead
          obtain ⟨n, hn, hrest⟩ := ih _ _ _ _ _ (hsplit'.trans htail) hfuel hrun
          exact ⟨n, hn, .nil, rest, n, trivial, rfl, hrest, (Nat.zero_add n).symm⟩
    · rw [if_neg hmatch] at hrun
      cases hrun

/-- A token that is closed does not change what is open. -/
theorem openTypes_concat (hopen : openTypes used = open'.map Json.groupType) {t : Jsmntok}
    (ht : t.stop ≠ none) : openTypes (used ++ [t]) = open'.map Json.groupType := by
  rw [openTypes_append, hopen, openTypes_eq_nil (List.forall_mem_singleton.mpr ht),
    List.nil_append]

/-- A round that takes a string. -/
theorem rest_of_string (ih : RestAfter fuel s)
    (hopen : openTypes used = open'.map Json.groupType) (hfuel : rest.length ≤ fuel)
    (hrun : jsmnLoop (fuel + 1) (34 :: rest) pos (loaded used stale) = (s, none)) :
    ∃ n ≤ stale.length, Rest open' (34 :: rest) n := by
  rw [jsmnLoop, if_neg (by decide), if_neg (by decide), if_neg (by decide), if_pos rfl] at hrun
  cases hparse : jsmnParseString rest (pos + 1) 0 with
  | error e =>
      rw [hparse] at hrun
      cases hrun
  | ok stop =>
      obtain ⟨body, rest, rfl, hbody, rfl⟩ := exists_stringBody hparse
      rw [hparse] at hrun
      dsimp only at hrun
      cases stale with
      | nil =>
          rw [alloc_loaded_nil] at hrun
          cases hrun
      | cons old stale =>
          rw [alloc_loaded] at hrun
          dsimp only at hrun
          rw [drop_string] at hrun
          rw [List.length_append, List.length_cons] at hfuel
          obtain ⟨n, hn, hrest⟩ := ih _ _ _ _ _
            (openTypes_concat hopen (Option.some_ne_none _)) (by omega) hrun
          refine ⟨n + 1, Nat.succ_le_succ hn, ?_⟩
          have hcons := hrest.cons (p := 34 :: (body ++ [34])) (k := 1) (Json.string body)
            (fun d => by simp [Json.render]) (fun d t hd _ => ⟨hbody, hd⟩)
            (fun d => by rw [Json.count, Nat.add_comm])
          rw [Nat.add_comm]
          simpa using hcons

/-- A round that takes a separator. -/
theorem rest_of_separator (ih : RestAfter fuel s) {c : UInt8} (hc : IsSeparator c)
    (hopen : openTypes used = open'.map Json.groupType) (hfuel : rest.length ≤ fuel)
    (hrun : jsmnLoop (fuel + 1) (c :: rest) pos (loaded used stale) = (s, none)) :
    ∃ n ≤ stale.length, Rest open' (c :: rest) n := by
  obtain ⟨hnul, hbracket, hclose, hquote⟩ := hc.ne
  rw [jsmnLoop, if_neg hnul, if_neg hbracket, if_neg hclose, if_neg hquote, if_pos hc.1] at hrun
  obtain ⟨n, hn, hrest⟩ := ih _ _ _ _ _ hopen hfuel hrun
  refine ⟨n, hn, ?_⟩
  have hcons := hrest.cons (p := [c]) (k := 0) (Json.separator c) (fun d => rfl)
    (fun d t hd _ => ⟨hc, hd⟩) (fun d => by rw [Json.count, Nat.zero_add])
  rw [Nat.zero_add] at hcons
  exact hcons

/-- A round that takes a primitive. -/
theorem rest_of_word (ih : RestAfter fuel s) {c : UInt8} (hnul : c ≠ 0)
    (hbracket : ¬ (c = 123 ∨ c = 91)) (hclose : ¬ (c = 125 ∨ c = 93)) (hquote : c ≠ 34)
    (hdelim : ¬ isDelimiter c = true)
    (hopen : openTypes used = open'.map Json.groupType) (hfuel : rest.length ≤ fuel)
    (hrun : jsmnLoop (fuel + 1) (c :: rest) pos (loaded used stale) = (s, none)) :
    ∃ n ≤ stale.length, Rest open' (c :: rest) n := by
  rw [jsmnLoop, if_neg hnul, if_neg hbracket, if_neg hclose, if_neg hquote, if_neg hdelim] at hrun
  cases hparse : jsmnParsePrimitive (c :: rest) pos with
  | error e =>
      rw [hparse] at hrun
      cases hrun
  | ok stop =>
      obtain ⟨w, after, hjs, hw, hends, rfl⟩ := exists_word hparse
      rw [hparse] at hrun
      dsimp only at hrun
      cases stale with
      | nil =>
          rw [alloc_loaded_nil] at hrun
          cases hrun
      | cons old stale =>
          rw [alloc_loaded] at hrun
          dsimp only at hrun
          rw [hjs, Nat.add_sub_cancel_left, List.drop_left] at hrun
          -- the first character is one of the primitive's
          obtain ⟨w', rfl⟩ : ∃ w', w = c :: w' := by
            cases w with
            | nil =>
                rcases hends with hnil | ⟨c', t, hnil, hc'⟩
                · rw [hnil] at hjs
                  cases hjs
                · rw [hnil] at hjs
                  obtain ⟨rfl, -⟩ := List.cons.inj hjs
                  rcases hc' with h0 | h0
                  · exact absurd h0 hnul
                  · exact absurd h0 hdelim
            | cons x w' =>
                obtain ⟨rfl, -⟩ := List.cons.inj hjs
                exact ⟨w', rfl⟩
          have hlen := congrArg List.length hjs
          rw [List.length_append, List.length_cons, List.length_cons] at hlen
          obtain ⟨n, hn, hrest⟩ := ih _ _ _ _ _
            (openTypes_concat hopen (Option.some_ne_none _)) (by omega) hrun
          refine ⟨n + 1, Nat.succ_le_succ hn, ?_⟩
          rw [not_or] at hbracket
          have hcons := hrest.cons (p := c :: w') (k := 1) (Json.primitive (c :: w'))
            (fun d => rfl)
            (fun d t hd heq => ⟨⟨hw, c, w', rfl, hbracket.1, hbracket.2, hquote⟩,
              (heq ▸ hends).left, hd⟩)
            (fun d => by rw [Json.count, Nat.add_comm])
          rw [hjs, Nat.add_comm]
          exact hcons

end Round

/-- What an accepting run has before it. -/
theorem rest_of_loop (fuel : Nat) {s : Tokens}
    (hclosed : Tokens.lastOpen s.tokens s.toknext = none) : RestAfter fuel s := by
  induction fuel with
  | zero =>
      intro js pos used stale open' hopen hfuel hrun
      obtain rfl := List.length_eq_zero_iff.mp (Nat.le_zero.mp hfuel)
      obtain rfl : loaded used stale = s := (Prod.mk.inj hrun).1
      exact ⟨0, Nat.zero_le _, rest_of_end hopen hclosed (.inl rfl)⟩
  | succ fuel ih =>
      intro js pos used stale open' hopen hfuel hrun
      cases js with
      | nil =>
          obtain rfl : loaded used stale = s := (Prod.mk.inj hrun).1
          exact ⟨0, Nat.zero_le _, rest_of_end hopen hclosed (.inl rfl)⟩
      | cons c rest =>
          have hfuel' : rest.length ≤ fuel := Nat.le_of_succ_le_succ hfuel
          by_cases hnul : c = 0
          · subst hnul
            rw [jsmnLoop, if_pos rfl] at hrun
            obtain rfl : loaded used stale = s := (Prod.mk.inj hrun).1
            exact ⟨0, Nat.zero_le _, rest_of_end hopen hclosed (.inr ⟨rest, rfl⟩)⟩
          by_cases hbracket : c = 123 ∨ c = 91
          · rcases hbracket with rfl | rfl
            · exact rest_of_open ih true hopen hfuel' hrun
            · exact rest_of_open ih false hopen hfuel' hrun
          by_cases hclose : c = 125 ∨ c = 93
          · rcases hclose with rfl | rfl
            · exact rest_of_close ih true hopen hfuel' hrun
            · exact rest_of_close ih false hopen hfuel' hrun
          by_cases hquote : c = 34
          · subst hquote
            exact rest_of_string ih hopen hfuel' hrun
          by_cases hdelim : isDelimiter c = true
          · rw [not_or] at hclose
            exact rest_of_separator ih ⟨hdelim, hclose.2, hclose.1⟩ hopen hfuel' hrun
          · exact rest_of_word ih hnul hbracket hclose hquote hdelim hopen hfuel' hrun

/-! ### The accepted texts -/

/-- What the loop makes of the text of a value. -/
theorem loop_render {d : Json} (hd : d.Valid) {js : List UInt8} {toks : List Jsmntok}
    (hjs : js = d.render ∨ ∃ t, js = d.render ++ 0 :: t) (hroom : d.count ≤ toks.length) :
    jsmnLoop js.length js 0 ⟨toks, 0⟩ =
      (loaded (d.tokens 0) (toks.drop d.count), none) := by
  change jsmnScan js 0 (loaded [] toks) = _
  rcases hjs with rfl | ⟨t, rfl⟩
  · have hrun := scan_render d hd [] (.inl rfl) 0 [] toks hroom
    rw [List.append_nil, scan_nil] at hrun
    exact hrun
  · have hrun := scan_render d hd (0 :: t) (.inr ⟨0, t, rfl, .inl rfl⟩) 0 [] toks hroom
    rw [scan_nul] at hrun
    exact hrun

/-- The text of a value is accepted. -/
theorem jsmnParse_render {d : Json} (hd : d.Valid) {js : List UInt8} {toks : List Jsmntok}
    (hjs : js = d.render ∨ ∃ t, js = d.render ++ 0 :: t) (hroom : d.count ≤ toks.length) :
    jsmnParse js toks = (⟨d.tokens 0 ++ toks.drop d.count, d.count⟩, none) := by
  have hclosed : Tokens.lastOpen (d.tokens 0 ++ toks.drop d.count) (d.tokens 0).length = none := by
    rcases lastOpen_cases (d.tokens 0) (toks.drop d.count) with ⟨h, -⟩ | ⟨a, t, b, heq, ht, -⟩
    · exact h
    · exact absurd ht (d.stop_tokens 0 t (by rw [heq]; simp))
  unfold jsmnParse
  rw [loop_render hd hjs hroom]
  dsimp only [loaded]
  rw [hclosed, Json.length_tokens]

/-- A text that is accepted is that of a value. -/
theorem exists_json {js : List UInt8} {toks : List Jsmntok} {s : Tokens}
    (h : jsmnParse js toks = (s, none)) :
    ∃ d : Json, d.Valid ∧ (js = d.render ∨ ∃ t, js = d.render ++ 0 :: t) ∧
      d.count ≤ toks.length ∧ s = ⟨d.tokens 0 ++ toks.drop d.count, d.count⟩ := by
  unfold jsmnParse at h
  rcases hrun : jsmnLoop js.length js 0 ⟨toks, 0⟩ with ⟨s', err⟩
  rw [hrun] at h
  cases err with
  | some e => cases h
  | none =>
      dsimp only at h
      cases hclosed : Tokens.lastOpen s'.tokens s'.toknext with
      | some i =>
          rw [hclosed] at h
          cases h
      | none =>
          rw [hclosed] at h
          obtain rfl : s' = s := (Prod.mk.inj h).1
          have hopen : openTypes [] = ([] : List Bool).map Json.groupType := rfl
          obtain ⟨n, hn, d, hd, hjs, rfl⟩ :=
            rest_of_loop _ hclosed _ _ [] toks _ hopen (Nat.le_refl _) hrun
          refine ⟨d, hd, hjs, hn, ?_⟩
          rw [loop_render hd hjs hn] at hrun
          rw [← (Prod.mk.inj hrun).1, loaded, Json.length_tokens]

/-- A text is accepted exactly if it is that of a value, up to a NUL, and there are enough tokens.
    The tokens are then those of the value, and the others are what they were. -/
theorem jsmnParse_iff (js : List UInt8) (toks : List Jsmntok) (s : Tokens) :
    jsmnParse js toks = (s, none) ↔
      ∃ d : Json, d.Valid ∧ (js = d.render ∨ ∃ t, js = d.render ++ 0 :: t) ∧
        d.count ≤ toks.length ∧ s = ⟨d.tokens 0 ++ toks.drop d.count, d.count⟩ := by
  constructor
  · exact exists_json
  · rintro ⟨d, hd, hjs, hroom, rfl⟩
    exact jsmnParse_render hd hjs hroom

/-! ### The tokens are nested -/

/-- A token stands for a part of the text: a group with its brackets, what is between two quotes, or
    a primitive as far as it goes. -/
inductive Spans (js : List UInt8) : Jsmntok → Prop where
  | group {before inner after : List UInt8} {object : Bool}
      (h : js = before ++ Json.openBracket object :: (inner ++ Json.closeBracket object :: after)) :
      Spans js ⟨Json.groupType object, before.length, some (before.length + inner.length + 2)⟩
  | string {before body after : List UInt8} (hbody : StringBody body)
      (h : js = before ++ 34 :: (body ++ 34 :: after)) :
      Spans js ⟨.string, before.length + 1, some (before.length + 1 + body.length)⟩
  | primitive {before word after : List UInt8} (hword : Word word) (hends : StopsWord after)
      (h : js = before ++ (word ++ after)) :
      Spans js ⟨.primitive, before.length, some (before.length + word.length)⟩

/-- A token that comes later is behind, or inside a group. -/
def Nested (t u : Jsmntok) : Prop :=
  t.start < u.start ∧ ∃ i j, t.stop = some i ∧ u.stop = some j ∧
    (i ≤ u.start ∨ (t.type = .object ∨ t.type = .array) ∧ j < i)

namespace Json

theorem spans_tokens {d : Json} (hd : d.Valid) {js : List UInt8} (before after : List UInt8)
    (hjs : js = before ++ (d.render ++ after)) (hafter : StopsWord after) :
    ∀ t ∈ d.tokens before.length, Spans js t := by
  induction d generalizing before after with
  | nil => exact List.forall_mem_nil _
  | separator c d ih =>
      have hstep := ih hd.2 (before ++ [c]) after (by rw [hjs]; simp [render]) hafter
      rwa [List.length_append, List.length_singleton] at hstep
  | string body d ih =>
      have hstep := ih hd.2 (before ++ 34 :: (body ++ [34])) after (by rw [hjs]; simp [render])
        hafter
      have hlen : (before ++ 34 :: (body ++ [34])).length = before.length + body.length + 2 := by
        simp only [List.length_append, List.length_cons, List.length_nil]
        omega
      have hsplit : js = before ++ 34 :: (body ++ 34 :: (d.render ++ after)) := by
        rw [hjs]
        simp [render]
      rw [hlen] at hstep
      exact List.forall_mem_cons.mpr ⟨.string hd.1 hsplit, hstep⟩
  | primitive word d ih =>
      have hstep := ih hd.2.2 (before ++ word) after (by rw [hjs]; simp [render]) hafter
      have hsplit : js = before ++ (word ++ (d.render ++ after)) := by
        rw [hjs]
        simp [render]
      rw [List.length_append] at hstep
      exact List.forall_mem_cons.mpr ⟨.primitive hd.1 (hd.2.1.append hafter) hsplit, hstep⟩
  | group object inner d ihi ihr =>
      have hsplit : js = before ++ openBracket object ::
          (inner.render ++ closeBracket object :: (d.render ++ after)) := by
        rw [hjs]
        simp [render]
      have hinner := ihi hd.1 (before ++ [openBracket object])
        (closeBracket object :: (d.render ++ after)) (by rw [hsplit]; simp)
        (stopsWord_closeBracket object _)
      have hrest := ihr hd.2
        (before ++ openBracket object :: (inner.render ++ [closeBracket object])) after
        (by rw [hsplit]; simp) hafter
      have hlen : (before ++ openBracket object :: (inner.render ++ [closeBracket object])).length =
          before.length + inner.render.length + 2 := by
        simp only [List.length_append, List.length_cons, List.length_nil]
        omega
      rw [hlen] at hrest
      rw [List.length_append, List.length_singleton] at hinner
      refine List.forall_mem_cons.mpr ⟨.group hsplit, fun t ht => ?_⟩
      rcases List.mem_append.mp ht with h | h
      · exact hinner t h
      · exact hrest t h

/-- The tokens of a text are within it. -/
theorem within_tokens (d : Json) (hd : d.Valid) (pos : Nat) : ∀ t ∈ d.tokens pos,
    pos ≤ t.start ∧ ∃ j, t.stop = some j ∧ t.start ≤ j ∧ j ≤ pos + d.render.length := by
  induction d generalizing pos with
  | nil => exact List.forall_mem_nil _
  | separator c d ih =>
      intro t ht
      obtain ⟨h1, j, h2, h3, h4⟩ := ih hd.2 _ t ht
      refine ⟨by omega, j, h2, h3, ?_⟩
      rw [render, List.length_cons]
      omega
  | string body d ih =>
      have hlen : (string body d).render.length = body.length + 2 + d.render.length := by
        simp only [render, List.length_append, List.length_cons]
        omega
      refine List.forall_mem_cons.mpr ⟨⟨Nat.le_succ _, _, rfl, Nat.le_add_right _ _, ?_⟩, ?_⟩
      · rw [hlen]
        omega
      · intro t ht
        obtain ⟨h1, j, h2, h3, h4⟩ := ih hd.2 _ t ht
        exact ⟨by omega, j, h2, h3, by omega⟩
  | primitive word d ih =>
      have hlen : (primitive word d).render.length = word.length + d.render.length := by
        rw [render, List.length_append]
      refine List.forall_mem_cons.mpr ⟨⟨Nat.le_refl _, _, rfl, Nat.le_add_right _ _, ?_⟩, ?_⟩
      · rw [hlen]
        omega
      · intro t ht
        obtain ⟨h1, j, h2, h3, h4⟩ := ih hd.2.2 _ t ht
        exact ⟨by omega, j, h2, h3, by omega⟩
  | group object inner d ihi ihr =>
      have hlen : (group object inner d).render.length =
          inner.render.length + 2 + d.render.length := by
        simp only [render, List.length_append, List.length_cons]
        omega
      refine List.forall_mem_cons.mpr ⟨⟨Nat.le_refl _, _, rfl, ?_, ?_⟩, fun t ht => ?_⟩
      · dsimp only
        omega
      · rw [hlen]
        omega
      · rcases List.mem_append.mp ht with h | h
        · obtain ⟨h1, j, h2, h3, h4⟩ := ihi hd.1 _ t h
          exact ⟨by omega, j, h2, h3, by omega⟩
        · obtain ⟨h1, j, h2, h3, h4⟩ := ihr hd.2 _ t h
          exact ⟨by omega, j, h2, h3, by omega⟩

theorem nested_tokens (d : Json) (hd : d.Valid) (pos : Nat) : (d.tokens pos).Pairwise Nested := by
  induction d generalizing pos with
  | nil => exact List.Pairwise.nil
  | separator c d ih => exact ih hd.2 _
  | string body d ih =>
      refine List.Pairwise.cons (fun u hu => ?_) (ih hd.2 _)
      obtain ⟨h1, j, h2, -, -⟩ := d.within_tokens hd.2 _ u hu
      exact ⟨by dsimp only; omega, _, j, rfl, h2, .inl (by omega)⟩
  | primitive word d ih =>
      refine List.Pairwise.cons (fun u hu => ?_) (ih hd.2.2 _)
      obtain ⟨h1, j, h2, -, -⟩ := d.within_tokens hd.2.2 _ u hu
      have hpos : 0 < word.length := by
        obtain ⟨-, c, t, rfl, -⟩ := hd.1
        exact Nat.succ_pos _
      exact ⟨by dsimp only; omega, _, j, rfl, h2, .inl h1⟩
  | group object inner d ihi ihr =>
      refine List.Pairwise.cons (fun u hu => ?_)
        (List.pairwise_append.mpr ⟨ihi hd.1 _, ihr hd.2 _, fun t ht u hu => ?_⟩)
      · rcases List.mem_append.mp hu with h | h
        · obtain ⟨h1, j, h2, -, h3⟩ := inner.within_tokens hd.1 _ u h
          refine ⟨by dsimp only; omega, _, j, rfl, h2, .inr ⟨?_, by omega⟩⟩
          cases object
          · exact .inr rfl
          · exact .inl rfl
        · obtain ⟨h1, j, h2, -, -⟩ := d.within_tokens hd.2 _ u h
          exact ⟨by dsimp only; omega, _, j, rfl, h2, .inl h1⟩
      · obtain ⟨-, i, h1, h2, h3⟩ := inner.within_tokens hd.1 _ t ht
        obtain ⟨h4, j, h5, -, -⟩ := d.within_tokens hd.2 _ u hu
        exact ⟨by omega, i, j, h1, h5, .inl (by omega)⟩

end Json

/-- The tokens of an accepted text are parts of it of their kinds, in the order of their places, and
    any two of them are apart or one in the other. -/
theorem jsmnParse_positions {js : List UInt8} {toks : List Jsmntok} {s : Tokens}
    (h : jsmnParse js toks = (s, none)) :
    s.toknext ≤ toks.length ∧ s.tokens.drop s.toknext = toks.drop s.toknext ∧
      (∀ t ∈ s.tokens.take s.toknext, Spans js t) ∧
      (s.tokens.take s.toknext).Pairwise Nested := by
  obtain ⟨d, hd, hjs, hroom, rfl⟩ := exists_json h
  have hlen := d.length_tokens 0
  have htake : (d.tokens 0 ++ toks.drop d.count).take d.count = d.tokens 0 := by
    rw [← hlen, List.take_left]
  have hdrop : (d.tokens 0 ++ toks.drop d.count).drop d.count = toks.drop d.count := by
    conv => lhs; arg 1; rw [← hlen]
    rw [List.drop_left]
  dsimp only
  rw [htake, hdrop]
  refine ⟨hroom, rfl, ?_, d.nested_tokens hd 0⟩
  rcases hjs with rfl | ⟨t, rfl⟩
  · exact Json.spans_tokens hd [] [] (by simp) (.inl rfl)
  · exact Json.spans_tokens hd [] (0 :: t) rfl (.inr ⟨0, t, rfl, .inl rfl⟩)

/-- The text `[1]`. -/
theorem jsmnParse_positions_array :
    [(⟨.array, 0, some 3⟩ : Jsmntok), ⟨.primitive, 1, some 2⟩].Pairwise Nested := by
  have hrun : jsmnParse [91, 49, 93] [.zero, .zero] =
      (⟨[⟨.array, 0, some 3⟩, ⟨.primitive, 1, some 2⟩], 2⟩, none) := by decide
  exact (jsmnParse_positions hrun).2.2.2

end Cmd

end RtosLwip
