import Mathlib.Data.Bool.AllAny
import RtosLwip.Cmd.Grammar

/-!
# Looking up the Members of a Message

`extJsonFindKeyToken` looks for a key among the tokens of a message. It walks
them from the second one on, takes the first string that is equal to the key,
and returns the token behind it. Whether this string stands where a key stands
it does not ask, and it looks at one token more than the message has.

So a value that is spelled like a key is taken for it, when it comes first; and
where no string of the message is equal to the key, the token that some earlier
message has left behind this one decides, or the memory behind the array.

## Main definitions

* `IsMember`: A token is the key of a member, and equal to the key looked for.
* `Doc.keyIndex`, `Doc.lastExamined`: The search of `extJsonFindKeyToken`.
* `FindsMember`: The lookup returns the value of a member with this key.
* `FirstIsMember`: When it does.

## Theorems

* `extJsonFindKeyToken_eq`: The search in terms of places of the array.
* `getD_jsmnParse`: What the array holds behind the message.
* `findsMember_iff`: When a lookup returns the value of a member.
-/

namespace RtosLwip

namespace Cmd

/-- The token is the key of a member, and equal to the key looked for. -/
def IsMember (es : List Entry) (key : List UInt8) (k : Nat) : Prop :=
  match es[k]? with
  | some e => e.isKey = true ∧ e.string = some key
  | none => False

instance (es : List Entry) (key : List UInt8) (k : Nat) : Decidable (IsMember es key k) :=
  match h : es[k]? with
  | some e => decidable_of_iff (e.isKey = true ∧ e.string = some key) (by rw [IsMember, h])
  | none => .isFalse (by rw [IsMember, h]; exact id)

namespace Doc

variable (d : Doc) (key : List UInt8)

/-- The place of the token that `extJsonFindKeyToken` takes for the key. -/
def keyIndex : Option Nat :=
  (((d.tokens.drop 1).take d.toknext).findIdx? (jsoneq d.text key)).map (· + 1)

/-- The place of the last token that it looks at. -/
def lastExamined : Nat := (d.keyIndex key).getD d.toknext

end Doc

/-- A lookup in a message returns the value of a member with this key, and
    nothing when there is none. It returns no token behind the message, and
    looks at none behind the array. -/
structure FindsMember (es : List Entry) (key : List UInt8) (d : Doc) : Prop where
  found : (∃ k, IsMember es key k) → ∃ k, IsMember es key k ∧ d.keyIndex key = some k
  absent : (¬ ∃ k, IsMember es key k) → d.keyIndex key = none
  current : ∀ k, d.keyIndex key = some k → k + 1 < d.toknext
  inside : d.lastExamined key < d.tokens.length

/-- The first string behind the root that is equal to the key is a key. Or there
    is none, the array has a token behind the message, and what earlier messages
    have left there is not equal to the key either. -/
def FirstIsMember (es : List Entry) (key : List UInt8) (before : List Jsmntok)
    (text : List UInt8) : Prop :=
  match (es.drop 1).findIdx? (fun e => e.string = some key) with
  | some i => IsMember es key (i + 1)
  | none => es.length < before.length ∧ jsoneq text key (before.getD es.length .zero) = false

instance (es : List Entry) (key : List UInt8) (before : List Jsmntok) (text : List UInt8) :
    Decidable (FirstIsMember es key before text) :=
  match h : (es.drop 1).findIdx? (fun e => e.string = some key) with
  | some i => decidable_of_iff (IsMember es key (i + 1)) (by rw [FirstIsMember, h])
  | none => decidable_of_iff (es.length < before.length ∧
      jsoneq text key (before.getD es.length .zero) = false) (by rw [FirstIsMember, h])

/-- A token is allocated, and the rest is left to `go`. -/
theorem rel_alloc {R : Tokens → Tokens → Prop} (hrefl : ∀ s, R s s)
    (htrans : ∀ {s s' s''}, R s s' → R s' s'' → R s s'')
    (halloc : ∀ {s s' t}, s.alloc t = some s' → R s s') {go : Tokens → Tokens × Option JsmnErr}
    (hgo : ∀ s, R s (go s).1) (t : Jsmntok) (s : Tokens) :
    R s (match s.alloc t with
      | none => (s, some JsmnErr.nomem)
      | some s => go s).1 := by
  cases hs : s.alloc t with
  | none => exact hrefl s
  | some s' => exact htrans (halloc hs) (hgo s')

/-- What `alloc` and `close` do to the tokens, the loop of the tokenizer does. -/
theorem jsmnLoop_rel {R : Tokens → Tokens → Prop} (hrefl : ∀ s, R s s)
    (htrans : ∀ {s s' s''}, R s s' → R s' s'' → R s s'')
    (halloc : ∀ {s s' t}, s.alloc t = some s' → R s s')
    (hclose : ∀ {s s' : Tokens} {type stop}, s.close type stop = .ok s' → R s s') (fuel : Nat)
    (js : List UInt8) (pos : Nat) (s : Tokens) : R s (jsmnLoop fuel js pos s).1 := by
  induction fuel generalizing js pos s with
  | zero => exact hrefl s
  | succ fuel ih =>
      rcases js with _ | ⟨c, rest⟩
      · exact hrefl s
      unfold jsmnLoop
      by_cases hnul : c = 0
      · rw [if_pos hnul]
        exact hrefl s
      rw [if_neg hnul]
      by_cases hopen : c = 123 ∨ c = 91
      · rw [if_pos hopen]
        exact rel_alloc hrefl htrans halloc (ih _ _) _ s
      rw [if_neg hopen]
      by_cases hcl : c = 125 ∨ c = 93
      · rw [if_pos hcl]
        cases hs : s.close (if c = 125 then .object else .array) (pos + 1) with
        | error e => exact hrefl s
        | ok s' => exact htrans (hclose hs) (ih rest (pos + 1) s')
      rw [if_neg hcl]
      by_cases hquote : c = 34
      · rw [if_pos hquote]
        cases jsmnParseString rest (pos + 1) 0 with
        | error e => exact hrefl s
        | ok stop => exact rel_alloc hrefl htrans halloc (ih _ _) _ s
      rw [if_neg hquote]
      by_cases hdelim : isDelimiter c
      · rw [if_pos hdelim]
        exact ih rest (pos + 1) s
      rw [if_neg hdelim]
      cases jsmnParsePrimitive (c :: rest) pos with
      | error e => exact hrefl s
      | ok stop => exact rel_alloc hrefl htrans halloc (ih _ _) _ s

/-- The tokens behind the used ones stay as they are. -/
structure Leaves (s s' : Tokens) : Prop where
  grows : s.toknext ≤ s'.toknext
  behind : ∀ i, s'.toknext ≤ i → s'.tokens.getD i .zero = s.tokens.getD i .zero

theorem leaves_alloc {s s' : Tokens} {t : Jsmntok} (h : s.alloc t = some s') : Leaves s s' := by
  unfold Tokens.alloc at h
  split at h
  · cases h
  · cases h
    refine ⟨Nat.le_succ _, fun i hi => ?_⟩
    dsimp only at hi ⊢
    rw [getD_set, if_neg (by omega)]

theorem leaves_close {s s' : Tokens} {type : JsmnType} {stop : Nat}
    (h : s.close type stop = .ok s') : Leaves s s' := by
  unfold Tokens.close at h
  split at h
  · cases h
  next j hopen =>
    dsimp only at h
    split at h
    · cases h
      refine ⟨Nat.le_refl _, fun i hi => ?_⟩
      have hj := lastOpen_lt hopen
      dsimp only at hi ⊢
      rw [getD_set, if_neg (by omega)]
    · cases h

/-- Behind the message the array holds what earlier messages have left. -/
theorem getD_jsmnParse (js : List UInt8) (before : List Jsmntok) {i : Nat}
    (hi : (jsmnParse js before).1.toknext ≤ i) :
    (jsmnParse js before).1.tokens.getD i .zero = before.getD i .zero := by
  have hloop := jsmnLoop_rel (R := Leaves) (fun s => ⟨Nat.le_refl _, fun _ _ => rfl⟩)
    (fun h h' => ⟨Nat.le_trans h.grows h'.grows, fun i hi => (h'.behind i hi).trans
      (h.behind i (Nat.le_trans h'.grows hi))⟩) leaves_alloc leaves_close js.length js 0
    ⟨before, 0⟩
  have hfst : (jsmnParse js before).1 = (jsmnLoop js.length js 0 ⟨before, 0⟩).1 := by
    unfold jsmnParse
    split
    next heq => rw [heq]
    next heq =>
      rw [heq]
      split
      · rfl
      · rfl
  rw [hfst] at hi ⊢
  exact hloop.behind i hi

/-- A message in memory, parsed with what earlier messages have left. -/
def parsed (js tail : List UInt8) (before : List Jsmntok) : Doc :=
  ⟨(jsmnParse js before).1, js ++ tail⟩

section Lookup

variable {js : List UInt8} {es : List Entry} {before : List Jsmntok}

/-- The array behind the tokenizer: the tokens of the message, and behind them
    what was there before. -/
theorem tokens_parsed (h : IsJson js es) (hcap : es.length ≤ 100) (hsize : before.length = 100)
    (tail : List UInt8) :
    (parsed js tail before).toknext = es.length ∧
      (parsed js tail before).tokens = tokensOf es ++ before.drop es.length := by
  have hfresh := jsmnParse_json h hcap
  have hlen : (filled []).tokens.length = 100 := by
    simp only [filled, List.nil_append, List.length_replicate, List.length_nil, Nat.sub_zero]
  have htoks : (tokensOf es).length = es.length := List.length_map _
  rcases sameTokens_jsmnParse js (hsize.trans hlen.symm) with ⟨hsame, _, hkeep⟩
  rw [hfresh] at hsame hkeep
  have hnext : (jsmnParse js before).1.toknext = es.length := hsame.toknext.trans htoks
  refine ⟨hnext, List.ext_getElem ?_ fun i hi hi' => ?_⟩
  · rw [List.length_append, List.length_drop, htoks, hsize]
    change (jsmnParse js before).1.tokens.length = _
    rw [hsame.size, hkeep, hlen]
    omega
  · have hgetD : ∀ (l : List Jsmntok) (h : i < l.length), l.getD i .zero = l[i] := by
      intro l h
      rw [List.getD_eq_getElem?_getD, List.getElem?_eq_getElem h, Option.getD_some]
    rw [← hgetD _ hi]
    by_cases hused : i < es.length
    · have hused' : i < (tokensOf es).length := by omega
      rw [List.getElem_append_left hused']
      exact (hsame.used i hused').trans (getD_filled hused')
    · have hstale := getD_jsmnParse js before (i := i) (by omega)
      rw [List.getElem_append_right (by omega), List.getElem_drop]
      refine hstale.trans ?_
      rw [List.length_append, List.length_drop] at hi'
      rw [hgetD before (by omega)]
      congr 1
      omega

theorem findIdx?_congr {α : Type} {p q : α → Bool} {l : List α} (h : ∀ x ∈ l, p x = q x) :
    l.findIdx? p = l.findIdx? q := by
  induction l with
  | nil => rfl
  | cons x l ih =>
      rw [List.findIdx?_cons, List.findIdx?_cons, h x List.mem_cons_self,
        ih fun y hy => h y (List.mem_cons_of_mem x hy)]

/-- The token that is taken for the key: the first string that is equal to it,
    or the token behind the message. -/
theorem keyIndex_parsed (h : IsJson js es) (hcap : es.length ≤ 100) (hsize : before.length = 100)
    (tail key : List UInt8) : (parsed js tail before).keyIndex key
      = match (es.drop 1).findIdx? (fun e => e.string = some key) with
        | some i => some (i + 1)
        | none => if es.length < 100 ∧ jsoneq (js ++ tail) key (before.getD es.length .zero) = true
            then some es.length else none := by
  rcases tokens_parsed h hcap hsize tail with ⟨hnext, htokens⟩
  rcases h with @⟨w, v, w', es, hw, hv, hw'⟩
  rcases hv.head_value with ⟨root, l, rfl, -⟩
  have hmem : w ++ (v ++ w') ++ tail = w ++ (v ++ (w' ++ tail)) := by
    simp only [List.append_assoc]
  have hspells := jsoneq_spells hv rfl hmem key
  -- the tokens that are looked at
  have hlist : ((parsed (w ++ (v ++ w')) tail before).tokens.drop 1).take
      (parsed (w ++ (v ++ w')) tail before).toknext
      = l.map Entry.token ++ (before.drop (l.length + 1)).take 1 := by
    rw [hnext, htokens, tokensOf, List.map_cons, List.cons_append, List.drop_succ_cons,
      List.drop_zero, List.length_cons, List.take_append, List.length_map,
      Nat.add_sub_cancel_left, List.take_of_length_le (by rw [List.length_map]; omega)]
  have hfind : (l.map Entry.token).findIdx? (jsoneq (w ++ (v ++ w') ++ tail) key)
      = l.findIdx? (fun e => e.string = some key) := by
    rw [List.findIdx?_map]
    exact findIdx?_congr fun e he => hspells e (List.mem_cons_of_mem root he)
  rw [Doc.keyIndex, hlist]
  change Option.map _ (List.findIdx? (jsoneq (w ++ (v ++ w') ++ tail) key) _) = _
  rw [List.findIdx?_append, hfind, List.drop_succ_cons, List.drop_zero, List.length_cons]
  cases hkey : l.findIdx? (fun e => e.string = some key) with
  | some i => rfl
  | none =>
      rw [Option.none_or]
      by_cases hroom : l.length + 1 < 100
      · -- the token that is left behind the message
        have hstale : (before.drop (l.length + 1)).take 1 = [before.getD (l.length + 1) .zero] := by
          rw [List.drop_eq_getElem_cons (by omega), List.take_succ_cons, List.take_zero,
            List.getD_eq_getElem?_getD, List.getElem?_eq_getElem (by omega), Option.getD_some]
        rw [hstale, List.findIdx?_singleton, List.length_map]
        by_cases heq : jsoneq (w ++ (v ++ w') ++ tail) key (before.getD (l.length + 1) .zero) = true
        · dsimp only
          rw [if_pos heq, if_pos ⟨hroom, heq⟩, Option.map_some, Option.map_some, Nat.zero_add]
        · dsimp only
          rw [if_neg heq, if_neg fun h => heq h.2]
          rfl
      · have hend : before.drop (l.length + 1) = [] := List.drop_eq_nil_of_le (by omega)
        dsimp only
        rw [hend, if_neg fun h => hroom h.1]
        rfl

/-- Behind a key there is a token of the message. -/
theorem followed_getElem {l : List Entry} (h : KeysFollowed l) {k : Nat} {e : Entry}
    (hat : l[k]? = some e) (hkey : e.isKey = true) : k + 1 < l.length := by
  induction l generalizing k with
  | nil => cases hat
  | cons x l ih =>
      rw [List.length_cons]
      cases k with
      | zero =>
          rw [List.getElem?_cons_zero, Option.some.injEq] at hat
          rw [← hat] at hkey
          have hpos := List.length_pos_iff.mpr (h.1 hkey)
          omega
      | succ k =>
          rw [List.getElem?_cons_succ] at hat
          have hnext := ih h.2 hat
          omega

/-- Members come behind the root, and their values are tokens of the message. -/
theorem isMember_inside (h : IsJson js es) {key : List UInt8} {k : Nat} (hk : IsMember es key k) :
    (∃ e ∈ es.drop 1, e.string = some key) ∧ 0 < k ∧ k + 1 < es.length := by
  rcases h with @⟨w, v, w', es, hw, hv, hw'⟩
  rcases hv.head_value with ⟨root, l, rfl, hroot⟩
  have hfollowed := hv.keysFollowed
  unfold IsMember at hk
  cases hat : (root :: l)[k]? with
  | none =>
      rw [hat] at hk
      exact hk.elim
  | some e =>
      have hkey : e.isKey = true ∧ e.string = some key := by
        rw [hat] at hk
        exact hk
      cases k with
      | zero =>
          rw [List.getElem?_cons_zero, Option.some.injEq] at hat
          rw [hat] at hroot
          exact absurd (hroot.symm.trans hkey.1) Bool.false_ne_true
      | succ k =>
          rw [List.getElem?_cons_succ] at hat
          refine ⟨⟨e, List.mem_of_getElem? hat, hkey.2⟩, Nat.succ_pos k, ?_⟩
          have hnext := followed_getElem hfollowed.2 hat hkey.1
          rw [List.length_cons]
          omega

/-- In a JSON text of as many tokens as the array has room for, whatever was
    parsed before: a lookup returns the value of a member with this key exactly
    when the first string that is equal to the key is a key. -/
theorem findsMember_iff (h : IsJson js es) (hcap : es.length ≤ 100) (hsize : before.length = 100)
    (tail key : List UInt8) : FindsMember es key (parsed js tail before) ↔
      FirstIsMember es key before (js ++ tail) := by
  have hindex := keyIndex_parsed h hcap hsize tail key
  rcases tokens_parsed h hcap hsize tail with ⟨hnext, htokens⟩
  have hlen : (parsed js tail before).tokens.length = 100 := by
    rw [htokens, List.length_append, tokensOf, List.length_map, List.length_drop]
    omega
  unfold FirstIsMember
  cases hfirst : (es.drop 1).findIdx? (fun e => e.string = some key) with
  | some i =>
      rw [hfirst] at hindex
      dsimp only at hindex ⊢
      constructor
      · intro hf
        by_cases hex : ∃ k, IsMember es key k
        · rcases hf.found hex with ⟨k, hk, hkey⟩
          rw [hindex, Option.some.injEq] at hkey
          rwa [hkey]
        · have habsent := hf.absent hex
          rw [hindex] at habsent
          cases habsent
      · intro hmember
        have hinside := (isMember_inside h hmember).2
        refine ⟨fun _ => ⟨i + 1, hmember, hindex⟩, fun hno => absurd ⟨i + 1, hmember⟩ hno,
          fun k hk => ?_, ?_⟩
        · rw [hindex, Option.some.injEq] at hk
          rw [hnext, ← hk]
          exact hinside.2
        · rw [Doc.lastExamined, hindex, Option.getD_some, hlen]
          omega
  | none =>
      have hno : ¬ ∃ k, IsMember es key k := by
        rintro ⟨k, hk⟩
        rcases (isMember_inside h hk).1 with ⟨e, he, hstring⟩
        have hnone := List.findIdx?_eq_none_iff.mp hfirst e he
        rw [hstring] at hnone
        exact absurd rfl (of_decide_eq_false hnone)
      rw [hfirst] at hindex
      dsimp only at hindex ⊢
      rw [hsize]
      constructor
      · intro hf
        have habsent := hf.absent hno
        have hlast := hf.inside
        rw [Doc.lastExamined, habsent, Option.getD_none, hnext, hlen] at hlast
        refine ⟨hlast, ?_⟩
        rw [hindex] at habsent
        rw [← Bool.not_eq_true]
        intro heq
        rw [if_pos ⟨hlast, heq⟩] at habsent
        cases habsent
      · rintro ⟨hroom, hstale⟩
        rw [if_neg fun hc => Bool.false_ne_true (hstale.symm.trans hc.2)] at hindex
        refine ⟨fun hex => absurd hex hno, fun _ => hindex, fun k hk => ?_, ?_⟩
        · rw [hindex] at hk
          cases hk
        · rw [Doc.lastExamined, hindex, Option.getD_none, hnext, hlen]
          exact hroom

end Lookup

theorem isChars_of_plain {s : List UInt8} (h : ∀ c ∈ s, 32 ≤ c ∧ c ≠ 34 ∧ c ≠ 92) : IsChars s := by
  induction s with
  | nil => exact .nil
  | cons c s ih =>
      rcases h c List.mem_cons_self with ⟨hc, hquote, hslash⟩
      exact .char hc hquote hslash (ih fun x hx => h x (List.mem_cons_of_mem c hx))

/-- The text `{"cmd":"ab","ip":"x"}`, for two characters `a` and `b`. -/
def commandText (a b : UInt8) : List UInt8 :=
  123 :: (quoted (ascii "cmd") ++ 58 :: (quoted [a, b] ++ 44 :: (quoted (ascii "ip") ++
    58 :: (quoted (ascii "x") ++ [125]))))

/-- Its tokens. -/
def commandEntries (a b : UInt8) : List Entry :=
  [⟨⟨.object, 0, some 21⟩, none, false⟩,
    ⟨stringToken 1 (ascii "cmd"), some (ascii "cmd"), true⟩,
    ⟨stringToken 7 [a, b], some [a, b], false⟩,
    ⟨stringToken 12 (ascii "ip"), some (ascii "ip"), true⟩,
    ⟨stringToken 17 (ascii "x"), some (ascii "x"), false⟩]

theorem isJson_command {a b : UInt8} (h : ∀ c ∈ [a, b], 32 ≤ c ∧ c ≠ 34 ∧ c ≠ 92) :
    IsJson (commandText a b) (commandEntries a b) := by
  have hspace : IsSpace [] := nofun
  have hkey : IsChars (ascii "cmd") :=
    isChars_of_plain (List.all_iff_forall_prop.mp (by decide))
  have hkey' : IsChars (ascii "ip") :=
    isChars_of_plain (List.all_iff_forall_prop.mp (by decide))
  have hvalue' : IsChars (ascii "x") :=
    isChars_of_plain (List.all_iff_forall_prop.mp (by decide))
  have hcmd : Spells (.element true) 1
      (quoted (ascii "cmd") ++ ([] ++ 58 :: ([] ++ quoted [a, b]))) _ :=
    .member hkey hspace hspace (.string _ (isChars_of_plain h))
  have hip : Spells (.element true) 12
      (quoted (ascii "ip") ++ ([] ++ 58 :: ([] ++ quoted (ascii "x")))) _ :=
    .member hkey' hspace hspace (.string _ hvalue')
  have hlast := @Spells.last _ 12 _ _ _ _ hspace hip hspace
  have hlist := @Spells.next _ 1 _ _ _ _ _ _ hspace hcmd hspace hlast (List.cons_ne_nil _ _)
  exact IsJson.intro hspace (@Spells.object 0 _ _ hlist) hspace

/-- In `{"cmd":"go","ip":"x"}` the member `ip` is found. -/
theorem findsMember_go : FindsMember (commandEntries 103 111) (ascii "ip")
    (parsed (commandText 103 111) [] (filled []).tokens) :=
  have hjson := isJson_command (List.all_iff_forall_prop.mp (by decide))
  (findsMember_iff hjson (by decide) (by decide) [] (ascii "ip")).mpr (by decide)

/-- In `{"cmd":"ip","ip":"x"}` the value of `cmd` is taken for the key. -/
theorem not_findsMember_ip : IsJson (commandText 105 112) (commandEntries 105 112) ∧
    ¬ FindsMember (commandEntries 105 112) (ascii "ip")
      (parsed (commandText 105 112) [] (filled []).tokens) := by
  refine ⟨isJson_command (List.all_iff_forall_prop.mp (by decide)), fun h => ?_⟩
  rcases h.found ⟨3, by decide⟩ with ⟨k, hk, hkey⟩
  have htwo : (parsed (commandText 105 112) [] (filled []).tokens).keyIndex (ascii "ip")
      = some 2 := by decide +kernel
  rw [htwo, Option.some.injEq] at hkey
  rw [← hkey] at hk
  exact absurd hk (by decide)

end Cmd

end RtosLwip
