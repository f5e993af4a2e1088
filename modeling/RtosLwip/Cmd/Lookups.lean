import RtosLwip.Cmd.Values

/-!
# What the Handlers See

The parser is used for one message after the other, and its token array is not cleared.
The tokenizer does not see what earlier messages have left there: it comes to the same
tokens, or to the same error. And the handlers see the tokens only through the lookups,
by the values that these find for the keys of the command.

## Main definitions

* `SameTokens`: Two token arrays that agree as far as they are used.
* `Doc.value`: What a lookup finds.
* `Command.keys`: The keys that a handler looks up.
* `Blind`, `BlindM`, `BlindH`: A function that sees a document by its lookups only.

## Theorems

* `sameTokens_jsmnParse`: The tokenizer does not see what is left.
* `extJsonHandle_withDoc`: The handlers only see what the lookups find.
-/

namespace RtosLwip

namespace Cmd

/-- Two arrays that agree on the tokens that are used. -/
structure SameTokens (s s' : Tokens) : Prop where
  toknext : s'.toknext = s.toknext
  size : s'.tokens.length = s.tokens.length
  used : ∀ i < s.toknext, s'.tokens.getD i .zero = s.tokens.getD i .zero

section Tokenizer

variable {s s' : Tokens}

theorem getD_set (tokens : List Jsmntok) (i j : Nat) (t : Jsmntok) :
    (tokens.set i t).getD j .zero =
      if i = j ∧ j < tokens.length then t else tokens.getD j .zero := by
  simp only [List.getD_eq_getElem?_getD, List.getElem?_set]
  by_cases hij : i = j
  · subst hij
    by_cases hi : i < tokens.length
    · simp [hi]
    · simp [hi]
  · simp [hij]

/-- A new token is taken by both or by neither. -/
theorem sameTokens_alloc (h : SameTokens s s') (t : Jsmntok) :
    (s.alloc t = none ∧ s'.alloc t = none) ∨
      ∃ r r', s.alloc t = some r ∧ s'.alloc t = some r' ∧ SameTokens r r' ∧
        r.tokens.length = s.tokens.length := by
  unfold Tokens.alloc
  rw [h.toknext, h.size]
  by_cases hfull : s.tokens.length ≤ s.toknext
  · rw [if_pos hfull, if_pos hfull]
    exact Or.inl ⟨rfl, rfl⟩
  · rw [if_neg hfull, if_neg hfull]
    refine Or.inr ⟨_, _, rfl, rfl, ⟨rfl, ?_, fun i hi => ?_⟩, List.length_set⟩
    · dsimp only
      rw [List.length_set, List.length_set, h.size]
    · dsimp only at hi ⊢
      rw [getD_set, getD_set, h.size]
      by_cases hlast : s.toknext = i ∧ i < s.tokens.length
      · rw [if_pos hlast, if_pos hlast]
      · rw [if_neg hlast, if_neg hlast]
        exact h.used i (by omega)

theorem sameTokens_lastOpen (h : SameTokens s s') {n : Nat} (hn : n ≤ s.toknext) :
    Tokens.lastOpen s'.tokens n = Tokens.lastOpen s.tokens n := by
  induction n with
  | zero => rfl
  | succ n ih => rw [Tokens.lastOpen, Tokens.lastOpen, h.used n hn, ih (by omega)]

theorem lastOpen_lt {tokens : List Jsmntok} {n i : Nat} (h : Tokens.lastOpen tokens n = some i) :
    i < n := by
  induction n with
  | zero => cases h
  | succ n ih =>
      rw [Tokens.lastOpen] at h
      split at h
      · cases h
        exact Nat.lt_succ_self _
      · exact Nat.lt_succ_of_lt (ih h)

/-- A bracket closes the same token, or is wrong for the same reason. -/
theorem sameTokens_close (h : SameTokens s s') (type : JsmnType) (stop : Nat) :
    (∃ e, s.close type stop = .error e ∧ s'.close type stop = .error e) ∨
      ∃ r r', s.close type stop = .ok r ∧ s'.close type stop = .ok r' ∧ SameTokens r r' ∧
        r.tokens.length = s.tokens.length := by
  unfold Tokens.close
  rw [h.toknext, sameTokens_lastOpen h (Nat.le_refl _)]
  cases hopen : Tokens.lastOpen s.tokens s.toknext with
  | none => exact Or.inl ⟨_, rfl, rfl⟩
  | some i =>
      dsimp only
      rw [h.used i (lastOpen_lt hopen)]
      by_cases htype : (s.tokens.getD i .zero).type = type
      · rw [if_pos htype, if_pos htype]
        refine Or.inr ⟨_, _, rfl, rfl, ⟨rfl, ?_, fun j hj => ?_⟩, List.length_set⟩
        · dsimp only
          rw [List.length_set, List.length_set, h.size]
        · dsimp only at hj ⊢
          rw [getD_set, getD_set, h.size, h.used j hj]
      · rw [if_neg htype, if_neg htype]
        exact Or.inl ⟨_, rfl, rfl⟩

/-- A token is allocated on both sides, and the rest is left to `go`. -/
theorem sameTokens_go (h : SameTokens s s') (t : Jsmntok) {go : Tokens → Tokens × Option JsmnErr}
    (hgo : ∀ {r r' : Tokens}, SameTokens r r' → SameTokens (go r).1 (go r').1 ∧
      (go r').2 = (go r).2 ∧ (go r).1.tokens.length = r.tokens.length) :
    let alloc := fun (s : Tokens) => match s.alloc t with
      | none => (s, some JsmnErr.nomem)
      | some s => go s
    SameTokens (alloc s).1 (alloc s').1 ∧ (alloc s').2 = (alloc s).2 ∧
      (alloc s).1.tokens.length = s.tokens.length := by
  dsimp only
  rcases sameTokens_alloc h t with ⟨hs, hs'⟩ | ⟨r, r', hs, hs', hr, hsize⟩
  · rw [hs, hs']
    exact ⟨h, rfl, rfl⟩
  · rw [hs, hs', ← hsize]
    exact hgo hr

/-- The loop comes to the same end with both, and neither array changes its size. -/
theorem sameTokens_loop (fuel : Nat) (js : List UInt8) (pos : Nat) (h : SameTokens s s') :
    SameTokens (jsmnLoop fuel js pos s).1 (jsmnLoop fuel js pos s').1 ∧
      (jsmnLoop fuel js pos s').2 = (jsmnLoop fuel js pos s).2 ∧
      (jsmnLoop fuel js pos s).1.tokens.length = s.tokens.length := by
  induction fuel generalizing js pos s s' with
  | zero => exact ⟨h, rfl, rfl⟩
  | succ fuel ih =>
      rcases js with _ | ⟨c, rest⟩
      · exact ⟨h, rfl, rfl⟩
      unfold jsmnLoop
      by_cases hnul : c = 0
      · rw [if_pos hnul, if_pos hnul]
        exact ⟨h, rfl, rfl⟩
      rw [if_neg hnul, if_neg hnul]
      by_cases hopen : c = 123 ∨ c = 91
      · rw [if_pos hopen, if_pos hopen]
        exact sameTokens_go h _ (ih _ _)
      rw [if_neg hopen, if_neg hopen]
      by_cases hclose : c = 125 ∨ c = 93
      · rw [if_pos hclose, if_pos hclose]
        rcases sameTokens_close h (if c = 125 then .object else .array) (pos + 1) with
          ⟨e, hs, hs'⟩ | ⟨r, r', hs, hs', hr, hsize⟩
        · rw [hs, hs']
          exact ⟨h, rfl, rfl⟩
        · rw [hs, hs', ← hsize]
          exact ih rest (pos + 1) hr
      rw [if_neg hclose, if_neg hclose]
      by_cases hquote : c = 34
      · rw [if_pos hquote, if_pos hquote]
        cases jsmnParseString rest (pos + 1) 0 with
        | error e => exact ⟨h, rfl, rfl⟩
        | ok stop => exact sameTokens_go h _ (ih _ _)
      rw [if_neg hquote, if_neg hquote]
      by_cases hdelim : isDelimiter c
      · rw [if_pos hdelim, if_pos hdelim]
        exact ih rest (pos + 1) h
      rw [if_neg hdelim, if_neg hdelim]
      cases jsmnParsePrimitive (c :: rest) pos with
      | error e => exact ⟨h, rfl, rfl⟩
      | ok stop => exact sameTokens_go h _ (ih _ _)

/-- The tokenizer does not see what earlier messages have left in the array. -/
theorem sameTokens_jsmnParse (js : List UInt8) {tokens tokens' : List Jsmntok}
    (h : tokens'.length = tokens.length) :
    SameTokens (jsmnParse js tokens).1 (jsmnParse js tokens').1 ∧
      (jsmnParse js tokens').2 = (jsmnParse js tokens).2 ∧
      (jsmnParse js tokens).1.tokens.length = tokens.length := by
  have hempty : SameTokens ⟨tokens, 0⟩ ⟨tokens', 0⟩ := ⟨rfl, h, nofun⟩
  obtain ⟨hsame, herr, hsize⟩ := sameTokens_loop js.length js 0 hempty
  unfold jsmnParse
  rcases hs : jsmnLoop js.length js 0 ⟨tokens, 0⟩ with ⟨s, e⟩
  rcases hs' : jsmnLoop js.length js 0 ⟨tokens', 0⟩ with ⟨s', e'⟩
  rw [hs, hs'] at hsame herr
  rw [hs] at hsize
  dsimp only at hsame herr hsize ⊢
  subst herr
  cases e' with
  | some e => exact ⟨hsame, rfl, hsize⟩
  | none =>
      dsimp only
      rw [hsame.toknext, sameTokens_lastOpen hsame (Nat.le_refl _)]
      cases Tokens.lastOpen s.tokens s.toknext with
      | none => exact ⟨hsame, rfl, hsize⟩
      | some i => exact ⟨hsame, rfl, hsize⟩

end Tokenizer

/-- What a lookup finds. -/
inductive Value where
  | string (s : List UInt8)
  | primitive (z : Option Int)
  | array
  | other
  deriving DecidableEq

/-- The value that belongs to a key, as far as it is looked at. -/
def Doc.value (d : Doc) (key : Key) : Option Value :=
  (d.extJsonFindKeyToken key.text).map fun tok =>
    match tok.type with
    | .string => .string (d.stringOf tok)
    | .primitive => .primitive (scanInt (d.text.drop tok.start))
    | .array => .array
    | .object => .other
    | .undefined => .other

/-- Two documents with the same values. -/
def SameValues (K : List Key) (d d' : Doc) : Prop := ∀ key ∈ K, d'.value key = d.value key

/-- The parser with another document. -/
def Parser.withDoc (d : Doc) (p : Parser) : Parser := { p with doc := d }

@[simp] theorem Parser.withDoc_doc (d : Doc) (p : Parser) : (p.withDoc d).doc = d := rfl

theorem SameValues.of_eq {K : List Key} {d d' d'' : Doc} (h : SameValues K d d'') (heq : d' = d) :
    SameValues K d' d'' := heq ▸ h

/-- The function only sees the values of some keys, and it leaves the document as it is. -/
def Blind {α : Type} (K : List Key) (f : Parser → α × Parser) : Prop :=
  ∀ p d, SameValues K p.doc d → ∃ v q, f p = (v, q) ∧ f (p.withDoc d) = (v, q.withDoc d) ∧
    q.doc = p.doc

section Blind

variable {K : List Key} {key : Key}

theorem extJsonParseString_value (key : Key) (size : Nat) (p : Parser) :
    extJsonParseString key size p = match p.doc.value key with
      | none =>
          (none, p.paramError (ascii "ERROR can't find string '" ++ key.text ++ ascii "' object"))
      | some (.string s) => (some (s.take (size - 1)), p)
      | some _ => (none, p.paramError (ascii "'" ++ key.text ++ ascii "' was not an string")) := by
  unfold extJsonParseString Doc.value
  cases p.doc.extJsonFindKeyToken key.text with
  | none => rfl
  | some tok =>
      rcases tok with ⟨type, start, stop⟩
      cases type <;> rfl

theorem primitiveValue_value (key : Key) (p : Parser) :
    primitiveValue key p = match p.doc.value key with
      | none =>
          (none, p.paramError (ascii "ERROR can't find primitive '" ++ key.text ++
            ascii "' object"))
      | some (.primitive z) => (z, p)
      | some _ =>
          (none, p.paramError (ascii "'" ++ key.text ++ ascii "' was not an primitive")) := by
  unfold primitiveValue Doc.value
  cases p.doc.extJsonFindKeyToken key.text with
  | none => rfl
  | some tok =>
      rcases tok with ⟨type, start, stop⟩
      cases type <;> rfl

theorem extJsonParseDataArray_value (p : Parser) :
    extJsonParseDataArray p = match p.doc.value .dataArray with
      | none =>
          (false, p.paramError (ascii "ERROR can't find array '" ++ Key.dataArray.text ++
            ascii "' object"))
      | some .array => (true, p)
      | some _ =>
          (false, p.paramError
            (ascii "'" ++ Key.dataArray.text ++ ascii "' was not an array")) := by
  unfold extJsonParseDataArray Doc.value
  cases p.doc.extJsonFindKeyToken Key.dataArray.text with
  | none => rfl
  | some tok =>
      rcases tok with ⟨type, start, stop⟩
      cases type <;> rfl

theorem string_value (d : Doc) (key : Key) : d.string key.text = match d.value key with
    | some (.string s) => some s
    | _ => none := by
  unfold Doc.string Doc.value
  cases d.extJsonFindKeyToken key.text with
  | none => rfl
  | some tok =>
      rcases tok with ⟨type, start, stop⟩
      cases type <;> rfl

theorem number_value (d : Doc) (key : Key) : d.number key.text = match d.value key with
    | some (.primitive z) => z
    | _ => none := by
  unfold Doc.number Doc.value
  cases d.extJsonFindKeyToken key.text with
  | none => rfl
  | some tok =>
      rcases tok with ⟨type, start, stop⟩
      cases type <;> rfl

theorem blind_string (h : key ∈ K) (size : Nat) : Blind K (extJsonParseString key size) := by
  intro p d hd
  rw [extJsonParseString_value, extJsonParseString_value, Parser.withDoc_doc, hd key h]
  rcases p.doc.value key with _ | _ | _ | _ | _ <;> exact ⟨_, _, rfl, rfl, rfl⟩

theorem blind_primitive (h : key ∈ K) : Blind K (primitiveValue key) := by
  intro p d hd
  rw [primitiveValue_value, primitiveValue_value, Parser.withDoc_doc, hd key h]
  rcases p.doc.value key with _ | _ | _ | _ | _ <;> exact ⟨_, _, rfl, rfl, rfl⟩

theorem blind_dataArray (h : .dataArray ∈ K) : Blind K extJsonParseDataArray := by
  intro p d hd
  rw [extJsonParseDataArray_value, extJsonParseDataArray_value, Parser.withDoc_doc, hd _ h]
  rcases p.doc.value .dataArray with _ | _ | _ | _ | _ <;> exact ⟨_, _, rfl, rfl, rfl⟩

theorem blind_unsignedInteger (h : key ∈ K) : Blind K (extJsonParseUnsignedInteger key) := by
  intro p d hd
  obtain ⟨v, q, hp, hp', hq⟩ := blind_primitive h p d hd
  unfold extJsonParseUnsignedInteger
  rw [hp, hp']
  exact ⟨_, _, rfl, rfl, hq⟩

theorem blind_unsignedShort (h : key ∈ K) : Blind K (extJsonParseUnsignedShort key) := by
  intro p d hd
  obtain ⟨v, q, hp, hp', hq⟩ := blind_primitive h p d hd
  unfold extJsonParseUnsignedShort
  rw [hp, hp']
  exact ⟨_, _, rfl, rfl, hq⟩

theorem blind_unsignedChar (h : key ∈ K) : Blind K (extJsonParseUnsignedChar key) := by
  intro p d hd
  obtain ⟨v, q, hp, hp', hq⟩ := blind_primitive h p d hd
  unfold extJsonParseUnsignedChar
  rw [hp, hp']
  exact ⟨_, _, rfl, rfl, hq⟩

theorem blind_ipAddress (h : key ∈ K) : Blind K (extJsonParseIpAddress key) := by
  intro p d hd
  obtain ⟨v, q, hp, hp', hq⟩ := blind_string h 64 p d hd
  unfold extJsonParseIpAddress
  rw [hp, hp']
  cases v with
  | none => exact ⟨_, _, rfl, rfl, hq⟩
  | some s => exact ⟨_, _, rfl, rfl, hq⟩

theorem blind_macAddress (h : key ∈ K) (mac : MacAddress) :
    Blind K (extJsonParseMacAddress key mac) := by
  intro p d hd
  obtain ⟨v, q, hp, hp', hq⟩ := blind_string h 64 p d hd
  unfold extJsonParseMacAddress
  rw [hp, hp']
  cases v with
  | none => exact ⟨_, _, rfl, rfl, hq⟩
  | some s => exact ⟨_, _, rfl, rfl, hq⟩

end Blind

/-- The same for a function that may return early. -/
def BlindM {α : Type} (K : List Key) (m : ParseM α) : Prop :=
  ∀ p d, SameValues K p.doc d →
    (∃ v q, m p = .ok (v, q) ∧ m (p.withDoc d) = .ok (v, q.withDoc d) ∧ q.doc = p.doc) ∨
      ∃ q, m p = .error q ∧ m (p.withDoc d) = .error (q.withDoc d) ∧ q.doc = p.doc

namespace BlindM

variable {α β : Type} {K : List Key}

theorem bind {m : ParseM α} {k : α → ParseM β} (hm : BlindM K m) (hk : ∀ a, BlindM K (k a)) :
    BlindM K (m >>= k) := by
  intro p d hd
  simp only [Bind.bind, StateT.bind]
  rcases hm p d hd with ⟨v, q, hp, hp', hq⟩ | ⟨q, hp, hp', hq⟩
  · rw [hp, hp']
    simp only [Except.bind]
    rw [← hq] at hd ⊢
    exact hk v q d hd
  · rw [hp, hp']
    exact Or.inr ⟨q, rfl, rfl, hq⟩

theorem pure (a : α) : BlindM K (Pure.pure a) := fun p _ _ => Or.inl ⟨a, p, rfl, rfl, rfl⟩

theorem reject (text : List UInt8) : BlindM K (Cmd.reject text : ParseM α) :=
  fun p _ _ => Or.inr ⟨p.paramError text, rfl, rfl, rfl⟩

theorem read {f : Parser → α × Parser} (h : Blind K f) : BlindM K (Cmd.read f) := by
  intro p d hd
  obtain ⟨v, q, hp, hp', hq⟩ := h p d hd
  exact Or.inl ⟨v, q, congrArg Except.ok hp, congrArg Except.ok hp', hq⟩

theorem validate (key : Key) (print : α → List UInt8) (valid : α → Bool) (v : Option α) :
    BlindM K (Cmd.validate key print valid v) := by
  cases v with
  | none => exact .pure ()
  | some v =>
      unfold Cmd.validate
      dsimp only
      split
      · exact .pure ()
      · exact .reject _

theorem enumeration (strType : StrType) (key : Key) (v : Option (List UInt8)) :
    BlindM K (Cmd.enumeration strType key v) := by
  rcases v with _ | ⟨_ | ⟨c, s⟩⟩
  · exact .pure 0
  · exact .pure 0
  · unfold Cmd.enumeration
    dsimp only
    split
    · exact .pure _
    · exact .reject _

theorem validateMcastIp (run : RuntimeCfg) (r : UInt32 × Bool) :
    BlindM K (Cmd.validateMcastIp run r) := by
  unfold Cmd.validateMcastIp
  split
  · exact .reject _
  · exact .pure ()

theorem checkCount (found : Bool) : BlindM K (Cmd.checkCount found) := by
  intro p _ _
  cases found with
  | false => exact Or.inr ⟨_, rfl, rfl, rfl⟩
  | true => exact Or.inl ⟨_, _, rfl, rfl, rfl⟩

end BlindM

/-- The keys that `extJsonRequestParse` looks up. -/
def paramKeys : List Key :=
  [.cName, .mac, .ip, .mask, .gateway, .dhcp, .isDip, .rsBaudrate, .rsDatabits, .rsStopbits,
    .rsParity, .isMcast, .mcastIp, .videoPort, .audioPort, .adPort, .stPort, .videoWidth,
    .videoHeight, .videoFramerate, .videoDepth, .videoInterlaced, .videoSegmented,
    .videoColorspace, .audioSampeRate, .audioDepth, .audioChannels, .isConnect]

/-- The keys that the handler of a command looks up. -/
def Command.keys : Command → List Key
  | getParams => [.loginAck, .pwdMsg, .svr811Ip, .svr811Port]
  | setParams => .loginAck :: .pwdMsg :: paramKeys
  | sendRs232 => [.loginAck, .pwdMsg, .dataArray, .rs232DataHex, .rs232WaitTime, .rs232Feedback]
  | securityCheck => [.loginAck, .pwdMsg, .dataArray, .scSetKey, .scGetStatus, .scGetId]

theorem blindM_extJsonRequestParse {K : List Key} (hK : ∀ key ∈ paramKeys, key ∈ K)
    (run : RuntimeCfg) : BlindM K (extJsonRequestParse run) := by
  have hstring : ∀ key ∈ paramKeys, ∀ size, BlindM K (read (extJsonParseString key size)) :=
    fun key h size => .read (blind_string (hK key h) size)
  have hip : ∀ key ∈ paramKeys, BlindM K (read (extJsonParseIpAddress key)) :=
    fun key h => .read (blind_ipAddress (hK key h))
  have hmac : ∀ key ∈ paramKeys, ∀ mac, BlindM K (read (extJsonParseMacAddress key mac)) :=
    fun key h mac => .read (blind_macAddress (hK key h) mac)
  have hinteger : ∀ key ∈ paramKeys, BlindM K (read (extJsonParseUnsignedInteger key)) :=
    fun key h => .read (blind_unsignedInteger (hK key h))
  have hshort : ∀ key ∈ paramKeys, BlindM K (read (extJsonParseUnsignedShort key)) :=
    fun key h => .read (blind_unsignedShort (hK key h))
  have hchar : ∀ key ∈ paramKeys, BlindM K (read (extJsonParseUnsignedChar key)) :=
    fun key h => .read (blind_unsignedChar (hK key h))
  unfold extJsonRequestParse
  repeat
    refine BlindM.bind ?_ fun _ => ?_
    · first
      | exact hstring _ (by decide) _
      | exact hip _ (by decide)
      | exact hmac _ (by decide) _
      | exact hinteger _ (by decide)
      | exact hshort _ (by decide)
      | exact hchar _ (by decide)
      | exact .validate _ _ _ _
      | exact .enumeration _ _ _
      | exact .validateMcastIp _ _
      | exact .checkCount _
  exact .pure _

/-- The same for a handler. -/
def BlindH (K : List Key) (h : Parser → Outcome) : Prop :=
  ∀ p d, SameValues K p.doc d →
    h (p.withDoc d) = { h p with parser := (h p).parser.withDoc d } ∧ (h p).parser.doc = p.doc

section Handlers

variable (cfg : RuntimeCfg) {K : List Key}

theorem blind_userValidate (hK : .loginAck ∈ K ∧ .pwdMsg ∈ K) :
    Blind K (extJsonUserValidate cfg) := by
  intro p d hd
  unfold extJsonUserValidate
  obtain ⟨v, q, hp, hp', hq⟩ := blind_string hK.1 16 p d hd
  rw [hp, hp']
  cases v with
  | none => exact ⟨_, _, rfl, rfl, hq⟩
  | some name =>
      dsimp only
      split
      · exact ⟨_, _, rfl, rfl, hq⟩
      · obtain ⟨v, r, hr, hr', hrdoc⟩ := blind_string hK.2 16 q d (hd.of_eq hq)
        rw [hr, hr']
        cases v with
        | none => exact ⟨_, _, rfl, rfl, hrdoc.trans hq⟩
        | some name =>
            dsimp only
            split
            · exact ⟨_, _, rfl, rfl, hrdoc.trans hq⟩
            · exact ⟨_, _, rfl, rfl, hrdoc.trans hq⟩

theorem blind_isLocal (hK : .loginAck ∈ K ∧ .pwdMsg ∈ K) : Blind K (extIpCmdIsLocal cfg) := by
  intro p d hd
  unfold extIpCmdIsLocal
  obtain ⟨v, q, hp, hp', hq⟩ := blind_userValidate cfg hK p d hd
  rw [hp, hp']
  cases v with
  | false => exact ⟨_, _, rfl, rfl, hq⟩
  | true =>
      have hsame : (q.withDoc d).target = q.target := rfl
      dsimp only
      by_cases htarget : q.target = cfg.local.mac
      · rw [if_neg (not_not.mpr htarget), if_neg (not_not.mpr (hsame.trans htarget))]
        exact ⟨_, _, rfl, rfl, hq⟩
      · rw [if_pos htarget, if_pos fun h => htarget (hsame.symm.trans h)]
        exact ⟨_, _, rfl, rfl, hq⟩

theorem blind_isResponse (hK : .loginAck ∈ K) : Blind K extJsonIsResponse := by
  intro p d hd
  unfold extJsonIsResponse
  obtain ⟨v, q, hp, hp', hq⟩ := blind_string hK 16 p d hd
  rw [hp, hp']
  cases v with
  | none => exact ⟨_, _, rfl, rfl, hq⟩
  | some name =>
      dsimp only
      split
      · exact ⟨_, _, rfl, rfl, hq⟩
      · exact ⟨_, _, rfl, rfl, hq⟩

theorem blindH_getParams : BlindH Command.getParams.keys (extCmdGetParams cfg) := by
  have hip : Blind Command.getParams.keys (extJsonParseIpAddress .svr811Ip) :=
    blind_ipAddress (by decide)
  have hport : Blind Command.getParams.keys (extJsonParseUnsignedShort .svr811Port) :=
    blind_unsignedShort (by decide)
  intro p d hd
  unfold extCmdGetParams
  obtain ⟨v, q, hp, hp', hq⟩ := blind_userValidate cfg (by decide) p d hd
  rw [hp, hp']
  cases v with
  | false => exact ⟨rfl, hq⟩
  | true =>
      have haddressed : isAddressed cfg (q.withDoc d) = isAddressed cfg q := rfl
      dsimp only
      rw [haddressed]
      by_cases h : isAddressed cfg q
      · rw [if_neg (not_not.mpr h), if_neg (not_not.mpr h)]
        obtain ⟨ip, r, hr, hr', hrdoc⟩ := hip q d (hd.of_eq hq)
        obtain ⟨port, s, hs, hs', hsdoc⟩ := hport r d (hd.of_eq (hrdoc.trans hq))
        rw [hr, hr']
        dsimp only
        rw [hs, hs']
        exact ⟨rfl, hsdoc.trans (hrdoc.trans hq)⟩
      · rw [if_pos h, if_pos h]
        exact ⟨rfl, hq⟩

theorem blindH_setParams : BlindH Command.setParams.keys (extIpCmdSetupParams cfg) := by
  have hparams : BlindM Command.setParams.keys (extJsonRequestParse cfg) :=
    blindM_extJsonRequestParse (fun _ h => List.mem_cons_of_mem _ (List.mem_cons_of_mem _ h)) cfg
  intro p d hd
  unfold extIpCmdSetupParams
  obtain ⟨v, q, hp, hp', hq⟩ := blind_isResponse (by decide) p d hd
  rw [hp, hp']
  cases v with
  | true => exact ⟨rfl, hq⟩
  | false =>
      dsimp only
      obtain ⟨v, r, hr, hr', hrdoc⟩ := blind_isLocal cfg (by decide) q d (hd.of_eq hq)
      rw [hr, hr']
      have hdoc := hrdoc.trans hq
      cases v with
      | false => exact ⟨rfl, hdoc⟩
      | true =>
          dsimp only
          rcases hparams r d (hd.of_eq hdoc) with ⟨rx, s, hs, hs', hsdoc⟩ | ⟨s, hs, hs', hsdoc⟩
          · rw [hs, hs']
            exact ⟨rfl, hsdoc.trans hdoc⟩
          · rw [hs, hs']
            exact ⟨rfl, hsdoc.trans hdoc⟩

theorem blindH_sendRs232 : BlindH Command.sendRs232.keys (extIpCmdSendRsData cfg) := by
  have hdata : Blind Command.sendRs232.keys (extJsonParseString .rs232DataHex 128) :=
    blind_string (by decide) 128
  have htime : Blind Command.sendRs232.keys (extJsonParseUnsignedShort .rs232WaitTime) :=
    blind_unsignedShort (by decide)
  have hfeedback : Blind Command.sendRs232.keys (extJsonParseUnsignedChar .rs232Feedback) :=
    blind_unsignedChar (by decide)
  intro p d hd
  unfold extIpCmdSendRsData
  obtain ⟨v, q, hp, hp', hq⟩ := blind_isLocal cfg (by decide) p d hd
  rw [hp, hp']
  cases v with
  | false => exact ⟨rfl, hq⟩
  | true =>
      dsimp only
      obtain ⟨v, r, hr, hr', hrdoc⟩ := blind_dataArray (by decide) q d (hd.of_eq hq)
      rw [hr, hr']
      have hdoc := hrdoc.trans hq
      cases v with
      | false => exact ⟨rfl, hdoc⟩
      | true =>
          dsimp only
          obtain ⟨v, s, hs, hs', hsdoc⟩ := hdata r d (hd.of_eq hdoc)
          rw [hs, hs']
          replace hdoc := hsdoc.trans hdoc
          cases v with
          | none => exact ⟨rfl, hdoc⟩
          | some hexData =>
              dsimp only
              obtain ⟨v, t, ht, ht', htdoc⟩ := htime s d (hd.of_eq hdoc)
              rw [ht, ht']
              replace hdoc := htdoc.trans hdoc
              cases v with
              | none => exact ⟨rfl, hdoc⟩
              | some time =>
                  dsimp only
                  obtain ⟨v, u, hu, hu', hudoc⟩ := hfeedback t d (hd.of_eq hdoc)
                  rw [hu, hu']
                  replace hdoc := hudoc.trans hdoc
                  cases v with
                  | none => exact ⟨rfl, hdoc⟩
                  | some feedback =>
                      dsimp only
                      split
                      · exact ⟨rfl, hdoc⟩
                      · exact ⟨rfl, hdoc⟩

theorem blindH_securityCheck : BlindH Command.securityCheck.keys (extIpCmdSecurityCheck cfg) := by
  have hset : Blind Command.securityCheck.keys (extJsonParseString .scSetKey 32) :=
    blind_string (by decide) 32
  have hstatus : Blind Command.securityCheck.keys (extJsonParseString .scGetStatus 32) :=
    blind_string (by decide) 32
  have hid : Blind Command.securityCheck.keys (extJsonParseString .scGetId 32) :=
    blind_string (by decide) 32
  intro p d hd
  unfold extIpCmdSecurityCheck
  dsimp only
  obtain ⟨v, q, hp, hstart, hq⟩ := blind_isLocal cfg (by decide)
    { p with status := .ok, out := mediaFrame cfg false } d (hd : SameValues _ p.doc d)
  have hp' : extIpCmdIsLocal cfg { p.withDoc d with status := .ok, out := mediaFrame cfg false } =
      (v, q.withDoc d) := hstart
  rw [hp, hp']
  cases v with
  | false => exact ⟨rfl, hq⟩
  | true =>
      dsimp only
      obtain ⟨v, r, hr, hr', hrdoc⟩ := blind_dataArray (by decide) q d (hd.of_eq hq)
      rw [hr, hr']
      have hdoc := hrdoc.trans hq
      cases v with
      | false => exact ⟨rfl, hdoc⟩
      | true =>
          dsimp only
          obtain ⟨v, s, hs, hs', hsdoc⟩ := hset r d (hd.of_eq hdoc)
          rw [hs, hs']
          replace hdoc := hsdoc.trans hdoc
          cases v with
          | some key => exact ⟨rfl, hdoc⟩
          | none =>
              dsimp only
              obtain ⟨v, t, ht, ht', htdoc⟩ := hstatus s d (hd.of_eq hdoc)
              rw [ht, ht']
              replace hdoc := htdoc.trans hdoc
              cases v with
              | some status => exact ⟨rfl, hdoc⟩
              | none =>
                  dsimp only
                  obtain ⟨v, u, hu, hu', hudoc⟩ := hid t d (hd.of_eq hdoc)
                  rw [hu, hu']
                  replace hdoc := hudoc.trans hdoc
                  cases v with
                  | none => exact ⟨rfl, hdoc⟩
                  | some id => exact ⟨rfl, hdoc⟩

/-- Every handler sees a document by its lookups only. -/
theorem blindH_handler (c : Command) : BlindH c.keys (c.handler cfg) := by
  cases c with
  | getParams => exact blindH_getParams cfg
  | setParams => exact blindH_setParams cfg
  | sendRs232 => exact blindH_sendRs232 cfg
  | securityCheck => exact blindH_securityCheck cfg

theorem extJsonHandle_withDoc {p : Parser} {d : Doc}
    (hd : ∀ c, commandOf p.cmd.val = some c → SameValues c.keys p.doc d) :
    extJsonHandle cfg (p.withDoc d) =
        { extJsonHandle cfg p with parser := (extJsonHandle cfg p).parser.withDoc d } ∧
      (extJsonHandle cfg p).parser.doc = p.doc := by
  have hcmd : (p.withDoc d).cmd = p.cmd := rfl
  unfold extJsonHandle
  rw [hcmd]
  cases hc : commandOf p.cmd.val with
  | none => exact ⟨rfl, rfl⟩
  | some c =>
      obtain ⟨hsame, hdoc⟩ := blindH_handler cfg c p d (hd c hc)
      dsimp only
      rw [hsame]
      unfold Outcome.settle
      dsimp only
      by_cases hret : (c.handler cfg p).ret
      · rw [if_pos hret, if_pos hret]
        exact ⟨rfl, hdoc⟩
      · rw [if_neg hret, if_neg hret]
        exact ⟨rfl, hdoc⟩

end Handlers

end Cmd

end RtosLwip
