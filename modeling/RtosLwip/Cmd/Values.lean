import RtosLwip.Cmd.Handle

/-!
# The Values of a Message

What the functions of `udpCmdRequest.c` deliver depends on the text and on the
tokens alone, and none of them changes either. So each of them is a function of
the document, and so is the scratch configuration that `extJsonRequestParse`
fills, together with the question whether it rejects the message.

## Main definitions

* `Parser.input`: What the message has left in the parser.
* `Doc.unsignedInteger`, `Doc.ipAddress`, `Doc.macAddress` and their like: The
  values.
* `Doc.acceptable`: All values pass their checks, and there is one.
* `Doc.scratch`: The scratch configuration.
* `Delivers`: A function of the parser, as a function of the document.
* `Reads`: The same for a function that may reject the message.
* `Doc.authenticated`: The message is taken for authenticated.

## Theorems

* `delivers_string` and its like: The values that are delivered.
* `reads_extJsonRequestParse`: The scratch configuration of a message.
* `delivers_userValidate`, `extIpCmdIsLocal_eq`: Who may send a command.
-/

namespace RtosLwip

namespace Cmd

/-- What a message has left in the parser. -/
def Parser.input (p : Parser) : Doc × MacAddress × CString 31 := (p.doc, p.target, p.cmd)

section Input

variable {p q : Parser}

theorem Parser.doc_eq (h : q.input = p.input) : q.doc = p.doc := congrArg Prod.fst h

theorem Parser.target_eq (h : q.input = p.input) : q.target = p.target :=
  congrArg (fun i => i.2.1) h

end Input

namespace Doc

section Own

variable {d : Doc} {key : List UInt8}

/-- A token that the message itself has behind the key is the one that is found. -/
theorem find_of_own {tok : Jsmntok} (h : d.own.extJsonFindKeyToken key = some tok)
    (htype : tok.type ≠ .undefined) : d.extJsonFindKeyToken key = some tok := by
  unfold extJsonFindKeyToken at h ⊢
  obtain ⟨i, hi, rfl⟩ := Option.map_eq_some_iff.mp h
  have hfront : (d.own.tokens.drop 1).take d.own.toknext =
      (d.tokens.drop 1).take (d.toknext - 1) := by
    have hown : d.own.tokens = d.tokens.take d.toknext := rfl
    have hnext : d.own.toknext = d.toknext := rfl
    rw [hown, hnext, List.drop_take, List.take_take]
    congr 1
    omega
  have hsplit : (d.tokens.drop 1).take d.toknext = (d.tokens.drop 1).take (d.toknext - 1) ++
      ((d.tokens.drop 1).drop (d.toknext - 1)).take (d.toknext - (d.toknext - 1)) := by
    rw [← List.take_add]
    congr 1
    omega
  rw [hfront] at hi
  have htext : d.own.text = d.text := rfl
  rw [htext] at hi
  rw [hsplit, List.findIdx?_append, hi]
  simp only [Option.some_or, Option.map_some, Option.some.injEq]
  -- a token behind the message has no type in it
  have hown : d.own.tokens.getD (i + 2) .zero =
      if i + 2 < d.toknext then d.tokens.getD (i + 2) .zero else .zero := by
    have htokens : d.own.tokens = d.tokens.take d.toknext := rfl
    rw [htokens, List.getD_eq_getElem?_getD, List.getElem?_take]
    split
    · rw [List.getD_eq_getElem?_getD]
    · rfl
  rw [hown] at htype ⊢
  split at htype
  · rename_i hlt
    rw [if_pos hlt]
  · exact absurd rfl htype

theorem string_of_own {s : List UInt8} (h : d.own.string key = some s) :
    d.string key = some s := by
  unfold string at h ⊢
  cases hfind : d.own.extJsonFindKeyToken key with
  | none =>
      rw [hfind] at h
      cases h
  | some tok =>
      rw [hfind] at h
      dsimp only at h
      split at h
      · rename_i htype
        rw [find_of_own hfind (by rw [htype]; exact nofun)]
        exact (if_pos htype).trans h
      · cases h

theorem number_of_own {z : Int} (h : d.own.number key = some z) : d.number key = some z := by
  unfold number at h ⊢
  cases hfind : d.own.extJsonFindKeyToken key with
  | none =>
      rw [hfind] at h
      cases h
  | some tok =>
      rw [hfind] at h
      dsimp only at h
      split at h
      · rename_i htype
        rw [find_of_own hfind (by rw [htype]; exact nofun)]
        exact (if_pos htype).trans h
      · cases h

end Own

def unsignedInteger (key : Key) (d : Doc) : Option UInt32 := (d.number key.text).map fitU32

def unsignedShort (key : Key) (d : Doc) : Option UInt16 :=
  (d.number key.text).map fun z => (fitU32 z).toUInt16

def unsignedChar (key : Key) (d : Doc) : Option UInt8 :=
  (d.number key.text).map fun z => (fitU32 z).toUInt8

/-- A string that is copied into an array of `size` bytes. -/
def stringIn (key : Key) (size : Nat) (d : Doc) : Option (List UInt8) :=
  (d.string key.text).map fun s => s.take (size - 1)

/-- A string that is read has no NUL and fits. -/
theorem stringIn_spec {d : Doc} {key : Key} {n : Nat} {s : List UInt8}
    (h : d.stringIn key (n + 1) = some s) : (∀ c ∈ s, c ≠ 0) ∧ s.length ≤ n := by
  obtain ⟨full, hfull, rfl⟩ := Option.map_eq_some_iff.mp h
  have hstring : ∃ tok, d.stringOf tok = full := by
    unfold string at hfull
    split at hfull
    · cases hfull
    · rename_i tok _
      split at hfull
      · exact ⟨tok, Option.some.inj hfull⟩
      · cases hfull
  obtain ⟨tok, rfl⟩ := hstring
  exact ⟨fun c hc => ne_zero_of_mem_cstr (List.mem_of_mem_take hc), List.length_take_le _ _⟩

def ipAddress (key : Key) (d : Doc) : UInt32 × Bool :=
  match d.stringIn key 64 with
  | none => (ipaddrNone, false)
  | some s => (ipaddrAddr s, true)

def macAddress (key : Key) (mac : MacAddress) (d : Doc) : MacAddress × Bool :=
  match d.stringIn key 64 with
  | none => (mac, false)
  | some s => extMacAddressParse mac s

end Doc

/-- The function delivers a value of the document and leaves the document as it
    is. -/
def Delivers {α : Type} (f : Parser → α × Parser) (value : Doc → α) : Prop :=
  ∀ p, ∃ q, f p = (value p.doc, q) ∧ q.input = p.input

section Delivers

variable (key : Key)

theorem delivers_string (size : Nat) :
    Delivers (extJsonParseString key size) (Doc.stringIn key size) := by
  intro p
  unfold extJsonParseString Doc.stringIn Doc.string
  cases p.doc.extJsonFindKeyToken key.text with
  | none => exact ⟨_, rfl, rfl⟩
  | some tok =>
      by_cases h : tok.type = .string
      · simp only [if_pos h, Option.map_some]
        exact ⟨_, rfl, rfl⟩
      · simp only [if_neg h, Option.map_none]
        exact ⟨_, rfl, rfl⟩

theorem delivers_primitive : Delivers (primitiveValue key) (Doc.number key.text) := by
  intro p
  unfold primitiveValue Doc.number
  cases p.doc.extJsonFindKeyToken key.text with
  | none => exact ⟨_, rfl, rfl⟩
  | some tok =>
      by_cases h : tok.type = .primitive
      · simp only [if_pos h]
        exact ⟨_, rfl, rfl⟩
      · simp only [if_neg h]
        exact ⟨_, rfl, rfl⟩

theorem delivers_unsignedInteger :
    Delivers (extJsonParseUnsignedInteger key) (Doc.unsignedInteger key) := by
  intro p
  obtain ⟨q, hq, hin⟩ := delivers_primitive key p
  exact ⟨q, by rw [extJsonParseUnsignedInteger, hq, Doc.unsignedInteger], hin⟩

theorem delivers_unsignedShort :
    Delivers (extJsonParseUnsignedShort key) (Doc.unsignedShort key) := by
  intro p
  obtain ⟨q, hq, hin⟩ := delivers_primitive key p
  exact ⟨q, by rw [extJsonParseUnsignedShort, hq, Doc.unsignedShort], hin⟩

theorem delivers_unsignedChar :
    Delivers (extJsonParseUnsignedChar key) (Doc.unsignedChar key) := by
  intro p
  obtain ⟨q, hq, hin⟩ := delivers_primitive key p
  exact ⟨q, by rw [extJsonParseUnsignedChar, hq, Doc.unsignedChar], hin⟩

theorem delivers_ipAddress :
    Delivers (extJsonParseIpAddress key) (Doc.ipAddress key) := by
  intro p
  obtain ⟨q, hq, hin⟩ := delivers_string key 64 p
  unfold extJsonParseIpAddress Doc.ipAddress
  rw [hq]
  cases p.doc.stringIn key 64 with
  | none => exact ⟨q, rfl, hin⟩
  | some s => exact ⟨_, rfl, hin⟩

theorem delivers_macAddress (mac : MacAddress) :
    Delivers (extJsonParseMacAddress key mac) (Doc.macAddress key mac) := by
  intro p
  obtain ⟨q, hq, hin⟩ := delivers_string key 64 p
  unfold extJsonParseMacAddress Doc.macAddress
  rw [hq]
  cases p.doc.stringIn key 64 with
  | none => exact ⟨q, rfl, hin⟩
  | some s => exact ⟨_, rfl, hin⟩

end Delivers

/-- The function goes on for the documents that pass `check`, and delivers
    `value`. It leaves the document as it is. -/
def Reads {α : Type} (m : ParseM α) (check : Doc → Bool) (value : Doc → α) : Prop :=
  ∀ p, (check p.doc = true → ∃ q, m p = .ok (value p.doc, q) ∧ q.input = p.input) ∧
    (check p.doc = false → ∃ q, m p = .error q ∧ q.input = p.input)

namespace Reads

variable {α β : Type} {check : Doc → Bool} {value : Doc → α}

theorem bind {m : ParseM α} {k : α → ParseM β} {check' : α → Doc → Bool} {value' : α → Doc → β}
    (hm : Reads m check value) (hk : ∀ a, Reads (k a) (check' a) (value' a)) :
    Reads (m >>= k) (fun d => check d && check' (value d) d) (fun d => value' (value d) d) := by
  intro p
  cases hc : check p.doc with
  | false =>
      obtain ⟨q, hq, hin⟩ := (hm p).2 hc
      refine ⟨fun h => absurd h (by simp [hc]), fun _ => ⟨q, ?_, hin⟩⟩
      simp only [Bind.bind, StateT.bind, hq, Except.bind]
  | true =>
      obtain ⟨q, hq, hin⟩ := (hm p).1 hc
      -- the rest of the function sees the same document
      have hrest := hk (value p.doc) q
      rw [Parser.doc_eq hin] at hrest
      simp only [hc, Bool.true_and, Bind.bind, StateT.bind, hq, Except.bind]
      refine ⟨fun h => ?_, fun h => ?_⟩
      · obtain ⟨r, hr, hrin⟩ := hrest.1 h
        exact ⟨r, hr, hrin.trans hin⟩
      · obtain ⟨r, hr, hrin⟩ := hrest.2 h
        exact ⟨r, hr, hrin.trans hin⟩

theorem congr {m : ParseM α} {check' : Doc → Bool} {value' : Doc → α} (h : Reads m check value)
    (hcheck : ∀ d, check d = check' d) (hvalue : ∀ d, value d = value' d) :
    Reads m check' value' := by
  intro p
  rw [← hcheck, ← hvalue]
  exact h p

theorem pure (a : α) : Reads (Pure.pure a) (fun _ => true) (fun _ => a) :=
  fun p => ⟨fun _ => ⟨p, rfl, rfl⟩, nofun⟩

theorem reject (text : List UInt8) (a : α) :
    Reads (Cmd.reject text) (fun _ => false) (fun _ => a) :=
  fun p => ⟨nofun, fun _ => ⟨p.paramError text, rfl, rfl⟩⟩

theorem read {f : Parser → α × Parser} (h : Delivers f value) :
    Reads (Cmd.read f) (fun _ => true) value := by
  intro p
  obtain ⟨q, hq, hin⟩ := h p
  exact ⟨fun _ => ⟨q, congrArg Except.ok hq, hin⟩, nofun⟩

end Reads

section Steps

variable (key : Key)

theorem reads_validate {α : Type} (print : α → List UInt8) (valid : α → Bool) (v : Option α) :
    Reads (validate key print valid v) (fun _ => v.all valid) fun _ => () := by
  cases v with
  | none => exact .pure ()
  | some v =>
      unfold validate
      cases h : valid v with
      | true =>
          simp only [Option.all_some, h, if_true]
          exact .pure ()
      | false =>
          simp only [Option.all_some, h, Bool.false_eq_true, if_false]
          exact .reject _ ()

/-- The name of an enumeration is empty or in the table. -/
def knownName (strType : StrType) (v : Option (List UInt8)) : Bool :=
  v.all fun s => s = [] || (extCmnTypeFind strType s).isSome

/-- What the scratch configuration is given for a name. -/
def enumField (strType : StrType) (v : Option (List UInt8)) : UInt8 :=
  match v with
  | none => 0
  | some [] => 0
  | some s =>
      match extCmnTypeFind strType s with
      | some type => (type + 1).toUInt8
      | none => 0

theorem reads_enumeration (strType : StrType) (v : Option (List UInt8)) :
    Reads (enumeration strType key v) (fun _ => knownName strType v)
      fun _ => enumField strType v := by
  rcases v with _ | ⟨_ | ⟨c, s⟩⟩
  · exact .pure 0
  · exact .pure 0
  · unfold enumeration knownName enumField
    cases h : extCmnTypeFind strType (c :: s) with
    | none =>
        simp only [Option.all_some, h, reduceCtorEq, decide_false, Option.isSome_none,
          Bool.or_self]
        exact .reject _ 0
    | some type =>
        simp only [Option.all_some, h, Option.isSome_some, Bool.or_true]
        exact .pure _

/-- The check of a multicast address. -/
def validMcastIp (run : RuntimeCfg) (r : UInt32 × Bool) : Bool :=
  !(r.2 && run.multicast && !isMulticast r.1 && r.1 ≠ 0)

theorem reads_validateMcastIp (run : RuntimeCfg) (r : UInt32 × Bool) :
    Reads (validateMcastIp run r) (fun _ => validMcastIp run r) fun _ => () := by
  unfold validateMcastIp validMcastIp
  split
  · rename_i h
    simp only [h, Bool.not_true]
    exact .reject _ ()
  · rename_i h
    rw [Bool.not_eq_true] at h
    simp only [h, Bool.not_false]
    exact .pure ()

theorem reads_checkCount (found : Bool) :
    Reads (checkCount found) (fun _ => found) fun _ => () := by
  intro p
  unfold checkCount
  cases found with
  | false => exact ⟨nofun, fun _ => ⟨_, rfl, rfl⟩⟩
  | true => exact ⟨fun _ => ⟨_, rfl, rfl⟩, nofun⟩

end Steps

namespace Doc

variable (d : Doc)

/-- `count` is not 0 at the end of `extJsonRequestParse`. -/
def found : Bool :=
  (d.stringIn .cName 32).isSome || (d.macAddress .mac .zero).2 || (d.ipAddress .ip).2 ||
    (d.ipAddress .mask).2 || (d.ipAddress .gateway).2 || (d.unsignedInteger .dhcp).isSome ||
    (d.unsignedInteger .isDip).isSome || (d.unsignedInteger .rsBaudrate).isSome ||
    (d.unsignedChar .rsDatabits).isSome || (d.unsignedChar .rsStopbits).isSome ||
    (d.stringIn .rsParity 32).isSome || (d.unsignedInteger .isMcast).isSome ||
    (d.ipAddress .mcastIp).2 || (d.unsignedShort .videoPort).isSome ||
    (d.unsignedShort .audioPort).isSome || (d.unsignedShort .adPort).isSome ||
    (d.unsignedShort .stPort).isSome || (d.unsignedShort .videoWidth).isSome ||
    (d.unsignedShort .videoHeight).isSome || (d.unsignedChar .videoFramerate).isSome ||
    (d.unsignedChar .videoDepth).isSome || (d.unsignedInteger .videoInterlaced).isSome ||
    (d.unsignedInteger .videoSegmented).isSome || (d.stringIn .videoColorspace 32).isSome ||
    (d.unsignedShort .audioSampeRate).isSome || (d.unsignedChar .audioDepth).isSome ||
    (d.unsignedChar .audioChannels).isSome || (d.unsignedInteger .isConnect).isSome

/-- The values pass their checks, and there is at least one. -/
def acceptable (run : RuntimeCfg) : Bool :=
  (d.unsignedInteger .rsBaudrate).all validBaudRate &&
    (d.unsignedChar .rsDatabits).all validCharLength &&
    (d.unsignedChar .rsStopbits).all validStopbits &&
    knownName .rsParity (d.stringIn .rsParity 32) &&
    validMcastIp run (d.ipAddress .mcastIp) &&
    knownName .vColorSpace (d.stringIn .videoColorspace 32) &&
    (d.unsignedShort .audioSampeRate).all validSampleRate &&
    (d.unsignedChar .audioDepth).all validAudioDepth &&
    (d.unsignedChar .audioChannels).all validAudioChannels && d.found

/-- The scratch configuration that is filled from a message. -/
def scratch : RuntimeCfg := {
  RuntimeCfg.zero with
  name := .copy 31 ((d.stringIn .cName 32).getD [])
  «local» := ⟨(d.macAddress .mac .zero).1, (d.ipAddress .ip).1, 0, 0, 0, 0⟩
  ipMask := (d.ipAddress .mask).1
  ipGateway := (d.ipAddress .gateway).1
  netMode := flagField (d.unsignedInteger .dhcp)
  isDipOn := flagField (d.unsignedInteger .isDip)
  rs232Cfg := {
    baudRate := (d.unsignedInteger .rsBaudrate).getD 0
    charLength := (d.unsignedChar .rsDatabits).getD 0
    parityType := enumField .rsParity (d.stringIn .rsParity 32)
    stopbits := (d.unsignedChar .rsStopbits).getD 0 }
  isMCast := flagField (d.unsignedInteger .isMcast)
  dest := {
    mac := .zero
    ip := (d.ipAddress .mcastIp).1
    vport := (d.unsignedShort .videoPort).getD 0
    aport := (d.unsignedShort .audioPort).getD 0
    dport := (d.unsignedShort .adPort).getD 0
    sport := (d.unsignedShort .stPort).getD 0 }
  runtime := {
    vWidth := (d.unsignedShort .videoWidth).getD 0
    vHeight := (d.unsignedShort .videoHeight).getD 0
    vFrameRate := (d.unsignedChar .videoFramerate).getD 0
    vColorSpace := enumField .vColorSpace (d.stringIn .videoColorspace 32)
    vDepth := (d.unsignedChar .videoDepth).getD 0
    vIsInterlaced := flagField (d.unsignedInteger .videoInterlaced)
    vIsSegmented := flagField (d.unsignedInteger .videoSegmented)
    aSampleRate := (d.unsignedShort .audioSampeRate).getD 0
    aChannels := (d.unsignedChar .audioChannels).getD 0
    aDepth := (d.unsignedChar .audioDepth).getD 0
    isConnect := flagField (d.unsignedInteger .isConnect) } }

end Doc

/-- The scratch configuration of a message is a function of the document, and
    so is whether the message is rejected. -/
theorem reads_extJsonRequestParse (run : RuntimeCfg) :
    Reads (extJsonRequestParse run) (Doc.acceptable · run) Doc.scratch := by
  unfold extJsonRequestParse
  apply Reads.congr
  · apply (Reads.read (delivers_string _ _)).bind; intro _
    apply (Reads.read (delivers_macAddress _ _)).bind; intro _
    apply (Reads.read (delivers_ipAddress _)).bind; intro _
    apply (Reads.read (delivers_ipAddress _)).bind; intro _
    apply (Reads.read (delivers_ipAddress _)).bind; intro _
    apply (Reads.read (delivers_unsignedInteger _)).bind; intro _
    apply (Reads.read (delivers_unsignedInteger _)).bind; intro _
    apply (Reads.read (delivers_unsignedInteger _)).bind; intro _
    apply (reads_validate _ _ _ _).bind; intro _
    apply (Reads.read (delivers_unsignedChar _)).bind; intro _
    apply (reads_validate _ _ _ _).bind; intro _
    apply (Reads.read (delivers_unsignedChar _)).bind; intro _
    apply (reads_validate _ _ _ _).bind; intro _
    apply (Reads.read (delivers_string _ _)).bind; intro _
    apply (reads_enumeration _ _ _).bind; intro _
    apply (Reads.read (delivers_unsignedInteger _)).bind; intro _
    apply (Reads.read (delivers_ipAddress _)).bind; intro _
    apply (reads_validateMcastIp _ _).bind; intro _
    apply (Reads.read (delivers_unsignedShort _)).bind; intro _
    apply (Reads.read (delivers_unsignedShort _)).bind; intro _
    apply (Reads.read (delivers_unsignedShort _)).bind; intro _
    apply (Reads.read (delivers_unsignedShort _)).bind; intro _
    apply (Reads.read (delivers_unsignedShort _)).bind; intro _
    apply (Reads.read (delivers_unsignedShort _)).bind; intro _
    apply (Reads.read (delivers_unsignedChar _)).bind; intro _
    apply (Reads.read (delivers_unsignedChar _)).bind; intro _
    apply (Reads.read (delivers_unsignedInteger _)).bind; intro _
    apply (Reads.read (delivers_unsignedInteger _)).bind; intro _
    apply (Reads.read (delivers_string _ _)).bind; intro _
    apply (reads_enumeration _ _ _).bind; intro _
    apply (Reads.read (delivers_unsignedShort _)).bind; intro _
    apply (reads_validate _ _ _ _).bind; intro _
    apply (Reads.read (delivers_unsignedChar _)).bind; intro _
    apply (reads_validate _ _ _ _).bind; intro _
    apply (Reads.read (delivers_unsignedChar _)).bind; intro _
    apply (reads_validate _ _ _ _).bind; intro _
    apply (Reads.read (delivers_unsignedInteger _)).bind; intro _
    apply (reads_checkCount _).bind; intro _
    exact Reads.pure _
  · intro d
    simp only [Bool.true_and, Bool.and_true, Bool.and_assoc, Doc.acceptable, Doc.found]
  · intro d
    rfl

namespace Doc

/-- The login and the password begin with the configured ones, as far as they
    are copied. -/
def authenticated (cfg : RuntimeCfg) (d : Doc) : Bool :=
  (d.stringIn .loginAck 16).any (fun s => strncmpEq s cfg.user.val cfg.user.val.length) &&
    (d.stringIn .pwdMsg 16).any fun s => strncmpEq s cfg.password.val cfg.password.val.length

/-- The login is the status of a reply. -/
def isReply (d : Doc) : Bool :=
  (d.stringIn .loginAck 16).any fun s => strncmpEq s (ascii "OK") 2 || strncmpEq s (ascii "NOK") 3

/-- There is a data array. -/
def hasDataArray (d : Doc) : Bool :=
  (d.extJsonFindKeyToken Key.dataArray.text).any fun tok => tok.type = .array

end Doc

section Handlers

variable (cfg : RuntimeCfg)

theorem delivers_userValidate :
    Delivers (extJsonUserValidate cfg) (Doc.authenticated cfg) := by
  intro p
  obtain ⟨q, hq, hin⟩ := delivers_string .loginAck 16 p
  unfold extJsonUserValidate Doc.authenticated
  rw [hq]
  cases p.doc.stringIn .loginAck 16 with
  | none => exact ⟨q, rfl, hin⟩
  | some name =>
      cases hname : strncmpEq name cfg.user.val cfg.user.val.length with
      | false =>
          simp only [hname, Option.any_some, Bool.false_eq_true, not_false_eq_true, if_true,
            Bool.false_and]
          exact ⟨q, rfl, hin⟩
      | true =>
          obtain ⟨r, hr, hrin⟩ := delivers_string .pwdMsg 16 q
          rw [Parser.doc_eq hin] at hr
          simp only [hname, hr, Option.any_some, not_true_eq_false, if_false, Bool.true_and]
          cases p.doc.stringIn .pwdMsg 16 with
          | none => exact ⟨r, rfl, hrin.trans hin⟩
          | some pwd =>
              cases hpwd : strncmpEq pwd cfg.password.val cfg.password.val.length with
              | false =>
                  simp only [hpwd, Option.any_some, Bool.false_eq_true, not_false_eq_true,
                    if_true]
                  exact ⟨_, rfl, hrin.trans hin⟩
              | true =>
                  simp only [hpwd, Option.any_some, not_true_eq_false, if_false]
                  exact ⟨r, rfl, hrin.trans hin⟩

theorem delivers_dataArray : Delivers extJsonParseDataArray Doc.hasDataArray := by
  intro p
  unfold extJsonParseDataArray Doc.hasDataArray
  cases p.doc.extJsonFindKeyToken Key.dataArray.text with
  | none => exact ⟨_, rfl, rfl⟩
  | some tok =>
      by_cases h : tok.type = .array
      · simp only [Option.any_some, h, decide_true]
        exact ⟨_, rfl, rfl⟩
      · simp only [Option.any_some, h, decide_false]
        exact ⟨_, rfl, rfl⟩

/-- A local command is authenticated, and it names this device. -/
theorem extIpCmdIsLocal_eq (p : Parser) : ∃ q, extIpCmdIsLocal cfg p =
    (p.doc.authenticated cfg && decide (p.target = cfg.local.mac), q) ∧ q.input = p.input := by
  obtain ⟨q, hq, hin⟩ := delivers_userValidate cfg p
  unfold extIpCmdIsLocal
  rw [hq]
  cases p.doc.authenticated cfg with
  | false => exact ⟨q, rfl, hin⟩
  | true =>
      simp only [Parser.target_eq hin, Bool.true_and]
      by_cases h : p.target = cfg.local.mac
      · rw [if_neg (not_not.mpr h), decide_eq_true h]
        exact ⟨q, rfl, hin⟩
      · rw [if_pos h, decide_eq_false h]
        exact ⟨_, rfl, hin⟩

/-- A reply to an earlier command leaves no output. -/
theorem extJsonIsResponse_eq (p : Parser) : ∃ q, extJsonIsResponse p = (p.doc.isReply, q) ∧
    q.input = p.input ∧ (p.doc.isReply = true → q.out = []) := by
  obtain ⟨q, hq, hin⟩ := delivers_string .loginAck 16 p
  unfold extJsonIsResponse Doc.isReply
  rw [hq]
  cases p.doc.stringIn .loginAck 16 with
  | none => exact ⟨q, rfl, hin, nofun⟩
  | some name =>
      simp only [Option.any_some]
      by_cases h : ¬ strncmpEq name (ascii "OK") 2 ∧ ¬ strncmpEq name (ascii "NOK") 3
      · have hfalse :
            (strncmpEq name (ascii "OK") 2 || strncmpEq name (ascii "NOK") 3) = false := by
          simpa using h
        rw [if_pos h, hfalse]
        exact ⟨q, rfl, hin, nofun⟩
      · have htrue : (strncmpEq name (ascii "OK") 2 || strncmpEq name (ascii "NOK") 3) = true := by
          by_contra hn
          exact h (by simpa using hn)
        rw [if_neg h, htrue]
        exact ⟨_, rfl, hin, fun _ => rfl⟩

/-- The parameters of a message that is acceptable, and otherwise a failure. -/
theorem extJsonRequestParse_eq (p : Parser) :
    (p.doc.acceptable cfg = true →
      ∃ q, extJsonRequestParse cfg p = .ok (p.doc.scratch, q) ∧ q.input = p.input) ∧
    (p.doc.acceptable cfg = false →
      ∃ q, extJsonRequestParse cfg p = .error q ∧ q.input = p.input) :=
  reads_extJsonRequestParse cfg p

end Handlers

end Cmd

end RtosLwip
