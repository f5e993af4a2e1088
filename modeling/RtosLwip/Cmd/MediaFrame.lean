import RtosLwip.Cmd.Addresses
import RtosLwip.Cmd.Leftovers
import RtosLwip.Cmd.Printed

/-!
# The Media Parameters on Their Way

A transmitter tells a receiver its media parameters in a `set_param` command of its own.
The frame is accepted, and the receiver is handed the text that was printed. It finds
the same values in it, and takes them if they pass its checks.

## Main definitions

* `HandsOn`: A device accepts a frame, and hands on its text.
* `nestedText`: The text of an object with an array of one more object.
* `requestFields`, `mediaFields`: What is printed.
* `LoginReadable`: The login does not mislead the receiver.
* `admits`: The checks of the receiver.
* `readBack`: What it reads.

## Theorems

* `handsOn_tail`: Every device accepts the frame of a request.
* `jsmnParse_nested`: The tokens of the text.
* `value_mediaFrame`: The lookups find what was printed.
* `mediaFrame_readBack`: What a receiver makes of the frame.
-/

namespace RtosLwip

namespace Cmd

section Envelope

variable {json : List UInt8}

theorem htons_htons (v : UInt16) : htons (htons v) = v := by
  unfold htons
  apply UInt16.eq_of_toBitVec_eq
  ext i hi
  simp
  grind

theorem length_tail (json : List UInt8) (isRequest : Bool) :
    (extIpCmdResponseTailCalculate json isRequest).length = json.length + 9 := by
  simp [extIpCmdResponseTailCalculate, bytes16, bytes32]

/-- What stands behind the header. -/
theorem drop_tail (json : List UInt8) (isRequest : Bool) :
    (extIpCmdResponseTailCalculate json isRequest).drop ipcmdHeaderLength =
      json ++ [125] ++ bytes32 (htonl (cmnMuxCRC32b (json ++ [125]))) := by
  simp [extIpCmdResponseTailCalculate, bytes16, ipcmdHeaderLength]

theorem le16_tail (json : List UInt8) :
    le16 (extIpCmdResponseTailCalculate json true) = cmdTagRequest := by
  unfold extIpCmdResponseTailCalculate
  dsimp only
  rw [List.append_assoc, List.append_assoc, le16_bytes16]
  rfl

theorem frameLength_tail (h : json.length + 9 ≤ bufLength) (isRequest : Bool) :
    frameLength (extIpCmdResponseTailCalculate json isRequest) = json.length + 5 := by
  have hbytes : bytesAt (extIpCmdResponseTailCalculate json isRequest) 2 2 =
      bytes16 (htons ((json ++ [125]).length + ipcmdHeaderLength).toUInt16) ++ [] := by
    simp [bytesAt, extIpCmdResponseTailCalculate, bytes16]
  unfold bufLength at h
  rw [frameLength, hbytes, le16_bytes16, htons_htons, UInt16.toNat_ofNat']
  rw [List.length_append, List.length_singleton]
  unfold ipcmdHeaderLength
  exact Nat.mod_eq_of_lt (by omega)

/-- The checksum is that of the text. -/
theorem crcMatches_tail (h : json.length + 9 ≤ bufLength) (isRequest : Bool) :
    CrcMatches (extIpCmdResponseTailCalculate json isRequest) := by
  have hlen := length_tail json isRequest
  have htext : bytesAt (extIpCmdResponseTailCalculate json isRequest) ipcmdHeaderLength
      (json.length + 1) = json ++ [125] := by
    have hnone : json.length + 1 - (json.length + 9 - ipcmdHeaderLength) = 0 := by
      unfold ipcmdHeaderLength
      omega
    rw [bytesAt, hlen, drop_tail, hnone, List.take_left' (by simp), List.replicate_zero,
      List.append_nil]
  have hcrc : bytesAt (extIpCmdResponseTailCalculate json isRequest) (json.length + 5) 4 =
      bytes32 (htonl (cmnMuxCRC32b (json ++ [125]))) := by
    have hnone : 4 - (json.length + 9 - (json.length + 5)) = 0 := by omega
    have hpos : json.length + 5 = ipcmdHeaderLength + (json.length + 1) := by
      unfold ipcmdHeaderLength
      omega
    rw [bytesAt, hlen, hnone, hpos, ← List.drop_drop, drop_tail, List.drop_left' (by simp)]
    rfl
  have hdata : json.length + 5 - ipcmdHeaderLength = json.length + 1 := rfl
  have hbehind : ipcmdHeaderLength ≤ json.length + 5 := by
    unfold ipcmdHeaderLength
    omega
  rw [CrcMatches, frameLength_tail h, bytesAt_swapLength _ hbehind, hcrc, le32_bytes32, hdata,
    htext]

/-- The check of the frame reads nothing but the frame. -/
theorem frameReceived_tail (h : json.length + 9 ≤ bufLength) (isRequest : Bool) :
    FrameReceived (extIpCmdResponseTailCalculate json isRequest) := by
  rw [FrameReceived, length_tail, frameLength_tail h]
  unfold ipcmdHeaderLength
  exact ⟨by omega, fun _ => ⟨by omega, by omega, fun _ => by omega⟩⟩

/-- The text of the frame. -/
theorem jsonText_tail (json : List UInt8) (isRequest : Bool) :
    jsonText (extIpCmdResponseTailCalculate json isRequest) = json ++ [125] := by
  rw [jsonText, drop_tail, length_tail]
  exact List.take_left' (by simp [ipcmdHeaderLength])

/-- A device accepts the frame of a request, and hands on the text that is in it. -/
structure HandsOn (dev : Device) (datagram json : List UInt8) (len : UInt16) : Prop where
  accepted : (checkFrame (receive dev datagram).bufRead
    (datagram.take bufLength).length []).1 = .json len
  length : len.toNat = json.length
  text : ((receive dev datagram).bufRead.drop ipcmdHeaderLength).take len.toNat = json

theorem handsOn_tail (h : json.length + 9 ≤ bufLength) (dev : Device) : ∃ len,
    HandsOn dev (extIpCmdResponseTailCalculate json true) (json ++ [125]) len := by
  have hlen := length_tail json true
  have hreceived := List.take_of_length_le (hlen.trans_le h)
  have hframe := frameReceived_tail h true
  have hown := le16_bytesAt_received [] hframe.1
  have htext : (json ++ [125]).length = json.length + 1 := List.length_append
  have hjson :
      (UInt16.ofInt (((json.length + 9 : Nat) : Int) - (ipcmdHeaderLength * 2 : Nat))).toNat =
        json.length + 1 := by
    rw [toNat_jsonLen (by unfold ipcmdHeaderLength; omega) h]
    rfl
  rw [List.append_nil, le16_tail] at hown
  refine ⟨UInt16.ofInt (((json.length + 9 : Nat) : Int) - (ipcmdHeaderLength * 2 : Nat)),
    ?_, ?_, ?_⟩
  · rw [hreceived, checkFrame_receive hreceived hframe, checkFrame_fst, hown,
      if_neg (not_not.mpr rfl), if_neg (not_not.mpr (crcMatches_tail h true)), hlen]
  · rw [hjson, htext]
  · rw [hjson, bufRead_receive, hreceived, List.drop_append_of_le_length, drop_tail,
      List.append_assoc, ← htext, List.take_left]
    rw [hlen]
    unfold ipcmdHeaderLength
    omega

end Envelope

/-- The text of an object, at whose end there is an array with another object. -/
def nestedText (outer inner : List Lexeme) : List UInt8 :=
  123 :: lexText outer ++ 91 :: 123 :: lexText inner ++ [125, 93, 125]

/-- The brackets at the end close the ones before the pieces. -/
theorem jsmnScan_closing (i j k pos : Nat) {a b : List Jsmntok} (ha : ∀ tok ∈ a, tok.stop ≠ none)
    (hb : ∀ tok ∈ b, tok.stop ≠ none) :
    jsmnScan [125, 93, 125] pos
        (filled (⟨.object, i, none⟩ :: a ++ [⟨.array, j, none⟩, ⟨.object, k, none⟩] ++ b)) =
      (filled (⟨.object, i, some (pos + 3)⟩ :: (a ++ ⟨.array, j, some (pos + 2)⟩ ::
        ⟨.object, k, some (pos + 1)⟩ :: b)), none) := by
  have hb' := List.forall_mem_cons.mpr
    ⟨(nofun : (⟨.object, k, some (pos + 1)⟩ : Jsmntok).stop ≠ none), hb⟩
  have ha' := List.forall_mem_append.mpr ⟨ha, List.forall_mem_cons.mpr
    ⟨(nofun : (⟨.array, j, some (pos + 2)⟩ : Jsmntok).stop ≠ none), hb'⟩⟩
  have hinner := close_filled (⟨.object, i, none⟩ :: a ++ [⟨.array, j, none⟩])
    (t := ⟨.object, k, none⟩) rfl b hb (pos + 1)
  have harray := close_filled (⟨.object, i, none⟩ :: a) (t := ⟨.array, j, none⟩) rfl _ hb' (pos + 2)
  have houter := close_filled [] (t := ⟨.object, i, none⟩) rfl _ ha' (pos + 3)
  simp only [List.append_assoc, List.cons_append, List.nil_append] at hinner harray houter ⊢
  rw [jsmnScan_close pos (Or.inl rfl) _ hinner, jsmnScan_close (pos + 1) (Or.inr rfl) _ harray,
    jsmnScan_close (pos + 2) (Or.inl rfl) _ houter]
  rfl

/-- Its tokens, in the order in which they begin. -/
theorem jsmnParse_nested {outer inner : List Lexeme} (tail : List UInt8)
    (houter : Readable outer (91 :: 123 :: lexText inner ++ [125, 93, 125]))
    (hinner : Readable inner [125, 93, 125])
    (hcap : (lexContents outer).length + (lexContents inner).length + 3 ≤ 100) :
    ∃ first toks, jsmnParse (nestedText outer inner) freshTokens = (filled (first :: toks), none) ∧
      List.Forall₂ (Shows (nestedText outer inner ++ tail)) toks
        (lexContents outer ++ .array :: .object :: lexContents inner) := by
  have hbefore : nestedText outer inner ++ tail = [123] ++ (lexText outer ++
      (91 :: 123 :: lexText inner ++ [125, 93, 125])) ++ tail := by
    simp [nestedText]
  have hbefore' : nestedText outer inner ++ tail = ([123] ++ lexText outer ++ [91, 123]) ++
      (lexText inner ++ [125, 93, 125]) ++ tail := by
    simp [nestedText]
  let obj : Jsmntok := ⟨.object, 0, none⟩
  let arr : Jsmntok := ⟨.array, ([123] ++ lexText outer).length, none⟩
  let obj' : Jsmntok := ⟨.object, ([123] ++ lexText outer).length + 1, none⟩
  obtain ⟨toks, hshows, hclosed, hscan⟩ := jsmnScan_lexemes outer [123] _ tail [obj] hbefore houter
    (by rw [List.length_singleton]; omega)
  have hlen := hshows.length_eq
  have hcap' : (obj :: toks ++ [arr, obj']).length + (lexContents inner).length ≤ 100 := by
    simp only [List.length_append, List.length_cons, List.length_nil, hlen]
    omega
  obtain ⟨toks', hshows', hclosed', hscan'⟩ := jsmnScan_lexemes inner _ _ tail
    (obj :: toks ++ [arr, obj']) hbefore' hinner hcap'
  simp only [List.length_append, List.length_cons, List.length_nil] at hcap'
  -- the brackets before the pieces open three tokens, and those behind them close these
  have hopen : jsmnScan (nestedText outer inner) 0 (filled []) =
      jsmnScan (lexText outer ++ (91 :: 123 :: lexText inner ++ [125, 93, 125])) [123].length
        (filled [obj]) := by
    have hstep := jsmnScan_open 0 (Or.inl rfl)
      (lexText outer ++ (91 :: 123 :: lexText inner ++ [125, 93, 125]))
      (show ([] : List Jsmntok).length < 100 by decide)
    rw [nestedText, List.cons_append, List.cons_append, List.append_assoc]
    exact hstep
  have hmiddle : jsmnScan (91 :: 123 :: lexText inner ++ [125, 93, 125])
      ([123] ++ lexText outer).length (filled ([obj] ++ toks)) =
        jsmnScan (lexText inner ++ [125, 93, 125]) ([123] ++ lexText outer ++ [91, 123]).length
          (filled (obj :: toks ++ [arr, obj'])) := by
    have hroom : ([obj] ++ toks).length < 100 := by
      rw [List.length_append, List.length_singleton]
      omega
    have hroom' : ([obj] ++ toks ++ [arr]).length < 100 := by
      rw [List.length_append, List.length_append, List.length_singleton, List.length_singleton]
      omega
    have harr := jsmnScan_open ([123] ++ lexText outer).length (Or.inr rfl)
      (123 :: lexText inner ++ [125, 93, 125]) hroom
    have hobj' := jsmnScan_open (([123] ++ lexText outer).length + 1) (Or.inl rfl)
      (lexText inner ++ [125, 93, 125]) hroom'
    have hpos :
        ([123] ++ lexText outer ++ [91, 123]).length = ([123] ++ lexText outer).length + 2 :=
      List.length_append
    have hused : obj :: toks ++ [arr, obj'] = [obj] ++ toks ++ [arr] ++ [obj'] := by
      simp
    rw [hpos, hused]
    exact harr.trans hobj'
  generalize ([123] ++ lexText outer ++ [91, 123] ++ lexText inner).length = pos at hscan'
  have hclose := jsmnScan_closing 0 ([123] ++ lexText outer).length
    (([123] ++ lexText outer).length + 1) pos hclosed hclosed'
  have hscanned : jsmnLoop (nestedText outer inner).length (nestedText outer inner) 0
      ⟨freshTokens, 0⟩ = _ :=
    hopen.trans (hscan.trans (hmiddle.trans (hscan'.trans hclose)))
  refine ⟨⟨.object, 0, some (pos + 3)⟩, toks ++
    ⟨.array, ([123] ++ lexText outer).length, some (pos + 2)⟩ ::
    ⟨.object, ([123] ++ lexText outer).length + 1, some (pos + 1)⟩ :: toks', ?_, ?_⟩
  · unfold jsmnParse
    rw [hscanned]
    dsimp only
    rw [lastOpen_filled]
    refine List.forall_mem_cons.mpr ⟨nofun, List.forall_mem_append.mpr ⟨hclosed, ?_⟩⟩
    exact List.forall_mem_cons.mpr ⟨nofun, List.forall_mem_cons.mpr ⟨nofun, hclosed'⟩⟩
  · have harr : Shows (nestedText outer inner ++ tail)
        ⟨.array, ([123] ++ lexText outer).length, some (pos + 2)⟩ .array := rfl
    have hobj : Shows (nestedText outer inner ++ tail)
        ⟨.object, ([123] ++ lexText outer).length + 1, some (pos + 1)⟩ .object := rfl
    exact List.rel_append hshows (.cons harr (.cons hobj hshows'))

/-- The fields of a request before its data array. -/
def requestFields (cfg : RuntimeCfg) : List Field :=
  [(.target, .string (macPrint cfg.dest.mac)), (.command, .string (ascii "set_param")),
    (.loginAck, .string cfg.user.val), (.pwdMsg, .string cfg.password.val)]

/-- The media parameters but for the last one. -/
def firstMediaFields (cfg : RuntimeCfg) : List Field :=
  [(.isMcast, .number (if cfg.isMCast ≠ 0 then 1 else 0)),
    (.mcastIp, .string (ip4addrNtoa cfg.dest.ip)),
    (.videoPort, .number cfg.dest.vport.toNat),
    (.audioPort, .number cfg.dest.aport.toNat),
    (.adPort, .number cfg.dest.dport.toNat),
    (.stPort, .number cfg.dest.sport.toNat),
    (.videoWidth, .number cfg.runtime.vWidth.toNat),
    (.videoHeight, .number cfg.runtime.vHeight.toNat),
    (.videoFramerate, .number cfg.runtime.vFrameRate.toNat),
    (.videoDepth, .number cfg.runtime.vDepth.toNat),
    (.videoSegmented, .number cfg.runtime.vIsSegmented.toNat),
    (.videoColorspace, .string (extCmnStringFind .vColorSpace cfg.runtime.vColorSpace.toUInt16)),
    (.audioSampeRate, .number cfg.runtime.aSampleRate.toNat),
    (.audioDepth, .number cfg.runtime.aDepth.toNat),
    (.audioChannels, .number cfg.runtime.aChannels.toNat)]

def connectField (cfg : RuntimeCfg) : Field := (.isConnect, .number cfg.runtime.isConnect.toNat)

/-- The media parameters. -/
def mediaFields (cfg : RuntimeCfg) : List Field := firstMediaFields cfg ++ [connectField cfg]

/-- The pieces of the request. -/
def outerLex (cfg : RuntimeCfg) : List Lexeme :=
  fieldsLex (requestFields cfg) ++ [.string Key.dataArray.text, .colon]

/-- The pieces of the media parameters. -/
def innerLex (cfg : RuntimeCfg) : List Lexeme :=
  fieldsLex (firstMediaFields cfg) ++ fieldLex (connectField cfg)

section Text

variable (cfg : RuntimeCfg)

theorem lexText_string (key : Key) (s : List UInt8) :
    lexText (fieldLex (key, .string s)) = stringField key s := by
  simp [lexText, fieldLex, Lexeme.text, Scalar.lexeme, stringField, keyPrint]

theorem lexText_number (key : Key) (n : Nat) :
    lexText (fieldLex (key, .number n)) = numberField key n := by
  simp [lexText, fieldLex, Lexeme.text, Scalar.lexeme, numberField, keyPrint]

theorem lexText_fieldsLex_cons (f : Field) (fs : List Field) :
    lexText (fieldsLex (f :: fs)) = lexText (fieldLex f) ++ [44] ++ lexText (fieldsLex fs) := by
  have hcons : fieldsLex (f :: fs) = fieldLex f ++ [.comma] ++ fieldsLex fs := rfl
  rw [hcons, lexText_append, lexText_append]
  rfl

theorem lexText_fieldsLex_nil : lexText (fieldsLex []) = [] := rfl

theorem lexText_innerLex : lexText (innerLex cfg) = extIpCmdPrintMediaCfg cfg := by
  unfold innerLex firstMediaFields connectField extIpCmdPrintMediaCfg
  simp only [lexText_append, lexText_fieldsLex_cons, lexText_fieldsLex_nil, lexText_string,
    lexText_number, List.append_assoc, List.append_nil]

theorem lexText_outerLex : 123 :: lexText (outerLex cfg) =
    extIpCmdRequestHeaderPrint cfg (ascii "set_param") ++ [44] ++ keyPrint .dataArray := by
  have hlast : lexText [.string Key.dataArray.text, .colon] = keyPrint .dataArray := rfl
  unfold outerLex requestFields extIpCmdRequestHeaderPrint
  simp only [lexText_append, lexText_fieldsLex_cons, lexText_fieldsLex_nil, lexText_string, hlast,
    List.append_assoc, List.append_nil, List.cons_append]

theorem mediaText_eq : mediaText cfg ++ [125] = nestedText (outerLex cfg) (innerLex cfg) := by
  rw [mediaText, nestedText, lexText_outerLex, lexText_innerLex]
  simp only [List.append_assoc, List.cons_append, List.nil_append]

theorem length_key_le (key : Key) : key.text.length ≤ 13 := by
  cases key <;> decide

theorem length_dec8_le (v : UInt8) : (dec v.toNat).length ≤ 3 :=
  length_dec_le (by decide) (Nat.lt_trans v.toNat_lt (by decide))

theorem length_dec16_le (v : UInt16) : (dec v.toNat).length ≤ 5 :=
  length_dec_le (by decide) (Nat.lt_trans v.toNat_lt (by decide))

theorem length_ip4addrNtoa_le (ip : UInt32) : (ip4addrNtoa ip).length ≤ 15 := by
  have h0 := length_dec8_le (ipPart ip 0)
  have h1 := length_dec8_le (ipPart ip 1)
  have h2 := length_dec8_le (ipPart ip 2)
  have h3 := length_dec8_le (ipPart ip 3)
  simp only [ip4addrNtoa, List.length_append, List.length_singleton]
  omega

/-- The names of the colour spaces, and what is printed for the others. -/
def colorNames : List (List UInt8) := ascii "Unknown String" :: StrType.vColorSpace.table.map (·.2)

theorem colorName_mem (type : UInt16) : extCmnStringFind .vColorSpace type ∈ colorNames := by
  unfold extCmnStringFind
  cases hfind : StrType.vColorSpace.table.find? (·.1 = type) with
  | none => exact List.mem_cons_self
  | some e => exact List.mem_cons_of_mem _ (List.mem_map_of_mem (List.mem_of_find?_eq_some hfind))

theorem length_colorName_le (type : UInt16) :
    (extCmnStringFind .vColorSpace type).length ≤ 14 := by
  have hall : ∀ name ∈ colorNames, name.length ≤ 14 := by
    unfold colorNames StrType.table
    repeat rw [ascii_ofList]
    decide +kernel
  exact hall _ (colorName_mem type)

/-- A field that is a string of at most 17 characters. -/
theorem length_string_le (key : Key) {text : List UInt8} (h : text.length ≤ 17) :
    (lexText (fieldLex (key, .string text))).length ≤ 35 := by
  have hkey := length_key_le key
  rw [lexText_string]
  simp only [stringField, keyPrint, quoted, List.length_append, List.length_cons, List.length_nil]
  omega

/-- A field that is a number of at most five digits. -/
theorem length_number_le (key : Key) {n : Nat} (h : (dec n).length ≤ 5) :
    (lexText (fieldLex (key, .number n))).length ≤ 35 := by
  have hkey := length_key_le key
  rw [lexText_number]
  simp only [numberField, keyPrint, quoted, List.length_append, List.length_cons, List.length_nil]
  omega

theorem length_short_le (key : Key) (v : UInt16) :
    (lexText (fieldLex (key, .number v.toNat))).length ≤ 35 :=
  length_number_le key (length_dec16_le v)

theorem length_char_le (key : Key) (v : UInt8) :
    (lexText (fieldLex (key, .number v.toNat))).length ≤ 35 :=
  length_number_le key ((length_dec8_le v).trans (by decide))

theorem length_fieldsLex_le (fs : List Field) (h : ∀ f ∈ fs, (lexText (fieldLex f)).length ≤ 35) :
    (lexText (fieldsLex fs)).length ≤ fs.length * 36 := by
  induction fs with
  | nil => exact Nat.zero_le _
  | cons f fs ih =>
      have hf := h f List.mem_cons_self
      have hfs := ih fun f' hf' => h f' (List.mem_cons_of_mem f hf')
      rw [lexText_fieldsLex_cons, List.length_append, List.length_append, List.length_singleton,
        List.length_cons]
      omega

theorem length_mediaFields_le : ∀ f ∈ mediaFields cfg, (lexText (fieldLex f)).length ≤ 35 := by
  have hflag : (dec (if cfg.isMCast ≠ 0 then 1 else 0)).length ≤ 5 := by
    split <;> decide
  have hip := (length_ip4addrNtoa_le cfg.dest.ip).trans (by decide : 15 ≤ 17)
  have hcolor := (length_colorName_le cfg.runtime.vColorSpace.toUInt16).trans (by decide : 14 ≤ 17)
  simp only [mediaFields, firstMediaFields, connectField, List.cons_append, List.nil_append,
    List.forall_mem_cons]
  exact ⟨length_number_le _ hflag, length_string_le _ hip, length_short_le _ _,
    length_short_le _ _, length_short_le _ _, length_short_le _ _, length_short_le _ _,
    length_short_le _ _, length_char_le _ _, length_char_le _ _, length_char_le _ _,
    length_string_le _ hcolor, length_short_le _ _, length_char_le _ _, length_char_le _ _,
    length_char_le _ _, nofun⟩

theorem length_requestFields_le : ∀ f ∈ requestFields cfg, (lexText (fieldLex f)).length ≤ 35 := by
  have huser := cfg.user.fits.trans (by decide : 15 ≤ 17)
  have hpassword := cfg.password.fits.trans (by decide : 15 ≤ 17)
  simp only [requestFields, List.forall_mem_cons]
  exact ⟨length_string_le _ (length_macPrint _).le, length_string_le _ (by decide),
    length_string_le _ huser, length_string_le _ hpassword, nofun⟩

/-- The frame fits into the buffer of the receiver. -/
theorem length_mediaText_le : (mediaText cfg).length + 9 ≤ bufLength := by
  have hrequest := length_fieldsLex_le _ (length_requestFields_le cfg)
  have hfirst := length_fieldsLex_le (firstMediaFields cfg) fun f hf =>
    length_mediaFields_le cfg f (List.mem_append_left _ hf)
  have hlast := length_mediaFields_le cfg (connectField cfg) List.mem_concat_self
  have harray : (lexText [.string Key.dataArray.text, .colon]).length = 7 := rfl
  have hrequest' : (requestFields cfg).length = 4 := rfl
  have hfirst' : (firstMediaFields cfg).length = 15 := rfl
  have htext : (mediaText cfg ++ [125]).length =
      (nestedText (outerLex cfg) (innerLex cfg)).length := by rw [mediaText_eq]
  rw [hrequest'] at hrequest
  rw [hfirst'] at hfirst
  simp only [nestedText, outerLex, innerLex, lexText_append, List.length_append, List.length_cons,
    List.length_nil, harray] at htext
  unfold bufLength
  omega

end Text

/-- The login of a transmitter is printed as it is, and is not taken for the key of a
    parameter. -/
def LoginReadable (cfg : RuntimeCfg) : Prop :=
  ∀ s ∈ [cfg.user.val, cfg.password.val], Plain s ∧ ∀ key ∈ paramKeys, s ≠ key.text

instance (s : List UInt8) : Decidable (Plain s) := inferInstanceAs (Decidable (∀ c ∈ s, _))

instance (cfg : RuntimeCfg) : Decidable (LoginReadable cfg) :=
  inferInstanceAs (Decidable (∀ s ∈ [cfg.user.val, cfg.password.val], _))

section Readable

variable (cfg : RuntimeCfg)

theorem plain_append {a b : List UInt8} (ha : Plain a) (hb : Plain b) : Plain (a ++ b) :=
  List.forall_mem_append.mpr ⟨ha, hb⟩

theorem plain_dec (n : Nat) : Plain (dec n) := by
  intro c hc
  have hdigit := isDigit_of_mem_dec hc
  refine ⟨?_, ?_, ?_⟩
  all_goals
    rintro rfl
    exact Bool.false_ne_true hdigit

theorem plain_hex2 (b : UInt8) : Plain (hex2 b) := by
  have hall : ∀ d < 16, hexChar d ≠ 0 ∧ hexChar d ≠ 34 ∧ hexChar d ≠ 92 := by decide +kernel
  have hlt := b.toNat_lt
  exact List.forall_mem_cons.mpr ⟨hall _ (by omega), List.forall_mem_cons.mpr
    ⟨hall _ (by omega), nofun⟩⟩

theorem plain_colon_hex2 (b : UInt8) : Plain (58 :: hex2 b) :=
  List.forall_mem_cons.mpr ⟨by decide, plain_hex2 b⟩

theorem plain_macPrint (m : MacAddress) : Plain (macPrint m) := by
  have hparts : macPrint m = hex2 m[0] ++ (58 :: hex2 m[1]) ++ (58 :: hex2 m[2]) ++
      (58 :: hex2 m[3]) ++ (58 :: hex2 m[4]) ++ (58 :: hex2 m[5]) := by
    simp [macPrint]
  rw [hparts]
  exact plain_append (plain_append (plain_append (plain_append (plain_append (plain_hex2 _)
    (plain_colon_hex2 _)) (plain_colon_hex2 _)) (plain_colon_hex2 _)) (plain_colon_hex2 _))
    (plain_colon_hex2 _)

theorem plain_ip4addrNtoa (ip : UInt32) : Plain (ip4addrNtoa ip) := by
  have hdot : Plain [46] := by
    unfold Plain
    decide +kernel
  exact plain_append (plain_append (plain_append (plain_append (plain_append (plain_append
    (plain_dec _) hdot) (plain_dec _)) hdot) (plain_dec _)) hdot) (plain_dec _)

theorem plain_colorName (type : UInt16) : Plain (extCmnStringFind .vColorSpace type) := by
  have hall : ∀ name ∈ colorNames, Plain name := by
    unfold Plain
    decide +kernel
  exact hall _ (colorName_mem type)

/-- No key holds a character of an address. -/
theorem not_mem_key (key : Key) : (58 : UInt8) ∉ key.text ∧ (46 : UInt8) ∉ key.text := by
  cases key <;> decide

theorem macPrint_ne_key (m : MacAddress) (key : Key) : macPrint m ≠ key.text := by
  intro heq
  have hmem : (58 : UInt8) ∈ macPrint m := by
    simp [macPrint]
  exact (not_mem_key key).1 (heq ▸ hmem)

theorem ip4addrNtoa_ne_key (ip : UInt32) (key : Key) : ip4addrNtoa ip ≠ key.text := by
  intro heq
  have hmem : (46 : UInt8) ∈ ip4addrNtoa ip := by
    simp [ip4addrNtoa]
  exact (not_mem_key key).2 (heq ▸ hmem)

theorem colorName_ne_key (type : UInt16) (key : Key) :
    extCmnStringFind .vColorSpace type ≠ key.text := by
  have hall : ∀ name ∈ colorNames, ∀ key ∈ Key.all, name ≠ key.text := by
    unfold colorNames StrType.table
    repeat rw [ascii_ofList]
    decide +kernel
  exact hall _ (colorName_mem type) key (List.mem_of_find?_eq_some (Key.find_text key))

theorem setParam_ne_key (key : Key) : ascii "set_param" ≠ key.text := by
  cases key <;> decide

variable {cfg}

theorem plain_mediaFields : ∀ f ∈ mediaFields cfg, ∀ s, f.2 = .string s → Plain s := by
  simp only [mediaFields, firstMediaFields, connectField, List.cons_append, List.nil_append,
    List.forall_mem_cons, Scalar.string.injEq, forall_eq', reduceCtorEq, false_imp_iff,
    implies_true, List.not_mem_nil, and_true, true_and]
  exact ⟨plain_ip4addrNtoa _, plain_colorName _⟩

theorem plain_requestFields (h : LoginReadable cfg) :
    ∀ f ∈ requestFields cfg, ∀ s, f.2 = .string s → Plain s := by
  have hname : Plain (ascii "set_param") := by
    unfold Plain
    decide +kernel
  have huser := (h _ List.mem_cons_self).1
  have hpassword := (h _ (List.mem_cons_of_mem _ List.mem_cons_self)).1
  simp only [requestFields, List.forall_mem_cons, Scalar.string.injEq, forall_eq',
    List.not_mem_nil, false_imp_iff, implies_true, and_true]
  exact ⟨plain_macPrint _, hname, huser, hpassword⟩

theorem readable_outerLex (h : LoginReadable cfg) (rest : List UInt8) :
    Readable (outerLex cfg) rest :=
  readable_fieldsLex (plain_requestFields h) ⟨plain_key _, trivial⟩

theorem readable_innerLex : Readable (innerLex cfg) [125, 93, 125] := by
  refine readable_fieldsLex (fun f hf => plain_mediaFields f (List.mem_append_left _ hf)) ?_
  have hends : EndsPrimitive (lexText [] ++ [125, 93, 125]) := ⟨125, [93, 125], rfl, rfl⟩
  have hlast := readable_fieldLex (f := connectField cfg) nofun (fun _ _ => hends) trivial
  rwa [List.append_nil] at hlast

/-- What the tokens behind the first one stand for. -/
theorem contents_mediaFrame : lexContents (outerLex cfg) ++ .array :: .object ::
    lexContents (innerLex cfg) =
      fieldsContents (requestFields cfg) ++ .string Key.dataArray.text :: .array :: .object ::
        fieldsContents (mediaFields cfg) := by
  have hdata : lexContents [.string Key.dataArray.text, .colon] =
    [.string Key.dataArray.text] := rfl
  have hmedia : fieldsContents (mediaFields cfg) = fieldsContents (firstMediaFields cfg) ++
      [.string (connectField cfg).1.text, (connectField cfg).2.content] := by
    rw [mediaFields, fieldsContents, List.flatMap_append]
    rfl
  rw [outerLex, innerLex, lexContents_append, lexContents_append, lexContents_fieldsLex,
    lexContents_fieldsLex, lexContents_fieldLex, hdata, hmedia, List.append_assoc]
  rfl

/-- No value of a media parameter is the text of a key. -/
theorem content_mediaFields (key : Key) :
    ∀ f ∈ mediaFields cfg, f.2.content ≠ .string key.text := by
  simp only [mediaFields, firstMediaFields, connectField, List.cons_append, List.nil_append,
    List.forall_mem_cons, Scalar.content, ne_eq, Content.string.injEq, reduceCtorEq,
    not_false_eq_true, List.not_mem_nil, false_imp_iff, implies_true, and_true, true_and]
  exact ⟨ip4addrNtoa_ne_key _ _, colorName_ne_key _ _⟩

/-- The request by itself is tokenized, and a lookup finds the value that was printed with
    the key, unless a value before it looks like the key. -/
theorem value_mediaFrame (h : LoginReadable cfg) :
    (jsmnParse (jsonText (mediaFrame cfg true)) freshTokens).2 = none ∧ ∀ key,
      key ≠ .dataArray → (∀ f ∈ (requestFields cfg).takeWhile (·.1 ≠ key),
        f.2.content ≠ .string key.text) →
      (docAlone (mediaFrame cfg true)).value key =
        ((requestFields cfg ++ mediaFields cfg).find? (·.1 = key)).map fun f =>
          f.2.content.value := by
  have htext : jsonText (mediaFrame cfg true) = nestedText (outerLex cfg) (innerLex cfg) := by
    rw [mediaFrame, jsonText_tail, mediaText_eq]
  have hlen : (lexContents (outerLex cfg) ++ .array :: .object ::
      lexContents (innerLex cfg)).length = 43 := by
    rw [contents_mediaFrame]
    rfl
  have hcap : (lexContents (outerLex cfg)).length + (lexContents (innerLex cfg)).length + 3 ≤
      100 := by
    rw [List.length_append, List.length_cons, List.length_cons] at hlen
    omega
  obtain ⟨first, toks, hparse, hshows⟩ := jsmnParse_nested
    (bytes32 (htonl (cmnMuxCRC32b (mediaText cfg ++ [125])))) (readable_outerLex h _)
    readable_innerLex hcap
  have htokens : (docAlone (mediaFrame cfg true)).toTokens = filled (first :: toks) := by
    rw [docAlone, htext, hparse]
  have hmem : nestedText (outerLex cfg) (innerLex cfg) ++
      bytes32 (htonl (cmnMuxCRC32b (mediaText cfg ++ [125]))) =
        (docAlone (mediaFrame cfg true)).text := by
    rw [docAlone, mediaFrame, drop_tail, mediaText_eq]
  have hcount : toks.length < 99 := by
    have hsame := hshows.length_eq
    omega
  rw [hmem, contents_mediaFrame] at hshows
  refine ⟨by rw [htext, hparse], fun key hdata hbefore => ?_⟩
  have hother : Content.string Key.dataArray.text ≠ .string key.text := by
    intro heq
    exact hdata (Key.text_injective (Content.string.inj heq)).symm
  have hmedia := afterKey_fields key (mediaFields cfg) []
    fun f hf => content_mediaFields key f (List.takeWhile_subset _ hf)
  rw [List.append_nil] at hmedia
  rw [value_filled htokens hcount hshows, afterKey_fields key _ _ hbefore, List.find?_append]
  cases (requestFields cfg).find? (·.1 = key) with
  | some f =>
      cases f.2 <;> rfl
  | none =>
      -- behind the request there are the key of the array, its bracket and that of the object
      rw [afterKey, if_neg hother, afterKey, if_neg (fun h => Content.noConfusion h), afterKey,
        if_neg (fun h => Content.noConfusion h), hmedia]
      cases (mediaFields cfg).find? (·.1 = key) with
      | some f => rfl
      | none => rfl

end Readable

section Receiver

variable {cfg : RuntimeCfg} {dev : Device}

theorem value_target (h : LoginReadable cfg) :
    (docAlone (mediaFrame cfg true)).value .target = some (.string (macPrint cfg.dest.mac)) := by
  have hbefore : (requestFields cfg).takeWhile (·.1 ≠ .target) = [] := rfl
  rw [(value_mediaFrame h).2 .target nofun (by rw [hbefore]; exact nofun)]
  rfl

theorem value_command (h : LoginReadable cfg) :
    (docAlone (mediaFrame cfg true)).value .command = some (.string (ascii "set_param")) := by
  have hbefore : (requestFields cfg).takeWhile (·.1 ≠ .command) =
      [(.target, .string (macPrint cfg.dest.mac))] := rfl
  rw [(value_mediaFrame h).2 .command nofun ?_]
  · rfl
  · rw [hbefore]
    intro f hf heq
    rw [List.mem_singleton.mp hf] at heq
    exact macPrint_ne_key _ _ (Content.string.inj heq)

theorem verdict_of_target {s c : List UInt8} {m : MacAddress}
    (h : extMacAddressParse .zero (s.take 63) = (m, true)) :
    verdict none (some (.string s)) (some (.string c)) = .ok (s.take 63, m, commandName c) := by
  rw [verdict, h]
  rfl

/-- The request is a `set_param` command to the address it was printed with. -/
theorem parseDatagram_mediaFrame (hsize : dev.parser.doc.tokens.length = 100)
    (hdev : Undisturbed dev (mediaFrame cfg true)) (h : LoginReadable cfg) :
    parseDatagram dev (mediaFrame cfg true) = (true, ⟨docIn dev (mediaFrame cfg true), .ok,
      macPrint cfg.dest.mac, cfg.dest.mac, commandName (ascii "set_param"), []⟩) := by
  have hlong := length_mediaText_le cfg
  have hreceived : (mediaFrame cfg true).take bufLength = mediaFrame cfg true :=
    List.take_of_length_le ((length_tail _ _).trans_le hlong)
  have htag : le16 (mediaFrame cfg true) = cmdTagRequest := le16_tail _
  have hcrc : CrcMatches (mediaFrame cfg true) := crcMatches_tail hlong true
  have hshort : (macPrint cfg.dest.mac).take 63 = macPrint cfg.dest.mac :=
    List.take_of_length_le (by rw [length_macPrint]; decide)
  have hverdict := verdict_of_target (s := macPrint cfg.dest.mac) (c := ascii "set_param") (by
    rw [hshort]
    exact extMacAddressParse_macPrint .zero cfg.dest.mac)
  have hnone := (value_mediaFrame h).1
  have htarget := value_target h
  have hcommand := value_command h
  generalize mediaFrame cfg true = received at hdev hreceived htag hcrc hnone htarget hcommand ⊢
  obtain ⟨hframe, hvalues⟩ := hdev
  have hread := requestParse_docAlone hsize ((hframe.2 htag).2.2 hcrc) (hvalues htag hcrc)
  rw [parseDatagram_of_crcMatches hreceived hframe htag hcrc]
  rw [hnone, htarget, hcommand, hverdict, hshort] at hread
  exact hread

/-- What a lookup of the receiver finds for a parameter. -/
theorem value_docIn (hdev : Undisturbed dev (mediaFrame cfg true)) (h : LoginReadable cfg)
    {key : Key} (hkey : key ∈ paramKeys) : (docIn dev (mediaFrame cfg true)).value key =
      ((mediaFields cfg).find? (·.1 = key)).map fun f => f.2.content.value := by
  have htag : le16 (mediaFrame cfg true) = cmdTagRequest := le16_tail _
  have hcrc : CrcMatches (mediaFrame cfg true) := crcMatches_tail (length_mediaText_le cfg) true
  obtain ⟨hnone, hvalue⟩ := value_mediaFrame h
  have hparam : ∀ key ∈ paramKeys, key ≠ .dataArray ∧
      (key ≠ .target ∧ key ≠ .command ∧ key ≠ .loginAck ∧ key ≠ .pwdMsg) := by decide
  obtain ⟨hdata, htarget, hcommand, hlogin, hpassword⟩ := hparam key hkey
  -- none of the keys before the parameters is looked for
  have hfind : (requestFields cfg).find? (·.1 = key) = none := by
    simp [requestFields, htarget.symm, hcommand.symm, hlogin.symm, hpassword.symm]
  have hbefore : ∀ f ∈ requestFields cfg, f.2.content ≠ .string key.text := by
    simp only [requestFields, List.forall_mem_cons, Scalar.content, ne_eq, Content.string.injEq,
      List.not_mem_nil, false_imp_iff, implies_true, and_true]
    exact ⟨macPrint_ne_key _ key, setParam_ne_key key, (h _ List.mem_cons_self).2 key hkey,
      (h _ (List.mem_cons_of_mem _ List.mem_cons_self)).2 key hkey⟩
  have hmem : key ∈ lookedUp (docAlone (mediaFrame cfg true)) := by
    have hset : commandOf (commandName (ascii "set_param")).val = some .setParams := by
      decide +kernel
    rw [lookedUp, value_command h]
    dsimp only
    rw [hset]
    exact List.mem_cons_of_mem _ (List.mem_cons_of_mem _ (List.mem_cons_of_mem _
      (List.mem_cons_of_mem _ hkey)))
  rw [hdev.2 htag hcrc hnone key hmem,
    hvalue key hdata fun f hf => hbefore f (List.takeWhile_subset _ hf),
    List.find?_append, hfind, Option.none_or]

end Receiver

/-- What a document holds for the parameters of a transmitter. -/
structure Finds (cfg : RuntimeCfg) (d : Doc) : Prop where
  isMCast : d.unsignedInteger .isMcast = some (if cfg.isMCast ≠ 0 then 1 else 0)
  mcastIp : d.ipAddress .mcastIp = (cfg.dest.ip, true)
  vport : d.unsignedShort .videoPort = some cfg.dest.vport
  aport : d.unsignedShort .audioPort = some cfg.dest.aport
  dport : d.unsignedShort .adPort = some cfg.dest.dport
  sport : d.unsignedShort .stPort = some cfg.dest.sport
  vWidth : d.unsignedShort .videoWidth = some cfg.runtime.vWidth
  vHeight : d.unsignedShort .videoHeight = some cfg.runtime.vHeight
  vFrameRate : d.unsignedChar .videoFramerate = some cfg.runtime.vFrameRate
  vDepth : d.unsignedChar .videoDepth = some cfg.runtime.vDepth
  vIsSegmented : d.unsignedInteger .videoSegmented = some cfg.runtime.vIsSegmented.toUInt32
  vColorSpace : d.stringIn .videoColorspace 32 =
    some (extCmnStringFind .vColorSpace cfg.runtime.vColorSpace.toUInt16)
  aSampleRate : d.unsignedShort .audioSampeRate = some cfg.runtime.aSampleRate
  aDepth : d.unsignedChar .audioDepth = some cfg.runtime.aDepth
  aChannels : d.unsignedChar .audioChannels = some cfg.runtime.aChannels
  isConnect : d.unsignedInteger .isConnect = some cfg.runtime.isConnect.toUInt32
  noString : ∀ key ∈ [Key.cName, .mac, .ip, .mask, .gateway, .rsParity], d.string key.text = none
  noNumber : ∀ key ∈ [Key.dhcp, .isDip, .rsBaudrate, .rsDatabits, .rsStopbits, .videoInterlaced],
    d.number key.text = none

section ReadBack

variable {cfg : RuntimeCfg} {d : Doc} {key : Key}

theorem fitU32_natCast {n : Nat} (h : n < 2 ^ 32) : (fitU32 n).toNat = n := by
  have hfit := fitU32_toNat (Int.natCast_nonneg n) (Int.ofNat_lt.mpr h)
  exact Int.ofNat.inj hfit

theorem number_of_field (hd : d.value key = ((mediaFields cfg).find? (·.1 = key)).map fun f =>
    f.2.content.value) {n : Nat} (h : (mediaFields cfg).find? (·.1 = key) = some (key, .number n)) :
    d.number key.text = some (n : Int) := by
  rw [number_value, hd, h]
  rfl

theorem short_of_field (hd : d.value key = ((mediaFields cfg).find? (·.1 = key)).map fun f =>
    f.2.content.value) {v : UInt16}
    (h : (mediaFields cfg).find? (·.1 = key) = some (key, .number v.toNat)) :
    d.unsignedShort key = some v := by
  have hlt := v.toNat_lt
  have hv : (fitU32 v.toNat).toUInt16 = v := by
    apply UInt16.toNat_inj.mp
    rw [UInt32.toNat_toUInt16, fitU32_natCast (by omega)]
    omega
  rw [Doc.unsignedShort, number_of_field hd h, Option.map_some, hv]

theorem char_of_field (hd : d.value key = ((mediaFields cfg).find? (·.1 = key)).map fun f =>
    f.2.content.value) {v : UInt8}
    (h : (mediaFields cfg).find? (·.1 = key) = some (key, .number v.toNat)) :
    d.unsignedChar key = some v ∧ d.unsignedInteger key = some v.toUInt32 := by
  have hlt := v.toNat_lt
  have hv : (fitU32 v.toNat).toUInt8 = v := by
    apply UInt8.toNat_inj.mp
    rw [UInt32.toNat_toUInt8, fitU32_natCast (by omega)]
    omega
  have hv' : fitU32 v.toNat = v.toUInt32 := by
    apply UInt32.toNat_inj.mp
    rw [fitU32_natCast (by omega), UInt8.toNat_toUInt32]
  rw [Doc.unsignedChar, Doc.unsignedInteger, number_of_field hd h, Option.map_some,
    Option.map_some, hv, hv']
  exact ⟨rfl, rfl⟩

theorem string_of_field (hd : d.value key = ((mediaFields cfg).find? (·.1 = key)).map fun f =>
    f.2.content.value) {s : List UInt8} {n : Nat} (hn : s.length ≤ n)
    (h : (mediaFields cfg).find? (·.1 = key) = some (key, .string s)) :
    d.stringIn key (n + 1) = some s := by
  have hstring : d.string key.text = some s := by
    rw [string_value, hd, h]
    rfl
  rw [Doc.stringIn, hstring, Option.map_some, Nat.add_sub_cancel, List.take_of_length_le hn]

theorem none_of_no_field (hd : d.value key = ((mediaFields cfg).find? (·.1 = key)).map fun f =>
    f.2.content.value) (h : (mediaFields cfg).find? (·.1 = key) = none) :
    d.string key.text = none ∧ d.number key.text = none := by
  rw [string_value, number_value, hd, h]
  exact ⟨rfl, rfl⟩

theorem finds_of_value (hd : ∀ key ∈ paramKeys, d.value key =
    ((mediaFields cfg).find? (·.1 = key)).map fun f => f.2.content.value) : Finds cfg d where
  isMCast := by
    have hnumber := number_of_field (hd .isMcast (by decide)) rfl
    rw [Doc.unsignedInteger, hnumber]
    split <;> rfl
  mcastIp := by
    have hlen := (length_ip4addrNtoa_le cfg.dest.ip).trans (by decide : 15 ≤ 63)
    rw [Doc.ipAddress, string_of_field (hd .mcastIp (by decide)) hlen rfl]
    dsimp only
    rw [ipaddrAddr_ip4addrNtoa]
  vport := short_of_field (hd .videoPort (by decide)) rfl
  aport := short_of_field (hd .audioPort (by decide)) rfl
  dport := short_of_field (hd .adPort (by decide)) rfl
  sport := short_of_field (hd .stPort (by decide)) rfl
  vWidth := short_of_field (hd .videoWidth (by decide)) rfl
  vHeight := short_of_field (hd .videoHeight (by decide)) rfl
  vFrameRate := (char_of_field (hd .videoFramerate (by decide)) rfl).1
  vDepth := (char_of_field (hd .videoDepth (by decide)) rfl).1
  vIsSegmented := (char_of_field (hd .videoSegmented (by decide)) rfl).2
  vColorSpace := string_of_field (hd .videoColorspace (by decide))
    ((length_colorName_le _).trans (by decide : 14 ≤ 31)) rfl
  aSampleRate := short_of_field (hd .audioSampeRate (by decide)) rfl
  aDepth := (char_of_field (hd .audioDepth (by decide)) rfl).1
  aChannels := (char_of_field (hd .audioChannels (by decide)) rfl).1
  isConnect := (char_of_field (hd .isConnect (by decide)) rfl).2
  noString := by
    simp only [List.forall_mem_cons]
    exact ⟨(none_of_no_field (hd .cName (by decide)) rfl).1,
      (none_of_no_field (hd .mac (by decide)) rfl).1, (none_of_no_field (hd .ip (by decide)) rfl).1,
      (none_of_no_field (hd .mask (by decide)) rfl).1,
      (none_of_no_field (hd .gateway (by decide)) rfl).1,
      (none_of_no_field (hd .rsParity (by decide)) rfl).1, List.forall_mem_nil _⟩
  noNumber := by
    simp only [List.forall_mem_cons]
    exact ⟨(none_of_no_field (hd .dhcp (by decide)) rfl).2,
      (none_of_no_field (hd .isDip (by decide)) rfl).2,
      (none_of_no_field (hd .rsBaudrate (by decide)) rfl).2,
      (none_of_no_field (hd .rsDatabits (by decide)) rfl).2,
      (none_of_no_field (hd .rsStopbits (by decide)) rfl).2,
      (none_of_no_field (hd .videoInterlaced (by decide)) rfl).2, List.forall_mem_nil _⟩

/-- A receiver takes the parameters: the address is multicast if it works with multicast
    addresses itself, the colour space has a name, and so on. -/
def admits (run cfg : RuntimeCfg) : Bool :=
  validMcastIp run (cfg.dest.ip, true) &&
    StrType.vColorSpace.table.any (fun e => e.1 = cfg.runtime.vColorSpace.toUInt16) &&
    validSampleRate cfg.runtime.aSampleRate && validAudioDepth cfg.runtime.aDepth &&
    validAudioChannels cfg.runtime.aChannels

/-- The scratch configuration with the parameters of a transmitter: the flags and the
    colour space plus one, and nothing else. -/
def readBack (cfg : RuntimeCfg) : RuntimeCfg := {
  RuntimeCfg.zero with
  «local» := ⟨.zero, ipaddrNone, 0, 0, 0, 0⟩
  ipMask := ipaddrNone
  ipGateway := ipaddrNone
  isMCast := if cfg.isMCast ≠ 0 then 2 else 1
  dest := ⟨.zero, cfg.dest.ip, cfg.dest.vport, cfg.dest.aport, cfg.dest.dport, cfg.dest.sport⟩
  runtime := {
    cfg.runtime with
    vColorSpace := cfg.runtime.vColorSpace + 1
    vIsInterlaced := 0
    vIsSegmented := cfg.runtime.vIsSegmented + 1
    isConnect := cfg.runtime.isConnect + 1 } }

/-- A colour space is known by its name, if it has one. -/
theorem extCmnTypeFind_name (v : UInt8) :
    extCmnTypeFind .vColorSpace (extCmnStringFind .vColorSpace v.toUInt16) =
      if StrType.vColorSpace.table.any (fun e => e.1 = v.toUInt16) then some v.toUInt16
      else none := by
  have hall : ∀ n < 256, extCmnTypeFind .vColorSpace
      (extCmnStringFind .vColorSpace (UInt8.ofNat n).toUInt16) =
        if StrType.vColorSpace.table.any (fun e => e.1 = (UInt8.ofNat n).toUInt16) then
          some (UInt8.ofNat n).toUInt16
        else none := by
    unfold extCmnTypeFind extCmnStringFind StrType.table
    repeat rw [ascii_ofList]
    decide +kernel
  have hv := hall v.toNat v.toNat_lt
  rwa [UInt8.ofNat_toNat] at hv

theorem colorName_ne_nil (type : UInt16) : extCmnStringFind .vColorSpace type ≠ [] := by
  have hall : ∀ name ∈ colorNames, name ≠ [] := by decide +kernel
  exact hall _ (colorName_mem type)

theorem acceptable_of_finds (h : Finds cfg d) (run : RuntimeCfg) :
    d.acceptable run = admits run cfg := by
  have hstring := h.noString
  have hnumber := h.noNumber
  simp only [List.forall_mem_cons] at hstring hnumber
  obtain ⟨-, -, -, -, -, hparity, -⟩ := hstring
  obtain ⟨-, -, hbaud, hbits, hstop, -⟩ := hnumber
  have hcolor : knownName .vColorSpace (d.stringIn .videoColorspace 32) =
      StrType.vColorSpace.table.any fun e => e.1 = cfg.runtime.vColorSpace.toUInt16 := by
    rw [h.vColorSpace, knownName, Option.all_some, extCmnTypeFind_name,
      decide_eq_false (colorName_ne_nil _), Bool.false_or]
    split
    · rename_i hany
      rw [hany]
      rfl
    · rename_i hany
      rw [Bool.eq_false_iff.mpr hany]
      rfl
  have hfound : d.found = true := by
    unfold Doc.found
    rw [h.isMCast]
    simp
  unfold Doc.acceptable admits
  rw [hcolor, hfound, h.mcastIp, h.aSampleRate, h.aDepth, h.aChannels]
  simp only [Doc.unsignedInteger, Doc.unsignedChar, Doc.stringIn, hparity, hbaud, hbits, hstop,
    Option.map_none, Option.all_none, knownName, Option.all_some, Bool.true_and, Bool.and_true]

/-- The colour space plus one, if it has a name. -/
theorem enumField_color (v : UInt8)
    (h : StrType.vColorSpace.table.any (fun e => e.1 = v.toUInt16) = true) :
    enumField .vColorSpace (some (extCmnStringFind .vColorSpace v.toUInt16)) = v + 1 := by
  have hfind := extCmnTypeFind_name v
  rw [if_pos h] at hfind
  cases hname : extCmnStringFind .vColorSpace v.toUInt16 with
  | nil => exact absurd hname (colorName_ne_nil _)
  | cons c s =>
      rw [hname] at hfind
      unfold enumField
      dsimp only
      rw [hfind]
      simp [UInt16.toUInt8_add]

theorem scratch_of_finds (h : Finds cfg d) {run : RuntimeCfg} (hadmits : admits run cfg = true) :
    d.scratch = readBack cfg := by
  have hstring := h.noString
  have hnumber := h.noNumber
  simp only [List.forall_mem_cons] at hstring hnumber
  obtain ⟨hname, hmac, hip, hmask, hgateway, hparity, -⟩ := hstring
  obtain ⟨hdhcp, hdip, hbaud, hbits, hstop, hinterlaced, -⟩ := hnumber
  have hcolor : enumField .vColorSpace (d.stringIn .videoColorspace 32) =
      cfg.runtime.vColorSpace + 1 := by
    unfold admits at hadmits
    simp only [Bool.and_eq_true] at hadmits
    rw [h.vColorSpace]
    exact enumField_color _ hadmits.1.1.1.2
  have hflag : flagField (some (if cfg.isMCast ≠ 0 then 1 else 0)) =
      if cfg.isMCast ≠ 0 then 2 else 1 := by
    split <;> rfl
  have hbyte : ∀ v : UInt8, flagField (some v.toUInt32) = v + 1 := by
    intro v
    rw [flagField]
    simp [UInt32.toUInt8_add]
  unfold Doc.scratch readBack
  rw [hcolor, h.isMCast, hflag, h.mcastIp, h.vport, h.aport, h.dport, h.sport, h.vWidth, h.vHeight,
    h.vFrameRate, h.vDepth, h.vIsSegmented, h.aSampleRate, h.aChannels, h.aDepth, h.isConnect,
    hbyte, hbyte]
  simp only [Doc.unsignedInteger, Doc.unsignedChar, Doc.macAddress, Doc.ipAddress, Doc.stringIn,
    hname, hmac, hip, hmask, hgateway, hparity, hdhcp, hdip, hbaud, hbits, hstop, hinterlaced,
    Option.map_none, Option.getD_some, Option.getD_none, flagField, enumField]
  rfl

end ReadBack

/-- The parameters that a receiver reads. -/
theorem readBack_of_undisturbed {cfg : RuntimeCfg} {peer : Device}
    (hpeer : Undisturbed peer (mediaFrame cfg true)) (hlogin : LoginReadable cfg) {q : Parser}
    (hq : q.doc = docIn peer (mediaFrame cfg true)) :
    if admits peer.cfg cfg then ∃ r, extJsonRequestParse peer.cfg q = .ok (readBack cfg, r)
    else ∃ r, extJsonRequestParse peer.cfg q = .error r := by
  have hfinds := finds_of_value fun key hkey => value_docIn hpeer hlogin hkey
  rw [← hq] at hfinds
  have haccept := acceptable_of_finds hfinds peer.cfg
  obtain ⟨haccepted, hrejected⟩ := extJsonRequestParse_eq peer.cfg q
  cases hadmits : admits peer.cfg cfg with
  | true =>
      obtain ⟨r, hr, -⟩ := haccepted (haccept.trans hadmits)
      rw [if_pos rfl, ← scratch_of_finds hfinds hadmits]
      exact ⟨r, hr⟩
  | false =>
      obtain ⟨r, hr, -⟩ := hrejected (haccept.trans hadmits)
      rw [if_neg Bool.false_ne_true]
      exact ⟨r, hr⟩

/-- The frame is accepted by every receiver, with its text. A receiver that does not look
    at what earlier datagrams have left, and is not misled by the login, finds the parameters
    in it. It takes them all, or it rejects them for one that does not pass its checks. -/
theorem mediaFrame_readBack (cfg peerCfg : RuntimeCfg) (evs : List ServiceEvent) :
    (∃ len, HandsOn (run serve (started peerCfg) evs) (mediaFrame cfg true)
      (mediaText cfg ++ [125]) len) ∧
    (Undisturbed (run serve (started peerCfg) evs) (mediaFrame cfg true) → LoginReadable cfg →
      ∃ p, parseDatagram (run serve (started peerCfg) evs) (mediaFrame cfg true) = (true, p) ∧
        ∀ q, q.input = p.input →
          if admits (run serve (started peerCfg) evs).cfg cfg then
            ∃ r, extJsonRequestParse (run serve (started peerCfg) evs).cfg q = .ok (readBack cfg, r)
          else
            ∃ r, extJsonRequestParse (run serve (started peerCfg) evs).cfg q = .error r) := by
  have hsize := size_run peerCfg evs
  generalize run serve (started peerCfg) evs = peer at hsize ⊢
  refine ⟨handsOn_tail (length_mediaText_le cfg) peer, ?_⟩
  intro hpeer hlogin
  have hparse := parseDatagram_mediaFrame hsize hpeer hlogin
  have hread := fun q => readBack_of_undisturbed hpeer hlogin (q := q)
  generalize docIn peer (mediaFrame cfg true) = d at hparse hread
  exact ⟨_, hparse, fun q hq => hread q (Parser.doc_eq hq)⟩

/-- A transmitter and a receiver with factory settings. -/
theorem mediaFrame_readBack_factory :
    ∃ p, parseDatagram (run serve (started (Device.factory 0).cfg) [])
        (mediaFrame (Device.factory 1).cfg true) = (true, p) ∧
      ∃ r, extJsonRequestParse (Device.factory 0).cfg p =
        .ok (readBack (Device.factory 1).cfg, r) := by
  obtain ⟨p, hp, hread⟩ := (mediaFrame_readBack (Device.factory 1).cfg (Device.factory 0).cfg []).2
    (by decide +kernel) (by decide +kernel)
  have hfactory := hread p rfl
  rw [if_pos (by decide +kernel)] at hfactory
  exact ⟨p, hp, hfactory⟩

/-- A sample rate that the receiver does not know. -/
theorem not_readBack_sampleRate :
    let cfg := { (Device.factory 1).cfg with runtime.aSampleRate := 32000 }
    let r := parseDatagram (run serve (started (Device.factory 0).cfg) []) (mediaFrame cfg true)
    r.1 = true ∧ (extJsonRequestParse (Device.factory 0).cfg r.2).isOk = false := by
  decide +kernel

end Cmd

end RtosLwip
