import RtosLwip.Base.Text

/-!
# The JSON Tokenizer

`jsmn_parse` in its non-strict form and without parent links, and the lookups of
`cmnJsonUtils.c` in what it leaves. The tokenizer cuts the text into tokens and
checks that brackets match; it does not ask for keys and values to alternate.

The token array is the parser's own and outlives the message: only as many
tokens as the message has are written, and the ones behind them are what earlier
messages have left there. `extJsonFindKeyToken` looks at one token more than the
message has, and takes the token behind the one it finds for the value. A key is
any string token but the first, whether it stands where a key can stand or not.

The superior token and the children count are left out, since nothing that is
modelled reads them.

## Main definitions

* `Jsmntok`: A token, with the part of the text it stands for.
* `Tokens`: The token array and the number of tokens that are used.
* `jsmnParse`: The tokenizer.
* `Doc`: A text in memory with the tokens that were found in it.
* `Doc.extJsonFindKeyToken`: The value that belongs to a key.
* `Doc.own`: The message without what earlier messages have left.
-/

namespace RtosLwip

namespace Cmd

inductive JsmnType where
  | undefined
  | object
  | array
  | string
  | primitive
  deriving DecidableEq, Repr

inductive JsmnErr where
  | nomem
  | inval
  | part
  deriving DecidableEq, Repr

/-- A token. `stop` is the position behind its last character, `end` in the
    source, where it is -1 while the bracket that closes the token is missing. -/
structure Jsmntok where
  type : JsmnType
  start : Nat
  stop : Option Nat
  deriving DecidableEq, Repr

namespace Jsmntok

/-- A token of a fresh array, and what is read behind the array. -/
def zero : Jsmntok := ⟨.undefined, 0, some 0⟩

/-- `JSON_TOKEN_LENGTH` of a string. -/
def length (t : Jsmntok) : Nat := t.stop.getD t.start - t.start

end Jsmntok

/-- The token array, and `toknext`. -/
structure Tokens where
  tokens : List Jsmntok
  toknext : Nat
  deriving DecidableEq, Repr

namespace Tokens

/-- `jsmn_alloc_token` and `jsmn_fill_token`. -/
def alloc (t : Jsmntok) (s : Tokens) : Option Tokens :=
  if s.tokens.length ≤ s.toknext then none
  else some { tokens := s.tokens.set s.toknext t, toknext := s.toknext + 1 }

/-- The last of the first `n` tokens that is still open. -/
def lastOpen (tokens : List Jsmntok) : Nat → Option Nat
  | 0 => none
  | i + 1 => if (tokens.getD i .zero).stop = none then some i else lastOpen tokens i

/-- A closing bracket, with the position behind it. -/
def close (type : JsmnType) (stop : Nat) (s : Tokens) : Except JsmnErr Tokens :=
  match lastOpen s.tokens s.toknext with
  | none => .error .inval
  | some i =>
      let t := s.tokens.getD i .zero
      if t.type = type then
        .ok { s with tokens := s.tokens.set i { t with stop := some stop } }
      else .error .inval

end Tokens

/-- What ends a primitive. -/
def isDelimiter (c : UInt8) : Bool :=
  c = 58 || c = 9 || c = 13 || c = 10 || c = 32 || c = 44 || c = 93 || c = 125

/-- `jsmn_parse_primitive`: The position behind the primitive. -/
def jsmnParsePrimitive : List UInt8 → Nat → Except JsmnErr Nat
  | [], pos => .ok pos
  | c :: rest, pos =>
      if c = 0 ∨ isDelimiter c then .ok pos
      else if c < 32 ∨ 127 ≤ c then .error .inval
      else jsmnParsePrimitive rest (pos + 1)

/-- The characters that may stand behind a backslash, `u` apart. -/
def isEscape (c : UInt8) : Bool :=
  c = 34 || c = 47 || c = 92 || c = 98 || c = 102 || c = 114 || c = 110 || c = 116

/-- `jsmn_parse_string` behind the opening quote: The position of the closing
    one. `digits` is the number of hexadecimal digits that `\u` still asks for. -/
def jsmnParseString : List UInt8 → Nat → Nat → Except JsmnErr Nat
  | [], _, _ => .error .part
  | c :: rest, pos, digits + 1 =>
      if c = 0 then .error .part
      else if (hexDigit c).isSome then jsmnParseString rest (pos + 1) digits
      else .error .inval
  | c :: rest, pos, 0 =>
      if c = 0 then .error .part
      else if c = 34 then .ok pos
      else if c = 92 then
        match rest with
        -- a backslash that is the last character is passed over
        | [] => .error .part
        | e :: rest =>
            if isEscape e then jsmnParseString rest (pos + 2) 0
            else if e = 117 then jsmnParseString rest (pos + 2) 4
            else .error .inval
      else jsmnParseString rest (pos + 1) 0

/-- The loop of `jsmn_parse`, at a position of the text. Each round takes at
    least one character, so as many rounds as there are characters are enough. -/
def jsmnLoop : Nat → List UInt8 → Nat → Tokens → Tokens × Option JsmnErr
  | 0, _, _, s => (s, none)
  | _ + 1, [], _, s => (s, none)
  | fuel + 1, c :: rest, pos, s =>
      if c = 0 then (s, none)
      else if c = 123 ∨ c = 91 then
        match s.alloc ⟨if c = 123 then .object else .array, pos, none⟩ with
        | none => (s, some .nomem)
        | some s => jsmnLoop fuel rest (pos + 1) s
      else if c = 125 ∨ c = 93 then
        match s.close (if c = 125 then .object else .array) (pos + 1) with
        | .error e => (s, some e)
        | .ok s => jsmnLoop fuel rest (pos + 1) s
      else if c = 34 then
        match jsmnParseString rest (pos + 1) 0 with
        | .error e => (s, some e)
        | .ok stop =>
            match s.alloc ⟨.string, pos + 1, some stop⟩ with
            | none => (s, some .nomem)
            | some s => jsmnLoop fuel (rest.drop (stop - pos)) (stop + 1) s
      else if isDelimiter c then jsmnLoop fuel rest (pos + 1) s
      else
        match jsmnParsePrimitive (c :: rest) pos with
        | .error e => (s, some e)
        | .ok stop =>
            match s.alloc ⟨.primitive, pos, some stop⟩ with
            | none => (s, some .nomem)
            | some s => jsmnLoop fuel ((c :: rest).drop (stop - pos)) stop s

/-- `jsmn_init` and `jsmn_parse`. The tokens are not cleared before. -/
def jsmnParse (js : List UInt8) (tokens : List Jsmntok) : Tokens × Option JsmnErr :=
  match jsmnLoop js.length js 0 ⟨tokens, 0⟩ with
  | (s, some e) => (s, some e)
  | (s, none) =>
      match Tokens.lastOpen s.tokens s.toknext with
      | some _ => (s, some .part)
      | none => (s, none)

/-- What a parser knows of its message: The memory from the first character of
    the text on, and the tokens. -/
structure Doc extends Tokens where
  text : List UInt8
  deriving DecidableEq, Repr

/-- `jsoneq` -/
def jsoneq (text : List UInt8) (key : List UInt8) (tok : Jsmntok) : Bool :=
  tok.type = .string && key.length = tok.length && (text.drop tok.start).take tok.length = key

namespace Doc

variable (d : Doc)

/-- `extJsonFindKeyToken`: The token behind the first one that equals the key.
    Tokens are counted from the second one of the array, so that the last one
    looked at is behind the message. -/
def extJsonFindKeyToken (key : List UInt8) : Option Jsmntok :=
  (((d.tokens.drop 1).take d.toknext).findIdx? (jsoneq d.text key)).map fun i =>
    d.tokens.getD (i + 2) .zero

/-- The message by itself, without the tokens that earlier messages have left. -/
def own : Doc := { d with tokens := d.tokens.take d.toknext }

/-- The characters of a string token. -/
def stringOf (tok : Jsmntok) : List UInt8 := cstr ((d.text.drop tok.start).take tok.length)

/-- The string that belongs to a key, all of it. -/
def string (key : List UInt8) (d : Doc) : Option (List UInt8) :=
  match d.extJsonFindKeyToken key with
  | none => none
  | some tok => if tok.type = .string then some (d.stringOf tok) else none

/-- The number that belongs to a key, as it is written. -/
def number (key : List UInt8) (d : Doc) : Option Int :=
  match d.extJsonFindKeyToken key with
  | none => none
  | some tok =>
      if tok.type = .primitive then scanInt (d.text.drop tok.start) else none

end Doc

end Cmd

end RtosLwip
