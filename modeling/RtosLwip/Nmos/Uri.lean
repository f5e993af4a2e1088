import RtosLwip.Base.Arrays
import RtosLwip.Cmd.Identifiers
import RtosLwip.Http.Searches

/-!
# The URI of an API Request

`nnmosHttp.c`: how the URI of a request is taken apart. Behind the API and its version
there are names with slashes between them, and one of them may be a UUID in place of a
name. A loop takes one part after the other, and goes on by as many bytes as the part
says it has used.

Whether a part is a UUID is asked of the memory from there on: what counts is that dashes
stand at four places, and not where the next slash is. Nothing is asked about the number of
names and their lengths, and one part uses no bytes.

## Main definitions

* `MuxNmosApiReq`, `extParseApiResource`, `extHttpNmosParseApiRequest`: The source.
* `Uri.memory`: The URI in the connection, as it was stored there.
* `Part`, `parts`: The parts of a text.
* `SafelyParsed`, `Readable`: The parser does its work, and the URIs for which it does.

## Theorems

* `loopsTo_iff`: The loop takes the parts of the text one after the other.
* `holds_of_foldlM`, `exists_foldlM`: What the parts leave in the request.
* `safelyParsed_iff_readable`: The URIs for which the parser does its work.
-/

namespace RtosLwip

namespace Nmos

open Cmd (Uuid extUuidParse)

/-- `NMOS_URI_RESOURCE_MAX` -/
abbrev uriResourceMax : Nat := 4

/-- `NMOS_URI_RESOURCE_LENGTH` -/
abbrev uriResourceLength : Nat := 16

/-- `EXT_UUID_STR_LENGTH` -/
def uuidStrLength : Nat := 36

/-- `MuxNmosApiReq`. -/
structure MuxNmosApiReq where
  versionFlags : UInt8
  resourceCount : Nat
  resources : Rows uriResourceMax uriResourceLength
  uuid : Uuid
  deriving DecidableEq

namespace MuxNmosApiReq

/-- The request after `memset`. -/
def zero : MuxNmosApiReq := ⟨0, 0, .replicate 4 (.replicate 16 0), .zero⟩

/-- `memcpy` into `resources[resourceCount++]`, which has no result outside the array. -/
def addResource (apiReq : MuxNmosApiReq) (bytes : List UInt8) : Option MuxNmosApiReq := do
  let resources ← apiReq.resources.write apiReq.resourceCount 0 bytes
  return { apiReq with resources, resourceCount := apiReq.resourceCount + 1 }

end MuxNmosApiReq

/-- A length as the `char` that is returned. One that the URI has room for is the same,
    whether or not the type has a sign. -/
def asChar (n : Nat) : Nat := n % 256

/-- `_extParseApiResource`, with the memory from `resource` on. -/
def extParseApiResource (apiReq : MuxNmosApiReq) (mem : List UInt8) :
    Option (MuxNmosApiReq × Nat) :=
  let resource := cstr mem
  match memmem [47] resource with
  | some next =>
      -- The UUID is written whether or not it is one.
      let (uuid, success) := extUuidParse mem
      let apiReq := { apiReq with uuid }
      if success then some (apiReq, asChar (uuidStrLength + 1))
      else do
        let apiReq ← apiReq.addResource (mem.take (min next uriResourceLength))
        return (apiReq, asChar (next + 1))
  | none =>
      if resource.length ≠ uuidStrLength then do
        let apiReq ← apiReq.addResource (mem.take (min resource.length uriResourceLength))
        return (apiReq, asChar resource.length)
      else
        let (uuid, success) := extUuidParse mem
        let apiReq := { apiReq with uuid }
        if success then some (apiReq, asChar uuidStrLength) else some (apiReq, 0)

/-- Why there is no result: a write outside the array, or the loop has not ended yet. -/
inductive ParseFault where
  | overrun
  | running
  deriving DecidableEq, Repr

/-- The loop of `extHttpNmosParseApiRequest`, with what each of its turns has used. -/
def parseLoop (mem : List UInt8) (urlLen : Nat) :
    Nat → MuxNmosApiReq → Nat → Except ParseFault (MuxNmosApiReq × List Nat)
  | 0, _, _ => .error .running
  | fuel + 1, apiReq, version =>
      match extParseApiResource apiReq (mem.drop version) with
      | none => .error .overrun
      | some (apiReq, ret) =>
          -- Nothing is done about a turn that has used no bytes.
          if version + ret < urlLen then
            match parseLoop mem urlLen fuel apiReq (version + ret) with
            | .error fault => .error fault
            | .ok (apiReq, rets) => .ok (apiReq, ret :: rets)
          else
            .ok (apiReq, [ret])

/-- `NMOS_API_TYPE`. -/
inductive ApiType where
  | node
  | connection
  deriving DecidableEq, Repr

/-- `NMOS_API_URI_NODE` and `NMOS_API_URI_CONNECTION`. -/
def ApiType.uri : ApiType → List UInt8
  | .node => ascii "/x-nmos/node"
  | .connection => ascii "/x-nmos/connection"

/-- The versions that are known. -/
inductive ApiVersion where
  | v10
  | v11
  | v12
  deriving DecidableEq, Repr

/-- `NMOS_API_VERSION_10` and those like it. -/
def ApiVersion.text : ApiVersion → List UInt8
  | .v10 => ascii "v1.0"
  | .v11 => ascii "v1.1"
  | .v12 => ascii "v1.2"

/-- The bit of `NMOS_VERSION_SET10` and those like it. -/
def ApiVersion.flag : ApiVersion → UInt8
  | .v10 => 1
  | .v11 => 2
  | .v12 => 4

/-- The version that is found at the start of the memory. -/
def findVersion (mem : List UInt8) : Option ApiVersion :=
  [ApiVersion.v10, .v11, .v12].find? fun v => (Http.strnstr mem v.text v.text.length).isSome

/-- What `extHttpNmosParseApiRequest` leaves: whether it returns `EXIT_SUCCESS`, the request,
    and what the turns of the loop have used. -/
structure ParsedRequest where
  success : Bool
  apiReq : MuxNmosApiReq
  rets : List Nat
  deriving DecidableEq

/-- A text that fits in `mhc->uri`. -/
structure Uri where
  text : List UInt8
  nulFree : ∀ c ∈ text, c ≠ 0
  fits : text.length < 128

/-- The memory behind the NUL: the rest of the array, which was cleared before the URI was
    stored, and what is behind the array. -/
def Uri.rest (uri : Uri) (behind : List UInt8) : List UInt8 :=
  List.replicate (127 - uri.text.length) 0 ++ behind

/-- The memory from `mhc->uri` on. -/
def Uri.memory (uri : Uri) (behind : List UInt8) : List UInt8 :=
  uri.text ++ 0 :: uri.rest behind

/-- `extHttpNmosParseApiRequest`. -/
def extHttpNmosParseApiRequest (fuel : Nat) (type : ApiType) (mem : List UInt8) :
    Except ParseFault ParsedRequest :=
  let urlLen := (cstr mem).length
  let version := type.uri.length + 1
  match findVersion (mem.drop version) with
  | none => .ok ⟨false, .zero, []⟩
  | some v =>
      let apiReq := { MuxNmosApiReq.zero with versionFlags := v.flag }
      let version := version + v.text.length
      -- With the last slash and without.
      if urlLen = version ∨ urlLen = version + 1 then .ok ⟨true, apiReq, []⟩
      else
        match parseLoop mem urlLen fuel apiReq (version + 1) with
        | .error fault => .error fault
        | .ok (apiReq, rets) => .ok ⟨true, apiReq, rets⟩

/-! ### The parts of a text -/

/-- A part of the text behind the version. -/
inductive Part where
  | uuid (u : Uuid)
  | segment (name : List UInt8)
  | last (name : List UInt8)
  | endless
  deriving DecidableEq

/-- There are dashes where `extUuidParse` looks for them. -/
def Dashed (mem : List UInt8) : Prop := (extUuidParse mem).2 = true

instance (mem : List UInt8) : Decidable (Dashed mem) :=
  inferInstanceAs (Decidable ((extUuidParse mem).2 = true))

/-- The parts of a text with the NUL and `rest` behind it. Before the last slash, dashes at
    the four places make a UUID of whatever is there, and the rest of a UUID is skipped. Behind
    it a UUID also has its length, and a text of this length that is none is never left. -/
def parts (rest : List UInt8) (text : List UInt8) : List Part :=
  if 47 ∈ text then
    if Dashed (text ++ 0 :: rest) then
      -- It is not looked whether the slash is where the UUID ends.
      .uuid (extUuidParse (text ++ 0 :: rest)).1 :: parts rest (text.drop (uuidStrLength + 1))
    else
      .segment (text.takeWhile (· ≠ 47)) :: parts rest (text.dropWhile (· ≠ 47)).tail
  else if text = [] then []
  else if text.length ≠ uuidStrLength then [.last text]
  else if Dashed (text ++ 0 :: rest) then [.uuid (extUuidParse (text ++ 0 :: rest)).1]
  else [.endless]
termination_by text.length
decreasing_by
  · rename_i hslash _
    rw [List.length_drop]
    have := List.length_pos_of_mem hslash
    unfold uuidStrLength
    omega
  · rename_i hslash _
    have := List.length_pos_of_mem hslash
    have := (List.dropWhile_sublist (· ≠ 47) (l := text)).length_le
    rw [List.length_tail]
    omega

/-- What a part does to the request. A segment has been tried as a UUID, which leaves none. -/
def Part.apply (apiReq : MuxNmosApiReq) : Part → Option MuxNmosApiReq
  | .uuid u => some { apiReq with uuid := u }
  | .segment name => { apiReq with uuid := .zero }.addResource (name.take uriResourceLength)
  | .last name => apiReq.addResource (name.take uriResourceLength)
  | .endless => none

/-- The names that are stored. -/
def Part.name : Part → Option (List UInt8)
  | .segment name | .last name => some name
  | .uuid _ | .endless => none

/-- The UUID behind a part. -/
def Part.uuidAfter (before : Uuid) : Part → Uuid
  | .uuid u => u
  | .segment _ => .zero
  | .last _ | .endless => before

/-- The part of the URI that is taken apart. -/
def Uri.path (uri : Uri) (type : ApiType) : List UInt8 := uri.text.drop (type.uri.length + 6)

/-- The parser ends, all of its turns have used something, and the names that it has stored
    are in the array, each with its NUL. -/
def SafelyParsed (type : ApiType) (mem : List UInt8) : Prop :=
  ∃ fuel r, extHttpNmosParseApiRequest fuel type mem = .ok r ∧ (∀ ret ∈ r.rets, 1 ≤ ret) ∧
    r.apiReq.resourceCount ≤ uriResourceMax ∧
    ∀ i < r.apiReq.resourceCount, 0 ∈ r.apiReq.resources.row i

/-- Behind a version that is known there are at most four names of at most fifteen bytes, and
    the text does not end with 36 bytes that are no UUID. -/
def Readable (type : ApiType) (uri : Uri) (behind : List UInt8) : Prop :=
  findVersion ((uri.memory behind).drop (type.uri.length + 1)) = none ∨
    let ps := parts (uri.rest behind) (uri.path type)
    .endless ∉ ps ∧ (ps.filterMap Part.name).length ≤ uriResourceMax ∧
      ∀ name ∈ ps.filterMap Part.name, name.length < uriResourceLength

/-! ### One turn of the loop -/

section Turn

variable {rest text : List UInt8} (apiReq : MuxNmosApiReq)

theorem cstr_path (hnul : ∀ c ∈ text, c ≠ 0) : cstr (text ++ 0 :: rest) = text :=
  (isText_of_append hnul).2

theorem slash_not_mem_takeWhile : (47 : UInt8) ∉ text.takeWhile (· ≠ 47) := by
  intro h
  have hne := List.mem_takeWhile_imp h
  simp at hne

/-- A text at its first slash. -/
theorem eq_append_slash (h : 47 ∈ text) :
    text = text.takeWhile (· ≠ 47) ++ 47 :: (text.dropWhile (· ≠ 47)).tail := by
  induction text with
  | nil => exact absurd h List.not_mem_nil
  | cons c rest ih =>
      by_cases hc : c = 47
      · subst hc
        rfl
      · have hpos : decide (c ≠ 47) = true := decide_eq_true hc
        have hrest := (List.mem_cons.mp h).resolve_left fun h47 => hc h47.symm
        rw [List.takeWhile_cons, List.dropWhile_cons, if_pos hpos, if_pos hpos, List.cons_append,
          ← ih hrest]

/-- As much of a text as there is room for. -/
theorem take_min_append (name behind : List UInt8) (room : Nat) :
    (name ++ behind).take (min name.length room) = name.take room := by
  rw [List.take_append_of_le_length (Nat.min_le_left _ _), Nat.min_comm, ← List.take_take,
    List.take_length]

theorem memmem_slash (h : 47 ∈ text) :
    memmem [47] text = some (text.takeWhile (· ≠ 47)).length := by
  conv_lhs => rw [eq_append_slash h]
  exact memmem_singleton slash_not_mem_takeWhile _

theorem memmem_no_slash (h : 47 ∉ text) : memmem [47] text = none := by
  rw [memmem_eq_none_iff, List.singleton_infix_iff]
  exact h

/-- A failure clears the UUID. -/
theorem extUuidParse_of_not_dashed {mem : List UInt8} (h : ¬ Dashed mem) :
    extUuidParse mem = (.zero, false) := by
  unfold Dashed at h
  unfold extUuidParse at h ⊢
  split
  next bytes hgroups =>
    rw [hgroups] at h
    exact absurd rfl h
  next => rfl

theorem extUuidParse_of_dashed {mem : List UInt8} (h : Dashed mem) :
    extUuidParse mem = ((extUuidParse mem).1, true) :=
  Prod.ext rfl h

theorem turn_uuid (hnul : ∀ c ∈ text, c ≠ 0) (hslash : 47 ∈ text)
    (hdashed : Dashed (text ++ 0 :: rest)) :
    extParseApiResource apiReq (text ++ 0 :: rest) =
      some ({ apiReq with uuid := (extUuidParse (text ++ 0 :: rest)).1 }, 37) := by
  rw [extParseApiResource, cstr_path hnul, memmem_slash hslash, extUuidParse_of_dashed hdashed]
  rfl

theorem turn_segment (hnul : ∀ c ∈ text, c ≠ 0) (hfits : text.length < 128)
    (hslash : 47 ∈ text) (hdashed : ¬ Dashed (text ++ 0 :: rest)) :
    extParseApiResource apiReq (text ++ 0 :: rest) =
      (Part.apply apiReq (.segment (text.takeWhile (· ≠ 47)))).map
        (·, (text.takeWhile (· ≠ 47)).length + 1) := by
  have hlen := (List.takeWhile_sublist (· ≠ 47) (l := text)).length_le
  have htake : (text ++ 0 :: rest).take
      (min (text.takeWhile (· ≠ 47)).length uriResourceLength) =
        (text.takeWhile (· ≠ 47)).take uriResourceLength := by
    have hmem : text ++ 0 :: rest = text.takeWhile (· ≠ 47) ++
        (47 :: (text.dropWhile (· ≠ 47)).tail ++ 0 :: rest) := by
      conv_lhs => rw [eq_append_slash hslash, List.append_assoc]
    rw [hmem, take_min_append]
  have hchar : asChar ((text.takeWhile (· ≠ 47)).length + 1) =
      (text.takeWhile (· ≠ 47)).length + 1 := Nat.mod_eq_of_lt (by omega)
  rw [extParseApiResource, cstr_path hnul, memmem_slash hslash,
    extUuidParse_of_not_dashed hdashed]
  dsimp only
  rw [if_neg Bool.false_ne_true, htake, hchar, Part.apply]
  cases MuxNmosApiReq.addResource { apiReq with uuid := .zero }
      ((text.takeWhile (· ≠ 47)).take uriResourceLength) with
  | none => rfl
  | some after => rfl

theorem turn_last (hnul : ∀ c ∈ text, c ≠ 0) (hfits : text.length < 128)
    (hslash : 47 ∉ text) (hlen : text.length ≠ uuidStrLength) :
    extParseApiResource apiReq (text ++ 0 :: rest) =
      (Part.apply apiReq (.last text)).map (·, text.length) := by
  have htake : (text ++ 0 :: rest).take (min text.length uriResourceLength) =
      text.take uriResourceLength := take_min_append text _ _
  have hchar : asChar text.length = text.length := Nat.mod_eq_of_lt (by omega)
  rw [extParseApiResource, cstr_path hnul, memmem_no_slash hslash]
  dsimp only
  rw [if_pos hlen, htake, hchar, Part.apply]
  cases apiReq.addResource (text.take uriResourceLength) with
  | none => rfl
  | some after => rfl

theorem turn_lastUuid (hnul : ∀ c ∈ text, c ≠ 0) (hslash : 47 ∉ text)
    (hlen : text.length = uuidStrLength) (hdashed : Dashed (text ++ 0 :: rest)) :
    extParseApiResource apiReq (text ++ 0 :: rest) =
      some ({ apiReq with uuid := (extUuidParse (text ++ 0 :: rest)).1 }, 36) := by
  rw [extParseApiResource, cstr_path hnul, memmem_no_slash hslash,
    extUuidParse_of_dashed hdashed]
  dsimp only
  rw [if_neg (not_not_intro hlen)]
  rfl

/-- Of such a text nothing is used. -/
theorem turn_endless (hnul : ∀ c ∈ text, c ≠ 0) (hslash : 47 ∉ text)
    (hlen : text.length = uuidStrLength) (hdashed : ¬ Dashed (text ++ 0 :: rest)) :
    extParseApiResource apiReq (text ++ 0 :: rest) = some ({ apiReq with uuid := .zero }, 0) := by
  rw [extParseApiResource, cstr_path hnul, memmem_no_slash hslash,
    extUuidParse_of_not_dashed hdashed]
  dsimp only
  rw [if_neg (not_not_intro hlen)]
  rfl

end Turn

/-! ### The loop -/

/-- The loop ends with this request, and each of its turns has used something. -/
def LoopsTo (mem : List UInt8) (urlLen : Nat) (apiReq : MuxNmosApiReq) (version : Nat)
    (final : MuxNmosApiReq) : Prop :=
  ∃ fuel rets, parseLoop mem urlLen fuel apiReq version = .ok (final, rets) ∧
    ∀ ret ∈ rets, 1 ≤ ret

section Loop

variable {mem : List UInt8} {urlLen version : Nat} {apiReq final : MuxNmosApiReq}

theorem not_loopsTo_of_overrun (hturn : extParseApiResource apiReq (mem.drop version) = none) :
    ¬ LoopsTo mem urlLen apiReq version final := by
  rintro ⟨fuel, rets, hloop, -⟩
  cases fuel with
  | zero => cases hloop
  | succ fuel =>
      rw [parseLoop, hturn] at hloop
      cases hloop

/-- The turn has to use something, and the loop has to go on as it should. -/
theorem loopsTo_iff_of_turn {after : MuxNmosApiReq} {ret : Nat}
    (hturn : extParseApiResource apiReq (mem.drop version) = some (after, ret)) :
    LoopsTo mem urlLen apiReq version final ↔ 1 ≤ ret ∧
      if version + ret < urlLen then LoopsTo mem urlLen after (version + ret) final
      else after = final := by
  constructor
  · rintro ⟨fuel, rets, hloop, hrets⟩
    cases fuel with
    | zero => cases hloop
    | succ fuel =>
        rw [parseLoop, hturn] at hloop
        dsimp only at hloop
        split at hloop
        next hmore =>
          rw [if_pos hmore]
          cases hnext : parseLoop mem urlLen fuel after (version + ret) with
          | error fault =>
              rw [hnext] at hloop
              cases hloop
          | ok r =>
              rw [hnext] at hloop
              cases hloop
              exact ⟨hrets ret List.mem_cons_self, fuel, r.2, hnext,
                fun ret' hret' => hrets ret' (List.mem_cons_of_mem _ hret')⟩
        next hend =>
          rw [if_neg hend]
          cases hloop
          exact ⟨hrets ret List.mem_cons_self, rfl⟩
  · rintro ⟨hret, hrest⟩
    split at hrest
    next hmore =>
      rcases hrest with ⟨fuel, rets, hnext, hrets⟩
      refine ⟨fuel + 1, ret :: rets, ?_, List.forall_mem_cons.mpr ⟨hret, hrets⟩⟩
      rw [parseLoop, hturn]
      dsimp only
      rw [if_pos hmore, hnext]
    next hend =>
      refine ⟨1, [ret], ?_, fun ret' hret' => ?_⟩
      · rw [parseLoop, hturn, ← hrest]
        dsimp only
        rw [if_neg hend]
      · rw [List.mem_singleton.mp hret']
        exact hret

variable {rest text : List UInt8}

/-- A turn that used as much of the text as there is before a part of it goes on there. -/
theorem loopsTo_iff_of_part {part : Part} {ret : Nat}
    (hturn : extParseApiResource apiReq (text ++ 0 :: rest) = (part.apply apiReq).map (·, ret))
    (hret : 1 ≤ ret) (hmem : mem.drop version = text ++ 0 :: rest)
    (hlen : version + text.length = urlLen) {behind : List Part}
    (hend : text.length ≤ ret → behind = [])
    (hgo : ∀ after, ret < text.length →
      (LoopsTo mem urlLen after (version + ret) final ↔
        behind.foldlM Part.apply after = some final)) :
    LoopsTo mem urlLen apiReq version final ↔
      (part :: behind).foldlM Part.apply apiReq = some final := by
  rw [← hmem] at hturn
  rw [List.foldlM_cons]
  cases hpart : part.apply apiReq with
  | none =>
      rw [hpart] at hturn
      exact iff_of_false (not_loopsTo_of_overrun hturn) nofun
  | some after =>
      rw [hpart] at hturn
      rw [loopsTo_iff_of_turn hturn, and_iff_right hret, Option.bind_eq_bind, Option.bind_some]
      split
      next hmore => exact hgo after (by omega)
      next hdone =>
        rw [hend (by omega), List.foldlM_nil]
        exact (Option.some_inj (a := after) (b := final)).symm

theorem drop_path {n : Nat} (hmem : mem.drop version = text ++ 0 :: rest) (hn : n ≤ text.length) :
    mem.drop (version + n) = text.drop n ++ 0 :: rest := by
  rw [← List.drop_drop, hmem, List.drop_append_of_le_length hn]

theorem parts_nil : parts rest [] = [] := by
  rw [parts, if_neg List.not_mem_nil, if_pos rfl]

theorem drop_length_succ (name : List UInt8) (c : UInt8) (tail : List UInt8) :
    (name ++ c :: tail).drop (name.length + 1) = tail := by
  rw [← List.drop_drop, List.drop_left]
  rfl

/-- The loop takes the parts of the text one after the other. -/
theorem loopsTo_iff (hnul : ∀ c ∈ text, c ≠ 0) (hfits : text.length < 128) (hne : text ≠ [])
    (hmem : mem.drop version = text ++ 0 :: rest) (hlen : version + text.length = urlLen) :
    LoopsTo mem urlLen apiReq version final ↔
      (parts rest text).foldlM Part.apply apiReq = some final := by
  -- induction on the text that is left
  induction text using parts.induct rest generalizing apiReq version with
  | case1 text hslash hdashed ih =>
      rw [parts, if_pos hslash, if_pos hdashed]
      have hturn : extParseApiResource apiReq (text ++ 0 :: rest) =
          ((Part.uuid (extUuidParse (text ++ 0 :: rest)).1).apply apiReq).map (·, 37) :=
        turn_uuid apiReq hnul hslash hdashed
      refine loopsTo_iff_of_part hturn (by omega) hmem hlen (fun hshort => ?_)
        (fun after hlong => ?_)
      · -- the 37 bytes may be more than there are, and the loop ends
        have hnil : text.drop (uuidStrLength + 1) = [] := List.drop_of_length_le hshort
        rw [hnil, parts_nil]
      · have hdrop : (text.drop (uuidStrLength + 1)).length = text.length - 37 :=
          List.length_drop
        refine ih (fun c hc => hnul c (List.mem_of_mem_drop hc)) (by omega) ?_
          (drop_path hmem (Nat.le_of_lt hlong)) (by omega)
        exact List.ne_nil_of_length_pos (by omega)
  | case2 text hslash hdashed ih =>
      have hsplit := eq_append_slash hslash
      have hlength := congrArg List.length hsplit
      rw [List.length_append, List.length_cons] at hlength
      have htail : text.drop ((text.takeWhile (· ≠ 47)).length + 1) =
          (text.dropWhile (· ≠ 47)).tail := by
        have hdrop := drop_length_succ (text.takeWhile (· ≠ 47)) 47
          (text.dropWhile (· ≠ 47)).tail
        rw [← hsplit] at hdrop
        exact hdrop
      rw [parts, if_pos hslash, if_neg hdashed]
      refine loopsTo_iff_of_part (turn_segment apiReq hnul hfits hslash hdashed) (by omega)
        hmem hlen (fun hshort => ?_) (fun after hlong => ?_)
      · -- the slash is the last byte, so no part is behind it
        have hnil : (text.dropWhile (· ≠ 47)).tail = [] :=
          List.eq_nil_of_length_eq_zero (by omega)
        rw [hnil, parts_nil]
      · have hnext := drop_path hmem (Nat.le_of_lt hlong)
        rw [htail] at hnext
        refine ih (fun c hc => hnul c ?_) (by omega) ?_ hnext (by omega)
        · rw [← htail] at hc
          exact List.mem_of_mem_drop hc
        · exact List.ne_nil_of_length_pos (by omega)
  | case3 hslash => exact absurd rfl hne
  | case4 text hslash hnil hlength =>
      rw [parts, if_neg hslash, if_neg hnil, if_pos hlength]
      exact loopsTo_iff_of_part (turn_last apiReq hnul hfits hslash hlength)
        (List.length_pos_of_ne_nil hne) hmem hlen (fun _ => rfl)
        (fun after hlong => absurd hlong (Nat.lt_irrefl _))
  | case5 text hslash hnil hlength hdashed =>
      rw [parts, if_neg hslash, if_neg hnil, if_neg hlength, if_pos hdashed]
      rw [not_not] at hlength
      have hturn : extParseApiResource apiReq (text ++ 0 :: rest) =
          ((Part.uuid (extUuidParse (text ++ 0 :: rest)).1).apply apiReq).map (·, 36) :=
        turn_lastUuid apiReq hnul hslash hlength hdashed
      exact loopsTo_iff_of_part hturn (by omega) hmem hlen (fun _ => rfl)
        (fun after hlong => absurd hlong (by rw [hlength]; exact Nat.lt_irrefl _))
  | case6 text hslash hnil hlength hdashed =>
      rw [parts, if_neg hslash, if_neg hnil, if_neg hlength, if_neg hdashed]
      rw [not_not] at hlength
      -- such a turn uses nothing, which the loop must not do
      have hturn := turn_endless apiReq hnul hslash hlength hdashed
      rw [← hmem] at hturn
      rw [loopsTo_iff_of_turn hturn]
      exact iff_of_false (fun h => absurd h.1 (by omega)) nofun

/-- A turn does what its part says, or it uses nothing whatever the request is. -/
theorem turn_cases (hnul : ∀ c ∈ text, c ≠ 0) (hfits : text.length < 128) (hne : text ≠ []) :
    (∃ ret, 1 ≤ ret ∧ ∀ req after ret', extParseApiResource req (text ++ 0 :: rest) =
      some (after, ret') → ret' = ret) ∨
    ∀ req, extParseApiResource req (text ++ 0 :: rest) = some ({ req with uuid := .zero }, 0) := by
  have hmap : ∀ {part : Part} {ret : Nat} {req after : MuxNmosApiReq} {ret' : Nat},
      (part.apply req).map (·, ret) = some (after, ret') → ret' = ret := by
    intro part ret req after ret' h
    rcases Option.map_eq_some_iff.mp h with ⟨_, _, heq⟩
    exact (congrArg Prod.snd heq).symm
  by_cases hslash : 47 ∈ text
  · by_cases hdashed : Dashed (text ++ 0 :: rest)
    · refine Or.inl ⟨37, by omega, fun req after ret' h => ?_⟩
      rw [turn_uuid req hnul hslash hdashed] at h
      cases h
      rfl
    · refine Or.inl ⟨(text.takeWhile (· ≠ 47)).length + 1, by omega, fun req after ret' h => ?_⟩
      rw [turn_segment req hnul hfits hslash hdashed] at h
      exact hmap h
  · by_cases hlen : text.length = uuidStrLength
    · by_cases hdashed : Dashed (text ++ 0 :: rest)
      · refine Or.inl ⟨36, by omega, fun req after ret' h => ?_⟩
        rw [turn_lastUuid req hnul hslash hlen hdashed] at h
        cases h
        rfl
      · exact Or.inr fun req => turn_endless req hnul hslash hlen hdashed
    · refine Or.inl ⟨text.length, List.length_pos_of_ne_nil hne, fun req after ret' h => ?_⟩
      rw [turn_last req hnul hfits hslash hlen] at h
      exact hmap h

/-- A turn that uses nothing is taken again and again. -/
theorem parseLoop_endless
    (hturn : ∀ req, ∃ after, extParseApiResource req (mem.drop version) = some (after, 0))
    (hlt : version < urlLen) (fuel : Nat) (req : MuxNmosApiReq) :
    parseLoop mem urlLen fuel req version = .error .running := by
  induction fuel generalizing req with
  | zero => rfl
  | succ fuel ih =>
      rcases hturn req with ⟨after, hafter⟩
      rw [parseLoop, hafter]
      dsimp only
      rw [Nat.add_zero, if_pos hlt, ih after]

/-- A loop that ends has used something in each of its turns. -/
theorem rets_pos (hnul : ∀ c ∈ text, c ≠ 0) (hfits : text.length < 128) (hne : text ≠ [])
    (hmem : mem.drop version = text ++ 0 :: rest) (hlen : version + text.length = urlLen)
    {fuel : Nat} {rets : List Nat}
    (hloop : parseLoop mem urlLen fuel apiReq version = .ok (final, rets)) :
    ∀ ret ∈ rets, 1 ≤ ret := by
  -- induction on the turns that are left
  induction fuel generalizing apiReq version text rets with
  | zero => cases hloop
  | succ fuel ih =>
      have hpos := List.length_pos_of_ne_nil hne
      have hcases := @turn_cases rest text hnul hfits hne
      rw [← hmem] at hcases
      rcases hcases with ⟨used, hused, hturn⟩ | hstuck
      · rw [parseLoop] at hloop
        split at hloop
        next => cases hloop
        next after ret hafter =>
          rw [hturn apiReq after ret hafter] at hloop
          split at hloop
          next hmore =>
            split at hloop
            next => cases hloop
            next final' rets' hrest =>
              cases hloop
              have hdrop : (text.drop used).length = text.length - used := List.length_drop
              refine List.forall_mem_cons.mpr ⟨hused, ?_⟩
              exact ih (fun c hc => hnul c (List.mem_of_mem_drop hc)) (by omega)
                (List.ne_nil_of_length_pos (by omega)) (drop_path hmem (by omega)) (by omega) hrest
          next hend =>
            cases hloop
            intro ret' hret'
            rw [List.mem_singleton.mp hret']
            exact hused
      · -- a turn that uses nothing is not in a loop that ends
        have hrunning : parseLoop mem urlLen (fuel + 1) apiReq version = .error .running :=
          parseLoop_endless (fun req => ⟨_, hstuck req⟩) (by omega) (fuel + 1) apiReq
        rw [hrunning] at hloop
        cases hloop

end Loop

/-! ### What is stored -/

/-- The request holds these names, as much of each as there is room for. -/
structure Holds (apiReq : MuxNmosApiReq) (names : List (List UInt8)) : Prop where
  count : apiReq.resourceCount = names.length
  room : names.length ≤ uriResourceMax
  rows : ∀ i (h : i < names.length), apiReq.resources.row i =
    names[i].take uriResourceLength ++ List.replicate (uriResourceLength - names[i].length) 0
  free : ∀ i < uriResourceMax, names.length ≤ i →
    apiReq.resources.row i = List.replicate uriResourceLength 0

theorem holds_zero (flags : UInt8) :
    Holds { MuxNmosApiReq.zero with versionFlags := flags } [] where
  count := rfl
  room := Nat.zero_le _
  rows i h := absurd h (Nat.not_lt_zero i)
  free i h _ := by
    rw [Rows.row, dif_pos h]
    show (Vector.replicate 4 (Vector.replicate 16 (0 : UInt8)))[i].toList = _
    rw [Vector.getElem_replicate]
    rfl

section Stored

variable {apiReq final : MuxNmosApiReq} {names : List (List UInt8)}

theorem addResource_of_full (h : Holds apiReq names) (hfull : ¬ names.length < uriResourceMax)
    (bytes : List UInt8) : apiReq.addResource bytes = none := by
  rw [MuxNmosApiReq.addResource, Rows.write_eq_none _ (Or.inl (by rw [h.count]; omega))]
  rfl

/-- A name is stored in the next row. -/
theorem addResource_of_room (h : Holds apiReq names) (hroom : names.length < uriResourceMax)
    (name : List UInt8) :
    ∃ after, apiReq.addResource (name.take uriResourceLength) = some after ∧
      Holds after (names ++ [name]) ∧ after.uuid = apiReq.uuid := by
  have hcount := h.count
  have hlen : (names ++ [name]).length = names.length + 1 := List.length_append
  have hfits : 0 + (name.take uriResourceLength).length ≤ uriResourceLength := by
    rw [Nat.zero_add]
    exact List.length_take_le _ _
  have hindex : apiReq.resourceCount < uriResourceMax := by omega
  rcases Rows.exists_write apiReq.resources hindex hfits with ⟨resources, hwrite, hrow, hother⟩
  refine ⟨{ apiReq with resources, resourceCount := apiReq.resourceCount + 1 }, ?_, ?_, rfl⟩
  · rw [MuxNmosApiReq.addResource, hwrite]
    rfl
  refine ⟨by rw [hlen, ← hcount], by omega, fun i hi => ?_, fun i hi hfree => ?_⟩
  · dsimp only
    by_cases hnew : i = names.length
    · -- the row was free, so it is zero behind the name
      subst hnew
      have hfree := h.free names.length hroom (Nat.le_refl _)
      have hfill : uriResourceLength - min uriResourceLength name.length =
          uriResourceLength - name.length := by omega
      rw [hcount, hfree, List.take_zero, List.nil_append, Nat.zero_add, List.drop_replicate,
        List.length_take, hfill] at hrow
      simp only [List.getElem_concat_length]
      exact hrow
    · rw [hother i (by omega), h.rows i (by omega), List.getElem_append_left]
  · dsimp only
    rw [hother i (by omega), h.free i hi (by omega)]

theorem Holds.withUuid (h : Holds apiReq names) (u : Uuid) :
    Holds { apiReq with uuid := u } names :=
  ⟨h.count, h.room, h.rows, h.free⟩

/-- What one part leaves. -/
theorem holds_of_apply {part : Part} (h : Holds apiReq names)
    (hpart : part.apply apiReq = some final) :
    part ≠ .endless ∧ Holds final (names ++ part.name.toList) ∧
      final.uuid = part.uuidAfter apiReq.uuid := by
  have hstored : ∀ {req : MuxNmosApiReq} {name : List UInt8}, Holds req names →
      req.addResource (name.take uriResourceLength) = some final →
      Holds final (names ++ [name]) ∧ final.uuid = req.uuid := by
    intro req name hreq hadd
    by_cases hroom : names.length < uriResourceMax
    · rcases addResource_of_room hreq hroom name with ⟨after, hafter, hholds, huuid⟩
      rw [hafter] at hadd
      cases hadd
      exact ⟨hholds, huuid⟩
    · rw [addResource_of_full hreq hroom] at hadd
      cases hadd
  cases part with
  | uuid u =>
      cases hpart
      exact ⟨nofun, by rw [Part.name, Option.toList_none, List.append_nil]; exact h.withUuid u, rfl⟩
  | segment name => exact ⟨nofun, hstored (h.withUuid .zero) hpart⟩
  | last name => exact ⟨nofun, hstored h hpart⟩
  | endless => cases hpart

theorem exists_apply {part : Part} (h : Holds apiReq names) (hend : part ≠ .endless)
    (hroom : names.length + part.name.toList.length ≤ uriResourceMax) :
    ∃ after, part.apply apiReq = some after := by
  cases part with
  | uuid u => exact ⟨_, rfl⟩
  | segment name =>
      rcases addResource_of_room (h.withUuid .zero) hroom name with ⟨after, hafter, -⟩
      exact ⟨after, hafter⟩
  | last name =>
      rcases addResource_of_room h hroom name with ⟨after, hafter, -⟩
      exact ⟨after, hafter⟩
  | endless => exact absurd rfl hend

theorem filterMap_name_cons (part : Part) (ps : List Part) :
    (part :: ps).filterMap Part.name = part.name.toList ++ ps.filterMap Part.name := by
  rw [List.filterMap_cons]
  cases part.name with
  | none => rfl
  | some name => rfl

/-- What the parts of a text leave. -/
theorem holds_of_foldlM {ps : List Part} (h : Holds apiReq names)
    (hfold : ps.foldlM Part.apply apiReq = some final) :
    .endless ∉ ps ∧ Holds final (names ++ ps.filterMap Part.name) ∧
      final.uuid = ps.foldl Part.uuidAfter apiReq.uuid := by
  induction ps generalizing apiReq names with
  | nil =>
      cases hfold
      rw [List.filterMap_nil, List.append_nil]
      exact ⟨List.not_mem_nil, h, rfl⟩
  | cons part ps ih =>
      rw [List.foldlM_cons, Option.bind_eq_bind] at hfold
      rcases Option.bind_eq_some_iff.mp hfold with ⟨after, hpart, hrest⟩
      rcases holds_of_apply h hpart with ⟨hne, hafter, huuid⟩
      rcases ih hafter hrest with ⟨hmem, hfinal, hlast⟩
      refine ⟨fun hin => ?_, ?_, ?_⟩
      · rcases List.mem_cons.mp hin with heq | htail
        · exact hne heq.symm
        · exact hmem htail
      · rw [filterMap_name_cons, ← List.append_assoc]
        exact hfinal
      · rw [hlast, huuid, List.foldl_cons]

/-- There is room for the names. -/
theorem exists_foldlM {ps : List Part} (h : Holds apiReq names) (hend : .endless ∉ ps)
    (hroom : names.length + (ps.filterMap Part.name).length ≤ uriResourceMax) :
    ∃ final, ps.foldlM Part.apply apiReq = some final := by
  induction ps generalizing apiReq names with
  | nil => exact ⟨apiReq, rfl⟩
  | cons part ps ih =>
      rw [filterMap_name_cons, List.length_append] at hroom
      have hne : part ≠ .endless := fun heq => hend (heq ▸ List.mem_cons_self)
      rcases exists_apply h hne (by omega) with ⟨after, hafter⟩
      have hholds := (holds_of_apply h hafter).2.1
      rcases ih hholds (fun hin => hend (List.mem_cons_of_mem _ hin))
        (by rw [List.length_append]; omega) with ⟨final, hfinal⟩
      refine ⟨final, ?_⟩
      rw [List.foldlM_cons, hafter]
      exact hfinal

/-- A stored name has its NUL if and only if it is shorter than its row. -/
theorem zero_mem_row_iff (h : Holds apiReq names) {i : Nat} (hi : i < names.length)
    (hnul : 0 ∉ names[i]) :
    0 ∈ apiReq.resources.row i ↔ names[i].length < uriResourceLength := by
  rw [h.rows i hi, List.mem_append, List.mem_replicate]
  constructor
  · intro hor
    rcases hor with hname | hfill
    · exact absurd (List.mem_of_mem_take hname) hnul
    · omega
  · intro hshort
    exact Or.inr ⟨by omega, rfl⟩

end Stored

/-- The names are made of bytes of the text. -/
theorem mem_of_mem_name {rest text name : List UInt8} {c : UInt8}
    (hname : name ∈ (parts rest text).filterMap Part.name) (hc : c ∈ name) : c ∈ text := by
  induction text using parts.induct rest with
  | case1 text hslash hdashed ih =>
      rw [parts, if_pos hslash, if_pos hdashed, filterMap_name_cons] at hname
      exact List.mem_of_mem_drop (ih hname)
  | case2 text hslash hdashed ih =>
      rw [parts, if_pos hslash, if_neg hdashed, filterMap_name_cons] at hname
      rcases List.mem_append.mp hname with hfirst | hrest
      · rw [Part.name, Option.toList_some, List.mem_singleton] at hfirst
        rw [hfirst] at hc
        exact (List.takeWhile_sublist _).subset hc
      · rw [eq_append_slash hslash]
        exact List.mem_append_right _ (List.mem_cons_of_mem _ (ih hrest))
  | case3 hslash =>
      rw [parts_nil] at hname
      cases hname
  | case4 text hslash hnil hlength =>
      rw [parts, if_neg hslash, if_neg hnil, if_pos hlength, filterMap_name_cons] at hname
      rw [List.mem_singleton.mp hname] at hc
      exact hc
  | case5 text hslash hnil hlength hdashed =>
      rw [parts, if_neg hslash, if_neg hnil, if_neg hlength, if_pos hdashed] at hname
      cases hname
  | case6 text hslash hnil hlength hdashed =>
      rw [parts, if_neg hslash, if_neg hnil, if_neg hlength, if_neg hdashed] at hname
      cases hname

/-! ### The whole URI -/

theorem length_version (v : ApiVersion) : v.text.length = 4 := by
  cases v with
  | v10 => rfl
  | v11 => rfl
  | v12 => rfl

section Whole

variable (uri : Uri) (behind : List UInt8) (type : ApiType)

theorem cstr_memory : cstr (uri.memory behind) = uri.text :=
  (isText_of_append uri.nulFree).2

/-- The array is cleared behind the URI. -/
theorem memory_cleared {i : Nat} (hi : uri.text.length ≤ i) (hend : i < 128) :
    (uri.memory behind)[i]? = some 0 := by
  have hcleared : uri.memory behind =
      uri.text ++ (List.replicate (128 - uri.text.length) 0 ++ behind) := by
    have hfits := uri.fits
    have hsucc : 128 - uri.text.length = 127 - uri.text.length + 1 := by omega
    rw [hsucc, List.replicate_succ]
    rfl
  rw [hcleared, List.getElem?_append_right hi,
    List.getElem?_append_left (by rw [List.length_replicate]; omega),
    List.getElem?_replicate, if_pos (by omega)]

/-- A version is found in the URI, and not behind it. -/
theorem length_of_findVersion {n : Nat} (hn : n ≤ 124) {v : ApiVersion}
    (h : findVersion ((uri.memory behind).drop n) = some v) : n + 4 ≤ uri.text.length := by
  have hfound := List.find?_some h
  rcases Option.isSome_iff_exists.mp hfound with ⟨p, hp⟩
  rw [Http.strnstr, length_version] at hp
  have hlen := memmem_add_length_le hp
  rw [length_version] at hlen
  by_contra hshort
  -- One of the four bytes is the NUL, or behind it and cleared.
  have hzero : (0 : UInt8) ∈ ((uri.memory behind).drop n).take 4 := by
    refine List.mem_of_getElem? (i := max n uri.text.length - n) ?_
    rw [List.getElem?_take_of_lt (by omega), List.getElem?_drop]
    exact memory_cleared uri behind (by omega) (by omega)
  rcases exists_cstr_append hzero with ⟨t, ht⟩
  have hlength := congrArg List.length ht
  rw [List.length_append, List.length_take, List.length_cons] at hlength
  have htake : (cstr (((uri.memory behind).drop n).take 4)).length < 4 := by omega
  exact absurd hlen (by
    show ¬ p + 4 ≤ (cstr (((uri.memory behind).drop n).take 4)).length
    omega)

/-- The request as the loop starts with it. -/
def started (v : ApiVersion) : MuxNmosApiReq := { MuxNmosApiReq.zero with versionFlags := v.flag }

theorem parse_of_version {v : ApiVersion} (fuel : Nat)
    (hv : findVersion ((uri.memory behind).drop (type.uri.length + 1)) = some v) :
    extHttpNmosParseApiRequest fuel type (uri.memory behind) =
      if uri.path type = [] then .ok ⟨true, started v, []⟩
      else
        match parseLoop (uri.memory behind) uri.text.length fuel (started v)
          (type.uri.length + 6) with
        | .error fault => .error fault
        | .ok (apiReq, rets) => .ok ⟨true, apiReq, rets⟩ := by
  have hbase : type.uri.length ≤ 18 := by
    cases type with
    | node => decide
    | connection => decide
  have hlen := length_of_findVersion uri behind (by omega) hv
  have hpath : uri.path type = [] ↔ uri.text.length = type.uri.length + 1 + 4 ∨
      uri.text.length = type.uri.length + 1 + 4 + 1 := by
    rw [Uri.path, List.drop_eq_nil_iff]
    omega
  rw [extHttpNmosParseApiRequest, cstr_memory, hv]
  dsimp only
  rw [length_version]
  by_cases hroot : uri.path type = []
  · rw [if_pos hroot, if_pos (hpath.mp hroot)]
    rfl
  · rw [if_neg hroot, if_neg (mt hpath.mpr hroot)]
    rfl

variable {uri type}

/-- The text that is taken apart is at the end of the URI. -/
theorem drop_memory_path (hroot : uri.path type ≠ []) :
    (uri.memory behind).drop (type.uri.length + 6) = uri.path type ++ 0 :: uri.rest behind ∧
      type.uri.length + 6 + (uri.path type).length = uri.text.length := by
  have hpos := List.length_pos_of_ne_nil hroot
  have hpath : (uri.path type).length = uri.text.length - (type.uri.length + 6) :=
    List.length_drop
  refine ⟨?_, by omega⟩
  rw [Uri.memory, List.drop_append_of_le_length (by omega)]
  rfl

theorem nulFree_path (uri : Uri) (type : ApiType) : ∀ c ∈ uri.path type, c ≠ 0 :=
  fun c hc => uri.nulFree c (List.mem_of_mem_drop hc)

theorem length_path (uri : Uri) (type : ApiType) : (uri.path type).length < 128 :=
  Nat.lt_of_le_of_lt (List.drop_sublist _ _).length_le uri.fits

variable {v : ApiVersion} {behind}

/-- A run of the parser that ends has taken the parts of the text, and used something for each
    of them. -/
theorem foldlM_of_parse {fuel : Nat} {r : ParsedRequest}
    (hv : findVersion ((uri.memory behind).drop (type.uri.length + 1)) = some v)
    (hok : extHttpNmosParseApiRequest fuel type (uri.memory behind) = .ok r) :
    r.success = true ∧ (∀ ret ∈ r.rets, 1 ≤ ret) ∧
      (parts (uri.rest behind) (uri.path type)).foldlM Part.apply (started v) =
        some r.apiReq := by
  rw [parse_of_version uri behind type fuel hv] at hok
  split at hok
  next hroot =>
    cases hok
    rw [hroot, parts_nil]
    exact ⟨rfl, nofun, rfl⟩
  next hroot =>
    rcases drop_memory_path behind hroot with ⟨hmem, hlen⟩
    split at hok
    next => cases hok
    next apiReq rets hloop =>
      cases hok
      have hnul := nulFree_path uri type
      have hfits := length_path uri type
      have hrets := rets_pos hnul hfits hroot hmem hlen hloop
      exact ⟨rfl, hrets, (loopsTo_iff hnul hfits hroot hmem hlen).mp ⟨fuel, rets, hloop, hrets⟩⟩

/-- If the parts of the text can be taken, the parser does so. -/
theorem parse_of_foldlM {final : MuxNmosApiReq}
    (hv : findVersion ((uri.memory behind).drop (type.uri.length + 1)) = some v)
    (hfold : (parts (uri.rest behind) (uri.path type)).foldlM Part.apply (started v) =
      some final) :
    ∃ fuel rets, extHttpNmosParseApiRequest fuel type (uri.memory behind) =
      .ok ⟨true, final, rets⟩ := by
  by_cases hroot : uri.path type = []
  · rw [hroot, parts_nil] at hfold
    cases hfold
    refine ⟨0, [], ?_⟩
    rw [parse_of_version uri behind type 0 hv, if_pos hroot]
  · rcases drop_memory_path behind hroot with ⟨hmem, hlen⟩
    rcases (loopsTo_iff (nulFree_path uri type) (length_path uri type) hroot hmem hlen).mpr hfold
      with ⟨fuel, rets, hloop, -⟩
    refine ⟨fuel, rets, ?_⟩
    rw [parse_of_version uri behind type fuel hv, if_neg hroot, hloop]

variable (uri) (type) (behind)

/-- The parser does its work for the readable URIs, and for no other. -/
theorem safelyParsed_iff_readable :
    SafelyParsed type (uri.memory behind) ↔ Readable type uri behind := by
  rw [SafelyParsed, Readable]
  cases hv : findVersion ((uri.memory behind).drop (type.uri.length + 1)) with
  | none =>
      refine iff_of_true ⟨0, ⟨false, .zero, []⟩, ?_, nofun, Nat.zero_le _, fun i hi => ?_⟩
        (Or.inl rfl)
      · rw [extHttpNmosParseApiRequest]
        dsimp only
        rw [hv]
      · exact absurd hi (Nat.not_lt_zero i)
  | some v =>
      rw [or_iff_right (Option.some_ne_none v)]
      dsimp only
      have hnul : ∀ name ∈ (parts (uri.rest behind) (uri.path type)).filterMap Part.name,
          0 ∉ name := fun name hname h0 =>
        uri.nulFree 0 (List.mem_of_mem_drop (mem_of_mem_name hname h0)) rfl
      constructor
      · -- what is stored are the names, so the NUL of each row tells that its name is short
        rintro ⟨fuel, r, hok, -, -, hrows⟩
        rcases foldlM_of_parse hv hok with ⟨-, -, hfold⟩
        rcases holds_of_foldlM (holds_zero v.flag) hfold with ⟨hend, hholds, -⟩
        rw [List.nil_append] at hholds
        refine ⟨hend, hholds.room, fun name hname => ?_⟩
        rcases List.getElem_of_mem hname with ⟨i, hi, rfl⟩
        refine (zero_mem_row_iff hholds hi (hnul _ hname)).mp (hrows i ?_)
        rw [hholds.count]
        exact hi
      · rintro ⟨hend, hroom, hshort⟩
        rcases exists_foldlM (holds_zero v.flag) hend (by rw [List.length_nil]; omega)
          with ⟨final, hfold⟩
        rcases holds_of_foldlM (holds_zero v.flag) hfold with ⟨-, hholds, -⟩
        rw [List.nil_append] at hholds
        rcases parse_of_foldlM hv hfold with ⟨fuel, rets, hok⟩
        rcases foldlM_of_parse hv hok with ⟨-, hrets, -⟩
        refine ⟨fuel, ⟨true, final, rets⟩, hok, hrets, ?_, fun i hi => ?_⟩
        · rw [hholds.count]
          exact hroom
        · rw [hholds.count] at hi
          exact (zero_mem_row_iff hholds hi (hnul _ (List.getElem_mem hi))).mpr
            (hshort _ (List.getElem_mem hi))

end Whole

theorem ne_zero_of_not_mem {text : List UInt8} (h : 0 ∉ text) : ∀ c ∈ text, c ≠ 0 :=
  fun _ hc h0 => h (h0 ▸ hc)

/-- A text of 36 bytes that is no UUID, behind the API for nodes. -/
def endlessUri : Uri where
  text := ascii "/x-nmos/node/v1.0/012345678901234567890123456789012345"
  nulFree := ne_zero_of_not_mem (by decide)
  fits := by decide

/-- The loop never leaves the text of 36 bytes. -/
theorem not_safelyParsed_endlessUri : ¬ SafelyParsed .node (endlessUri.memory []) := by
  rintro ⟨fuel, r, hok, -⟩
  have hpath : (endlessUri.memory []).drop 18 =
      endlessUri.path .node ++ 0 :: endlessUri.rest [] := by decide
  have hturn : ∀ req, ∃ after,
      extParseApiResource req ((endlessUri.memory []).drop 18) = some (after, 0) := by
    intro req
    rw [hpath]
    exact ⟨_, turn_endless req (nulFree_path endlessUri .node) (by decide) (by decide)
      (by decide)⟩
  have hlen : endlessUri.text.length = 54 := by decide
  have hstart : ApiType.node.uri.length + 6 = 18 := by decide
  rw [parse_of_version endlessUri [] .node fuel (v := .v10) (by decide), if_neg (by decide),
    hlen, hstart, parseLoop_endless hturn (by omega)] at hok
  cases hok

end Nmos

end RtosLwip
