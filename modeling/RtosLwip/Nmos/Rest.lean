import RtosLwip.Base.Siblings
import RtosLwip.Nmos.Connection
import RtosLwip.Nmos.Uri

/-!
# The Access Point of a Request

`nnmosHttp.c`: which access point a URI is for. The access points of an API are a tree,
and the names in the URI are a path in it. A UUID in the URI tells the handler which
resource it is about, and is no part of the path.

The names lead to the access point if they are stored as they are in the URI. A name that
is followed by a slash is first tried as a UUID. Where the dashes of some names stand as
those of a UUID would, the names are skipped, and where they do not, the UUID that was there
before is cleared.

## Main definitions

* `AccessPoint`, `apNodeRoot`, `apConnRoot`: The access points.
* `extRestApiHandle`: The source.
* `Segment`, `ApiUri`: The URIs of an API.
* `Understood`: The names and the UUID are stored, and the access point is called.
* `Undashed`, `Kept`: What can go wrong does not.

## Theorems

* `parts_path`: The parts of an undashed path.
* `understood_iff`: The URIs that are understood.
-/

namespace RtosLwip

namespace Nmos

open Cmd (Uuid extUuidParse uuidDenotes)

/-- The handlers in the tree below `apNodeRoot`. -/
inductive NodeHandler where
  | root
  | self
  | devices
  | sources
  | flows
  | senders
  | receivers
  deriving DecidableEq, Repr

/-- The names of the access points. -/
def NodeHandler.name : NodeHandler → List UInt8
  | .root => ascii "/"
  | .self => ascii "self"
  | .devices => ascii "devices"
  | .sources => ascii "sources"
  | .flows => ascii "flows"
  | .senders => ascii "senders"
  | .receivers => ascii "receivers"

/-- `ApiAccessPoint`, by its callback. -/
inductive AccessPoint where
  | ofNode (h : NodeHandler)
  | ofConn (h : ConnHandler)
  deriving DecidableEq, Repr

def AccessPoint.name : AccessPoint → List UInt8
  | .ofNode h => h.name
  | .ofConn h => h.name

/-- The root of an API, and the pointer to its children. -/
structure ApiRoot where
  point : AccessPoint
  child : Siblings AccessPoint

/-- `_apNodeSelf`. -/
def apNodeSelf : Siblings AccessPoint :=
  .node (.ofNode .self) .null <| .node (.ofNode .devices) .null <|
    .node (.ofNode .sources) .null <| .node (.ofNode .flows) .null <|
    .node (.ofNode .senders) .null <| .node (.ofNode .receivers) .null .null

def apNodeRoot : ApiRoot := ⟨.ofNode .root, apNodeSelf⟩

/-- `__apConnSingleReceiversConstraints`. -/
def apConnSingleReceiversConstraints : Siblings AccessPoint :=
  .node (.ofConn .receiversConstraints) .null <| .node (.ofConn .receiversStaged) .null <|
    .node (.ofConn .receiversActive) .null .null

/-- `__apConnSingleSendersConstraints`. -/
def apConnSingleSendersConstraints : Siblings AccessPoint :=
  .node (.ofConn .sendersConstraints) .null <| .node (.ofConn .sendersStaged) .null <|
    .node (.ofConn .sendersActive) .null <| .node (.ofConn .sendersTransportfile) .null .null

/-- `__apConnSingleSenders`. -/
def apConnSingleSenders : Siblings AccessPoint :=
  .node (.ofConn .senders) apConnSingleSendersConstraints <|
    .node (.ofConn .receivers) apConnSingleReceiversConstraints .null

/-- `__apConnBulkSenders`. -/
def apConnBulkSenders : Siblings AccessPoint :=
  .node (.ofConn .bulkSenders) .null <| .node (.ofConn .bulkReceivers) .null .null

/-- `_apConnBulk`. -/
def apConnBulk : Siblings AccessPoint :=
  .node (.ofConn .bulk) apConnBulkSenders <| .node (.ofConn .single) apConnSingleSenders .null

def apConnRoot : ApiRoot := ⟨.ofConn .root, apConnBulk⟩

/-- The names that are told of an access point are those of its children. -/
example : [apConnBulk, apConnBulkSenders, apConnSingleSenders, apConnSingleSendersConstraints,
      apConnSingleReceiversConstraints].map (fun s => s.members.map Prod.fst) =
    [ConnHandler.root, .bulk, .single, .senders, .receivers].map fun h =>
      h.children.map AccessPoint.ofConn :=
  rfl

/-- The root that `extHttpHandleRequest` hands on for an API. -/
def apRoot : ApiType → ApiRoot
  | .node => apNodeRoot
  | .connection => apConnRoot

/-- The text of a resource. Without a NUL in its row it goes on in the next one. -/
def MuxNmosApiReq.resource (apiReq : MuxNmosApiReq) (index : Nat) : List UInt8 :=
  cstr ((apiReq.resources.toList.drop index).flatMap Vector.toList ++ apiReq.uuid.toList)

/-- What `_extRestApiHandle` does: the callback of an access point, or `extHttpRestError` with
    `WEB_RES_BAD_REQUEST`. -/
inductive RestResult where
  | called (point : AccessPoint)
  | badRequest (debug : List UInt8)
  deriving DecidableEq, Repr

/-- The loop of `_extRestApiHandle`. -/
def findService (apiReq : MuxNmosApiReq) : Nat → Siblings AccessPoint → RestResult
  | _, .null => .badRequest (ascii "Can't find service of URI")
  | index, .node apiAp child next =>
      if strcasecmpEq apiAp.name (apiReq.resource index) then
        if index + 1 = apiReq.resourceCount then .called apiAp
        else findService apiReq (index + 1) child
      else findService apiReq index next

/-- `_extRestApiHandle`. -/
def extRestApiHandle (fuel : Nat) (apiAcRoot : ApiRoot) (type : ApiType) (mem : List UInt8) :
    Except ParseFault RestResult :=
  match extHttpNmosParseApiRequest fuel type mem with
  | .error fault => .error fault
  | .ok r =>
      if r.success then
        if r.apiReq.resourceCount = 0 then .ok (.called apiAcRoot.point)
        else .ok (findService r.apiReq 0 apiAcRoot.child)
      else .ok (.badRequest (ascii "Failed in parsing resources in URI"))

/-! ### The URIs of an API -/

/-- A segment of a URI: a name of at most fifteen bytes, or the text of a UUID. -/
inductive Segment where
  | name (text : List UInt8)
      (proper : text ≠ [] ∧ text.length < uriResourceLength ∧ 47 ∉ text ∧ 0 ∉ text)
  | uuid (text : List UInt8) (u : Uuid) (denotes : uuidDenotes text = some u.toList)

namespace Segment

def text : Segment → List UInt8
  | .name text _ => text
  | .uuid text _ _ => text

/-- The name, if it is one. -/
def name? : Segment → Option (List UInt8)
  | .name text _ => some text
  | .uuid _ _ _ => none

/-- The UUID, if it is one. -/
def uuid? : Segment → Option Uuid
  | .name _ _ => none
  | .uuid _ u _ => some u

end Segment

/-- The segments, each behind a slash, and the trailing slash if there is one. -/
def slashed (trailing : Bool) : List Segment → List UInt8
  | [] => if trailing then [47] else []
  | s :: post => 47 :: (s.text ++ slashed trailing post)

/-- base/version/s1/../sk, with or without a trailing slash. -/
structure ApiUri where
  type : ApiType
  version : ApiVersion
  segments : List Segment
  trailing : Bool
  names : (segments.filterMap Segment.name?).length ≤ uriResourceMax
  uuids : (segments.filterMap Segment.uuid?).length ≤ 1

namespace ApiUri

variable (u : ApiUri)

def text : List UInt8 := u.type.uri ++ 47 :: u.version.text ++ slashed u.trailing u.segments

/-- The names in the URI. -/
def nameList : List (List UInt8) := u.segments.filterMap Segment.name?

/-- The UUID in the URI. -/
def uuid : Uuid := (u.segments.filterMap Segment.uuid?).headD .zero

end ApiUri

/-- Names are the same but for their case. -/
def lower (name : List UInt8) : List UInt8 := name.map toLower

/-- An access point is at the end of a path of names. -/
def Reached (root : ApiRoot) (names : List (List UInt8)) (point : AccessPoint) : Prop :=
  if names = [] then point = root.point
  else Siblings.Reaches (fun ap : AccessPoint => lower ap.name) root.child (names.map lower) point

namespace Segment

theorem length_uuid {text : List UInt8} {u : Uuid} (h : uuidDenotes text = some u.toList) :
    text.length = uuidStrLength :=
  length_text_of_hexGroups h

theorem mem_uuid {text : List UInt8} {u : Uuid} (h : uuidDenotes text = some u.toList)
    {c : UInt8} (hc : c ∈ text) : c = 45 ∨ (hexDigit c).isSome :=
  eq_or_isSome_of_mem_hexGroups h hc

theorem slash_not_mem (s : Segment) : 47 ∉ s.text := by
  cases s with
  | name text proper => exact proper.2.2.1
  | uuid text u denotes => exact fun h => absurd (mem_uuid denotes h) (by decide)

theorem nul_not_mem (s : Segment) : 0 ∉ s.text := by
  cases s with
  | name text proper => exact proper.2.2.2
  | uuid text u denotes => exact fun h => absurd (mem_uuid denotes h) (by decide)

theorem text_ne_nil (s : Segment) : s.text ≠ [] := by
  cases s with
  | name text proper => exact proper.1
  | uuid text u denotes =>
      refine List.ne_nil_of_length_pos ?_
      show 0 < text.length
      rw [length_uuid denotes]
      decide

/-- The first eight bytes of a UUID are digits. -/
theorem digits_of_uuid {text : List UInt8} {u : Uuid} (h : uuidDenotes text = some u.toList)
    {i : Nat} (hi : i < 8) : text.getD i 0 ≠ 45 := by
  rcases hexGroups_cons_cons.mp h with ⟨digits, behind, front, _, rfl, hfront, hlen, -, -⟩
  have hdigits := length_of_hexDecode hfront
  rw [List.getD_eq_getElem?_getD, List.getElem?_append_left (by omega),
    List.getElem?_eq_getElem (by omega), Option.getD_some]
  intro hdash
  have hdigit := isSome_of_mem_hexDecode hfront (List.getElem_mem (show i < digits.length by omega))
  rw [hdash] at hdigit
  exact absurd hdigit (by decide)

end Segment

namespace ApiUri

variable (u : ApiUri)

theorem nul_not_mem_slashed (trailing : Bool) (segments : List Segment) :
    0 ∉ slashed trailing segments := by
  induction segments with
  | nil =>
      cases trailing with
      | false => exact List.not_mem_nil
      | true => decide
  | cons s post ih =>
      intro h
      rcases List.mem_cons.mp h with hzero | hrest
      · exact absurd hzero (by decide)
      · rcases List.mem_append.mp hrest with htext | hpost
        · exact s.nul_not_mem htext
        · exact ih hpost

theorem nulFree_text : ∀ c ∈ u.text, c ≠ 0 := by
  have hbase : (0 : UInt8) ∉ u.type.uri := by
    cases u.type with
    | node => decide
    | connection => decide
  have hversion : (0 : UInt8) ∉ 47 :: u.version.text := by
    cases u.version with
    | v10 => decide
    | v11 => decide
    | v12 => decide
  rintro c hc rfl
  rcases List.mem_append.mp hc with hfront | hpath
  · rcases List.mem_append.mp hfront with h | h
    · exact hbase h
    · exact hversion h
  · exact nul_not_mem_slashed u.trailing u.segments hpath

theorem length_front : (u.type.uri ++ 47 :: u.version.text).length = u.type.uri.length + 5 := by
  rw [List.length_append, List.length_cons, length_version]

theorem length_slashed_le (trailing : Bool) (segments : List Segment) :
    (slashed trailing segments).length ≤ 16 * (segments.filterMap Segment.name?).length +
      37 * (segments.filterMap Segment.uuid?).length + 1 := by
  induction segments with
  | nil =>
      cases trailing with
      | false => exact Nat.zero_le _
      | true => exact Nat.le_refl _
  | cons s post ih =>
      rw [slashed, List.length_cons, List.length_append, List.filterMap_cons, List.filterMap_cons]
      cases s with
      | name text proper =>
          have hlen : text.length < 16 := proper.2.1
          show text.length + (slashed trailing post).length + 1 ≤
            16 * ((post.filterMap Segment.name?).length + 1) +
              37 * (post.filterMap Segment.uuid?).length + 1
          omega
      | uuid text u denotes =>
          have hlen : text.length = 36 := Segment.length_uuid denotes
          show text.length + (slashed trailing post).length + 1 ≤
            16 * (post.filterMap Segment.name?).length +
              37 * ((post.filterMap Segment.uuid?).length + 1) + 1
          omega

/-- There is room for such a URI in the connection. -/
theorem fits_text : u.text.length < 128 := by
  have hbase : u.type.uri.length ≤ 18 := by
    cases u.type with
    | node => decide
    | connection => decide
  have hslashed := length_slashed_le u.trailing u.segments
  have hnames : (u.segments.filterMap Segment.name?).length ≤ 4 := u.names
  have huuids := u.uuids
  rw [text, List.length_append, length_front]
  omega

/-- The URI as a text. -/
def uri : Uri := ⟨u.text, u.nulFree_text, u.fits_text⟩

/-- What is behind the version. -/
theorem path_uri : u.uri.path u.type = (slashed u.trailing u.segments).tail := by
  show (u.type.uri ++ 47 :: u.version.text ++ slashed u.trailing u.segments).drop
    (u.type.uri.length + 5 + 1) = _
  rw [← length_front, ← List.drop_drop, List.drop_left, List.drop_one]

theorem findVersion_append (v : ApiVersion) (rest : List UInt8) :
    findVersion (v.text ++ rest) = some v := by
  have hfound : ∀ w : ApiVersion, Http.strnstr (v.text ++ rest) w.text w.text.length =
      memmem w.text (v.text.takeWhile (· ≠ 0)) := by
    intro w
    rw [Http.strnstr, length_version, List.take_left' (length_version v)]
  rw [findVersion]
  simp only [hfound]
  cases v with
  | v10 => decide
  | v11 => decide
  | v12 => decide

theorem findVersion_uri (behind : List UInt8) :
    findVersion ((u.uri.memory behind).drop (u.type.uri.length + 1)) = some u.version := by
  have hmem : u.uri.memory behind = u.type.uri ++ 47 :: (u.version.text ++
      (slashed u.trailing u.segments ++ 0 :: u.uri.rest behind)) := by
    show u.type.uri ++ 47 :: u.version.text ++ slashed u.trailing u.segments ++ _ = _
    simp only [List.append_assoc, List.cons_append]
  rw [hmem, drop_length_succ, findVersion_append]

end ApiUri

/-! ### The parts of a path -/

/-- The part that a segment should be. -/
def Segment.part (followed : Bool) : Segment → Part
  | .name text _ => if followed then .segment text else .last text
  | .uuid _ u _ => .uuid u

/-- There is a slash behind a segment, with the others behind it. -/
def Followed (trailing : Bool) (post : List Segment) : Prop := slashed trailing post ≠ []

instance (trailing : Bool) (post : List Segment) : Decidable (Followed trailing post) :=
  inferInstanceAs (Decidable (slashed trailing post ≠ []))

/-- The parts that the segments should be. -/
def segmentParts (trailing : Bool) : List Segment → List Part
  | [] => []
  | s :: post => s.part (Followed trailing post) :: segmentParts trailing post

/-- Nowhere in the path do the dashes of names stand where those of a UUID would. -/
def Undashed (rest : List UInt8) (trailing : Bool) : List Segment → Prop
  | [] => True
  | .uuid _ _ _ :: post => Undashed rest trailing post
  | .name text _ :: post =>
      (Followed trailing post → ¬ Dashed (text ++ slashed trailing post ++ 0 :: rest)) ∧
        Undashed rest trailing post

section Path

variable (rest : List UInt8) (trailing : Bool)

theorem slashed_eq_cons {post : List Segment} (h : Followed trailing post) :
    slashed trailing post = 47 :: (slashed trailing post).tail := by
  cases post with
  | nil =>
      cases trailing with
      | false => exact absurd rfl h
      | true => rfl
  | cons s post => rfl

/-- A UUID is one wherever it stands. -/
theorem parts_uuid {text : List UInt8} {u : Uuid} (h : uuidDenotes text = some u.toList)
    (post : List Segment) :
    parts rest (text ++ slashed trailing post) =
      .uuid u :: parts rest (slashed trailing post).tail := by
  have hlen := Segment.length_uuid h
  have hread : ∀ behind, Dashed (text ++ behind) ∧ (extUuidParse (text ++ behind)).1 = u := by
    intro behind
    rcases Cmd.extUuidParse_of_uuidDenotes h behind with ⟨hdashed, hbytes⟩
    exact ⟨hdashed, Vector.toList_inj.mp hbytes⟩
  by_cases hfollowed : Followed trailing post
  · -- the UUID is taken with the slash behind it
    rw [slashed_eq_cons trailing hfollowed, List.tail_cons]
    rw [parts, if_pos (List.mem_append_right _ List.mem_cons_self), List.append_assoc,
      if_pos (hread _).1, (hread _).2, ← hlen, drop_length_succ]
  · rw [Followed, not_not] at hfollowed
    have hslash : 47 ∉ text := (Segment.uuid text u h).slash_not_mem
    have hne : text ≠ [] := (Segment.uuid text u h).text_ne_nil
    rw [hfollowed, List.tail_nil, List.append_nil, parts_nil, parts, if_neg hslash, if_neg hne,
      if_neg (not_not_intro hlen), if_pos (hread _).1, (hread _).2]

variable {text : List UInt8}

theorem parts_last (hslash : 47 ∉ text) (hne : text ≠ []) (hlen : text.length < uriResourceLength) :
    parts rest text = [.last text] := by
  have hshort : text.length < 16 := hlen
  have hother : text.length ≠ uuidStrLength := by
    unfold uuidStrLength
    omega
  rw [parts, if_neg hslash, if_neg hne, if_pos hother]

theorem parts_segment (hslash : 47 ∉ text) {tail : List UInt8}
    (hdashed : ¬ Dashed (text ++ 47 :: tail ++ 0 :: rest)) :
    parts rest (text ++ 47 :: tail) = .segment text :: parts rest tail := by
  have hall : ∀ c ∈ text, decide (c ≠ 47) = true := fun c hc =>
    decide_eq_true fun h => hslash (h ▸ hc)
  have htake : (text ++ 47 :: tail).takeWhile (· ≠ 47) = text := by
    rw [List.takeWhile_append_of_pos hall]
    exact List.append_nil text
  have hdrop : (text ++ 47 :: tail).dropWhile (· ≠ 47) = 47 :: tail := by
    rw [List.dropWhile_append_of_pos hall]
    rfl
  rw [parts, if_pos (List.mem_append_right _ List.mem_cons_self), if_neg hdashed, htake, hdrop,
    List.tail_cons]

theorem parts_dashed {tail : List UInt8} (hdashed : Dashed (text ++ 47 :: tail ++ 0 :: rest)) :
    (parts rest (text ++ 47 :: tail)).filterMap Part.name =
      (parts rest ((text ++ 47 :: tail).drop (uuidStrLength + 1))).filterMap Part.name := by
  rw [parts, if_pos (List.mem_append_right _ List.mem_cons_self), if_pos hdashed,
    filterMap_name_cons]
  rfl

/-- The parts of an undashed path are its segments. -/
theorem parts_path {segments : List Segment} (h : Undashed rest trailing segments) :
    parts rest (slashed trailing segments).tail = segmentParts trailing segments := by
  induction segments with
  | nil =>
      cases trailing with
      | false => exact parts_nil
      | true => exact parts_nil
  | cons s post ih =>
      show parts rest (s.text ++ slashed trailing post) = _
      cases s with
      | uuid text u denotes =>
          show parts rest (text ++ slashed trailing post) = .uuid u :: _
          rw [parts_uuid rest trailing denotes, ih h]
      | name text proper =>
          show parts rest (text ++ slashed trailing post) = _
          have hproper := proper
          rcases hproper with ⟨hne, hlen, hslash, -⟩
          rw [segmentParts, Segment.part, ← ih h.2]
          by_cases hfollowed : Followed trailing post
          · have hdashed := h.1 hfollowed
            rw [decide_eq_true hfollowed, if_pos rfl]
            rw [slashed_eq_cons trailing hfollowed] at hdashed ⊢
            rw [parts_segment rest hslash hdashed, List.tail_cons]
          · rw [decide_eq_false hfollowed, if_neg Bool.false_ne_true]
            rw [Followed, not_not] at hfollowed
            rw [hfollowed, List.append_nil, parts_last rest hslash hne hlen, List.tail_nil,
              parts_nil]

end Path

/-! ### How many names there can be -/

/-- The pieces of a text that end with a slash, and the one behind the last slash. -/
def pieces : List UInt8 → Nat
  | [] => 0
  | c :: text => if c = 47 then pieces text + 1 else max 1 (pieces text)

section Pieces

variable {rest text : List UInt8}

theorem pieces_drop_le (text : List UInt8) (n : Nat) : pieces (text.drop n) ≤ pieces text := by
  induction text generalizing n with
  | nil => rw [List.drop_nil]
  | cons c text ih =>
      cases n with
      | zero => exact Nat.le_refl _
      | succ n =>
          have hrest := ih n
          rw [List.drop_succ_cons, pieces]
          split
          · omega
          · omega

theorem pieces_pos (h : text ≠ []) : 1 ≤ pieces text := by
  cases text with
  | nil => exact absurd rfl h
  | cons c text =>
      rw [pieces]
      split
      · omega
      · omega

theorem pieces_append_slash (h : 47 ∉ text) (tail : List UInt8) :
    pieces (text ++ 47 :: tail) = pieces tail + 1 := by
  induction text with
  | nil => exact if_pos rfl
  | cons c text ih =>
      have hc : c ≠ 47 := fun heq => h (heq ▸ List.mem_cons_self)
      have hrest := ih fun hmem => h (List.mem_cons_of_mem _ hmem)
      rw [List.cons_append, pieces, if_neg hc, hrest]
      omega

theorem pieces_of_no_slash (h : 47 ∉ text) (hne : text ≠ []) : pieces text = 1 := by
  induction text with
  | nil => exact absurd rfl hne
  | cons c text ih =>
      have hc : c ≠ 47 := fun heq => h (heq ▸ List.mem_cons_self)
      rw [pieces, if_neg hc]
      cases text with
      | nil => rfl
      | cons c' text =>
          rw [ih (fun hmem => h (List.mem_cons_of_mem _ hmem)) (List.cons_ne_nil _ _)]
          rfl

/-- There is a piece for every name. -/
theorem length_names_le (rest text : List UInt8) :
    ((parts rest text).filterMap Part.name).length ≤ pieces text := by
  induction text using parts.induct rest with
  | case1 text hslash hdashed ih =>
      rw [parts, if_pos hslash, if_pos hdashed, filterMap_name_cons]
      exact Nat.le_trans ih (pieces_drop_le text _)
  | case2 text hslash hdashed ih =>
      have hpieces := pieces_append_slash (@slash_not_mem_takeWhile text)
        (text.dropWhile (· ≠ 47)).tail
      rw [← eq_append_slash hslash] at hpieces
      rw [parts, if_pos hslash, if_neg hdashed, filterMap_name_cons, hpieces]
      exact Nat.succ_le_succ ih
  | case3 hslash =>
      rw [parts_nil]
      exact Nat.le_refl _
  | case4 text hslash hnil hlength =>
      rw [parts, if_neg hslash, if_neg hnil, if_pos hlength]
      exact pieces_pos hnil
  | case5 text hslash hnil hlength hdashed =>
      rw [parts, if_neg hslash, if_neg hnil, if_neg hlength, if_pos hdashed]
      exact Nat.zero_le _
  | case6 text hslash hnil hlength hdashed =>
      rw [parts, if_neg hslash, if_neg hnil, if_neg hlength, if_neg hdashed]
      exact Nat.zero_le _

theorem pieces_path (trailing : Bool) (segments : List Segment) :
    pieces (slashed trailing segments).tail = segments.length := by
  induction segments with
  | nil =>
      cases trailing with
      | false => rfl
      | true => rfl
  | cons s post ih =>
      show pieces (s.text ++ slashed trailing post) = post.length + 1
      by_cases hfollowed : Followed trailing post
      · rw [slashed_eq_cons trailing hfollowed, pieces_append_slash s.slash_not_mem, ih]
      · rw [Followed, not_not] at hfollowed
        rw [hfollowed, List.append_nil, pieces_of_no_slash s.slash_not_mem s.text_ne_nil]
        cases post with
        | nil => rfl
        | cons s' post => cases hfollowed

/-- Every segment is a name or a UUID. -/
theorem length_names_add_uuids (segments : List Segment) :
    (segments.filterMap Segment.name?).length + (segments.filterMap Segment.uuid?).length =
      segments.length := by
  induction segments with
  | nil => rfl
  | cons s post ih =>
      rw [List.filterMap_cons, List.filterMap_cons]
      cases s with
      | name text proper =>
          simp only [Segment.name?, Segment.uuid?, List.length_cons]
          omega
      | uuid text u denotes =>
          simp only [Segment.name?, Segment.uuid?, List.length_cons]
          omega

/-- Where the digits of a UUID are there is no dash. -/
theorem not_dashed_of_uuid {digits : List UInt8} {u : Uuid}
    (hlen : text.length < 16) (h : uuidDenotes digits = some u.toList)
    (behind : List UInt8) : ¬ Dashed (text ++ 47 :: (digits ++ behind)) := by
  intro hdashed
  have hall : ∀ i ∈ [8, 13, 18, 23], load8 (text ++ 47 :: (digits ++ behind)) i = 45 := by
    by_contra hnot
    simp only [not_forall, exists_prop] at hnot
    rw [← Cmd.uuidGroups_eq_none_iff] at hnot
    rw [Dashed, extUuidParse, hnot] at hdashed
    cases hdashed
  have hdigit : ∀ k < 8, load8 (text ++ 47 :: (digits ++ behind)) (text.length + 1 + k) ≠ 45 := by
    intro k hk
    have hlong := Segment.length_uuid h
    unfold uuidStrLength at hlong
    have hread := Segment.digits_of_uuid h hk
    rw [← Cmd.load8_drop, drop_length_succ, load8, List.getD_eq_getElem?_getD,
      List.getElem?_append_left (by omega), ← List.getD_eq_getElem?_getD]
    exact hread
  -- the first of the places that is not in the name is among the first eight digits
  rcases Nat.lt_or_ge text.length 8 with h8 | h8
  · exact hdigit (7 - text.length) (by omega) (by
      rw [show text.length + 1 + (7 - text.length) = 8 by omega]
      exact hall 8 (by decide))
  · rcases Nat.lt_or_ge text.length 13 with h13 | h13
    · exact hdigit (12 - text.length) (by omega) (by
        rw [show text.length + 1 + (12 - text.length) = 13 by omega]
        exact hall 13 (by decide))
    · exact hdigit (17 - text.length) (by omega) (by
        rw [show text.length + 1 + (17 - text.length) = 18 by omega]
        exact hall 18 (by decide))

end Pieces

/-! ### Paths that are not undashed -/

section Skipped

variable {rest : List UInt8} {trailing : Bool}

theorem names_segmentParts (trailing : Bool) (segments : List Segment) :
    (segmentParts trailing segments).filterMap Part.name =
      segments.filterMap Segment.name? := by
  induction segments with
  | nil => rfl
  | cons s post ih =>
      rw [segmentParts, filterMap_name_cons, ih, List.filterMap_cons]
      cases s with
      | name text proper =>
          by_cases hfollowed : Followed trailing post
          · rw [Segment.part, decide_eq_true hfollowed]
            rfl
          · rw [Segment.part, decide_eq_false hfollowed]
            rfl
      | uuid text u denotes => rfl

theorem endless_not_mem_segmentParts (trailing : Bool) (segments : List Segment) :
    .endless ∉ segmentParts trailing segments := by
  induction segments with
  | nil => exact List.not_mem_nil
  | cons s post ih =>
      intro h
      rcases List.mem_cons.mp h with heq | hrest
      · cases s with
        | name text proper =>
            rw [Segment.part] at heq
            split at heq
            · cases heq
            · cases heq
        | uuid text u denotes => cases heq
      · exact ih hrest

/-- Where the dashes of names stand as those of a UUID, the names that are skipped are
    missing: there are too few pieces left for as many names. -/
theorem length_names_of_dashed {text : List UInt8} {post : List Segment}
    (hlen : text.length < 16) (hfollowed : Followed trailing post)
    (huuids : (post.filterMap Segment.uuid?).length ≤ 1)
    (hdashed : Dashed (text ++ slashed trailing post ++ 0 :: rest)) :
    ((parts rest (text ++ slashed trailing post)).filterMap Part.name).length <
      (post.filterMap Segment.name?).length + 1 := by
  rw [slashed_eq_cons trailing hfollowed] at hdashed ⊢
  rw [parts_dashed rest hdashed]
  have hle := length_names_le rest
    ((text ++ 47 :: (slashed trailing post).tail).drop (uuidStrLength + 1))
  have hskip : uuidStrLength + 1 = 37 := rfl
  refine Nat.lt_of_le_of_lt hle ?_
  rw [hskip]
  cases post with
  | nil =>
      -- the name is the last one, and it is shorter than a UUID
      have hnil : (text ++ 47 :: (slashed trailing []).tail).drop 37 = [] := by
        refine List.drop_of_length_le ?_
        cases trailing with
        | false =>
            simp only [slashed, List.length_append, List.length_cons]
            exact Nat.le_of_lt (by show text.length + 1 < 37; omega)
        | true =>
            simp only [slashed, List.length_append, List.length_cons]
            exact Nat.le_of_lt (by show text.length + 1 < 37; omega)
      rw [hnil]
      exact Nat.succ_pos _
  | cons s post =>
      cases s with
      | uuid digits u denotes =>
          -- there is a dash where one of the digits of the UUID is
          have hmem : text ++ 47 :: (digits ++ (slashed trailing post ++ 0 :: rest)) =
              text ++ 47 :: (digits ++ slashed trailing post) ++ 0 :: rest := by
            simp only [List.append_assoc, List.cons_append]
          have hnot := not_dashed_of_uuid hlen denotes (slashed trailing post ++ 0 :: rest)
          rw [hmem] at hnot
          exact absurd hdashed hnot
      | name text' proper =>
          show pieces ((text ++ 47 :: (text' ++ slashed trailing post)).drop 37) <
            (post.filterMap Segment.name?).length + 1 + 1
          have hshort : text'.length < 16 := proper.2.1
          have hfront : (text ++ 47 :: text').length = text.length + text'.length + 1 := by
            rw [List.length_append, List.length_cons, Nat.add_assoc]
          have hmem : text ++ 47 :: (text' ++ slashed trailing post) =
              text ++ 47 :: text' ++ slashed trailing post := by
            simp only [List.append_assoc, List.cons_append]
          have hbehind : 37 - (text.length + text'.length + 1) =
              35 - (text.length + text'.length) + 1 := by omega
          rw [hmem, List.drop_append, List.drop_of_length_le (by omega), List.nil_append, hfront,
            hbehind, ← List.drop_tail]
          -- both names are gone, and only one of the other segments is no name
          have hpieces := pieces_drop_le (slashed trailing post).tail
            (35 - (text.length + text'.length))
          rw [pieces_path] at hpieces
          have hall := length_names_add_uuids post
          have huuids' : (post.filterMap Segment.uuid?).length ≤ 1 := huuids
          omega

/-- The names of a path that is not undashed are not all stored. -/
theorem length_names_lt {segments : List Segment}
    (huuids : (segments.filterMap Segment.uuid?).length ≤ 1)
    (h : ¬ Undashed rest trailing segments) :
    ((parts rest (slashed trailing segments).tail).filterMap Part.name).length <
      (segments.filterMap Segment.name?).length := by
  induction segments with
  | nil => exact absurd trivial h
  | cons s post ih =>
      show ((parts rest (s.text ++ slashed trailing post)).filterMap Part.name).length < _
      rw [List.filterMap_cons] at huuids ⊢
      cases s with
      | uuid text u denotes =>
          show ((parts rest (text ++ slashed trailing post)).filterMap Part.name).length <
            (post.filterMap Segment.name?).length
          rw [parts_uuid rest trailing denotes, filterMap_name_cons]
          exact ih (Nat.le_of_succ_le huuids) h
      | name text proper =>
          show ((parts rest (text ++ slashed trailing post)).filterMap Part.name).length <
            (post.filterMap Segment.name?).length + 1
          by_cases hfollowed : Followed trailing post
          · by_cases hdashed : Dashed (text ++ slashed trailing post ++ 0 :: rest)
            · exact length_names_of_dashed proper.2.1 hfollowed huuids hdashed
            · -- the first name is stored, so it is one behind it that is not
              have hpost : ¬ Undashed rest trailing post := fun hpost =>
                h ⟨fun _ => hdashed, hpost⟩
              rw [slashed_eq_cons trailing hfollowed] at hdashed ⊢
              rw [parts_segment rest proper.2.2.1 hdashed, filterMap_name_cons]
              exact Nat.succ_lt_succ (ih huuids hpost)
          · cases post with
            | nil => exact absurd ⟨fun hf => absurd hf hfollowed, trivial⟩ h
            | cons s' post => exact absurd (List.cons_ne_nil _ _) hfollowed

end Skipped

/-! ### The UUID -/

/-- Behind the first of the segments there is a slash. -/
def Cleared (trailing : Bool) : List Segment → Prop
  | [] => False
  | _ :: post => Followed trailing post

/-- The UUID is of zeros, or none of the segments behind it has a slash behind it. -/
def Kept (trailing : Bool) : List Segment → Prop
  | [] => True
  | .name _ _ :: post => Kept trailing post
  | .uuid _ u _ :: post => u = .zero ∨ ¬ Cleared trailing post

section Uuids

variable {trailing : Bool}

/-- Behind the UUID there are only names, and one with a slash clears it. -/
theorem uuidAfter_names {segments : List Segment} (hnone : segments.filterMap Segment.uuid? = [])
    (before : Uuid) :
    ¬ Cleared trailing segments ∧
        (segmentParts trailing segments).foldl Part.uuidAfter before = before ∨
      Cleared trailing segments ∧
        (segmentParts trailing segments).foldl Part.uuidAfter before = .zero := by
  induction segments generalizing before with
  | nil => exact Or.inl ⟨id, rfl⟩
  | cons s post ih =>
      rw [List.filterMap_cons] at hnone
      cases s with
      | uuid text u denotes => cases hnone
      | name text proper =>
          rw [segmentParts, Segment.part, List.foldl_cons]
          by_cases hfollowed : Followed trailing post
          · -- it is cleared here, and stays so behind it
            refine Or.inr ⟨hfollowed, ?_⟩
            rw [decide_eq_true hfollowed, if_pos rfl]
            rcases ih hnone .zero with ⟨-, heq⟩ | ⟨-, heq⟩
            · exact heq
            · exact heq
          · refine Or.inl ⟨hfollowed, ?_⟩
            rw [decide_eq_false hfollowed, if_neg Bool.false_ne_true]
            cases post with
            | nil => rfl
            | cons s' post => exact absurd (List.cons_ne_nil _ _) hfollowed

/-- The UUID of the path is the one that is left. -/
theorem uuidAfter_eq_iff {segments : List Segment}
    (huuids : (segments.filterMap Segment.uuid?).length ≤ 1) :
    (segmentParts trailing segments).foldl Part.uuidAfter .zero =
      (segments.filterMap Segment.uuid?).headD .zero ↔ Kept trailing segments := by
  induction segments with
  | nil => exact iff_of_true rfl trivial
  | cons s post ih =>
      rw [segmentParts, List.foldl_cons]
      rw [List.filterMap_cons] at huuids ⊢
      cases s with
      | name text proper =>
          have hnone : (Segment.part (decide (Followed trailing post))
              (.name text proper)).uuidAfter .zero = .zero := by
            rw [Segment.part]
            split
            · rfl
            · rfl
          rw [hnone]
          exact ih huuids
      | uuid text u denotes =>
          -- there is no other UUID in the path
          have hnone : post.filterMap Segment.uuid? = [] :=
            List.eq_nil_of_length_eq_zero (Nat.le_zero.mp (Nat.le_of_succ_le_succ huuids))
          show (segmentParts trailing post).foldl Part.uuidAfter u = u ↔ u = .zero ∨ _
          rcases @uuidAfter_names trailing _ hnone u with ⟨hkept, heq⟩ | ⟨hcleared, heq⟩
          · exact iff_of_true heq (Or.inr hkept)
          · rw [heq, or_iff_left (not_not_intro hcleared)]
            exact eq_comm

end Uuids

/-! ### The access point -/

section Service

variable {apiReq : MuxNmosApiReq} {names : List (List UInt8)}

/-- A name that is shorter than its row is read as it was stored. -/
theorem resource_of_holds (h : Holds apiReq names) {i : Nat} (hi : i < names.length)
    (hlen : names[i].length < 16) (hnul : 0 ∉ names[i]) : apiReq.resource i = names[i] := by
  have hroom : i < 4 := Nat.lt_of_lt_of_le hi h.room
  have hrow := h.rows i hi
  have hfill : uriResourceLength - names[i].length = 15 - names[i].length + 1 := by
    show 16 - names[i].length = _
    omega
  rw [Rows.row, dif_pos hroom, List.take_of_length_le (Nat.le_of_lt hlen), hfill,
    List.replicate_succ] at hrow
  have hdrop := List.drop_eq_getElem_cons
    (show i < apiReq.resources.toList.length by rw [Vector.length_toList]; exact hroom)
  rw [MuxNmosApiReq.resource, hdrop, List.flatMap_cons, Vector.getElem_toList, hrow]
  simp only [List.append_assoc, List.cons_append]
  exact (isText_of_append fun c hc h0 => hnul (h0 ▸ hc)).2

/-- The names as they are read. -/
theorem resources_of_holds (h : Holds apiReq names)
    (hproper : ∀ name ∈ names, name.length < 16 ∧ 0 ∉ name) :
    (List.range apiReq.resourceCount).map apiReq.resource = names := by
  have hlen : ((List.range apiReq.resourceCount).map apiReq.resource).length = names.length := by
    rw [List.length_map, List.length_range, h.count]
  refine List.ext_getElem hlen fun i hi hi' => ?_
  have hname := hproper names[i] (List.getElem_mem hi')
  rw [List.getElem_map, List.getElem_range, resource_of_holds h hi' hname.1 hname.2]

/-- The loop looks up the path of the names that are left. -/
theorem findService_eq (h : Holds apiReq names)
    (hproper : ∀ name ∈ names, name.length < 16 ∧ 0 ∉ name) (s : Siblings AccessPoint) {i : Nat}
    (hi : i < names.length) :
    findService apiReq i s =
      match s.walk (fun ap => lower ap.name) (lower names[i]) ((names.drop (i + 1)).map lower) with
      | some point => .called point
      | none => .badRequest (ascii "Can't find service of URI") := by
  induction s generalizing i with
  | null => rfl
  | node ap child next ihchild ihnext =>
      have hname := hproper names[i] (List.getElem_mem hi)
      rw [findService, resource_of_holds h hi hname.1 hname.2, h.count]
      unfold Siblings.walk strcasecmpEq
      by_cases heq : lower ap.name = lower names[i]
      · have heq' : ap.name.map toLower = names[i].map toLower := heq
        rw [if_pos heq, if_pos (decide_eq_true heq')]
        by_cases hend : i + 1 = names.length
        · rw [if_pos hend, List.drop_of_length_le (Nat.le_of_eq hend.symm)]
          rfl
        · have hmore : i + 1 < names.length := by omega
          rw [if_neg hend, ihchild hmore, List.drop_eq_getElem_cons hmore]
          rfl
      · have hne : ¬ decide (ap.name.map toLower = names[i].map toLower) = true := by
          rw [decide_eq_true_eq]
          exact heq
        rw [if_neg heq, if_neg hne, ihnext hi]

/-- The siblings in the trees have different names. -/
theorem distinct_apRoot (type : ApiType) :
    (apRoot type).child.Distinct fun ap => lower ap.name := by
  cases type with
  | node => decide
  | connection => decide

end Service

/-! ### The whole URI -/

/-- The names and the UUID of the URI are stored, and the result is the call of the access
    point that the names lead to, or an error if there is none. -/
def Understood (u : ApiUri) (behind : List UInt8) : Prop :=
  ∃ fuel r result,
    extHttpNmosParseApiRequest fuel u.type (u.uri.memory behind) = .ok r ∧
    r.success = true ∧
    (List.range r.apiReq.resourceCount).map r.apiReq.resource = u.nameList ∧
    r.apiReq.uuid = u.uuid ∧
    extRestApiHandle fuel (apRoot u.type) u.type (u.uri.memory behind) = .ok result ∧
    (∀ point, result = .called point ↔ Reached (apRoot u.type) u.nameList point) ∧
    ((∃ debug, result = .badRequest debug) ↔ ∀ point, ¬ Reached (apRoot u.type) u.nameList point)

namespace ApiUri

variable {u : ApiUri} {behind : List UInt8}

theorem proper_of_mem_nameList {name : List UInt8} (h : name ∈ u.nameList) :
    name.length < 16 ∧ 0 ∉ name := by
  rcases List.mem_filterMap.mp h with ⟨s, _, hname⟩
  cases s with
  | name text proper =>
      cases hname
      exact ⟨proper.2.1, proper.2.2.2⟩
  | uuid text u denotes => cases hname

/-- A call is no error. -/
theorem not_badRequest_of_called (point : AccessPoint) :
    ¬ ∃ debug, RestResult.called point = .badRequest debug := by
  rintro ⟨debug, h⟩
  cases h

/-- The result of the look-up for the names that are stored. -/
theorem result_iff (root : ApiRoot) (hroot : root.child.Distinct fun ap => lower ap.name)
    {apiReq : MuxNmosApiReq} {names : List (List UInt8)} (h : Holds apiReq names)
    (hproper : ∀ name ∈ names, name.length < 16 ∧ 0 ∉ name) {result : RestResult}
    (hresult : result = if apiReq.resourceCount = 0 then .called root.point
      else findService apiReq 0 root.child) :
    (∀ point, result = .called point ↔ Reached root names point) ∧
      ((∃ debug, result = .badRequest debug) ↔ ∀ point, ¬ Reached root names point) := by
  cases names with
  | nil =>
      -- without names it is the root of the API
      have hcount : apiReq.resourceCount = 0 := h.count
      rw [if_pos hcount] at hresult
      subst hresult
      unfold Reached
      simp only [if_true]
      refine ⟨fun point => ?_,
        iff_of_false (not_badRequest_of_called _) fun hnone => hnone root.point rfl⟩
      rw [RestResult.called.injEq]
      exact eq_comm
  | cons name names =>
      have hcount : apiReq.resourceCount ≠ 0 := by
        rw [h.count]
        exact Nat.succ_ne_zero _
      have hreached : ∀ point, Reached root (name :: names) point ↔
          root.child.walk (fun ap => lower ap.name) (lower name) (names.map lower) =
            some point := by
        intro point
        rw [Siblings.walk_eq_some_iff hroot, Reached, if_neg (List.cons_ne_nil _ _), List.map_cons]
      have hfind := findService_eq h hproper root.child (Nat.succ_pos _)
      rw [List.getElem_cons_zero, List.drop_succ_cons, List.drop_zero] at hfind
      rw [if_neg hcount, hfind] at hresult
      simp only [hreached]
      cases hfound : root.child.walk (fun ap => lower ap.name) (lower name)
          (names.map lower) with
      | none =>
          rw [hfound] at hresult
          subst hresult
          refine ⟨fun point => iff_of_false ?_ (Option.some_ne_none point).symm,
            iff_of_true ⟨_, rfl⟩ fun point => (Option.some_ne_none point).symm⟩
          exact fun hcalled => not_badRequest_of_called point ⟨_, hcalled.symm⟩
      | some point =>
          rw [hfound] at hresult
          subst hresult
          refine ⟨fun point' => ?_,
            iff_of_false (not_badRequest_of_called point) fun hnone => hnone point rfl⟩
          rw [RestResult.called.injEq, Option.some_inj]

end ApiUri

/-- The URI is understood if and only if no dashes stand as those of a UUID would, and the
    UUID is not cleared again. -/
theorem understood_iff (u : ApiUri) (behind : List UInt8) :
    Understood u behind ↔
      Undashed (u.uri.rest behind) u.trailing u.segments ∧ Kept u.trailing u.segments := by
  have hversion := u.findVersion_uri behind
  constructor
  · rintro ⟨fuel, r, result, hok, -, hnames, huuid, -⟩
    rcases foldlM_of_parse hversion hok with ⟨-, -, hfold⟩
    rcases holds_of_foldlM (holds_zero u.version.flag) hfold with ⟨-, hholds, hlast⟩
    rw [ApiUri.path_uri] at hholds hlast
    -- as many names are stored as there are in the URI
    have hcount := congrArg List.length hnames
    rw [List.length_map, List.length_range, hholds.count, List.nil_append] at hcount
    have hundashed : Undashed (u.uri.rest behind) u.trailing u.segments := by
      by_contra hnot
      have hlt := length_names_lt u.uuids hnot
      rw [hcount] at hlt
      exact absurd hlt (Nat.lt_irrefl _)
    refine ⟨hundashed, (uuidAfter_eq_iff u.uuids).mp ?_⟩
    rw [parts_path _ _ hundashed] at hlast
    exact hlast.symm.trans huuid
  · rintro ⟨hundashed, hkept⟩
    have hparts : parts (u.uri.rest behind) (u.uri.path u.type) =
        segmentParts u.trailing u.segments := by
      rw [ApiUri.path_uri, parts_path _ _ hundashed]
    rcases exists_foldlM (holds_zero u.version.flag)
      (endless_not_mem_segmentParts u.trailing u.segments) (by
        rw [names_segmentParts, List.length_nil, Nat.zero_add]
        exact u.names) with ⟨final, hfold⟩
    rcases holds_of_foldlM (holds_zero u.version.flag) hfold with ⟨-, hholds, hlast⟩
    rw [names_segmentParts, List.nil_append] at hholds
    rw [← hparts] at hfold
    rcases parse_of_foldlM hversion hfold with ⟨fuel, rets, hok⟩
    have hproper : ∀ name ∈ u.nameList, name.length < 16 ∧ 0 ∉ name :=
      fun name hname => ApiUri.proper_of_mem_nameList hname
    refine ⟨fuel, ⟨true, final, rets⟩,
      if final.resourceCount = 0 then .called (apRoot u.type).point
      else findService final 0 (apRoot u.type).child, hok, rfl,
      resources_of_holds hholds hproper, ?_, ?_,
      ApiUri.result_iff _ (distinct_apRoot u.type) hholds hproper rfl⟩
    · exact hlast.trans ((uuidAfter_eq_iff u.uuids).mpr hkept)
    · rw [extRestApiHandle, hok]
      dsimp only
      rw [if_pos rfl]
      split
      · rfl
      · rfl

/-- /x-nmos/connection/v1.0/single/senders/UUID/active/ -/
def clearedUri : ApiUri where
  type := .connection
  version := .v10
  segments := [.name (ascii "single") (by decide), .name (ascii "senders") (by decide),
    .uuid (ascii "01234567-89ab-cdef-0123-456789abcdef")
      #v[0x01, 0x23, 0x45, 0x67, 0x89, 0xab, 0xcd, 0xef, 0x01, 0x23, 0x45, 0x67, 0x89, 0xab,
        0xcd, 0xef] (by decide),
    .name (ascii "active") (by decide)]
  trailing := true
  names := by decide
  uuids := by decide

/-- The name behind the UUID is tried as a UUID, and there is none any more. -/
theorem not_understood_clearedUri : ¬ Understood clearedUri [] := by
  rintro ⟨fuel, r, result, hok, -, -, huuid, -⟩
  rcases foldlM_of_parse (clearedUri.findVersion_uri []) hok with ⟨-, -, hfold⟩
  rcases holds_of_foldlM (holds_zero clearedUri.version.flag) hfold with ⟨-, -, hlast⟩
  have hundashed : Undashed (clearedUri.uri.rest []) clearedUri.trailing clearedUri.segments :=
    ⟨fun _ => by decide, fun _ => by decide, fun _ => by decide, trivial⟩
  rw [ApiUri.path_uri, parts_path _ _ hundashed, huuid] at hlast
  exact absurd hlast (by decide)

end Nmos

end RtosLwip
