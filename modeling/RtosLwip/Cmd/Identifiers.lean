import RtosLwip.Base.Strings
import RtosLwip.Cmd.Addresses

/-!
# Addresses and Identifiers

A MAC address is six bytes with colons between them, and a UUID sixteen bytes in
five groups. Both are printed with two digits for a byte, and what is printed is read
back. The functions that read are not as strict as the format.

`extMacAddressParse` looks for the next colon, wherever it is, and what is behind
the sixth byte is of no effect. It stops at a byte that is no byte, and what it has
written by then stays. `extUuidParse` looks at four places for a dash and at nothing
else: whether the digits are digits is not asked. It goes over the end of a short
text, and a failure clears what was there.

Two identifiers are compared as strings without regard to case, up to a zero byte,
and five of the bytes decide whether there is an identifier at all.

## Main definitions

* `extUuidParse`, `extUuidToString`, `extUuidEqual`: The functions for UUIDs.
* `macDenotes`, `uuidDenotes`: What a text stands for.
* `MacRefused`, `UuidRefused`: A text is refused, and nothing is changed by it.
* `Compared`: Two identifiers that are compared as they should be.

## Theorems

* `extMacAddressParse_of_macDenotes`, `extUuidParse_of_uuidDenotes`: A text of the
  format is read.
* `identifiersKept_iff`: When the functions do what their format says.
-/

namespace RtosLwip

namespace Cmd

/-- `EXT_UUID_T` -/
abbrev Uuid := Vector UInt8 16

def Uuid.zero : Uuid := .replicate 16 0

/-- `UUID_IS_NULL` -/
def uuidIsNull (u : Uuid) : Bool := u[0] = 0 && u[1] = 0 && u[2] = 0 && u[4] = 0 && u[15] = 0

/-- The bytes of a group. What `extSysAtoInt8` returns is not looked at. -/
def uuidBytes : Nat → List UInt8 → List UInt8
  | 0, _ => []
  | n + 1, mem => (extSysAtoInt8 mem).1 :: uuidBytes n (mem.drop 2)

/-- The groups of `extUuidParse`, with a dash behind each but the last. -/
def uuidGroups : List Nat → List UInt8 → Option (List UInt8)
  | [], _ => some []
  | [n], mem => some (uuidBytes n mem)
  | n :: m :: sizes, mem =>
      if load8 mem (2 * n) = 45 then
        (uuidGroups (m :: sizes) (mem.drop (2 * n + 1))).map (uuidBytes n mem ++ ·)
      else none

/-- `extUuidParse`, with the memory from the text on. All sixteen bytes are written, and
    all are cleared when a dash is missing. -/
def extUuidParse (mem : List UInt8) : Uuid × Bool :=
  match uuidGroups [4, 2, 2, 2, 6] mem with
  | some bytes => (Vector.ofFn fun i => bytes.getD i 0, true)
  | none => (.zero, false)

/-- `extUuidToString` -/
def extUuidToString (u : Uuid) : List UInt8 :=
  hex2 u[0] ++ hex2 u[1] ++ hex2 u[2] ++ hex2 u[3] ++
    45 :: hex2 u[4] ++ hex2 u[5] ++ 45 :: hex2 u[6] ++ hex2 u[7] ++
    45 :: hex2 u[8] ++ hex2 u[9] ++
    45 :: hex2 u[10] ++ hex2 u[11] ++ hex2 u[12] ++ hex2 u[13] ++ hex2 u[14] ++ hex2 u[15]

/-- `extUuidEqual`, with the memory behind the identifiers: where they hold no zero byte,
    the comparison goes on there. -/
def extUuidEqual (dest : Uuid) (destBehind : List UInt8) (src : Uuid)
    (srcBehind : List UInt8) : Bool :=
  if uuidIsNull dest || uuidIsNull src then false
  else strcasecmpEq (cstr (dest.toList ++ destBehind)) (cstr (src.toList ++ srcBehind))

/-- `MAC_ADDRESS_PRINT` -/
def macAddressPrint (m : MacAddress) : List UInt8 := quoted (macPrint m) ++ [44]

/-! ### The format -/

/-- The bytes of a text of the form xx:xx:xx:xx:xx:xx. -/
def macDenotes (text : List UInt8) : Option (List UInt8) := hexGroups 58 [1, 1, 1, 1, 1, 1] text

/-- The bytes of a text of the form 8-4-4-4-12. -/
def uuidDenotes (text : List UInt8) : Option (List UInt8) := hexGroups 45 [4, 2, 2, 2, 6] text

/-- What a text stands for is stored, or the text is refused and nothing is changed. -/
def ReadsAs {n : Nat} (denoted : Option (List UInt8)) (dest : Vector UInt8 n)
    (r : Vector UInt8 n × Bool) : Prop :=
  match denoted with
  | some bytes => r.2 = true ∧ r.1.toList = bytes
  | none => r.2 = false ∧ r.1 = dest

/-- The text behind so many colons. -/
def behindColons : Nat → List UInt8 → Option (List UInt8)
  | 0, text => some text
  | n + 1, text =>
      match text.dropWhile (· ≠ 58) with
      | [] => none
      | _ :: rest => behindColons n rest

/-! ### MAC addresses -/

section Mac

variable {mac : MacAddress} {text : List UInt8}

theorem setIfInBounds_eq_self_iff {n j : Nat} (hj : j < n) (v : Vector UInt8 n) (b : UInt8) :
    v.setIfInBounds j b = v ↔ v[j]? = some b := by
  constructor
  · intro h
    rw [← h, Vector.getElem?_setIfInBounds_self_of_lt hj]
  · intro h
    refine Vector.ext fun i hi => ?_
    rw [Vector.getElem_setIfInBounds]
    split
    · rename_i hij
      subst hij
      rw [Vector.getElem?_eq_getElem hj] at h
      exact (Option.some.inj h).symm
    · rfl

/-- The bytes that have been written stay as they are. -/
theorem macAddressLoop_keeps (n : Nat) (text : List UInt8) (mac : MacAddress) {j : Nat}
    (hj : j < 6 - n) : (macAddressLoop n text mac).1[j]? = mac[j]? := by
  induction n generalizing text mac with
  | zero => rfl
  | succ n ih =>
      have hset : (mac.setIfInBounds (5 - n) (extSysAtoInt8 text).1)[j]? = mac[j]? :=
        Vector.getElem?_setIfInBounds_ne (by omega)
      rw [macAddressLoop]
      split
      · exact hset
      · split
        · exact hset
        · split
          · exact hset
          · rw [ih _ _ (by omega), hset]

theorem behindColons_succ_of_nil (h : text.dropWhile (· ≠ 58) = []) (i : Nat) :
    behindColons (i + 1) text = none := by rw [behindColons, h]

theorem behindColons_succ_of_cons {c : UInt8} {rest : List UInt8}
    (h : text.dropWhile (· ≠ 58) = c :: rest) (i : Nat) :
    behindColons (i + 1) text = behindColons i rest := by rw [behindColons, h]

/-- The bytes before one of them are read, and are what an address holds from `j` on. The
    one is missing, or it is no byte and leaves what the address holds as well. -/
def RefusedAt (mac : MacAddress) (j : Nat) (text : List UInt8) (k : Nat) : Prop :=
  (∀ i < k, ∃ t v, behindColons i text = some t ∧ extSysAtoInt8 t = (v, true) ∧
    mac[j + i]? = some v) ∧
  ∀ t, behindColons k text = some t →
    (extSysAtoInt8 t).2 = false ∧ mac[j + k]? = some (extSysAtoInt8 t).1

theorem refusedAt_zero {j : Nat} :
    RefusedAt mac j text 0 ↔
      (extSysAtoInt8 text).2 = false ∧ mac[j]? = some (extSysAtoInt8 text).1 := by
  constructor
  · exact fun h => h.2 text rfl
  · intro h
    refine ⟨nofun, fun t ht => ?_⟩
    rw [← Option.some.inj ht]
    exact h

/-- The first byte is one of those before. -/
theorem RefusedAt.first {j k : Nat} (h : RefusedAt mac j text (k + 1)) :
    (extSysAtoInt8 text).2 = true ∧ mac[j]? = some (extSysAtoInt8 text).1 := by
  rcases h.1 0 (Nat.succ_pos k) with ⟨t, v, ht, hread, hmac⟩
  rw [← Option.some.inj ht] at hread
  rw [hread]
  exact ⟨rfl, hmac⟩

/-- No colon is left, so the next byte is missing. -/
theorem refusedAt_one_of_nil {j : Nat} (h : text.dropWhile (· ≠ 58) = [])
    (hread : (extSysAtoInt8 text).2 = true) (hmac : mac[j]? = some (extSysAtoInt8 text).1) :
    RefusedAt mac j text 1 := by
  refine ⟨fun i hi => ?_, fun t ht => ?_⟩
  · have hi0 : i = 0 := by omega
    subst hi0
    exact ⟨text, (extSysAtoInt8 text).1, rfl, Prod.ext rfl hread, hmac⟩
  · rw [behindColons_succ_of_nil h] at ht
    exact absurd ht nofun

/-- The bytes behind the next colon are refused as a text of their own. -/
theorem refusedAt_succ_of_cons {j k : Nat} {c : UInt8} {rest : List UInt8}
    (h : text.dropWhile (· ≠ 58) = c :: rest) (hread : (extSysAtoInt8 text).2 = true)
    (hmac : mac[j]? = some (extSysAtoInt8 text).1) :
    RefusedAt mac j text (k + 1) ↔ RefusedAt mac (j + 1) rest k := by
  have hshift : ∀ i, j + (i + 1) = j + 1 + i := by omega
  unfold RefusedAt
  rw [behindColons_succ_of_cons h, hshift]
  refine and_congr_left fun _ => ⟨fun hall i hi => ?_, fun hall i hi => ?_⟩
  · rcases hall (i + 1) (by omega) with ⟨t, v, ht, hv⟩
    rw [behindColons_succ_of_cons h] at ht
    rw [hshift] at hv
    exact ⟨t, v, ht, hv⟩
  · rcases i with _ | i
    · exact ⟨text, (extSysAtoInt8 text).1, rfl, Prod.ext rfl hread, hmac⟩
    · rcases hall i (by omega) with ⟨t, v, ht, hv⟩
      rw [← behindColons_succ_of_cons h] at ht
      rw [← hshift] at hv
      exact ⟨t, v, ht, hv⟩

/-- The loop fails and leaves the address as it was, if and only if there is such a byte. -/
theorem macAddressLoop_refused_iff {n : Nat} (hn : n ≤ 5) (text : List UInt8)
    (mac : MacAddress) :
    macAddressLoop (n + 1) text mac = (mac, false) ↔ ∃ k ≤ n, RefusedAt mac (5 - n) text k := by
  induction n generalizing text mac with
  | zero =>
      -- The last byte: it is refused, or the address is complete.
      have hset := setIfInBounds_eq_self_iff (j := 5) (by omega) mac (extSysAtoInt8 text).1
      rw [macAddressLoop]
      cases hread : (extSysAtoInt8 text).2 with
      | false =>
          rw [if_pos Bool.false_ne_true, Prod.mk.injEq, and_iff_left rfl, hset]
          constructor
          · exact fun h => ⟨0, Nat.le_refl 0, refusedAt_zero.mpr ⟨hread, h⟩⟩
          · rintro ⟨k, hk, h⟩
            rw [Nat.le_zero.mp hk] at h
            exact (refusedAt_zero.mp h).2
      | true =>
          rw [if_neg (fun h => h rfl), if_pos rfl]
          refine iff_of_false (fun h => absurd (congrArg Prod.snd h) Bool.false_ne_true.symm) ?_
          rintro ⟨k, hk, h⟩
          rw [Nat.le_zero.mp hk] at h
          exact absurd ((refusedAt_zero.mp h).1.symm.trans hread) Bool.false_ne_true
  | succ n ih =>
      have hset := setIfInBounds_eq_self_iff (j := 5 - (n + 1)) (by omega) mac
        (extSysAtoInt8 text).1
      have hnext : 5 - (n + 1) + 1 = 5 - n := by omega
      rw [macAddressLoop]
      cases hread : (extSysAtoInt8 text).2 with
      | false =>
          rw [if_pos Bool.false_ne_true, Prod.mk.injEq, and_iff_left rfl, hset]
          constructor
          · exact fun h => ⟨0, Nat.zero_le _, refusedAt_zero.mpr ⟨hread, h⟩⟩
          · rintro ⟨k, -, h⟩
            rcases k with _ | k
            · exact (refusedAt_zero.mp h).2
            · exact h.first.2
      | true =>
          rw [if_neg (fun h => h rfl), if_neg (Nat.succ_ne_zero n)]
          -- This byte is read, so the one that is refused comes later.
          have hzero : ¬ RefusedAt mac (5 - (n + 1)) text 0 := fun h =>
            absurd ((refusedAt_zero.mp h).1.symm.trans hread) Bool.false_ne_true
          cases hcolon : text.dropWhile (· ≠ 58) with
          | nil =>
              dsimp only
              rw [Prod.mk.injEq, and_iff_left rfl, hset]
              constructor
              · exact fun h => ⟨1, by omega, refusedAt_one_of_nil hcolon hread h⟩
              · rintro ⟨_ | k, -, h⟩
                · exact absurd h hzero
                · exact h.first.2
          | cons c rest =>
              dsimp only
              by_cases hmac : mac[5 - (n + 1)]? = some (extSysAtoInt8 text).1
              · rw [hset.mpr hmac, ih (by omega)]
                constructor
                · rintro ⟨k, hk, h⟩
                  rw [← hnext, ← refusedAt_succ_of_cons hcolon hread hmac] at h
                  exact ⟨k + 1, by omega, h⟩
                · rintro ⟨_ | k, hk, h⟩
                  · exact absurd h hzero
                  · rw [refusedAt_succ_of_cons hcolon hread hmac, hnext] at h
                    exact ⟨k, by omega, h⟩
              · -- the byte that is written is not the one that was there
                refine iff_of_false (fun h => hmac ?_) ?_
                · have hkept := macAddressLoop_keeps (n + 1) rest
                    (mac.setIfInBounds (5 - (n + 1)) (extSysAtoInt8 text).1)
                    (j := 5 - (n + 1)) (by omega)
                  rw [h, Vector.getElem?_setIfInBounds_self_of_lt (by omega)] at hkept
                  exact hkept
                · rintro ⟨_ | k, -, h⟩
                  · exact hzero h
                  · exact hmac h.first.2

theorem getElem?_setIfInBounds_eq (mac : MacAddress) (v : UInt8) (j : Nat) {k : Nat}
    (hk : k < 6) : (mac.setIfInBounds k v)[j]? = if j = k then some v else mac[j]? := by
  by_cases hjk : j = k
  · rw [if_pos hjk, hjk, Vector.getElem?_setIfInBounds_self_of_lt hk]
  · rw [if_neg hjk, Vector.getElem?_setIfInBounds_ne (fun h => hjk h.symm)]

/-- The bytes of a text of the format are stored, from the first one that is missing on. -/
theorem macAddressLoop_of_hexGroups {n : Nat} (hn : n ≤ 5) {text bytes : List UInt8}
    (h : hexGroups 58 (List.replicate (n + 1) 1) text = some bytes) (mac : MacAddress) :
    (macAddressLoop (n + 1) text mac).2 = true ∧
      ∀ j < 6, (macAddressLoop (n + 1) text mac).1[j]? =
        if j < 5 - n then mac[j]? else bytes[j - (5 - n)]? := by
  induction n generalizing text bytes mac with
  | zero =>
      rcases hexGroups_singleton.mp h with ⟨hdecode, hone⟩
      rcases eq_of_hexDecode_one hdecode hone with ⟨a, b, v, rfl, rfl, hbyte⟩
      rw [macAddressLoop, extSysAtoInt8_of_hexByte hbyte, if_neg (fun h => h rfl), if_pos rfl]
      refine ⟨rfl, fun j hj => ?_⟩
      rw [getElem?_setIfInBounds_eq mac v j (by omega)]
      by_cases hj5 : j = 5
      · subst hj5
        rfl
      · rw [if_neg hj5, if_pos (by omega)]
  | succ n ih =>
      rcases hexGroups_cons_cons.mp h with
        ⟨digits, behind, front, back, rfl, hfront, hone, hback, rfl⟩
      rcases eq_of_hexDecode_one hfront hone with ⟨a, b, v, rfl, rfl, hbyte⟩
      have hne := ne_of_hexByte hbyte (c := 58) rfl
      have hcolon : ([a, b] ++ 58 :: behind).dropWhile (· ≠ 58) = 58 :: behind := by
        simp [List.dropWhile, hne.1, hne.2]
      have hread : extSysAtoInt8 ([a, b] ++ 58 :: behind) = (v, true) :=
        extSysAtoInt8_of_hexByte hbyte _
      rw [macAddressLoop, hread, hcolon, if_neg (fun h => h rfl), if_neg (Nat.succ_ne_zero n)]
      rcases ih (by omega) hback (mac.setIfInBounds (5 - (n + 1)) v) with ⟨hret, hall⟩
      refine ⟨hret, fun j hj => ?_⟩
      dsimp only
      rw [hall j hj, getElem?_setIfInBounds_eq mac v j (by omega)]
      -- before this byte, at it, and behind it
      rcases Nat.lt_trichotomy j (5 - (n + 1)) with hlt | heq | hgt
      · rw [if_pos hlt, if_pos (by omega), if_neg (by omega)]
      · rw [if_pos (by omega), if_pos heq, if_neg (by omega), heq, Nat.sub_self]
        rfl
      · have hback' : j - (5 - (n + 1)) = j - (5 - n) + 1 := by omega
        rw [if_neg (by omega), if_neg (by omega), hback']
        rfl

/-- A text of the format is read. -/
theorem extMacAddressParse_of_macDenotes {text bytes : List UInt8}
    (h : macDenotes text = some bytes) (mac : MacAddress) :
    (extMacAddressParse mac text).2 = true ∧ (extMacAddressParse mac text).1.toList = bytes := by
  have hlen : bytes.length = 6 := length_of_hexGroups h
  rcases macAddressLoop_of_hexGroups (Nat.le_refl 5) h mac with ⟨hret, hall⟩
  refine ⟨hret, List.ext_getElem? fun j => ?_⟩
  by_cases hj : j < 6
  · rw [Vector.getElem?_toList]
    exact hall j hj
  · rw [List.getElem?_eq_none (by simpa using hj), List.getElem?_eq_none (by omega)]

end Mac

section Uuid

/-- The bytes of a group are read as they stand. -/
theorem uuidBytes_of_hexDecode {digits bytes : List UInt8} (h : hexDecode digits = some bytes)
    (behind : List UInt8) : uuidBytes bytes.length (digits ++ behind) = bytes := by
  induction digits using hexDecode.induct generalizing bytes with
  | case1 =>
      cases h
      rfl
  | case2 c => exact absurd h (Option.some_ne_none _).symm
  | case3 a b rest ih =>
      rcases (hexDecode_cons_cons a b rest bytes).mp h with ⟨v, tail, hbyte, htail, rfl⟩
      have hread : extSysAtoInt8 (a :: b :: rest ++ behind) = (v, true) :=
        extSysAtoInt8_of_hexByte hbyte _
      rw [List.length_cons, uuidBytes, hread]
      exact congrArg (v :: ·) (ih htail)

/-- So are the groups, whatever is behind the text. -/
theorem uuidGroups_of_hexGroups {sizes : List Nat} {text bytes : List UInt8}
    (h : hexGroups 45 sizes text = some bytes) (behind : List UInt8) :
    uuidGroups sizes (text ++ behind) = some bytes := by
  induction sizes generalizing text bytes with
  | nil =>
      rw [hexGroups] at h
      split at h
      · cases h
        rfl
      · cases h
  | cons n sizes ih =>
      cases sizes with
      | nil =>
          rcases hexGroups_singleton.mp h with ⟨hdecode, rfl⟩
          exact congrArg some (uuidBytes_of_hexDecode hdecode behind)
      | cons m sizes =>
          rcases hexGroups_cons_cons.mp h with
            ⟨digits, rest, front, back, rfl, hfront, rfl, hback, rfl⟩
          have hlen := length_of_hexDecode hfront
          have hdash : load8 (digits ++ 45 :: (rest ++ behind)) (2 * front.length) = 45 := by
            rw [load8, ← hlen]
            simp
          have hdrop : (digits ++ 45 :: (rest ++ behind)).drop (2 * front.length + 1) =
              rest ++ behind := by
            rw [← hlen, List.drop_append]
            simp
          rw [List.append_assoc, List.cons_append, uuidGroups, if_pos hdash, hdrop, ih hback,
            uuidBytes_of_hexDecode hfront]
          rfl

/-- A text of the format is read. -/
theorem extUuidParse_of_uuidDenotes {text bytes : List UInt8}
    (h : uuidDenotes text = some bytes) (behind : List UInt8) :
    (extUuidParse (text ++ behind)).2 = true ∧
      (extUuidParse (text ++ behind)).1.toList = bytes := by
  have hlen : bytes.length = 16 := length_of_hexGroups h
  rw [extUuidParse, uuidGroups_of_hexGroups h behind]
  refine ⟨rfl, List.ext_getElem (by simp [hlen]) fun i hi hi' => ?_⟩
  simp [List.getElem?_eq_getElem hi']

theorem load8_drop (mem : List UInt8) (k i : Nat) : load8 (mem.drop k) i = load8 mem (k + i) := by
  simp [load8]

/-- A text is refused when a dash is missing. -/
theorem uuidGroups_eq_none_iff (mem : List UInt8) :
    uuidGroups [4, 2, 2, 2, 6] mem = none ↔ ∃ i ∈ [8, 13, 18, 23], load8 mem i ≠ 45 := by
  have h13 := load8_drop mem 9 4
  have h18 := load8_drop mem 14 4
  have h23 := load8_drop mem 19 4
  simp only [uuidGroups, List.drop_drop, Nat.reduceMul, Nat.reduceAdd] at h13 h18 h23 ⊢
  rw [h13, h18, h23]
  by_cases h1 : load8 mem 8 = 45
  · by_cases h2 : load8 mem 13 = 45
    · by_cases h3 : load8 mem 18 = 45
      · by_cases h4 : load8 mem 23 = 45 <;> simp [h1, h2, h3, h4]
      · simp [h1, h2, h3]
    · simp [h1, h2]
  · simp [h1]

/-- The text is refused, and an identifier that was cleared stays as it is. -/
def UuidRefused (uuid : Uuid) (mem : List UInt8) : Prop :=
  uuid = .zero ∧ ∃ i ∈ [8, 13, 18, 23], load8 mem i ≠ 45

theorem extUuidParse_refused_iff (uuid : Uuid) (mem : List UInt8) :
    ((extUuidParse mem).2 = false ∧ (extUuidParse mem).1 = uuid) ↔ UuidRefused uuid mem := by
  rw [UuidRefused, ← uuidGroups_eq_none_iff, extUuidParse]
  cases uuidGroups [4, 2, 2, 2, 6] mem with
  | none => exact ⟨fun h => ⟨h.2.symm, rfl⟩, fun h => ⟨rfl, h.1.symm⟩⟩
  | some bytes => exact iff_of_false (fun h => absurd h.1 nofun) (fun h => absurd h.2 nofun)

/-- An identifier that is printed is read back. -/
theorem extUuidParse_extUuidToString (u : Uuid) (behind : List UInt8) :
    extUuidParse (extUuidToString u ++ behind) = (u, true) := by
  have hprint : extUuidToString u = hexPrint 45 [[u[0], u[1], u[2], u[3]], [u[4], u[5]],
      [u[6], u[7]], [u[8], u[9]], [u[10], u[11], u[12], u[13], u[14], u[15]]] := by
    simp [extUuidToString, hexPrint, hexEncode]
  have hgroups := hexGroups_hexPrint 45 [u[0], u[1], u[2], u[3]] [[u[4], u[5]], [u[6], u[7]],
    [u[8], u[9]], [u[10], u[11], u[12], u[13], u[14], u[15]]]
  rw [← hprint] at hgroups
  rcases extUuidParse_of_uuidDenotes hgroups behind with ⟨hret, hbytes⟩
  refine Prod.ext (Vector.toList_inj.mp ?_) hret
  rw [hbytes]
  refine List.ext_getElem (by simp) fun i hi hi' => ?_
  have hi16 : i < 16 := by simpa using hi'
  rcases i with _ | _ | _ | _ | _ | _ | _ | _ | _ | _ | _ | _ | _ | _ | _ | _ | i
  all_goals first | rfl | omega

/-! ### Comparing identifiers -/

/-- Two identifiers are compared as they should be: equal ones are taken to be identifiers,
    and have no difference behind them; different ones differ by more than the case before a
    zero byte, or one is taken to be none. -/
def Compared (a : Uuid) (aBehind : List UInt8) (b : Uuid) (bBehind : List UInt8) : Prop :=
  if a = b then
    uuidIsNull a = false ∧ ∀ i, ¬ DifferAt (a.toList ++ aBehind) (b.toList ++ bBehind) i
  else
    uuidIsNull a = true ∨ uuidIsNull b = true ∨
      ∃ i, DifferAt (a.toList ++ aBehind) (b.toList ++ bBehind) i

theorem extUuidEqual_iff (a : Uuid) (aBehind : List UInt8) (b : Uuid) (bBehind : List UInt8) :
    extUuidEqual a aBehind b bBehind = true ↔
      uuidIsNull a = false ∧ uuidIsNull b = false ∧
        ∀ i, ¬ DifferAt (a.toList ++ aBehind) (b.toList ++ bBehind) i := by
  rw [extUuidEqual, ← strcasecmpEq_cstr_iff]
  cases uuidIsNull a <;> cases uuidIsNull b <;> simp

theorem compared_iff (a : Uuid) (aBehind : List UInt8) (b : Uuid) (bBehind : List UInt8) :
    (extUuidEqual a aBehind b bBehind = true ↔ a = b) ↔ Compared a aBehind b bBehind := by
  rw [extUuidEqual_iff, Compared]
  by_cases hab : a = b
  · rw [if_pos hab, hab]
    simp
  · rw [if_neg hab, iff_false_right hab]
    cases uuidIsNull a <;> cases uuidIsNull b <;> simp

end Uuid

/-! ### The functions and the format -/

/-- A text of a MAC address is refused, and the address stays as it is. -/
def MacRefused (mac : MacAddress) (text : List UInt8) : Prop :=
  ∃ k ≤ 5, RefusedAt mac 0 text k

/-- What the functions for addresses and identifiers are there for. -/
structure IdentifiersKept (mac : MacAddress) (uuid : Uuid) (text behind : List UInt8)
    (a : Uuid) (aBehind : List UInt8) (b : Uuid) (bBehind : List UInt8) : Prop where
  macParsed : ReadsAs (macDenotes text) mac (extMacAddressParse mac text)
  uuidParsed : ReadsAs (uuidDenotes text) uuid (extUuidParse (text ++ 0 :: behind))
  -- what is between the quotes is read back
  macReadBack : ∀ (m : MacAddress) t, macAddressPrint m = quoted t ++ [44] →
    extMacAddressParse mac t = (m, true)
  uuidReadBack : ∀ (u : Uuid) t, extUuidParse (extUuidToString u ++ 0 :: t) = (u, true)
  equal : a ≠ .zero → b ≠ .zero → (extUuidEqual a aBehind b bBehind = true ↔ a = b)

theorem macParsed_iff (mac : MacAddress) (text : List UInt8) :
    ReadsAs (macDenotes text) mac (extMacAddressParse mac text) ↔
      (macDenotes text).isSome = true ∨ MacRefused mac text := by
  have hrefused := macAddressLoop_refused_iff (Nat.le_refl 5) text mac
  cases hdenotes : macDenotes text with
  | some bytes =>
      exact iff_of_true (extMacAddressParse_of_macDenotes hdenotes mac) (Or.inl rfl)
  | none =>
      rw [or_iff_right nofun, MacRefused, ← hrefused]
      constructor
      · exact fun h => Prod.ext h.2 h.1
      · intro h
        exact ⟨congrArg Prod.snd h, congrArg Prod.fst h⟩

theorem uuidParsed_iff (uuid : Uuid) (text behind : List UInt8) :
    ReadsAs (uuidDenotes text) uuid (extUuidParse (text ++ 0 :: behind)) ↔
      (uuidDenotes text).isSome = true ∨ UuidRefused uuid (text ++ 0 :: behind) := by
  cases hdenotes : uuidDenotes text with
  | some bytes => exact iff_of_true (extUuidParse_of_uuidDenotes hdenotes _) (Or.inl rfl)
  | none =>
      rw [or_iff_right nofun, ← extUuidParse_refused_iff]
      exact Iff.rfl

/-- The functions do what their format says, if and only if a text that is not of the format
    is refused without a change, and the identifiers can be told apart or are equal up to
    their end. -/
theorem identifiersKept_iff (mac : MacAddress) (uuid : Uuid) (text behind : List UInt8)
    (a : Uuid) (aBehind : List UInt8) (b : Uuid) (bBehind : List UInt8) :
    IdentifiersKept mac uuid text behind a aBehind b bBehind ↔
      ((macDenotes text).isSome = true ∨ MacRefused mac text) ∧
        ((uuidDenotes text).isSome = true ∨ UuidRefused uuid (text ++ 0 :: behind)) ∧
          (a ≠ .zero → b ≠ .zero → Compared a aBehind b bBehind) := by
  constructor
  · intro h
    exact ⟨(macParsed_iff mac text).mp h.macParsed, (uuidParsed_iff _ _ _).mp h.uuidParsed,
      fun ha hb => (compared_iff _ _ _ _).mp (h.equal ha hb)⟩
  · rintro ⟨hmac, huuid, hequal⟩
    refine ⟨(macParsed_iff mac text).mpr hmac, (uuidParsed_iff _ _ _).mpr huuid, ?_,
      fun u t => extUuidParse_extUuidToString u _,
      fun ha hb => (compared_iff _ _ _ _).mpr (hequal ha hb)⟩
    intro m t ht
    have hsame : macPrint m = t := by
      have hquoted := List.append_cancel_right ht
      exact List.append_cancel_right (List.cons.inj hquoted).2
    rw [← hsame]
    exact extMacAddressParse_macPrint mac m

/-- A text of dashes and of letters that are no digits. -/
def noDigits : List UInt8 := ascii "zzzzzzzz-zzzz-zzzz-zzzz-zzzzzzzzzzzz"

/-- It is read as an identifier of zeros. -/
theorem not_identifiersKept_noDigits :
    ¬ IdentifiersKept .zero .zero noDigits [] .zero [] .zero [] := by
  intro h
  have hparsed : (extUuidParse (noDigits ++ 0 :: [])).2 = true := by decide +kernel
  have hread := h.uuidParsed
  have hnone : uuidDenotes noDigits = none := by decide +kernel
  rw [hnone] at hread
  exact absurd (hread.1.symm.trans hparsed) nofun

end Cmd

end RtosLwip
