import Mathlib.Data.List.TakeWhile
import Mathlib.Data.Nat.Digits.Defs

/-!
# Text in Memory

Text as a C program sees it: bytes that end at a NUL, or at the end of the
memory. A text that is copied into an array is cut off so that the NUL fits.

Numbers are printed with the digits of Mathlib, and read by the loop of `sscanf`:
blanks, a sign, and digits as far as they go. The number that is written and the
number that is delivered are told apart, since an unsigned type need not hold
what is written.

## Main definitions

* `ascii`: The bytes of a string literal.
* `cstr`: The bytes before the first NUL.
* `CString`: A text that fits into an array, with its NUL.
* `dec`, `hex`: Printing a number.
* `scanInt`: The number at the start of a text.
* `fitU32`: What an unsigned 32-bit variable is given for it.
-/

namespace RtosLwip

/-- The bytes of a string literal. -/
def ascii (s : String) : List UInt8 := s.toList.map fun c => c.toNat.toUInt8

/-- A literal is the string of its characters, so a rewrite with this spares the kernel
    from decoding it. -/
theorem ascii_ofList (l : List Char) :
    ascii (String.ofList l) = l.map fun c => c.toNat.toUInt8 := by
  rw [ascii, String.toList_ofList]

/-- The C string at the start of a memory. -/
def cstr (mem : List UInt8) : List UInt8 := mem.takeWhile (· ≠ 0)

theorem ne_zero_of_mem_cstr {mem : List UInt8} {c : UInt8} (h : c ∈ cstr mem) : c ≠ 0 := by
  have := List.mem_takeWhile_imp h
  simpa using this

theorem cstr_of_nul_free {s : List UInt8} (h : ∀ c ∈ s, c ≠ 0) : cstr s = s := by
  rw [cstr, List.takeWhile_eq_self_iff]
  exact fun c hc => by simpa using h c hc

/-- A text of at most `n` bytes and none of them a NUL, so that an array of
    `n + 1` bytes holds it. -/
structure CString (n : Nat) where
  val : List UInt8
  nul_free : ∀ c ∈ val, c ≠ 0
  fits : val.length ≤ n
  deriving DecidableEq

namespace CString

/-- The text that is copied into an array of `n + 1` bytes. -/
def copy (n : Nat) (mem : List UInt8) : CString n where
  val := (cstr mem).take n
  nul_free _ hc := ne_zero_of_mem_cstr (List.mem_of_mem_take hc)
  fits := List.length_take_le n _

/-- The empty text. -/
def empty (n : Nat) : CString n := ⟨[], nofun, Nat.zero_le n⟩

@[ext] theorem ext {n : Nat} {a b : CString n} (h : a.val = b.val) : a = b := by
  cases a
  cases b
  cases h
  rfl

/-- A text that fits is copied as it is. -/
theorem copy_val {n : Nat} {s : List UInt8} (h : ∀ c ∈ s, c ≠ 0) (hlen : s.length ≤ n) :
    (copy n s).val = s := by
  have hcopy : (copy n s).val = (cstr s).take n := rfl
  rw [hcopy, cstr_of_nul_free h, List.take_of_length_le hlen]

end CString

def isDigit (c : UInt8) : Bool := 48 ≤ c && c ≤ 57

def isSpace (c : UInt8) : Bool := c = 32 || (9 ≤ c && c ≤ 13)

/-- The value of a hexadecimal digit. -/
def hexDigit (c : UInt8) : Option UInt8 :=
  if isDigit c then some (c - 48)
  else if 65 ≤ c && c ≤ 70 then some (c - 65 + 10)
  else if 97 ≤ c && c ≤ 102 then some (c - 97 + 10)
  else none

def toLower (c : UInt8) : UInt8 := if 65 ≤ c && c ≤ 90 then c + 32 else c

/-- `strncmp` of two texts finds no difference. -/
def strncmpEq (a b : List UInt8) (n : Nat) : Bool := a.take n = b.take n

/-- `strncasecmp` of two texts finds no difference. -/
def strncasecmpEq (a b : List UInt8) (n : Nat) : Bool :=
  (a.take n).map toLower = (b.take n).map toLower

/-- `strcasecmp` of two texts finds no difference. -/
def strcasecmpEq (a b : List UInt8) : Bool := a.map toLower = b.map toLower

/-- The digit for a number below ten. -/
def digitChar (d : Nat) : UInt8 := (48 + d).toUInt8

/-- `%u`. -/
def dec (n : Nat) : List UInt8 :=
  if n = 0 then [48] else (Nat.digits 10 n).reverse.map digitChar

/-- `%d`. -/
def decInt (z : Int) : List UInt8 := if z < 0 then 45 :: dec z.natAbs else dec z.natAbs

/-- The lower case digit for a number below sixteen. -/
def hexChar (d : Nat) : UInt8 := if d < 10 then digitChar d else (87 + d).toUInt8

/-- `%x`. -/
def hex (n : Nat) : List UInt8 :=
  if n = 0 then [48] else (Nat.digits 16 n).reverse.map hexChar

/-- `%02x` of a byte. -/
def hex2 (b : UInt8) : List UInt8 := [hexChar (b.toNat / 16), hexChar (b.toNat % 16)]

/-- The number that a run of digits stands for. -/
def digitsValue (acc : Nat) : List UInt8 → Nat
  | [] => acc
  | c :: rest => digitsValue (acc * 10 + (c.toNat - 48)) rest

/-- The digits at the start of a text. -/
def scanDigits (text : List UInt8) : Option Nat :=
  match text.takeWhile isDigit with
  | [] => none
  | digits => some (digitsValue 0 digits)

/-- The number at the start of a text, as `sscanf` reads it for `%u`: it may be
    behind blanks, and a sign is taken as well. -/
def scanInt (text : List UInt8) : Option Int :=
  match text.dropWhile isSpace with
  | 45 :: rest => (scanDigits rest).map fun n => -(n : Int)
  | 43 :: rest => (scanDigits rest).map fun n => (n : Int)
  | rest => (scanDigits rest).map fun n => (n : Int)

/-- What `sscanf` gives an unsigned 32-bit variable: the largest value for a
    number out of range, and the difference to 2^32 for a negative one. -/
def fitU32 (z : Int) : UInt32 := if 2 ^ 32 ≤ z.natAbs then 0xFFFFFFFF else UInt32.ofInt z

theorem fitU32_toNat {z : Int} (h0 : 0 ≤ z) (h : z < 2 ^ 32) : ((fitU32 z).toNat : Int) = z := by
  unfold fitU32
  rw [if_neg (by omega), UInt32.ofInt, UInt32.toNat_ofNat']
  omega

end RtosLwip
