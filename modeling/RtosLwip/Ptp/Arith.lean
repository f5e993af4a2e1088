import RtosLwip.Ptp.Types

/-!
# Time Arithmetic

`ptpArith.c`. Times are pairs of 32-bit integers; division and remainder
truncate, as they do in C, and additions wrap.

Two conversions leave their target alone when the value cannot be represented.
They take the target's old value for that reason: in most places it is a local
variable that nothing was stored in yet.

## Main definitions

* `scaledNanosecondsToInternalTime`, `fromInternalTime`, `toInternalTime`:
  Conversions.
* `addTime`, `subTime`, `div2Time`: Arithmetic on times.
* `floorLog2`: The binary logarithm.
-/

namespace RtosLwip

namespace Ptp

/-- The time zero. -/
def TimeInternal.zero : TimeInternal := ⟨0, 0⟩

/-- `scaledNanosecondsToInternalTime`. -/
def scaledNanosecondsToInternalTime (scaledNanoseconds : Int64) : TimeInternal :=
  let negative := scaledNanoseconds < 0
  let nanoseconds := if negative then -scaledNanoseconds else scaledNanoseconds
  let sign : Int64 := if negative then -1 else 1
  -- fractional nanoseconds are excluded
  let nanoseconds := nanoseconds >>> 16
  ⟨(sign * (nanoseconds / 1000000000)).toInt32, (sign * (nanoseconds % 1000000000)).toInt32⟩

/-- `fromInternalTime`: a negative time leaves `external` as it is. -/
def fromInternalTime (internal : TimeInternal) (external : Timestamp) : Timestamp :=
  if internal.seconds < 0 ∨ internal.nanoseconds < 0 then
    external
  else
    ⟨⟨internal.seconds.toUInt32, 0⟩, internal.nanoseconds.toUInt32⟩

/-- Whether `toInternalTime` can represent a timestamp: its seconds are below
    `INT_MAX`. -/
def Representable (external : Timestamp) : Prop := external.secondsField.lsb < 0x7FFFFFFF

instance (external : Timestamp) : Decidable (Representable external) :=
  inferInstanceAs (Decidable (external.secondsField.lsb < 0x7FFFFFFF))

/-- The internal time of a timestamp that can be represented. -/
def internalTime (external : Timestamp) : TimeInternal :=
  ⟨external.secondsField.lsb.toInt32, external.nanosecondsField.toInt32⟩

/-- `toInternalTime`: seconds that do not fit leave `internal` as it is. -/
def toInternalTime (internal : TimeInternal) (external : Timestamp) : TimeInternal :=
  if Representable external then internalTime external else internal

theorem toInternalTime_representable {external : Timestamp} (h : Representable external)
    (internal : TimeInternal) : toInternalTime internal external = internalTime external := by
  rw [toInternalTime, if_pos h]

/-- `normalizeTime`. -/
def normalizeTime (r : TimeInternal) : TimeInternal :=
  let seconds := r.seconds + r.nanoseconds / 1000000000
  let nanoseconds := r.nanoseconds - r.nanoseconds / 1000000000 * 1000000000
  if 0 < seconds ∧ nanoseconds < 0 then
    ⟨seconds - 1, nanoseconds + 1000000000⟩
  else if seconds < 0 ∧ 0 < nanoseconds then
    ⟨seconds + 1, nanoseconds - 1000000000⟩
  else
    ⟨seconds, nanoseconds⟩

/-- `addTime`. -/
def addTime (x y : TimeInternal) : TimeInternal :=
  normalizeTime ⟨x.seconds + y.seconds, x.nanoseconds + y.nanoseconds⟩

/-- `subTime`. -/
def subTime (x y : TimeInternal) : TimeInternal :=
  normalizeTime ⟨x.seconds - y.seconds, x.nanoseconds - y.nanoseconds⟩

/-- `div2Time`. -/
def div2Time (r : TimeInternal) : TimeInternal :=
  let nanoseconds := r.nanoseconds + r.seconds % 2 * 1000000000
  normalizeTime ⟨r.seconds / 2, nanoseconds / 2⟩

/-- `floorLog2`. -/
def floorLog2 (n : UInt32) : Int32 :=
  if n = 0 then
    -1
  else
    let (n, pos) : UInt32 × Int32 := if n ≥ 0x10000 then (n >>> 16, 16) else (n, 0)
    let (n, pos) : UInt32 × Int32 := if n ≥ 0x100 then (n >>> 8, pos + 8) else (n, pos)
    let (n, pos) : UInt32 × Int32 := if n ≥ 0x10 then (n >>> 4, pos + 4) else (n, pos)
    let (n, pos) : UInt32 × Int32 := if n ≥ 0x4 then (n >>> 2, pos + 2) else (n, pos)
    if n ≥ 0x2 then pos + 1 else pos

/-- `pow2ms`, in milliseconds. -/
def pow2ms (a : Int) : Nat :=
  if 0 < a then 1000 <<< a.toNat else 1000 >>> (-a).toNat

end Ptp

end RtosLwip
