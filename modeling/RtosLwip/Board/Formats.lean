import Mathlib.Data.Bool.AllAny
import RtosLwip.Board.Fpga

/-!
# The Format of the Video

The format of the video goes to the FPGA through `extFpgaConfigParams` and comes
back through `extFpgaReadParams`. The frame rate and the depth have codes of
their own there, and a table translates them in either direction.

The writer reads the register of the depth where the others are written, so the
FPGA keeps the depth that it had. And the reader has the two values for codes
that are not listed the wrong way round: a frame rate becomes 8, which is a depth,
and a depth becomes 23, which is a frame rate.

## Main definitions

* `fpgaParams`: The registers that are read.
* `SameFormat`: The fields that go to the FPGA and come back.
* `Listed`: The frame rate and the depth are those of the tables.
* `translateDepthBack`: The code of a depth.

## Theorems

* `sameFormat_iff`: When the format is read back.
* `listed_iff`: When what is read is listed.
* `formats_iff`: Both.
-/

namespace RtosLwip

namespace Board

open Cmd Registers Media

/-- The registers that a poll reads. -/
def fpgaParams (regs : FpgaRegisters) : FpgaParams where
  sdiStatus := regs 19
  paramStatus := regs 14
  width := extFpgaReadShort 6 regs
  height := extFpgaReadShort 8 regs
  frameRate := regs 10
  sampling := regs 11
  depth := regs 12
  intlcSegm := regs 13

/-- The same width, height, frame rate, colour space, depth and segmented flag. -/
def SameFormat (a b : RunTimeParam) : Prop :=
  a.vWidth = b.vWidth ∧ a.vHeight = b.vHeight ∧ a.vFrameRate = b.vFrameRate ∧
    a.vColorSpace = b.vColorSpace ∧ a.vDepth = b.vDepth ∧ a.vIsSegmented = b.vIsSegmented

/-- A frame rate of `_frameRateTable`. -/
def IsFrameRate (rate : UInt8) : Prop := rate ∈ frameRateTable.map (·.2)

/-- A depth of `_vDepthTable`. -/
def IsDepth (depth : UInt8) : Prop := depth ∈ vDepthTable.map (·.2)

instance (rate : UInt8) : Decidable (IsFrameRate rate) := inferInstanceAs (Decidable (_ ∈ _))

instance (depth : UInt8) : Decidable (IsDepth depth) := inferInstanceAs (Decidable (_ ∈ _))

/-- The frame rate and the depth are those of the tables. -/
def Listed (p : RunTimeParam) : Prop := IsFrameRate p.vFrameRate ∧ IsDepth p.vDepth

/-- `_translateDepth` to the FPGA. -/
def translateDepthBack (depth : UInt8) : UInt8 :=
  ((vDepthTable.find? fun e => e.2 = depth).map (·.1)).getD 2

/-! ### The tables -/

section Tables

variable {table : List (UInt8 × UInt8)}

/-- A code that is listed is translated to a value of the table. -/
theorem translate_mem {code : UInt8} (d : UInt8) (h : code ∈ table.map (·.1)) :
    ((table.find? fun e => e.1 = code).map (·.2)).getD d ∈ table.map (·.2) := by
  rcases List.mem_map.mp h with ⟨entry, hentry, rfl⟩
  cases hfind : table.find? fun e => e.1 = entry.1 with
  | none =>
      have hno := List.find?_eq_none.mp hfind entry hentry
      exact absurd (decide_eq_true rfl) hno
  | some found => exact List.mem_map_of_mem (List.mem_of_find?_eq_some hfind)

/-- A code that is not listed becomes the value for such codes. -/
theorem translate_of_notMem {code : UInt8} (d : UInt8) (h : code ∉ table.map (·.1)) :
    ((table.find? fun e => e.1 = code).map (·.2)).getD d = d := by
  have hnone : (table.find? fun e => e.1 = code) = none := by
    refine List.find?_eq_none.mpr fun entry hentry heq => ?_
    exact h (List.mem_map.mpr ⟨entry, hentry, of_decide_eq_true heq⟩)
  rw [hnone]
  rfl

end Tables

/-- A frame rate that is not listed is none of the rates. -/
theorem isFrameRate_translate_iff (code : UInt8) :
    IsFrameRate (translateFrameRate code) ↔ code ∈ frameRateTable.map (·.1) := by
  refine ⟨fun h => ?_, translate_mem 8⟩
  by_contra hno
  rw [translateFrameRate, translate_of_notMem 8 hno] at h
  exact absurd h (by decide)

/-- A depth that is not listed is none of the depths. -/
theorem isDepth_translate_iff (code : UInt8) :
    IsDepth (translateDepth code) ↔ code ∈ vDepthTable.map (·.1) := by
  refine ⟨fun h => ?_, translate_mem 23⟩
  by_contra hno
  rw [translateDepth, translate_of_notMem 23 hno] at h
  exact absurd h (by decide)

theorem translateFrameRate_back {rate : UInt8} (h : IsFrameRate rate) :
    translateFrameRate (translateFrameRateBack rate) = rate := by
  have hall : ∀ r ∈ frameRateTable.map (·.2),
      translateFrameRate (translateFrameRateBack r) = r :=
    List.all_iff_forall_prop.mp (by decide)
  exact hall rate h

/-- The codes of the depths are those that they are translated from. -/
theorem translateDepth_eq_iff {code depth : UInt8} (h : IsDepth depth) :
    translateDepth code = depth ↔ code = translateDepthBack depth := by
  have hback : ∀ d ∈ vDepthTable.map (·.2), translateDepth (translateDepthBack d) = d :=
    List.all_iff_forall_prop.mp (by decide)
  have hcode : ∀ c ∈ vDepthTable.map (·.1), translateDepthBack (translateDepth c) = c :=
    List.all_iff_forall_prop.mp (by decide)
  constructor
  · rintro rfl
    exact (hcode code ((isDepth_translate_iff code).mp h)).symm
  · rintro rfl
    exact hback depth h

/-! ### The registers -/

theorem pairwise_paramsValues (p : RunTimeParam) : (paramsValues p).Pairwise Apart := by
  simp [paramsValues, Apart, regEnable]

/-- What was written to the registers of the format, and the register of the depth, which is
    as it was. -/
theorem fpgaParams_extFpgaConfigParams (p : RunTimeParam) (regs : FpgaRegisters) :
    fpgaParams (extFpgaConfigParams p regs) = {
      fpgaParams regs with
      width := p.vWidth
      height := p.vHeight
      frameRate := translateFrameRateBack p.vFrameRate
      sampling := p.vColorSpace
      intlcSegm := p.vIsSegmented } := by
  have hread : ∀ w ∈ paramsValues p,
      readAt w.1 w.2.length (extFpgaConfigParams p regs) = w.2 :=
    fun w hw => readAt_writeAll_self (pairwise_paramsValues p) hw regs
  simp only [paramsValues, List.mem_cons, List.not_mem_nil, or_false, forall_eq_or_imp, forall_eq,
    length_shortBytes, List.length_singleton] at hread
  rcases hread with ⟨hwidth, hheight, hrate, hsampling, hsegm, -⟩
  have hshort : ∀ v : UInt16, le16 (shortBytes v) = v := fun v => by
    rw [← List.append_nil (shortBytes v), le16_shortBytes]
  have hone : ∀ {k : Nat} {b : UInt8} {r : FpgaRegisters}, readAt k 1 r = [b] → r k = b :=
    fun h => (List.cons.inj h).1
  -- the registers that are not among those written
  have hother : ∀ k, (∀ v ∈ paramsValues p, k + 1 ≤ v.1 ∨ v.1 + v.2.length ≤ k) →
      extFpgaConfigParams p regs k = regs k := fun k hk =>
    hone (readAt_writeAll_other (paramsValues p) k 1 regs hk)
  have hapart : ∀ k ∈ [12, 14, 19], ∀ v ∈ paramsValues p, k + 1 ≤ v.1 ∨ v.1 + v.2.length ≤ k := by
    simp [paramsValues, regEnable]
  simp only [fpgaParams, extFpgaReadShort, hwidth, hheight, hshort, hone hrate, hone hsampling,
    hone hsegm, hother 12 (hapart 12 (by simp)), hother 14 (hapart 14 (by simp)),
    hother 19 (hapart 19 (by simp))]

/-- The format is read back exactly if the depth was there already. -/
theorem sameFormat_iff {p : RunTimeParam} (h : Listed p) (regs : FpgaRegisters)
    (dest : RunTimeParam) :
    SameFormat (extFpgaReadParams (fpgaParams (extFpgaConfigParams p regs)) dest) p ↔
      regs 12 = translateDepthBack p.vDepth := by
  rw [fpgaParams_extFpgaConfigParams, SameFormat, ← translateDepth_eq_iff h.2]
  simp only [extFpgaReadParams, translateFrameRate_back h.1, fpgaParams, true_and, and_true]

/-- What is read is listed exactly if its codes are. -/
theorem listed_iff (regs : FpgaRegisters) (dest : RunTimeParam) :
    Listed (extFpgaReadParams (fpgaParams regs) dest) ↔
      regs 10 ∈ frameRateTable.map (·.1) ∧ regs 12 ∈ vDepthTable.map (·.1) :=
  and_congr (isFrameRate_translate_iff _) (isDepth_translate_iff _)

/-- The format that was written is read back, and what is read from the registers is listed,
    exactly if the register of the depth holds the code of the depth and that of the frame rate
    a code of its table. -/
theorem formats_iff {p : RunTimeParam} (h : Listed p) (regs : FpgaRegisters)
    (dest : RunTimeParam) :
    (SameFormat (extFpgaReadParams (fpgaParams (extFpgaConfigParams p regs)) dest) p ∧
      Listed (extFpgaReadParams (fpgaParams regs) dest)) ↔
        regs 12 = translateDepthBack p.vDepth ∧ regs 10 ∈ frameRateTable.map (·.1) := by
  rw [sameFormat_iff h, listed_iff]
  refine and_congr_right fun hdepth => and_iff_left ?_
  rw [hdepth]
  have hall : ∀ d ∈ vDepthTable.map (·.2), translateDepthBack d ∈ vDepthTable.map (·.1) :=
    List.all_iff_forall_prop.mp (by decide)
  exact hall p.vDepth h.2

/-- 1920 by 1080 pixels at 60 frames, with a depth of 10 bits. -/
def format1080p : RunTimeParam where
  vWidth := 1920
  vHeight := 1080
  vFrameRate := 60
  vColorSpace := 0
  vDepth := 10
  vIsInterlaced := 0
  vIsSegmented := 0
  aSampleRate := 48000
  aChannels := 2
  aDepth := 24
  isConnect := 0

theorem formats_iff_1080p :
    Listed format1080p ∧
    ((SameFormat (extFpgaReadParams (fpgaParams (extFpgaConfigParams format1080p
      fun _ => 0)) format1080p) format1080p ∧
      Listed (extFpgaReadParams (fpgaParams fun _ => 0) format1080p)) ↔
        (0 : UInt8) = translateDepthBack format1080p.vDepth ∧
          (0 : UInt8) ∈ frameRateTable.map (·.1)) :=
  have h : Listed format1080p := ⟨by decide, by decide⟩
  ⟨h, formats_iff h (fun _ => 0) format1080p⟩

/-- With all registers 0, a depth of 10 is written and a depth of 8 is read back. -/
theorem not_sameFormat_1080p :
    ¬ ∀ (p : RunTimeParam), Listed p → ∀ (regs : FpgaRegisters) (dest : RunTimeParam),
      SameFormat (extFpgaReadParams (fpgaParams (extFpgaConfigParams p regs)) dest) p ∧
        Listed (extFpgaReadParams (fpgaParams regs) dest) := by
  intro h
  have hsame := (h format1080p ⟨by decide, by decide⟩ (fun _ => 0) format1080p).1
  exact absurd hsame.2.2.2.2.1 (by decide)

end Board

end RtosLwip
