import Mathlib.Algebra.Group.Nat.Defs
import RtosLwip.Flash.SpiFlash
import RtosLwip.Flash.Config

/-!
# The Bootloader's Firmware Update

`_bootUpdate` of `bootMain.c`: at start-up the bootloader looks at the pending
update record and copies the image it names from the staging region of the SPI
flash, an RTOS image into the internal flash and an FPGA image to the beginning
of the SPI flash. Both copies go block by block through the read buffer and
stop at the first block that fails.

The bootloader makes one attempt. Whatever the copy came to, the record is
cleared and the configuration saved ("disable update when next bootup");
`bootUpdate_once` says so, and `rtosLoop_complete_iff` says when the copy of an
RTOS image was complete, which is what the record does not depend on.

The copy loops compare an unsigned total with the recorded size, so a size in
the last 1024 bytes of the 32-bit range is never reached; the loops take fuel,
and `bootUpdate_returns` gives the fuel that is enough below that.

## Main definitions

* `BootHw`: The outcomes of every operation and the bytes the SPI chip delivers.
* `BootState`: The SPI flash interface and the internal flash.
* `bootUpdateRtos`, `bspBootUpdateFpga`, `bootUpdate`: The update.

## Theorems

* `rtosLoop_complete_iff`: The copy is complete exactly when nothing failed.
* `bootUpdate_returns`: The update returns.
* `bootUpdate_once`: One attempt, after which the record is cleared and saved.
-/

namespace RtosLwip

namespace Boot

open Flash

/-- What the hardware does during one boot: whether the internal flash can be
    initialised, which operations succeed, and the byte the SPI chip delivers
    for an address at its `n`-th operation. -/
structure BootHw where
  efcInit : Bool
  spi : Outcome
  efc : Nat → Bool
  spiByte : Nat → Nat → UInt8

/-- The SPI flash interface and the operations of the internal flash. -/
structure BootState (ρ : Type) where
  flash : ExtSpiFlash
  efcOps : List (EfcOp ρ)

variable {ρ : Type}

/-- The bytes a read of `size` bytes at `address` delivers as operation `n`. -/
def readBytes (hw : BootHw) (n address size : Nat) : List UInt8 :=
  (List.range size).map fun k => hw.spiByte n (address + k)

/-- The copy loop of `__bootUpdateRtos`: `page` is the next page of the
    internal flash, `total` the length copied so far. -/
def rtosLoop (hw : BootHw) (size : Nat) : Nat → Nat → Nat → BootState ρ →
    Option (Nat × BootState ρ)
  | 0, _, _, _ => none
  | fuel + 1, page, total, st =>
    if total < size then
      let bufRead := readBytes hw st.flash.ops.length
        (st.flash.startAddress + st.flash.offsetRead) bufLength
      let r := bspSpiFlashRead hw.spi bufLength st.flash
      if r.1 < 0 then
        some (total, { st with flash := r.2 })
      else
        let p := efcFlashProgram hw.efc page (.write page bufRead) st.efcOps
        let st := { st with flash := r.2, efcOps := p.2 }
        if p.1 = false then
          some (total, st)
        else
          rtosLoop hw size fuel (page + 2) ((total + r.1.toNat) % 2 ^ 32) st
    else
      some (total, st)

/-- `__bootUpdateRtos`: the length copied. -/
def bootUpdateRtos (hw : BootHw) (fuel size : Nat) (st : BootState ρ) :
    Option (Nat × BootState ρ) :=
  if hw.efcInit = false then
    some (0, st)
  else
    let flash := bspSpiFlashInit hw.spi 0 (sectorAddress startSectorTempRtos) false st.flash
    rtosLoop hw size fuel startPageOs 0 { st with flash := flash }

/-- The copy loop of `bspBootUpdateFpga`. It reads through an interface of its
    own, at `address`, and writes through the common one. -/
def fpgaLoop (hw : BootHw) (size : Nat) : Nat → Nat → Nat → BootState ρ →
    Option (Nat × BootState ρ)
  | 0, _, _, _ => none
  | fuel + 1, address, total, st =>
    if total < size then
      let bufRead := readBytes hw st.flash.ops.length address bufLength
      let r := issue hw.spi (.read address bufLength) st.flash
      if r.1 = false then
        some (total, { st with flash := r.2 })
      else
        let w := bspSpiFlashWrite hw.spi (.mem bufRead) bufLength r.2
        let st := { st with flash := w.2 }
        if w.1 ≠ bufLength then
          some (0, st)
        else
          fpgaLoop hw size fuel (address + bufLength) ((total + w.1.toNat) % 2 ^ 32) st
    else
      some (total, st)

/-- `bspBootUpdateFpga`: the length copied, or 0 when a write came short. -/
def bspBootUpdateFpga (hw : BootHw) (fuel size : Nat) (st : BootState ρ) :
    Option (Nat × BootState ρ) :=
  let flash := bspSpiFlashInit hw.spi startSectorFirstImage 0 true st.flash
  fpgaLoop hw size fuel (sectorAddress startSectorTempFpga) 0 { st with flash := flash }

/-- The copy `_bootUpdate` makes for a record, if any. -/
def bootCopy (hw : BootHw) (fuel : Nat) (info : FmUpdate) (st : BootState ρ) :
    Option (Nat × BootState ρ) :=
  match info.type with
  | .rtos => bootUpdateRtos hw fuel info.size st
  | .fpga => bspBootUpdateFpga hw fuel info.size st
  | _ => some (0, st)

/-- `_bootUpdate`: the length copied, the configuration and the flashes. -/
def bootUpdate (hw : BootHw) (fuel : Nat) (cfg : RuntimeCfg ρ) (st : BootState ρ) :
    Option (Nat × RuntimeCfg ρ × BootState ρ) :=
  if cfg.firmUpdateInfo.type = .rtos ∨ cfg.firmUpdateInfo.type = .fpga then
    match bootCopy hw fuel cfg.firmUpdateInfo st with
    | none => none
    | some (length, st) =>
      -- disable update when next bootup
      let cfg := { cfg with firmUpdateInfo := .zero }
      some (length, cfg, { st with efcOps := (bspCfgSave hw.efc cfg .main st.efcOps).2 })
  else
    some (0, cfg, st)

/-- The operations from position `a` up to `b` all succeed. -/
def AllOk (ok : Nat → Bool) (a b : Nat) : Prop := ∀ n, a ≤ n → n < b → ok n = true

theorem allOk_self (ok : Nat → Bool) (a : Nat) : AllOk ok a a := fun _ h1 h2 => by omega

theorem allOk_succ (ok : Nat → Bool) (a : Nat) : AllOk ok a (a + 1) ↔ ok a = true := by
  refine ⟨fun h => h a (Nat.le_refl a) (Nat.lt_succ_self a), fun h n h1 h2 => ?_⟩
  have hn : n = a := by omega
  rw [hn]
  exact h

theorem allOk_trans {ok : Nat → Bool} {a b c : Nat} (hab : a ≤ b) (hbc : b ≤ c) :
    AllOk ok a c ↔ AllOk ok a b ∧ AllOk ok b c := by
  refine ⟨fun h => ⟨fun n h1 h2 => h n h1 (by omega), fun n h1 h2 => h n (by omega) h2⟩,
    fun ⟨h1, h2⟩ n ha hc => ?_⟩
  by_cases hn : n < b
  · exact h1 n ha hn
  · exact h2 n (by omega) hc

/-- Programming adds the erase, if any, and the operation itself, and succeeds
    exactly when what it added does. -/
theorem efcFlashProgram_added (ok : Nat → Bool) (page : Nat) (op : EfcOp ρ)
    (ops : List (EfcOp ρ)) :
    ∃ added, (efcFlashProgram ok page op ops).2 = ops ++ added ∧
      (∀ o ∈ added, o = .erase page ∨ o = op) ∧
      ((efcFlashProgram ok page op ops).1 = true ↔
        AllOk ok ops.length (ops.length + added.length)) := by
  simp only [efcFlashProgram, efcIssue]
  by_cases hfirst : page % eraseCount = 0
  · rw [if_pos hfirst]
    by_cases herase : ok ops.length = true
    · simp only [herase, if_true]
      refine ⟨[.erase page, op], ?_, ?_, ?_⟩
      · rw [List.append_assoc]
        rfl
      · intro o ho
        simpa only [List.mem_cons, List.not_mem_nil, or_false] using ho
      · rw [List.length_append, List.length_singleton,
          allOk_trans (b := ops.length + 1) (by omega) (by simp only [List.length_cons]; omega),
          allOk_succ, and_iff_right herase]
        exact (allOk_succ ok _).symm
    · simp only [herase, if_false, Bool.false_eq_true]
      refine ⟨[.erase page], rfl, fun o ho => Or.inl (List.mem_singleton.mp ho), ?_⟩
      rw [List.length_singleton, allOk_succ]
      simp only [herase, Bool.false_eq_true]
  · rw [if_neg hfirst]
    refine ⟨[op], rfl, fun o ho => Or.inr (List.mem_singleton.mp ho), ?_⟩
    rw [List.length_singleton, allOk_succ]

/-- The copy of an RTOS image only adds operations, none of which writes a
    configuration, and it reaches the recorded size exactly when all of them
    succeed. The loop leaves either with the total at the size and nothing
    failed, or below the size at the operation that failed last. -/
theorem rtosLoop_complete_iff (hw : BootHw) (size : Nat) :
    ∀ (fuel page total : Nat) (st st' : BootState ρ) (length : Nat),
      rtosLoop hw size fuel page total st = some (length, st') →
      ∃ reads copied, st'.flash.ops = st.flash.ops ++ reads ∧
        st'.efcOps = st.efcOps ++ copied ∧ (∀ p c, .writeCfg p c ∉ copied) ∧
        (size ≤ length ↔ AllOk hw.spi st.flash.ops.length st'.flash.ops.length ∧
          AllOk hw.efc st.efcOps.length st'.efcOps.length) := by
  intro fuel
  induction fuel with
  | zero =>
      intro page total st st' length h
      exact absurd h (by simp only [rtosLoop, reduceCtorEq, not_false_eq_true])
  | succ fuel ih =>
      intro page total st st' length h
      rw [rtosLoop] at h
      by_cases hmore : total < size
      · -- another block is to be read and programmed
        simp only [if_pos hmore, bspSpiFlashRead, issue] at h
        have hreadLen : (st.flash.ops ++ [FlashOp.read
            (st.flash.startAddress + st.flash.offsetRead) bufLength]).length
            = st.flash.ops.length + 1 := by
          simp only [List.length_append, List.length_singleton]
        by_cases hread : hw.spi st.flash.ops.length = true
        · have hpos : ¬ ((bufLength : Nat) : Int) < 0 := by simp only [bufLength]; omega
          simp only [hread, if_true, if_neg hpos] at h
          rcases efcFlashProgram_added hw.efc page (.write page (readBytes hw
            st.flash.ops.length (st.flash.startAddress + st.flash.offsetRead) bufLength))
            st.efcOps with ⟨added, hadd, hkind, hok⟩
          have hnocfg : ∀ p c, EfcOp.writeCfg p c ∉ added := by
            intro p c hmem
            rcases hkind _ hmem with h | h
            · exact absurd h (by simp only [reduceCtorEq, not_false_eq_true])
            · exact absurd h (by simp only [reduceCtorEq, not_false_eq_true])
          by_cases hprog : (efcFlashProgram hw.efc page (.write page (readBytes hw
              st.flash.ops.length (st.flash.startAddress + st.flash.offsetRead) bufLength))
              st.efcOps).1 = false
          · -- the block could not be programmed
            rw [if_pos hprog, Option.some.injEq, Prod.mk.injEq] at h
            rcases h with ⟨rfl, rfl⟩
            refine ⟨_, added, rfl, hadd, hnocfg, ?_⟩
            rw [hprog] at hok
            simp only [hadd, List.length_append]
            refine ⟨fun hle => absurd hle (by omega), fun hall => ?_⟩
            exact absurd (hok.mpr hall.2) (by simp only [Bool.false_eq_true, not_false_eq_true])
          · rw [if_neg hprog] at h
            -- The copy goes on with the next page.
            rcases ih _ _ _ _ _ h with ⟨reads, copied, hr, hc, hcfg, hiff⟩
            simp only [hadd] at hr hc hiff
            refine ⟨.read (st.flash.startAddress + st.flash.offsetRead) bufLength :: reads,
              added ++ copied, ?_, ?_, ?_, ?_⟩
            · rw [hr, List.append_assoc]
              rfl
            · rw [hc, List.append_assoc]
            · intro p c hmem
              rcases List.mem_append.mp hmem with h | h
              · exact hnocfg p c h
              · exact hcfg p c h
            · rw [hiff, hreadLen, allOk_trans (a := st.flash.ops.length) (Nat.le_succ _)
                (by rw [hr, List.length_append, hreadLen]; exact Nat.le_add_right _ _),
                allOk_succ, and_iff_right hread,
                allOk_trans (a := st.efcOps.length) (b := st.efcOps.length + added.length)
                  (Nat.le_add_right _ _)
                  (by rw [hc, List.length_append, List.length_append]; exact Nat.le_add_right _ _),
                List.length_append,
                and_iff_right (hok.mp (by simpa only [Bool.not_eq_false] using hprog))]
        · -- the block could not be read
          simp only [hread, if_false, Bool.false_eq_true, Int.reduceNeg, Int.reduceLT, if_true,
            Option.some.injEq, Prod.mk.injEq] at h
          rcases h with ⟨rfl, rfl⟩
          refine ⟨_, [], rfl, (List.append_nil _).symm, fun _ _ => List.not_mem_nil, ?_⟩
          rw [hreadLen, allOk_succ]
          exact ⟨fun hle => absurd hle (by omega), fun hall => absurd hall.1 hread⟩
      · rw [if_neg hmore, Option.some.injEq, Prod.mk.injEq] at h
        rcases h with ⟨rfl, rfl⟩
        refine ⟨[], [], (List.append_nil _).symm, (List.append_nil _).symm,
          fun _ _ => List.not_mem_nil, ?_⟩
        exact ⟨fun _ => ⟨allOk_self _ _, allOk_self _ _⟩, fun _ => by omega⟩

/-- A copy loop that has the fuel for every block still to come returns. A block
    that succeeds brings the total nearer to the size without wrapping. -/
theorem rtosLoop_returns (hw : BootHw) (size : Nat) (hsize : size ≤ 2 ^ 32 - bufLength) :
    ∀ (fuel page total : Nat) (st : BootState ρ),
      (size - total + bufLength - 1) / bufLength < fuel →
      (rtosLoop hw size fuel page total st).isSome = true := by
  have hbuf : bufLength = 1024 := rfl
  intro fuel
  induction fuel with
  | zero => exact fun _ _ _ h => absurd h (Nat.not_lt_zero _)
  | succ fuel ih =>
      intro page total st h
      rw [rtosLoop]
      by_cases hmore : total < size
      · simp only [if_pos hmore]
        by_cases hread : (bspSpiFlashRead hw.spi bufLength st.flash).1 < 0
        · simp only [if_pos hread, Option.isSome_some]
        · have hlen : (bspSpiFlashRead hw.spi bufLength st.flash).1.toNat = bufLength := by
            simp only [bspSpiFlashRead] at hread ⊢
            by_cases hok : (issue hw.spi (.read (st.flash.startAddress + st.flash.offsetRead)
                bufLength) st.flash).1 = true
            · simp only [hok, if_true, Int.toNat_natCast]
            · simp only [hok, if_false, Bool.false_eq_true] at hread
              omega
          simp only [if_neg hread]
          split
          · rfl
          · refine ih _ _ _ ?_
            rw [hlen]
            simp only [hbuf] at hsize h ⊢
            omega
      · rw [if_neg hmore]
        rfl

theorem fpgaLoop_returns (hw : BootHw) (size : Nat) (hsize : size ≤ 2 ^ 32 - bufLength) :
    ∀ (fuel address total : Nat) (st : BootState ρ),
      (size - total + bufLength - 1) / bufLength < fuel →
      (fpgaLoop hw size fuel address total st).isSome = true := by
  have hbuf : bufLength = 1024 := rfl
  intro fuel
  induction fuel with
  | zero => exact fun _ _ _ h => absurd h (Nat.not_lt_zero _)
  | succ fuel ih =>
      intro address total st h
      rw [fpgaLoop]
      by_cases hmore : total < size
      · simp only [if_pos hmore]
        split
        · rfl
        · split
          · rfl
          · rename_i hwritten
            refine ih _ _ _ ?_
            rw [not_not.mp hwritten, Int.toNat_natCast]
            simp only [hbuf] at hsize h ⊢
            omega
      · rw [if_neg hmore]
        rfl

/-- The copy of an FPGA image leaves the internal flash alone. -/
theorem fpgaLoop_efcOps (hw : BootHw) (size : Nat) :
    ∀ (fuel address total : Nat) (st st' : BootState ρ) (length : Nat),
      fpgaLoop hw size fuel address total st = some (length, st') → st'.efcOps = st.efcOps := by
  intro fuel
  induction fuel with
  | zero =>
      intro address total st st' length h
      exact absurd h (by simp only [fpgaLoop, reduceCtorEq, not_false_eq_true])
  | succ fuel ih =>
      intro address total st st' length h
      rw [fpgaLoop] at h
      split at h
      · simp only at h
        split at h
        · rw [Option.some.injEq, Prod.mk.injEq] at h
          rw [← h.2]
        · split at h
          · rw [Option.some.injEq, Prod.mk.injEq] at h
            rw [← h.2]
          · exact (ih _ _ _ _ _ h).trans rfl
      · rw [Option.some.injEq, Prod.mk.injEq] at h
        rw [← h.2]

/-- The copy of an RTOS image is complete exactly when there is nothing to copy
    or the internal flash comes up and no operation of the copy fails. -/
theorem bootUpdateRtos_complete_iff (hw : BootHw) (fuel size : Nat) (st st' : BootState ρ)
    (length : Nat) (h : bootUpdateRtos hw fuel size st = some (length, st')) :
    ∃ copied, st'.efcOps = st.efcOps ++ copied ∧ (∀ p c, .writeCfg p c ∉ copied) ∧
      (size ≤ length ↔ size = 0 ∨ (hw.efcInit = true ∧
        AllOk hw.spi st.flash.ops.length st'.flash.ops.length ∧
        AllOk hw.efc st.efcOps.length st'.efcOps.length)) := by
  rw [bootUpdateRtos] at h
  by_cases hinit : hw.efcInit = false
  · rw [if_pos hinit, Option.some.injEq, Prod.mk.injEq] at h
    rcases h with ⟨rfl, rfl⟩
    refine ⟨[], (List.append_nil _).symm, fun _ _ => List.not_mem_nil, ?_⟩
    simp only [hinit, Bool.false_eq_true, false_and, or_false, Nat.le_zero]
  · rw [if_neg hinit] at h
    rcases rtosLoop_complete_iff hw size fuel _ _ _ _ _ h with ⟨reads, copied, hr, hc, hcfg, hiff⟩
    refine ⟨copied, hc, hcfg, ?_⟩
    have hinit' : hw.efcInit = true := by simpa only [Bool.not_eq_false] using hinit
    rw [hiff, and_iff_right hinit']
    refine ⟨Or.inr, fun h => ?_⟩
    rcases h with hzero | hall
    · -- with nothing to copy the loop issues nothing
      rw [← hiff, hzero]
      exact Nat.zero_le _
    · exact hall

/-- What the copy leaves of the internal flash, for either kind of image. -/
theorem bootCopy_efcOps (hw : BootHw) (fuel : Nat) (info : FmUpdate) (st st' : BootState ρ)
    (length : Nat) (h : bootCopy hw fuel info st = some (length, st')) :
    ∃ copied, st'.efcOps = st.efcOps ++ copied ∧ (∀ p c, .writeCfg p c ∉ copied) := by
  rw [bootCopy] at h
  split at h
  · rcases bootUpdateRtos_complete_iff hw fuel _ _ _ _ h with ⟨copied, hc, hcfg, -⟩
    exact ⟨copied, hc, hcfg⟩
  · rw [bspBootUpdateFpga] at h
    refine ⟨[], ?_, fun _ _ => List.not_mem_nil⟩
    rw [fpgaLoop_efcOps hw _ _ _ _ _ _ _ h, List.append_nil]
  · rw [Option.some.injEq, Prod.mk.injEq] at h
    rw [← h.2]
    exact ⟨[], (List.append_nil _).symm, fun _ _ => List.not_mem_nil⟩

/-- The update returns for every pattern of failures. -/
theorem bootUpdate_returns (hw : BootHw) (fuel : Nat) (cfg : RuntimeCfg ρ) (st : BootState ρ)
    (hsize : cfg.firmUpdateInfo.size ≤ 2 ^ 32 - bufLength)
    (hfuel : (cfg.firmUpdateInfo.size + bufLength - 1) / bufLength < fuel) :
    (bootUpdate hw fuel cfg st).isSome = true := by
  rw [bootUpdate]
  split
  · have hcopy : (bootCopy hw fuel cfg.firmUpdateInfo st).isSome = true := by
      rw [bootCopy]
      split
      · rw [bootUpdateRtos]
        split
        · rfl
        · exact rtosLoop_returns hw _ hsize _ _ _ _ (by rwa [Nat.sub_zero])
      · exact fpgaLoop_returns hw _ hsize _ _ _ _ (by rwa [Nat.sub_zero])
      · rfl
    rcases Option.isSome_iff_exists.mp hcopy with ⟨r, hr⟩
    rw [hr]
    rfl
  · rfl

/-- One attempt at the update, for every pattern of failures. When the record
    names an image, the record is cleared and the configuration saved once,
    behind the copy, whatever length was copied; an RTOS copy falls short of
    the recorded size exactly when something in it failed. For any other record
    nothing happens. The update returns whenever the copy loops can reach the
    recorded size. -/
theorem bootUpdate_once (hw : BootHw) (cfg : RuntimeCfg ρ) (st : BootState ρ) :
    (∀ fuel length cfg' st', bootUpdate hw fuel cfg st = some (length, cfg', st') →
      if cfg.firmUpdateInfo.type = .rtos ∨ cfg.firmUpdateInfo.type = .fpga then
        cfg' = { cfg with firmUpdateInfo := .zero } ∧
        ∃ copied, (∀ p c, .writeCfg p c ∉ copied) ∧
          st'.efcOps = (bspCfgSave hw.efc cfg' .main (st.efcOps ++ copied)).2 ∧
          (cfg.firmUpdateInfo.type = .rtos → (cfg.firmUpdateInfo.size ≤ length ↔
            cfg.firmUpdateInfo.size = 0 ∨ (hw.efcInit = true ∧
              AllOk hw.spi st.flash.ops.length st'.flash.ops.length ∧
              AllOk hw.efc st.efcOps.length (st.efcOps.length + copied.length))))
      else
        length = 0 ∧ cfg' = cfg ∧ st' = st) ∧
    (cfg.firmUpdateInfo.size ≤ 2 ^ 32 - bufLength →
      ∃ fuel, (bootUpdate hw fuel cfg st).isSome = true) := by
  refine ⟨?_, fun hsize => ⟨_, bootUpdate_returns hw _ cfg st hsize (Nat.lt_succ_self _)⟩⟩
  intro fuel length cfg' st' h
  rw [bootUpdate] at h
  by_cases htype : cfg.firmUpdateInfo.type = .rtos ∨ cfg.firmUpdateInfo.type = .fpga
  · rw [if_pos htype] at h ⊢
    cases hcopy : bootCopy hw fuel cfg.firmUpdateInfo st with
    | none =>
        rw [hcopy] at h
        exact absurd h (by simp only [reduceCtorEq, not_false_eq_true])
    | some r =>
        rcases r with ⟨len, mid⟩
        rw [hcopy] at h
        simp only [Option.some.injEq, Prod.mk.injEq] at h
        rcases h with ⟨rfl, rfl, rfl⟩
        refine ⟨rfl, ?_⟩
        by_cases hrtos : cfg.firmUpdateInfo.type = .rtos
        · simp only [bootCopy, hrtos] at hcopy
          rcases bootUpdateRtos_complete_iff hw fuel _ _ _ _ hcopy with ⟨copied, hc, hcfg, hiff⟩
          refine ⟨copied, hcfg, by rw [hc], fun _ => ?_⟩
          rw [hiff, hc, List.length_append]
        · rcases bootCopy_efcOps hw fuel _ _ _ _ hcopy with ⟨copied, hc, hcfg⟩
          exact ⟨copied, hcfg, by rw [hc], fun h => absurd h hrtos⟩
  · rw [if_neg htype] at h ⊢
    simp only [Option.some.injEq, Prod.mk.injEq] at h
    exact ⟨h.1.symm, h.2.1.symm, h.2.2.symm⟩

/-- The internal flash does not come up, so nothing of a recorded image is
    copied; the cleared record is saved all the same. -/
theorem bootUpdate_clears_failed_copy :
    ∃ (hw : BootHw) (cfg : RuntimeCfg Unit) (st st' : BootState Unit) (length : Nat),
      bootUpdate hw 2 cfg st = some (length, { cfg with firmUpdateInfo := .zero }, st') ∧
      length < cfg.firmUpdateInfo.size ∧
      st'.efcOps = st.efcOps ++ [.erase startPageConfiguration,
        .writeCfg startPageConfiguration { cfg with firmUpdateInfo := .zero }] :=
  ⟨⟨false, fun _ => true, fun _ => true, fun _ _ => 0⟩, ⟨⟨.rtos, true, 1⟩, ()⟩,
    ⟨⟨0, 0, 0, 0, 0, 0, [], []⟩, []⟩,
    ⟨⟨0, 0, 0, 0, 0, 0, [], []⟩, [.erase startPageConfiguration,
      .writeCfg startPageConfiguration ⟨.zero, ()⟩]⟩, 0, rfl, by decide, rfl⟩

end Boot

end RtosLwip
