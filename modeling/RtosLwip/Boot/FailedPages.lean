import Mathlib.Logic.Function.Iterate
import RtosLwip.Boot.Update
import RtosLwip.Flash.Regions

/-!
# Pages That Could Not Be Stored

A program operation or an erase of the SPI flash can fail, and each of the three
functions above it says so with a value of its own. `__bspSpiFlashWriteOnePage`
returns -1, the loop above it looks for `EXIT_FAILURE`, which is 1, and above that a
length is expected. So a failed page is lost between the first two: the write goes on
with the next page and reports the size of its chunk, whatever the hardware does. The
flush drops the result of its write, and reports what had been left in the buffer.

What a call issues is known beforehand as long as nothing fails: one program operation
for each page, and an erase behind the last page of a sector. The first operation that
fails is one of these, so that the call meets a failure if and only if one of them
fails.

## Main definitions

* `opsFor`: The number of operations for some pages.
* `Programs`: What a part of a call issues.
* `Failed`: An operation of a call has failed.
* `FailuresReported`: A failure is reported, and nothing else is.

## Theorems

* `programs_write`, `programs_flush`: The operations of a call.
* `failuresReported_iff`: When the calls report what has happened.
-/

namespace RtosLwip

namespace Boot

open Flash

/-- The page counter behind a page. -/
def nextIndex (idx : Nat) : Nat :=
  if pagesInOneSector ≤ (idx + 1) % 65536 then 0 else (idx + 1) % 65536

/-- The number of operations for `n` pages from a page counter on: each is programmed, and
    behind the last one of a sector the next sector is erased. -/
def opsFor : Nat → Nat → Nat
  | 0, _ => 0
  | n + 1, idx =>
      (if pagesInOneSector ≤ (idx + 1) % 65536 then 2 else 1) + opsFor n (nextIndex idx)

theorem opsFor_add (n m idx : Nat) :
    opsFor (n + m) idx = opsFor n idx + opsFor m (nextIndex^[n] idx) := by
  induction n generalizing idx with
  | zero => rw [Nat.zero_add, opsFor, Nat.zero_add, Function.iterate_zero_apply]
  | succ n ih =>
      rw [Nat.add_right_comm, opsFor, opsFor, ih, Function.iterate_succ_apply, Nat.add_assoc]

theorem opsFor_pos (n idx : Nat) : 0 < opsFor (n + 1) idx := by
  rw [opsFor]
  split <;> omega

/-- A part of a call programs `n` pages. It adds operations, and these are known if none of
    them fails, or none of those that were to be issued. -/
structure Programs (hw : Outcome) (n : Nat) (f g : ExtSpiFlash) : Prop where
  grows : f.ops.length ≤ g.ops.length
  exact : AllOk hw f.ops.length g.ops.length ∨
      AllOk hw f.ops.length (f.ops.length + opsFor n f.pageIndex) →
    g.ops.length = f.ops.length + opsFor n f.pageIndex ∧ g.pageIndex = nextIndex^[n] f.pageIndex

section Programs

variable {hw : Outcome}

theorem programs_zero {f g : ExtSpiFlash} (hops : g.ops = f.ops)
    (hidx : g.pageIndex = f.pageIndex) : Programs hw 0 f g where
  grows := Nat.le_of_eq (by rw [hops])
  exact := fun _ => ⟨by rw [hops]; rfl, hidx⟩

theorem Programs.trans {n m : Nat} {f g k : ExtSpiFlash} (hfg : Programs hw n f g)
    (hgk : Programs hw m g k) : Programs hw (n + m) f k where
  grows := Nat.le_trans hfg.grows hgk.grows
  exact := by
    intro hok
    have hfront : AllOk hw f.ops.length g.ops.length ∨
        AllOk hw f.ops.length (f.ops.length + opsFor n f.pageIndex) := by
      rcases hok with hall | hall
      · exact Or.inl fun i hi hi' => hall i hi (Nat.lt_of_lt_of_le hi' hgk.grows)
      · rw [opsFor_add] at hall
        exact Or.inr fun i hi hi' => hall i hi (by omega)
    rcases hfg.exact hfront with ⟨hlen, hidx⟩
    have hback : AllOk hw g.ops.length k.ops.length ∨
        AllOk hw g.ops.length (g.ops.length + opsFor m g.pageIndex) := by
      rcases hok with hall | hall
      · exact Or.inl fun i hi hi' => hall i (Nat.le_trans hfg.grows hi) hi'
      · rw [opsFor_add, ← hidx] at hall
        exact Or.inr fun i hi hi' => hall i (by omega) (by omega)
    rcases hgk.exact hback with ⟨hlen', hidx'⟩
    rw [opsFor_add, ← hidx]
    refine ⟨by omega, ?_⟩
    rw [hidx', hidx, Nat.add_comm, Function.iterate_add_apply]

/-- An operation fails if and only if one of those that were to be issued does. -/
theorem Programs.allOk_iff {n : Nat} {f g : ExtSpiFlash} (h : Programs hw n f g) :
    AllOk hw f.ops.length g.ops.length ↔
      AllOk hw f.ops.length (f.ops.length + opsFor n f.pageIndex) := by
  constructor
  · intro hok
    rw [← (h.exact (Or.inl hok)).1]
    exact hok
  · intro hok
    rw [(h.exact (Or.inr hok)).1]
    exact hok

/-- One page, with the erase behind it. -/
theorem programs_onePage (data : List UInt8) (f : ExtSpiFlash) :
    Programs hw 1 f (bspSpiFlashWriteOnePage hw data f).2 := by
  have hcount : ∀ s : Nat, ¬ pageCount ≤ s % 65536 := by
    intro s
    have hlt := Nat.mod_lt s (show 0 < 65536 by decide)
    have hpages : pageCount = 131072 := rfl
    omega
  unfold bspSpiFlashWriteOnePage bspHwSpiFlashWritePage bspHwSpiFlashEraseSector issue
  dsimp only
  cases hprogram : hw f.ops.length with
  | false =>
      -- the page itself fails
      refine ⟨by simp, fun hok => ?_⟩
      have hfirst : hw f.ops.length = true := by
        rcases hok with hall | hall
        · exact hall _ (Nat.le_refl _) (by simp)
        · have hpos : 0 < opsFor 1 f.pageIndex := opsFor_pos 0 f.pageIndex
          exact hall _ (Nat.le_refl _) (by omega)
      exact absurd (hfirst.symm.trans hprogram) nofun
  | true =>
      rw [if_neg nofun]
      by_cases hfull : pagesInOneSector ≤ (f.pageIndex + 1) % 65536
      · rw [if_pos hfull, if_neg (hcount _)]
        have htwo : opsFor 1 f.pageIndex = 2 := by rw [opsFor, if_pos hfull, opsFor]
        have hidx : nextIndex^[1] f.pageIndex = 0 := by
          rw [Function.iterate_one, nextIndex, if_pos hfull]
        simp only [List.length_append, List.length_singleton]
        cases herase : hw (f.ops.length + 1) with
        | false =>
            rw [if_pos rfl]
            refine ⟨by simp, fun hok => ?_⟩
            have hsecond : hw (f.ops.length + 1) = true := by
              rw [htwo] at hok
              rcases hok with hall | hall
              · exact hall _ (by omega) (by simp)
              · exact hall _ (by omega) (by omega)
            exact absurd (hsecond.symm.trans herase) nofun
        | true =>
            rw [if_neg nofun]
            refine ⟨by simp, fun _ => ?_⟩
            rw [htwo, hidx]
            simp
      · have hone : opsFor 1 f.pageIndex = 1 := by rw [opsFor, if_neg hfull, opsFor]
        have hidx : nextIndex^[1] f.pageIndex = (f.pageIndex + 1) % 65536 := by
          rw [Function.iterate_one, nextIndex, if_neg hfull]
        rw [if_neg hfull]
        refine ⟨by simp, fun _ => ?_⟩
        rw [hone, hidx]
        simp

/-- A full page is written as one page. -/
theorem programs_writeData (data : List UInt8) (f : ExtSpiFlash) :
    Programs hw 1 f (bspSpiFlashWriteData hw data pageSize f).2 := by
  have hstate : (bspSpiFlashWriteData hw data pageSize f).2 =
      (bspSpiFlashWriteOnePage hw (data.take pageSize) f).2 := by
    have hcount : (pageSize + pageSize - 1) / pageSize = 0 + 1 := rfl
    have hmod : pageSize % pageSize = 0 := rfl
    simp only [bspSpiFlashWriteData, hcount, hmod, writePages, ne_eq, not_true_eq_false,
      and_false, if_false]
    split <;> split <;> rfl
  rw [hstate]
  exact programs_onePage _ f

/-- The full pages of the buffer are written one by one. -/
theorem programs_writeFullPages (n i : Nat) (f : ExtSpiFlash)
    (hbuf : (i + n) * pageSize ≤ f.bufWrite.length) :
    Programs hw n f (writeFullPages hw n i f).2 := by
  induction n generalizing i f with
  | zero => exact programs_zero rfl rfl
  | succ n ih =>
      have hdata : pageSize ≤ (f.bufWrite.drop (i * pageSize)).length := by
        rw [List.length_drop]
        simp only [pageSize] at hbuf ⊢
        omega
      have hpos :
          ¬ (bspSpiFlashWriteData hw (f.bufWrite.drop (i * pageSize)) pageSize f).1 < 0 := by
        rw [writeData_fullPage hw _ f hdata]
        decide
      have hsame := sameBuffer_writeData hw (f.bufWrite.drop (i * pageSize)) pageSize f
      have hpage := @programs_writeData hw (f.bufWrite.drop (i * pageSize)) f
      unfold writeFullPages
      simp only [if_neg hpos]
      rw [Nat.add_comm n 1]
      refine hpage.trans (ih (i + 1) _ ?_)
      rw [hsame.1, Nat.add_assoc, Nat.add_comm 1 n]
      exact hbuf

/-- The pages of a flush, of which the last one may be short. -/
theorem programs_writePages (left n : Nat) (data : List UInt8) (f : ExtSpiFlash)
    (hdata : (n - 1) * pageSize ≤ data.length) :
    Programs hw n f (writePages hw left n data f).2 := by
  induction n generalizing data f with
  | zero => exact programs_zero rfl rfl
  | succ n ih =>
      unfold writePages
      cases n with
      | zero =>
          -- what is said of the last page is of no effect
          dsimp only
          generalize data.take (if 0 = 0 ∧ left ≠ 0 then left else pageSize) = page
          have hpage := @programs_onePage hw page f
          by_cases hone : (bspSpiFlashWriteOnePage hw page f).1 = exitFailure
          · rw [if_pos hone]
            exact hpage
          · rw [if_neg hone]
            exact hpage
      | succ n =>
          have hpage := @programs_onePage hw (data.take pageSize) f
          have hlong : pageSize ≤ data.length := by
            have hps : pageSize = 256 := rfl
            rw [hps] at hdata ⊢
            omega
          have hlen : (data.take pageSize).length = 256 := List.length_take_of_le hlong
          have hne : (bspSpiFlashWriteOnePage hw (data.take pageSize) f).1 ≠ exitFailure := by
            intro h
            rcases writeOnePage_result hw (data.take pageSize) f with hr | hr
            · exact absurd (h.symm.trans hr) (by decide)
            · rw [h, hlen] at hr
              exact absurd hr (by decide)
          have hfull : ¬ (n + 1 = 0 ∧ left ≠ 0) := fun h => Nat.succ_ne_zero n h.1
          have hbehind : (n + 1 - 1) * pageSize ≤ (data.drop pageSize).length := by
            have hsplit : (n + 1 + 1 - 1) * pageSize = n * pageSize + pageSize :=
              Nat.succ_mul n pageSize
            rw [List.length_drop, Nat.add_sub_cancel]
            omega
          have hrest := ih (data.drop pageSize)
            (bspSpiFlashWriteOnePage hw (data.take pageSize) f).2 hbehind
          have hboth := hpage.trans hrest
          rw [Nat.add_comm 1 (n + 1)] at hboth
          dsimp only
          rw [if_neg hfull, if_neg hne]
          exact hboth

end Programs

/-- A flush programs the pages that are waiting. -/
theorem programs_flush (hw : Outcome) {f : ExtSpiFlash} (hf : Buffered f) :
    Programs hw ((f.leftBytesWrite + 255) / pageSize) f (bspSpiFlashFlush hw f).2 := by
  have hps : pageSize = 256 := rfl
  have hbl : bufLength = 1024 := rfl
  unfold bspSpiFlashFlush
  split
  · have hpages := @programs_writePages hw (f.leftBytesWrite % pageSize)
      ((f.leftBytesWrite + pageSize - 1) / pageSize) f.bufWrite f (by
        rw [hf.1]
        have hleft := hf.2
        simp only [hps, hbl] at hleft ⊢
        omega)
    have hcount : (f.leftBytesWrite + pageSize - 1) / pageSize =
        (f.leftBytesWrite + 255) / pageSize := rfl
    unfold bspSpiFlashWriteData
    rw [hcount] at hpages ⊢
    dsimp only
    split <;> exact hpages
  · rename_i hnone
    have hzero : (f.leftBytesWrite + 255) / pageSize = 0 := by
      simp only [hps]
      omega
    rw [hzero]
    exact programs_zero rfl rfl

/-- The buffer takes all of the chunk, or is full and the rest is left. -/
theorem fillBuffer_counts (data : DataPtr) (left index : Nat) (f : ExtSpiFlash)
    (hf : f.leftBytesWrite ≤ bufLength) (hleft : left < 65536) :
    let r := fillBuffer data left index f
    (r.1 = 0 ∧ r.2.2.leftBytesWrite = f.leftBytesWrite + left ∧
        f.leftBytesWrite + left < bufLength) ∨
      (r.1 + bufLength = f.leftBytesWrite + left ∧ r.2.2.leftBytesWrite = bufLength) := by
  have hbl : bufLength = 1024 := rfl
  unfold fillBuffer
  dsimp only
  split
  · rename_i hfits
    refine Or.inl ⟨rfl, ?_, hfits⟩
    dsimp only
    omega
  · refine Or.inr ⟨?_, rfl⟩
    dsimp only
    omega

/-- The loop programs every page that the buffer and the rest of the chunk fill. -/
theorem programs_writeLoop (hw : Outcome) (data : DataPtr) (fuel left index : Nat)
    (f : ExtSpiFlash) (hf : Buffered f)
    (hfuel : left + (if f.leftBytesWrite < bufLength then 1 else 2) ≤ fuel) (hleft : left < 65536) :
    Programs hw ((f.leftBytesWrite + left) / pageSize) f
      (writeLoop hw data fuel left index f).2 := by
  have hps : pageSize = 256 := rfl
  have hbl : bufLength = 1024 := rfl
  induction fuel generalizing left index f with
  | zero =>
      split at hfuel <;> omega
  | succ fuel ih =>
      have hfilled := buffered_fillBuffer data left index hf
      -- Filling the buffer programs nothing.
      have hkept : (fillBuffer data left index f).2.2.ops = f.ops ∧
          (fillBuffer data left index f).2.2.pageIndex = f.pageIndex := by
        unfold fillBuffer
        dsimp only
        split <;> exact ⟨rfl, rfl⟩
      have hcount := fillBuffer_counts data left index f hf.2 hleft
      unfold writeLoop
      generalize fillBuffer data left index f = filled at hfilled hkept hcount ⊢
      rcases filled with ⟨left', index', g⟩
      simp only at hfilled hkept hcount ⊢
      have hpages : g.leftBytesWrite / pageSize * pageSize ≤ g.leftBytesWrite :=
        Nat.div_mul_le_self _ _
      -- Whole pages of the buffer are written, and the rest is moved to its beginning.
      have hroom : (0 + g.leftBytesWrite / pageSize) * pageSize ≤ g.bufWrite.length := by
        rw [Nat.zero_add, hfilled.1]
        exact Nat.le_trans hpages hfilled.2
      rcases writeFullPages_succeeds hw (g.leftBytesWrite / pageSize) 0 g hroom with ⟨hok, hsame⟩
      have hmoved : Buffered (moveRemainder (g.leftBytesWrite / pageSize)
          (writeFullPages hw (g.leftBytesWrite / pageSize) 0 g).2) :=
        buffered_moveRemainder (hsame.buffered hfilled) (by rw [hsame.2]; exact hpages)
      -- the buffer is filled and its pages are written
      have hpass : Programs hw (g.leftBytesWrite / pageSize) f
          (moveRemainder (g.leftBytesWrite / pageSize)
            (writeFullPages hw (g.leftBytesWrite / pageSize) 0 g).2) := by
        have hfull := @programs_writeFullPages hw (g.leftBytesWrite / pageSize) 0 g hroom
        have hbefore := (@programs_zero hw _ _ hkept.1 hkept.2).trans hfull
        have hafter := hbefore.trans (@programs_zero hw _
          (moveRemainder (g.leftBytesWrite / pageSize)
            (writeFullPages hw (g.leftBytesWrite / pageSize) 0 g).2) rfl rfl)
        rwa [Nat.zero_add, Nat.add_zero] at hafter
      have hremain : (moveRemainder (g.leftBytesWrite / pageSize)
          (writeFullPages hw (g.leftBytesWrite / pageSize) 0 g).2).leftBytesWrite =
            g.leftBytesWrite - g.leftBytesWrite / pageSize * pageSize := by
        simp only [moveRemainder, hsame.2]
      rw [if_neg (by rw [hok]; exact Bool.false_ne_true.symm)]
      rcases hcount with ⟨hnone, hall, hfits⟩ | ⟨hrest, hfull⟩
      · -- nothing is left of the chunk
        rw [if_neg (by omega), ← hall]
        exact hpass
      · -- the buffer was full, so its four pages are written and nothing is in it
        have hfour : g.leftBytesWrite / pageSize = 4 := by
          rw [hfull]
          rfl
        rw [hfour] at hpass hremain ⊢
        have hempty : (moveRemainder 4 (writeFullPages hw 4 0 g).2).leftBytesWrite = 0 := by
          rw [hremain, hfull]
          rfl
        have hsum : (f.leftBytesWrite + left) / pageSize = 4 + left' / pageSize := by
          simp only [hps, hbl] at hrest ⊢
          omega
        rw [hsum]
        by_cases hmore : 0 < left'
        · rw [if_pos hmore]
          refine hpass.trans ?_
          have hgo := ih left' index' (moveRemainder 4 (writeFullPages hw 4 0 g).2) (by
            rw [hfour] at hmoved
            exact hmoved) (by
              rw [hempty, if_pos (by decide)]
              have hle := hf.2
              simp only [hbl] at hrest hfuel hle
              split at hfuel <;> omega) (by
              have hle := hf.2
              omega)
          rw [hempty, Nat.zero_add] at hgo
          exact hgo
        · have hzero : left' / pageSize = 0 := by
            simp only [hps]
            omega
          rw [if_neg hmore, hzero]
          exact hpass

/-- A write programs the pages that the buffer and the chunk fill. The size is cut to an
    unsigned short. -/
theorem programs_write (hw : Outcome) (data : DataPtr) (size : Nat) {f : ExtSpiFlash}
    (hf : Buffered f) :
    Programs hw ((f.leftBytesWrite + size % 65536) / pageSize) f
      (bspSpiFlashWrite hw data size f).2 := by
  have hloop := programs_writeLoop hw data (size % 65536 + 2) (size % 65536) 0 f hf
    (by split <;> omega) (Nat.mod_lt _ (by decide))
  unfold bspSpiFlashWrite
  dsimp only
  split <;> exact hloop

/-! ### What is reported -/

/-- An operation that was issued between two states has failed. -/
def Failed (hw : Outcome) (f g : ExtSpiFlash) : Prop :=
  ∃ n, f.ops.length ≤ n ∧ n < g.ops.length ∧ hw n = false

theorem not_failed_iff (hw : Outcome) (f g : ExtSpiFlash) :
    ¬ Failed hw f g ↔ AllOk hw f.ops.length g.ops.length := by
  constructor
  · intro h n hn hn'
    by_contra hfalse
    exact h ⟨n, hn, hn', by simpa using hfalse⟩
  · rintro h ⟨n, hn, hn', hfalse⟩
    exact absurd ((h n hn hn').symm.trans hfalse) nofun

variable {ρ : Type}

/-- A call that writes a chunk returns -1 exactly if one of its operations has failed, and
    the size of the chunk otherwise. A flush that could not program the last page says so. So
    an upload is told, and a copy stops. -/
structure FailuresReported (hw : UploadHw) (data : DataPtr) (size : Nat) (d : Device ρ) : Prop where
  write : (bspSpiFlashWrite hw.spi data size d.flash).1 = -1 ↔
    Failed hw.spi d.flash (bspSpiFlashWrite hw.spi data size d.flash).2
  stored : ¬ Failed hw.spi d.flash (bspSpiFlashWrite hw.spi data size d.flash).2 →
    (bspSpiFlashWrite hw.spi data size d.flash).1 = size
  flush : Failed hw.spi d.flash (bspSpiFlashFlush hw.spi d.flash).2 →
    ((bspSpiFlashFlush hw.spi d.flash).1 : Int) < 0
  upload : ∀ bytes, data = .mem bytes → size = bytes.length →
    Failed hw.spi d.flash (bspSpiFlashWrite hw.spi data size d.flash).2 →
      (extUploadWrite hw bytes d).1 ≠ size
  copy : ∀ (boot : BootHw) (st : BootState ρ) image fuel address total,
    boot.spi = hw.spi → total < image →
    issue hw.spi (.read address bufLength) st.flash = (true, d.flash) →
    data = .mem (readBytes boot st.flash.ops.length address bufLength) → size = bufLength →
    Failed hw.spi d.flash (bspSpiFlashWrite hw.spi data size d.flash).2 →
      fpgaLoop boot image (fuel + 1) address total st =
        some (0, { st with flash := (bspSpiFlashWrite hw.spi data size d.flash).2 })

/-- The first `n` pages that a state goes on with are stored, and the sectors behind them are
    erased. -/
def PagesOk (hw : Outcome) (f : ExtSpiFlash) (n : Nat) : Prop :=
  AllOk hw f.ops.length (f.ops.length + opsFor n f.pageIndex)

/-- No call reports a failure, so there must be none. -/
theorem pagesOk_of_reported {hw : UploadHw} {data : DataPtr} {size : Nat} {d : Device ρ}
    (h : FailuresReported hw data size d) :
    PagesOk hw.spi d.flash ((d.flash.leftBytesWrite + size % 65536) / pageSize) ∧
      PagesOk hw.spi d.flash ((d.flash.leftBytesWrite + 255) / pageSize) := by
  have hsize := (bspSpiFlashWrite_takes hw.spi data size d.flash d.buffered).1
  have hwrite : ¬ Failed hw.spi d.flash (bspSpiFlashWrite hw.spi data size d.flash).2 := by
    intro hfailed
    have hminus := h.write.mpr hfailed
    omega
  have hflush : ¬ Failed hw.spi d.flash (bspSpiFlashFlush hw.spi d.flash).2 := by
    intro hfailed
    have hnegative := h.flush hfailed
    omega
  rw [not_failed_iff] at hwrite hflush
  exact ⟨(programs_write hw.spi data size d.buffered).allOk_iff.mp hwrite,
    (programs_flush hw.spi d.buffered).allOk_iff.mp hflush⟩

/-- Failures are reported if and only if there are none: all the pages of the call are
    programmed and the sectors behind them erased, and so are those of a flush. -/
theorem failuresReported_iff (hw : UploadHw) (data : DataPtr) (size : Nat) (d : Device ρ) :
    FailuresReported hw data size d ↔
      PagesOk hw.spi d.flash ((d.flash.leftBytesWrite + size % 65536) / pageSize) ∧
        PagesOk hw.spi d.flash ((d.flash.leftBytesWrite + 255) / pageSize) := by
  constructor
  · exact pagesOk_of_reported
  · rintro ⟨hwrite, hflush⟩
    have hsize := (bspSpiFlashWrite_takes hw.spi data size d.flash d.buffered).1
    have hwritten := (programs_write hw.spi data size d.buffered).allOk_iff.mpr hwrite
    have hflushed := (programs_flush hw.spi d.buffered).allOk_iff.mpr hflush
    rw [← not_failed_iff] at hwritten hflushed
    exact {
      write := iff_of_false (by omega) hwritten
      stored := fun _ => hsize
      flush := fun hfailed => absurd hfailed hflushed
      upload := fun _ _ _ hfailed => absurd hfailed hwritten
      copy := fun _ _ _ _ _ _ _ _ _ _ _ hfailed => absurd hfailed hwritten }

/-- A page that cannot be programmed is reported as stored. -/
theorem not_failuresReported_failedPage :
    ¬ FailuresReported ⟨fun _ => false, fun _ => true⟩ (.mem (List.replicate 256 0)) 256
      FirmwareUpload.blankDevice := by
  intro h
  have hpage := (pagesOk_of_reported h).1
  have hfirst := hpage 0 (Nat.le_refl _) (by decide)
  exact absurd hfirst nofun

end Boot

end RtosLwip
