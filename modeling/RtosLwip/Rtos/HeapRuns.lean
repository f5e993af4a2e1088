import RtosLwip.Rtos.HeapBlocks

/-!
# Runs of the Heap

What the application may do, in any order: allocate, give back what it has, give
back nothing, and store into its memory, all of it from the state in which the
board starts. `Reachable` follows the heap through such a run, and beside it what
the application knows: its grants, what it has stored in them, and how many bytes
were free behind each call.

Whatever the run, the heap stands for free blocks and for the blocks of the grants
(`Reachable.sound`). From this come the properties that the application relies on.
An allocation fails only when no stretch of the heap that nobody has is large
enough; the hook then stops the board, and there is no other way in which a call
does not return. Grants are apart, and hold what was stored in them.

## Main definitions

* `Grant`, `App`: Memory that the application was given; what it knows.
* `Reachable`: The runs.
* `Fits`: A stretch of the heap that nobody has is large enough.

## Theorems

* `Reachable.sound`: What the heap stands for in every run.
* `pvPortMalloc_outcome`: When an allocation returns, and when the board stops.
* `heap_isolation`: The application's memory is its own.
* `vPortFree_joins`: Giving memory back never fails, and joins what it can.
* `heap_counters`: What the counters say.
-/

namespace RtosLwip

namespace Rtos

/-- Memory that the application was given: the block, and how many bytes it asked for. -/
@[ext]
structure Grant where
  block : Extent
  wanted : Nat
  deriving DecidableEq

/-- The pointer that the application has. -/
def Grant.pv (g : Grant) : Nat := g.block.start + xHeapStructSize

/-- A cell of the memory that the application asked for. -/
def Grant.Owns (g : Grant) (a : Nat) : Prop := g.pv ≤ a ∧ a < g.pv + g.wanted

instance (g : Grant) (a : Nat) : Decidable (g.Owns a) := inferInstanceAs (Decidable (_ ∧ _))

/-- What the application knows. -/
structure App where
  held : List Grant
  stored : Nat → Option BlockLink
  history : List Nat

/-- The block of a pointer that was returned, as its header has it. -/
def Heap.blockAt (h : Heap) (pv : Nat) : Extent :=
  ⟨pv - xHeapStructSize,
    (h.link (pv - xHeapStructSize)).xBlockSize &&& complement h.xBlockAllocatedBit⟩

/-- The application stores something in a cell. -/
def Heap.store (h : Heap) (a : Nat) (v : BlockLink) : Heap :=
  { h with link := Function.update h.link a v }

/-- The states of the heap, and what the application knows in them. -/
inductive Reachable (L : Layout) : Heap → App → Prop where
  | boot (link : Nat → BlockLink) : Reachable L (Heap.zero link) ⟨[], fun _ => none, []⟩
  | malloc {h h' : Heap} {app : App} {n : UInt32} {pv : Nat} (hr : Reachable L h app)
      (hcall : pvPortMalloc L h n = .ok (pv, h')) :
      Reachable L h' ⟨⟨h'.blockAt pv, n.toNat⟩ :: app.held, app.stored,
        xPortGetFreeHeapSize h' :: app.history⟩
  | free {h h' : Heap} {app : App} {g : Grant} (hr : Reachable L h app) (hg : g ∈ app.held)
      (hcall : vPortFree L h g.pv = .ok h') :
      Reachable L h' ⟨app.held.erase g, fun a => if g.Owns a then none else app.stored a,
        xPortGetFreeHeapSize h' :: app.history⟩
  | freeNull {h h' : Heap} {app : App} (hr : Reachable L h app)
      (hcall : vPortFree L h 0 = .ok h') : Reachable L h' app
  | store {h : Heap} {app : App} {g : Grant} {a : Nat} (v : BlockLink) (hr : Reachable L h app)
      (hg : g ∈ app.held) (hown : g.Owns a) (halign : a % portByteAlignment = 0) :
      Reachable L (h.store a v) ⟨app.held, Function.update app.stored a (some v), app.history⟩

/-- The heap as the first call finds it. -/
def started (L : Layout) (h : Heap) : Heap := if h.pxEnd = 0 then prvHeapInit L h else h

/-- What is true of the heap, and of what the application knows. -/
structure Sound (L : Layout) (h : Heap) (app : App) (free : List Extent) : Prop where
  represents : Represents L (started L h) free (app.held.map Grant.block)
  sizes : ∀ g ∈ app.held, g.wanted + 8 ≤ g.block.size ∧ g.block.size ≤ g.wanted + 31
  fresh : h.pxEnd = 0 → app.held = [] ∧ app.history = []
  stored : ∀ a v, app.stored a = some v → h.link a = v ∧ ∃ g ∈ app.held, g.Owns a
  minimum : (started L h).xMinimumEverFreeBytesRemaining =
    app.history.foldr min (L.last - L.first)
  least : (started L h).xMinimumEverFreeBytesRemaining ≤ (started L h).xFreeBytesRemaining

/-- A stretch of the heap that nobody has is large enough for a request. -/
def Fits (L : Layout) (held : List Grant) (n : Nat) : Prop :=
  0 < n ∧ n < 2 ^ 31 ∧ ∃ z : Extent, z.size = blockSize n ∧ z.Within L.first L.last ∧
    ∀ g ∈ held, z.Apart g.block

theorem started_of_pxEnd {L : Layout} {h : Heap} (hend : h.pxEnd ≠ 0) : started L h = h :=
  if_neg hend

@[simp] theorem pxEnd_prvHeapInit_ne_zero (L : Layout) (h : Heap) :
    (prvHeapInit L h).pxEnd ≠ 0 := by
  rw [(prvHeapInit_spec L h).1.pxEnd]
  have hlay := layout_facts L
  omega

theorem pxEnd_started_ne_zero (L : Layout) (h : Heap) : (started L h).pxEnd ≠ 0 := by
  unfold started
  split
  case isTrue => exact pxEnd_prvHeapInit_ne_zero L h
  case isFalse hne => exact hne

/-- The first call sets the list up. -/
theorem allocate_started (L : Layout) (h : Heap) (n : Nat) :
    allocate L h n = allocate L (started L h) n := by
  have hsame : (if (started L h).pxEnd = 0 then prvHeapInit L (started L h) else started L h) =
      (if h.pxEnd = 0 then prvHeapInit L h else h) := if_neg (pxEnd_started_ne_zero L h)
  unfold allocate
  rw [hsame]

namespace Sound

variable {L : Layout} {h : Heap} {app : App} {free : List Extent}

/-- What the application asked for is in its block, behind the header. -/
theorem owns_has (hs : Sound L h app free) {g : Grant} (hg : g ∈ app.held) {a : Nat}
    (ha : g.Owns a) : g.block.Has a ∧ a ≠ g.block.start := by
  have hsize := hs.sizes g hg
  simp only [Grant.Owns, Grant.pv, xHeapStructSize_eq] at ha
  simp only [Extent.Has, Extent.stop]
  omega

/-- A cell of a grant is neither in a free block nor in another grant's, nor a variable of the
    heap. -/
theorem owns_apart (hs : Sound L h app free) {g : Grant} (hg : g ∈ app.held) {a : Nat}
    (ha : g.Owns a) : a ≠ L.xStart ∧ a ≠ L.last ∧ (∀ y ∈ free, ¬ y.Has a) ∧
      ∀ g' ∈ app.held, a ≠ g'.block.start ∧ (g'.block.Has a → g'.block = g.block) := by
  obtain ⟨hhas, hne⟩ := hs.owns_has hg ha
  have hmem : g.block ∈ app.held.map Grant.block := List.mem_map_of_mem hg
  have hin := hs.represents.ledger.within_live hmem
  have hlay := layout_facts L
  simp only [Extent.Has, Extent.Within, Extent.stop] at hhas hin
  refine ⟨by omega, by omega, fun y hy hyhas => ?_, fun g' hg' => ?_⟩
  · have hapart := hs.represents.ledger.apart y hy _ hmem
    simp only [Extent.Apart, Extent.Has, Extent.stop] at hapart hyhas
    omega
  · have hmem' : g'.block ∈ app.held.map Grant.block := List.mem_map_of_mem hg'
    have hpos' := hs.represents.ledger.positive_live hmem'
    by_cases heq : g'.block = g.block
    · rw [heq]
      exact ⟨hne, fun _ => rfl⟩
    · have hsymm : Std.Symm Extent.Apart := ⟨fun _ _ => Extent.Apart.symm⟩
      have hapart := List.Pairwise.forall hs.represents.ledger.live_apart hmem' hmem heq
      simp only [Extent.Apart, Extent.Has, Extent.stop] at hapart ⊢
      refine ⟨by omega, fun hhas' => ?_⟩
      omega

/-- There is room exactly if a free block is large enough. -/
theorem fits_iff (hs : Sound L h app free) (n : Nat) :
    Fits L app.held n ↔ 0 < n ∧ n < 2 ^ 31 ∧ ∃ x ∈ free, blockSize n ≤ x.size := by
  refine and_congr_right fun hn => and_congr_right fun hlt => ?_
  have hsize := blockSize_spec hn hlt
  constructor
  · rintro ⟨z, hz, hin, hapart⟩
    obtain ⟨x, hx, hx1, hx2⟩ := hs.represents.ledger.free_of_apart (z := z) (by omega) hin (by
      intro y hy
      obtain ⟨g, hg, rfl⟩ := List.mem_map.mp hy
      exact hapart g hg)
    refine ⟨x, hx, ?_⟩
    simp only [Extent.stop] at hx2
    omega
  · rintro ⟨x, hx, hle⟩
    have hin := hs.represents.ledger.within_free hx
    refine ⟨⟨x.start, blockSize n⟩, rfl, ?_, fun g hg => ?_⟩
    · simp only [Extent.Within, Extent.stop] at hin ⊢
      omega
    · have hapart := hs.represents.ledger.apart x hx _ (List.mem_map_of_mem hg)
      simp only [Extent.Apart, Extent.stop] at hapart ⊢
      omega

/-- Two grants have different blocks. -/
theorem eq_of_block (hs : Sound L h app free) {g g' : Grant} (hg : g ∈ app.held)
    (hg' : g' ∈ app.held) (hblock : g.block = g'.block) : g = g' := by
  by_contra hne
  have hsymm : Std.Symm fun g g' : Grant => g.block.Apart g'.block :=
    ⟨fun _ _ => Extent.Apart.symm⟩
  have hpairs : app.held.Pairwise fun g g' => g.block.Apart g'.block :=
    List.pairwise_map.mp hs.represents.ledger.live_apart
  have hapart := List.Pairwise.forall hpairs hg hg' hne
  have hpos := hs.represents.ledger.positive_live (List.mem_map_of_mem hg)
  rw [← hblock] at hapart
  simp only [Extent.Apart, Extent.stop] at hapart
  omega

/-- Once the application has something, the list has been set up. -/
theorem started_eq (hs : Sound L h app free) {g : Grant} (hg : g ∈ app.held) :
    started L h = h := by
  refine started_of_pxEnd fun hend => ?_
  rw [(hs.fresh hend).1] at hg
  exact absurd hg List.not_mem_nil

/-- When nothing fits, the hook stops the board. -/
theorem malloc_of_not_fits (hs : Sound L h app free) {n : UInt32}
    (hfits : ¬ Fits L app.held n.toNat) : pvPortMalloc L h n = .error .mallocFailedHook := by
  have hn : n.toNat < 2 ^ 32 := n.toNat_lt
  have hsmall : n.toNat = 0 ∨ 2 ^ 31 ≤ n.toNat ∨ ∀ x ∈ free, x.size < blockSize n.toNat := by
    rw [hs.fits_iff] at hfits
    by_contra hcon
    refine hfits ⟨by omega, by omega, ?_⟩
    by_contra hnone
    refine hcon (.inr (.inr fun x hx => ?_))
    by_contra hge
    exact hnone ⟨x, hx, Nat.le_of_not_lt hge⟩
  unfold pvPortMalloc
  rw [allocate_started, hs.represents.allocate_of_small hn hsmall]
  rfl

/-- When there is room, a block is handed out. -/
theorem malloc_of_fits (hs : Sound L h app free) {n : UInt32} (hfits : Fits L app.held n.toNat) :
    ∃ b rest h', pvPortMalloc L h n = .ok (b.start + 8, h') ∧ h'.blockAt (b.start + 8) = b ∧
      Sound L h' ⟨⟨b, n.toNat⟩ :: app.held, app.stored, h'.xFreeBytesRemaining :: app.history⟩
        rest := by
  obtain ⟨hn, hlt, hlarge⟩ := (hs.fits_iff _).mp hfits
  obtain ⟨hb1, hb2, -⟩ := blockSize_spec hn hlt
  obtain ⟨b, rest, h', hle, hge, -, hcall, hrep, hmin, hframe⟩ :=
    hs.represents.allocate_of_large hn hlt hlarge
  have hbmem : b ∈ rest ++ b :: app.held.map Grant.block :=
    List.mem_append_right rest List.mem_cons_self
  have halign := hrep.aligned b hbmem
  have hheader := hrep.header b List.mem_cons_self
  have hend' : h'.pxEnd ≠ 0 := by
    rw [hrep.pxEnd]
    have hlay := layout_facts L
    omega
  refine ⟨b, rest, h', ?_, ?_, ?_⟩
  · unfold pvPortMalloc
    have hmask : (b.start + 8) &&& portByteAlignmentMask = 0 := by
      rw [and_mask]
      omega
    rw [allocate_started, hcall]
    simp only [bind, Except.bind, configAssert, hmask, decide_true, if_true]
    rfl
  · have hsub : b.start + 8 - xHeapStructSize = b.start := Nat.add_sub_cancel _ _
    unfold Heap.blockAt
    rw [hsub, hheader, hrep.bit, and_complement_allocated (hrep.place hbmem).2.2.2.2]
  · rw [← started_of_pxEnd (L := L) hend'] at hrep
    refine ⟨hrep, ?_, fun h0 => absurd h0 hend', ?_, ?_, ?_⟩
    · refine List.forall_mem_cons.mpr ⟨?_, hs.sizes⟩
      dsimp only
      omega
    · -- what was stored is in grants, and so are not the cells that change
      intro a v hav
      obtain ⟨hlink, g, hg, hown⟩ := hs.stored a v hav
      obtain ⟨h1, -, h3, -⟩ := hs.owns_apart hg hown
      rw [hs.started_eq hg] at hframe
      exact ⟨(hframe a h1 h3).trans hlink, g, List.mem_cons_of_mem _ hg, hown⟩
    · rw [started_of_pxEnd hend', hmin, hs.minimum, List.foldr_cons, min_comm]
    · rw [started_of_pxEnd hend', hmin]
      exact Nat.min_le_right _ _

/-- A grant is given back. -/
theorem giveBack (hs : Sound L h app free) {g : Grant} (hg : g ∈ app.held) :
    ∃ h', vPortFree L h g.pv = .ok h' ∧
      Sound L h' ⟨app.held.erase g, fun a => if g.Owns a then none else app.stored a,
        h'.xFreeBytesRemaining :: app.history⟩ (Extent.insert g.block free) := by
  have hst := hs.started_eq hg
  have hperm : (g.block :: (app.held.erase g).map Grant.block).Perm
      (app.held.map Grant.block) := (List.perm_cons_erase hg).symm.map Grant.block
  have hrep := hs.represents.perm hperm
  rw [hst] at hrep
  obtain ⟨h', hcall, hrep', hmin, hframe⟩ := hrep.vPortFree_spec
  have hend' : h'.pxEnd ≠ 0 := by
    rw [hrep'.pxEnd]
    have hlay := layout_facts L
    omega
  -- there is more free than before
  have hle : h.xMinimumEverFreeBytesRemaining ≤ h'.xFreeBytesRemaining := by
    have hleast := hs.least
    rw [hst, hrep.bytes] at hleast
    rw [hrep'.bytes, Extent.total_insert]
    omega
  rw [← started_of_pxEnd (L := L) hend'] at hrep'
  refine ⟨h', hcall, hrep', fun g' hg' => hs.sizes g' (List.mem_of_mem_erase hg'),
    fun h0 => absurd h0 hend', ?_, ?_, ?_⟩
  · intro a v hav
    dsimp only at hav
    split at hav
    case isTrue => exact absurd hav.symm (Option.some_ne_none v)
    case isFalse hnot =>
      obtain ⟨hlink, g', hg', hown⟩ := hs.stored a v hav
      obtain ⟨h1, -, h3, h4⟩ := hs.owns_apart hg' hown
      -- the cell is of another grant than the one that goes
      have hne : g' ≠ g := by
        rintro rfl
        exact hnot hown
      refine ⟨(hframe a h1 (fun hhas => ?_) h3).trans hlink, g',
        (List.mem_erase_of_ne hne).mpr hg', hown⟩
      exact hne (hs.eq_of_block hg' hg ((h4 g hg).2 hhas).symm)
  · rw [started_of_pxEnd hend', hmin, List.foldr_cons, ← hs.minimum, hst]
    exact (Nat.min_eq_right hle).symm
  · rw [started_of_pxEnd hend', hmin]
    exact hle

/-- The application stores something in a grant. -/
theorem store (hs : Sound L h app free) {g : Grant} (hg : g ∈ app.held) {a : Nat}
    (hown : g.Owns a) (v : BlockLink) :
    Sound L (h.store a v) ⟨app.held, Function.update app.stored a (some v), app.history⟩ free := by
  have hst := hs.started_eq hg
  have hst' : started L (h.store a v) = h.store a v := by
    refine started_of_pxEnd fun hend => ?_
    have hnil := (hs.fresh hend).1
    rw [hnil] at hg
    exact absurd hg List.not_mem_nil
  obtain ⟨h1, h2, h3, h4⟩ := hs.owns_apart hg hown
  have hrep := hs.represents
  rw [hst] at hrep
  have hne : ∀ y ∈ free, y.start ≠ a := by
    rintro y hy rfl
    have hpos := hrep.ledger.positive_free hy
    refine h3 y hy ⟨Nat.le_refl _, ?_⟩
    simp only [Extent.stop]
    omega
  refine ⟨?_, hs.sizes, hs.fresh, ?_, ?_, ?_⟩
  · rw [hst']
    refine ⟨hrep.ledger, hrep.list.congr (fun y hy => ?_) ?_ ?_, fun y hy => ?_, hrep.aligned,
      hrep.bytes, hrep.pxEnd, hrep.bit⟩
    · exact Function.update_of_ne (hne y hy) v h.link
    · exact Function.update_of_ne h1.symm v h.link
    · exact Function.update_of_ne h2.symm v h.link
    · obtain ⟨g', hg', rfl⟩ := List.mem_map.mp hy
      exact (Function.update_of_ne (h4 g' hg').1.symm v h.link).trans (hrep.header _ hy)
  · intro b w hbw
    dsimp only [Heap.store] at hbw ⊢
    by_cases hba : b = a
    · subst hba
      rw [Function.update_self] at hbw ⊢
      exact ⟨Option.some.inj hbw, g, hg, hown⟩
    · rw [Function.update_of_ne hba] at hbw ⊢
      exact hs.stored b w hbw
  · rw [hst']
    have hmin := hs.minimum
    rw [hst] at hmin
    exact hmin
  · rw [hst']
    have hleast := hs.least
    rw [hst] at hleast
    exact hleast

end Sound

/-- Whatever the application does, the heap stands for free blocks and for those of the grants. -/
theorem Reachable.sound {L : Layout} {h : Heap} {app : App} (hr : Reachable L h app) :
    ∃ free, Sound L h app free := by
  induction hr with
  | boot link =>
      have hst : started L (Heap.zero link) = prvHeapInit L (Heap.zero link) := if_pos rfl
      obtain ⟨hrep, hmin⟩ := prvHeapInit_spec L (Heap.zero link)
      rw [← hst] at hrep hmin
      refine ⟨_, hrep, List.forall_mem_nil _, fun _ => ⟨rfl, rfl⟩, ?_, hmin, ?_⟩
      · intro a v hav
        exact absurd hav.symm (Option.some_ne_none v)
      · rw [hmin, hrep.bytes]
        simp
  | @malloc h h' app n pv hr hcall ih =>
      obtain ⟨free, hs⟩ := ih
      by_cases hfits : Fits L app.held n.toNat
      · obtain ⟨b, rest, h₁, hcall₁, hblock, hs₁⟩ := hs.malloc_of_fits hfits
        rw [hcall] at hcall₁
        obtain ⟨rfl, rfl⟩ := Prod.mk.inj (Except.ok.inj hcall₁)
        refine ⟨rest, ?_⟩
        rw [hblock]
        exact hs₁
      · rw [hs.malloc_of_not_fits hfits] at hcall
        cases hcall
  | @free h h' app g hr hg hcall ih =>
      obtain ⟨free, hs⟩ := ih
      obtain ⟨h₁, hcall₁, hs₁⟩ := hs.giveBack hg
      rw [hcall] at hcall₁
      obtain rfl := Except.ok.inj hcall₁
      exact ⟨_, hs₁⟩
  | @freeNull h h' app hr hcall ih =>
      obtain ⟨free, hs⟩ := ih
      have hnull : vPortFree L h 0 = .ok h := rfl
      rw [hnull] at hcall
      obtain rfl := Except.ok.inj hcall
      exact ⟨free, hs⟩
  | @store h app g a v hr hg hown halign ih =>
      obtain ⟨free, hs⟩ := ih
      exact ⟨free, hs.store hg hown v⟩

/-- An allocation returns exactly if somewhere in the heap there is a stretch that nobody has and
    that is large enough. Otherwise the hook stops the board, and there is no other way in which
    a call does not return. -/
theorem pvPortMalloc_outcome {L : Layout} {h : Heap} {app : App} (hr : Reachable L h app)
    (n : UInt32) :
    (Fits L app.held n.toNat → ∃ pv h', pvPortMalloc L h n = .ok (pv, h')) ∧
      (¬ Fits L app.held n.toNat → pvPortMalloc L h n = .error .mallocFailedHook) := by
  obtain ⟨free, hs⟩ := hr.sound
  constructor
  · intro hfits
    obtain ⟨b, rest, h', hcall, -, -⟩ := hs.malloc_of_fits hfits
    exact ⟨b.start + 8, h', hcall⟩
  · exact hs.malloc_of_not_fits

/-- A heap in the first bank of the internal memory. -/
def internalRam : Layout := ⟨0x20400000, 0x20420000, by decide, by decide, .inr (by decide)⟩

/-- The first allocation of the board returns. -/
theorem pvPortMalloc_outcome_boot :
    ∃ pv h', pvPortMalloc internalRam (Heap.zero fun _ => ⟨0, 0⟩) 100 = .ok (pv, h') :=
  (pvPortMalloc_outcome (.boot _) 100).1 ⟨by decide, by decide, ⟨internalRam.first, blockSize 100⟩,
    rfl, ⟨Nat.le_refl _, by decide⟩, List.forall_mem_nil _⟩

/-- The application has got something, and nothing is stored in it yet. -/
theorem exists_grant : ∃ h b, Reachable internalRam h
    ⟨[⟨b, 100⟩], fun _ => none, [xPortGetFreeHeapSize h]⟩ := by
  obtain ⟨free, hs⟩ := (Reachable.boot (L := internalRam) fun _ => ⟨0, 0⟩).sound
  have hfits : Fits internalRam [] (100 : UInt32).toNat :=
    ⟨by decide, by decide, ⟨internalRam.first, blockSize 100⟩, rfl, ⟨Nat.le_refl _, by decide⟩,
      List.forall_mem_nil _⟩
  obtain ⟨b, rest, h', hcall, hblock, -⟩ := hs.malloc_of_fits hfits
  have hr := Reachable.malloc (.boot _) hcall
  rw [hblock] at hr
  exact ⟨h', b, hr⟩

/-- What the application has is aligned and in the heap, no two grants share a byte, and a cell
    reads as what was stored in it last. -/
theorem heap_isolation {L : Layout} {h : Heap} {app : App} (hr : Reachable L h app) :
    (∀ g ∈ app.held, g.pv % portByteAlignment = 0 ∧ L.ucHeap + xHeapStructSize ≤ g.pv ∧
      g.pv + g.wanted ≤ L.ucHeap + configTotalHeapSize) ∧
    (app.held.Pairwise fun g g' => g.pv + g.wanted ≤ g'.pv ∨ g'.pv + g'.wanted ≤ g.pv) ∧
    ∀ a v, app.stored a = some v → h.link a = v := by
  obtain ⟨free, hs⟩ := hr.sound
  have hlay := layout_facts L
  refine ⟨fun g hg => ?_, ?_, fun a v hav => (hs.stored a v hav).1⟩
  · have hmem : g.block ∈ free ++ app.held.map Grant.block :=
      List.mem_append_right free (List.mem_map_of_mem hg)
    have halign := hs.represents.aligned _ hmem
    have hin := hs.represents.ledger.within _ hmem
    have hsize := hs.sizes g hg
    simp only [Extent.Within, Extent.stop] at hin
    simp only [Grant.pv, xHeapStructSize_eq, portByteAlignment]
    omega
  · have hpairs : app.held.Pairwise fun g g' => g.block.Apart g'.block :=
      List.pairwise_map.mp hs.represents.ledger.live_apart
    refine hpairs.imp_of_mem fun {g g'} hg hg' hapart => ?_
    have hsize := hs.sizes g hg
    have hsize' := hs.sizes g' hg'
    simp only [Extent.Apart, Extent.stop] at hapart
    simp only [Grant.pv, xHeapStructSize_eq]
    omega

/-- What is stored in a grant is read back. -/
theorem heap_isolation_store : ∃ h g, Reachable internalRam h
    ⟨[g], Function.update (fun _ => none) g.pv (some ⟨1, 2⟩), [xPortGetFreeHeapSize h]⟩ ∧
      h.link g.pv = ⟨1, 2⟩ := by
  obtain ⟨h, b, hr⟩ := exists_grant
  have hmem : (⟨b, 100⟩ : Grant) ∈ [(⟨b, 100⟩ : Grant)] := List.mem_cons_self
  have hown : (⟨b, 100⟩ : Grant).Owns (⟨b, 100⟩ : Grant).pv :=
    ⟨Nat.le_refl _, Nat.lt_add_of_pos_right (Nat.succ_pos 99)⟩
  have hr' := Reachable.store ⟨1, 2⟩ hr hmem hown ((heap_isolation hr).1 _ hmem).1
  exact ⟨_, _, hr', (heap_isolation hr').2.2 _ _ (Function.update_self _ _ _)⟩

/-- Giving a grant back always returns: its header passes both assertions. No two free blocks ever
    touch, and when everything was given back the heap is one free block again. -/
theorem vPortFree_joins {L : Layout} {h : Heap} {app : App} (hr : Reachable L h app) :
    (∀ g ∈ app.held, ∃ h', vPortFree L h g.pv = .ok h') ∧
    (h.pxEnd ≠ 0 → Extent.Gapped (freeBlocks L h) ∧
      (app.held = [] → freeBlocks L h = [⟨L.first, L.last - L.first⟩])) := by
  obtain ⟨free, hs⟩ := hr.sound
  constructor
  · intro g hg
    obtain ⟨h', hcall, -⟩ := hs.giveBack hg
    exact ⟨h', hcall⟩
  · intro hend
    have hrep := hs.represents
    rw [started_of_pxEnd hend] at hrep
    rw [hrep.freeBlocks_eq]
    refine ⟨hrep.ledger.gapped, fun hheld => ?_⟩
    have hledger := hrep.ledger
    rw [hheld, List.map_nil] at hledger
    exact hledger.all_free (layout_facts L).2.1

/-- The first grant is given back. -/
theorem vPortFree_joins_grant : ∃ h g h', Reachable internalRam h
    ⟨[g], fun _ => none, [xPortGetFreeHeapSize h]⟩ ∧ vPortFree internalRam h g.pv = .ok h' := by
  obtain ⟨h, b, hr⟩ := exists_grant
  obtain ⟨h', hcall⟩ := (vPortFree_joins hr).1 _ List.mem_cons_self
  exact ⟨h, _, h', hr, hcall⟩

/-- The counter of free bytes is what is in the free blocks, and with the blocks of the grants it
    makes up the heap. The other counter is the least that was ever free. A grant takes at most 31
    bytes more than what was asked for. -/
theorem heap_counters {L : Layout} {h : Heap} {app : App} (hr : Reachable L h app)
    (hend : h.pxEnd ≠ 0) :
    xPortGetFreeHeapSize h = Extent.total (freeBlocks L h) ∧
    xPortGetFreeHeapSize h + Extent.total (app.held.map Grant.block) = L.last - L.first ∧
    xPortGetMinimumEverFreeHeapSize h = app.history.foldr min (L.last - L.first) ∧
    ∀ g ∈ app.held, g.wanted + 8 ≤ g.block.size ∧ g.block.size ≤ g.wanted + 31 := by
  obtain ⟨free, hs⟩ := hr.sound
  have hrep := hs.represents
  have hmin := hs.minimum
  rw [started_of_pxEnd hend] at hrep hmin
  rw [hrep.freeBlocks_eq]
  refine ⟨hrep.bytes, ?_, hmin, hs.sizes⟩
  have hbytes : xPortGetFreeHeapSize h = Extent.total free := hrep.bytes
  rw [hbytes]
  exact hrep.ledger.total

/-- The counters behind the first allocation. -/
theorem heap_counters_grant : ∃ h b, Reachable internalRam h
    ⟨[⟨b, 100⟩], fun _ => none, [xPortGetFreeHeapSize h]⟩ ∧
      xPortGetFreeHeapSize h + b.size = 40952 := by
  obtain ⟨h, b, hr⟩ := exists_grant
  have hend : h.pxEnd ≠ 0 := by
    obtain ⟨free, hs⟩ := hr.sound
    exact fun h0 => List.cons_ne_nil _ _ (hs.fresh h0).1
  exact ⟨h, b, hr, (heap_counters hr hend).2.1⟩

end Rtos

end RtosLwip
