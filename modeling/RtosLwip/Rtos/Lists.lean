import Mathlib.Data.Fintype.Basic
import Mathlib.Data.List.Induction
import Mathlib.Data.List.TakeWhile
import RtosLwip.Base.Answers
import RtosLwip.Base.Circular

/-!
# The Lists of the Kernel

`list.c`: the lists that the scheduler keeps its tasks in. A list is circular and
linked both ways, with an end mark among its items, and any number of lists share the
items, each of which is in one of them or in none. An item knows the list it is in, a
list knows how many items it has, and an index goes around the list and stays on an item
that is there.

`Contents` says what the lists are for: sequences of items, each with a cursor. The
functions of `list.c` do to the links what the operations on the contents say, as long as
an item is only put into a list while it is in none, and only taken out of a list it is in.

The end mark has the greatest value there is. An item with the same value is put in
front of the mark without a search, since the search would not stop.

## Main definitions

* `Lists`: The links, the values and the lists' own data.
* `vListInsertEnd`, `vListInsert`, `uxListRemove`, `getOwnerOfNextEntry`: The functions.
* `Contents`: Sequences with cursors, and the operations on them.
* `Holds`: The links are those of some contents.

## Theorems

* `Holds.insertEnd`, `Holds.insert`, `Holds.remove`, `Holds.advance`: What the functions do.
* `lists_refine`: Runs of the functions follow the contents.
-/

namespace RtosLwip

namespace Rtos

/-- `portMAX_DELAY` -/
def portMaxDelay : UInt32 := 0xffffffff

/-- What a link may lead to: the end mark of a list, or an item. -/
inductive Node (κ ι : Type) where
  | mark (l : κ)
  | item (i : ι)
  deriving DecidableEq

/-- `List_t` and `ListItem_t`, for all lists and items. -/
structure Lists (κ ι : Type) where
  pxNext : Node κ ι → Node κ ι
  pxPrevious : Node κ ι → Node κ ι
  xItemValue : Node κ ι → UInt32
  pvContainer : ι → Option κ
  pxIndex : κ → Node κ ι
  uxNumberOfItems : κ → Nat

section Functions

variable {κ ι : Type} [DecidableEq κ] [DecidableEq ι]

namespace Lists

/-- `vListInitialise` and `vListInitialiseItem`, for all lists and items. -/
def initialise (values : ι → UInt32) : Lists κ ι where
  pxNext n := n
  pxPrevious n := n
  xItemValue
    | .mark _ => portMaxDelay
    | .item i => values i
  pvContainer _ := none
  pxIndex l := .mark l
  uxNumberOfItems _ := 0

/-- `listSET_LIST_ITEM_VALUE` -/
def setListItemValue (s : Lists κ ι) (i : ι) (value : UInt32) : Lists κ ι :=
  { s with xItemValue := Function.update s.xItemValue (.item i) value }

/-- `vListInsertEnd` -/
def vListInsertEnd (s : Lists κ ι) (l : κ) (i : ι) : Lists κ ι :=
  let index := s.pxIndex l
  let s := { s with
    pxNext := Function.update s.pxNext (.item i) index
    pxPrevious := Function.update s.pxPrevious (.item i) (s.pxPrevious index) }
  { s with
    pxNext := Function.update s.pxNext (s.pxPrevious index) (.item i)
    pxPrevious := Function.update s.pxPrevious index (.item i)
    pvContainer := Function.update s.pvContainer i (some l)
    uxNumberOfItems := Function.update s.uxNumberOfItems l (s.uxNumberOfItems l + 1) }

/-- The loop of `vListInsert`. -/
def insertionPoint (s : Lists κ ι) (value : UInt32) : Nat → Node κ ι → Option (Node κ ι)
  | 0, _ => none
  | fuel + 1, iterator =>
    if s.xItemValue (s.pxNext iterator) ≤ value then
      insertionPoint s value fuel (s.pxNext iterator)
    else
      some iterator

/-- Where `vListInsert` puts an item in: the greatest value is at the end. -/
def insertIterator (s : Lists κ ι) (l : κ) (i : ι) : Option (Node κ ι) :=
  if s.xItemValue (.item i) = portMaxDelay then
    some (s.pxPrevious (.mark l))
  else
    s.insertionPoint (s.xItemValue (.item i)) (s.uxNumberOfItems l + 1) (.mark l)

/-- `vListInsert` behind the loop. -/
def insertBehind (s : Lists κ ι) (l : κ) (i : ι) (iterator : Node κ ι) : Lists κ ι :=
  let s := { s with pxNext := Function.update s.pxNext (.item i) (s.pxNext iterator) }
  let s := { s with
    pxPrevious := Function.update s.pxPrevious (s.pxNext (.item i)) (.item i) }
  { s with
    pxPrevious := Function.update s.pxPrevious (.item i) iterator
    pxNext := Function.update s.pxNext iterator (.item i)
    pvContainer := Function.update s.pvContainer i (some l)
    uxNumberOfItems := Function.update s.uxNumberOfItems l (s.uxNumberOfItems l + 1) }

/-- `vListInsert` -/
def vListInsert (s : Lists κ ι) (l : κ) (i : ι) : Option (Lists κ ι) :=
  (s.insertIterator l i).map (s.insertBehind l i)

/-- `uxListRemove`: how many items are left. An item that is in no list has no container to be
    taken out of. -/
def uxListRemove (s : Lists κ ι) (i : ι) : Option (Nat × Lists κ ι) :=
  match s.pvContainer i with
  | none => none
  | some l =>
    let s := { s with
      pxPrevious := Function.update s.pxPrevious (s.pxNext (.item i)) (s.pxPrevious (.item i)) }
    let s := { s with
      pxNext := Function.update s.pxNext (s.pxPrevious (.item i)) (s.pxNext (.item i)) }
    let s := { s with
      pxIndex :=
        if s.pxIndex l = .item i then Function.update s.pxIndex l (s.pxPrevious (.item i))
        else s.pxIndex
      pvContainer := Function.update s.pvContainer i none
      uxNumberOfItems := Function.update s.uxNumberOfItems l (s.uxNumberOfItems l - 1) }
    some (s.uxNumberOfItems l, s)

/-- `listGET_OWNER_OF_NEXT_ENTRY`: the item at the index, which goes on by one and passes over the
    mark. An empty list has no item. -/
def getOwnerOfNextEntry (s : Lists κ ι) (l : κ) : Option (ι × Lists κ ι) :=
  let index :=
    if s.pxNext (s.pxIndex l) = .mark l then s.pxNext (.mark l) else s.pxNext (s.pxIndex l)
  match index with
  | .mark _ => none
  | .item i => some (i, { s with pxIndex := Function.update s.pxIndex l index })

/-- `listGET_OWNER_OF_HEAD_ENTRY` -/
def getOwnerOfHeadEntry (s : Lists κ ι) (l : κ) : Option ι :=
  match s.pxNext (.mark l) with
  | .mark _ => none
  | .item i => some i

end Lists

/-- Sequences of items, with a cursor in each that is on an item or in front of all of them. -/
structure Contents (κ ι : Type) where
  items : κ → List ι
  cursor : κ → Option ι
  value : ι → UInt32

namespace Contents

/-- The item comes in front of the one at the cursor, or behind all others. -/
def placeEnd (c : Option ι) (i : ι) (xs : List ι) : List ι :=
  match c with
  | none => xs ++ [i]
  | some c => xs.takeWhile (· ≠ c) ++ i :: xs.dropWhile (· ≠ c)

/-- The item comes behind those with a value that is not greater. -/
def placeSorted (value : ι → UInt32) (i : ι) (xs : List ι) : List ι :=
  xs.takeWhile (value · ≤ value i) ++ i :: xs.dropWhile (value · ≤ value i)

def setValue (A : Contents κ ι) (i : ι) (value : UInt32) : Contents κ ι :=
  { A with value := Function.update A.value i value }

def insertEnd (A : Contents κ ι) (l : κ) (i : ι) : Contents κ ι :=
  { A with items := Function.update A.items l (placeEnd (A.cursor l) i (A.items l)) }

def insert (A : Contents κ ι) (l : κ) (i : ι) : Contents κ ι :=
  { A with items := Function.update A.items l (placeSorted A.value i (A.items l)) }

/-- The item is taken out, and the cursor goes back if it was on it. -/
def remove (A : Contents κ ι) (l : κ) (i : ι) : Contents κ ι :=
  { A with
    items := Function.update A.items l ((A.items l).erase i)
    cursor := Function.update A.cursor l
      (if A.cursor l = some i then ((A.items l).takeWhile (· ≠ i)).getLast? else A.cursor l) }

/-- The item behind the cursor, or the first one. -/
def next (c : Option ι) (xs : List ι) : Option ι :=
  match c with
  | none => xs.head?
  | some c => ((xs.dropWhile (· ≠ c)).tail.head?).or xs.head?

def advance (A : Contents κ ι) (l : κ) : Contents κ ι :=
  { A with cursor := Function.update A.cursor l (next (A.cursor l) (A.items l)) }

/-- The item is in no list. -/
def Free (A : Contents κ ι) (i : ι) : Prop := ∀ l, i ∉ A.items l

end Contents

end Functions

variable {κ ι : Type}

/-- What a cursor is in a list. -/
def cursorNode (l : κ) : Option ι → Node κ ι
  | none => .mark l
  | some i => .item i

/-- The links are those of the contents. -/
structure Holds (s : Lists κ ι) (A : Contents κ ι) : Prop where
  circular : ∀ l, Circular s.pxNext s.pxPrevious (.mark l) ((A.items l).map .item)
  nodup : ∀ l, (A.items l).Nodup
  container : ∀ i l, s.pvContainer i = some l ↔ i ∈ A.items l
  count : ∀ l, s.uxNumberOfItems l = (A.items l).length
  index : ∀ l, s.pxIndex l = cursorNode l (A.cursor l)
  cursor : ∀ l i, A.cursor l = some i → i ∈ A.items l
  mark : ∀ l, s.xItemValue (.mark l) = portMaxDelay
  value : ∀ i, s.xItemValue (.item i) = A.value i

/-- The lists are empty at first. -/
theorem Holds.initialise (values : ι → UInt32) :
    Holds (Lists.initialise values : Lists κ ι) ⟨fun _ => [], fun _ => none, values⟩ where
  circular l := ⟨rfl, rfl⟩
  nodup l := List.nodup_nil
  container i l := by
    constructor
    · intro h
      exact absurd h.symm (Option.some_ne_none l)
    · intro h
      exact absurd h List.not_mem_nil
  count l := rfl
  index l := rfl
  cursor l i h := absurd h.symm (Option.some_ne_none i)
  mark l := rfl
  value i := rfl

namespace Holds

variable {s : Lists κ ι} {A : Contents κ ι} {l : κ} {i : ι}

/-- The nodes of one list are not those of another one. -/
theorem nodes_apart (h : Holds s A) {l' : κ} (hne : l' ≠ l) {n : Node κ ι}
    (hn : n ∈ .mark l' :: (A.items l').map .item) : n ∉ .mark l :: (A.items l).map .item := by
  intro hn'
  rcases List.mem_cons.mp hn with rfl | hitem
  · rcases List.mem_cons.mp hn' with heq | hmem
    · exact hne (Node.mark.inj heq)
    · obtain ⟨j, -, hj⟩ := List.mem_map.mp hmem
      cases hj
  · obtain ⟨j, hj, rfl⟩ := List.mem_map.mp hitem
    rcases List.mem_cons.mp hn' with heq | hmem
    · cases heq
    · obtain ⟨k, hk, hkj⟩ := List.mem_map.mp hmem
      obtain rfl := Node.item.inj hkj
      -- an item has one container
      have hcont := ((h.container k l').mpr hj).symm.trans ((h.container k l).mpr hk)
      exact hne (Option.some.inj hcont)

theorem nodup_nodes (h : Holds s A) (l : κ) :
    ((.mark l : Node κ ι) :: (A.items l).map .item).Nodup := by
  rw [List.nodup_cons]
  constructor
  · intro hmem
    obtain ⟨j, -, hj⟩ := List.mem_map.mp hmem
    cases hj
  · exact (h.nodup l).map fun a b hab => Node.item.inj hab

/-- An item that is free is at no node of a list. -/
theorem item_not_mem (hfree : A.Free i) (l : κ) :
    (.item i : Node κ ι) ∉ .mark l :: (A.items l).map .item := by
  intro hmem
  rcases List.mem_cons.mp hmem with heq | hmap
  · cases heq
  · obtain ⟨j, hj, hji⟩ := List.mem_map.mp hmap
    obtain rfl := Node.item.inj hji
    exact hfree l hj

/-- The nodes at both sides of a place of a list belong to it. -/
theorem sides_mem {a b : List ι} :
    ((a.map .item).getLastD (.mark l) ∈ (.mark l : Node κ ι) :: (a ++ b).map .item) ∧
      (b.map .item).headD (.mark l) ∈ (.mark l : Node κ ι) :: (a ++ b).map .item := by
  have hlast : (a.map .item).getLastD (.mark l) ∈ (.mark l : Node κ ι) :: a.map .item :=
    List.getLastD_mem_cons
  have hhead := headD_mem_cons (b.map Node.item) (.mark l : Node κ ι)
  rw [List.map_append]
  exact ⟨List.mem_cons.mpr ((List.mem_cons.mp hlast).imp id (List.mem_append_left _)),
    List.mem_cons.mpr ((List.mem_cons.mp hhead).imp id (List.mem_append_right _))⟩

/-- The loop comes to the place behind the items with values that are not greater. -/
theorem insertionPoint_eq (h : Holds s A) {v : UInt32} (hv : v ≠ portMaxDelay) {a b : List ι}
    (hsplit : A.items l = a ++ b) {fuel : Nat} (hfuel : b.length < fuel) :
    s.insertionPoint v fuel ((a.map .item).getLastD (.mark l)) =
      some (((a ++ b.takeWhile (A.value · ≤ v)).map .item).getLastD (.mark l)) := by
  induction b generalizing a fuel with
  | nil =>
      cases fuel with
      | zero => exact absurd hfuel (Nat.not_lt_zero _)
      | succ fuel =>
          have hcirc := h.circular l
          rw [hsplit, List.map_append] at hcirc
          have hlt : ¬ portMaxDelay ≤ v := by
            rw [UInt32.not_le, UInt32.lt_iff_toNat_lt]
            have hle : v.toNat < 2 ^ 32 := v.toNat_lt
            have hmax : portMaxDelay.toNat = 2 ^ 32 - 1 := rfl
            have hne : v.toNat ≠ portMaxDelay.toNat := fun heq => hv (UInt32.toNat_inj.mp heq)
            omega
          have hmark : s.pxNext ((a.map .item).getLastD (.mark l)) = .mark l :=
            hcirc.next_getLastD
          rw [Lists.insertionPoint, hmark, h.mark, if_neg hlt, List.takeWhile_nil,
            List.append_nil]
  | cons x b ih =>
      cases fuel with
      | zero => exact absurd hfuel (Nat.not_lt_zero _)
      | succ fuel =>
          have hcirc := h.circular l
          rw [hsplit, List.map_append] at hcirc
          have hitem : s.pxNext ((a.map .item).getLastD (.mark l)) = .item x :=
            hcirc.next_getLastD
          rw [Lists.insertionPoint, hitem, h.value]
          by_cases hx : A.value x ≤ v
          · have hnext : (.item x : Node κ ι) = ((a ++ [x]).map .item).getLastD (.mark l) := by
              simp
            have hrest := ih (a := a ++ [x]) (by rw [hsplit]; simp) (Nat.lt_of_succ_lt_succ hfuel)
            rw [if_pos hx, hnext, hrest, List.takeWhile_cons_of_pos (by simpa using hx),
              List.append_assoc]
            rfl
          · rw [if_neg hx, List.takeWhile_cons_of_neg (by simpa using hx), List.append_nil]

variable [DecidableEq ι]

/-- A list at one of its items. -/
theorem exists_dropWhile {c : ι} {xs : List ι} (h : c ∈ xs) :
    ∃ b, xs.dropWhile (· ≠ c) = c :: b ∧ xs.erase c = xs.takeWhile (· ≠ c) ++ b := by
  induction xs with
  | nil => exact absurd h List.not_mem_nil
  | cons x xs ih =>
      by_cases hx : x = c
      · subst hx
        exact ⟨xs, by simp, by simp⟩
      · obtain ⟨b, hb, herase⟩ := ih ((List.mem_cons.mp h).resolve_left fun heq => hx heq.symm)
        refine ⟨b, by simpa [List.dropWhile_cons, hx] using hb, ?_⟩
        rw [List.erase_cons_tail (by simpa using hx), herase]
        simp [hx]

/-- The place of an item that goes to the end. -/
theorem exists_split_end (h : Holds s A) (l : κ) (i : ι) :
    ∃ a b, A.items l = a ++ b ∧ s.pxIndex l = (b.map .item).headD (.mark l) ∧
      Contents.placeEnd (A.cursor l) i (A.items l) = a ++ i :: b := by
  rw [h.index]
  cases hc : A.cursor l with
  | none => exact ⟨A.items l, [], (List.append_nil _).symm, rfl, rfl⟩
  | some c =>
      obtain ⟨b, hb, -⟩ := exists_dropWhile (h.cursor l c hc)
      refine ⟨_, _, (List.takeWhile_append_dropWhile (p := (· ≠ c))).symm, ?_, rfl⟩
      rw [hb]
      rfl

variable [DecidableEq κ]

/-- One list is changed, and the container of one item. The links between the nodes of the other
    lists stay as they are. -/
theorem relist (h : Holds s A) {next prev : Node κ ι → Node κ ι} {xs : List ι} {index : Node κ ι}
    {cursor : Option ι} {container : Option κ}
    (hnext : ∀ l' ≠ l, ∀ n ∈ (.mark l' : Node κ ι) :: (A.items l').map .item, next n = s.pxNext n)
    (hprev : ∀ l' ≠ l, ∀ n ∈ (.mark l' : Node κ ι) :: (A.items l').map .item,
      prev n = s.pxPrevious n)
    (hcirc : Circular next prev (.mark l) (xs.map .item)) (hnodup : xs.Nodup)
    (hcontainer : ∀ l', container = some l' ↔ i ∈ Function.update A.items l xs l')
    (hkeep : ∀ j, j ≠ i → (j ∈ A.items l ↔ j ∈ xs))
    (hindex : index = cursorNode l cursor) (hcursor : ∀ j, cursor = some j → j ∈ xs) :
    Holds { s with
      pxNext := next
      pxPrevious := prev
      pxIndex := Function.update s.pxIndex l index
      pvContainer := Function.update s.pvContainer i container
      uxNumberOfItems := Function.update s.uxNumberOfItems l xs.length }
      { A with
        items := Function.update A.items l xs
        cursor := Function.update A.cursor l cursor } := by
  constructor
  · -- the links lead around
    intro l'
    dsimp only
    by_cases hl : l' = l
    · subst hl
      rw [Function.update_self]
      exact hcirc
    · rw [Function.update_of_ne hl]
      exact (h.circular l').congr (hnext l' hl) (hprev l' hl)
  · -- no item stands in a list twice
    intro l'
    dsimp only
    by_cases hl : l' = l
    · subst hl
      rw [Function.update_self]
      exact hnodup
    · rw [Function.update_of_ne hl]
      exact h.nodup l'
  · -- the container of an item is the list it stands in
    intro j l'
    dsimp only
    by_cases hji : j = i
    · subst hji
      rw [Function.update_self]
      exact hcontainer l'
    · rw [Function.update_of_ne hji, h.container]
      by_cases hl : l' = l
      · subst hl
        rw [Function.update_self]
        exact hkeep j hji
      · rw [Function.update_of_ne hl]
  · -- the count is the length
    intro l'
    dsimp only
    by_cases hl : l' = l
    · subst hl
      rw [Function.update_self, Function.update_self]
    · rw [Function.update_of_ne hl, Function.update_of_ne hl]
      exact h.count l'
  · -- the index is the node of the cursor
    intro l'
    dsimp only
    by_cases hl : l' = l
    · subst hl
      rw [Function.update_self, Function.update_self]
      exact hindex
    · rw [Function.update_of_ne hl, Function.update_of_ne hl]
      exact h.index l'
  · -- the cursor stands in the list
    intro l' j hj
    dsimp only at hj ⊢
    by_cases hl : l' = l
    · subst hl
      rw [Function.update_self] at hj ⊢
      exact hcursor j hj
    · rw [Function.update_of_ne hl] at hj ⊢
      exact h.cursor l' j hj
  · exact h.mark
  · exact h.value

/-- An item is put in at a place of a list: the four links, the container and the count change. -/
theorem splice (h : Holds s A) (hfree : A.Free i) {a b : List ι} (hsplit : A.items l = a ++ b)
    {next prev : Node κ ι → Node κ ι}
    (hnext : next = Function.update (Function.update s.pxNext (.item i)
      ((b.map .item).headD (.mark l))) ((a.map .item).getLastD (.mark l)) (.item i))
    (hprev : prev = Function.update (Function.update s.pxPrevious (.item i)
      ((a.map .item).getLastD (.mark l))) ((b.map .item).headD (.mark l)) (.item i)) :
    Holds { s with
      pxNext := next
      pxPrevious := prev
      pvContainer := Function.update s.pvContainer i (some l)
      uxNumberOfItems := Function.update s.uxNumberOfItems l (s.uxNumberOfItems l + 1) }
      { A with items := Function.update A.items l (a ++ i :: b) } := by
  have hnodup := h.nodup_nodes l
  have hcirc := h.circular l
  have hnew := item_not_mem hfree l
  obtain ⟨hlast, hhead⟩ := sides_mem (a := a) (b := b) (l := l)
  rw [← hsplit] at hlast hhead
  rw [hsplit, List.map_append] at hnodup hcirc hnew
  have hperm : (a ++ i :: b).Perm (i :: A.items l) := by
    rw [hsplit]
    exact List.perm_middle
  have hcount : s.uxNumberOfItems l + 1 = (a ++ i :: b).length := by
    rw [h.count, hperm.length_eq, List.length_cons]
  -- Only nodes of this list and the new item, which is in no list, get another link.
  have hnext' : ∀ l' ≠ l, ∀ n ∈ (.mark l' : Node κ ι) :: (A.items l').map .item,
      next n = s.pxNext n := by
    intro l' hl n hn
    rw [hnext, Function.update_of_ne, Function.update_of_ne]
    · rintro rfl
      exact item_not_mem hfree l' hn
    · rintro rfl
      exact h.nodes_apart hl hn hlast
  have hprev' : ∀ l' ≠ l, ∀ n ∈ (.mark l' : Node κ ι) :: (A.items l').map .item,
      prev n = s.pxPrevious n := by
    intro l' hl n hn
    rw [hprev, Function.update_of_ne, Function.update_of_ne]
    · rintro rfl
      exact item_not_mem hfree l' hn
    · rintro rfl
      exact h.nodes_apart hl hn hhead
  have hcirc' : Circular next prev (.mark l) ((a ++ i :: b).map .item) := by
    rw [List.map_append, List.map_cons, hnext, hprev]
    exact hcirc.insert hnodup hnew
  have hcontainer : ∀ l', some l = some l' ↔ i ∈ Function.update A.items l (a ++ i :: b) l' := by
    intro l'
    rw [Option.some.injEq]
    by_cases hl : l' = l
    · subst hl
      rw [Function.update_self, hperm.mem_iff]
      exact iff_of_true rfl List.mem_cons_self
    · rw [Function.update_of_ne hl]
      exact iff_of_false (fun heq => hl heq.symm) (hfree l')
  have hkeep : ∀ j, j ≠ i → (j ∈ A.items l ↔ j ∈ a ++ i :: b) := by
    intro j hj
    rw [hperm.mem_iff, List.mem_cons, or_iff_right hj]
  have hholds := h.relist hnext' hprev' hcirc'
    (hperm.nodup_iff.mpr (List.nodup_cons.mpr ⟨hfree l, h.nodup l⟩)) hcontainer hkeep (h.index l)
    fun j hj => hperm.mem_iff.mpr (List.mem_cons_of_mem i (h.cursor l j hj))
  rw [hcount]
  simpa only [Function.update_eq_self] using hholds

/-- `vListInsertEnd` -/
theorem insertEnd (h : Holds s A) (hfree : A.Free i) :
    Holds (s.vListInsertEnd l i) (A.insertEnd l i) := by
  obtain ⟨a, b, hsplit, hindex, hplace⟩ := h.exists_split_end l i
  have hcirc := h.circular l
  rw [hsplit, List.map_append] at hcirc
  have hprev := hcirc.prev_headD
  have hne : (b.map Node.item).headD (.mark l) ≠ (.item i : Node κ ι) := by
    intro heq
    refine item_not_mem hfree l ?_
    rw [hsplit, ← heq]
    exact sides_mem.2
  unfold Contents.insertEnd
  rw [hplace]
  refine h.splice hfree hsplit ?_ ?_
  · dsimp only
    rw [hindex, Function.update_of_ne hne, hprev]
  · dsimp only
    rw [hindex, hprev]

/-- `vListInsert` -/
theorem insert (h : Holds s A) (l : κ) (hfree : A.Free i) :
    ∃ s', s.vListInsert l i = some s' ∧ Holds s' (A.insert l i) := by
  -- the place, which the loop comes to, or the end for the greatest value
  have hsplit : A.items l = (A.items l).takeWhile (A.value · ≤ A.value i) ++
      (A.items l).dropWhile (A.value · ≤ A.value i) := List.takeWhile_append_dropWhile.symm
  have hpoint : s.insertIterator l i =
      some ((((A.items l).takeWhile (A.value · ≤ A.value i)).map .item).getLastD (.mark l)) := by
    unfold Lists.insertIterator
    rw [h.value]
    by_cases hmax : A.value i = portMaxDelay
    · have hall : (A.items l).takeWhile (A.value · ≤ A.value i) = A.items l := by
        rw [List.takeWhile_eq_self_iff]
        intro x _
        rw [hmax, decide_eq_true_eq, UInt32.le_iff_toNat_le]
        have hlt : (A.value x).toNat < 2 ^ 32 := (A.value x).toNat_lt
        have hlast : portMaxDelay.toNat = 2 ^ 32 - 1 := rfl
        omega
      have hcirc := h.circular l
      rw [← List.append_nil (List.map Node.item (A.items l))] at hcirc
      have hprev := hcirc.prev_headD
      rw [if_pos hmax, hall]
      exact congrArg some hprev
    · have hloop := h.insertionPoint_eq (l := l) hmax (a := []) rfl
        (Nat.lt_succ_self (A.items l).length)
      rw [if_neg hmax, h.count]
      exact hloop
  have hcirc := h.circular l
  rw [hsplit, List.map_append] at hcirc
  have hnext := hcirc.next_getLastD
  have hne : (((A.items l).dropWhile (A.value · ≤ A.value i)).map Node.item).headD (.mark l) ≠
      (.item i : Node κ ι) := by
    intro heq
    refine item_not_mem hfree l ?_
    rw [hsplit, ← heq]
    exact sides_mem.2
  refine ⟨_, ?_, h.splice hfree hsplit rfl rfl⟩
  unfold Lists.vListInsert Lists.insertBehind
  rw [hpoint, Option.map_some]
  dsimp only
  rw [hnext, Function.update_self, Function.update_comm hne]

omit [DecidableEq ι] [DecidableEq κ] in
theorem getLastD_eq_cursorNode (l : κ) (a : List ι) :
    (a.map .item).getLastD (.mark l) = cursorNode l a.getLast? := by
  induction a using List.reverseRecOn with
  | nil => rfl
  | append_singleton a x ih => simp [cursorNode]

/-- An item is taken out of a list: two links, the container, the count and perhaps the index
    change. -/
theorem unsplice (h : Holds s A) {a b : List ι} (hsplit : A.items l = a ++ i :: b) :
    Holds { s with
      pxNext := Function.update s.pxNext ((a.map .item).getLastD (.mark l))
        ((b.map .item).headD (.mark l))
      pxPrevious := Function.update s.pxPrevious ((b.map .item).headD (.mark l))
        ((a.map .item).getLastD (.mark l))
      pxIndex := Function.update s.pxIndex l
        (if s.pxIndex l = .item i then (a.map .item).getLastD (.mark l) else s.pxIndex l)
      pvContainer := Function.update s.pvContainer i none
      uxNumberOfItems := Function.update s.uxNumberOfItems l (s.uxNumberOfItems l - 1) }
      { A with
        items := Function.update A.items l (a ++ b)
        cursor := Function.update A.cursor l
          (if A.cursor l = some i then a.getLast? else A.cursor l) } := by
  have hcirc := h.circular l
  have hnodup := h.nodup_nodes l
  have hperm : (A.items l).Perm (i :: (a ++ b)) := by
    rw [hsplit]
    exact List.perm_middle
  obtain ⟨hlast, -⟩ := sides_mem (a := a) (b := i :: b) (l := l)
  obtain ⟨-, hhead⟩ := sides_mem (a := a ++ [i]) (b := b) (l := l)
  rw [← hsplit] at hlast
  rw [← List.append_cons, ← hsplit] at hhead
  rw [hsplit, List.map_append, List.map_cons] at hcirc hnodup
  have hmem : i ∈ A.items l := hperm.mem_iff.mpr List.mem_cons_self
  obtain ⟨hout, hrest⟩ := List.nodup_cons.mp (hperm.nodup_iff.mp (h.nodup l))
  have hcount : s.uxNumberOfItems l - 1 = (a ++ b).length := by
    rw [h.count, hperm.length_eq, List.length_cons, Nat.add_sub_cancel]
  have hcirc' := hcirc.remove hnodup
  rw [← List.map_append] at hcirc'
  -- an item has one container
  have hcontainer : ∀ l', (none : Option κ) = some l' ↔
      i ∈ Function.update A.items l (a ++ b) l' := by
    intro l'
    refine iff_of_false (Option.some_ne_none l').symm ?_
    by_cases hl : l' = l
    · subst hl
      rwa [Function.update_self]
    · rw [Function.update_of_ne hl]
      intro hi
      have hcont := ((h.container i l').mpr hi).symm.trans ((h.container i l).mpr hmem)
      exact hl (Option.some.inj hcont)
  have hkeep : ∀ j, j ≠ i → (j ∈ A.items l ↔ j ∈ a ++ b) := by
    intro j hj
    rw [hperm.mem_iff, List.mem_cons, or_iff_right hj]
  -- The index is moved back exactly if it stands at the item that goes.
  have hindex : s.pxIndex l = .item i ↔ A.cursor l = some i := by
    rw [h.index]
    cases A.cursor l with
    | none => exact iff_of_false (fun heq => by cases heq) (Option.some_ne_none i).symm
    | some c =>
        constructor
        · intro heq
          rw [Node.item.inj heq]
        · intro heq
          rw [Option.some.inj heq]
          rfl
  have hnode : (if s.pxIndex l = .item i then (a.map .item).getLastD (.mark l) else s.pxIndex l) =
      cursorNode l (if A.cursor l = some i then a.getLast? else A.cursor l) := by
    by_cases hc : A.cursor l = some i
    · rw [if_pos (hindex.mpr hc), if_pos hc]
      exact getLastD_eq_cursorNode l a
    · rw [if_neg (mt hindex.mp hc), if_neg hc]
      exact h.index l
  have hcursor : ∀ j, (if A.cursor l = some i then a.getLast? else A.cursor l) = some j →
      j ∈ a ++ b := by
    intro j hj
    by_cases hc : A.cursor l = some i
    · rw [if_pos hc] at hj
      exact List.mem_append_left b (List.mem_of_getLast? hj)
    · rw [if_neg hc] at hj
      refine (hkeep j ?_).mp (h.cursor l j hj)
      rintro rfl
      exact hc hj
  rw [hcount]
  -- Both nodes whose links change belong to this list.
  refine h.relist (fun l' hl n hn => ?_) (fun l' hl n hn => ?_) hcirc' hrest hcontainer hkeep hnode
    hcursor
  · refine Function.update_of_ne ?_ _ _
    rintro rfl
    exact h.nodes_apart hl hn hlast
  · refine Function.update_of_ne ?_ _ _
    rintro rfl
    exact h.nodes_apart hl hn hhead

/-- `uxListRemove` -/
theorem remove (h : Holds s A) (hmem : i ∈ A.items l) :
    ∃ s', s.uxListRemove i = some (((A.items l).erase i).length, s') ∧
      Holds s' (A.remove l i) := by
  obtain ⟨b, hb, herase⟩ := exists_dropWhile hmem
  have hsplit : A.items l = (A.items l).takeWhile (· ≠ i) ++ i :: b := by
    rw [← hb]
    exact List.takeWhile_append_dropWhile.symm
  have hcirc := h.circular l
  have hnodup := h.nodup_nodes l
  rw [hsplit, List.map_append, List.map_cons] at hcirc hnodup
  -- what the item leads to, in either direction
  have hprev : s.pxPrevious (.item i) =
      (((A.items l).takeWhile (· ≠ i)).map .item).getLastD (.mark l) := hcirc.prev_headD
  have hnext : s.pxNext (.item i) = (b.map .item).headD (.mark l) := by
    have hcirc' := hcirc
    rw [List.append_cons] at hcirc'
    have hlink := hcirc'.next_getLastD
    rwa [List.getLastD_concat] at hlink
  have hne : (b.map Node.item).headD (.mark l) ≠ (.item i : Node κ ι) := by
    intro heq
    rcases List.mem_cons.mp (headD_mem_cons (b.map Node.item) (.mark l : Node κ ι)) with hm | hm
    · rw [heq] at hm
      cases hm
    · rw [heq] at hm
      have htail := (List.nodup_append.mp (List.nodup_cons.mp hnodup).2).2.1
      exact (List.nodup_cons.mp htail).1 hm
  have hholds := h.unsplice hsplit
  rw [← herase] at hholds
  refine ⟨_, ?_, hholds⟩
  have hcount : s.uxNumberOfItems l - 1 = ((A.items l).erase i).length := by
    rw [h.count, List.length_erase_of_mem hmem]
  unfold Lists.uxListRemove
  rw [(h.container i l).mpr hmem]
  dsimp only
  rw [Function.update_self, hnext, Function.update_of_ne hne.symm, hprev, hcount]
  by_cases hi : s.pxIndex l = .item i
  · rw [if_pos hi, if_pos hi]
  · rw [if_neg hi, if_neg hi, Function.update_eq_self]

omit [DecidableEq ι] [DecidableEq κ] in
/-- `listGET_OWNER_OF_HEAD_ENTRY` -/
theorem head (h : Holds s A) (l : κ) : s.getOwnerOfHeadEntry l = (A.items l).head? := by
  have hlink := linked_headD (h.circular l).forward
  unfold Lists.getOwnerOfHeadEntry
  rw [← hlink]
  cases A.items l with
  | nil => rfl
  | cons x xs => rfl

omit [DecidableEq κ] in
/-- Where the index goes. -/
theorem next_index (h : Holds s A) (hne : A.items l ≠ []) :
    ∃ i, Contents.next (A.cursor l) (A.items l) = some i ∧ i ∈ A.items l ∧
      (s.pxNext (s.pxIndex l) = .item i ∨
        s.pxNext (s.pxIndex l) = .mark l ∧ s.pxNext (.mark l) = .item i) := by
  have hcirc := h.circular l
  have hmark := linked_headD hcirc.forward
  obtain ⟨x, xs, hxs⟩ := List.exists_cons_of_ne_nil hne
  have hfirst : s.pxNext (.mark l) = .item x := by
    rw [← hmark, hxs]
    rfl
  have hx : x ∈ A.items l := by
    rw [hxs]
    exact List.mem_cons_self
  rw [h.index]
  cases hc : A.cursor l with
  | none =>
      refine ⟨x, ?_, hx, .inl hfirst⟩
      rw [hxs]
      rfl
  | some c =>
      obtain ⟨b, hb, -⟩ := exists_dropWhile (h.cursor l c hc)
      have hsplit : A.items l = (A.items l).takeWhile (· ≠ c) ++ c :: b := by
        rw [← hb]
        exact List.takeWhile_append_dropWhile.symm
      have hnext : s.pxNext (.item c) = (b.map .item).headD (.mark l) := by
        have hcirc' := hcirc
        rw [hsplit, List.map_append, List.map_cons, List.append_cons] at hcirc'
        have hlink := hcirc'.next_getLastD
        rwa [List.getLastD_concat] at hlink
      unfold Contents.next
      dsimp only [cursorNode]
      rw [hb, hnext]
      cases b with
      | nil =>
          -- behind the last item the mark is passed over
          refine ⟨x, ?_, hx, .inr ⟨rfl, hfirst⟩⟩
          rw [hxs]
          rfl
      | cons y b =>
          refine ⟨y, rfl, ?_, .inl rfl⟩
          rw [hsplit]
          exact List.mem_append_right _ (List.mem_cons_of_mem c List.mem_cons_self)

/-- `listGET_OWNER_OF_NEXT_ENTRY` -/
theorem advance (h : Holds s A) (hne : A.items l ≠ []) :
    ∃ i s', Contents.next (A.cursor l) (A.items l) = some i ∧ i ∈ A.items l ∧
      s.getOwnerOfNextEntry l = some (i, s') ∧ Holds s' (A.advance l) := by
  obtain ⟨i, hi, hmem, hindex⟩ := h.next_index hne
  have hnode : (if s.pxNext (s.pxIndex l) = .mark l then s.pxNext (.mark l)
      else s.pxNext (s.pxIndex l)) = .item i := by
    rcases hindex with hitem | ⟨hmark, hitem⟩
    · rw [hitem, if_neg fun heq => by cases heq]
    · rw [if_pos hmark, hitem]
  refine ⟨i, { s with pxIndex := Function.update s.pxIndex l (.item i) }, hi, hmem, ?_, ?_⟩
  · unfold Lists.getOwnerOfNextEntry
    rw [hnode]
  · refine { h with index := fun l' => ?_, cursor := fun l' j hj => ?_ }
    · by_cases hl : l' = l
      · subst hl
        dsimp only [Contents.advance]
        rw [Function.update_self, Function.update_self, hi]
        rfl
      · dsimp only [Contents.advance]
        rw [Function.update_of_ne hl, Function.update_of_ne hl]
        exact h.index l'
    · by_cases hl : l' = l
      · subst hl
        dsimp only [Contents.advance] at hj
        rw [Function.update_self, hi] at hj
        obtain rfl := Option.some.inj hj
        exact hmem
      · dsimp only [Contents.advance] at hj
        rw [Function.update_of_ne hl] at hj
        exact h.cursor l' j hj

/-- `listSET_LIST_ITEM_VALUE` -/
theorem setValue (h : Holds s A) (i : ι) (v : UInt32) :
    Holds (s.setListItemValue i v) (A.setValue i v) := by
  refine { h with mark := fun l => ?_, value := fun j => ?_ }
  · unfold Lists.setListItemValue
    dsimp only
    rw [Function.update_of_ne (fun heq => by cases heq)]
    exact h.mark l
  · unfold Lists.setListItemValue Contents.setValue
    dsimp only
    by_cases hj : j = i
    · subst hj
      rw [Function.update_self, Function.update_self]
    · rw [Function.update_of_ne hj, Function.update_of_ne (fun heq => hj (Node.item.inj heq))]
      exact h.value j

end Holds

/-! ### Runs -/

/-- What the kernel does with its lists. -/
inductive ListOp (κ ι : Type) where
  | insertEnd (l : κ) (i : ι)
  | insert (l : κ) (i : ι) (value : UInt32)
  | remove (l : κ) (i : ι)
  | advance (l : κ)

/-- What a function returns. -/
inductive ListAnswer (ι : Type) where
  | done
  | left (n : Nat)
  | owner (i : Option ι)

variable [DecidableEq κ] [DecidableEq ι]

namespace ListOp

/-- The function of `list.c`. -/
def run (s : Lists κ ι) : ListOp κ ι → Option (ListAnswer ι × Lists κ ι)
  | insertEnd l i => some (.done, s.vListInsertEnd l i)
  | insert l i value => ((s.setListItemValue i value).vListInsert l i).map fun s => (.done, s)
  | remove _ i => (s.uxListRemove i).map fun r => (.left r.1, r.2)
  | advance l => (s.getOwnerOfNextEntry l).map fun r => (.owner (some r.1), r.2)

/-- The functions one after the other. -/
def runs (s : Lists κ ι) : List (ListOp κ ι) → Option (List (ListAnswer ι) × Lists κ ι)
  | [] => some ([], s)
  | o :: ops => do
    let r ← o.run s
    let rs ← runs r.2 ops
    return (r.1 :: rs.1, rs.2)

/-- What it does to the contents. -/
def apply (A : Contents κ ι) : ListOp κ ι → ListAnswer ι × Contents κ ι
  | insertEnd l i => (.done, A.insertEnd l i)
  | insert l i value => (.done, (A.setValue i value).insert l i)
  | remove l i => (.left ((A.items l).erase i).length, A.remove l i)
  | advance l => (.owner (Contents.next (A.cursor l) (A.items l)), A.advance l)

/-- An item is put in when it is in no list, and taken out of the list it is in. The index goes
    around a list with items. -/
def Allowed (A : Contents κ ι) : ListOp κ ι → Prop
  | insertEnd _ i => A.Free i
  | insert _ i _ => A.Free i
  | remove l i => i ∈ A.items l
  | advance l => A.items l ≠ []

instance [Fintype κ] (A : Contents κ ι) : ∀ o : ListOp κ ι, Decidable (o.Allowed A)
  | insertEnd _ i => inferInstanceAs (Decidable (∀ l, i ∉ A.items l))
  | insert _ i _ => inferInstanceAs (Decidable (∀ l, i ∉ A.items l))
  | remove l i => inferInstanceAs (Decidable (i ∈ A.items l))
  | advance l => inferInstanceAs (Decidable (A.items l ≠ []))

/-- One function does what its operation says. -/
theorem run_apply {s : Lists κ ι} {A : Contents κ ι} (h : Holds s A) {o : ListOp κ ι}
    (ho : o.Allowed A) : ∃ s', o.run s = some ((o.apply A).1, s') ∧ Holds s' (o.apply A).2 := by
  cases o with
  | insertEnd l i => exact ⟨_, rfl, h.insertEnd ho⟩
  | insert l i value =>
      obtain ⟨s', hrun, hs'⟩ := (h.setValue i value).insert l ho
      refine ⟨s', ?_, hs'⟩
      rw [run, hrun]
      rfl
  | remove l i =>
      obtain ⟨s', hrun, hs'⟩ := h.remove ho
      refine ⟨s', ?_, hs'⟩
      rw [run, hrun]
      rfl
  | advance l =>
      obtain ⟨i, s', hi, -, hrun, hs'⟩ := h.advance ho
      refine ⟨s', ?_, hs'⟩
      rw [run, hrun, apply, hi]
      rfl

/-- Functions one after the other do what the operations say. -/
theorem runs_apply {s : Lists κ ι} {A : Contents κ ι} (h : Holds s A) {ops : List (ListOp κ ι)}
    (hallowed : Meets (fun A o => (apply A o).2) (fun A o => o.Allowed A) A ops) :
    ∃ s', runs s ops = some (answers apply A ops, s') ∧ Holds s' (after apply A ops) := by
  induction ops generalizing s A with
  | nil => exact ⟨s, rfl, h⟩
  | cons o ops ih =>
      obtain ⟨ho, hrest⟩ := hallowed
      obtain ⟨s₁, hrun, hs₁⟩ := run_apply h ho
      obtain ⟨s₂, hruns, hs₂⟩ := ih hs₁ hrest
      refine ⟨s₂, ?_, hs₂⟩
      rw [runs, hrun]
      simp only [bind, Option.bind, hruns]
      rfl

end ListOp

/-- The functions of `list.c`, in any order that puts free items in and takes out what is there,
    follow the contents: every loop ends, every answer is that of the contents, and forwards and
    backwards the links meet the items, as many as are counted. -/
theorem lists_refine (values : ι → UInt32) (ops : List (ListOp κ ι))
    (hallowed : Meets (fun A o => (ListOp.apply A o).2) (fun A o => o.Allowed A)
      (⟨fun _ => [], fun _ => none, values⟩ : Contents κ ι) ops) :
    ∃ s, ListOp.runs (Lists.initialise values) ops =
        some (answers ListOp.apply ⟨fun _ => [], fun _ => none, values⟩ ops, s) ∧
      Holds s (after ListOp.apply ⟨fun _ => [], fun _ => none, values⟩ ops) :=
  ListOp.runs_apply (Holds.initialise values) hallowed

/-- Three items, the index on the first of them as it is taken out. -/
theorem lists_refine_removed_index :
    ∃ s : Lists Unit (Fin 3),
      ListOp.runs (Lists.initialise fun _ => 0)
          [.insert () 0 5, .insert () 1 3, .advance (), .remove () 1, .insertEnd () 2,
            .advance ()] =
        some ([.done, .done, .owner (some 1), .left 1, .done, .owner (some 0)], s) ∧
      ∀ l : Unit, s.uxNumberOfItems l = 2 := by
  obtain ⟨s, hruns, hholds⟩ := lists_refine (fun _ => 0)
    [.insert () 0 5, .insert () 1 3, .advance (), .remove () 1, .insertEnd () (2 : Fin 3),
      .advance ()] (by decide)
  exact ⟨s, hruns, fun l => hholds.count l⟩

end Rtos

end RtosLwip
