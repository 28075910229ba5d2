/-
Module: Dotten.Containers.ListSelfInsert
Layer: Containers
Purpose: Inserting a copy of an element of the list itself, whose bytes lie in
  the part of the block that the insert moves before it reads them.
Imports: Dotten.Containers.ListCalls
Main exports: tenListInsertOwn, CopiesElement, tenListInsertOwn_spec,
  Represents.items_eq, tenListInsertOwn_iff, tenListInsertOwn_neighbour
-/
import Dotten.Containers.ListCalls

namespace Dotten

open Dotten.Library
open TenListBytes

/-- `ten_list_insert(list, index, ten_list_get(list, k))`. -/
def tenListInsertOwn (machine : Machine) (list : TenListBytes) (index k : Nat) :
    Ten (TenErrorCode × Option TenListBytes) := do
  let pointer ← TenListBytes.tenListGet machine (some list) k
  let value : Option ListValue := do
    let offset ← pointer
    let address ← list.data
    return .inside address offset
  TenListBytes.tenListInsert machine (some list) index value

/-- The call succeeds, and inserts the item. -/
def CopiesElement (machine : Machine) (grants : Schedule) (world : World) (list : TenListBytes)
    (items : List Bytes) (index k : Nat) (item : Bytes) : Prop :=
  Returns (tenListInsertOwn machine list index k) grants world (fun reply _ =>
    reply.1 = .ok ∧ ∃ after, reply.2 = some after ∧
      Represents machine after (items.insertIdx index item))

section Copies

variable {machine : Machine} {grants : Schedule} {world : World} {list : TenListBytes}
  {items : List Bytes} {index k address : Nat}

/-- What the storage holds determines the elements. -/
theorem TenListBytes.Represents.items_eq {others : List Bytes} (represents : Represents machine list items)
    (again : Represents machine list others) : items = others := by
  have lengths := represents.length.trans again.length.symm
  apply List.ext_getElem lengths
  intro i here there
  have read := represents.cells.read (List.getElem?_eq_getElem here)
  rw [again.cells.read (List.getElem?_eq_getElem there)] at read
  exact (Option.some.inj read).symm

/-- What is inserted is what stands at the place of the element after the move:
the element behind the index is the one in front of it by then. -/
theorem tenListInsertOwn_spec (represents : Represents machine list items)
    (spare : list.count < list.capacity) (block : list.data = some address)
    (within : index ≤ list.count) (below : k < items.length) :
    ∃ item, items[if k ≤ index then k else k - 1]? = some item ∧
      CopiesElement machine grants world list items index k item := by
  have counted : k < list.count := below.trans_eq represents.length
  obtain ⟨moved, -, doubled, insert⟩ :=
    @Represents.insert_run machine list items index
      (.inside address (k * list.elementSize)) represents within spare
  obtain ⟨item, there⟩ : ∃ item, items[if k ≤ index then k else k - 1]? = some item :=
    ⟨_, List.getElem?_eq_getElem (show (if k ≤ index then k else k - 1) < items.length by
      split <;> omega)⟩
  have read : readBlock moved (k * list.elementSize) list.elementSize = some item := by
    apply doubled.read
    rw [getElem?_doubledAt below]
    exact there
  obtain ⟨after, inserted, -, -, run⟩ := insert item ((if_pos block).trans read)
    (length_of_readBlock read)
  refine ⟨item, there, ?_⟩
  have roomy : machine.wrap (list.count + 1) ≤ list.capacity := by
    rw [represents.wrap_count spare]
    exact spare
  unfold CopiesElement tenListInsertOwn
  rw [tenListGet_some, if_neg (Nat.not_le.mpr counted), represents.slot_eq (by omega)]
  simp only [returns_bind, returns_tenSetError, returns_pure, block, Option.bind_eq_bind,
    Option.bind_some, Option.pure_def, tenListInsert_some]
  unfold insertValue TenListBytes.tenListGrow
  rw [if_neg (Nat.not_lt.mpr within), if_pos roomy, returns_bind, returns_pure]
  simp only [ne_eq, not_true_eq_false, if_false]
  rw [returns_iff_of_run (run _ _)]
  exact ⟨rfl, after, rfl, inserted⟩

/-- The element that the caller asks for is inserted exactly when it does not
stand behind the index, or the one before it is the same. -/
theorem tenListInsertOwn_iff (represents : Represents machine list items)
    (spare : list.count < list.capacity) (block : list.data = some address)
    (within : index ≤ list.count) {old : Bytes} (here : items[k]? = some old) :
    CopiesElement machine grants world list items index k old ↔
      k ≤ index ∨ items[k - 1]? = some old := by
  obtain ⟨below, -⟩ := List.getElem?_eq_some_iff.mp here
  obtain ⟨item, there, copies⟩ :=
    @tenListInsertOwn_spec machine grants world list items index k address represents spare block
      within below
  have place : index ≤ items.length := within.trans_eq represents.length.symm
  have same : item = old ↔ k ≤ index ∨ items[k - 1]? = some old := by
    split at there
    · rename_i front
      rw [here, Option.some.injEq] at there
      exact iff_of_true there.symm (.inl front)
    · rename_i behind
      rw [there, Option.some.injEq]
      exact (or_iff_right behind).symm
  rw [← same]
  constructor
  · intro asked
    obtain ⟨⟨rc, after⟩, _, run, -, after, rfl, inserted⟩ := copies
    obtain ⟨-, again, equal, insertedOld⟩ := asked.eq run
    cases equal
    have one := @List.getElem?_insertIdx_self _ items item index
    rw [inserted.items_eq insertedOld, List.getElem?_insertIdx_self, if_pos place, if_pos place] at one
    exact (Option.some.inj one).symm
  · rintro rfl
    exact copies

end Copies

/-- Three elements of two bytes in a block for four. -/
def threeElements : TenListBytes where
  type := .i16
  elementSize := 2
  data := some 1
  storage := [1, 0, 2, 0, 3, 0, 0, 0]
  count := 3
  capacity := 4

/-- The elements. -/
def threeItems : List Bytes := [[1, 0], [2, 0], [3, 0]]

theorem threeElements_represents : Represents machine64 threeElements threeItems := by
  refine ⟨⟨⟨by decide, by decide⟩, by decide, by decide⟩, rfl, ?_, ?_⟩
  · simp [threeElements, threeItems]
  · exact ⟨[0, 0], rfl⟩

/-- A copy of the second element in front of the third, and of the third in front of
the first. -/
theorem tenListInsertOwn_iff_threeElements :
    (CopiesElement machine64 (fun _ => true) default threeElements threeItems 2 1 [2, 0] ↔
        1 ≤ 2 ∨ threeItems[1 - 1]? = some [2, 0]) ∧
      (CopiesElement machine64 (fun _ => true) default threeElements threeItems 0 2 [3, 0] ↔
        2 ≤ 0 ∨ threeItems[2 - 1]? = some [3, 0]) :=
  ⟨@tenListInsertOwn_iff machine64 (fun _ => true) default threeElements threeItems 2 1 1
      threeElements_represents (by decide) rfl (by decide) [2, 0] rfl,
    @tenListInsertOwn_iff machine64 (fun _ => true) default threeElements threeItems 0 2 1
      threeElements_represents (by decide) rfl (by decide) [3, 0] rfl⟩

/-- A copy of the third element in front of the first is one of the second. -/
theorem tenListInsertOwn_neighbour :
    Represents machine64 threeElements threeItems ∧
      threeElements.count < threeElements.capacity ∧
      Returns (tenListInsertOwn machine64 threeElements 0 2) (fun _ => true) default
        (fun reply _ => reply.1 = .ok ∧
          reply.2.map (·.storage) = some [2, 0, 1, 0, 2, 0, 3, 0]) ∧
      ¬ CopiesElement machine64 (fun _ => true) default threeElements threeItems 0 2 [3, 0] := by
  have run : tenListInsertOwn machine64 threeElements 0 2 (fun _ => true) default =
      some ((.ok, some { threeElements with
        storage := [2, 0, 1, 0, 2, 0, 3, 0], count := 4 }), { requests := 0, lastError := .ok }) :=
    rfl
  refine ⟨threeElements_represents, by decide, ⟨_, _, run, rfl, rfl⟩, ?_⟩
  intro copies
  obtain ⟨-, after, same, represents⟩ := copies.eq run
  cases same
  have first := represents.cells.there
  revert first
  decide

end Dotten
