/-
Module: Dotten.Containers.TenList
Layer: Containers
Purpose: The growing arrays of list.c as their callers in the library use them:
  one element of the element type at a time, appended or read by index.
Imports: Dotten.Core.World, Dotten.Core.TenType
Main exports: TenList, tenListCreate, tenListGrow, tenListInsert, tenListAdd,
  tenListGet, tenListCount, tenListCreate_spec, returns_tenListCount,
  returns_tenListGet, tenListAdd_spec
-/
import Dotten.Core.World
import Dotten.Core.TenType

namespace Dotten

open Dotten.Library

/-- `struct ten_list`; `items` are the first `count` elements of `data`. -/
structure TenList (α : Type) where
  type : TenType
  elementSize : Nat
  items : List α
  capacity : Nat
deriving DecidableEq, Repr

/-- `TEN_LIST_INITIAL_CAPACITY`. -/
def tenListInitialCapacity : Nat := 4

section Functions

variable {α : Type}

/-- `ten_list_create`. -/
def tenListCreate (type : TenType) : Ten (Option (TenList α)) := do
  let elementSize := tenTypeSize type
  if elementSize = 0 then
    tenSetError .invalidArgument
    return none
  else
    let some _ ← tenMalloc
      | return none
    tenSetError .ok
    return some { type, elementSize, items := [], capacity := 0 }

/-- `ten__list_grow`. -/
def tenListGrow (list : TenList α) (minCapacity : Nat) : Ten (TenErrorCode × TenList α) := do
  if minCapacity ≤ list.capacity then
    return (.ok, list)
  else
    let doubled := if list.capacity = 0 then tenListInitialCapacity else list.capacity * 2
    let newCapacity := if doubled < minCapacity then minCapacity else doubled
    let some _ ← tenRealloc
      | return (.outOfMemory, list)
    return (.ok, { list with capacity := newCapacity })

/-- `ten_list_insert`. -/
def tenListInsert (list : TenList α) (index : Nat) (value : α) :
    Ten (TenErrorCode × TenList α) := do
  if index > list.items.length then
    tenSetError .outOfRange
    return (.outOfRange, list)
  else
    let (rc, list) ← tenListGrow list (list.items.length + 1)
    if rc ≠ .ok then
      tenSetError rc
      return (rc, list)
    else
      tenSetError .ok
      return (.ok, { list with items := list.items.insertIdx index value })

/-- `ten_list_add`. -/
def tenListAdd (list : TenList α) (value : α) : Ten (TenErrorCode × TenList α) :=
  tenListInsert list list.items.length value

/-- `ten_list_get`: the element the returned pointer points to, or NULL. -/
def tenListGet (list : TenList α) (index : Nat) : Ten (Option α) := do
  match list.items[index]? with
  | none =>
      tenSetError .outOfRange
      return none
  | some item =>
      tenSetError .ok
      return some item

/-- `ten_list_count`. -/
def tenListCount (list : TenList α) : Ten Nat := do
  tenSetError .ok
  return list.items.length

end Functions

section Specifications

variable {α : Type} {grants : Schedule} {world : World}

/-- `ten_list_create` for a type that can be stored. -/
theorem tenListCreate_spec (type : TenType) (accepted : type ≠ .void) :
    Returns (tenListCreate (α := α) type) grants world (fun reply after =>
      world.requests ≤ after.requests ∧
        ((reply = none ∧ ¬ Ample grants ∧ after.lastError = .outOfMemory) ∨
          ∃ list, reply = some list ∧ list.items = [] ∧ after.lastError = .ok)) := by
  have stored : ¬ tenTypeSize type = 0 := by
    rw [tenTypeSize_eq_zero_iff]
    exact accepted
  simp only [tenListCreate, if_neg stored, returns_bind, returns_tenMalloc]
  constructor
  · intro granted
    simp only [returns_tenSetError, returns_pure]
    exact ⟨Nat.le_succ _, .inr ⟨_, rfl, rfl, trivial⟩⟩
  · intro refused
    rw [returns_pure]
    exact ⟨Nat.le_succ _, .inl ⟨rfl, not_ample_of_refused refused, rfl⟩⟩

@[simp] theorem returns_tenListCount (list : TenList α) (post : Nat → World → Prop) :
    Returns (tenListCount list) grants world post ↔
      post list.items.length { world with lastError := .ok } := by
  simp only [tenListCount, returns_bind, returns_tenSetError, returns_pure]

/-- `ten_list_get` of an index in range. -/
theorem returns_tenListGet {list : TenList α} {index : Nat} {item : α}
    (found : list.items[index]? = some item) (post : Option α → World → Prop) :
    Returns (tenListGet list index) grants world post ↔
      post (some item) { world with lastError := .ok } := by
  simp only [tenListGet, found, returns_bind, returns_tenSetError, returns_pure]

/-- What `ten_list_add` may do. -/
inductive AddOutcome (grants : Schedule) (list : TenList α) (value : α) :
    TenErrorCode → TenList α → Prop where
  | added {after : TenList α} (items : after.items = list.items ++ [value]) :
      AddOutcome grants list value .ok after
  | refused (shortage : ¬ Ample grants) : AddOutcome grants list value .outOfMemory list

/-- `ten_list_add`: one more element at the end, or no change. -/
theorem tenListAdd_spec (list : TenList α) (value : α) :
    Returns (tenListAdd list value) grants world (fun reply after =>
      world.requests ≤ after.requests ∧ after.lastError = reply.1 ∧
        AddOutcome grants list value reply.1 reply.2) := by
  unfold tenListAdd tenListInsert
  simp only [gt_iff_lt, Nat.lt_irrefl, if_false, returns_bind]
  have appended : list.items.insertIdx list.items.length value = list.items ++ [value] := by
    simp
  unfold tenListGrow
  apply returns_ite
  · intro roomy
    simp only [returns_pure, ne_eq, not_true_eq_false, if_false, returns_bind,
      returns_tenSetError]
    exact ⟨Nat.le_refl _, trivial, .added appended⟩
  · intro full
    simp only [returns_bind, returns_tenRealloc, returns_tenMalloc]
    constructor
    · intro granted
      simp only [returns_pure, ne_eq, not_true_eq_false, if_false, returns_bind,
        returns_tenSetError]
      exact ⟨Nat.le_succ _, trivial, .added appended⟩
    · intro refused
      simp only [returns_pure, ne_eq, reduceCtorEq, not_false_eq_true, if_true, returns_bind,
        returns_tenSetError]
      exact ⟨Nat.le_succ _, trivial, .refused (not_ample_of_refused refused)⟩

end Specifications

end Dotten
