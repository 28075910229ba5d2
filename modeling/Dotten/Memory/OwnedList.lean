/-
Module: Dotten.Memory.OwnedList
Layer: Memory
Purpose: The growing arrays of list.c with the blocks that each of them lies in:
  the struct, and the data once there are any.
Imports: Dotten.Memory.Heap, Dotten.Containers.TenList
Main exports: OwnedList, OwnedList.blocks, OwnedList.Valid, OwnedList.forget,
  Heap.tenListCreate,
  Heap.tenListDestroy, Heap.tenListGrow, Heap.tenListInsert, Heap.tenListAdd,
  Heap.tenListGet, Heap.tenListCount
-/
import Dotten.Memory.Heap
import Dotten.Containers.TenList

namespace Dotten

open Dotten.Library

/-- A `ten_list_t *`: the block of the struct, the pointer `data`, and the other
fields. -/
structure OwnedList (α : Type) where
  self : Nat
  data : Option Nat
  list : TenList α
deriving DecidableEq, Repr

namespace OwnedList

variable {α β : Type}

/-- The blocks of a list; what its elements own is not among them. -/
def blocks (owned : OwnedList α) : Multiset Nat := {owned.self} + Heap.ofPointer owned.data

/-- The elements fit into the data, and there are data where there is room. -/
structure Valid (owned : OwnedList α) : Prop where
  fits : owned.list.items.length ≤ owned.list.capacity
  placed : owned.data = none → owned.list.capacity = 0

/-- The list without its blocks, its elements seen through a function. -/
def forget (view : α → β) (owned : OwnedList α) : TenList β where
  type := owned.list.type
  elementSize := owned.list.elementSize
  items := owned.list.items.map view
  capacity := owned.list.capacity

theorem length_forget (view : α → β) (owned : OwnedList α) :
    (owned.forget view).items.length = owned.list.items.length :=
  List.length_map _

theorem getElem?_forget (view : α → β) (owned : OwnedList α) (index : Nat) :
    (owned.forget view).items[index]? = owned.list.items[index]?.map view :=
  List.getElem?_map

@[simp] theorem self_mem (owned : OwnedList α) : owned.self ∈ owned.blocks := by
  simp [blocks]

theorem data_le (owned : OwnedList α) : Heap.ofPointer owned.data ≤ owned.blocks :=
  Multiset.le_add_left _ _

/-- A list with an element has data. -/
theorem Valid.data_isSome {owned : OwnedList α} (valid : owned.Valid)
    (nonempty : 0 < owned.list.items.length) : ∃ block, owned.data = some block := by
  cases located : owned.data with
  | none =>
      have room := valid.fits
      rw [valid.placed located] at room
      omega
  | some block => exact ⟨block, rfl⟩

end OwnedList

namespace Heap

/-- A read or a write through a pointer. -/
def deref : Option Nat → Op Unit
  | none => stuck
  | some block => access block

section Functions

variable {α : Type}

/-- `ten_list_create`. -/
def tenListCreate (type : TenType) : Op (Option (OwnedList α)) := do
  let elementSize := tenTypeSize type
  if elementSize = 0 then
    tenSetError .invalidArgument
    return none
  else
    let some self ← tenMalloc
      | return none
    tenSetError .ok
    return some { self, data := none, list := { type, elementSize, items := [], capacity := 0 } }

/-- `ten_list_destroy`. -/
def tenListDestroy (owned : Option (OwnedList α)) : Op Unit :=
  match owned with
  | none => return ()
  | some owned => do
      access owned.self
      tenFree owned.data
      tenFree (some owned.self)

/-- `ten__list_grow`. -/
def tenListGrow (owned : OwnedList α) (minCapacity : Nat) :
    Op (TenErrorCode × OwnedList α) := do
  access owned.self
  if minCapacity ≤ owned.list.capacity then
    return (.ok, owned)
  else
    let doubled :=
      if owned.list.capacity = 0 then tenListInitialCapacity else owned.list.capacity * 2
    let newCapacity := if doubled < minCapacity then minCapacity else doubled
    let some data ← tenRealloc owned.data
      | return (.outOfMemory, owned)
    return (.ok,
      { owned with data := some data, list := { owned.list with capacity := newCapacity } })

/-- `ten_list_insert`. -/
def tenListInsert (owned : OwnedList α) (index : Nat) (value : α) :
    Op (TenErrorCode × OwnedList α) := do
  access owned.self
  if index > owned.list.items.length then
    tenSetError .outOfRange
    return (.outOfRange, owned)
  else
    let (rc, owned) ← tenListGrow owned (owned.list.items.length + 1)
    if rc ≠ .ok then
      tenSetError rc
      return (rc, owned)
    else
      deref owned.data
      tenSetError .ok
      return (.ok,
        { owned with
          list := { owned.list with items := owned.list.items.insertIdx index value } })

/-- `ten_list_add`. -/
def tenListAdd (owned : OwnedList α) (value : α) : Op (TenErrorCode × OwnedList α) := do
  access owned.self
  tenListInsert owned owned.list.items.length value

/-- `ten_list_get`, and the read through the pointer that it returns. -/
def tenListGet (owned : OwnedList α) (index : Nat) : Op (Option α) := do
  access owned.self
  match owned.list.items[index]? with
  | none =>
      tenSetError .outOfRange
      return none
  | some item =>
      tenSetError .ok
      deref owned.data
      return some item

/-- `ten_list_count`. -/
def tenListCount (owned : OwnedList α) : Op Nat := do
  access owned.self
  tenSetError .ok
  return owned.list.items.length

end Functions

section Ownership

variable {α : Type} {grants : Schedule} {given : Multiset Nat}

theorem owns_deref {block : Nat} (member : block ∈ given) :
    Owns grants given (deref (some block)) (fun _ => given) fun _ => True :=
  owns_access member

/-- An empty list, which owns the block of its struct. -/
theorem owns_tenListCreate (type : TenType) :
    Owns grants 0 (tenListCreate (α := α) type) (ownsOption OwnedList.blocks)
      (fun reply => ∀ owned, reply = some owned → owned.Valid ∧ owned.list.items = []) := by
  refine Transfers.ite (fun _ => ?_) fun _ => ?_
  · refine Transfers.bind (owns_tenSetError _) ?_
    rintro ⟨⟩ -
    exact Transfers.pure rfl (by simp)
  · refine Transfers.bind owns_tenMalloc ?_
    rintro (_ | self) -
    · exact Transfers.pure rfl (by simp)
    · refine Transfers.bind (owns_tenSetError _) ?_
      rintro ⟨⟩ -
      refine Transfers.pure (by simp [OwnedList.blocks]) ?_
      rintro owned ⟨⟩
      exact ⟨⟨Nat.le_refl _, fun _ => rfl⟩, rfl⟩

/-- Destroying a list frees its blocks, and nothing of its elements. -/
theorem owns_tenListDestroy (owned : Option (OwnedList α)) :
    Owns grants (ownsOption OwnedList.blocks owned) (tenListDestroy owned) (fun _ => 0)
      fun _ => True := by
  cases owned with
  | none => exact Transfers.pure rfl trivial
  | some owned =>
      refine Transfers.bind (owns_access owned.self_mem) ?_
      rintro ⟨⟩ -
      refine Transfers.call {owned.self} (owns_tenFree owned.data)
        (by simp [OwnedList.blocks, add_comm]) ?_
      rintro ⟨⟩ -
      exact (owns_tenFree (some owned.self)).conseq (by simp) (fun _ _ => rfl) fun _ _ => trivial

theorem owns_tenListCount (owned : OwnedList α) (member : owned.self ∈ given) :
    Owns grants given (tenListCount owned) (fun _ => given)
      (· = owned.list.items.length) := by
  refine Transfers.bind (owns_access member) ?_
  rintro ⟨⟩ -
  refine Transfers.bind (owns_tenSetError _) ?_
  rintro ⟨⟩ -
  exact Transfers.pure (by simp) rfl

/-- A read of an element that is there. -/
theorem owns_tenListGet {owned : OwnedList α} (valid : owned.Valid) {index : Nat} {item : α}
    (found : owned.list.items[index]? = some item) (held : owned.blocks ≤ given) :
    Owns grants given (tenListGet owned index) (fun _ => given) (· = some item) := by
  have within : index < owned.list.items.length := (List.getElem?_eq_some_iff.mp found).1
  obtain ⟨block, located⟩ := valid.data_isSome (by omega)
  have blockHeld : block ∈ given := by
    have le := owned.data_le.trans held
    rw [located] at le
    exact Multiset.singleton_le.mp le
  refine Transfers.bind (owns_access (Multiset.mem_of_le held owned.self_mem)) ?_
  rintro ⟨⟩ -
  rw [found, located]
  refine Transfers.bind (owns_tenSetError _) ?_
  rintro ⟨⟩ -
  refine Transfers.bind (owns_deref blockHeld) ?_
  rintro ⟨⟩ -
  exact Transfers.pure (by simp) rfl

/-- Growing keeps the elements; there is room afterwards, or nothing has
changed. -/
theorem owns_tenListGrow {owned : OwnedList α} (valid : owned.Valid) (minCapacity : Nat) :
    Owns grants owned.blocks (tenListGrow owned minCapacity) (fun reply => reply.2.blocks)
      (fun reply => (reply.1 = .ok ∧ reply.2.Valid ∧ reply.2.list.items = owned.list.items ∧
          minCapacity ≤ reply.2.list.capacity) ∨
        (reply.1 = .outOfMemory ∧ reply.2 = owned)) := by
  refine Transfers.bind (owns_access owned.self_mem) ?_
  rintro ⟨⟩ -
  refine Transfers.ite (fun roomy => ?_) fun full => ?_
  · exact Transfers.pure rfl (.inl ⟨rfl, valid, rfl, roomy⟩)
  · refine Transfers.call {owned.self} (owns_tenRealloc owned.data)
      (by simp [OwnedList.blocks, add_comm]) ?_
    rintro (_ | data) -
    · exact Transfers.pure (by simp [OwnedList.blocks, add_comm]) (.inr ⟨rfl, rfl⟩)
    · refine Transfers.pure (by simp [OwnedList.blocks, add_comm]) (.inl ⟨rfl, ⟨?_, ?_⟩, rfl, ?_⟩)
      · have fits := valid.fits
        dsimp only
        split <;> split <;> omega
      · simp
      · dsimp only
        split <;> split <;> omega

/-- Inserting an element in range: it is there afterwards, or nothing has
changed. -/
theorem owns_tenListInsert {owned : OwnedList α} (valid : owned.Valid) {index : Nat}
    (inRange : index ≤ owned.list.items.length) (value : α) :
    Owns grants owned.blocks (tenListInsert owned index value) (fun reply => reply.2.blocks)
      (fun reply => (reply.1 = .ok ∧ reply.2.Valid ∧
          reply.2.list.items = owned.list.items.insertIdx index value) ∨
        (reply.1 = .outOfMemory ∧ reply.2 = owned)) := by
  refine Transfers.bind (owns_access owned.self_mem) ?_
  rintro ⟨⟩ -
  rw [if_neg (Nat.not_lt.mpr inRange)]
  refine Transfers.bind (owns_tenListGrow valid _) ?_
  rintro ⟨rc, grown⟩ (⟨rfl, grownValid, items, room⟩ | ⟨rfl, rfl⟩)
  · obtain ⟨block, located⟩ : ∃ block, grown.data = some block := by
      cases located : grown.data with
      | none =>
          rw [grownValid.placed located] at room
          omega
      | some block => exact ⟨block, rfl⟩
    have held : block ∈ grown.blocks := by
      simp [OwnedList.blocks, located]
    simp only [ne_eq, not_true_eq_false, if_false, located]
    refine Transfers.bind (owns_deref held) ?_
    rintro ⟨⟩ -
    refine Transfers.bind (owns_tenSetError _) ?_
    rintro ⟨⟩ -
    refine Transfers.pure (by simp [OwnedList.blocks, located]) (.inl ⟨rfl, ⟨?_, ?_⟩, ?_⟩)
    · change (grown.list.items.insertIdx index value).length ≤ grown.list.capacity
      rw [List.length_insertIdx, items]
      split <;> omega
    · exact fun missing => grownValid.placed (by rw [located]; exact missing)
    · change grown.list.items.insertIdx index value = _
      rw [items]
  · simp only [ne_eq, reduceCtorEq, not_false_eq_true, if_true]
    refine Transfers.bind (owns_tenSetError _) ?_
    rintro ⟨⟩ -
    exact Transfers.pure (by simp) (.inr ⟨rfl, rfl⟩)

/-- Appending an element. -/
theorem owns_tenListAdd {owned : OwnedList α} (valid : owned.Valid) (value : α) :
    Owns grants owned.blocks (tenListAdd owned value) (fun reply => reply.2.blocks)
      (fun reply => (reply.1 = .ok ∧ reply.2.Valid ∧
          reply.2.list.items = owned.list.items ++ [value]) ∨
        (reply.1 = .outOfMemory ∧ reply.2 = owned)) := by
  refine Transfers.bind (owns_access owned.self_mem) ?_
  rintro ⟨⟩ -
  refine (owns_tenListInsert valid (Nat.le_refl _) value).conseq rfl
    (fun _ _ => rfl) ?_
  intro reply outcome
  rw [List.insertIdx_length_self] at outcome
  exact outcome

end Ownership

section Forgetting

variable {α β : Type}

theorem unseen_deref (pointer : Option Nat) : Unseen SameRequests (deref pointer) := by
  cases pointer with
  | none =>
      intro grants heap world a heap' same run
      cases run
  | some block => exact unseen_access block

theorem keeps_tenListCreate (view : α → β) (type : TenType) :
    Keeps (Option.map (OwnedList.forget view)) (tenListCreate type)
      (Dotten.tenListCreate type) := by
  refine Simulates.ite (fun _ => ?_) fun _ => ?_
  · exact Erases.bind (keeps_tenSetError _) fun _ => Simulates.pure rfl
  · refine Erases.bind keeps_tenMalloc ?_
    rintro (_ | self)
    · exact Simulates.pure rfl
    · exact Erases.bind (keeps_tenSetError _) fun _ => Simulates.pure rfl

theorem unseen_tenListDestroy (owned : Option (OwnedList α)) :
    Unseen SameRequests (tenListDestroy owned) := by
  cases owned with
  | none => exact Unseen.pure ()
  | some owned =>
      exact Unseen.bind (unseen_access _) fun _ =>
        Unseen.bind (unseen_tenFree _) fun _ => unseen_tenFree _

theorem keeps_tenListGrow (view : α → β) (owned : OwnedList α) (minCapacity : Nat) :
    Keeps (Prod.map id (OwnedList.forget view)) (tenListGrow owned minCapacity)
      (Dotten.tenListGrow (owned.forget view) minCapacity) := by
  refine Simulates.skip (unseen_access _) fun _ => Simulates.ite (fun _ => ?_) fun _ => ?_
  · exact Simulates.pure rfl
  · refine Erases.bind (keeps_tenRealloc _) ?_
    rintro (_ | data)
    · exact Simulates.pure rfl
    · exact Simulates.pure rfl

theorem keeps_tenListInsert (view : α → β) (owned : OwnedList α) (index : Nat) (value : α) :
    Keeps (Prod.map id (OwnedList.forget view)) (tenListInsert owned index value)
      (Dotten.tenListInsert (owned.forget view) index (view value)) := by
  have sameLength := owned.length_forget view
  refine Simulates.skip (unseen_access _) fun _ => ?_
  unfold Dotten.tenListInsert
  rw [sameLength]
  refine Simulates.ite (fun _ => ?_) fun _ => ?_
  · exact Erases.bind (keeps_tenSetError _) fun _ => Simulates.pure rfl
  · refine Erases.bind (keeps_tenListGrow view owned _) ?_
    rintro ⟨rc, grown⟩
    refine Simulates.ite (fun _ => ?_) fun _ => ?_
    · exact Erases.bind (keeps_tenSetError _) fun _ => Simulates.pure rfl
    · refine Simulates.skip (unseen_deref _) fun _ =>
        Erases.bind (keeps_tenSetError _) fun _ => Simulates.pure ?_
      simp [OwnedList.forget, List.map_insertIdx]

theorem keeps_tenListAdd (view : α → β) (owned : OwnedList α) (value : α) :
    Keeps (Prod.map id (OwnedList.forget view)) (tenListAdd owned value)
      (Dotten.tenListAdd (owned.forget view) (view value)) := by
  refine Simulates.skip (unseen_access _) fun _ => ?_
  unfold Dotten.tenListAdd
  rw [owned.length_forget view]
  exact keeps_tenListInsert view owned _ value

theorem keeps_tenListGet (view : α → β) (owned : OwnedList α) (index : Nat) :
    Keeps (Option.map view) (tenListGet owned index)
      (Dotten.tenListGet (owned.forget view) index) := by
  refine Simulates.skip (unseen_access _) fun _ => ?_
  unfold Dotten.tenListGet
  rw [owned.getElem?_forget view]
  cases owned.list.items[index]? with
  | none => exact Erases.bind (keeps_tenSetError _) fun _ => Simulates.pure rfl
  | some item =>
      exact Erases.bind (keeps_tenSetError _) fun _ =>
        Simulates.skip (unseen_deref _) fun _ => Simulates.pure rfl

theorem yields_tenListGet (owned : OwnedList α) (index : Nat) :
    Yields SameRequests (tenListGet owned index) owned.list.items[index]? := by
  refine Yields.skip (unseen_access _) fun _ => ?_
  cases owned.list.items[index]? with
  | none => exact Yields.skip (unseen_tenSetError _) fun _ => Yields.pure _
  | some item =>
      exact Yields.skip (unseen_tenSetError _) fun _ =>
        Yields.skip (unseen_deref _) fun _ => Yields.pure _

theorem yields_tenListCount (owned : OwnedList α) :
    Yields SameRequests (tenListCount owned) owned.list.items.length :=
  Yields.skip (unseen_access _) fun _ => Yields.skip (unseen_tenSetError _) fun _ =>
    Yields.pure _

theorem keeps_tenListCount (view : α → β) (owned : OwnedList α) :
    Keeps id (tenListCount owned) (Dotten.tenListCount (owned.forget view)) := by
  refine Simulates.skip (unseen_access _) fun _ => ?_
  unfold Dotten.tenListCount
  rw [owned.length_forget view]
  exact Erases.bind (keeps_tenSetError _) fun _ => Simulates.pure rfl

end Forgetting

end Heap

end Dotten
