/-
Module: Dotten.Containers.TenListBytes
Layer: Containers
Purpose: The growing arrays of list.c over the bytes of their storage: sizes are
  computed as size_t computes them, and an access outside the storage gets
  stuck.
Imports: Dotten.Containers.TenList, Dotten.Library.Block
Main exports: Machine, TenListBytes, ListValue, tenListCreate, tenRealloc,
  tenListGrow, tenListInsert, tenListAdd, tenListRemoveAt, tenListGet,
  tenListReserve, ListRequest, ListCall, ListReply, ListCall.perform,
  performAll, Throughout
-/
import Dotten.Containers.TenList
import Dotten.Library.Block
import Mathlib.Algebra.Ring.Nat

namespace Dotten

open Dotten.Library

/-- The platform and its allocator. -/
structure Machine where
  /-- The width of `size_t`. -/
  width : Nat
  /-- `sizeof(void *)`. -/
  pointerSize : Nat
  pointerSize_pos : 0 < pointerSize
  /-- A `realloc` to no bytes that returns NULL has freed the block. -/
  zeroFrees : Bool
  /-- What memory that a request obtains holds at an offset. -/
  stale : Nat → Nat → Byte

/-- A result of `size_t` arithmetic. -/
def Machine.wrap (machine : Machine) (n : Nat) : Nat :=
  n % 2 ^ machine.width

/-- `ten__type_size`. -/
def Machine.typeSize (machine : Machine) : TenType → Nat
  | .string | .buffer | .pointer => machine.pointerSize
  | type => tenTypeSize type

/-- `struct ten_list`, and the bytes that may be accessed at `data`: those of
the block that the last successful `realloc` returned, none of a block that
has been freed. -/
structure TenListBytes where
  type : TenType
  elementSize : Nat
  data : Option Nat
  storage : Bytes
  count : Nat
  capacity : Nat
deriving DecidableEq, Repr

/-- What the argument `value` points to: memory of the caller, or a place in
the block at an address. -/
inductive ListValue where
  | outside (memory : Bytes)
  | inside (address offset : Nat)
deriving DecidableEq, Repr

namespace TenListBytes

/-- `ten_list_create`. -/
def tenListCreate (machine : Machine) (type : TenType) : Ten (Option TenListBytes) := do
  let elementSize := machine.typeSize type
  if elementSize = 0 then
    tenSetError .invalidArgument
    return none
  else
    let some _ ← tenMalloc
      | return none
    tenSetError .ok
    return some { type, elementSize, data := none, storage := [], count := 0, capacity := 0 }

/-- `ten_realloc` of the block to `size` bytes: the new address, or NULL, and
what may be accessed behind it or, if it is NULL, still behind the old one. -/
def tenRealloc (machine : Machine) (storage : Bytes) (size : Nat) :
    Ten (Option Nat × Bytes) := fun grants world =>
  if grants world.requests then
    let fresh := (List.range' storage.length (size - storage.length)).map
      (machine.stale world.requests)
    some ((some world.requests, storage.take size ++ fresh), world.granted)
  else if size = 0 then
    some ((none, if machine.zeroFrees then [] else storage),
      { world.refused with lastError := .ok })
  else
    some ((none, storage), world.refused)

theorem returns_tenRealloc {machine : Machine} {grants : Schedule} {world : World}
    (storage : Bytes) (size : Nat) (post : Option Nat × Bytes → World → Prop) :
    Returns (tenRealloc machine storage size) grants world post ↔
      (grants world.requests = true →
        post (some world.requests, storage.take size ++
          (List.range' storage.length (size - storage.length)).map (machine.stale world.requests))
          world.granted) ∧
      (grants world.requests = false → size = 0 →
        post (none, if machine.zeroFrees then [] else storage)
          { world.refused with lastError := .ok }) ∧
      (grants world.requests = false → size ≠ 0 → post (none, storage) world.refused) := by
  unfold Returns tenRealloc
  cases grants world.requests <;> by_cases nothing : size = 0 <;> simp [nothing]

/-- The capacity that `ten__list_grow` asks for. -/
def newCapacity (machine : Machine) (list : TenListBytes) (minCapacity : Nat) : Nat :=
  let doubled :=
    if list.capacity = 0 then tenListInitialCapacity else machine.wrap (list.capacity * 2)
  if doubled < minCapacity then minCapacity else doubled

/-- `ten__list_grow`. -/
def tenListGrow (machine : Machine) (list : TenListBytes) (minCapacity : Nat) :
    Ten (TenErrorCode × TenListBytes) := do
  if minCapacity ≤ list.capacity then
    return (.ok, list)
  else
    let capacity := list.newCapacity machine minCapacity
    match ← tenRealloc machine list.storage (machine.wrap (capacity * list.elementSize)) with
    | (none, storage) => return (.outOfMemory, { list with storage })
    | (some data, storage) => return (.ok, { list with data := some data, storage, capacity })

/-- `memmove` inside the block. -/
def memmove (list : TenListBytes) (target source size : Nat) : Ten TenListBytes :=
  match moveBlock list.storage target source size with
  | none => stuck
  | some storage => return { list with storage }

/-- The bytes that `memcpy` reads at `value`. -/
def readValue (list : TenListBytes) : ListValue → Option Bytes
  | .outside memory => readBlock memory 0 list.elementSize
  | .inside address offset =>
      if list.data = some address then readBlock list.storage offset list.elementSize else none

/-- `memcpy` of an element to `offset`. -/
def memcpy (list : TenListBytes) (offset : Nat) (value : ListValue) : Ten TenListBytes :=
  match (list.readValue value).bind (writeBlock list.storage offset) with
  | none => stuck
  | some storage => return { list with storage }

/-- Where `ten_list_insert` and `ten_list_remove_at` find an element. -/
def slot (machine : Machine) (list : TenListBytes) (index : Nat) : Nat :=
  machine.wrap (index * list.elementSize)

/-- The elements from the index on are moved by one, if there are any. -/
def moveUp (machine : Machine) (list : TenListBytes) (index : Nat) : Ten TenListBytes :=
  if index < list.count then
    list.memmove (list.slot machine index + list.elementSize) (list.slot machine index)
      (machine.wrap ((list.count - index) * list.elementSize))
  else
    return list

/-- The elements behind the index are moved over the one at it, if there are
any. -/
def moveDown (machine : Machine) (list : TenListBytes) (index : Nat) : Ten TenListBytes :=
  if machine.wrap (index + 1) < list.count then
    list.memmove (list.slot machine index) (list.slot machine index + list.elementSize)
      (machine.wrap ((list.count - index - 1) * list.elementSize))
  else
    return list

/-- `ten_list_insert` of two arguments that are not NULL. -/
def insertValue (machine : Machine) (list : TenListBytes) (index : Nat) (value : ListValue) :
    Ten (TenErrorCode × TenListBytes) := do
  if index > list.count then
    tenSetError .outOfRange
    return (.outOfRange, list)
  else
    let (rc, list) ← tenListGrow machine list (machine.wrap (list.count + 1))
    if rc ≠ .ok then
      tenSetError rc
      return (rc, list)
    else
      let list ← list.moveUp machine index
      let list ← list.memcpy (list.slot machine index) value
      tenSetError .ok
      return (.ok, { list with count := machine.wrap (list.count + 1) })

/-- `ten_list_insert`: the return code, and the list if there is one. -/
def tenListInsert (machine : Machine) (list : Option TenListBytes) (index : Nat)
    (value : Option ListValue) : Ten (TenErrorCode × Option TenListBytes) := do
  match list, value with
  | some list, some value =>
      let (rc, list) ← insertValue machine list index value
      return (rc, some list)
  | list, _ =>
      tenSetError .nullArgument
      return (.nullArgument, list)

/-- `ten_list_add`. -/
def tenListAdd (machine : Machine) (list : Option TenListBytes) (value : Option ListValue) :
    Ten (TenErrorCode × Option TenListBytes) :=
  tenListInsert machine list (match list with | some list => list.count | none => 0) value

/-- `ten_list_remove_at`. -/
def tenListRemoveAt (machine : Machine) (list : Option TenListBytes) (index : Nat) :
    Ten (TenErrorCode × Option TenListBytes) := do
  match list with
  | none =>
      tenSetError .nullArgument
      return (.nullArgument, none)
  | some list =>
      if index ≥ list.count then
        tenSetError .outOfRange
        return (.outOfRange, some list)
      else
        let list ← list.moveDown machine index
        tenSetError .ok
        return (.ok, some { list with count := list.count - 1 })

/-- `ten_list_get`: the offset of the returned pointer in the block, or NULL. -/
def tenListGet (machine : Machine) (list : Option TenListBytes) (index : Nat) :
    Ten (Option Nat) := do
  match list with
  | none =>
      tenSetError .nullArgument
      return none
  | some list =>
      if index ≥ list.count then
        tenSetError .outOfRange
        return none
      else
        tenSetError .ok
        return some (list.slot machine index)

/-- `ten_list_reserve`. -/
def tenListReserve (machine : Machine) (list : Option TenListBytes) (capacity : Nat) :
    Ten (TenErrorCode × Option TenListBytes) := do
  match list with
  | none =>
      tenSetError .nullArgument
      return (.nullArgument, none)
  | some list =>
      let (rc, list) ← tenListGrow machine list capacity
      tenSetError rc
      return (rc, some list)

section Arguments

variable {machine : Machine} {list : TenListBytes} {index : Nat}

@[simp] theorem tenListInsert_nullValue :
    tenListInsert machine (some list) index none =
      (do
        tenSetError .nullArgument
        return (.nullArgument, some list)) :=
  rfl

@[simp] theorem tenListInsert_some (value : ListValue) :
    tenListInsert machine (some list) index (some value) =
      (do
        let (rc, list) ← insertValue machine list index value
        return (rc, some list)) :=
  rfl

@[simp] theorem tenListGet_some :
    tenListGet machine (some list) index =
      if index ≥ list.count then
        (do
          tenSetError .outOfRange
          return none)
      else
        (do
          tenSetError .ok
          return some (list.slot machine index)) :=
  rfl

end Arguments

end TenListBytes

/-- A call of one of the functions. -/
inductive ListRequest where
  | add (value : Option ListValue)
  | insert (index : Nat) (value : Option ListValue)
  | removeAt (index : Nat)
  | get (index : Nat)
  | reserve (capacity : Nat)
deriving DecidableEq, Repr

/-- A call, with the list or with NULL. -/
structure ListCall where
  onNull : Bool
  request : ListRequest
deriving DecidableEq, Repr

/-- A return code, or what the caller reads through the pointer that
`ten_list_get` returns. -/
inductive ListReply where
  | code (rc : TenErrorCode)
  | element (item : Bytes)
deriving DecidableEq, Repr

/-- The caller reads the element at a pointer into the block, and asks for the
error when it got NULL. -/
def TenListBytes.readElement (list : TenListBytes) : Option Nat → Ten ListReply
  | none => do
      let rc ← tenLastError
      return .code rc
  | some offset =>
      match readBlock list.storage offset list.elementSize with
      | none => stuck
      | some item => return .element item

/-- The reply and the list after a function that may have changed it. -/
def TenListBytes.answer (list : TenListBytes) (run : Ten (TenErrorCode × Option TenListBytes)) :
    Ten (ListReply × TenListBytes) := do
  let (rc, after) ← run
  return (.code rc, after.getD list)

/-- The reply and the list after a call.  A call with NULL leaves the list as
it is. -/
def ListCall.perform (machine : Machine) (list : TenListBytes) (call : ListCall) :
    Ten (ListReply × TenListBytes) :=
  let target := if call.onNull then none else some list
  match call.request with
  | .add value => list.answer (TenListBytes.tenListAdd machine target value)
  | .insert index value => list.answer (TenListBytes.tenListInsert machine target index value)
  | .removeAt index => list.answer (TenListBytes.tenListRemoveAt machine target index)
  | .reserve capacity => list.answer (TenListBytes.tenListReserve machine target capacity)
  | .get index => do
      let pointer ← TenListBytes.tenListGet machine target index
      let reply ← list.readElement pointer
      return (reply, list)

section Requests

variable {machine : Machine} {list : TenListBytes} {index : Nat}

theorem perform_null (request : ListRequest) :
    ListCall.perform machine list ⟨true, request⟩ =
      (do
        tenSetError .nullArgument
        return (.code .nullArgument, list)) := by
  cases request with
  | add value | insert index value => cases value <;> rfl
  | removeAt index | get index | reserve capacity => rfl

theorem perform_add (value : Option ListValue) :
    ListCall.perform machine list ⟨false, .add value⟩ =
      ListCall.perform machine list ⟨false, .insert list.count value⟩ :=
  rfl

theorem perform_insert (value : Option ListValue) :
    ListCall.perform machine list ⟨false, .insert index value⟩ =
      list.answer (TenListBytes.tenListInsert machine (some list) index value) :=
  rfl

theorem perform_removeAt :
    ListCall.perform machine list ⟨false, .removeAt index⟩ =
      list.answer (TenListBytes.tenListRemoveAt machine (some list) index) :=
  rfl

theorem perform_get :
    ListCall.perform machine list ⟨false, .get index⟩ =
      (do
        let pointer ← TenListBytes.tenListGet machine (some list) index
        let reply ← list.readElement pointer
        return (reply, list)) :=
  rfl

theorem perform_reserve (capacity : Nat) :
    ListCall.perform machine list ⟨false, .reserve capacity⟩ =
      list.answer (TenListBytes.tenListReserve machine (some list) capacity) :=
  rfl

end Requests

/-- The replies to calls one after the other, and the list behind them. -/
def performAll (machine : Machine) (list : TenListBytes) :
    List ListCall → Ten (List ListReply × TenListBytes)
  | [] => return ([], list)
  | call :: rest => do
      let (reply, after) ← call.perform machine list
      let (replies, last) ← performAll machine after rest
      return (reply :: replies, last)

/-- The condition holds of every call of a run, in the world and on the list
that it meets.  The run ends at a call that gets stuck. -/
def Throughout (machine : Machine) (grants : Schedule)
    (condition : World → TenListBytes → ListCall → Prop) :
    World → TenListBytes → List ListCall → Prop
  | _, _, [] => True
  | world, list, call :: rest =>
      condition world list call ∧
        match call.perform machine list grants world with
        | none => True
        | some ((_, after), world') => Throughout machine grants condition world' after rest

section Running

variable {machine : Machine} {grants : Schedule}
  {condition : World → TenListBytes → ListCall → Prop}

theorem throughout_cons {world world' : World} {list after : TenListBytes} {call : ListCall}
    {reply : ListReply} (run : call.perform machine list grants world = some ((reply, after), world'))
    (rest : List ListCall) :
    Throughout machine grants condition world list (call :: rest) ↔
      condition world list call ∧ Throughout machine grants condition world' after rest := by
  rw [Throughout, run]

/-- Whether a condition that can be decided holds throughout a run is found out
by running it. -/
def Throughout.decidable [∀ world list call, Decidable (condition world list call)] :
    ∀ (world : World) (list : TenListBytes) (calls : List ListCall),
      Decidable (Throughout machine grants condition world list calls)
  | _, _, [] => .isTrue trivial
  | world, list, call :: rest =>
      have : Decidable (match call.perform machine list grants world with
          | none => True
          | some ((_, after), world') =>
              Throughout machine grants condition world' after rest) := by
        cases call.perform machine list grants world with
        | none => exact .isTrue trivial
        | some out => exact Throughout.decidable out.2 out.1.2 rest
      inferInstanceAs (Decidable (_ ∧ _))

instance [∀ world list call, Decidable (condition world list call)] (world : World)
    (list : TenListBytes) (calls : List ListCall) :
    Decidable (Throughout machine grants condition world list calls) :=
  Throughout.decidable world list calls

end Running

/-- A platform with eight-byte pointers whose `realloc` to no bytes frees. -/
def machine64 : Machine where
  width := 64
  pointerSize := 8
  pointerSize_pos := by decide
  zeroFrees := true
  stale _ _ := 0

end Dotten
