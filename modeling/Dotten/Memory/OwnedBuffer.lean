/-
Module: Dotten.Memory.OwnedBuffer
Layer: Memory
Purpose: The buffers of buffer.c with their blocks: the block of the struct, and
  the block of the data once there is one.
Imports: Dotten.Memory.Heap, Dotten.Containers.TenBuffer
Main exports: OwnedBuffer, OwnedBuffer.blocks, Heap.readBlock,
  Heap.tenBufferCreate, Heap.tenBufferDestroy, Heap.tenBufferWrite,
  Heap.tenBufferData, Heap.tenBufferSize, Heap.tenBufferClear
-/
import Dotten.Memory.Heap
import Dotten.Containers.TenBuffer

namespace Dotten

open Dotten.Library

/-- A `ten_buffer_t *`: the block of the struct, the block that the field `data`
points to, and the fields.  A buffer whose data is NULL holds nothing and has
no room. -/
structure OwnedBuffer where
  self : Nat
  block : Option Nat
  buffer : TenBuffer
  placed : block = none → buffer.capacity = 0 ∧ buffer.size = 0
deriving DecidableEq, Repr

/-- The blocks of a buffer. -/
def OwnedBuffer.blocks (owned : OwnedBuffer) : Multiset Nat :=
  {owned.self} + Heap.ofPointer owned.block

@[simp] theorem OwnedBuffer.self_mem (owned : OwnedBuffer) : owned.self ∈ owned.blocks := by
  simp [OwnedBuffer.blocks]

theorem OwnedBuffer.block_le (owned : OwnedBuffer) :
    Heap.ofPointer owned.block ≤ owned.blocks :=
  Multiset.le_add_left _ _

namespace Heap

/-- A read of `size` bytes behind a pointer. -/
def readBlock (pointer : Option Nat) (size : Nat) : Op Unit :=
  if size = 0 then return ()
  else
    match pointer with
    | none => stuck
    | some block => access block

/-- `ten_buffer_create`. -/
def tenBufferCreate : Op (Option OwnedBuffer) := do
  let some self ← tenMalloc
    | return none
  tenSetError .ok
  return some
    { self, block := none, buffer := { data := [], size := 0, capacity := 0 }
      placed := fun _ => ⟨rfl, rfl⟩ }

/-- `ten_buffer_destroy`. -/
def tenBufferDestroy (owned : Option OwnedBuffer) : Op Unit :=
  match owned with
  | none => return ()
  | some owned => do
      access owned.self
      tenFree owned.block
      tenFree (some owned.self)

/-- `ten_buffer_write` of the first `size` bytes at `data` to a buffer that
exists. -/
def tenBufferWrite (owned : OwnedBuffer) (data : Option Bytes) (size : Nat) :
    Op (TenErrorCode × OwnedBuffer) :=
  match data with
  | none => do
      if size > 0 then
        tenSetError .nullArgument
        return (.nullArgument, owned)
      else
        tenSetError .ok
        return (.ok, owned)
  | some data => do
      if size = 0 then
        tenSetError .ok
        return (.ok, owned)
      else
        access owned.self
        let newSize := owned.buffer.size + size
        if newSize > owned.buffer.capacity then
          let first :=
            if owned.buffer.capacity = 0 then tenBufferInitialCapacity
            else owned.buffer.capacity * 2
          let newCapacity := doubleUntil newSize newSize first
          let some block ← tenRealloc owned.block
            | return (.outOfMemory, owned)
          tenSetError .ok
          return (.ok,
            { owned with
              block := some block
              buffer := { owned.buffer with capacity := newCapacity }.put (data.take size)
              placed := fun none => by cases none })
        else
          match owned with
          | { block := none, .. } => stuck
          | { self, block := some block, buffer, .. } => do
              access block
              tenSetError .ok
              return (.ok,
                { self, block := some block, buffer := buffer.put (data.take size)
                  placed := fun none => by cases none })

/-- `ten_buffer_data` of a buffer, with the bytes behind the pointer. -/
def tenBufferData (owned : OwnedBuffer) : Op (Option Nat × Bytes) := do
  access owned.self
  tenSetError .ok
  return (owned.block, owned.buffer.data)

/-- `ten_buffer_size` of a buffer. -/
def tenBufferSize (owned : OwnedBuffer) : Op Nat := do
  access owned.self
  tenSetError .ok
  return owned.buffer.size

/-- `ten_buffer_clear` of a buffer. -/
def tenBufferClear (owned : OwnedBuffer) : Op OwnedBuffer := do
  access owned.self
  return { owned with
    buffer := Dotten.tenBufferClear owned.buffer
    placed := fun none => ⟨(owned.placed none).1, rfl⟩ }

section Ownership

variable {grants : Schedule} {given : Multiset Nat}

/-- Nothing is read behind a pointer to nothing. -/
theorem owns_readBlock {pointer : Option Nat} {size : Nat} (placed : pointer = none → size = 0)
    (held : ofPointer pointer ≤ given) :
    Owns grants given (readBlock pointer size) (fun _ => given) fun _ => True := by
  refine Transfers.ite (fun _ => Transfers.pure rfl trivial) fun positive => ?_
  cases pointer with
  | none => exact absurd (placed rfl) positive
  | some block => exact owns_access (Multiset.singleton_le.mp held)

theorem owns_tenBufferCreate :
    Owns grants 0 tenBufferCreate (ownsOption OwnedBuffer.blocks) fun _ => True := by
  refine Transfers.bind owns_tenMalloc ?_
  rintro (_ | self) -
  · exact Transfers.pure rfl trivial
  · refine Transfers.bind (owns_tenSetError _) ?_
    rintro ⟨⟩ -
    exact Transfers.pure (by simp [OwnedBuffer.blocks]) trivial

/-- Destroying a buffer frees its blocks. -/
theorem owns_tenBufferDestroy (owned : Option OwnedBuffer) :
    Owns grants (ownsOption OwnedBuffer.blocks owned) (tenBufferDestroy owned) (fun _ => 0)
      fun _ => True := by
  cases owned with
  | none => exact Transfers.pure rfl trivial
  | some owned =>
      refine Transfers.bind (owns_access owned.self_mem) ?_
      rintro ⟨⟩ -
      refine Transfers.call {owned.self} (owns_tenFree owned.block)
        (by simp [OwnedBuffer.blocks, add_comm]) ?_
      rintro ⟨⟩ -
      exact (owns_tenFree (some owned.self)).conseq (by simp) (fun _ _ => rfl) fun _ _ => trivial

/-- A write keeps the struct, and keeps the data or moves it to a block that
takes the place of the old one. -/
theorem owns_tenBufferWrite (owned : OwnedBuffer) (data : Option Bytes) (size : Nat) :
    Owns grants owned.blocks (tenBufferWrite owned data size) (fun reply => reply.2.blocks)
      fun _ => True := by
  have answer : ∀ code, Owns grants owned.blocks
      (do
        tenSetError code
        return (code, owned)) (fun reply => reply.2.blocks) fun _ => True := by
    intro code
    refine Transfers.bind (owns_tenSetError _) ?_
    rintro ⟨⟩ -
    exact Transfers.pure rfl trivial
  cases data with
  | none => exact Transfers.ite (fun _ => answer _) fun _ => answer _
  | some data =>
      refine Transfers.ite (fun _ => answer _) fun positive => ?_
      refine Transfers.bind (owns_access owned.self_mem) ?_
      rintro ⟨⟩ -
      refine Transfers.ite (fun _ => ?_) fun roomy => ?_
      · refine Transfers.call {owned.self} (owns_tenRealloc owned.block)
          (by simp [OwnedBuffer.blocks, add_comm]) ?_
        rintro (_ | block) -
        · exact Transfers.pure (by simp [OwnedBuffer.blocks, add_comm]) trivial
        · refine Transfers.bind (owns_tenSetError _) ?_
          rintro ⟨⟩ -
          exact Transfers.pure (by simp [OwnedBuffer.blocks, add_comm]) trivial
      · obtain ⟨self, pointer, buffer, placed⟩ := owned
        cases pointer with
        | none =>
            have empty := placed rfl
            dsimp only at roomy
            omega
        | some block =>
            refine Transfers.bind (owns_access (by simp [OwnedBuffer.blocks])) ?_
            rintro ⟨⟩ -
            refine Transfers.bind (owns_tenSetError _) ?_
            rintro ⟨⟩ -
            exact Transfers.pure rfl trivial

theorem owns_tenBufferData {owned : OwnedBuffer} (held : owned.blocks ≤ given) :
    Owns grants given (tenBufferData owned) (fun _ => given)
      (· = (owned.block, owned.buffer.data)) := by
  refine Transfers.bind (owns_access (Multiset.mem_of_le held owned.self_mem)) ?_
  rintro ⟨⟩ -
  refine Transfers.bind (owns_tenSetError _) ?_
  rintro ⟨⟩ -
  exact Transfers.pure rfl rfl

theorem owns_tenBufferSize {owned : OwnedBuffer} (held : owned.blocks ≤ given) :
    Owns grants given (tenBufferSize owned) (fun _ => given) (· = owned.buffer.size) := by
  refine Transfers.bind (owns_access (Multiset.mem_of_le held owned.self_mem)) ?_
  rintro ⟨⟩ -
  refine Transfers.bind (owns_tenSetError _) ?_
  rintro ⟨⟩ -
  exact Transfers.pure rfl rfl

theorem owns_tenBufferClear (owned : OwnedBuffer) :
    Owns grants owned.blocks (tenBufferClear owned) OwnedBuffer.blocks fun _ => True := by
  refine Transfers.bind (owns_access owned.self_mem) ?_
  rintro ⟨⟩ -
  exact Transfers.pure rfl trivial

end Ownership

section Forgetting

theorem unseen_readBlock (pointer : Option Nat) (size : Nat) :
    Unseen SameRequests (readBlock pointer size) := by
  unfold readBlock
  split
  · exact Unseen.pure ()
  · cases pointer with
    | none => exact unseen_stuck
    | some block => exact unseen_access block

theorem keeps_tenBufferCreate :
    Keeps (Option.map OwnedBuffer.buffer) tenBufferCreate Dotten.tenBufferCreate := by
  refine Erases.bind keeps_tenMalloc ?_
  rintro (_ | self)
  · exact Simulates.pure rfl
  · exact Erases.bind (keeps_tenSetError _) fun _ => Simulates.pure rfl

theorem unseen_tenBufferDestroy (owned : Option OwnedBuffer) :
    Unseen SameRequests (tenBufferDestroy owned) := by
  cases owned with
  | none => exact Unseen.pure ()
  | some owned =>
      exact Unseen.bind (unseen_access _) fun _ =>
        Unseen.bind (unseen_tenFree _) fun _ => unseen_tenFree _

theorem keeps_tenBufferWrite (owned : OwnedBuffer) (data : Option Bytes) (size : Nat) :
    Keeps (Prod.map id OwnedBuffer.buffer) (tenBufferWrite owned data size)
      (Dotten.tenBufferWrite owned.buffer data size) := by
  have answer : ∀ code, Keeps (Prod.map id OwnedBuffer.buffer)
      (do
        tenSetError code
        return (code, owned))
      (do
        Dotten.tenSetError code
        return (code, owned.buffer)) :=
    fun code => Erases.bind (keeps_tenSetError code) fun _ => Simulates.pure rfl
  cases data with
  | none => exact Simulates.ite (fun _ => answer _) fun _ => answer _
  | some data =>
      refine Simulates.ite (fun _ => answer _) fun _ => ?_
      refine Simulates.skip (unseen_access _) fun _ => Simulates.ite (fun _ => ?_) fun _ => ?_
      · refine Erases.bind (keeps_tenRealloc _) ?_
        rintro (_ | block)
        · exact Simulates.pure rfl
        · exact Erases.bind (keeps_tenSetError _) fun _ => Simulates.pure rfl
      · obtain ⟨self, pointer, buffer, placed⟩ := owned
        cases pointer with
        | none => exact keeps_stuck _ _
        | some block =>
            exact Simulates.skip (unseen_access _) fun _ =>
              Erases.bind (keeps_tenSetError _) fun _ => Simulates.pure rfl

theorem keeps_tenBufferData (owned : OwnedBuffer) :
    Keeps Prod.snd (tenBufferData owned) (Dotten.tenBufferData owned.buffer) :=
  Simulates.skip (unseen_access _) fun _ =>
    Erases.bind (keeps_tenSetError _) fun _ => Simulates.pure rfl

theorem keeps_tenBufferSize (owned : OwnedBuffer) :
    Keeps id (tenBufferSize owned) (Dotten.tenBufferSize owned.buffer) :=
  Simulates.skip (unseen_access _) fun _ =>
    Erases.bind (keeps_tenSetError _) fun _ => Simulates.pure rfl

theorem keeps_tenBufferClear (owned : OwnedBuffer) :
    Keeps OwnedBuffer.buffer (tenBufferClear owned)
      (pure (Dotten.tenBufferClear owned.buffer)) :=
  Simulates.skip (unseen_access _) fun _ => Simulates.pure rfl

end Forgetting

end Heap

end Dotten
