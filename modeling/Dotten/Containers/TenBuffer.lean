/-
Module: Dotten.Containers.TenBuffer
Layer: Containers
Purpose: The byte buffers of buffer.c, and what each function does to the
  bytes they hold, whichever allocations are refused.
Imports: Dotten.Containers.TenString
Main exports: TenBuffer, TenBuffer.contents, TenBuffer.Valid, tenBufferCreate,
  tenBufferWrite, tenBufferClear, tenBufferCreate_spec, tenBufferWrite_spec
-/
import Dotten.Containers.TenString

namespace Dotten

open Dotten.Library

/-- `struct ten_buffer`: what has been written to the data block, how much of
it counts and the size of the block.  A buffer that has no block yet has
nothing written and capacity 0. -/
structure TenBuffer where
  data : Bytes
  size : Nat
  capacity : Nat
deriving DecidableEq, Repr, Inhabited

/-- `TEN_BUFFER_INITIAL_CAPACITY`. -/
def tenBufferInitialCapacity : Nat := 16

/-- `ten_buffer_create`. -/
def tenBufferCreate : Ten (Option TenBuffer) := do
  let some _ ← tenMalloc
    | return none
  tenSetError .ok
  return some { data := [], size := 0, capacity := 0 }

/-- The `memcpy` behind the bytes that count, and the new size. -/
def TenBuffer.put (buffer : TenBuffer) (source : Bytes) : TenBuffer :=
  { buffer with
    data := buffer.data.take buffer.size ++ source ++
      buffer.data.drop (buffer.size + source.length)
    size := buffer.size + source.length }

/-- `ten_buffer_write` of the first `size` bytes at `data` to a buffer that
exists: the return code and the buffer. -/
def tenBufferWrite (buffer : TenBuffer) (data : Option Bytes) (size : Nat) :
    Ten (TenErrorCode × TenBuffer) :=
  match data with
  | none => do
      if size > 0 then
        tenSetError .nullArgument
        return (.nullArgument, buffer)
      else
        tenSetError .ok
        return (.ok, buffer)
  | some data => do
      if size = 0 then
        tenSetError .ok
        return (.ok, buffer)
      else
        let newSize := buffer.size + size
        if newSize > buffer.capacity then
          let first :=
            if buffer.capacity = 0 then tenBufferInitialCapacity else buffer.capacity * 2
          let newCapacity := doubleUntil newSize newSize first
          let some _ ← tenRealloc
            | return (.outOfMemory, buffer)
          tenSetError .ok
          return (.ok, { buffer with capacity := newCapacity }.put (data.take size))
        else
          tenSetError .ok
          return (.ok, buffer.put (data.take size))

/-- `ten_buffer_data` of a buffer. -/
def tenBufferData (buffer : TenBuffer) : Ten Bytes := do
  tenSetError .ok
  return buffer.data

/-- `ten_buffer_size` of a buffer. -/
def tenBufferSize (buffer : TenBuffer) : Ten Nat := do
  tenSetError .ok
  return buffer.size

/-- `ten_buffer_clear` of a buffer. -/
def tenBufferClear (buffer : TenBuffer) : TenBuffer := { buffer with size := 0 }

namespace TenBuffer

/-- The bytes that count. -/
def contents (buffer : TenBuffer) : Bytes := buffer.data.take buffer.size

/-- The representation invariant: the bytes that count have been written, and
what has been written lies in the block. -/
structure Valid (buffer : TenBuffer) : Prop where
  written : buffer.size ≤ buffer.data.length
  fits : buffer.data.length ≤ buffer.capacity

variable {buffer : TenBuffer}

theorem Valid.length_contents (valid : buffer.Valid) : buffer.contents.length = buffer.size := by
  rw [contents, List.length_take]
  exact Nat.min_eq_left valid.written

theorem Valid.put (valid : buffer.Valid) {source : Bytes} {capacity : Nat}
    (grown : buffer.capacity ≤ capacity) (room : buffer.size + source.length ≤ capacity) :
    ({ buffer with capacity := capacity }.put source).Valid := by
  have written := valid.written
  have fits := valid.fits
  constructor
  · simp only [TenBuffer.put, List.length_append, List.length_take, List.length_drop]
    omega
  · simp only [TenBuffer.put, List.length_append, List.length_take, List.length_drop]
    omega

theorem Valid.contents_put (valid : buffer.Valid) (source : Bytes) (capacity : Nat) :
    ({ buffer with capacity := capacity }.put source).contents = buffer.contents ++ source := by
  have start : (buffer.data.take buffer.size ++ source).length = buffer.size + source.length := by
    rw [List.length_append, List.length_take, Nat.min_eq_left valid.written]
  change (buffer.data.take buffer.size ++ source ++ _).take (buffer.size + source.length) = _
  rw [← start, List.take_left]
  rfl

theorem Valid.clear (valid : buffer.Valid) : (tenBufferClear buffer).Valid where
  written := Nat.zero_le _
  fits := valid.fits

@[simp] theorem contents_clear : (tenBufferClear buffer).contents = [] := rfl

end TenBuffer

/-- The buffer that `ten_buffer_create` makes. -/
def emptyBuffer : TenBuffer := { data := [], size := 0, capacity := 0 }

theorem emptyBuffer_valid : emptyBuffer.Valid :=
  ⟨Nat.le_refl 0, Nat.le_refl 0⟩

section Specifications

variable {grants : Schedule} {world : World}

@[simp] theorem returns_tenBufferData (buffer : TenBuffer) (post : Bytes → World → Prop) :
    Returns (tenBufferData buffer) grants world post ↔
      post buffer.data { world with lastError := .ok } := by
  simp only [tenBufferData, returns_bind, returns_tenSetError, returns_pure]

@[simp] theorem returns_tenBufferSize (buffer : TenBuffer) (post : Nat → World → Prop) :
    Returns (tenBufferSize buffer) grants world post ↔
      post buffer.size { world with lastError := .ok } := by
  simp only [tenBufferSize, returns_bind, returns_tenSetError, returns_pure]

/-- A write returns, whatever the buffer and the source are. -/
theorem tenBufferWrite_returns (buffer : TenBuffer) (data : Option Bytes) (size : Nat) :
    Returns (tenBufferWrite buffer data size) grants world (fun _ _ => True) := by
  unfold tenBufferWrite
  cases data with
  | none => apply returns_ite <;> intro _ <;> simp
  | some data =>
      apply returns_ite
      · intro _
        simp
      · intro _
        apply returns_ite
        · intro _
          simp
        · intro _
          simp

/-- What a function that makes a buffer with the given contents returns. -/
def NewBuffer (grants : Schedule) (contents : Bytes) (reply : Option TenBuffer) : Prop :=
  (reply = none ∧ ¬ Ample grants) ∨
    ∃ buffer, reply = some buffer ∧ buffer.Valid ∧ buffer.contents = contents

/-- `ten_buffer_create`: an empty buffer, or NULL. -/
theorem tenBufferCreate_spec :
    Returns tenBufferCreate grants world (fun reply _ => NewBuffer grants [] reply) := by
  simp only [tenBufferCreate, returns_bind, returns_tenMalloc]
  constructor
  · intro granted
    simp only [returns_tenSetError, returns_pure]
    exact .inr ⟨_, rfl, ⟨Nat.le_refl 0, Nat.le_refl 0⟩, rfl⟩
  · intro refused
    rw [returns_pure]
    exact .inl ⟨rfl, not_ample_of_refused refused⟩

/-- What a write of `source` may do. -/
inductive WriteOutcome (grants : Schedule) (buffer : TenBuffer) (source : Bytes) :
    TenErrorCode → TenBuffer → Prop where
  | written {after : TenBuffer} (valid : after.Valid)
      (contents : after.contents = buffer.contents ++ source) :
      WriteOutcome grants buffer source .ok after
  | refused (shortage : ¬ Ample grants) : WriteOutcome grants buffer source .outOfMemory buffer

theorem WriteOutcome.of_ample {buffer after : TenBuffer} {source : Bytes} {code : TenErrorCode}
    (ample : Ample grants) (outcome : WriteOutcome grants buffer source code after) :
    code = .ok ∧ after.Valid ∧ after.contents = buffer.contents ++ source := by
  cases outcome with
  | written valid contents => exact ⟨rfl, valid, contents⟩
  | refused shortage => exact absurd ample shortage

/-- `ten_buffer_write`: the bytes are appended, or nothing changes. -/
theorem tenBufferWrite_spec {buffer : TenBuffer} (valid : buffer.Valid) (data : Bytes)
    (size : Nat) :
    Returns (tenBufferWrite buffer (some data) size) grants world (fun reply after =>
      after.lastError = reply.1 ∧
        WriteOutcome grants buffer (data.take size) reply.1 reply.2) := by
  have written := valid.written
  have fits := valid.fits
  have short : (data.take size).length ≤ size := List.length_take_le size data
  simp only [tenBufferWrite]
  apply returns_ite
  · rintro rfl
    simp only [returns_bind, returns_tenSetError, returns_pure]
    exact ⟨trivial, .written valid (by simp)⟩
  · intro positive
    apply returns_ite
    · intro grows
      simp only [returns_bind, returns_tenRealloc, returns_tenMalloc]
      constructor
      · intro granted
        simp only [returns_tenSetError, returns_pure]
        have start : 0 < if buffer.capacity = 0 then tenBufferInitialCapacity
            else buffer.capacity * 2 := by
          split
          · decide
          · omega
        have room := doubleUntil_ge (buffer.size + size) (buffer.size + size) _ start (by omega)
        exact ⟨trivial, .written (valid.put (by omega) (by omega)) (valid.contents_put _ _)⟩
      · intro refused
        rw [returns_pure]
        exact ⟨rfl, .refused (not_ample_of_refused refused)⟩
    · intro roomy
      simp only [returns_bind, returns_tenSetError, returns_pure]
      exact ⟨trivial, .written (valid.put (Nat.le_refl _) (by omega)) (valid.contents_put _ _)⟩

end Specifications

end Dotten
