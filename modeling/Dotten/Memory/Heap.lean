/-
Module: Dotten.Memory.Heap
Layer: Memory
Purpose: The allocator of memory.c with the blocks that are in use.  A block that
  is not in use can be neither read nor freed: a program that tries to gets
  stuck.  When the blocks are forgotten, what is left is the allocator of the
  other layers.
Imports: Dotten.Core.World, Dotten.Library.Ownership, Dotten.Library.Erasure
Main exports: Heap, Heap.blocks, Heap.Op, Heap.tenSetError, Heap.tenMalloc,
  Heap.tenRealloc, Heap.tenMemdup, Heap.tenFree, Heap.access, Heap.stuck,
  Heap.Owns, Heap.Keeps
-/
import Dotten.Core.World
import Dotten.Library.Ownership
import Dotten.Library.Erasure
import Mathlib.Data.Finset.Basic
import Mathlib.Data.Multiset.OrderedMonoid
import Mathlib.Tactic.Abel

namespace Dotten

open Dotten.Library

/-- The state of the process with its allocated blocks.  A block is the number
of the request that was granted it, so a block that was freed never comes
back. -/
structure Heap where
  world : World
  live : Finset Nat
  fresh : ∀ block ∈ live, block < world.requests

namespace Heap

/-- A function of the library that uses memory. -/
abbrev Op (α : Type) := Prog Schedule Heap α

/-- The blocks in use. -/
def blocks (heap : Heap) : Multiset Nat := heap.live.val

/-- The heap of a process that has allocated nothing yet. -/
def start : Heap where
  world := default
  live := ∅
  fresh := fun _ member => absurd member (Finset.notMem_empty _)

/-- The heap after a granted request. -/
def granted (heap : Heap) : Heap where
  world := heap.world.granted
  live := Finset.cons heap.world.requests heap.live fun member =>
    Nat.lt_irrefl _ (heap.fresh _ member)
  fresh block member := by
    rcases Finset.mem_cons.mp member with rfl | old
    · exact Nat.lt_succ_self _
    · exact Nat.lt_succ_of_lt (heap.fresh _ old)

/-- The heap after a refused request. -/
def refused (heap : Heap) : Heap where
  world := heap.world.refused
  live := heap.live
  fresh block member := Nat.lt_succ_of_lt (heap.fresh block member)

/-- The heap without a block. -/
def without (heap : Heap) (block : Nat) : Heap where
  world := heap.world
  live := heap.live.erase block
  fresh other member := heap.fresh other (Finset.mem_of_mem_erase member)

/-- A read through a pointer that points to nothing. -/
def stuck {α : Type} : Op α := fun _ _ => none

/-- `ten__set_error`. -/
def tenSetError (code : TenErrorCode) : Op Unit := fun _ heap =>
  some ((), { heap with world := { heap.world with lastError := code }, fresh := heap.fresh })

/-- `ten_malloc`. -/
def tenMalloc : Op (Option Nat) := fun grants heap =>
  if grants heap.world.requests then some (some heap.world.requests, heap.granted)
  else some (none, heap.refused)

/-- `ten_calloc`. -/
def tenCalloc : Op (Option Nat) := tenMalloc

/-- A read or a write of a block. -/
def access (block : Nat) : Op Unit := fun _ heap =>
  if block ∈ heap.live then some ((), heap) else none

/-- `ten_free`. -/
def tenFree : Option Nat → Op Unit
  | none => return ()
  | some block => fun _ heap =>
      if block ∈ heap.live then some ((), heap.without block) else none

/-- `ten_realloc` to a positive size.  The old block is freed when there is a new
one, and is left alone when there is none. -/
def tenRealloc (old : Option Nat) : Op (Option Nat) := do
  old.forM access
  let some block ← tenMalloc
    | return none
  tenFree old
  return some block

/-- `ten_memdup` of the first `size` bytes of a block, or of memory that was not
allocated. -/
def tenMemdup (source : Option Nat) (data : Bytes) (size : Nat) : Op (Option (Nat × Bytes)) := do
  let some copy ← tenMalloc
    | return none
  source.forM access
  tenSetError .ok
  return some (copy, data.take size)

/-- What a program is given and what its result owns, in blocks. -/
abbrev Owns {α : Type} (grants : Schedule) (given : Multiset Nat) (program : Op α)
    (owns : α → Multiset Nat) (fact : α → Prop) : Prop :=
  Transfers blocks grants given program owns fact

/-- As many requests were made in the two states.  The error codes may differ
for a while: destroying a value sets them on the way. -/
def SameRequests (heap : Heap) (world : World) : Prop := heap.world.requests = world.requests

/-- The program does what the plain one does, with an account of the blocks. -/
abbrev Keeps {α β : Type} (view : α → β) (program : Op α) (plain : Ten β) : Prop :=
  Erases SameRequests view program plain

/-- The block that a pointer points to, if it is not NULL. -/
def ofPointer (pointer : Option Nat) : Multiset Nat := ownsOption ({·}) pointer

@[simp] theorem ofPointer_none : ofPointer none = 0 := rfl

@[simp] theorem ofPointer_some (block : Nat) : ofPointer (some block) = {block} := rfl

section Rules

variable {grants : Schedule} {given : Multiset Nat}

theorem mem_live_of_blocks {heap : Heap} {block : Nat} {rest : Multiset Nat}
    (holding : heap.blocks = given + rest) (member : block ∈ given) : block ∈ heap.live := by
  rw [← Finset.mem_val]
  change block ∈ heap.blocks
  rw [holding]
  exact Multiset.mem_add.mpr (.inl member)

theorem owns_tenSetError (code : TenErrorCode) :
    Owns grants given (tenSetError code) (fun _ => given) fun _ => True := by
  intro heap rest holding
  exact ⟨(), _, rfl, holding, trivial⟩

theorem owns_tenMalloc :
    Owns grants 0 tenMalloc ofPointer fun _ => True := by
  intro heap rest holding
  cases answer : grants heap.world.requests with
  | true =>
      refine ⟨some heap.world.requests, heap.granted, by simp [tenMalloc, answer], ?_, trivial⟩
      rw [ofPointer_some, Multiset.singleton_add]
      rw [zero_add] at holding
      rw [← holding]
      rfl
  | false =>
      exact ⟨none, heap.refused, by simp [tenMalloc, answer], holding, trivial⟩

/-- A block that is held may be read and written. -/
theorem owns_access {block : Nat} (member : block ∈ given) :
    Owns grants given (access block) (fun _ => given) fun _ => True := by
  intro heap rest holding
  refine ⟨(), heap, ?_, holding, trivial⟩
  rw [access, if_pos (mem_live_of_blocks holding member)]

/-- A block that is held may be freed, and is then held no longer. -/
theorem owns_tenFree (pointer : Option Nat) :
    Owns grants (ofPointer pointer) (tenFree pointer) (fun _ => 0) fun _ => True := by
  cases pointer with
  | none => exact Transfers.pure rfl trivial
  | some block =>
      intro heap rest holding
      rw [ofPointer_some] at holding
      refine ⟨(), heap.without block, ?_, ?_, trivial⟩
      · simp only [tenFree]
        rw [if_pos (mem_live_of_blocks holding (Multiset.mem_singleton_self block))]
      · change (heap.live.erase block).val = 0 + rest
        rw [Finset.erase_val]
        change heap.blocks.erase block = 0 + rest
        rw [holding, Multiset.singleton_add, Multiset.erase_cons_head, zero_add]

theorem owns_forM_access {pointer : Option Nat} (held : ofPointer pointer ≤ given) :
    Owns grants given (pointer.forM access) (fun _ => given) fun _ => True := by
  cases pointer with
  | none => exact Transfers.pure rfl trivial
  | some block => exact owns_access (Multiset.singleton_le.mp held)

/-- A resized block takes the place of the old one, and a refusal changes
nothing. -/
theorem owns_tenRealloc (old : Option Nat) :
    Owns grants (ofPointer old) (tenRealloc old)
      (fun reply => if reply = none then ofPointer old else ofPointer reply) fun _ => True := by
  refine Transfers.bind (owns_forM_access le_rfl) ?_
  rintro ⟨⟩ -
  refine Transfers.call (ofPointer old) owns_tenMalloc (by abel) ?_
  rintro (_ | block) -
  · exact Transfers.pure (by simp) trivial
  · refine Transfers.call {block} (owns_tenFree old) (by simp [add_comm]) ?_
    rintro ⟨⟩ -
    exact Transfers.pure (by simp) trivial

theorem owns_tenMemdup {source : Option Nat} (held : ofPointer source ≤ given) (data : Bytes)
    (size : Nat) :
    Owns grants given (tenMemdup source data size)
      (fun reply => given + ofPointer (reply.map Prod.fst)) fun _ => True := by
  refine Transfers.call given owns_tenMalloc (zero_add _).symm ?_
  rintro (_ | copy) -
  · exact Transfers.pure (by simp) trivial
  · refine Transfers.bind (owns_forM_access (held.trans (Multiset.le_add_left _ _))) ?_
    rintro ⟨⟩ -
    refine Transfers.bind (owns_tenSetError _) ?_
    rintro ⟨⟩ -
    exact Transfers.pure (by simp [add_comm]) trivial

end Rules

section Forgetting

theorem keeps_tenSetError (code : TenErrorCode) :
    Keeps id (tenSetError code) (Dotten.tenSetError code) := by
  intro grants heap world a heap' same run
  cases run
  exact ⟨_, _, rfl, rfl, same⟩

theorem unseen_tenSetError (code : TenErrorCode) : Unseen SameRequests (tenSetError code) := by
  intro grants heap world a heap' same run
  cases run
  exact same

theorem keeps_tenMalloc : Keeps id tenMalloc Dotten.tenMalloc := by
  intro grants heap world a heap' same run
  have counted : heap.world.requests = world.requests := same
  unfold tenMalloc at run
  unfold Dotten.tenMalloc
  rw [← counted]
  split at run <;> rename_i answer
  · cases run
    rw [if_pos answer]
    exact ⟨_, _, rfl, rfl, congrArg (· + 1) same⟩
  · cases run
    rw [if_neg answer]
    exact ⟨_, _, rfl, rfl, congrArg (· + 1) same⟩

theorem simulates_stuck {α β : Type} {agree : α → β → Prop} (plain : Ten β) :
    Simulates SameRequests agree stuck plain := by
  intro grants heap world a heap' same run
  cases run

theorem keeps_stuck {α β : Type} (view : α → β) (plain : Ten β) : Keeps view stuck plain :=
  simulates_stuck plain

theorem unseen_stuck {α : Type} : Unseen SameRequests (stuck : Op α) := by
  intro grants heap world a heap' same run
  cases run

theorem keeps_tenCalloc : Keeps id tenCalloc Dotten.tenCalloc := keeps_tenMalloc

theorem unseen_access (block : Nat) : Unseen SameRequests (access block) := by
  intro grants heap world a heap' same run
  unfold access at run
  split at run
  · cases run
    exact same
  · cases run

theorem unseen_forM_access (pointer : Option Nat) :
    Unseen SameRequests (pointer.forM access) := by
  cases pointer with
  | none => exact Unseen.pure ()
  | some block => exact unseen_access block

theorem unseen_tenFree (pointer : Option Nat) : Unseen SameRequests (tenFree pointer) := by
  cases pointer with
  | none => exact Unseen.pure ()
  | some block =>
      intro grants heap world a heap' same run
      simp only [tenFree] at run
      split at run
      · cases run
        exact same
      · cases run

theorem keeps_tenRealloc (old : Option Nat) : Keeps id (tenRealloc old) Dotten.tenRealloc := by
  have plain : Dotten.tenRealloc = (do
      let some block ← Dotten.tenMalloc
        | return none
      return some block : Ten (Option Nat)) := by
    funext grants world
    change Dotten.tenMalloc grants world = (Dotten.tenMalloc grants world).bind _
    unfold Dotten.tenMalloc
    split <;> rfl
  rw [plain]
  refine Simulates.skip (unseen_forM_access old) fun _ => Erases.bind keeps_tenMalloc ?_
  rintro (_ | block)
  · exact Simulates.pure rfl
  · exact Simulates.skip (unseen_tenFree old) fun _ => Simulates.pure rfl

theorem keeps_tenMemdup (source : Option Nat) (data : Bytes) (size : Nat) :
    Keeps (Option.map Prod.snd) (tenMemdup source data size) (Dotten.tenMemdup data size) := by
  refine Erases.bind keeps_tenMalloc ?_
  rintro (_ | copy)
  · exact Simulates.pure rfl
  · exact Simulates.skip (unseen_forM_access source) fun _ =>
      Erases.bind (keeps_tenSetError _) fun _ => Simulates.pure rfl

end Forgetting

end Heap

end Dotten
