/-
Module: Dotten.Containers.ListStorage
Layer: Containers
Purpose: A list over its bytes as storage for a sequence of elements: what its
  growth and its moves do to them while no size wraps.
Imports: Dotten.Containers.TenListBytes
Main exports: Sufficient, Stored, Represents, GrowthFits, GrowOutcome,
  tenListGrow_spec, GrowOutcome.represents, CapacityOutcome,
  created_represents,
  Represents.moveUp, Represents.moveDown
-/
import Dotten.Containers.TenListBytes

namespace Dotten

open Dotten.Library

namespace TenListBytes

/-- The storage holds as many elements as the capacity says, and no more
elements are counted. -/
structure Sufficient (list : TenListBytes) : Prop where
  room : list.capacity * list.elementSize ≤ list.storage.length
  counted : list.count ≤ list.capacity

/-- What holds of a list whose sizes have never wrapped. -/
structure Stored (machine : Machine) (list : TenListBytes) : Prop extends Sufficient list where
  sized : 0 < list.elementSize
  addressable : list.storage.length < 2 ^ machine.width

/-- The storage starts with the elements of the sequence; what is behind them
is stale. -/
structure Represents (machine : Machine) (list : TenListBytes) (items : List Bytes) : Prop
    extends Stored machine list where
  length : items.length = list.count
  cells : Cells list.elementSize items list.storage

/-- The block that `ten__list_grow` asks for has room for the new capacity, or
the request is refused and the old block stays. -/
def GrowthFits (machine : Machine) (grants : Schedule) (world : World) (list : TenListBytes)
    (minCapacity : Nat) : Prop :=
  list.capacity < minCapacity →
    list.newCapacity machine minCapacity * list.elementSize < 2 ^ machine.width ∨
      (grants world.requests = false ∧
        ¬ (machine.wrap (list.newCapacity machine minCapacity * list.elementSize) = 0 ∧
          machine.zeroFrees = true ∧ 0 < list.capacity))

instance (machine : Machine) (grants : Schedule) (world : World) (list : TenListBytes)
    (minCapacity : Nat) : Decidable (list.GrowthFits machine grants world minCapacity) := by
  unfold GrowthFits
  infer_instance

/-- What `ten__list_grow` may do; the request, when there is one, is the next
one of the world. -/
inductive GrowOutcome (machine : Machine) (grants : Schedule) (world : World)
    (list : TenListBytes) (minCapacity : Nat) : TenErrorCode → TenListBytes → Prop where
  | enough (there : minCapacity ≤ list.capacity) :
      GrowOutcome machine grants world list minCapacity .ok list
  | grown (full : list.capacity < minCapacity) (granted : grants world.requests = true)
      {data : Nat} {size : Nat} {fresh : Bytes}
      (asked : size = machine.wrap (list.newCapacity machine minCapacity * list.elementSize))
      (new : fresh.length = size - list.storage.length) :
      GrowOutcome machine grants world list minCapacity .ok
        { list with
          data := some data
          storage := list.storage.take size ++ fresh
          capacity := list.newCapacity machine minCapacity }
  | refused (full : list.capacity < minCapacity) (refusal : grants world.requests = false)
      (kept : ¬ (machine.wrap (list.newCapacity machine minCapacity * list.elementSize) = 0 ∧
        machine.zeroFrees = true)) :
      GrowOutcome machine grants world list minCapacity .outOfMemory list
  | freed (full : list.capacity < minCapacity) (refusal : grants world.requests = false)
      (nothing : machine.wrap (list.newCapacity machine minCapacity * list.elementSize) = 0)
      (frees : machine.zeroFrees = true) :
      GrowOutcome machine grants world list minCapacity .outOfMemory { list with storage := [] }

section Growth

variable {machine : Machine} {grants : Schedule} {world : World} {list after : TenListBytes}
  {minCapacity : Nat} {rc : TenErrorCode}

theorem le_newCapacity (machine : Machine) (list : TenListBytes) (minCapacity : Nat) :
    minCapacity ≤ list.newCapacity machine minCapacity := by
  unfold newCapacity
  generalize (if list.capacity = 0 then _ else _) = doubled
  dsimp only
  split <;> omega

theorem tenListGrow_spec (list : TenListBytes) (minCapacity : Nat) :
    Returns (tenListGrow machine list minCapacity) grants world (fun reply _ =>
      GrowOutcome machine grants world list minCapacity reply.1 reply.2) := by
  unfold tenListGrow
  apply returns_ite
  · intro there
    rw [returns_pure]
    exact .enough there
  · intro full
    rw [Nat.not_le] at full
    rw [returns_bind, returns_tenRealloc]
    refine ⟨?_, ?_, ?_⟩
    · intro granted
      rw [returns_pure]
      exact .grown full granted rfl (by simp)
    · intro refusal nothing
      rw [returns_pure]
      cases frees : machine.zeroFrees with
      | true => exact .freed full refusal nothing frees
      | false => exact .refused full refusal (by rw [frees]; simp)
    · intro refusal something
      rw [returns_pure]
      exact .refused full refusal fun both => something both.1

/-- Growth keeps the elements.  It fails only when the request is refused. -/
theorem GrowOutcome.represents {items : List Bytes}
    (outcome : GrowOutcome machine grants world list minCapacity rc after)
    (represents : Represents machine list items)
    (fits : GrowthFits machine grants world list minCapacity) :
    Represents machine after items ∧ after.elementSize = list.elementSize ∧
      (rc = .ok ∧ minCapacity ≤ after.capacity ∨
        rc = .outOfMemory ∧ grants world.requests = false) := by
  cases outcome with
  | enough there => exact ⟨represents, rfl, .inl ⟨rfl, there⟩⟩
  | @grown full granted data size fresh asked new =>
      have exact : list.newCapacity machine minCapacity * list.elementSize < 2 ^ machine.width := by
        rcases fits full with exact | ⟨refusal, -⟩
        · exact exact
        · rw [refusal] at granted
          cases granted
      have wraps : size = list.newCapacity machine minCapacity * list.elementSize := by
        rw [asked, Machine.wrap, Nat.mod_eq_of_lt exact]
      have length : (list.storage.take size ++ fresh).length = size := by
        rw [List.length_append, List.length_take, new]
        omega
      have larger := le_newCapacity machine list minCapacity
      have counted : list.count ≤ list.newCapacity machine minCapacity := by
        have counted := represents.counted
        omega
      refine ⟨⟨⟨⟨?_, counted⟩, represents.sized, ?_⟩, represents.length, ?_⟩, rfl,
        .inl ⟨rfl, larger⟩⟩
      · exact (wraps.symm.trans length.symm).le
      · exact (length.trans wraps).trans_lt exact
      · apply represents.cells.resize
        rw [represents.length, wraps]
        exact Nat.mul_le_mul_right _ counted
  | refused full refusal kept => exact ⟨represents, rfl, .inr ⟨rfl, refusal⟩⟩
  | freed full refusal nothing frees =>
      -- nothing was in the block that is gone
      have none : list.capacity = 0 := by
        rcases fits full with exact | ⟨-, kept⟩
        · have larger := le_newCapacity machine list minCapacity
          rw [Machine.wrap, Nat.mod_eq_of_lt exact, Nat.mul_eq_zero] at nothing
          have sized := represents.sized
          omega
        · by_contra some
          exact kept ⟨nothing, frees, Nat.pos_of_ne_zero some⟩
      have empty : list.count = 0 := by
        have counted := represents.counted
        omega
      obtain rfl : items = [] := List.length_eq_zero_iff.mp (represents.length.trans empty)
      refine ⟨⟨⟨⟨?_, represents.counted⟩, represents.sized, Nat.two_pow_pos _⟩, represents.length,
        cells_nil []⟩, rfl, .inr ⟨rfl, refusal⟩⟩
      dsimp only
      rw [none, Nat.zero_mul]
      exact Nat.zero_le _

/-- How the code that growth returns and the capacity behind it depend on the
allocator. -/
inductive CapacityOutcome (machine : Machine) (grants : Schedule) (world : World)
    (list : TenListBytes) (minCapacity : Nat) : TenErrorCode → Nat → Prop where
  | enough (there : minCapacity ≤ list.capacity) :
      CapacityOutcome machine grants world list minCapacity .ok list.capacity
  | grown (full : list.capacity < minCapacity) (granted : grants world.requests = true) :
      CapacityOutcome machine grants world list minCapacity .ok
        (list.newCapacity machine minCapacity)
  | refused (full : list.capacity < minCapacity) (refusal : grants world.requests = false) :
      CapacityOutcome machine grants world list minCapacity .outOfMemory list.capacity

theorem GrowOutcome.capacity
    (outcome : GrowOutcome machine grants world list minCapacity rc after) :
    CapacityOutcome machine grants world list minCapacity rc after.capacity := by
  cases outcome with
  | enough there => exact .enough there
  | grown full granted _ _ => exact .grown full granted
  | refused full refusal _ => exact .refused full refusal
  | freed full refusal _ _ => exact .refused full refusal

end Growth

/-- A list that `ten_list_create` returned is empty, and its elements have a
size. -/
theorem created_represents {machine : Machine} {grants : Schedule} {world after : World}
    {type : TenType} {list : TenListBytes}
    (made : tenListCreate machine type grants world = some (some list, after)) :
    Represents machine list [] ∧ list.elementSize = machine.typeSize type := by
  have spec : Returns (tenListCreate machine type) grants world (fun reply _ =>
      ∀ list, reply = some list →
        Represents machine list [] ∧ list.elementSize = machine.typeSize type) := by
    unfold tenListCreate
    apply returns_ite
    · intro unsized
      simp only [returns_bind, returns_tenSetError, returns_pure]
      rintro list ⟨⟩
    · intro sized
      simp only [returns_bind, returns_tenMalloc]
      constructor
      · intro granted
        simp only [returns_tenSetError, returns_pure]
        rintro list ⟨⟩
        exact ⟨⟨⟨⟨by simp, Nat.le_refl 0⟩, Nat.pos_of_ne_zero sized, Nat.two_pow_pos _⟩, rfl,
          cells_nil []⟩, rfl⟩
      · intro refused
        rw [returns_pure]
        rintro list ⟨⟩
  exact spec.eq made list rfl

section Elements

variable {machine : Machine} {grants : Schedule} {world : World} {list : TenListBytes}
  {items : List Bytes} {index : Nat}

/-- Nothing wraps that lies inside the storage. -/
theorem Stored.wrap_mul (stored : Stored machine list) {places : Nat}
    (within : places ≤ list.capacity) :
    machine.wrap (places * list.elementSize) = places * list.elementSize := by
  have inside := Nat.mul_le_mul_right list.elementSize within
  have room := stored.room
  have addressable := stored.addressable
  exact Nat.mod_eq_of_lt (by omega)

theorem Stored.slot_eq (stored : Stored machine list) (within : index ≤ list.capacity) :
    list.slot machine index = index * list.elementSize :=
  stored.wrap_mul within

theorem Stored.wrap_count (stored : Stored machine list) {places : Nat}
    (within : places ≤ list.capacity) : machine.wrap places = places := by
  have inside := Nat.mul_le_mul_right list.elementSize within
  have smaller := Nat.le_mul_of_pos_right places stored.sized
  have room := stored.room
  have addressable := stored.addressable
  exact Nat.mod_eq_of_lt (by omega)

theorem memmove_run {target source size : Nat} {moved : Bytes}
    (move : moveBlock list.storage target source size = some moved) :
    list.memmove target source size grants world = some ({ list with storage := moved }, world) := by
  unfold memmove
  rw [move]
  rfl

/-- Behind the move there is a gap at the index, in which nothing has been
written. -/
theorem Represents.moveUp (represents : Represents machine list items)
    (within : index ≤ list.count) (room : list.count < list.capacity) :
    ∃ moved, Gap list.elementSize items index moved ∧ moved.length = list.storage.length ∧
      Cells list.elementSize (doubledAt items index) moved ∧
      ∀ grants world, list.moveUp machine index grants world =
        some ({ list with storage := moved }, world) := by
  have enough : (items.length + 1) * list.elementSize ≤ list.storage.length := by
    rw [represents.length]
    exact (Nat.mul_le_mul_right _ room).trans represents.room
  unfold TenListBytes.moveUp
  split
  · rename_i below
    obtain ⟨moved, move, gap, doubled⟩ :=
      represents.cells.gap_move (within.trans represents.length.ge) enough
    refine ⟨moved, gap, length_of_moveBlock move, doubled (below.trans_eq represents.length.symm),
      fun grants world => memmove_run ?_⟩
    rw [represents.slot_eq (within.trans represents.counted),
      represents.wrap_mul ((Nat.sub_le _ _).trans represents.counted), ← represents.length]
    exact move
  · rename_i last
    obtain rfl : index = items.length := by
      rw [represents.length]
      omega
    have same : doubledAt items items.length = items := by
      simp [doubledAt]
    exact ⟨list.storage, represents.cells.gap_end enough, rfl, same.symm ▸ represents.cells,
      fun _ _ => rfl⟩

/-- Behind the move the element at the index is gone. -/
theorem Represents.moveDown (represents : Represents machine list items)
    (within : index < list.count) :
    ∃ moved, Cells list.elementSize (items.eraseIdx index) moved ∧
      moved.length = list.storage.length ∧
      ∀ grants world, list.moveDown machine index grants world =
        some ({ list with storage := moved }, world) := by
  have counted := represents.counted
  have here : index < items.length := by
    rw [represents.length]
    exact within
  unfold TenListBytes.moveDown
  rw [represents.wrap_count (by omega)]
  split
  · obtain ⟨moved, move, cells⟩ := represents.cells.erase_move here
    refine ⟨moved, cells, length_of_moveBlock move, fun grants world => memmove_run ?_⟩
    rw [represents.slot_eq (by omega), represents.wrap_mul (by omega), ← represents.length]
    exact move
  · rename_i last
    have all : items.eraseIdx index = items.take index := by
      rw [List.eraseIdx_eq_take_drop_succ, List.drop_eq_nil_of_le, List.append_nil]
      rw [represents.length]
      omega
    exact ⟨list.storage, all ▸ represents.cells.take index, rfl, fun _ _ => rfl⟩

end Elements

end TenListBytes

end Dotten
