/-
Module: Dotten.Containers.ListOverflow
Layer: Containers
Purpose: A list keeps as much storage as its capacity says exactly as long as
  the sizes it computes do not wrap.
Imports: Dotten.Containers.ListCalls
Main exports: insertValue_fits, perform_fits, tenList_sufficient_iff,
  tenList_not_sufficient_reserve
-/
import Dotten.Containers.ListCalls

namespace Dotten

open Dotten.Library
open TenListBytes

section Inversions

variable {machine : Machine} {grants : Schedule} {world : World} {list : TenListBytes}
  {index : Nat} {value : ListValue}

/-- A `memmove` that returns wrote inside the block. -/
theorem within_of_memmove {target source size : Nat} {post : TenListBytes → World → Prop}
    (returns : Returns (list.memmove target source size) grants world post) :
    target + size ≤ list.storage.length ∧ ∃ moved : Bytes,
      moved.length = list.storage.length ∧ post { list with storage := moved } world := by
  unfold memmove at returns
  split at returns
  · cases not_returns_stuck returns
  · rename_i moved move
    rw [returns_pure] at returns
    exact ⟨within_of_moveBlock move, moved, length_of_moveBlock move, returns⟩

/-- A `memcpy` that returns wrote inside the block. -/
theorem within_of_memcpy {offset : Nat} {post : TenListBytes → World → Prop}
    (returns : Returns (list.memcpy offset value) grants world post) :
    offset + list.elementSize ≤ list.storage.length ∧ ∃ written : Bytes,
      written.length = list.storage.length ∧ post { list with storage := written } world := by
  unfold memcpy at returns
  split at returns
  · cases not_returns_stuck returns
  · rename_i written copied
    obtain ⟨item, read, write⟩ := Option.bind_eq_some_iff.mp copied
    rw [returns_pure] at returns
    have sized : item.length = list.elementSize := by
      cases value with
      | outside memory => exact length_of_readBlock read
      | inside address offset =>
          rw [readValue] at read
          split at read
          · exact length_of_readBlock read
          · cases read
    have within := within_of_writeBlock write
    rw [sized] at within
    exact ⟨within, written, length_of_writeBlock write, returns⟩

/-- What comes behind the growth in `ten_list_insert`, if it returns. -/
theorem within_of_insert {post : TenErrorCode × TenListBytes → World → Prop}
    (returns : Returns
      (do
        let list ← list.moveUp machine index
        let list ← list.memcpy (list.slot machine index) value
        tenSetError .ok
        return (.ok, { list with count := machine.wrap (list.count + 1) }))
      grants world post) :
    (index < list.count → list.slot machine index + list.elementSize +
        machine.wrap ((list.count - index) * list.elementSize) ≤ list.storage.length) ∧
      list.slot machine index + list.elementSize ≤ list.storage.length ∧
      ∃ written : Bytes, written.length = list.storage.length ∧
        post (.ok, { list with storage := written, count := machine.wrap (list.count + 1) })
          { world with lastError := .ok } := by
  rw [returns_bind] at returns
  unfold moveUp at returns
  split at returns
  · obtain ⟨moves, moved, length, rest⟩ := within_of_memmove returns
    rw [returns_bind] at rest
    obtain ⟨writes, written, length', rest⟩ := within_of_memcpy rest
    simp only [returns_bind, returns_tenSetError, returns_pure] at rest
    refine ⟨fun _ => moves, ?_, written, length'.trans length, rest⟩
    rw [← length]
    exact writes
  · rename_i last
    rw [returns_pure, returns_bind] at returns
    obtain ⟨writes, written, length, rest⟩ := within_of_memcpy returns
    simp only [returns_bind, returns_tenSetError, returns_pure] at rest
    exact ⟨fun before => absurd before last, writes, written, length, rest⟩

end Inversions

section Necessity

variable {machine : Machine} {grants : Schedule} {world : World} {list : TenListBytes}
  {index : Nat} {value : ListValue}

/-- A growth that leaves enough storage asked for as much as it needs. -/
theorem TenListBytes.GrowOutcome.fits {after : TenListBytes} {minCapacity : Nat} {rc : TenErrorCode}
    (outcome : GrowOutcome machine grants world list minCapacity rc after)
    (stored : Stored machine list)
    (room : after.capacity * after.elementSize ≤ after.storage.length) :
    list.GrowthFits machine grants world minCapacity := by
  intro full
  cases outcome with
  | enough there => omega
  | @grown _ granted data size fresh asked new =>
      left
      have length : (list.storage.take size ++ fresh).length = size := by
        rw [List.length_append, List.length_take, new]
        omega
      have small : size < 2 ^ machine.width := by
        rw [asked]
        exact Nat.mod_lt _ (Nat.two_pow_pos _)
      dsimp only at room
      omega
  | refused _ refusal kept =>
      exact .inr ⟨refusal, fun all => kept ⟨all.1, all.2.1⟩⟩
  | freed _ refusal nothing frees =>
      refine .inr ⟨refusal, fun all => ?_⟩
      have positive := Nat.mul_pos all.2.2 stored.sized
      dsimp only [List.length_nil] at room
      omega

/-- A list that has counted to the end of `size_t` has no room for what the
insert writes, since the growth it asks for is none. -/
theorem count_fits (stored : Stored machine list) (within : index ≤ list.count)
    {grown : TenListBytes} {rc : TenErrorCode} {world' : World}
    {post : TenErrorCode × TenListBytes → World → Prop}
    (outcome : GrowOutcome machine grants world list (machine.wrap (list.count + 1)) rc grown)
    (rest : Returns
      (if rc ≠ .ok then
        (do
          tenSetError rc
          return (rc, grown))
      else
        (do
          let list ← grown.moveUp machine index
          let list ← list.memcpy (list.slot machine index) value
          tenSetError .ok
          return (.ok, { list with count := machine.wrap (list.count + 1) })))
      grants world' post) :
    list.count + 1 < 2 ^ machine.width := by
  have counted := stored.counted
  have last : machine.wrap list.count = list.count := stored.wrap_count counted
  by_contra wraps
  have small : list.count < 2 ^ machine.width := by
    rw [← last]
    exact Nat.mod_lt _ (Nat.two_pow_pos _)
  have none : machine.wrap (list.count + 1) = 0 := by
    rw [show list.count + 1 = 2 ^ machine.width by omega]
    exact Nat.mod_self _
  rw [none] at outcome
  obtain ⟨rfl, rfl⟩ := outcome.same (Nat.zero_le _)
  rw [if_neg (by simp)] at rest
  obtain ⟨moves, writes, -⟩ := within_of_insert rest
  rw [stored.slot_eq (within.trans counted)] at moves writes
  -- the last byte that is written is the last one of the element behind the count
  have beyond : (grown.count + 1) * grown.elementSize ≤ grown.storage.length := by
    rcases Nat.lt_or_eq_of_le within with before | rfl
    · have moves := moves before
      rw [stored.wrap_mul ((Nat.sub_le _ _).trans counted)] at moves
      have all : index * grown.elementSize + (grown.count - index) * grown.elementSize =
          grown.count * grown.elementSize := by
        rw [← Nat.add_mul, Nat.add_sub_cancel' within]
      rw [Nat.succ_mul]
      omega
    · rw [Nat.succ_mul]
      exact writes
  have smaller := Nat.le_mul_of_pos_right (grown.count + 1) stored.sized
  have addressable := stored.addressable
  omega

theorem insertValue_fits (stored : Stored machine list) (within : index ≤ list.count)
    (returns : Returns (insertValue machine list index value) grants world
      (fun reply _ => reply.2.Sufficient)) :
    list.InsertFits machine grants world := by
  unfold insertValue at returns
  rw [if_neg (Nat.not_lt.mpr within), returns_bind] at returns
  obtain ⟨⟨rc, grown⟩, world', -, outcome, rest⟩ :=
    (tenListGrow_spec list (machine.wrap (list.count + 1))).and returns
  dsimp only at outcome rest
  have next : list.count + 1 < 2 ^ machine.width := count_fits stored within outcome rest
  rw [Machine.wrap, Nat.mod_eq_of_lt next] at outcome
  refine ⟨next, outcome.fits stored ?_⟩
  split at rest
  · simp only [returns_bind, returns_tenSetError, returns_pure] at rest
    exact rest.room
  · obtain ⟨-, -, written, length, sufficient⟩ := within_of_insert rest
    rw [← length]
    exact sufficient.room

/-- A call after which there is enough storage computed no size that wraps. -/
theorem perform_fits (stored : Stored machine list) {call : ListCall}
    (returns : Returns (call.perform machine list) grants world (fun out _ => out.2.Sufficient)) :
    call.Fits machine grants world list := by
  unfold ListCall.Fits
  split
  · rename_i value
    rw [perform_add, perform_insert, tenListInsert_some] at returns
    simp only [answer, returns_bind, returns_pure, Option.getD_some] at returns
    exact insertValue_fits stored (Nat.le_refl _) returns
  · rename_i index value
    intro within
    rw [perform_insert, tenListInsert_some] at returns
    simp only [answer, returns_bind, returns_pure, Option.getD_some] at returns
    exact insertValue_fits stored within returns
  · rename_i capacity
    rw [perform_reserve] at returns
    simp only [answer, tenListReserve, returns_bind, returns_tenSetError, returns_pure,
      Option.getD_some] at returns
    obtain ⟨⟨rc, grown⟩, world', -, outcome, sufficient⟩ :=
      (tenListGrow_spec list capacity).and returns
    exact outcome.fits stored sufficient.room
  · trivial

end Necessity

section Runs

variable {machine : Machine} {grants : Schedule}

theorem sufficient_iff_fits {calls : List ListCall} :
    ∀ {world : World} {list : TenListBytes} {items : List Bytes},
      Represents machine list items →
      Throughout machine grants (fun _ list call => call.Readable list) world list calls →
      (Throughout machine grants
          (fun world list call => Returns (call.perform machine list) grants world
            (fun out _ => out.2.Sufficient)) world list calls ↔
        Throughout machine grants
          (fun world list call => call.Fits machine grants world list) world list calls) := by
  induction calls with
  | nil =>
      intro world list items _ _
      exact Iff.rfl
  | cons call rest inductionHypothesis =>
      intro world list items represents readable
      have step : Returns (call.perform machine list) grants world
          (fun out _ => out.2.Sufficient) ↔ call.Fits machine grants world list := by
        constructor
        · exact perform_fits represents.toStored
        · intro fits
          apply (perform_spec represents fits readable.1).mono
          rintro out _ ⟨items', represented, -⟩
          exact represented.toSufficient
      by_cases fits : call.Fits machine grants world list
      · obtain ⟨⟨reply, after⟩, world', run, items', represented, -⟩ :=
          perform_spec represents fits readable.1
        rw [throughout_cons run] at readable
        rw [throughout_cons run, throughout_cons run, step, inductionHypothesis represented readable.2]
      · constructor
        · exact fun sufficient => absurd (step.mp sufficient.1) fits
        · exact fun all => absurd all.1 fits

/-- From a list that `ten_list_create` returned, every call of a run stays
inside the storage and leaves enough of it exactly if no size that a call
computes wraps. -/
theorem tenList_sufficient_iff {world after : World} {type : TenType} {list : TenListBytes}
    {calls : List ListCall}
    (made : TenListBytes.tenListCreate machine type grants world = some (some list, after))
    (readable : Throughout machine grants (fun _ list call => call.Readable list) after list calls) :
    Throughout machine grants
        (fun world list call => Returns (call.perform machine list) grants world
          (fun out _ => out.2.Sufficient)) after list calls ↔
      Throughout machine grants
        (fun world list call => call.Fits machine grants world list) after list calls :=
  sufficient_iff_fits (created_represents made).1 readable

end Runs

/-- An append, and an insert of the appended element in front of itself. -/
def aliasCalls : List ListCall :=
  [⟨false, .add (some (.outside [1, 2]))⟩, ⟨false, .insert 0 (some (.inside 1 0))⟩]

theorem tenList_sufficient_iff_aliasCalls :
    ∃ list after, TenListBytes.tenListCreate machine64 .i16 (fun _ => true)
        { requests := 0, lastError := .ok } = some (some list, after) ∧
      Throughout machine64 (fun _ => true)
        (fun world list call => Returns (call.perform machine64 list) (fun _ => true) world
          (fun out _ => out.2.Sufficient)) after list aliasCalls := by
  have made : TenListBytes.tenListCreate machine64 .i16 (fun _ => true)
      { requests := 0, lastError := .ok } =
        some (some ⟨.i16, 2, none, [], 0, 0⟩, { requests := 1, lastError := .ok }) := rfl
  exact ⟨_, _, made, (tenList_sufficient_iff made (by decide)).mpr (by decide)⟩

/-- Eight bytes times this capacity wrap to eight bytes. -/
def wrappingCalls : List ListCall :=
  [⟨false, .reserve (2 ^ 61 + 1)⟩]

/-- The capacity is granted with room for one element, and the second append
writes behind it. -/
theorem tenList_not_sufficient_reserve :
    ∃ list after, TenListBytes.tenListCreate machine64 .i64 (fun _ => true)
        { requests := 0, lastError := .ok } = some (some list, after) ∧
      Throughout machine64 (fun _ => true) (fun _ list call => call.Readable list) after list
        wrappingCalls ∧
      ¬ Throughout machine64 (fun _ => true)
        (fun world list call => Returns (call.perform machine64 list) (fun _ => true) world
          (fun out _ => out.2.Sufficient)) after list wrappingCalls ∧
      performAll machine64 list
        (wrappingCalls ++ List.replicate 2 ⟨false, .add (some (.outside [1, 2, 3, 4, 5, 6, 7, 8]))⟩)
        (fun _ => true) after = none := by
  have made : TenListBytes.tenListCreate machine64 .i64 (fun _ => true)
      { requests := 0, lastError := .ok } =
        some (some ⟨.i64, 8, none, [], 0, 0⟩, { requests := 1, lastError := .ok }) := rfl
  refine ⟨_, _, made, by decide, ?_, by decide⟩
  rintro ⟨⟨⟨reply, list⟩, world, run, sufficient⟩, -⟩
  cases run
  have room := sufficient.room
  revert room
  decide

end Dotten
