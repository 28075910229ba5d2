/-
Module: Dotten.Containers.ListRefinement
Layer: Containers
Purpose: A list over its bytes refines a sequence of elements, over whole runs,
  and the list that the rest of the library uses.
Imports: Dotten.Containers.ListCalls
Main exports: SequenceRun, performAll_refines, tenList_refines, SameList, Small,
  tenListInsert_simulates, tenListGet_simulates
-/
import Dotten.Containers.ListCalls

namespace Dotten

open Dotten.Library
open TenListBytes

/-- The steps of a sequence of elements, with their replies. -/
inductive SequenceRun (size : Nat) (shortage : Prop) :
    List Bytes → List ListCall → List ListReply → List Bytes → Prop where
  | nil (items : List Bytes) : SequenceRun size shortage items [] [] items
  | cons {items middle last : List Bytes} {call : ListCall} {reply : ListReply}
      {calls : List ListCall} {replies : List ListReply}
      (step : SequenceStep size shortage items call reply middle)
      (rest : SequenceRun size shortage middle calls replies last) :
      SequenceRun size shortage items (call :: calls) (reply :: replies) last

section Runs

variable {machine : Machine} {grants : Schedule}

theorem performAll_refines {calls : List ListCall} :
    ∀ {world : World} {list : TenListBytes} {items : List Bytes},
      Represents machine list items →
      Throughout machine grants (fun world list call => call.Fits machine grants world list) world
        list calls →
      (∀ call ∈ calls, call.FromOutside list.elementSize) →
      Returns (performAll machine list calls) grants world (fun out _ =>
        ∃ last, SequenceRun list.elementSize (¬ Ample grants) items calls out.1 last ∧
          Represents machine out.2 last) := by
  induction calls with
  | nil =>
      intro world list items represents _ _
      rw [performAll, returns_pure]
      exact ⟨items, .nil items, represents⟩
  | cons call rest inductionHypothesis =>
      intro world list items represents fits outside
      have fromOutside := outside call List.mem_cons_self
      obtain ⟨⟨reply, after⟩, world', run, middle, represented, sized, step⟩ :=
        perform_spec represents fits.1 fromOutside.readable
      rw [throughout_cons run] at fits
      rw [performAll, returns_bind, returns_iff_of_run run, returns_bind]
      have others : ∀ call ∈ rest, call.FromOutside after.elementSize := by
        rw [sized]
        exact fun other member => outside other (List.mem_cons_of_mem call member)
      apply (inductionHypothesis represented fits.2 others).mono
      rintro ⟨replies, last⟩ _ ⟨items', sequence, representedLast⟩
      rw [returns_pure]
      rw [sized] at sequence
      exact ⟨items', .cons (step fromOutside) sequence, representedLast⟩

/-- From a list that `ten_list_create` returned, any calls reply as on a
sequence of elements, and leave a list that represents it. -/
theorem tenList_refines {world after : World} {type : TenType} {list : TenListBytes}
    {calls : List ListCall}
    (made : TenListBytes.tenListCreate machine type grants world = some (some list, after))
    (fits : Throughout machine grants
      (fun world list call => call.Fits machine grants world list) after list calls)
    (outside : ∀ call ∈ calls, call.FromOutside (machine.typeSize type)) :
    Returns (performAll machine list calls) grants after (fun out _ =>
      ∃ items, SequenceRun (machine.typeSize type) (¬ Ample grants) [] calls out.1 items ∧
        Represents machine out.2 items) := by
  obtain ⟨represents, sized⟩ := created_represents made
  rw [← sized] at outside ⊢
  exact performAll_refines represents fits outside

end Runs

section Layers

variable {machine : Machine} {grants : Schedule} {world : World} {bytes : TenListBytes}
  {list : TenList Bytes} {index : Nat} {memory : Bytes}

/-- One list, over its bytes and over its elements. -/
structure SameList (machine : Machine) (bytes : TenListBytes) (list : TenList Bytes) : Prop extends
    Represents machine bytes list.items where
  capacity : bytes.capacity = list.capacity

/-- The list is so small that growth does not wrap. -/
def Small (machine : Machine) (bytes : TenListBytes) : Prop :=
  (bytes.capacity * 2 + tenListInitialCapacity) * bytes.elementSize < 2 ^ machine.width

theorem Small.lt_of_le (small : Small machine bytes) (sized : 0 < bytes.elementSize) {places : Nat}
    (below : places ≤ bytes.capacity * 2 + tenListInitialCapacity) :
    places * bytes.elementSize < 2 ^ machine.width ∧ places < 2 ^ machine.width := by
  have product := Nat.mul_le_mul_right bytes.elementSize below
  have larger := Nat.le_mul_of_pos_right places sized
  unfold Small at small
  omega

/-- The capacity that a list over its elements asks for. -/
theorem Small.newCapacity_eq (small : Small machine bytes) (sized : 0 < bytes.elementSize)
    (minCapacity : Nat) :
    bytes.newCapacity machine minCapacity =
      let doubled := if bytes.capacity = 0 then tenListInitialCapacity else bytes.capacity * 2
      if doubled < minCapacity then minCapacity else doubled := by
  have doubles := (small.lt_of_le sized (Nat.le_add_right (bytes.capacity * 2) _)).2
  rw [newCapacity, Machine.wrap, Nat.mod_eq_of_lt doubles]

theorem SameList.insertFits (same : SameList machine bytes list) (small : Small machine bytes) :
    bytes.InsertFits machine grants world := by
  have counted := same.counted
  have initial : tenListInitialCapacity = 4 := rfl
  refine ⟨(small.lt_of_le same.sized (by omega)).2, fun full => .inl ?_⟩
  apply (small.lt_of_le same.sized _).1
  rw [small.newCapacity_eq same.sized]
  dsimp only
  split <;> split <;> omega

/-- Growth over the elements answers as growth over the bytes did. -/
theorem SameList.tenListGrow_capacity (same : SameList machine bytes list)
    (small : Small machine bytes) {minCapacity capacity : Nat} {rc : TenErrorCode}
    (outcome : CapacityOutcome machine grants world bytes minCapacity rc capacity) :
    Returns (Dotten.tenListGrow list minCapacity) grants world (fun reply _ =>
      reply = (rc, { list with capacity := capacity })) := by
  unfold Dotten.tenListGrow
  rw [← same.capacity]
  cases outcome with
  | enough there =>
      rw [if_pos there, returns_pure, same.capacity]
  | grown full granted =>
      rw [if_neg (Nat.not_le.mpr full)]
      simp only [returns_bind, returns_tenRealloc, returns_tenMalloc, granted]
      simp [returns_pure, small.newCapacity_eq same.sized]
  | refused full refusal =>
      rw [if_neg (Nat.not_le.mpr full)]
      simp only [returns_bind, returns_tenRealloc, returns_tenMalloc, refusal]
      simp [returns_pure, same.capacity]

/-- `ten_list_insert` over the elements, as the rest of the library uses it, is
`ten_list_insert` over the bytes. -/
theorem tenListInsert_simulates (same : SameList machine bytes list) (small : Small machine bytes)
    (outside : bytes.elementSize ≤ memory.length) :
    Returns (insertValue machine bytes index (.outside memory)) grants world (fun reply _ =>
      Returns (Dotten.tenListInsert list index (memory.take bytes.elementSize)) grants world
        (fun reply' _ => reply'.1 = reply.1 ∧ SameList machine reply.2 reply'.2)) := by
  have length := same.length
  have readable : bytes.Readable (.outside memory) := outside
  apply (insertValue_spec same.toRepresents (fun _ => same.insertFits small)
    (fun _ => readable)).mono
  rintro ⟨rc, after⟩ world' ⟨-, -, grows, outcome⟩
  dsimp only at grows outcome ⊢
  unfold Dotten.tenListInsert
  cases outcome with
  | outOfRange beyond =>
      rw [if_pos (by omega)]
      simp only [returns_bind, returns_tenSetError, returns_pure]
      exact ⟨trivial, same⟩
  | refused within refusal represented =>
      rw [if_neg (by omega), returns_bind, length]
      apply (same.tenListGrow_capacity small (grows within)).mono
      rintro _ _ rfl
      simp only [ne_eq, reduceCtorEq, not_false_eq_true, if_true, returns_bind, returns_tenSetError,
        returns_pure]
      exact ⟨trivial, represented, rfl⟩
  | inserted within copied represented =>
      rw [if_neg (by omega), returns_bind, length]
      apply (same.tenListGrow_capacity small (grows within)).mono
      rintro _ _ rfl
      simp only [ne_eq, not_true_eq_false, if_false, returns_bind, returns_tenSetError,
        returns_pure]
      rw [copied memory rfl] at represented
      exact ⟨trivial, represented, rfl⟩

/-- `ten_list_get` over the elements returns the element that the caller of the
one over the bytes reads. -/
theorem tenListGet_simulates (same : SameList machine bytes list) :
    Returns (ListCall.perform machine bytes ⟨false, .get index⟩) grants world (fun out _ =>
      Returns (Dotten.tenListGet list index) grants world (fun reply _ =>
        out.1 = reply.elim (.code .outOfRange) .element)) := by
  apply (get_outcome same.toRepresents).mono
  rintro ⟨reply, after⟩ world' ⟨items, -, -, step⟩
  cases step trivial with
  | got here =>
      rw [returns_tenListGet here]
      rfl
  | refused refusal =>
      cases refusal with
      | getBeyond beyond =>
          unfold Dotten.tenListGet
          rw [List.getElem?_eq_none beyond]
          simp only [returns_bind, returns_tenSetError, returns_pure, Option.elim_none]

end Layers

/-- An append, a growth that is refused below, an insert before the first
element, and the element behind it. -/
def insertCalls : List ListCall :=
  [⟨false, .add (some (.outside [1, 2]))⟩, ⟨false, .reserve 5⟩,
    ⟨false, .insert 0 (some (.outside [3, 4]))⟩, ⟨false, .get 1⟩]

theorem tenList_refines_insertCalls :
    ∃ list after, TenListBytes.tenListCreate machine64 .i16 (fun request => request ≠ 2)
        { requests := 0, lastError := .ok } = some (some list, after) ∧
      Returns (performAll machine64 list insertCalls) (fun request => request ≠ 2) after
        (fun out _ => ∃ items,
          SequenceRun (machine64.typeSize .i16) (¬ Ample fun request => request ≠ 2) [] insertCalls
            out.1 items ∧ Represents machine64 out.2 items) := by
  have made : TenListBytes.tenListCreate machine64 .i16 (fun request => request ≠ 2)
      { requests := 0, lastError := .ok } =
        some (some ⟨.i16, 2, none, [], 0, 0⟩, { requests := 1, lastError := .ok }) := rfl
  exact ⟨_, _, made, tenList_refines made (by decide) (by decide)⟩

end Dotten
