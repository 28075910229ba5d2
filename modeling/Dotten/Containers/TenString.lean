/-
Module: Dotten.Containers.TenString
Layer: Containers
Purpose: The growing strings of string.c, and what each function does to the
  C string they hold, whichever allocations are refused.
Imports: Dotten.Core.World, Dotten.Core.CString
Main exports: TenString, TenString.cstr, TenString.Valid, tenStringCreate,
  tenStringEmpty, tenStringAppend, tenStringAlloc_blocks, tenStringCreate_spec,
  tenStringEmpty_spec, emptyString, tenStringEmpty_eq, tenStringAppend_spec
-/
import Dotten.Core.World
import Dotten.Core.CString

namespace Dotten

open Dotten.Library

/-- `struct ten_string`: the address of the data block, what has been written
to it, the length without the NUL and the size of the block. -/
structure TenString where
  addr : Nat
  data : Bytes
  length : Nat
  capacity : Nat
deriving DecidableEq, Repr, Inhabited

/-- `TEN_STRING_INITIAL_CAPACITY`. -/
def tenStringInitialCapacity : Nat := 16

/-- `ten__string_alloc`. -/
def tenStringAlloc (minCapacity : Nat) : Ten (Option TenString) := do
  let some _ ← tenMalloc
    | return none
  let capacity :=
    if tenStringInitialCapacity < minCapacity then minCapacity else tenStringInitialCapacity
  let some addr ← tenMalloc
    | return none
  return some { addr, data := [0], length := 0, capacity }

/-- `ten_string_create`. -/
def tenStringCreate (text : Option CString) : Ten (Option TenString) :=
  match text with
  | some text => do
      let some string ← tenStringAlloc (text.length + 1)
        | return none
      tenSetError .ok
      return some { string with data := text.bytes ++ [0], length := text.length }
  | none => do
      tenSetError .nullArgument
      return none

/-- `ten_string_empty`. -/
def tenStringEmpty : Ten (Option TenString) := do
  let some string ← tenStringAlloc 1
    | return none
  tenSetError .ok
  return some string

/-- `ten_string_cstr` of a string: the C string at `data`. -/
def TenString.cstr (string : TenString) : CString := CString.ofMemory string.data

/-- The loop `while (new_capacity < needed) new_capacity *= 2`, with a step
bound that `doubleUntil_ge` shows to be enough. -/
def doubleUntil (needed : Nat) : Nat → Nat → Nat
  | 0, capacity => capacity
  | steps + 1, capacity =>
      if capacity < needed then doubleUntil needed steps (capacity * 2) else capacity

/-- `ten_string_append` to a string that exists: the return code and the
string. -/
def tenStringAppend (string : TenString) (text : CString) : Ten (TenErrorCode × TenString) := do
  let newLen := string.length + text.length
  if newLen + 1 > string.capacity then
    let first :=
      if string.capacity = 0 then tenStringInitialCapacity else string.capacity * 2
    let newCapacity := doubleUntil (newLen + 1) (newLen + 1) first
    let some addr ← tenRealloc
      | return (.outOfMemory, string)
    tenSetError .ok
    return (.ok,
      { addr, data := string.data.take string.length ++ text.bytes ++ [0], length := newLen
        capacity := newCapacity })
  else
    tenSetError .ok
    return (.ok,
      { string with
        data := string.data.take string.length ++ text.bytes ++ [0]
        length := newLen })

/-- The representation invariant: the block holds a C string of the recorded
length, and its terminator lies in the block. -/
structure TenString.Valid (string : TenString) : Prop where
  data_eq : string.data = string.cstr.bytes ++ [0]
  length_eq : string.length = string.cstr.length
  fits : string.length < string.capacity

/-- A block that holds exactly one C string. -/
theorem TenString.cstr_of_data {string : TenString} {content : CString}
    (data : string.data = content.bytes ++ [0]) : string.cstr = content := by
  unfold TenString.cstr
  rw [data]
  exact CString.ofMemory_append_nul content []

theorem TenString.valid_of_data {string : TenString} {c : CString}
    (data : string.data = c.bytes ++ [0]) (length : string.length = c.length)
    (fits : string.length < string.capacity) : string.Valid := by
  have same := TenString.cstr_of_data data
  constructor
  · rw [same]
    exact data
  · rw [same]
    exact length
  · exact fits

/-- The doubling loop ends with room enough. -/
theorem doubleUntil_ge (needed : Nat) :
    ∀ steps capacity, 0 < capacity → needed ≤ capacity + steps →
      needed ≤ doubleUntil needed steps capacity := by
  intro steps
  induction steps with
  | zero =>
      intro capacity _ enough
      exact enough
  | succ steps inductionHypothesis =>
      intro capacity positive enough
      rw [doubleUntil]
      split
      · exact inductionHypothesis (capacity * 2) (by omega) (by omega)
      · omega

section Specifications

variable {grants : Schedule} {world : World}

/-- `ten__string_alloc`: two requests, and an empty string in the block of the
second when both are granted. -/
theorem tenStringAlloc_blocks (minCapacity : Nat) :
    Returns (tenStringAlloc minCapacity) grants world (fun reply after =>
      world.requests ≤ after.requests ∧
        ((¬ (grants world.requests = true ∧ grants (world.requests + 1) = true) ∧
            reply = none ∧ after.lastError = .outOfMemory) ∨
          ((grants world.requests = true ∧ grants (world.requests + 1) = true) ∧
            reply = some ⟨world.requests + 1, [0], 0, max tenStringInitialCapacity minCapacity⟩ ∧
            after.requests = world.requests + 2))) := by
  have larger : (if tenStringInitialCapacity < minCapacity then minCapacity
      else tenStringInitialCapacity) = max tenStringInitialCapacity minCapacity := by
    split <;> omega
  simp only [tenStringAlloc, returns_bind, returns_tenMalloc, larger]
  constructor
  · intro structGranted
    constructor
    · intro dataGranted
      rw [returns_pure]
      exact ⟨Nat.le_add_right _ 2, .inr ⟨⟨structGranted, dataGranted⟩, rfl, rfl⟩⟩
    · intro dataRefused
      rw [returns_pure]
      refine ⟨Nat.le_add_right _ 2, .inl ⟨?_, rfl, rfl⟩⟩
      rintro ⟨-, dataGranted⟩
      rw [World.granted_requests, dataGranted] at dataRefused
      cases dataRefused
  · intro structRefused
    rw [returns_pure]
    refine ⟨Nat.le_add_right _ 1, .inl ⟨?_, rfl, rfl⟩⟩
    rintro ⟨structGranted, -⟩
    rw [structGranted] at structRefused
    cases structRefused

/-- `ten__string_alloc`: a new block of the asked size with an empty string,
or NULL. -/
theorem tenStringAlloc_spec (minCapacity : Nat) :
    Returns (tenStringAlloc minCapacity) grants world (fun reply after =>
      world.requests ≤ after.requests ∧
        ((reply = none ∧ ¬ Ample grants ∧ after.lastError = .outOfMemory) ∨
          ∃ string, reply = some string ∧ string.data = [0] ∧ string.length = 0 ∧
            minCapacity ≤ string.capacity ∧ world.requests ≤ string.addr ∧
            string.addr < after.requests)) := by
  apply (tenStringAlloc_blocks minCapacity).mono
  rintro reply after ⟨requests, ⟨refused, rfl, error⟩ | ⟨-, rfl, made⟩⟩
  · refine ⟨requests, .inl ⟨rfl, ?_, error⟩⟩
    intro ample
    exact refused ⟨ample _, ample _⟩
  · refine ⟨requests, .inr ⟨_, rfl, rfl, rfl, Nat.le_max_right _ _, Nat.le_succ _, ?_⟩⟩
    rw [made]
    exact Nat.lt_succ_self _

/-- What a function that makes a new string with the given content returns. -/
def NewString (grants : Schedule) (world : World) (content : CString)
    (reply : Option TenString) (after : World) : Prop :=
  world.requests ≤ after.requests ∧
    ((reply = none ∧ ¬ Ample grants ∧ after.lastError = .outOfMemory) ∨
      ∃ string, reply = some string ∧ string.Valid ∧ string.cstr = content ∧
        world.requests ≤ string.addr ∧ string.addr < after.requests ∧ after.lastError = .ok)

/-- `ten_string_create`. -/
theorem tenStringCreate_spec (text : CString) :
    Returns (tenStringCreate (some text)) grants world (NewString grants world text) := by
  simp only [tenStringCreate, returns_bind]
  apply (tenStringAlloc_spec _).mono
  intro reply after post
  obtain ⟨requests, ⟨rfl, refused⟩ | ⟨string, rfl, data, length, fits, above, below⟩⟩ := post
  · rw [returns_pure]
    exact ⟨requests, .inl ⟨rfl, refused⟩⟩
  · simp only [returns_bind, returns_tenSetError, returns_pure]
    refine ⟨requests, .inr ⟨_, rfl, ?_, TenString.cstr_of_data rfl, above, below, rfl⟩⟩
    exact TenString.valid_of_data rfl rfl fits

/-- `ten_string_empty`. -/
theorem tenStringEmpty_spec :
    Returns tenStringEmpty grants world (NewString grants world default) := by
  simp only [tenStringEmpty, returns_bind]
  apply (tenStringAlloc_spec _).mono
  intro reply after post
  obtain ⟨requests, ⟨rfl, refused⟩ | ⟨string, rfl, data, length, fits, above, below⟩⟩ := post
  · rw [returns_pure]
    exact ⟨requests, .inl ⟨rfl, refused⟩⟩
  · simp only [returns_bind, returns_tenSetError, returns_pure]
    refine ⟨requests, .inr ⟨_, rfl, ?_, TenString.cstr_of_data data, above, below, rfl⟩⟩
    exact TenString.valid_of_data (c := default) data length (by omega)

/-- The empty string in a block of the initial capacity. -/
def emptyString (addr : Nat) : TenString where
  addr := addr
  data := [0]
  length := 0
  capacity := tenStringInitialCapacity

theorem emptyString_valid (addr : Nat) : (emptyString addr).Valid :=
  TenString.valid_of_data (c := default) rfl rfl (show 0 < tenStringInitialCapacity by decide)

/-- `ten_string_empty` makes two requests, and the second is for the block. -/
theorem tenStringEmpty_eq :
    Returns tenStringEmpty grants world (fun reply after =>
      (¬ (grants world.requests = true ∧ grants (world.requests + 1) = true) ∧ reply = none) ∨
        ((grants world.requests = true ∧ grants (world.requests + 1) = true) ∧
          reply = some (emptyString (world.requests + 1)) ∧
          after.requests = world.requests + 2)) := by
  rw [tenStringEmpty, returns_bind]
  apply (tenStringAlloc_blocks 1).mono
  rintro reply after ⟨-, ⟨refused, rfl, -⟩ | ⟨granted, rfl, made⟩⟩
  · rw [returns_pure]
    exact .inl ⟨refused, rfl⟩
  · simp only [returns_bind, returns_tenSetError, returns_pure]
    exact .inr ⟨granted, rfl, made⟩

/-- What `ten_string_append` may do. -/
inductive AppendOutcome (grants : Schedule) (string : TenString) (text : CString) :
    TenErrorCode → TenString → Prop where
  | appended {after : TenString} (valid : after.Valid)
      (cstr : after.cstr = string.cstr.append text) :
      AppendOutcome grants string text .ok after
  | refused (shortage : ¬ Ample grants) : AppendOutcome grants string text .outOfMemory string

/-- `ten_string_append`: concatenation, or no change; the block stays where it
is or moves to a new one. -/
theorem tenStringAppend_spec {string : TenString} (valid : string.Valid) (text : CString) :
    Returns (tenStringAppend string text) grants world (fun reply after =>
      world.requests ≤ after.requests ∧ after.lastError = reply.1 ∧
        (reply.2.addr = string.addr ∨
          (world.requests ≤ reply.2.addr ∧ reply.2.addr < after.requests)) ∧
        AppendOutcome grants string text reply.1 reply.2) := by
  have old : string.data.take string.length = string.cstr.bytes := by
    rw [valid.data_eq, valid.length_eq, CString.length, List.take_left]
  have appended : ∀ {after : TenString},
      after.data = string.data.take string.length ++ text.bytes ++ [0] →
      after.length = string.length + text.length → after.length < after.capacity →
      AppendOutcome grants string text .ok after := by
    intro after data length fits
    rw [old] at data
    refine .appended (TenString.valid_of_data (c := string.cstr.append text) data ?_ fits)
      (TenString.cstr_of_data data)
    rw [length, valid.length_eq]
    simp [CString.length]
  unfold tenStringAppend
  apply returns_ite
  · intro grows
    simp only [returns_bind, returns_tenRealloc, returns_tenMalloc]
    constructor
    · intro granted
      simp only [returns_tenSetError, returns_pure]
      refine ⟨Nat.le_succ _, trivial, .inr ⟨Nat.le_refl _, Nat.lt_succ_self _⟩, ?_⟩
      apply appended rfl rfl
      have positive : 0 < if string.capacity = 0 then tenStringInitialCapacity
          else string.capacity * 2 := by
        split
        · decide
        · omega
      exact doubleUntil_ge (string.length + text.length + 1) _ _ positive (by omega)
    · intro refused
      rw [returns_pure]
      exact ⟨Nat.le_succ _, rfl, .inl rfl, .refused (not_ample_of_refused refused)⟩
  · intro fits
    simp only [returns_bind, returns_tenSetError, returns_pure]
    refine ⟨Nat.le_refl _, trivial, .inl trivial, ?_⟩
    exact appended rfl rfl (by change string.length + text.length < string.capacity; omega)

end Specifications

end Dotten
