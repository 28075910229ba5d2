/-
Module: Dotten.Memory.OwnedString
Layer: Memory
Purpose: The strings of string.c with the two blocks that each of them lies in.
  Every block of an existing string that a function reads or writes is accessed,
  and every function is the one of the plain strings when blocks are forgotten.
Imports: Dotten.Memory.Heap, Dotten.Containers.TenString
Main exports: OwnedText, OwnedString, OwnedString.blocks, Heap.tenStringAlloc,
  Heap.tenStringCreate, Heap.tenStringEmpty, Heap.tenStringDestroy,
  Heap.tenStringCstr, Heap.tenStringLength, Heap.tenStringAppend
-/
import Dotten.Memory.Heap
import Dotten.Containers.TenString

namespace Dotten

open Dotten.Library

/-- A `char *` that was allocated, and the string there. -/
structure OwnedText where
  block : Nat
  text : CString

def OwnedText.blocks (owned : OwnedText) : Multiset Nat := {owned.block}

/-- A `ten_string_t *`: the block of the struct, and its fields.  The field
`addr` is the block of the data. -/
structure OwnedString where
  self : Nat
  string : TenString
deriving DecidableEq, Repr

/-- The blocks of a string. -/
def OwnedString.blocks (owned : OwnedString) : Multiset Nat :=
  {owned.self} + {owned.string.addr}

@[simp] theorem OwnedString.self_mem (owned : OwnedString) : owned.self ∈ owned.blocks := by
  simp [OwnedString.blocks]

@[simp] theorem OwnedString.addr_mem (owned : OwnedString) :
    owned.string.addr ∈ owned.blocks := by
  simp [OwnedString.blocks]

namespace Heap

/-- `ten__string_alloc`. -/
def tenStringAlloc (minCapacity : Nat) : Op (Option OwnedString) := do
  let some self ← tenMalloc
    | return none
  let capacity :=
    if tenStringInitialCapacity < minCapacity then minCapacity else tenStringInitialCapacity
  let some addr ← tenMalloc
    | do
      tenFree (some self)
      return none
  return some { self, string := { addr, data := [0], length := 0, capacity } }

/-- `ten_string_create`. -/
def tenStringCreate (text : Option CString) : Op (Option OwnedString) :=
  match text with
  | some text => do
      let some owned ← tenStringAlloc (text.length + 1)
        | return none
      tenSetError .ok
      return some
        { owned with
          string := { owned.string with data := text.bytes ++ [0], length := text.length } }
  | none => do
      tenSetError .nullArgument
      return none

/-- `ten_string_empty`. -/
def tenStringEmpty : Op (Option OwnedString) := do
  let some owned ← tenStringAlloc 1
    | return none
  tenSetError .ok
  return some owned

/-- `ten_string_destroy`. -/
def tenStringDestroy (owned : Option OwnedString) : Op Unit :=
  match owned with
  | none => return ()
  | some owned => do
      access owned.self
      tenFree (some owned.string.addr)
      tenFree (some owned.self)

/-- `ten_string_cstr`: the pointer, and the string there. -/
def tenStringCstr (owned : OwnedString) : Op CString := do
  access owned.self
  tenSetError .ok
  return owned.string.cstr

/-- `ten_string_length`. -/
def tenStringLength (owned : OwnedString) : Op Nat := do
  access owned.self
  tenSetError .ok
  return owned.string.length

/-- `ten_string_append`. -/
def tenStringAppend (owned : OwnedString) (text : CString) :
    Op (TenErrorCode × OwnedString) := do
  access owned.self
  let string := owned.string
  let newLen := string.length + text.length
  if newLen + 1 > string.capacity then
    let first :=
      if string.capacity = 0 then tenStringInitialCapacity else string.capacity * 2
    let newCapacity := doubleUntil (newLen + 1) (newLen + 1) first
    let some addr ← tenRealloc (some string.addr)
      | return (.outOfMemory, owned)
    tenSetError .ok
    return (.ok,
      { owned with
        string :=
          { addr, data := string.data.take string.length ++ text.bytes ++ [0], length := newLen
            capacity := newCapacity } })
  else
    access string.addr
    tenSetError .ok
    return (.ok,
      { owned with
        string :=
          { string with
            data := string.data.take string.length ++ text.bytes ++ [0]
            length := newLen } })

section Ownership

variable {grants : Schedule}

theorem owns_tenStringAlloc (minCapacity : Nat) :
    Owns grants 0 (tenStringAlloc minCapacity) (ownsOption OwnedString.blocks)
      fun _ => True := by
  refine Transfers.bind owns_tenMalloc ?_
  rintro (_ | self) -
  · exact Transfers.pure rfl trivial
  · refine Transfers.call {self} owns_tenMalloc (by simp) ?_
    rintro (_ | addr) -
    · refine Transfers.call 0 (owns_tenFree (some self)) (by simp) ?_
      rintro ⟨⟩ -
      exact Transfers.pure rfl trivial
    · exact Transfers.pure (by simp [OwnedString.blocks, add_comm]) trivial

/-- A new string owns two blocks, and a string that was refused owns none. -/
theorem owns_tenStringCreate (text : Option CString) :
    Owns grants 0 (tenStringCreate text) (ownsOption OwnedString.blocks) fun _ => True := by
  cases text with
  | none =>
      refine Transfers.bind (owns_tenSetError _) ?_
      rintro ⟨⟩ -
      exact Transfers.pure rfl trivial
  | some text =>
      refine Transfers.bind (owns_tenStringAlloc _) ?_
      rintro (_ | owned) -
      · exact Transfers.pure rfl trivial
      · refine Transfers.bind (owns_tenSetError _) ?_
        rintro ⟨⟩ -
        exact Transfers.pure (by simp [OwnedString.blocks]) trivial

theorem owns_tenStringEmpty :
    Owns grants 0 tenStringEmpty (ownsOption OwnedString.blocks) fun _ => True := by
  refine Transfers.bind (owns_tenStringAlloc _) ?_
  rintro (_ | owned) -
  · exact Transfers.pure rfl trivial
  · refine Transfers.bind (owns_tenSetError _) ?_
    rintro ⟨⟩ -
    exact Transfers.pure (by simp) trivial

/-- Destroying a string frees both of its blocks. -/
theorem owns_tenStringDestroy (owned : Option OwnedString) :
    Owns grants (ownsOption OwnedString.blocks owned) (tenStringDestroy owned) (fun _ => 0)
      fun _ => True := by
  cases owned with
  | none => exact Transfers.pure rfl trivial
  | some owned =>
      refine Transfers.bind (owns_access owned.self_mem) ?_
      rintro ⟨⟩ -
      refine Transfers.call {owned.self} (owns_tenFree (some owned.string.addr))
        (by simp [OwnedString.blocks, add_comm]) ?_
      rintro ⟨⟩ -
      exact (owns_tenFree (some owned.self)).conseq (by simp) (fun _ _ => rfl) fun _ _ => trivial

theorem owns_tenStringCstr {given : Multiset Nat} (owned : OwnedString)
    (member : owned.self ∈ given) :
    Owns grants given (tenStringCstr owned) (fun _ => given) (· = owned.string.cstr) := by
  refine Transfers.bind (owns_access member) ?_
  rintro ⟨⟩ -
  refine Transfers.bind (owns_tenSetError _) ?_
  rintro ⟨⟩ -
  exact Transfers.pure (by simp) rfl

theorem owns_tenStringLength {given : Multiset Nat} (owned : OwnedString)
    (member : owned.self ∈ given) :
    Owns grants given (tenStringLength owned) (fun _ => given) (· = owned.string.length) := by
  refine Transfers.bind (owns_access member) ?_
  rintro ⟨⟩ -
  refine Transfers.bind (owns_tenSetError _) ?_
  rintro ⟨⟩ -
  exact Transfers.pure (by simp) rfl

/-- Appending keeps the struct, and keeps the data or moves it to a block that
takes the place of the old one. -/
theorem owns_tenStringAppend (owned : OwnedString) (text : CString) :
    Owns grants owned.blocks (tenStringAppend owned text) (fun reply => reply.2.blocks)
      fun _ => True := by
  refine Transfers.bind (owns_access owned.self_mem) ?_
  rintro ⟨⟩ -
  refine Transfers.ite (fun _ => ?_) fun _ => ?_
  · refine Transfers.call {owned.self} (owns_tenRealloc (some owned.string.addr))
      (by simp [OwnedString.blocks, add_comm]) ?_
    rintro (_ | addr) -
    · exact Transfers.pure (by simp [OwnedString.blocks, add_comm]) trivial
    · refine Transfers.bind (owns_tenSetError _) ?_
      rintro ⟨⟩ -
      exact Transfers.pure (by simp [OwnedString.blocks, add_comm]) trivial
  · refine Transfers.bind (owns_access owned.addr_mem) ?_
    rintro ⟨⟩ -
    refine Transfers.bind (owns_tenSetError _) ?_
    rintro ⟨⟩ -
    exact Transfers.pure (by simp [OwnedString.blocks]) trivial

end Ownership

section Forgetting

theorem keeps_tenStringAlloc (minCapacity : Nat) :
    Keeps (Option.map OwnedString.string) (tenStringAlloc minCapacity)
      (Dotten.tenStringAlloc minCapacity) := by
  refine Erases.bind keeps_tenMalloc ?_
  rintro (_ | self)
  · exact Simulates.pure rfl
  · refine Erases.bind keeps_tenMalloc ?_
    rintro (_ | addr)
    · exact Simulates.skip (unseen_tenFree _) fun _ => Simulates.pure rfl
    · exact Simulates.pure rfl

theorem keeps_tenStringCreate (text : Option CString) :
    Keeps (Option.map OwnedString.string) (tenStringCreate text)
      (Dotten.tenStringCreate text) := by
  cases text with
  | none => exact Erases.bind (keeps_tenSetError _) fun _ => Simulates.pure rfl
  | some text =>
      refine Erases.bind (keeps_tenStringAlloc _) ?_
      rintro (_ | owned)
      · exact Simulates.pure rfl
      · exact Erases.bind (keeps_tenSetError _) fun _ => Simulates.pure rfl

theorem keeps_tenStringEmpty :
    Keeps (Option.map OwnedString.string) tenStringEmpty Dotten.tenStringEmpty := by
  refine Erases.bind (keeps_tenStringAlloc _) ?_
  rintro (_ | owned)
  · exact Simulates.pure rfl
  · exact Erases.bind (keeps_tenSetError _) fun _ => Simulates.pure rfl

theorem unseen_tenStringDestroy (owned : Option OwnedString) :
    Unseen SameRequests (tenStringDestroy owned) := by
  cases owned with
  | none => exact Unseen.pure ()
  | some owned =>
      exact Unseen.bind (unseen_access _) fun _ =>
        Unseen.bind (unseen_tenFree _) fun _ => unseen_tenFree _

theorem keeps_tenStringCstr (owned : OwnedString) :
    Keeps (fun _ => ()) (tenStringCstr owned) (Dotten.tenSetError .ok) := by
  refine Simulates.skip (unseen_access _) fun _ => ?_
  intro grants heap world a heap' same run
  cases run
  exact ⟨_, _, rfl, rfl, same⟩

theorem yields_tenStringCstr (owned : OwnedString) :
    Yields SameRequests (tenStringCstr owned) owned.string.cstr :=
  Yields.skip (unseen_access _) fun _ => Yields.skip (unseen_tenSetError _) fun _ =>
    Yields.pure _

theorem yields_tenStringLength (owned : OwnedString) :
    Yields SameRequests (tenStringLength owned) owned.string.length :=
  Yields.skip (unseen_access _) fun _ => Yields.skip (unseen_tenSetError _) fun _ =>
    Yields.pure _

theorem keeps_tenStringAppend (owned : OwnedString) (text : CString) :
    Keeps (Prod.map id OwnedString.string) (tenStringAppend owned text)
      (Dotten.tenStringAppend owned.string text) := by
  refine Simulates.skip (unseen_access _) fun _ => Simulates.ite (fun _ => ?_) fun _ => ?_
  · refine Erases.bind (keeps_tenRealloc _) ?_
    rintro (_ | addr)
    · exact Simulates.pure rfl
    · exact Erases.bind (keeps_tenSetError _) fun _ => Simulates.pure rfl
  · exact Simulates.skip (unseen_access _) fun _ =>
      Erases.bind (keeps_tenSetError _) fun _ => Simulates.pure rfl

end Forgetting

end Heap

end Dotten
