/-
Module: Dotten.Memory.OwnedJsonCreate
Layer: Memory
Purpose: The constructors of json.c: a value owns exactly the blocks that were
  allocated for it, and a constructor that is refused one on the way gives back
  those that it was granted.
Imports: Dotten.Memory.OwnedJsonLifetime
Main exports: Heap.tenJsonAlloc, Heap.tenJsonCreateNull, Heap.tenJsonCreateBool,
  Heap.tenJsonCreateNumber, Heap.tenJsonCreateString, Heap.tenJsonCreateArray,
  Heap.tenJsonCreateObject, NewValue
-/
import Dotten.Memory.OwnedJsonLifetime

namespace Dotten

open Dotten.Library
open Dotten.Library.BucketTable

namespace Heap

section Functions

variable {D : Type}

/-- `ten__json_alloc`, followed by filling the block. -/
def tenJsonAlloc (fill : Nat → OwnedJson D) : Op (Option (OwnedJson D)) := do
  let some self ← tenMalloc
    | return none
  return some (fill self)

/-- `ten_json_create_null`. -/
def tenJsonCreateNull : Op (Option (OwnedJson D)) := do
  let some json ← tenJsonAlloc (D := D) .null
    | return none
  tenSetError .ok
  return some json

/-- `ten_json_create_bool`. -/
def tenJsonCreateBool (value : Int) : Op (Option (OwnedJson D)) := do
  let some json ← tenJsonAlloc (D := D) (.boolean · (value != 0))
    | return none
  tenSetError .ok
  return some json

/-- `ten_json_create_number`. -/
def tenJsonCreateNumber (value : D) : Op (Option (OwnedJson D)) := do
  let some json ← tenJsonAlloc (.number · value)
    | return none
  tenSetError .ok
  return some json

/-- `ten_json_create_string`. -/
def tenJsonCreateString (value : Option CString) : Op (Option (OwnedJson D)) :=
  match value with
  | some value => do
      let some string ← tenStringCreate (some value)
        | return none
      let some json ← tenJsonAlloc (D := D) (.string · string)
        | do
          tenStringDestroy (some string)
          return none
      tenSetError .ok
      return some json
  | none => do
      tenSetError .nullArgument
      return none

/-- `ten_json_create_array`. -/
def tenJsonCreateArray : Op (Option (OwnedJson D)) := do
  let some self ← tenMalloc
    | return none
  let some list ← tenListCreate (α := OwnedJson D) .pointer
    | do
      tenFree (some self)
      return none
  tenSetError .ok
  return some (.array self list)

/-- `ten_json_create_object`.  The list is created even when the map was
refused, and both are destroyed when one was. -/
def tenJsonCreateObject : Op (Option (OwnedJson D)) := do
  let some self ← tenMalloc
    | return none
  let entries ← tenMapCreate (K := CharPtr) (V := OwnedJson D) .string .pointer
  let keyOrder ← tenListCreate (α := OwnedString) .pointer
  match entries, keyOrder with
  | some entries, some keyOrder =>
      tenSetError .ok
      return some (.object self { entries, keyOrder })
  | entries, keyOrder =>
      tenMapDestroy entries
      tenListDestroy keyOrder
      tenFree (some self)
      return none

end Functions

section Strings

variable {grants : Schedule}

/-- A created string holds the text. -/
theorem owns_tenStringCreate_cstr (text : CString) :
    Owns grants 0 (tenStringCreate (some text)) (ownsOption OwnedString.blocks)
      fun reply => ∀ owned, reply = some owned →
        owned.string.Valid ∧ owned.string.cstr = text := by
  refine ((owns_tenStringCreate (some text)).and ?_).conseq rfl (fun _ _ => rfl)
    fun _ both => both.2
  rintro heap reply heap' run owned rfl
  obtain ⟨world, -, -, ⟨none, -⟩ | ⟨string, same, valid, content, -⟩⟩ :=
    (keeps_tenStringCreate (some text)).returns (Eq.refl heap.world.requests) run
      (tenStringCreate_spec text)
  · cases none
  · cases same
    exact ⟨valid, content⟩

end Strings

section Ownership

variable {D : Type} {grants : Schedule} {keys : CString → Prop}

/-- What holds of the result of a function that makes a value. -/
def NewValue (keys : CString → Prop) (reply : Option (OwnedJson D)) : Prop :=
  ∀ json, reply = some json → json.Sound keys

theorem newValue_none : NewValue (D := D) keys none := by
  rintro json ⟨⟩

theorem newValue_some {json : OwnedJson D} (sound : json.Sound keys) :
    NewValue keys (some json) := by
  rintro other ⟨⟩
  exact sound

/-- A value without contents. -/
theorem owns_tenJsonAlloc {fill : Nat → OwnedJson D} (leaf : ∀ self, (fill self).blocks = {self})
    (sound : ∀ self, (fill self).Sound keys) :
    Owns grants 0 (tenJsonAlloc fill) (ownsOption OwnedJson.blocks) (NewValue keys) := by
  refine Transfers.bind owns_tenMalloc ?_
  rintro (_ | self) -
  · exact Transfers.pure rfl newValue_none
  · exact Transfers.pure (leaf self).symm (newValue_some (sound self))

/-- A constructor of values without contents. -/
theorem owns_createLeaf {fill : Nat → OwnedJson D} (leaf : ∀ self, (fill self).blocks = {self})
    (sound : ∀ self, (fill self).Sound keys) :
    Owns grants 0
      (do
        let some json ← tenJsonAlloc fill
          | return none
        tenSetError .ok
        return some json)
      (ownsOption OwnedJson.blocks) (NewValue keys) := by
  refine Transfers.bind (owns_tenJsonAlloc leaf sound) ?_
  rintro (_ | json) made
  · exact Transfers.pure rfl made
  · refine Transfers.bind (owns_tenSetError _) ?_
    rintro ⟨⟩ -
    exact Transfers.pure rfl made

theorem owns_tenJsonCreateNull :
    Owns grants 0 (tenJsonCreateNull (D := D)) (ownsOption OwnedJson.blocks) (NewValue keys) :=
  owns_createLeaf (fun _ => rfl) .null

theorem owns_tenJsonCreateBool (value : Int) :
    Owns grants 0 (tenJsonCreateBool (D := D) value) (ownsOption OwnedJson.blocks)
      (NewValue keys) :=
  owns_createLeaf (fun _ => rfl) (.boolean · _)

theorem owns_tenJsonCreateNumber (value : D) :
    Owns grants 0 (tenJsonCreateNumber value) (ownsOption OwnedJson.blocks) (NewValue keys) :=
  owns_createLeaf (fun _ => rfl) (.number · _)

/-- The block for a string value, or the string is destroyed. -/
theorem owns_allocString {α : Type} {owns : α → Multiset Nat} {fact : Option α → Prop}
    {string : OwnedString} {next : OwnedJson D → Op (Option α)} (nothing : fact none)
    (continues : ∀ self, Owns grants (OwnedJson.string (D := D) self string).blocks
      (next (.string self string)) (ownsOption owns) fact) :
    Owns grants string.blocks
      (do
        let some json ← tenJsonAlloc (D := D) (.string · string)
          | do
            tenStringDestroy (some string)
            return none
        next json)
      (ownsOption owns) fact := by
  have alloc : Owns grants 0 (tenJsonAlloc (D := D) (.string · string))
      (fun reply => ownsOption (fun json => {json.self}) reply)
      (fun reply => ∀ json, reply = some json → json = .string json.self string) := by
    refine Transfers.bind owns_tenMalloc ?_
    rintro (_ | self) -
    · exact Transfers.pure rfl (by rintro json ⟨⟩)
    · exact Transfers.pure rfl (by rintro json ⟨⟩; rfl)
  refine Transfers.call string.blocks alloc (zero_add _).symm ?_
  rintro (_ | json) shape
  · refine Transfers.bind ((owns_tenStringDestroy (some string)).conseq (zero_add _)
      (fun _ _ => rfl) fun _ holds => holds) ?_
    rintro ⟨⟩ -
    exact Transfers.pure rfl nothing
  · rw [shape json rfl]
    exact continues json.self

/-- `ten_json_create_string`: three blocks, or none. -/
theorem owns_tenJsonCreateString (value : Option CString) :
    Owns grants 0 (tenJsonCreateString (D := D) value) (ownsOption OwnedJson.blocks)
      (NewValue keys) := by
  cases value with
  | none =>
      refine Transfers.bind (owns_tenSetError _) ?_
      rintro ⟨⟩ -
      exact Transfers.pure rfl newValue_none
  | some value =>
      refine Transfers.bind (owns_tenStringCreate_cstr value) ?_
      rintro (_ | string) made
      · exact Transfers.pure rfl newValue_none
      · have valid := (made string rfl).1
        refine owns_allocString newValue_none fun self => ?_
        refine Transfers.bind (owns_tenSetError _) ?_
        rintro ⟨⟩ -
        exact Transfers.pure rfl (newValue_some (.string valid))

/-- `ten_json_create_array`: two blocks, or none. -/
theorem owns_tenJsonCreateArray :
    Owns grants 0 (tenJsonCreateArray (D := D)) (ownsOption OwnedJson.blocks)
      (fun reply => ∀ json, reply = some json →
        ∃ self list, json = .array self list ∧ list.Valid ∧ list.list.items = []) := by
  refine Transfers.bind owns_tenMalloc ?_
  rintro (_ | self) -
  · exact Transfers.pure rfl (by rintro json ⟨⟩)
  refine Transfers.call {self} (owns_tenListCreate .pointer) (zero_add _).symm ?_
  rintro (_ | list) made
  · refine Transfers.bind ((owns_tenFree (some self)).conseq (zero_add _) (fun _ _ => rfl)
      fun _ holds => holds) ?_
    rintro ⟨⟩ -
    exact Transfers.pure rfl (by rintro json ⟨⟩)
  · obtain ⟨valid, empty⟩ := made list rfl
    refine Transfers.bind (owns_tenSetError _) ?_
    rintro ⟨⟩ -
    refine Transfers.pure ?_ ?_
    · rw [ownsOption_some, ownsOption_some, OwnedJson.blocks_array, empty, List.map_nil,
        List.sum_nil, add_zero, add_comm]
    · rintro json ⟨⟩
      exact ⟨self, list, rfl, valid, empty⟩

/-- `ten_json_create_object`: four blocks, or none. -/
theorem owns_tenJsonCreateObject :
    Owns grants 0 (tenJsonCreateObject (D := D)) (ownsOption OwnedJson.blocks)
      (fun reply => ∀ json, reply = some json →
        ∃ self object, json = .object self object ∧ object.Valid ∧ object.keys = [] ∧
          object.entries.map.entries = []) := by
  have noValue : ∀ json : OwnedJson D, (none : Option (OwnedJson D)) = some json →
      ∃ self object, json = .object self object ∧ object.Valid ∧ object.keys = [] ∧
        object.entries.map.entries = [] := by
    rintro json ⟨⟩
  refine Transfers.bind owns_tenMalloc ?_
  rintro (_ | self) -
  · exact Transfers.pure rfl noValue
  refine Transfers.call {self} (owns_tenMapCreate .string .pointer) (zero_add _).symm ?_
  rintro entries madeMap
  refine Transfers.call (ownsOption OwnedMap.blocks entries + {self})
    (owns_tenListCreate .pointer) (zero_add _).symm ?_
  rintro keyOrder madeList
  have giveBack : Owns grants (ownsOption OwnedList.blocks keyOrder +
      (ownsOption OwnedMap.blocks entries + {self}))
        (do
          tenMapDestroy entries
          tenListDestroy keyOrder
          tenFree (some self)
          return none) (ownsOption OwnedJson.blocks)
        (fun reply => ∀ json : OwnedJson D, reply = some json →
          ∃ self object, json = .object self object ∧ object.Valid ∧ object.keys = [] ∧
            object.entries.map.entries = []) := by
    refine Transfers.call (ownsOption OwnedList.blocks keyOrder + {self})
      (owns_tenMapDestroy entries) (by abel) ?_
    rintro ⟨⟩ -
    refine Transfers.call {self} (owns_tenListDestroy keyOrder) (zero_add _) ?_
    rintro ⟨⟩ -
    refine Transfers.bind ((owns_tenFree (some self)).conseq (zero_add _) (fun _ _ => rfl)
      fun _ holds => holds) ?_
    rintro ⟨⟩ -
    exact Transfers.pure rfl noValue
  rcases entries with _ | entries
  · exact giveBack
  rcases keyOrder with _ | keyOrder
  · exact giveBack
  obtain ⟨mapValid, noEntries, keyType⟩ := madeMap entries rfl
  obtain ⟨listValid, noItems⟩ := madeList keyOrder rfl
  refine Transfers.bind (owns_tenSetError _) ?_
  rintro ⟨⟩ -
  have noKeys : ({ entries, keyOrder } : OwnedObject (OwnedJson D)).keys = [] := noItems
  refine Transfers.pure ?_ ?_
  · rw [ownsOption_some, ownsOption_some, ownsOption_some, OwnedJson.blocks_object,
      OwnedObject.blocks, noKeys, OwnedObject.contentBlocks]
    dsimp only
    rw [noEntries]
    simp only [List.map_nil, List.sum_nil]
    abel
  · rintro json ⟨⟩
    refine ⟨self, _, rfl, ⟨⟨mapValid, keyType, ?_, ?_⟩, listValid⟩, noKeys, noEntries⟩
    · change ∀ key ∈ keyOrder.list.items.map OwnedString.string, key.Valid
      rw [noItems]
      exact List.forall_mem_nil _
    · change (entries.map.entries.map MapEntry.key).Perm
        ((keyOrder.list.items.map OwnedString.string).map TenString.pointer)
      rw [noEntries, noItems]
      exact List.Perm.refl _

end Ownership

end Heap

end Dotten
