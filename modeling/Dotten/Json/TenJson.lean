/-
Module: Dotten.Json.TenJson
Layer: Json
Purpose: The JSON values of json.c: their constructors, getters and mutators, and
  what `ten_json_destroy` reads on its way.
Imports: Dotten.Containers.TenMap, Dotten.Containers.TenList,
  Dotten.Containers.TenString
Main exports: JsonObject, JsonNode, tenJsonCreateNull, tenJsonCreateBool,
  tenJsonCreateNumber, tenJsonCreateString, tenJsonCreateArray,
  tenJsonCreateObject, tenJsonDestroy, tenJsonArrayAdd, tenJsonObjectSetOwned,
  tenJsonObjectSet, tenJsonObjectCount, tenJsonObjectKeyAt, tenJsonObjectGet
-/
import Dotten.Containers.TenMap
import Dotten.Containers.TenList
import Dotten.Containers.TenString

namespace Dotten

open Dotten.Library

/-- The `object` member of the union: the value of every key, and the keys in
insertion order.  The map refers to the strings that the list owns. -/
structure JsonObject (V : Type) where
  entries : TenMap CharPtr V
  keyOrder : TenList TenString

/-- `ten_json_t`, with the numbers of a type `D` of doubles. -/
inductive JsonNode (D : Type) where
  | null
  | boolean (value : Bool)
  | number (value : D)
  | string (value : TenString)
  | array (list : TenList (JsonNode D))
  | object (object : JsonObject (JsonNode D))

/-- The cell that refers to a string: `const char *key_cstr`. -/
def TenString.pointer (string : TenString) : CharPtr :=
  { addr := string.addr, cstr := string.cstr }

section Constructors

variable {D : Type}

/-- `ten__json_alloc`, followed by filling the block with `node`. -/
def tenJsonAlloc (node : JsonNode D) : Ten (Option (JsonNode D)) := do
  let some _ ← tenMalloc
    | return none
  return some node

/-- `ten_json_create_null`. -/
def tenJsonCreateNull : Ten (Option (JsonNode D)) := do
  let some json ← tenJsonAlloc (D := D) .null
    | return none
  tenSetError .ok
  return some json

/-- `ten_json_create_bool`. -/
def tenJsonCreateBool (value : Int) : Ten (Option (JsonNode D)) := do
  let some json ← tenJsonAlloc (D := D) (.boolean (value != 0))
    | return none
  tenSetError .ok
  return some json

/-- `ten_json_create_number`. -/
def tenJsonCreateNumber (value : D) : Ten (Option (JsonNode D)) := do
  let some json ← tenJsonAlloc (.number value)
    | return none
  tenSetError .ok
  return some json

/-- `ten_json_create_string`. -/
def tenJsonCreateString (value : Option CString) : Ten (Option (JsonNode D)) :=
  match value with
  | some value => do
      let some string ← tenStringCreate (some value)
        | return none
      let some json ← tenJsonAlloc (D := D) (.string string)
        | return none
      tenSetError .ok
      return some json
  | none => do
      tenSetError .nullArgument
      return none

/-- `ten_json_create_array`. -/
def tenJsonCreateArray : Ten (Option (JsonNode D)) := do
  let some _ ← tenMalloc
    | return none
  let some list ← tenListCreate (α := JsonNode D) .pointer
    | return none
  tenSetError .ok
  return some (.array list)

/-- `ten_json_create_object`.  The list is created even when the map was
refused. -/
def tenJsonCreateObject : Ten (Option (JsonNode D)) := do
  let some _ ← tenMalloc
    | return none
  let entries ← tenMapCreate (K := CharPtr) (V := JsonNode D) .string .pointer
  let keyOrder ← tenListCreate (α := TenString) .pointer
  match entries, keyOrder with
  | some entries, some keyOrder =>
      tenSetError .ok
      return some (.object { entries, keyOrder })
  | _, _ => return none

end Constructors

section Destruction

/-- The body of the loop over the elements in `ten_json_destroy`, with the elements
as what destroys them. -/
def destroyElement (list : TenList (Ten Unit)) (i : Nat) : Ten Unit := do
  let some element ← tenListGet list i
    | stuck
  element

/-- `case TEN_JSON_ARRAY` of `ten_json_destroy`. -/
def tenJsonDestroyArray (list : TenList (Ten Unit)) : Ten Unit := do
  let count ← tenListCount list
  forCount (destroyElement list) 0 count

/-- How many strings of keys before the `i`-th, which are freed by then, the lookup
of the `i`-th key reads. -/
def JsonObject.strayReads {V : Type} (object : JsonObject V) (i : Nat) (key : TenString) : Nat :=
  (tenMapCompared object.entries key.pointer).countP fun pointer =>
    pointer ∈ (object.keyOrder.items.take i).map TenString.pointer

/-- The body of the loop over the members in `ten_json_destroy`, with the values as
what destroys them.  Its last step frees the key. -/
def destroyMember (object : JsonObject (Ten Unit)) (i : Nat) : Ten Unit := do
  let some key ← tenListGet object.keyOrder i
    | stuck
  tenSetError .ok -- `ten_string_cstr`
  tenStrayReads (object.strayReads i key)
  match ← tenMapGet object.entries (some key.pointer) with
  | some destroy => destroy
  | none => return ()

/-- `case TEN_JSON_OBJECT` of `ten_json_destroy`. -/
def tenJsonDestroyObject (object : JsonObject (Ten Unit)) : Ten Unit := do
  let count ← tenListCount object.keyOrder
  forCount (destroyMember object) 0 count

variable {D : Type}

mutual

/-- `ten_json_destroy` of a value that exists. -/
def destroyJson : JsonNode D → Ten Unit
  | .array ⟨type, elementSize, items, capacity⟩ =>
      tenJsonDestroyArray ⟨type, elementSize, destroyItems items, capacity⟩
  | .object ⟨⟨keyType, valueType, keySize, valueSize, chains, bucketCount, count⟩, keyOrder⟩ =>
      tenJsonDestroyObject
        ⟨⟨keyType, valueType, keySize, valueSize, destroyBuckets chains, bucketCount, count⟩,
          keyOrder⟩
  | _ => return ()

def destroyItems : List (JsonNode D) → List (Ten Unit)
  | [] => []
  | item :: rest => destroyJson item :: destroyItems rest

def destroyBuckets : List (List (MapEntry CharPtr (JsonNode D))) →
    List (List (MapEntry CharPtr (Ten Unit)))
  | [] => []
  | chain :: rest => destroyChain chain :: destroyBuckets rest

def destroyChain : List (MapEntry CharPtr (JsonNode D)) → List (MapEntry CharPtr (Ten Unit))
  | [] => []
  | ⟨hash, key, value⟩ :: rest => ⟨hash, key, destroyJson value⟩ :: destroyChain rest

end

/-- `ten_json_destroy`. -/
def tenJsonDestroy (json : Option (JsonNode D)) : Ten Unit :=
  match json with
  | none => return ()
  | some json => destroyJson json

end Destruction

section Mutators

variable {D : Type}

/-- `ten_json_array_add` on a value that exists. -/
def tenJsonArrayAdd (json : JsonNode D) (value : Option (JsonNode D)) :
    Ten (TenErrorCode × JsonNode D) :=
  match json, value with
  | .array list, some value => do
      let (rc, list) ← tenListAdd list value
      return (rc, .array list)
  | _, _ => do
      tenSetError .nullArgument
      return (.nullArgument, json)

/-- `ten__json_object_set_owned`.  A key that is there keeps the string that
`key_order` holds; a key that is new is entered into the map first and taken
out again when `key_order` cannot grow. -/
def tenJsonObjectSetOwned (object : JsonObject (JsonNode D)) (key : TenString)
    (value : JsonNode D) : Ten (TenErrorCode × JsonObject (JsonNode D)) := do
  tenSetError .ok -- `ten_string_cstr`
  match ← tenMapGet object.entries (some key.pointer) with
  | some oldValue =>
      let (rc, entries) ← tenMapSet object.entries (some key.pointer) (some value)
      if rc ≠ .ok then
        return (.outOfMemory, { object with entries })
      else
        tenJsonDestroy (some oldValue)
        tenSetError .ok
        return (.ok, { object with entries })
  | none =>
      let (rc, entries) ← tenMapSet object.entries (some key.pointer) (some value)
      if rc ≠ .ok then
        return (.outOfMemory, { object with entries })
      else
        let (rc, keyOrder) ← tenListAdd object.keyOrder key
        if rc ≠ .ok then
          let (_, entries) ← tenMapRemove entries (some key.pointer)
          return (.outOfMemory, { entries, keyOrder })
        else
          tenSetError .ok
          return (.ok, { entries, keyOrder })

/-- `ten_json_object_set` on a value that exists. -/
def tenJsonObjectSet (json : JsonNode D) (key : Option CString) (value : Option (JsonNode D)) :
    Ten (TenErrorCode × JsonNode D) :=
  match json, key, value with
  | .object object, some key, some value => do
      let some keyCopy ← tenStringCreate (some key)
        | return (.outOfMemory, json)
      let (rc, object) ← tenJsonObjectSetOwned object keyCopy value
      return (rc, .object object)
  | _, _, _ => do
      tenSetError .nullArgument
      return (.nullArgument, json)

end Mutators

section Getters

variable {D : Type}

/-- `ten_json_object_count`. -/
def tenJsonObjectCount (json : Option (JsonNode D)) : Ten Nat :=
  match json with
  | some (.object object) => do
      tenSetError .ok
      tenMapCount object.entries
  | _ => do
      tenSetError .invalidState
      return 0

/-- `ten_json_object_key_at`. -/
def tenJsonObjectKeyAt (json : Option (JsonNode D)) (index : Nat) : Ten (Option CString) :=
  match json with
  | some (.object object) => do
      let some key ← tenListGet object.keyOrder index
        | return none
      tenSetError .ok
      tenSetError .ok -- `ten_string_cstr`
      return some key.cstr
  | _ => do
      tenSetError .invalidState
      return none

/-- `ten_json_object_get`; the cell `&key` holds the caller's string. -/
def tenJsonObjectGet (json : Option (JsonNode D)) (key : Option CharPtr) :
    Ten (Option (JsonNode D)) :=
  match json, key with
  | some (.object object), some key => do
      let some value ← tenMapGet object.entries (some key)
        | return none
      tenSetError .ok
      return some value
  | _, _ => do
      tenSetError .nullArgument
      return none

end Getters

end Dotten
