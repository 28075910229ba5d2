/-
Module: Dotten.Memory.OwnedJsonLifetime
Layer: Memory
Purpose: How JSON values are made and destroyed.  A new value owns the blocks that
  were allocated for it, a refusal on the way leaves none behind, and destroying
  a value frees each of its blocks once, provided no two keys of an object have
  the same hash: a lookup would read the string of a key that is gone.
Imports: Dotten.Memory.OwnedJson
Main exports: Heap.tenJsonDestroy, Heap.owns_tenJsonDestroy,
  Heap.tenJsonCreateString, Heap.tenJsonCreateArray, Heap.tenJsonCreateObject
-/
import Dotten.Memory.OwnedJson

namespace Dotten

open Dotten.Library
open Dotten.Library.BucketTable

namespace Heap

section Destruction

/-- The body of the loop over the elements in `ten_json_destroy`. -/
def destroyElement (list : OwnedList (Op Unit)) (i : Nat) : Op Unit := do
  let some element ← tenListGet list i
    | stuck
  element

/-- `case TEN_JSON_ARRAY` of `ten_json_destroy`, with the elements as what destroys
them. -/
def tenJsonDestroyArray (list : OwnedList (Op Unit)) : Op Unit := do
  let count ← tenListCount list
  forCount (destroyElement list) 0 count
  tenListDestroy (some list)

/-- The body of the loop over the members in `ten_json_destroy`. -/
def destroyMember (object : OwnedObject (Op Unit)) (i : Nat) : Op Unit := do
  let some key ← tenListGet object.keyOrder i
    | stuck
  let _ ← tenStringCstr key
  match ← tenMapGet object.entries key.string.pointer with
  | some destroy => do
      destroy
      tenStringDestroy (some key)
  | none => tenStringDestroy (some key)

/-- `case TEN_JSON_OBJECT` of `ten_json_destroy`, with the values as what destroys
them. -/
def tenJsonDestroyObject (object : OwnedObject (Op Unit)) : Op Unit := do
  let count ← tenListCount object.keyOrder
  forCount (destroyMember object) 0 count
  tenMapDestroy (some object.entries)
  tenListDestroy (some object.keyOrder)

/-- What `ten_json_destroy` does before and after its `switch`. -/
def destroyAround (self : Nat) (content : Op Unit) : Op Unit := do
  access self
  content
  tenFree (some self)

variable {D : Type}

mutual

/-- `ten_json_destroy` of a value that exists. -/
def destroyJson : OwnedJson D → Op Unit
  | .null self => destroyAround self (return ())
  | .boolean self _ => destroyAround self (return ())
  | .number self _ => destroyAround self (return ())
  | .string self value => destroyAround self (tenStringDestroy (some value))
  | .array self ⟨list, data, ⟨type, elementSize, items, capacity⟩⟩ =>
      destroyAround self
        (tenJsonDestroyArray ⟨list, data, ⟨type, elementSize, destroyItems items, capacity⟩⟩)
  | .object self ⟨⟨entries, buckets, ⟨keyType, valueType, keySize, valueSize, chains, bucketCount,
      count⟩⟩, keyOrder⟩ =>
      destroyAround self
        (tenJsonDestroyObject
          ⟨⟨entries, buckets, ⟨keyType, valueType, keySize, valueSize, destroyBuckets chains,
            bucketCount, count⟩⟩, keyOrder⟩)

def destroyItems : List (OwnedJson D) → List (Op Unit)
  | [] => []
  | item :: rest => destroyJson item :: destroyItems rest

def destroyBuckets : List (List (MapEntry CharPtr (Cell (OwnedJson D)))) →
    List (List (MapEntry CharPtr (Cell (Op Unit))))
  | [] => []
  | chain :: rest => destroyChain chain :: destroyBuckets rest

def destroyChain : List (MapEntry CharPtr (Cell (OwnedJson D))) →
    List (MapEntry CharPtr (Cell (Op Unit)))
  | [] => []
  | ⟨hash, pointer, ⟨entry, key, value, content⟩⟩ :: rest =>
      ⟨hash, pointer, ⟨entry, key, value, destroyJson content⟩⟩ :: destroyChain rest

end

/-- `ten_json_destroy`. -/
def tenJsonDestroy (json : Option (OwnedJson D)) : Op Unit :=
  match json with
  | none => return ()
  | some json => destroyJson json

theorem destroyItems_eq (items : List (OwnedJson D)) :
    destroyItems items = items.map destroyJson := by
  induction items with
  | nil => rfl
  | cons item rest inductionHypothesis =>
      rw [destroyItems, inductionHypothesis, List.map_cons]

theorem destroyChain_eq (chain : List (MapEntry CharPtr (Cell (OwnedJson D)))) :
    destroyChain chain = chain.map fun entry =>
      { hash := entry.hash, key := entry.key, value := entry.value.map destroyJson } := by
  induction chain with
  | nil => rfl
  | cons entry rest inductionHypothesis =>
      rw [destroyChain, inductionHypothesis, List.map_cons]
      rfl

theorem destroyBuckets_eq (buckets : List (List (MapEntry CharPtr (Cell (OwnedJson D))))) :
    destroyBuckets buckets = buckets.map fun chain => chain.map fun entry =>
      { hash := entry.hash, key := entry.key, value := entry.value.map destroyJson } := by
  induction buckets with
  | nil => rfl
  | cons chain rest inductionHypothesis =>
      rw [destroyBuckets, inductionHypothesis, destroyChain_eq, List.map_cons]

/-- The elements of an array are destroyed by `ten_json_destroy`. -/
theorem destroyJson_array (self : Nat) (list : OwnedList (OwnedJson D)) :
    destroyJson (.array self list) =
      destroyAround self (tenJsonDestroyArray (list.mapItems destroyJson)) := by
  have sameList : ({ list with
      list := { list.list with items := destroyItems list.list.items } } : OwnedList (Op Unit)) =
        list.mapItems destroyJson := by
    rw [destroyItems_eq]
    rfl
  rw [← sameList]
  rfl

/-- The values of an object are destroyed by `ten_json_destroy`. -/
theorem destroyJson_object (self : Nat) (object : OwnedObject (OwnedJson D)) :
    destroyJson (.object self object) =
      destroyAround self (tenJsonDestroyObject (object.mapContents destroyJson)) := by
  have sameTable : ({ object.entries.map with
      buckets := destroyBuckets object.entries.map.buckets } : TenMap CharPtr (Cell (Op Unit))) =
        object.entries.map.mapValues (Cell.map destroyJson) := by
    rw [destroyBuckets_eq]
    rfl
  unfold OwnedObject.mapContents OwnedMap.mapContents
  rw [← sameTable]
  rfl

end Destruction

end Heap

namespace OwnedObject

variable {V : Type}

/-- What the value of a key owns. -/
def ownedBy (owns : V → Multiset Nat) (object : OwnedObject V) (key : OwnedString) :
    Multiset Nat :=
  ownsOption (fun entry => owns entry.value.content)
    (tenMapFind object.entries.map key.string.pointer)

theorem find_mapContents {W : Type} (object : OwnedObject V) (f : V → W) (key : CharPtr) :
    ((tenMapFind (object.mapContents f).entries.map key).map fun entry => entry.value.content) =
      (tenMapFind object.entries.map key).map fun entry => f entry.value.content := by
  change Option.map _ (tenMapFind (object.entries.map.mapValues (Cell.map f)) key) = _
  rw [tenMapFind_mapValues, Option.map_map]
  rfl

namespace Valid

variable {object : OwnedObject V}

/-- Every key of the list has its entry, and the entry refers to that very
string. -/
theorem find_of_mem (valid : object.Valid) {key : OwnedString} (member : key ∈ object.keys) :
    ∃ entry, tenMapFind object.entries.map key.string.pointer = some entry ∧
      entry.key = key.string.pointer :=
  valid.table.find_of_mem (List.mem_map_of_mem member)

/-- The entries are those of the keys of the list. -/
theorem entries_perm (valid : object.Valid) :
    object.entries.map.entries.Perm (object.keys.filterMap fun key =>
      tenMapFind object.entries.map key.string.pointer) := by
  have looked : (object.entries.map.entries.map MapEntry.key).filterMap
      (tenMapFind object.entries.map) = object.entries.map.entries := by
    rw [List.filterMap_map]
    refine (List.filterMap_congr fun entry member => ?_).trans List.filterMap_some
    exact (valid.table.entries.find_eq_some_iff _ _).mpr ⟨member, rfl⟩
  have keys := valid.table.keys.filterMap (tenMapFind object.entries.map)
  change ((object.entries.map.entries.map MapEntry.key).filterMap _).Perm
    (((object.keys.map OwnedString.string).map TenString.pointer).filterMap _) at keys
  rw [looked, List.map_map, List.filterMap_map] at keys
  exact keys

/-- The values own what the keys of the list lead to. -/
theorem contentBlocks_eq (valid : object.Valid) (owns : V → Multiset Nat) :
    object.contentBlocks owns = (object.keys.map (object.ownedBy owns)).sum := by
  rw [OwnedObject.contentBlocks, (valid.entries_perm.map _).sum_eq]
  induction object.keys with
  | nil => rfl
  | cons key rest inductionHypothesis =>
      rw [List.map_cons, List.sum_cons, ← inductionHypothesis, ownedBy]
      cases found : tenMapFind object.entries.map key.string.pointer with
      | none => simp only [List.filterMap_cons, found, ownsOption_none, zero_add]
      | some entry =>
          simp only [List.filterMap_cons, found, List.map_cons, List.sum_cons, ownsOption_some]

/-- A key of the list may be looked up as long as its own string is there: the
strings of the other keys are not read. -/
theorem readable {W : Type} (valid : object.Valid) (f : V → W) {keys : CString → Prop}
    (named : ∀ key ∈ object.keys, keys key.string.cstr) (apart : HashesApart keys)
    {key : OwnedString} (member : key ∈ object.keys) {given : Multiset Nat}
    (held : key.string.addr ∈ given) :
    (object.mapContents f).entries.Readable key.string.pointer given := by
  have targets : ∀ pointer, (object.mapContents f).entries.targets pointer = [pointer.addr] :=
    fun _ => if_pos valid.table.keyType
  constructor
  · intro target inside
    rw [targets, List.mem_singleton] at inside
    rw [inside]
    exact held
  · intro mapped inside sameHash target read
    rw [targets, List.mem_singleton] at read
    have flat : mapped ∈ (object.entries.map.mapValues (Cell.map f)).buckets.flatten := inside
    rw [flatten_mapValues] at flat
    obtain ⟨entry, entryMember, rfl⟩ := List.mem_map.mp flat
    obtain ⟨own, found, pointer⟩ := valid.find_of_mem member
    obtain ⟨ownMember, ownKey⟩ := valid.table.entries.find_eq_some found
    -- the entry has the hash of the key, so it is the entry of the key
    have listed : entry.key ∈ object.table.keyOrder.items.map TenString.pointer :=
      valid.table.keys.mem_iff.mp (List.mem_map_of_mem entryMember)
    obtain ⟨string, stringMember, stringPointer⟩ := List.mem_map.mp listed
    obtain ⟨other, otherMember, rfl⟩ := List.mem_map.mp stringMember
    have hashes : tenMapHash object.entries.map entry.key =
        tenMapHash object.entries.map key.string.pointer :=
      (valid.table.entries.hashed entry entryMember).symm.trans sameHash
    have bytes : ∀ pointer, object.entries.map.keyBytes pointer = pointer.cstr.bytes :=
      JsonObject.keyBytes_eq valid.table
    rw [TenMap.hash_eq, TenMap.hash_eq, bytes, bytes, ← stringPointer] at hashes
    have sameString : other.string.cstr = key.string.cstr :=
      apart _ _ (named other otherMember) (named key member) hashes
    have sameEntry : entry = own := by
      refine List.inj_on_of_nodup_map valid.table.entries.distinct entryMember ownMember ?_
      rw [ownKey]
      change object.entries.map.keyBytes entry.key = object.entries.map.keyBytes _
      rw [bytes, bytes, ← stringPointer]
      exact congrArg CString.bytes sameString
    rw [read]
    change entry.key.addr ∈ given
    rw [sameEntry, pointer]
    exact held

end Valid

end OwnedObject

namespace Heap

section Ownership

variable {V : Type} {grants : Schedule} {owns : V → Multiset Nat} {destroy : V → Op Unit}

theorem owns_destroyAround {self : Nat} {content : Op Unit} {given : Multiset Nat}
    (transfers : Owns grants given content (fun _ => 0) fun _ => True) :
    Owns grants ({self} + given) (destroyAround self content) (fun _ => 0) fun _ => True := by
  refine Transfers.bind
    (owns_access (Multiset.mem_add.mpr (.inl (Multiset.mem_singleton_self self)))) ?_
  rintro ⟨⟩ -
  refine Transfers.call {self} transfers (add_comm _ _) ?_
  rintro ⟨⟩ -
  exact (owns_tenFree (some self)).conseq (by simp) (fun _ _ => rfl) fun _ _ => trivial

/-- A value without contents is one block. -/
theorem owns_destroyAround_leaf (self : Nat) :
    Owns grants {self} (destroyAround self (return ())) (fun _ => 0) fun _ => True :=
  (owns_destroyAround (Transfers.pure rfl trivial)).conseq (add_zero _).symm (fun _ _ => rfl)
    fun _ _ => trivial

/-- An array is destroyed with its elements. -/
theorem owns_tenJsonDestroyArray {list : OwnedList V} (valid : list.Valid)
    (each : ∀ item ∈ list.list.items,
      Owns grants (owns item) (destroy item) (fun _ => 0) fun _ => True) :
    Owns grants (list.blocks + (list.list.items.map owns).sum)
      (tenJsonDestroyArray (list.mapItems destroy)) (fun _ => 0) fun _ => True := by
  have valid' : (list.mapItems destroy).Valid := OwnedList.valid_mapItems valid
  refine Transfers.bind (owns_tenListCount _
    (Multiset.mem_add.mpr (.inl (list.mapItems destroy).self_mem))) ?_
  rintro count rfl
  have pass : ∀ i, i < (list.mapItems destroy).list.items.length →
      Owns grants (list.blocks + ((list.list.items.drop i).map owns).sum)
        (destroyElement (list.mapItems destroy) i)
        (fun _ => list.blocks + ((list.list.items.drop (i + 1)).map owns).sum)
        fun _ => True := by
    intro i within
    change i < (list.forget destroy).items.length at within
    rw [list.length_forget destroy] at within
    have found : (list.mapItems destroy).list.items[i]? = some (destroy list.list.items[i]) := by
      change (list.forget destroy).items[i]? = _
      rw [list.getElem?_forget destroy, List.getElem?_eq_getElem within]
      rfl
    refine Transfers.bind (owns_tenListGet valid' found (Multiset.le_add_right _ _)) ?_
    rintro element rfl
    rw [List.drop_eq_getElem_cons within, List.map_cons, List.sum_cons]
    refine Transfers.conseq
      ((each _ (List.getElem_mem within)).frame
        (list.blocks + ((list.list.items.drop (i + 1)).map owns).sum))
      (by abel) (fun _ _ => zero_add _) fun _ _ => trivial
  refine Transfers.bind (Transfers.forCount pass _ 0 (Nat.zero_add _)) ?_
  rintro ⟨⟩ -
  have none : ((list.list.items.drop (list.mapItems destroy).list.items.length).map owns).sum =
      0 := by
    change ((list.list.items.drop (list.forget destroy).items.length).map owns).sum = 0
    rw [list.length_forget destroy, List.drop_length]
    rfl
  rw [none, add_zero]
  exact owns_tenListDestroy (some (list.mapItems destroy))

/-- An object is destroyed with its keys and its values.  A lookup walks past the
entries of keys that are gone, but reads their strings only where the hashes are
equal. -/
theorem owns_tenJsonDestroyObject {object : OwnedObject V} (valid : object.Valid)
    {keys : CString → Prop} (named : ∀ key ∈ object.keys, keys key.string.cstr)
    (apart : HashesApart keys)
    (each : ∀ entry ∈ object.entries.map.entries,
      Owns grants (owns entry.value.content) (destroy entry.value.content) (fun _ => 0)
        fun _ => True) :
    Owns grants (object.blocks + object.contentBlocks owns)
      (tenJsonDestroyObject (object.mapContents destroy)) (fun _ => 0) fun _ => True := by
  have containers : object.blocks + object.contentBlocks owns =
      object.entries.blocks + object.keyOrder.blocks +
        (object.keys.map fun key => key.blocks + object.ownedBy owns key).sum := by
    rw [OwnedObject.blocks, valid.contentBlocks_eq, List.sum_map_add]
    abel
  have pass : ∀ i, i < object.keys.length →
      Owns grants (object.entries.blocks + object.keyOrder.blocks +
          ((object.keys.drop i).map fun key => key.blocks + object.ownedBy owns key).sum)
        (destroyMember (object.mapContents destroy) i)
        (fun _ => object.entries.blocks + object.keyOrder.blocks +
          ((object.keys.drop (i + 1)).map fun key =>
            key.blocks + object.ownedBy owns key).sum)
        fun _ => True := by
    intro i within
    have member : object.keys[i] ∈ object.keys := List.getElem_mem within
    rw [List.drop_eq_getElem_cons within, List.map_cons, List.sum_cons]
    generalize ((object.keys.drop (i + 1)).map fun key =>
      key.blocks + object.ownedBy owns key).sum = later
    have listed : object.keyOrder.blocks ≤ object.entries.blocks + object.keyOrder.blocks +
        (object.keys[i].blocks + object.ownedBy owns object.keys[i] + later) :=
      (Multiset.le_add_left _ _).trans (Multiset.le_add_right _ _)
    have keyHeld : object.keys[i].blocks ≤ object.entries.blocks + object.keyOrder.blocks +
        (object.keys[i].blocks + object.ownedBy owns object.keys[i] + later) :=
      ((Multiset.le_add_right _ _).trans (Multiset.le_add_right _ _)).trans
        (Multiset.le_add_left _ _)
    have mapHeld : (object.mapContents destroy).entries.blocks ≤
        object.entries.blocks + object.keyOrder.blocks +
          (object.keys[i].blocks + object.ownedBy owns object.keys[i] + later) := by
      change (object.entries.mapContents destroy).blocks ≤ _
      rw [OwnedMap.blocks_mapContents]
      exact (Multiset.le_add_right _ _).trans (Multiset.le_add_right _ _)
    refine Transfers.bind (owns_tenListGet valid.keyOrder (List.getElem?_eq_getElem within)
      listed) ?_
    rintro reply rfl
    refine Transfers.bind (owns_tenStringCstr object.keys[i]
      (Multiset.mem_of_le keyHeld object.keys[i].self_mem)) ?_
    rintro - -
    refine Transfers.bind (owns_tenMapGet mapHeld (valid.readable destroy named apart member
      (Multiset.mem_of_le keyHeld object.keys[i].addr_mem))) ?_
    rintro slot rfl
    rw [object.find_mapContents destroy]
    obtain ⟨entry, found, -⟩ := valid.find_of_mem member
    rw [found]
    have gone : object.ownedBy owns object.keys[i] = owns entry.value.content := by
      rw [OwnedObject.ownedBy, found]
      rfl
    have inside := (valid.table.entries.find_eq_some found).1
    rw [gone]
    refine Transfers.call
      (object.entries.blocks + object.keyOrder.blocks + (object.keys[i].blocks + later))
      (each entry inside) (by abel) ?_
    rintro ⟨⟩ -
    refine Transfers.conseq
      ((owns_tenStringDestroy (some object.keys[i])).frame
        (object.entries.blocks + object.keyOrder.blocks + later))
      (by simp only [ownsOption_some]; abel) (fun _ _ => zero_add _) fun _ _ => trivial
  rw [containers]
  refine Transfers.bind (owns_tenListCount _ (Multiset.mem_add.mpr (.inl (Multiset.mem_add.mpr
    (.inr object.keyOrder.self_mem))))) ?_
  rintro count rfl
  refine Transfers.bind (Transfers.forCount pass _ 0 (Nat.zero_add _)) ?_
  rintro ⟨⟩ -
  rw [List.drop_length, List.map_nil, List.sum_nil, add_zero]
  refine Transfers.call object.keyOrder.blocks
    (owns_tenMapDestroy (some (object.entries.mapContents destroy))) ?_ ?_
  · rw [ownsOption_some, OwnedMap.blocks_mapContents]
  rintro ⟨⟩ -
  exact (owns_tenListDestroy (some object.keyOrder)).conseq (zero_add _) (fun _ _ => rfl)
    fun _ _ => trivial

/-- `ten_json_destroy` frees the blocks of a value, each of them once. -/
theorem owns_destroyJson {D : Type} {keys : CString → Prop} (apart : HashesApart keys)
    {json : OwnedJson D} (sound : json.Sound keys) :
    Owns grants json.blocks (destroyJson json) (fun _ => 0) fun _ => True := by
  induction sound with
  | null self => exact owns_destroyAround_leaf self
  | boolean self value => exact owns_destroyAround_leaf self
  | number self value => exact owns_destroyAround_leaf self
  | @string self value valid => exact owns_destroyAround (owns_tenStringDestroy (some value))
  | @array self list valid items each =>
      rw [OwnedJson.blocks_array, destroyJson_array, add_assoc]
      exact owns_destroyAround (owns_tenJsonDestroyArray valid each)
  | @object self object valid named values each =>
      rw [OwnedJson.blocks_object, destroyJson_object, add_assoc]
      exact owns_destroyAround (owns_tenJsonDestroyObject valid named apart each)

theorem owns_tenJsonDestroy {D : Type} {keys : CString → Prop} (apart : HashesApart keys)
    {json : Option (OwnedJson D)} (sound : ∀ node, json = some node → node.Sound keys) :
    Owns grants (ownsOption OwnedJson.blocks json) (tenJsonDestroy json) (fun _ => 0)
      fun _ => True := by
  cases json with
  | none => exact Transfers.pure rfl trivial
  | some node => exact owns_destroyJson apart (sound node rfl)

end Ownership

end Heap

end Dotten
