/-
Module: Dotten.Json.JsonView
Layer: Json
Purpose: The tree that the getters of json.h show of a value, the tree that a
  document denotes, and the invariant of values.
Imports: Dotten.Json.JsonGrammar, Dotten.Json.TenJsonObject
Main exports: JsonNode.tree, JsonNode.tree_object, JsonTree.denote,
  JsonNode.ValidWith, JsonNode.Valid, JsonTree.Numbers
-/
import Dotten.Json.JsonGrammar
import Dotten.Json.TenJsonObject

namespace Dotten

open Dotten.Library

section Tree

variable {D : Type}

mutual

/-- What the getters show of a value: the elements by index, and the members by
`ten_json_object_key_at` and `ten_json_object_get`. -/
def JsonNode.tree : JsonNode D → JsonTree D
  | .null => .null
  | .boolean value => .boolean value
  | .number value => .number value
  | .string value => .string value.cstr.bytes
  | .array ⟨_, _, items, _⟩ => .array (JsonNode.trees items)
  | .object ⟨⟨keyType, valueType, keySize, valueSize, buckets, bucketCount, count⟩, keyOrder⟩ =>
      let entries : TenMap CharPtr (JsonTree D) :=
        { keyType, valueType, keySize, valueSize, buckets := JsonNode.bucketTrees buckets,
          bucketCount, count }
      .object (keyOrder.items.filterMap fun key =>
        (tenMapFind entries key.pointer).map fun entry => (key.cstr.bytes, entry.value))

def JsonNode.trees : List (JsonNode D) → List (JsonTree D)
  | [] => []
  | node :: rest => node.tree :: JsonNode.trees rest

def JsonNode.bucketTrees :
    List (List (MapEntry CharPtr (JsonNode D))) → List (List (MapEntry CharPtr (JsonTree D)))
  | [] => []
  | chain :: rest => JsonNode.chainTrees chain :: JsonNode.bucketTrees rest

def JsonNode.chainTrees :
    List (MapEntry CharPtr (JsonNode D)) → List (MapEntry CharPtr (JsonTree D))
  | [] => []
  | ⟨hash, key, value⟩ :: rest => ⟨hash, key, value.tree⟩ :: JsonNode.chainTrees rest

end

theorem JsonNode.trees_eq_map (items : List (JsonNode D)) :
    JsonNode.trees items = items.map JsonNode.tree := by
  induction items with
  | nil => rfl
  | cons node rest inductionHypothesis => rw [JsonNode.trees, inductionHypothesis, List.map_cons]

theorem JsonNode.chainTrees_eq_map (chain : List (MapEntry CharPtr (JsonNode D))) :
    JsonNode.chainTrees chain = chain.map fun entry =>
      { hash := entry.hash, key := entry.key, value := entry.value.tree } := by
  induction chain with
  | nil => rfl
  | cons entry rest inductionHypothesis =>
      rw [JsonNode.chainTrees, inductionHypothesis, List.map_cons]

theorem JsonNode.bucketTrees_eq_map (buckets : List (List (MapEntry CharPtr (JsonNode D)))) :
    JsonNode.bucketTrees buckets = buckets.map fun chain => chain.map fun entry =>
      { hash := entry.hash, key := entry.key, value := entry.value.tree } := by
  induction buckets with
  | nil => rfl
  | cons chain rest inductionHypothesis =>
      rw [JsonNode.bucketTrees, inductionHypothesis, JsonNode.chainTrees_eq_map, List.map_cons]

theorem JsonNode.tree_array (list : TenList (JsonNode D)) :
    (JsonNode.array list).tree = .array (list.items.map JsonNode.tree) := by
  rw [← JsonNode.trees_eq_map]
  rfl

/-- The tree of an object has the members of the object. -/
theorem JsonNode.tree_object (object : JsonObject (JsonNode D)) :
    (JsonNode.object object).tree =
      .object (object.members.map fun member => (member.1.bytes, member.2.tree)) := by
  have sameTable : ({ object.entries with
      buckets := JsonNode.bucketTrees object.entries.buckets } : TenMap CharPtr (JsonTree D)) =
        object.entries.mapValues JsonNode.tree := by
    rw [JsonNode.bucketTrees_eq_map]
    rfl
  rw [JsonNode.tree, sameTable, JsonObject.members, List.map_filterMap]
  congr 1
  apply List.filterMap_congr
  intro key _
  rw [tenMapFind_mapValues]
  cases tenMapFind object.entries key.pointer with
  | none => rfl
  | some entry => rfl

end Tree

section Denotation

variable {D : Type} [CDouble D]

mutual

/-- The value that a document denotes: numbers by `strtod`, and each key of an
object once, at its first position and with its last value. -/
def JsonTree.denote : JsonTree Bytes → JsonTree D
  | .null => .null
  | .boolean value => .boolean value
  | .number token => .number (CDouble.strtod token)
  | .string content => .string content
  | .array elements => .array (JsonTree.denoteAll elements)
  | .object members => .object (OrderedMap.collapse (JsonTree.denoteMembers members))

def JsonTree.denoteAll : List (JsonTree Bytes) → List (JsonTree D)
  | [] => []
  | tree :: rest => tree.denote :: JsonTree.denoteAll rest

def JsonTree.denoteMembers : List (Bytes × JsonTree Bytes) → List (Bytes × JsonTree D)
  | [] => []
  | (key, tree) :: rest => (key, tree.denote) :: JsonTree.denoteMembers rest

end

theorem denoteAll_eq_map (trees : List (JsonTree Bytes)) :
    JsonTree.denoteAll (D := D) trees = trees.map JsonTree.denote := by
  induction trees with
  | nil => rfl
  | cons tree trees inductionHypothesis =>
      rw [JsonTree.denoteAll, inductionHypothesis, List.map_cons]

theorem denoteMembers_eq_map (members : List (Bytes × JsonTree Bytes)) :
    JsonTree.denoteMembers (D := D) members =
      members.map fun member => (member.1, member.2.denote) := by
  induction members with
  | nil => rfl
  | cons member members inductionHypothesis =>
      rw [JsonTree.denoteMembers, inductionHypothesis, List.map_cons]

end Denotation

/-- A value whose strings, arrays and objects are all in good order, and whose
numbers have a property. -/
inductive JsonNode.ValidWith {D : Type} (numbers : D → Prop) : JsonNode D → Prop where
  | null : ValidWith numbers .null
  | boolean (value : Bool) : ValidWith numbers (.boolean value)
  | number {value : D} (allowed : numbers value) : ValidWith numbers (.number value)
  | string {value : TenString} (valid : value.Valid) : ValidWith numbers (.string value)
  | array {list : TenList (JsonNode D)} (items : ∀ item ∈ list.items, ValidWith numbers item) :
      ValidWith numbers (.array list)
  | object {object : JsonObject (JsonNode D)} (valid : object.Valid)
      (members : ∀ member ∈ object.members, ValidWith numbers member.2) :
      ValidWith numbers (.object object)

/-- A value in good order, with any numbers. -/
abbrev JsonNode.Valid {D : Type} (json : JsonNode D) : Prop :=
  json.ValidWith fun _ => True

/-- All numbers of a value have a property. -/
inductive JsonTree.Numbers {ν : Type} (allowed : ν → Prop) : JsonTree ν → Prop where
  | null : Numbers allowed .null
  | boolean (value : Bool) : Numbers allowed (.boolean value)
  | number {value : ν} (holds : allowed value) : Numbers allowed (.number value)
  | string (content : Bytes) : Numbers allowed (.string content)
  | array {elements : List (JsonTree ν)} (each : ∀ tree ∈ elements, Numbers allowed tree) :
      Numbers allowed (.array elements)
  | object {members : List (Bytes × JsonTree ν)}
      (each : ∀ member ∈ members, Numbers allowed member.2) : Numbers allowed (.object members)

theorem JsonTree.Numbers.mono {ν : Type} {allowed more : ν → Prop} {tree : JsonTree ν}
    (numbers : tree.Numbers allowed) (weaken : ∀ value, allowed value → more value) :
    tree.Numbers more := by
  induction numbers with
  | null => exact .null
  | boolean value => exact .boolean value
  | number holds => exact .number (weaken _ holds)
  | string content => exact .string content
  | array _ each => exact .array each
  | object _ each => exact .object each

mutual

theorem JsonTree.numbers_true {ν : Type} : ∀ tree : JsonTree ν, tree.Numbers fun _ => True
  | .null => .null
  | .boolean value => .boolean value
  | .number _ => .number trivial
  | .string content => .string content
  | .array elements => .array (JsonTree.numbers_true_of_mem elements)
  | .object members => .object (JsonTree.numbers_true_of_member members)

theorem JsonTree.numbers_true_of_mem {ν : Type} : ∀ trees : List (JsonTree ν),
    ∀ tree ∈ trees, tree.Numbers fun _ => True
  | [] => List.forall_mem_nil _
  | first :: rest => List.forall_mem_cons.mpr
      ⟨JsonTree.numbers_true first, JsonTree.numbers_true_of_mem rest⟩

theorem JsonTree.numbers_true_of_member {ν : Type} : ∀ members : List (Bytes × JsonTree ν),
    ∀ member ∈ members, member.2.Numbers fun _ => True
  | [] => List.forall_mem_nil _
  | (_, tree) :: rest => List.forall_mem_cons.mpr
      ⟨JsonTree.numbers_true tree, JsonTree.numbers_true_of_member rest⟩

end

theorem JsonNode.ValidWith.numbers {ν : Type} {allowed : ν → Prop} {node : JsonNode ν}
    (valid : node.ValidWith allowed) : node.tree.Numbers allowed := by
  induction valid with
  | null => exact .null
  | boolean value => exact .boolean value
  | number holds => exact .number holds
  | string _ => exact .string _
  | array items each =>
      rw [JsonNode.tree_array]
      apply JsonTree.Numbers.array
      intro tree member
      obtain ⟨item, listed, rfl⟩ := List.mem_map.mp member
      exact each item listed
  | object _ members each =>
      rw [JsonNode.tree_object]
      apply JsonTree.Numbers.object
      intro member listed
      obtain ⟨pair, inside, rfl⟩ := List.mem_map.mp listed
      exact each pair inside

end Dotten
