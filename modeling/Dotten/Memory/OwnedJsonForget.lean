/-
Module: Dotten.Memory.OwnedJsonForget
Layer: Memory
Purpose: The JSON values with their blocks are the JSON values without them.
  Destroying a value cannot be seen, and every function that makes or changes one
  does what the function of the plain values does.
Imports: Dotten.Memory.OwnedJsonSetters, Dotten.Memory.OwnedMapForget
Main exports: OwnedJson.forget, OwnedObject.forget, Heap.keeps_tenJsonDestroy,
  Heap.keeps_tenJsonCreateString, Heap.keeps_tenJsonCreateObject,
  Heap.keeps_tenJsonArrayAdd, Heap.keeps_tenJsonObjectSet
-/
import Dotten.Memory.OwnedJsonSetters
import Dotten.Memory.OwnedMapForget

namespace Dotten

open Dotten.Library
open Dotten.Library.BucketTable

section Forgetting

variable {D : Type}

/-- An object without its blocks, its values seen through a function. -/
def OwnedObject.forget {V W : Type} (view : V → W) (object : OwnedObject V) : JsonObject W where
  entries := object.entries.forget view
  keyOrder := object.keyOrder.forget OwnedString.string

mutual

/-- A value without its blocks. -/
def OwnedJson.forget : OwnedJson D → JsonNode D
  | .null _ => .null
  | .boolean _ value => .boolean value
  | .number _ value => .number value
  | .string _ value => .string value.string
  | .array _ ⟨_, _, ⟨type, elementSize, items, capacity⟩⟩ =>
      .array ⟨type, elementSize, forgetItems items, capacity⟩
  | .object _ ⟨⟨_, _, ⟨keyType, valueType, keySize, valueSize, chains, bucketCount, count⟩⟩,
      keyOrder⟩ =>
      .object ⟨⟨keyType, valueType, keySize, valueSize, forgetBuckets chains, bucketCount, count⟩,
        keyOrder.forget OwnedString.string⟩

def forgetItems : List (OwnedJson D) → List (JsonNode D)
  | [] => []
  | item :: rest => item.forget :: forgetItems rest

def forgetBuckets : List (List (MapEntry CharPtr (Cell (OwnedJson D)))) →
    List (List (MapEntry CharPtr (JsonNode D)))
  | [] => []
  | chain :: rest => forgetChain chain :: forgetBuckets rest

def forgetChain : List (MapEntry CharPtr (Cell (OwnedJson D))) →
    List (MapEntry CharPtr (JsonNode D))
  | [] => []
  | ⟨hash, pointer, ⟨_, _, _, content⟩⟩ :: rest =>
      ⟨hash, pointer, content.forget⟩ :: forgetChain rest

end

theorem forgetItems_eq (items : List (OwnedJson D)) :
    forgetItems items = items.map OwnedJson.forget := by
  induction items with
  | nil => rfl
  | cons item rest inductionHypothesis =>
      rw [forgetItems, inductionHypothesis, List.map_cons]

theorem forgetChain_eq (chain : List (MapEntry CharPtr (Cell (OwnedJson D)))) :
    forgetChain chain = chain.map (seenEntry OwnedJson.forget) := by
  induction chain with
  | nil => rfl
  | cons entry rest inductionHypothesis =>
      rw [forgetChain, inductionHypothesis, List.map_cons]
      rfl

theorem forgetBuckets_eq (buckets : List (List (MapEntry CharPtr (Cell (OwnedJson D))))) :
    forgetBuckets buckets = buckets.map (List.map (seenEntry OwnedJson.forget)) := by
  induction buckets with
  | nil => rfl
  | cons chain rest inductionHypothesis =>
      rw [forgetBuckets, inductionHypothesis, forgetChain_eq, List.map_cons]

theorem OwnedJson.forget_array (self : Nat) (list : OwnedList (OwnedJson D)) :
    (OwnedJson.array self list).forget = .array (list.forget OwnedJson.forget) := by
  have sameList : ({ list.list with items := forgetItems list.list.items } :
      TenList (JsonNode D)) = list.forget OwnedJson.forget := by
    rw [forgetItems_eq]
    rfl
  rw [← sameList]
  rfl

theorem OwnedJson.forget_object (self : Nat) (object : OwnedObject (OwnedJson D)) :
    (OwnedJson.object self object).forget = .object (object.forget OwnedJson.forget) := by
  have sameTable : ({ object.entries.map with
      buckets := forgetBuckets object.entries.map.buckets } : TenMap CharPtr (JsonNode D)) =
        object.entries.forget OwnedJson.forget := by
    rw [forgetBuckets_eq]
    rfl
  unfold OwnedObject.forget
  rw [← sameTable]
  rfl

end Forgetting

namespace Heap

section Destruction

variable {D : Type}

theorem unseen_destroyAround (self : Nat) {content : Op Unit}
    (unseen : Unseen SameRequests content) :
    Unseen SameRequests (destroyAround self content) :=
  Unseen.bind (unseen_access _) fun _ => Unseen.bind unseen fun _ => unseen_tenFree _

theorem unseen_tenJsonDestroyArray {list : OwnedList (Op Unit)}
    (each : ∀ destroy ∈ list.list.items, Unseen SameRequests destroy) :
    Unseen SameRequests (tenJsonDestroyArray list) := by
  refine Unseen.read (yields_tenListCount list) <| Unseen.bind (Unseen.forCount ?_ _ _) fun _ =>
    unseen_tenListDestroy _
  intro i
  refine Unseen.read (yields_tenListGet list i) ?_
  cases found : list.list.items[i]? with
  | none => exact unseen_stuck
  | some destroy => exact each destroy (List.mem_of_getElem? found)

theorem unseen_tenJsonDestroyObject {object : OwnedObject (Op Unit)}
    (each : ∀ entry ∈ object.entries.map.buckets.flatten,
      Unseen SameRequests entry.value.content) :
    Unseen SameRequests (tenJsonDestroyObject object) := by
  refine Unseen.read (yields_tenListCount _) <| Unseen.bind (Unseen.forCount ?_ _ _) fun _ =>
    Unseen.bind (unseen_tenMapDestroy _) fun _ => unseen_tenListDestroy _
  intro i
  refine Unseen.read (yields_tenListGet _ i) ?_
  cases object.keyOrder.list.items[i]? with
  | none => exact unseen_stuck
  | some key =>
      refine Unseen.read (yields_tenStringCstr key) <| Unseen.read (yields_tenMapGet _ _) ?_
      cases found : Dotten.tenMapFind object.entries.map key.string.pointer with
      | none => exact unseen_tenStringDestroy _
      | some entry =>
          exact Unseen.bind (each entry (mem_of_tenMapFind found)) fun _ =>
            unseen_tenStringDestroy _

/-- Destroying a value makes no requests. -/
theorem unseen_destroyJson (json : OwnedJson D) : Unseen SameRequests (destroyJson json) := by
  induction json using OwnedJson.nested_induction with
  | null self => exact unseen_destroyAround self (Unseen.pure ())
  | boolean self value => exact unseen_destroyAround self (Unseen.pure ())
  | number self value => exact unseen_destroyAround self (Unseen.pure ())
  | string self value => exact unseen_destroyAround self (unseen_tenStringDestroy _)
  | array self list each =>
      rw [destroyJson_array]
      refine unseen_destroyAround self (unseen_tenJsonDestroyArray ?_)
      exact List.forall_mem_map.mpr each
  | object self object each =>
      rw [destroyJson_object]
      refine unseen_destroyAround self (unseen_tenJsonDestroyObject ?_)
      change ∀ entry ∈ (object.entries.map.mapValues (Cell.map destroyJson)).buckets.flatten, _
      rw [flatten_mapValues]
      exact List.forall_mem_map.mpr each

theorem unseen_tenJsonDestroy (json : Option (OwnedJson D)) :
    Unseen SameRequests (tenJsonDestroy json) := by
  cases json with
  | none => exact Unseen.pure ()
  | some json => exact unseen_destroyJson json

/-- Neither of the two functions asks for memory. -/
theorem keeps_tenJsonDestroy (json : Option (OwnedJson D)) :
    Keeps id (tenJsonDestroy json) (Dotten.tenJsonDestroy (json.map OwnedJson.forget)) := by
  apply Simulates.of_unseen (unseen_tenJsonDestroy json) _ fun _ _ => rfl
  intro grants world
  obtain ⟨reply, after, requests, run⟩ :=
    silent_tenJsonDestroy (json.map OwnedJson.forget) world
  exact ⟨reply, after, run grants, fun heap same => Eq.trans same requests.symm⟩

end Destruction

section Constructors

variable {D : Type}

theorem keeps_tenJsonAlloc {fill : Nat → OwnedJson D} {node : JsonNode D}
    (fills : ∀ self, (fill self).forget = node) :
    Keeps (Option.map OwnedJson.forget) (tenJsonAlloc fill) (Dotten.tenJsonAlloc node) := by
  refine Erases.bind keeps_tenMalloc ?_
  rintro (_ | self)
  · exact Simulates.pure rfl
  · exact Simulates.pure (congrArg some (fills self))

/-- A constructor of values without contents. -/
theorem keeps_createLeaf {fill : Nat → OwnedJson D} {node : JsonNode D}
    (fills : ∀ self, (fill self).forget = node) :
    Keeps (Option.map OwnedJson.forget)
      (do
        let some json ← tenJsonAlloc fill
          | return none
        tenSetError .ok
        return some json)
      (do
        let some json ← Dotten.tenJsonAlloc node
          | return none
        Dotten.tenSetError .ok
        return some json) := by
  refine Erases.bind (keeps_tenJsonAlloc fills) ?_
  rintro (_ | json)
  · exact Simulates.pure rfl
  · exact Erases.bind (keeps_tenSetError _) fun _ => Simulates.pure rfl

theorem keeps_tenJsonCreateNull :
    Keeps (Option.map OwnedJson.forget) (tenJsonCreateNull (D := D))
      Dotten.tenJsonCreateNull :=
  keeps_createLeaf fun _ => rfl

theorem keeps_tenJsonCreateBool (value : Int) :
    Keeps (Option.map OwnedJson.forget) (tenJsonCreateBool (D := D) value)
      (Dotten.tenJsonCreateBool value) :=
  keeps_createLeaf fun _ => rfl

theorem keeps_tenJsonCreateNumber (value : D) :
    Keeps (Option.map OwnedJson.forget) (tenJsonCreateNumber value)
      (Dotten.tenJsonCreateNumber value) :=
  keeps_createLeaf fun _ => rfl

theorem keeps_tenJsonCreateString (value : Option CString) :
    Keeps (Option.map OwnedJson.forget) (tenJsonCreateString (D := D) value)
      (Dotten.tenJsonCreateString value) := by
  cases value with
  | none => exact Erases.bind (keeps_tenSetError _) fun _ => Simulates.pure rfl
  | some value =>
      refine Erases.bind (keeps_tenStringCreate _) ?_
      rintro (_ | string)
      · exact Simulates.pure rfl
      · refine Erases.bind (keeps_tenJsonAlloc fun _ => rfl) ?_
        rintro (_ | json)
        · exact Simulates.skip (unseen_tenStringDestroy _) fun _ => Simulates.pure rfl
        · exact Erases.bind (keeps_tenSetError _) fun _ => Simulates.pure rfl

theorem keeps_tenJsonCreateArray :
    Keeps (Option.map OwnedJson.forget) (tenJsonCreateArray (D := D))
      Dotten.tenJsonCreateArray := by
  refine Erases.bind keeps_tenMalloc ?_
  rintro (_ | self)
  · exact Simulates.pure rfl
  · refine Erases.bind (keeps_tenListCreate OwnedJson.forget _) ?_
    rintro (_ | list)
    · exact Simulates.skip (unseen_tenFree _) fun _ => Simulates.pure rfl
    · refine Erases.bind (keeps_tenSetError _) fun _ => Simulates.pure ?_
      exact congrArg some (OwnedJson.forget_array self list)

theorem keeps_tenJsonCreateObject :
    Keeps (Option.map OwnedJson.forget) (tenJsonCreateObject (D := D))
      Dotten.tenJsonCreateObject := by
  refine Erases.bind keeps_tenMalloc ?_
  rintro (_ | self)
  · exact Simulates.pure rfl
  refine Erases.bind (keeps_tenMapCreate OwnedJson.forget _ _) fun entries =>
    Erases.bind (keeps_tenListCreate OwnedString.string _) fun keyOrder => ?_
  have giveBack : Keeps (Option.map OwnedJson.forget)
      (do
        tenMapDestroy entries
        tenListDestroy keyOrder
        tenFree (some self)
        return (none : Option (OwnedJson D)))
      (return none) :=
    Simulates.skip (unseen_tenMapDestroy _) fun _ => Simulates.skip (unseen_tenListDestroy _) fun _ =>
      Simulates.skip (unseen_tenFree _) fun _ => Simulates.pure rfl
  rcases entries with _ | entries
  · exact giveBack
  rcases keyOrder with _ | keyOrder
  · exact giveBack
  refine Erases.bind (keeps_tenSetError _) fun _ => Simulates.pure ?_
  exact congrArg some (OwnedJson.forget_object self { entries, keyOrder })

end Constructors

section Setters

variable {D : Type}

/-- What a caller sees of the reply of a function that changes a value. -/
abbrev seenReply : TenErrorCode × OwnedJson D → TenErrorCode × JsonNode D :=
  Prod.map id OwnedJson.forget

theorem keeps_nullArgument (json : OwnedJson D) :
    Keeps seenReply
      (do
        tenSetError .nullArgument
        return (TenErrorCode.nullArgument, json))
      (do
        Dotten.tenSetError .nullArgument
        return (TenErrorCode.nullArgument, json.forget)) :=
  Erases.bind (keeps_tenSetError _) fun _ => Simulates.pure rfl

theorem keeps_tenJsonArrayAdd (json : OwnedJson D) (value : Option (OwnedJson D)) :
    Keeps seenReply (tenJsonArrayAdd json value)
      (Dotten.tenJsonArrayAdd json.forget (value.map OwnedJson.forget)) := by
  cases value with
  | none => cases json <;> exact keeps_nullArgument _
  | some value =>
      refine Simulates.skip (unseen_access _) fun _ => ?_
      cases json with
      | array self list =>
          rw [OwnedJson.forget_array]
          refine Erases.bind (keeps_tenListAdd OwnedJson.forget list value) ?_
          rintro ⟨rc, grown⟩
          exact Simulates.pure (congrArg (rc, ·) (OwnedJson.forget_array self grown))
      | null => exact keeps_nullArgument _
      | boolean => exact keeps_nullArgument _
      | number => exact keeps_nullArgument _
      | string => exact keeps_nullArgument _
      | object => exact keeps_nullArgument _

/-- What becomes of a key cannot be seen. -/
theorem keeps_tenJsonObjectSetOwned (object : OwnedObject (OwnedJson D)) (key : OwnedString)
    (value : OwnedJson D) :
    Keeps (Prod.map id (OwnedObject.forget OwnedJson.forget))
      (tenJsonObjectSetOwned object key value)
      (Dotten.tenJsonObjectSetOwned (object.forget OwnedJson.forget) key.string
        value.forget) := by
  refine Erases.bind (keeps_tenStringCstr key) fun _ =>
    Erases.bind (keeps_tenMapGet OwnedJson.forget object.entries key.string.pointer) ?_
  rintro (_ | oldValue)
  · refine Erases.bind (keeps_tenMapSet OwnedJson.forget object.entries _ value) ?_
    rintro ⟨rc, entries⟩
    refine Simulates.ite (fun _ => ?_) fun _ => ?_
    · exact Simulates.skip (unseen_tenStringDestroy _) fun _ => Simulates.pure rfl
    · refine Erases.bind (keeps_tenListAdd OwnedString.string object.keyOrder key) ?_
      rintro ⟨rc, keyOrder⟩
      refine Simulates.ite (fun _ => ?_) fun _ => ?_
      · refine Erases.bind (keeps_tenMapRemove OwnedJson.forget entries _) fun _ => ?_
        exact Simulates.skip (unseen_tenStringDestroy _) fun _ => Simulates.pure rfl
      · exact Erases.bind (keeps_tenSetError _) fun _ => Simulates.pure rfl
  · refine Erases.bind (keeps_tenMapSet OwnedJson.forget object.entries _ value) ?_
    rintro ⟨rc, entries⟩
    refine Simulates.ite (fun _ => ?_) fun _ => ?_
    · exact Simulates.skip (unseen_tenStringDestroy _) fun _ => Simulates.pure rfl
    · exact Erases.bind (keeps_tenJsonDestroy _) fun _ =>
        Simulates.skip (unseen_tenStringDestroy _) fun _ =>
          Erases.bind (keeps_tenSetError _) fun _ => Simulates.pure rfl

theorem keeps_tenJsonObjectSet (json : OwnedJson D) (key : Option CString)
    (value : Option (OwnedJson D)) :
    Keeps seenReply (tenJsonObjectSet json key value)
      (Dotten.tenJsonObjectSet json.forget key (value.map OwnedJson.forget)) := by
  rcases key with _ | key
  · cases json <;> exact keeps_nullArgument _
  rcases value with _ | value
  · cases json <;> exact keeps_nullArgument _
  refine Simulates.skip (unseen_access _) fun _ => ?_
  cases json with
  | object self object =>
      rw [OwnedJson.forget_object]
      refine Erases.bind (keeps_tenStringCreate (some key)) ?_
      rintro (_ | keyCopy)
      · exact Simulates.pure (congrArg (TenErrorCode.outOfMemory, ·)
          (OwnedJson.forget_object self object))
      · refine Erases.bind (keeps_tenJsonObjectSetOwned object keyCopy value) ?_
        rintro ⟨rc, changed⟩
        exact Simulates.pure (congrArg (rc, ·) (OwnedJson.forget_object self changed))
  | null => exact keeps_nullArgument _
  | boolean => exact keeps_nullArgument _
  | number => exact keeps_nullArgument _
  | string => exact keeps_nullArgument _
  | array => exact keeps_nullArgument _

end Setters

end Heap

end Dotten
