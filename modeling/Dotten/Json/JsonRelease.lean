/-
Module: Dotten.Json.JsonRelease
Layer: Json
Purpose: What `ten_json_destroy` reads: the values that it takes apart without
  reading the string of a key that it has freed before.
Imports: Dotten.Json.TenJson, Dotten.Containers.TenMapInvariant
Main exports: JsonNode.nested_induction, JsonObject.InStep, JsonNode.Releasable,
  tenJsonDestroy_spec, silent_tenJsonDestroy, keeps_tenMapSet, keeps_tenListAdd,
  keeps_tenJsonCreateObject
-/
import Dotten.Json.TenJson
import Dotten.Containers.TenMapInvariant

namespace Dotten

open Dotten.Library

section Equations

variable {D : Type}

theorem destroyItems_eq (items : List (JsonNode D)) :
    destroyItems items = items.map destroyJson := by
  induction items with
  | nil => rfl
  | cons item rest inductionHypothesis =>
      rw [destroyItems, inductionHypothesis, List.map_cons]

theorem destroyChain_eq (chain : List (MapEntry CharPtr (JsonNode D))) :
    destroyChain chain = chain.map fun entry =>
      { hash := entry.hash, key := entry.key, value := destroyJson entry.value } := by
  induction chain with
  | nil => rfl
  | cons entry rest inductionHypothesis =>
      rw [destroyChain, inductionHypothesis, List.map_cons]

theorem destroyBuckets_eq (buckets : List (List (MapEntry CharPtr (JsonNode D)))) :
    destroyBuckets buckets = buckets.map fun chain => chain.map fun entry =>
      { hash := entry.hash, key := entry.key, value := destroyJson entry.value } := by
  induction buckets with
  | nil => rfl
  | cons chain rest inductionHypothesis =>
      rw [destroyBuckets, inductionHypothesis, destroyChain_eq, List.map_cons]

/-- The elements of an array are destroyed by `ten_json_destroy`. -/
theorem destroyJson_array (list : TenList (JsonNode D)) :
    destroyJson (.array list) = (do
      tenSetError .ok
      forCount (destroyElement { list with items := list.items.map destroyJson }) 0
        list.items.length) := by
  have sameCount : (destroyItems list.items).length = list.items.length := by
    rw [destroyItems_eq, List.length_map]
  rw [← destroyItems_eq, ← sameCount]
  rfl

/-- The values of an object are destroyed by `ten_json_destroy`. -/
theorem destroyJson_object (object : JsonObject (JsonNode D)) :
    destroyJson (.object object) = (do
      tenSetError .ok
      forCount (destroyMember { object with entries := object.entries.mapValues destroyJson }) 0
        object.keyOrder.items.length) := by
  have sameTable : ({ object.entries with
      buckets := destroyBuckets object.entries.buckets } : TenMap CharPtr (Ten Unit)) =
        object.entries.mapValues destroyJson := by
    rw [destroyBuckets_eq]
    rfl
  rw [← sameTable]
  rfl

theorem destroyElement_eq {list : TenList (JsonNode D)} {i : Nat} {item : JsonNode D}
    (here : list.items[i]? = some item) :
    destroyElement { list with items := list.items.map destroyJson } i = (do
      tenSetError .ok
      destroyJson item) := by
  unfold destroyElement tenListGet
  rw [List.getElem?_map, here]
  rfl

theorem destroyMember_eq {object : JsonObject (JsonNode D)} {i : Nat} {key : TenString}
    (here : object.keyOrder.items[i]? = some key) :
    destroyMember { object with entries := object.entries.mapValues destroyJson } i = (do
      tenSetError .ok
      tenSetError .ok
      tenStrayReads (object.strayReads i key)
      (tenMapFind object.entries key.pointer).elim (tenSetError .notFound) fun entry => do
        tenSetError .ok
        destroyJson entry.value) := by
  have reads : JsonObject.strayReads
      { object with entries := object.entries.mapValues destroyJson } i key =
        object.strayReads i key := by
    rw [JsonObject.strayReads, JsonObject.strayReads, tenMapCompared_mapValues]
  cases found : tenMapFind object.entries key.pointer with
  | none =>
      simp only [destroyMember, tenListGet, here, reads, tenMapGet, tenMapFind_mapValues, found,
        Option.map_none, bind_assoc, pure_bind, bind_pure_unit, Option.elim_none]
  | some entry =>
      simp only [destroyMember, tenListGet, here, reads, tenMapGet, tenMapFind_mapValues, found,
        Option.map_some, bind_assoc, pure_bind, Option.elim_some]

end Equations

section Induction

variable {D : Type}

theorem sizeOf_value_lt {buckets : List (List (MapEntry CharPtr (JsonNode D)))}
    {entry : MapEntry CharPtr (JsonNode D)} (member : entry ∈ buckets.flatten) :
    sizeOf entry.value < sizeOf buckets := by
  obtain ⟨chain, chainMember, inside⟩ := List.mem_flatten.mp member
  have chainSmaller := List.sizeOf_lt_of_mem chainMember
  have entrySmaller := List.sizeOf_lt_of_mem inside
  obtain ⟨hash, key, value⟩ := entry
  simp only [MapEntry.mk.sizeOf_spec] at entrySmaller
  dsimp only
  omega

/-- What holds of a value when it holds of all values in it, holds of every
value. -/
theorem JsonNode.nested_induction {motive : JsonNode D → Prop} (null : motive .null)
    (boolean : ∀ value, motive (.boolean value)) (number : ∀ value, motive (.number value))
    (string : ∀ value, motive (.string value))
    (array : ∀ list, (∀ item ∈ list.items, motive item) → motive (.array list))
    (object : ∀ object, (∀ entry ∈ object.entries.buckets.flatten, motive entry.value) →
      motive (.object object)) :
    ∀ json, motive json
  | .null => null
  | .boolean value => boolean value
  | .number value => number value
  | .string value => string value
  | .array ⟨type, elementSize, items, capacity⟩ =>
      array _ fun item _ =>
        JsonNode.nested_induction null boolean number string array object item
  | .object ⟨⟨keyType, valueType, keySize, valueSize, buckets, bucketCount, count⟩, keyOrder⟩ =>
      object _ fun entry _ =>
        JsonNode.nested_induction null boolean number string array object entry.value
termination_by json => sizeOf json
decreasing_by
  · rename_i member
    have smaller := List.sizeOf_lt_of_mem member
    simp only [JsonNode.array.sizeOf_spec, TenList.mk.sizeOf_spec]
    dsimp only at smaller
    omega
  · rename_i member
    have smaller := sizeOf_value_lt member
    simp only [JsonNode.object.sizeOf_spec, JsonObject.mk.sizeOf_spec, TenMap.mk.sizeOf_spec]
    dsimp only at smaller
    omega

end Induction

/-- No lookup of `ten_json_destroy` reads the string of a key that has had its turn:
the chains lead to a key before they lead to the keys that were entered before it. -/
def JsonObject.InStep {V : Type} (object : JsonObject V) : Prop :=
  ∀ i key, object.keyOrder.items[i]? = some key → object.strayReads i key = 0

/-- Every object of the value, down to the innermost, is in step. -/
inductive JsonNode.Releasable {D : Type} : JsonNode D → Prop where
  | null : Releasable .null
  | boolean (value : Bool) : Releasable (.boolean value)
  | number (value : D) : Releasable (.number value)
  | string (value : TenString) : Releasable (.string value)
  | array {list : TenList (JsonNode D)} (items : ∀ item ∈ list.items, Releasable item) :
      Releasable (.array list)
  | object {object : JsonObject (JsonNode D)} (inStep : object.InStep)
      (values : ∀ key ∈ object.keyOrder.items, ∀ entry,
        tenMapFind object.entries key.pointer = some entry → Releasable entry.value) :
      Releasable (.object object)

section Release

variable {D : Type} {grants : Schedule} {world : World}

/-- What a destruction leaves: the world, but for the freed strings that it read. -/
def Released (world : World) (clean : Prop) (_ : Unit) (after : World) : Prop :=
  after.requests = world.requests ∧ world.CleanIff after clean

/-- The conditions of the first passes of a loop and of the next one. -/
theorem forall_lt_succ_iff {p : Nat → Prop} {i : Nat} :
    (∀ j < i + 1, p j) ↔ (∀ j < i, p j) ∧ p i := by
  constructor
  · intro all
    exact ⟨fun j below => all j (Nat.lt_succ_of_lt below), all i (Nat.lt_succ_self i)⟩
  · intro both j below
    rcases Nat.lt_succ_iff_lt_or_eq.mp below with earlier | rfl
    · exact both.1 j earlier
    · exact both.2

/-- A loop whose passes each read no freed string under a condition of their own. -/
theorem released_forCount {body : Nat → Ten Unit} {clean : Nat → Prop} {count : Nat}
    (pass : ∀ i < count, ∀ world, Returns (body i) grants world (Released world (clean i))) :
    Returns (forCount body 0 count) grants world
      (Released world (∀ i < count, clean i)) := by
  have keeps : ∀ i between, i < count → Released world (∀ j < i, clean j) () between →
      Returns (body i) grants between fun _ after =>
        Released world (∀ j < i + 1, clean j) () after := by
    intro i between below done
    apply (pass i below between).mono
    intro _ after next
    exact ⟨next.1.trans done.1, (done.2.trans next.2).congr forall_lt_succ_iff.symm⟩
  exact returns_forCount keeps count 0 world (Nat.zero_add count)
    ⟨rfl, (World.CleanIff.of_eq rfl).congr (by simp)⟩

/-- What `ten_json_destroy` does to an array, when it does so to the elements. -/
theorem tenJsonDestroyArray_spec (list : TenList (JsonNode D))
    (each : ∀ item ∈ list.items, ∀ world,
      Returns (destroyJson item) grants world (Released world item.Releasable)) :
    Returns (destroyJson (.array list)) grants world
      (Released world (JsonNode.array list).Releasable) := by
  have pass : ∀ i < list.items.length, ∀ world,
      Returns (destroyElement { list with items := list.items.map destroyJson } i) grants world
        (Released world (∀ item, list.items[i]? = some item → item.Releasable)) := by
    intro i below world
    have here : list.items[i]? = some list.items[i] := List.getElem?_eq_getElem below
    rw [destroyElement_eq here, returns_bind, returns_tenSetError]
    apply (each _ (List.getElem_mem below) _).mono
    intro _ after released
    refine ⟨released.1, (released.2.congr ?_).preceded rfl⟩
    simp only [here, Option.some.injEq, forall_eq']
  rw [destroyJson_array, returns_bind, returns_tenSetError]
  apply (released_forCount pass).mono
  intro _ after released
  refine ⟨released.1, (released.2.congr ?_).preceded rfl⟩
  constructor
  · intro all
    refine .array fun item member => ?_
    obtain ⟨i, below, here⟩ := List.mem_iff_getElem.mp member
    exact all i below item (List.getElem?_eq_some_iff.mpr ⟨below, here⟩)
  · intro releasable i _ item here
    cases releasable with
    | array items => exact items item (List.mem_of_getElem? here)

/-- One pass of the loop over the members. -/
theorem destroyMember_spec (object : JsonObject (JsonNode D))
    (each : ∀ entry ∈ object.entries.buckets.flatten, ∀ world,
      Returns (destroyJson entry.value) grants world (Released world entry.value.Releasable))
    {i : Nat} {key : TenString} (here : object.keyOrder.items[i]? = some key) :
    Returns (destroyMember { object with entries := object.entries.mapValues destroyJson } i)
      grants world (Released world (object.strayReads i key = 0 ∧
        ∀ entry, tenMapFind object.entries key.pointer = some entry →
          entry.value.Releasable)) := by
  have read : World.CleanIff world
      { world with lastError := .ok, strayReads := world.strayReads + object.strayReads i key }
      (object.strayReads i key = 0) := by
    refine ⟨Nat.le_add_right _ _, ?_⟩
    dsimp only
    omega
  rw [destroyMember_eq here]
  simp only [returns_bind, returns_tenSetError, returns_tenStrayReads]
  cases found : tenMapFind object.entries key.pointer with
  | none =>
      simp only [Option.elim_none, returns_tenSetError]
      refine ⟨rfl, (read.congr ?_).followed rfl⟩
      simp
  | some entry =>
      simp only [Option.elim_some, returns_bind, returns_tenSetError]
      apply (each entry (mem_of_tenMapFind found) _).mono
      intro _ after released
      refine ⟨released.1, (read.trans (released.2.preceded rfl)).congr ?_⟩
      simp only [Option.some.injEq, forall_eq']

/-- What `ten_json_destroy` does to an object, when it does so to the values. -/
theorem tenJsonDestroyObject_spec (object : JsonObject (JsonNode D))
    (each : ∀ entry ∈ object.entries.buckets.flatten, ∀ world,
      Returns (destroyJson entry.value) grants world (Released world entry.value.Releasable)) :
    Returns (destroyJson (.object object)) grants world
      (Released world (JsonNode.object object).Releasable) := by
  have pass : ∀ i < object.keyOrder.items.length, ∀ world,
      Returns (destroyMember { object with entries := object.entries.mapValues destroyJson } i)
        grants world (Released world (∀ key, object.keyOrder.items[i]? = some key →
          object.strayReads i key = 0 ∧ ∀ entry,
            tenMapFind object.entries key.pointer = some entry → entry.value.Releasable)) := by
    intro i below world
    have here : object.keyOrder.items[i]? = some object.keyOrder.items[i] :=
      List.getElem?_eq_getElem below
    apply (destroyMember_spec object each here).mono
    intro _ after released
    refine ⟨released.1, released.2.congr ?_⟩
    simp only [here, Option.some.injEq, forall_eq']
  rw [destroyJson_object, returns_bind, returns_tenSetError]
  apply (released_forCount pass).mono
  intro _ after released
  refine ⟨released.1, (released.2.congr ?_).preceded rfl⟩
  constructor
  · intro all
    refine .object (fun i key here => ?_) (fun key member entry found => ?_)
    · exact (all i (List.getElem?_eq_some_iff.mp here).1 key here).1
    · obtain ⟨i, below, here⟩ := List.mem_iff_getElem.mp member
      exact (all i below key (List.getElem?_eq_some_iff.mpr ⟨below, here⟩)).2 entry found
  · intro releasable i _ key here
    cases releasable with
    | object inStep values =>
        exact ⟨inStep i key here, values key (List.mem_of_getElem? here)⟩

/-- `ten_json_destroy` ends for every value, asks for no memory, and reads no freed
string exactly when every object of the value is in step. -/
theorem tenJsonDestroy_spec (json : JsonNode D) :
    Returns (tenJsonDestroy (some json)) grants world (Released world json.Releasable) := by
  have leaf : ∀ {json : JsonNode D} {world : World}, json.Releasable →
      Released world json.Releasable () world :=
    fun releasable => ⟨rfl, (World.CleanIff.of_eq rfl).congr (iff_of_true trivial releasable)⟩
  change Returns (destroyJson json) grants world (Released world json.Releasable)
  induction json using JsonNode.nested_induction generalizing world with
  | null => exact (returns_pure _ _).mpr (leaf .null)
  | boolean value => exact (returns_pure _ _).mpr (leaf (.boolean value))
  | number value => exact (returns_pure _ _).mpr (leaf (.number value))
  | string value => exact (returns_pure _ _).mpr (leaf (.string value))
  | array list inductionHypothesis =>
      exact tenJsonDestroyArray_spec list fun item member world => inductionHypothesis item member
  | object object inductionHypothesis =>
      exact tenJsonDestroyObject_spec object fun entry member world =>
        inductionHypothesis entry member

end Release

section Silence

variable {D : Type}

theorem silent_tenSetError (code : TenErrorCode) : Silent World.requests (tenSetError code) :=
  fun world => ⟨(), { world with lastError := code }, rfl, fun _ => rfl⟩

theorem silent_tenStrayReads (count : Nat) : Silent World.requests (tenStrayReads count) :=
  fun world =>
    ⟨(), { world with strayReads := world.strayReads + count }, rfl, fun _ => rfl⟩

theorem silent_destroyArray {list : TenList (JsonNode D)}
    (each : ∀ item ∈ list.items, Silent World.requests (destroyJson item)) :
    Silent World.requests (destroyJson (.array list)) := by
  have pass : ∀ i < list.items.length, Silent World.requests
      (destroyElement { list with items := list.items.map destroyJson } i) := by
    intro i below
    rw [destroyElement_eq (List.getElem?_eq_getElem below)]
    exact (silent_tenSetError .ok).bind fun _ => each _ (List.getElem_mem below)
  rw [destroyJson_array]
  exact (silent_tenSetError .ok).bind fun _ => Silent.forCount pass _ 0 (Nat.zero_add _)

theorem silent_destroyObject {object : JsonObject (JsonNode D)}
    (each : ∀ entry ∈ object.entries.buckets.flatten,
      Silent World.requests (destroyJson entry.value)) :
    Silent World.requests (destroyJson (.object object)) := by
  have pass : ∀ i < object.keyOrder.items.length, Silent World.requests
      (destroyMember { object with entries := object.entries.mapValues destroyJson } i) := by
    intro i below
    rw [destroyMember_eq (List.getElem?_eq_getElem below)]
    refine (silent_tenSetError .ok).bind fun _ => (silent_tenSetError .ok).bind fun _ =>
      (silent_tenStrayReads _).bind fun _ => ?_
    cases found : tenMapFind object.entries (object.keyOrder.items[i]).pointer with
    | none => exact silent_tenSetError .notFound
    | some entry =>
        exact (silent_tenSetError .ok).bind fun _ => each entry (mem_of_tenMapFind found)
  rw [destroyJson_object]
  exact (silent_tenSetError .ok).bind fun _ => Silent.forCount pass _ 0 (Nat.zero_add _)

/-- `ten_json_destroy` does not ask the allocator. -/
theorem silent_tenJsonDestroy (json : Option (JsonNode D)) :
    Silent World.requests (tenJsonDestroy json) := by
  cases json with
  | none => exact .pure ()
  | some json =>
      change Silent World.requests (destroyJson json)
      induction json using JsonNode.nested_induction with
      | null => exact .pure ()
      | boolean value => exact .pure ()
      | number value => exact .pure ()
      | string value => exact .pure ()
      | array list inductionHypothesis => exact silent_destroyArray inductionHypothesis
      | object object inductionHypothesis => exact silent_destroyObject inductionHypothesis

end Silence

/-! ### Only destruction reads freed strings -/

section Containers

variable {K V α : Type} [KeyCell K]

theorem keeps_tenMapGet (map : TenMap K V) (key : Option K) :
    Keeps World.strayReads (tenMapGet map key) := by
  unfold tenMapGet
  cases key with
  | none => exact (keeps_tenSetError _).bind fun _ => .pure _
  | some key =>
      dsimp only
      cases tenMapFind map key with
      | none => exact (keeps_tenSetError _).bind fun _ => .pure _
      | some entry => exact (keeps_tenSetError _).bind fun _ => .pure _

theorem keeps_tenMapSetNew (map : TenMap K V) (key : K) (value : V) :
    Keeps World.strayReads (tenMapSetNew map key value) := by
  apply keeps_tenMalloc.bind
  rintro (_ | entry)
  · exact .pure _
  apply keeps_tenMalloc.bind
  rintro (_ | keyCopy)
  · exact .pure _
  apply keeps_tenMalloc.bind
  rintro (_ | valueCopy)
  · exact .pure _
  · exact (keeps_tenSetError .ok).bind fun _ => .pure _

theorem keeps_tenMapSet (map : TenMap K V) (key : Option K) (value : Option V) :
    Keeps World.strayReads (tenMapSet map key value) := by
  have rehash : Keeps World.strayReads (tenMapRehash map (map.bucketCount * 2)) := by
    apply keeps_tenMalloc.bind
    rintro (_ | table) <;> exact .pure _
  unfold tenMapSet
  split
  · split
    · exact (keeps_tenSetError _).bind fun _ => .pure _
    · apply Keeps.ite
      · apply rehash.bind
        rintro ⟨rc, grown⟩
        exact Keeps.ite ((keeps_tenSetError _).bind fun _ => .pure _)
          (keeps_tenMapSetNew grown _ _)
      · exact keeps_tenMapSetNew map _ _
  · exact (keeps_tenSetError _).bind fun _ => .pure _

theorem keeps_tenMapRemove (map : TenMap K V) (key : Option K) :
    Keeps World.strayReads (tenMapRemove map key) := by
  unfold tenMapRemove
  split
  · dsimp only
    split
    · exact (keeps_tenSetError _).bind fun _ => .pure _
    · exact (keeps_tenSetError _).bind fun _ => .pure _
  · exact (keeps_tenSetError _).bind fun _ => .pure _

theorem keeps_tenListAdd (list : TenList α) (value : α) :
    Keeps World.strayReads (tenListAdd list value) := by
  have grow : Keeps World.strayReads (tenListGrow list (list.items.length + 1)) := by
    apply Keeps.ite
    · exact .pure _
    · apply keeps_tenMalloc.bind
      rintro (_ | block) <;> exact .pure _
  apply Keeps.ite
  · exact (keeps_tenSetError _).bind fun _ => .pure _
  · apply grow.bind
    rintro ⟨rc, grown⟩
    exact Keeps.ite ((keeps_tenSetError _).bind fun _ => .pure _)
      ((keeps_tenSetError _).bind fun _ => .pure _)

theorem keeps_tenListCreate (type : TenType) :
    Keeps World.strayReads (tenListCreate (α := α) type) := by
  apply Keeps.ite
  · exact (keeps_tenSetError _).bind fun _ => .pure _
  · apply keeps_tenMalloc.bind
    rintro (_ | block)
    · exact .pure _
    · exact (keeps_tenSetError _).bind fun _ => .pure _

theorem keeps_tenMapCreate {K : Type} (keyType valueType : TenType) :
    Keeps World.strayReads (tenMapCreate (K := K) (V := V) keyType valueType) := by
  apply Keeps.ite
  · exact (keeps_tenSetError _).bind fun _ => .pure _
  · apply keeps_tenMalloc.bind
    rintro (_ | block)
    · exact .pure _
    apply keeps_tenMalloc.bind
    rintro (_ | table)
    · exact .pure _
    · exact (keeps_tenSetError _).bind fun _ => .pure _

theorem keeps_tenStringAlloc (minCapacity : Nat) :
    Keeps World.strayReads (tenStringAlloc minCapacity) := by
  apply keeps_tenMalloc.bind
  rintro (_ | block)
  · exact .pure _
  apply keeps_tenMalloc.bind
  rintro (_ | data) <;> exact .pure _

theorem keeps_tenStringEmpty : Keeps World.strayReads tenStringEmpty := by
  apply (keeps_tenStringAlloc 1).bind
  rintro (_ | string)
  · exact .pure _
  · exact (keeps_tenSetError _).bind fun _ => .pure _

theorem keeps_tenStringCreate (text : Option CString) :
    Keeps World.strayReads (tenStringCreate text) := by
  cases text with
  | none => exact (keeps_tenSetError _).bind fun _ => .pure _
  | some text =>
      apply (keeps_tenStringAlloc _).bind
      rintro (_ | string)
      · exact .pure _
      · exact (keeps_tenSetError _).bind fun _ => .pure _

theorem keeps_tenStringAppend (string : TenString) (text : CString) :
    Keeps World.strayReads (tenStringAppend string text) := by
  apply Keeps.ite
  · apply keeps_tenMalloc.bind
    rintro (_ | block)
    · exact .pure _
    · exact (keeps_tenSetError _).bind fun _ => .pure _
  · exact (keeps_tenSetError _).bind fun _ => .pure _

end Containers

section Values

variable {D : Type}

theorem keeps_tenJsonAlloc (node : JsonNode D) : Keeps World.strayReads (tenJsonAlloc node) := by
  apply keeps_tenMalloc.bind
  rintro (_ | block) <;> exact .pure _

/-- The constructors of scalars: an allocation, then `ten__set_error`. -/
theorem keeps_alloc_ok (node : JsonNode D) :
    Keeps World.strayReads (do
      let some json ← tenJsonAlloc node
        | return none
      tenSetError .ok
      return some json) := by
  apply (keeps_tenJsonAlloc node).bind
  rintro (_ | json)
  · exact .pure _
  · exact (keeps_tenSetError _).bind fun _ => .pure _

theorem keeps_tenJsonCreateArray : Keeps World.strayReads (tenJsonCreateArray (D := D)) := by
  apply keeps_tenMalloc.bind
  rintro (_ | block)
  · exact .pure _
  apply (keeps_tenListCreate _).bind
  rintro (_ | list)
  · exact .pure _
  · exact (keeps_tenSetError _).bind fun _ => .pure _

theorem keeps_tenJsonCreateObject : Keeps World.strayReads (tenJsonCreateObject (D := D)) := by
  apply keeps_tenMalloc.bind
  rintro (_ | block)
  · exact .pure _
  apply (keeps_tenMapCreate _ _).bind
  intro entries
  apply (keeps_tenListCreate _).bind
  intro keyOrder
  cases entries with
  | none => exact .pure _
  | some entries =>
      cases keyOrder with
      | none => exact .pure _
      | some keyOrder => exact (keeps_tenSetError _).bind fun _ => .pure _

theorem keeps_tenJsonArrayAdd (json : JsonNode D) (value : Option (JsonNode D)) :
    Keeps World.strayReads (tenJsonArrayAdd json value) := by
  unfold tenJsonArrayAdd
  split
  · exact (keeps_tenListAdd _ _).bind fun _ => .pure _
  · exact (keeps_tenSetError _).bind fun _ => .pure _

end Values

end Dotten
