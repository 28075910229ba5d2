/-
Module: Dotten.Memory.OwnedJsonSetters
Layer: Memory
Purpose: The functions of json.c that put a value into an array or an object.  A
  value changes hands when the call succeeds, and stays the caller's when it
  fails; an overwritten value is destroyed, and a key that is not needed too.
Imports: Dotten.Memory.OwnedJsonCreate
Main exports: Heap.tenJsonArrayAdd, Heap.tenJsonObjectSetOwned,
  Heap.tenJsonObjectSet, Heap.SetReply, Heap.owns_tenJsonArrayAdd,
  Heap.owns_tenJsonObjectSetOwned, Heap.owns_tenJsonObjectSet
-/
import Dotten.Memory.OwnedJsonCreate

namespace Dotten

open Dotten.Library
open Dotten.Library.BucketTable

namespace Heap

section Functions

variable {D : Type}

/-- `ten_json_array_add` to a value that exists. -/
def tenJsonArrayAdd (json : OwnedJson D) (value : Option (OwnedJson D)) :
    Op (TenErrorCode × OwnedJson D) :=
  match value with
  | none => do
      tenSetError .nullArgument
      return (.nullArgument, json)
  | some value => do
      access json.self
      match json with
      | .array self list =>
          let (rc, list) ← tenListAdd list value
          return (rc, .array self list)
      | json =>
          tenSetError .nullArgument
          return (.nullArgument, json)

/-- `ten__json_object_set_owned`.  It takes the key in any case, and the value
when it succeeds. -/
def tenJsonObjectSetOwned (object : OwnedObject (OwnedJson D)) (key : OwnedString)
    (value : OwnedJson D) : Op (TenErrorCode × OwnedObject (OwnedJson D)) := do
  let _ ← tenStringCstr key
  match ← tenMapGet object.entries key.string.pointer with
  | some oldValue =>
      let (rc, entries) ← tenMapSet object.entries key.string.pointer value
      if rc ≠ .ok then
        tenStringDestroy (some key)
        return (.outOfMemory, { object with entries })
      else
        tenJsonDestroy (some oldValue)
        tenStringDestroy (some key)
        tenSetError .ok
        return (.ok, { object with entries })
  | none =>
      let (rc, entries) ← tenMapSet object.entries key.string.pointer value
      if rc ≠ .ok then
        tenStringDestroy (some key)
        return (.outOfMemory, { object with entries })
      else
        let (rc, keyOrder) ← tenListAdd object.keyOrder key
        if rc ≠ .ok then
          let (_, entries) ← tenMapRemove entries key.string.pointer
          tenStringDestroy (some key)
          return (.outOfMemory, { entries, keyOrder })
        else
          tenSetError .ok
          return (.ok, { entries, keyOrder })

/-- `ten_json_object_set` on a value that exists. -/
def tenJsonObjectSet (json : OwnedJson D) (key : Option CString) (value : Option (OwnedJson D)) :
    Op (TenErrorCode × OwnedJson D) :=
  match key, value with
  | some key, some value => do
      access json.self
      match json with
      | .object self object =>
          let some keyCopy ← tenStringCreate (some key)
            | return (.outOfMemory, .object self object)
          let (rc, object) ← tenJsonObjectSetOwned object keyCopy value
          return (rc, .object self object)
      | json =>
          tenSetError .nullArgument
          return (.nullArgument, json)
  | _, _ => do
      tenSetError .nullArgument
      return (.nullArgument, json)

end Functions

section Ownership

variable {D : Type} {grants : Schedule} {keys : CString → Prop}

/-- What a container and the caller own after a call that may have taken a
value: the value belongs to the container now, or to the caller still. -/
def afterSet {α : Type} (owns : α → Multiset Nat) (value : Multiset Nat)
    (reply : TenErrorCode × α) : Multiset Nat :=
  owns reply.2 + if reply.1 = .ok then 0 else value

/-- A call with an argument that it cannot use changes nothing. -/
theorem owns_nullArgument {json : OwnedJson D} (sound : json.Sound keys)
    {value : Multiset Nat} :
    Owns grants (json.blocks + value)
      (do
        tenSetError .nullArgument
        return (TenErrorCode.nullArgument, json))
      (afterSet OwnedJson.blocks value) (fun reply => reply.2.Sound keys) := by
  refine Transfers.bind (owns_tenSetError _) ?_
  rintro ⟨⟩ -
  exact Transfers.pure (by simp [afterSet]) sound

/-- A call on a value of another type changes nothing. -/
theorem owns_unfit {json : OwnedJson D} (sound : json.Sound keys) {value : Multiset Nat} :
    Owns grants (json.blocks + value)
      (do
        access json.self
        tenSetError .nullArgument
        return (TenErrorCode.nullArgument, json))
      (afterSet OwnedJson.blocks value) (fun reply => reply.2.Sound keys) := by
  refine Transfers.bind (owns_access (Multiset.mem_add.mpr (.inl json.self_mem))) ?_
  rintro ⟨⟩ -
  exact owns_nullArgument sound

/-- `ten_json_array_add` to an array. -/
theorem owns_addToArray {self : Nat} {list : OwnedList (OwnedJson D)}
    (sound : (OwnedJson.array self list).Sound keys) {value : OwnedJson D}
    (valueSound : value.Sound keys) :
    Owns grants ((OwnedJson.array self list).blocks + value.blocks)
      (tenJsonArrayAdd (.array self list) (some value))
      (afterSet OwnedJson.blocks value.blocks)
      (fun reply => reply.2.Sound keys ∧ ∃ list', reply.2 = .array self list') := by
  refine Transfers.bind
    (owns_access (Multiset.mem_add.mpr (.inl (OwnedJson.array self list).self_mem))) ?_
  rintro ⟨⟩ -
  cases sound with
  | @array self list valid items =>
      rw [OwnedJson.blocks_array]
      refine Transfers.call
        ({self} + (list.list.items.map OwnedJson.blocks).sum + value.blocks)
        (owns_tenListAdd valid value) (by abel) ?_
      rintro ⟨rc, grown⟩ (⟨rfl, grownValid, appended⟩ | ⟨rfl, rfl⟩)
      · refine Transfers.pure ?_ ⟨.array grownValid ?_, grown, rfl⟩
        · dsimp only [afterSet]
          rw [OwnedJson.blocks_array, appended, List.map_append, List.sum_append, if_pos rfl,
            List.map_singleton, List.sum_singleton]
          abel
        · rw [appended]
          intro item member
          rcases List.mem_append.mp member with old | new
          · exact items item old
          · rw [List.mem_singleton] at new
            rw [new]
            exact valueSound
      · refine Transfers.pure ?_ ⟨.array valid items, _, rfl⟩
        dsimp only [afterSet]
        rw [OwnedJson.blocks_array, if_neg (by decide)]
        abel

/-- `ten_json_array_add`. -/
theorem owns_tenJsonArrayAdd {json : OwnedJson D} (sound : json.Sound keys)
    {value : Option (OwnedJson D)} (valueSound : NewValue keys value) :
    Owns grants (json.blocks + ownsOption OwnedJson.blocks value) (tenJsonArrayAdd json value)
      (afterSet OwnedJson.blocks (ownsOption OwnedJson.blocks value))
      (fun reply => reply.2.Sound keys) := by
  cases value with
  | none => exact owns_nullArgument sound
  | some value =>
      cases json with
      | array self list =>
          exact (owns_addToArray sound (valueSound value rfl)).conseq rfl (fun _ _ => rfl)
            fun _ holds => holds.1
      | null => exact owns_unfit sound
      | boolean => exact owns_unfit sound
      | number => exact owns_unfit sound
      | string => exact owns_unfit sound
      | object => exact owns_unfit sound

/-- The blocks of an object but for its struct. -/
def objectBlocks (object : OwnedObject (OwnedJson D)) : Multiset Nat :=
  object.blocks + object.contentBlocks OwnedJson.blocks

/-- An object in order, with its values. -/
structure ObjectSound (keys : CString → Prop) (object : OwnedObject (OwnedJson D)) : Prop where
  valid : object.Valid
  named : ∀ key ∈ object.keys, keys key.string.cstr
  values : ∀ entry ∈ object.entries.map.entries, entry.value.content.Sound keys

/-- A lookup reads strings that are there when all strings are there. -/
theorem readable_of_held {V : Type} {owned : OwnedMap CharPtr V} {key : CharPtr}
    {given : Multiset Nat} (query : key.addr ∈ given)
    (stored : ∀ entry ∈ owned.map.entries, entry.key.addr ∈ given) :
    owned.Readable key given := by
  have targets : ∀ pointer target, target ∈ owned.targets pointer → target = pointer.addr := by
    intro pointer target member
    unfold OwnedMap.targets at member
    split at member
    · exact List.mem_singleton.mp member
    · cases member
  constructor
  · intro target member
    rw [targets key target member]
    exact query
  · intro entry member _ target read
    rw [targets entry.key target read]
    exact stored entry member

/-- The keys of the map point to the strings of the list. -/
theorem addr_mem_of_entry {V : Type} {object : OwnedObject V} (valid : object.Valid)
    {entry : MapEntry CharPtr (Cell V)}
    (member : entry ∈ object.entries.map.entries) :
    entry.key.addr ∈ (object.keys.map OwnedString.blocks).sum := by
  have listed : entry.key ∈ object.table.keyOrder.items.map TenString.pointer :=
    valid.table.keys.mem_iff.mp (List.mem_map_of_mem member)
  obtain ⟨string, stringMember, pointer⟩ := List.mem_map.mp listed
  obtain ⟨key, keyMember, rfl⟩ := List.mem_map.mp stringMember
  rw [← pointer]
  exact Multiset.mem_of_le (le_sum_of_mem OwnedString.blocks keyMember) key.addr_mem

/-- What the values of some entries own does not depend on their order. -/
theorem contentBlocks_of_perm {V : Type} (owns : V → Multiset Nat)
    {left right : List (MapEntry CharPtr (Cell V))} (same : left.Perm right) :
    (left.map fun entry => owns entry.value.content).sum =
      (right.map fun entry => owns entry.value.content).sum :=
  (same.map _).sum_eq

/-- What the values own before and after the value of a key is overwritten. -/
theorem contents_of_overwritten {V : Type} (owns : V → Multiset Nat)
    {map : TenMap CharPtr (Cell V)} (valid : map.Valid) {key : CharPtr}
    {entry : MapEntry CharPtr (Cell V)} (found : Dotten.tenMapFind map key = some entry)
    (content : V) :
    ∃ others, (map.entries.map fun entry => owns entry.value.content).sum =
        owns entry.value.content + others ∧
      ∀ {after : List (MapEntry CharPtr (Cell V))},
        after.Perm (map.entries.map fun other =>
          if map.keyBytes other.key = map.keyBytes key then
            { other with value := { entry.value with content } }
          else other) →
        (after.map fun entry => owns entry.value.content).sum = owns content + others := by
  refine ⟨_, contentBlocks_of_perm owns (valid.entries_perm_of_find found), ?_⟩
  intro after changed
  exact contentBlocks_of_perm owns (changed.trans (valid.overwritten_perm found _))

/-- Removing a key that was just entered takes its entry out again, and no
other. -/
theorem removeFact_of_inserted {V : Type} {owned before left : OwnedMap CharPtr V}
    {key : CharPtr} {cell : Cell V} {rc : TenErrorCode} (valid : owned.map.Valid)
    (alike : owned.map.Alike before.map)
    (grown : owned.map.entries.Perm
      ({ hash := Dotten.tenMapHash before.map key, key, value := cell } :: before.map.entries))
    (removal : owned.RemoveFact key (rc, left)) :
    left.map.Valid ∧ left.map.Alike before.map ∧ left.map.entries.Perm before.map.entries := by
  have linked := grown.mem_iff.mpr List.mem_cons_self
  cases removal with
  | missing absent => exact absurd rfl (valid.find_eq_none absent _ linked)
  | removed found leftValid leftAlike split =>
      obtain ⟨member, same⟩ := valid.find_eq_some found
      have alone := List.inj_on_of_nodup_map valid.distinct member linked same
      rw [alone] at split
      exact ⟨leftValid, ⟨leftAlike.keyType.trans alike.keyType,
        leftAlike.keySize.trans alike.keySize⟩, (split.symm.trans grown).cons_inv⟩

section SetOwned

variable {object : OwnedObject (OwnedJson D)} {key : OwnedString} {value : OwnedJson D}
  {entries : OwnedMap CharPtr (OwnedJson D)}

/-- What is there beside the table's own blocks when a key and a value are entered
into an object. -/
def beside (object : OwnedObject (OwnedJson D)) (key : OwnedString) (value : OwnedJson D) :
    Multiset Nat :=
  object.keyOrder.blocks + (object.keys.map OwnedString.blocks).sum +
    object.contentBlocks OwnedJson.blocks + key.blocks + value.blocks

theorem objectBlocks_beside : objectBlocks object + key.blocks + value.blocks =
    object.entries.blocks + beside object key value := by
  rw [beside, objectBlocks, OwnedObject.blocks]
  abel

theorem key_le_beside : key.blocks ≤ beside object key value :=
  (Multiset.le_add_left _ _).trans (Multiset.le_add_right _ _)

/-- The string of a stored key is there. -/
theorem stored_mem_beside (valid : object.Valid) {entry : MapEntry CharPtr (Cell (OwnedJson D))}
    (member : entry ∈ object.entries.map.entries) : entry.key.addr ∈ beside object key value := by
  have strings : (object.keys.map OwnedString.blocks).sum ≤ beside object key value :=
    ((Multiset.le_add_left _ _).trans (Multiset.le_add_right _ _)).trans
      ((Multiset.le_add_right _ _).trans (Multiset.le_add_right _ _))
  exact Multiset.mem_of_le strings (addr_mem_of_entry valid member)

/-- A set that fails gives the key up and leaves the value with its caller, when
the table has the entries that it had before. -/
theorem owns_setFailed (sound : ObjectSound keys object) (entriesValid : entries.map.Valid)
    (alike : entries.map.Alike object.entries.map)
    (same : entries.map.entries.Perm object.entries.map.entries) :
    Owns grants (entries.blocks + beside object key value)
      (do
        tenStringDestroy (some key)
        return (TenErrorCode.outOfMemory, { object with entries }))
      (afterSet objectBlocks value.blocks) (fun reply => ObjectSound keys reply.2) := by
  have contents := contentBlocks_of_perm OwnedJson.blocks same
  refine Transfers.call (entries.blocks + object.keyOrder.blocks +
      (object.keys.map OwnedString.blocks).sum +
      object.contentBlocks OwnedJson.blocks + value.blocks)
    (owns_tenStringDestroy (some key)) ?_ ?_
  · rw [beside, ownsOption_some]
    abel
  rintro ⟨⟩ -
  refine Transfers.pure ?_ ⟨⟨(sound.valid.table.moved entriesValid alike same).1,
    sound.valid.keyOrder⟩, sound.named,
    fun other member => sound.values other (same.mem_iff.mp member)⟩
  dsimp only [afterSet, objectBlocks, OwnedObject.blocks, OwnedObject.contentBlocks]
  rw [contents, if_neg (by decide), zero_add]
  rfl

/-- A set that replaces a value destroys the old one and the key, which is not
needed. -/
theorem owns_setReplaced (apart : HashesApart keys) (sound : ObjectSound keys object)
    (valueSound : value.Sound keys) {entry : MapEntry CharPtr (Cell (OwnedJson D))}
    (found : Dotten.tenMapFind object.entries.map key.string.pointer = some entry)
    (entriesValid : entries.map.Valid) (alike : entries.map.Alike object.entries.map)
    (changed : entries.map.entries.Perm (object.entries.map.entries.map fun other =>
      if object.entries.map.keyBytes other.key = object.entries.map.keyBytes key.string.pointer then
        { other with value := { entry.value with content := value } }
      else other)) :
    Owns grants (entries.blocks + beside object key value)
      (do
        tenJsonDestroy (some entry.value.content)
        tenStringDestroy (some key)
        tenSetError .ok
        return (TenErrorCode.ok, { object with entries }))
      (afterSet objectBlocks value.blocks) (fun reply => ObjectSound keys reply.2) := by
  have tableValid : object.entries.map.Valid := sound.valid.table.entries
  have inside := (tableValid.find_eq_some found).1
  obtain ⟨others, contentsBefore, contentsAfter⟩ :=
    contents_of_overwritten OwnedJson.blocks tableValid found value
  have entriesAfter := changed.trans
    (tableValid.overwritten_perm found { entry.value with content := value })
  refine Transfers.call (entries.blocks + object.keyOrder.blocks +
      (object.keys.map OwnedString.blocks).sum + others + key.blocks + value.blocks)
    (owns_tenJsonDestroy apart (newValue_some (sound.values entry inside))) ?_ ?_
  · rw [beside, OwnedObject.contentBlocks, contentsBefore, ownsOption_some]
    abel
  rintro ⟨⟩ -
  refine Transfers.call (entries.blocks + object.keyOrder.blocks +
      (object.keys.map OwnedString.blocks).sum + others + value.blocks)
    (owns_tenStringDestroy (some key)) ?_ ?_
  · rw [ownsOption_some]
    abel
  rintro ⟨⟩ -
  refine Transfers.bind (owns_tenSetError _) ?_
  rintro ⟨⟩ -
  refine Transfers.pure ?_ ⟨⟨?_, sound.valid.keyOrder⟩, sound.named, ?_⟩
  · dsimp only [afterSet, objectBlocks, OwnedObject.blocks, OwnedObject.contentBlocks]
    rw [contentsAfter changed, if_pos rfl]
    change 0 + (entries.blocks + object.keyOrder.blocks +
      (object.keys.map OwnedString.blocks).sum + others + value.blocks) =
        entries.blocks + object.keyOrder.blocks +
          (object.keys.map OwnedString.blocks).sum + (value.blocks + others) + 0
    abel
  · exact (sound.valid.table.overwritten entriesValid alike (by
      change (Dotten.tenMapFind object.entries.map key.string.pointer).isSome = true
      rw [found]
      rfl) changed).1
  · intro other member
    rcases List.mem_cons.mp (entriesAfter.mem_iff.mp member) with rfl | old
    · exact valueSound
    · exact sound.values other (List.mem_filter.mp old).1

/-- An object with a new key is in order. -/
theorem ObjectSound.inserted (sound : ObjectSound keys object) (keyValid : key.string.Valid)
    (keyNamed : keys key.string.cstr) (valueSound : value.Sound keys)
    (absent : Dotten.tenMapFind object.entries.map key.string.pointer = none)
    {cell : Cell (OwnedJson D)} (holds : cell.content = value) (entriesValid : entries.map.Valid)
    (alike : entries.map.Alike object.entries.map)
    (grown : entries.map.entries.Perm
      ({ hash := Dotten.tenMapHash object.entries.map key.string.pointer,
         key := key.string.pointer, value := cell } :: object.entries.map.entries))
    {keyOrder : OwnedList OwnedString} (keyOrderValid : keyOrder.Valid)
    (appended : keyOrder.list.items = object.keyOrder.list.items ++ [key]) :
    ObjectSound keys { entries, keyOrder } := by
  have strings : (keyOrder.forget OwnedString.string).items =
      object.table.keyOrder.items ++ [key.string] := by
    change keyOrder.list.items.map OwnedString.string =
      object.keyOrder.list.items.map OwnedString.string ++ [key.string]
    rw [appended, List.map_append, List.map_singleton]
  refine ⟨⟨(sound.valid.table.inserted keyValid entriesValid alike absent grown strings).1,
    keyOrderValid⟩, ?_, ?_⟩
  · intro other member
    change other ∈ keyOrder.list.items at member
    rw [appended] at member
    rcases List.mem_append.mp member with old | new
    · exact sound.named other old
    · rw [List.mem_singleton.mp new]
      exact keyNamed
  · intro other member
    rcases List.mem_cons.mp (grown.mem_iff.mp member) with rfl | old
    · dsimp only
      rw [holds]
      exact valueSound
    · exact sound.values other old

/-- A set that has entered a new key lists it, or takes it out again. -/
theorem owns_setInserted (sound : ObjectSound keys object) (keyValid : key.string.Valid)
    (keyNamed : keys key.string.cstr) (valueSound : value.Sound keys)
    (absent : Dotten.tenMapFind object.entries.map key.string.pointer = none)
    {cell : Cell (OwnedJson D)} (holds : cell.content = value) (entriesValid : entries.map.Valid)
    (alike : entries.map.Alike object.entries.map)
    (grown : entries.map.entries.Perm
      ({ hash := Dotten.tenMapHash object.entries.map key.string.pointer,
         key := key.string.pointer, value := cell } :: object.entries.map.entries)) :
    Owns grants (entries.blocks + beside object key value)
      (do
        let (rc, keyOrder) ← tenListAdd object.keyOrder key
        if rc ≠ .ok then
          let (_, entries) ← tenMapRemove entries key.string.pointer
          tenStringDestroy (some key)
          return (TenErrorCode.outOfMemory, { entries, keyOrder })
        else
          tenSetError .ok
          return (TenErrorCode.ok, { entries, keyOrder }))
      (afterSet objectBlocks value.blocks) (fun reply => ObjectSound keys reply.2) := by
  have contents := contentBlocks_of_perm OwnedJson.blocks grown
  rw [List.map_cons, List.sum_cons, holds] at contents
  refine Transfers.call (entries.blocks + (object.keys.map OwnedString.blocks).sum +
      object.contentBlocks OwnedJson.blocks + key.blocks + value.blocks)
    (owns_tenListAdd sound.valid.keyOrder key) ?_ ?_
  · rw [beside]
    abel
  rintro ⟨rc, keyOrder⟩ (⟨rfl, keyOrderValid, appended⟩ | ⟨rfl, rfl⟩)
  · simp only [ne_eq, not_true_eq_false, if_false]
    refine Transfers.bind (owns_tenSetError _) ?_
    rintro ⟨⟩ -
    refine Transfers.pure ?_ (sound.inserted keyValid keyNamed valueSound absent holds entriesValid
      alike grown keyOrderValid appended)
    dsimp only [afterSet, objectBlocks, OwnedObject.blocks, OwnedObject.contentBlocks,
      OwnedObject.keys]
    rw [contents, if_pos rfl, appended, List.map_append, List.sum_append, List.map_singleton,
      List.sum_singleton]
    change keyOrder.blocks + (entries.blocks + (object.keys.map OwnedString.blocks).sum +
      object.contentBlocks OwnedJson.blocks + key.blocks + value.blocks) =
        entries.blocks + keyOrder.blocks +
      ((object.keys.map OwnedString.blocks).sum + key.blocks) +
        (value.blocks + object.contentBlocks OwnedJson.blocks) + 0
    abel
  · simp only [ne_eq, reduceCtorEq, not_false_eq_true, if_true]
    have query : key.string.pointer.addr ∈ beside object key value :=
      Multiset.mem_of_le key_le_beside key.addr_mem
    have stored : ∀ entry ∈ entries.map.entries, entry.key.addr ∈ beside object key value := by
      intro other member
      rcases List.mem_cons.mp (grown.mem_iff.mp member) with rfl | old
      · exact query
      · exact stored_mem_beside sound.valid old
    refine Transfers.call 0 (owns_tenMapRemove entriesValid (readable_of_held query stored)) ?_ ?_
    · rw [beside]
      abel
    rintro ⟨rc, left⟩ removal
    obtain ⟨leftValid, leftAlike, restored⟩ :=
      removeFact_of_inserted entriesValid alike grown removal
    exact (owns_setFailed sound leftValid leftAlike restored).conseq (add_zero _) (fun _ _ => rfl)
      fun _ holds => holds

/-- `ten__json_object_set_owned`. -/
theorem owns_tenJsonObjectSetOwned (apart : HashesApart keys) (sound : ObjectSound keys object)
    (keyValid : key.string.Valid) (keyNamed : keys key.string.cstr)
    (valueSound : value.Sound keys) :
    Owns grants (objectBlocks object + key.blocks + value.blocks)
      (tenJsonObjectSetOwned object key value) (afterSet objectBlocks value.blocks)
      (fun reply => ObjectSound keys reply.2) := by
  have query : key.string.pointer.addr ∈ beside object key value :=
    Multiset.mem_of_le key_le_beside key.addr_mem
  have readable : object.entries.Readable key.string.pointer (beside object key value) :=
    readable_of_held query fun _ member => stored_mem_beside sound.valid member
  have tableValid : object.entries.map.Valid := sound.valid.table.entries
  rw [objectBlocks_beside]
  refine Transfers.bind (owns_tenStringCstr key
    (Multiset.mem_add.mpr (.inr (Multiset.mem_of_le key_le_beside key.self_mem)))) ?_
  rintro - -
  refine Transfers.bind (owns_tenMapGet (Multiset.le_add_right _ _)
    (readable.mono (Multiset.le_add_left _ _))) ?_
  rintro slot rfl
  cases found : Dotten.tenMapFind object.entries.map key.string.pointer with
  | some entry =>
      refine Transfers.bind (owns_tenMapSet tableValid readable value) ?_
      rintro reply fact
      cases fact with
      | inserted absent => rw [found] at absent; cases absent
      | refused absent => rw [found] at absent; cases absent
      | overwritten foundAgain entriesValid alike changed =>
          rw [found] at foundAgain
          cases foundAgain
          simp only [ne_eq, not_true_eq_false, if_false]
          exact owns_setReplaced apart sound valueSound found entriesValid alike changed
  | none =>
      refine Transfers.bind (owns_tenMapSet tableValid readable value) ?_
      rintro reply fact
      cases fact with
      | overwritten present => rw [found] at present; cases present
      | refused _ entriesValid alike same =>
          simp only [ne_eq, reduceCtorEq, not_false_eq_true, if_true]
          exact owns_setFailed sound entriesValid alike same
      | inserted _ holds entriesValid alike grown =>
          simp only [ne_eq, not_true_eq_false, if_false]
          exact owns_setInserted sound keyValid keyNamed valueSound found holds entriesValid alike
            grown

end SetOwned

/-- `ten_json_object_set`. -/
theorem owns_tenJsonObjectSet (apart : HashesApart keys) {json : OwnedJson D}
    (sound : json.Sound keys) {key : Option CString} (named : ∀ text, key = some text → keys text)
    {value : Option (OwnedJson D)} (valueSound : NewValue keys value) :
    Owns grants (json.blocks + ownsOption OwnedJson.blocks value)
      (tenJsonObjectSet json key value)
      (afterSet OwnedJson.blocks (ownsOption OwnedJson.blocks value))
      (fun reply => reply.2.Sound keys) := by
  cases key with
  | none => exact owns_nullArgument sound
  | some key =>
      cases value with
      | none => exact owns_nullArgument sound
      | some value =>
          cases sound with
          | null self => exact owns_unfit (.null self)
          | boolean self value => exact owns_unfit (.boolean self value)
          | number self value => exact owns_unfit (.number self value)
          | string valid => exact owns_unfit (.string valid)
          | array valid items => exact owns_unfit (.array valid items)
          | @object self object valid objectNamed values =>
              refine Transfers.bind (owns_access (Multiset.mem_add.mpr
                (.inl (OwnedJson.object self object).self_mem))) ?_
              rintro ⟨⟩ -
              have whole : (OwnedJson.object self object).blocks = {self} + objectBlocks object := by
                rw [OwnedJson.blocks_object, objectBlocks, add_assoc]
              rw [whole, ownsOption_some]
              refine Transfers.call ({self} + objectBlocks object + value.blocks)
                (owns_tenStringCreate_cstr key) (zero_add _).symm ?_
              rintro (_ | keyCopy) made
              · refine Transfers.pure ?_ (.object valid objectNamed values)
                dsimp only [afterSet]
                rw [if_neg (by decide), whole, ownsOption_none, zero_add]
              · obtain ⟨keyValid, content⟩ := made keyCopy rfl
                have keyNamed : keys keyCopy.string.cstr := by
                  rw [content]
                  exact named key rfl
                refine Transfers.call {self} (owns_tenJsonObjectSetOwned apart
                  ⟨valid, objectNamed, values⟩ keyValid keyNamed (valueSound value rfl)) ?_ ?_
                · rw [ownsOption_some]
                  abel
                rintro ⟨rc, after⟩ afterSound
                refine Transfers.pure ?_
                  (.object afterSound.valid afterSound.named afterSound.values)
                dsimp only [afterSet]
                rw [OwnedJson.blocks_object, objectBlocks]
                abel

end Ownership

end Heap

end Dotten
