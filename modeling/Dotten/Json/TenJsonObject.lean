/-
Module: Dotten.Json.TenJsonObject
Layer: Json
Purpose: The map and the key list of a JSON object stay in step, whichever
  allocations of a call are refused, and together are an insertion-ordered map.
Imports: Dotten.Json.JsonRelease, Dotten.Containers.TenMapCalls,
  Dotten.Library.OrderedMap
Main exports: JsonObject.Valid, JsonObject.Owned, JsonObject.members,
  ObjectSetPost, tenJsonObjectSetOwned_spec, tenJsonCreateObject_spec
-/
import Dotten.Json.JsonRelease
import Dotten.Containers.TenMapCalls
import Dotten.Library.OrderedMap

namespace Dotten

open Dotten.Library
open Dotten.Library.BucketTable

section Lookup

variable {K V : Type} [KeyCell K]

/-- The entry that a lookup finds is the entry of that key. -/
theorem TenMap.Valid.find_eq_some_iff {map : TenMap K V} (valid : map.Valid) (key : K)
    (entry : MapEntry K V) :
    tenMapFind map key = some entry ↔
      entry ∈ map.entries ∧ map.keyBytes entry.key = map.keyBytes key := by
  constructor
  · exact valid.find_eq_some
  · intro here
    cases found : tenMapFind map key with
    | none => exact absurd here.2 (valid.find_eq_none found entry here.1)
    | some other =>
        have there := valid.find_eq_some found
        have same : other = entry := List.inj_on_of_nodup_map valid.distinct there.1 here.1
          (there.2.trans here.2.symm)
        rw [same]

/-- Lookups do not depend on how the entries are spread over the chains. -/
theorem TenMap.Valid.find_congr {left right : TenMap K V} (leftValid : left.Valid)
    (rightValid : right.Valid) (alike : right.Alike left)
    (same : right.entries.Perm left.entries) (key : K) :
    tenMapFind right key = tenMapFind left key := by
  apply Option.ext
  intro entry
  rw [rightValid.find_eq_some_iff, leftValid.find_eq_some_iff, alike.keyBytes, same.mem_iff]

end Lookup

namespace JsonObject

variable {V : Type}

/-- The map refers to exactly the strings that the key list holds, and no two
of them are the same string of bytes. -/
structure Valid (object : JsonObject V) : Prop where
  entries : object.entries.Valid
  keyType : object.entries.keyType = .string
  strings : ∀ key ∈ object.keyOrder.items, key.Valid
  keys : (object.entries.entries.map MapEntry.key).Perm
    (object.keyOrder.items.map TenString.pointer)

/-- The strings of the key list are blocks of their own, all of them
allocated already. -/
structure Owned (object : JsonObject V) (requests : Nat) : Prop where
  allocated : ∀ key ∈ object.keyOrder.items, key.addr < requests
  distinct : (object.keyOrder.items.map TenString.addr).Nodup

/-- The visible contents: the keys in order, each with the value that the map
has for it. -/
def members (object : JsonObject V) : List (CString × V) :=
  object.keyOrder.items.filterMap fun key =>
    (tenMapFind object.entries key.pointer).map fun entry => (key.cstr, entry.value)

theorem keyBytes_eq {object : JsonObject V} (valid : object.Valid) (key : CharPtr) :
    object.entries.keyBytes key = key.cstr.bytes := by
  rw [TenMap.keyBytes, if_pos valid.keyType]
  rfl

theorem keyBytes_inj {object : JsonObject V} (valid : object.Valid) {left right : CharPtr} :
    object.entries.keyBytes left = object.entries.keyBytes right ↔ left.cstr = right.cstr := by
  rw [keyBytes_eq valid, keyBytes_eq valid]
  exact ⟨CString.ext, congrArg CString.bytes⟩

namespace Valid

variable {object : JsonObject V}

/-- The keys of the list are distinct strings. -/
theorem distinct (valid : object.Valid) : (object.keyOrder.items.map TenString.cstr).Nodup := by
  have keys := (valid.keys.map fun key => object.entries.keyBytes key).nodup_iff.mp (by
    rw [List.map_map]
    exact valid.entries.distinct)
  rw [List.map_map] at keys
  refine List.Nodup.of_map CString.bytes ?_
  rw [List.map_map]
  have same : (object.entries.keyBytes ∘ TenString.pointer) = CString.bytes ∘ TenString.cstr := by
    funext key
    exact keyBytes_eq valid key.pointer
  rw [← same]
  exact keys

/-- Every key of the list has its entry, and the entry refers to that very
string. -/
theorem find_of_mem (valid : object.Valid) {key : TenString}
    (member : key ∈ object.keyOrder.items) :
    ∃ entry, tenMapFind object.entries key.pointer = some entry ∧ entry.key = key.pointer := by
  have listed : key.pointer ∈ object.entries.entries.map MapEntry.key :=
    valid.keys.mem_iff.mpr (List.mem_map_of_mem member)
  obtain ⟨entry, entryMember, same⟩ := List.mem_map.mp listed
  refine ⟨entry, (valid.entries.find_eq_some_iff _ _).mpr ⟨entryMember, ?_⟩, same⟩
  rw [same]

theorem map_fst_members (valid : object.Valid) :
    object.members.map Prod.fst = object.keyOrder.items.map TenString.cstr := by
  rw [members, List.map_filterMap, ← List.filterMap_eq_map]
  apply List.filterMap_congr
  intro key member
  obtain ⟨entry, found, -⟩ := valid.find_of_mem member
  rw [found]
  rfl

theorem distinct_members (valid : object.Valid) :
    OrderedMap.Distinct (fun key : CString => key) object.members := by
  unfold OrderedMap.Distinct
  have keys := valid.map_fst_members
  have distinct := valid.distinct
  rw [← keys] at distinct
  exact distinct

/-- A key of the map is a key of the list, whatever cell it is asked for
with. -/
theorem find_isSome_iff (valid : object.Valid) (key : CharPtr) :
    (tenMapFind object.entries key).isSome = true ↔
      key.cstr ∈ object.members.map Prod.fst := by
  rw [valid.map_fst_members]
  constructor
  · intro isSome
    obtain ⟨entry, found⟩ := Option.isSome_iff_exists.mp isSome
    obtain ⟨member, same⟩ := valid.entries.find_eq_some found
    have listed : entry.key ∈ object.keyOrder.items.map TenString.pointer :=
      valid.keys.mem_iff.mp (List.mem_map_of_mem member)
    obtain ⟨string, stringMember, pointer⟩ := List.mem_map.mp listed
    refine List.mem_map.mpr ⟨string, stringMember, ?_⟩
    rw [← (keyBytes_inj valid).mp same, ← pointer]
    rfl
  · intro listed
    obtain ⟨string, stringMember, content⟩ := List.mem_map.mp listed
    obtain ⟨entry, found, pointer⟩ := valid.find_of_mem stringMember
    have here := valid.entries.find_eq_some found
    rw [Option.isSome_iff_exists]
    refine ⟨entry, (valid.entries.find_eq_some_iff _ _).mpr ⟨here.1, ?_⟩⟩
    rw [here.2, keyBytes_inj valid]
    exact content

/-- The map's lookup is the lookup in the visible contents. -/
theorem find_map_value (valid : object.Valid) (key : CharPtr) :
    (tenMapFind object.entries key).map MapEntry.value =
      OrderedMap.lookup (fun key : CString => key) key.cstr object.members := by
  apply Option.ext
  intro value
  rw [OrderedMap.lookup_eq_some_iff valid.distinct_members, Option.map_eq_some_iff]
  constructor
  · intro present
    obtain ⟨entry, found, rfl⟩ := present
    have listed := (valid.find_isSome_iff key).mp (by rw [found]; rfl)
    obtain ⟨member, inMembers, sameKey⟩ := List.mem_map.mp listed
    refine ⟨member, inMembers, sameKey, ?_⟩
    obtain ⟨string, -, read⟩ := List.mem_filterMap.mp inMembers
    obtain ⟨other, otherFound, rfl⟩ := Option.map_eq_some_iff.mp read
    have here := valid.entries.find_eq_some found
    have there := valid.entries.find_eq_some otherFound
    have same : other = entry := by
      refine List.inj_on_of_nodup_map valid.entries.distinct there.1 here.1 ?_
      rw [there.2, here.2, keyBytes_inj valid]
      exact sameKey
    rw [same]
  · intro present
    obtain ⟨member, inMembers, sameKey, rfl⟩ := present
    obtain ⟨string, -, read⟩ := List.mem_filterMap.mp inMembers
    obtain ⟨entry, found, rfl⟩ := Option.map_eq_some_iff.mp read
    have there := valid.entries.find_eq_some found
    refine ⟨entry, (valid.entries.find_eq_some_iff _ _).mpr ⟨there.1, ?_⟩, rfl⟩
    rw [there.2, keyBytes_inj valid]
    exact sameKey

/-! ### What the steps of `ten__json_object_set_owned` do to a valid object -/

/-- The entries moved, at most. -/
theorem moved (valid : object.Valid) {entries : TenMap CharPtr V} (stillValid : entries.Valid)
    (alike : entries.Alike object.entries)
    (same : entries.entries.Perm object.entries.entries) :
    JsonObject.Valid { object with entries } ∧
      JsonObject.members { object with entries } = object.members := by
  constructor
  · constructor
    · exact stillValid
    · exact alike.keyType.trans valid.keyType
    · exact valid.strings
    · exact (same.map _).trans valid.keys
  · apply List.filterMap_congr
    intro key _
    change Option.map _ (tenMapFind entries key.pointer) = _
    rw [valid.entries.find_congr stillValid alike same]

/-- The value of a key was overwritten. -/
theorem overwritten (valid : object.Valid) {key : TenString} {value : V}
    {entries : TenMap CharPtr V} (stillValid : entries.Valid)
    (alike : entries.Alike object.entries)
    (present : (tenMapFind object.entries key.pointer).isSome = true)
    (changed : entries.entries.Perm (object.entries.entries.map fun entry =>
      if object.entries.keyBytes entry.key = object.entries.keyBytes key.pointer then
        { entry with value := value }
      else entry)) :
    JsonObject.Valid { object with entries } ∧
      JsonObject.members { object with entries } =
        OrderedMap.insert (fun key : CString => key) key.cstr value object.members := by
  constructor
  · constructor
    · exact stillValid
    · exact alike.keyType.trans valid.keyType
    · exact valid.strings
    · refine ((changed.map MapEntry.key).trans ?_).trans valid.keys
      rw [List.map_map]
      refine List.Perm.of_eq (List.map_congr_left ?_)
      intro entry _
      simp only [Function.comp_apply]
      split <;> rfl
  · have listed : key.cstr ∈ object.members.map Prod.fst := (valid.find_isSome_iff _).mp present
    rw [OrderedMap.insert_of_mem valid.distinct_members listed, members, members,
      List.map_filterMap]
    apply List.filterMap_congr
    intro other member
    obtain ⟨entry, found, -⟩ := valid.find_of_mem member
    have here := valid.entries.find_eq_some found
    -- the entry of `other` after the call
    have foundNow : tenMapFind entries other.pointer =
        some (if object.entries.keyBytes entry.key = object.entries.keyBytes key.pointer then
          { entry with value := value } else entry) := by
      refine (stillValid.find_eq_some_iff _ _).mpr ⟨?_, ?_⟩
      · exact changed.mem_iff.mpr (List.mem_map_of_mem here.1)
      · rw [alike.keyBytes, ← here.2]
        split <;> rfl
    have sameKey : object.entries.keyBytes entry.key = object.entries.keyBytes key.pointer ↔
        other.cstr = key.cstr := by
      rw [here.2]
      exact keyBytes_inj valid
    change Option.map _ (tenMapFind entries other.pointer) = _
    rw [foundNow, found]
    simp only [Option.map_some, sameKey]
    split <;> rfl

/-- A key was entered into both containers. -/
theorem inserted (valid : object.Valid) {key : TenString} (keyValid : key.Valid) {value : V}
    {entries : TenMap CharPtr V} {keyOrder : TenList TenString} (stillValid : entries.Valid)
    (alike : entries.Alike object.entries)
    (absent : tenMapFind object.entries key.pointer = none)
    (grown : entries.entries.Perm
      ({ hash := tenMapHash object.entries key.pointer, key := key.pointer, value } ::
        object.entries.entries))
    (appended : keyOrder.items = object.keyOrder.items ++ [key]) :
    JsonObject.Valid { entries, keyOrder } ∧
      JsonObject.members { entries, keyOrder } =
        OrderedMap.insert (fun key : CString => key) key.cstr value object.members := by
  constructor
  · constructor
    · exact stillValid
    · exact alike.keyType.trans valid.keyType
    · intro string member
      change string ∈ keyOrder.items at member
      rw [appended, List.mem_append, List.mem_singleton] at member
      rcases member with old | rfl
      · exact valid.strings string old
      · exact keyValid
    · change (entries.entries.map MapEntry.key).Perm (keyOrder.items.map TenString.pointer)
      rw [appended, List.map_append]
      refine (grown.map MapEntry.key).trans ?_
      rw [List.map_cons]
      exact (valid.keys.cons _).trans (List.perm_append_singleton _ _).symm
  · have notListed : key.cstr ∉ object.members.map Prod.fst := by
      intro listed
      have isSome := (valid.find_isSome_iff key.pointer).mpr listed
      rw [absent] at isSome
      cases isSome
    rw [OrderedMap.insert_of_notMem notListed]
    unfold members
    change keyOrder.items.filterMap _ = _
    rw [appended, List.filterMap_append]
    congr 1
    · apply List.filterMap_congr
      intro other member
      obtain ⟨entry, found, -⟩ := valid.find_of_mem member
      have here := valid.entries.find_eq_some found
      have foundNow : tenMapFind entries other.pointer = some entry := by
        refine (stillValid.find_eq_some_iff _ _).mpr ⟨?_, ?_⟩
        · exact grown.mem_iff.mpr (List.mem_cons_of_mem _ here.1)
        · rw [alike.keyBytes]
          exact here.2
      change Option.map _ (tenMapFind entries other.pointer) = _
      rw [foundNow, found]
    · have foundNow : tenMapFind entries key.pointer =
          some { hash := tenMapHash object.entries key.pointer, key := key.pointer, value } :=
        (stillValid.find_eq_some_iff _ _).mpr ⟨grown.mem_iff.mpr List.mem_cons_self, rfl⟩
      have readNow : (tenMapFind entries key.pointer).map
          (fun entry => (key.cstr, entry.value)) = some (key.cstr, value) := by
        rw [foundNow]
        rfl
      simp only [List.filterMap_cons, readNow, List.filterMap_nil]

end Valid

end JsonObject

section SetOwned

variable {D : Type} {grants : Schedule} {world : World}

/-- What `ten__json_object_set_owned` may do to the visible contents. -/
inductive ObjectSetOutcome (grants : Schedule) (object : JsonObject (JsonNode D))
    (key : TenString) (value : JsonNode D) : TenErrorCode → JsonObject (JsonNode D) → Prop where
  | done {after : JsonObject (JsonNode D)}
      (members : after.members =
        OrderedMap.insert (fun key : CString => key) key.cstr value object.members) :
      ObjectSetOutcome grants object key value .ok after
  | refused {after : JsonObject (JsonNode D)} (members : after.members = object.members)
      (shortage : ¬ Ample grants) :
      ObjectSetOutcome grants object key value .outOfMemory after

/-- The value of a key that is replaced can be destroyed without reading a freed
key. -/
def JsonObject.ReplacesCleanly (object : JsonObject (JsonNode D)) (key : CharPtr) : Prop :=
  ∀ entry, tenMapFind object.entries key = some entry → entry.value.Releasable

theorem JsonObject.replacesCleanly_of_absent {object : JsonObject (JsonNode D)} {key : CharPtr}
    (absent : tenMapFind object.entries key = none) : object.ReplacesCleanly key := by
  intro entry found
  rw [absent] at found
  cases found

/-- The outcome together with what holds of every outcome. -/
structure ObjectSetPost (grants : Schedule) (world : World) (object : JsonObject (JsonNode D))
    (key : TenString) (value : JsonNode D) (reply : TenErrorCode × JsonObject (JsonNode D))
    (after : World) : Prop where
  valid : reply.2.Valid
  requests : world.requests ≤ after.requests
  keyOrder : reply.2.keyOrder.items = object.keyOrder.items ∨
    reply.2.keyOrder.items = object.keyOrder.items ++ [key]
  lastError : reply.1 = .ok → after.lastError = .ok
  reads : world.CleanIff after (object.ReplacesCleanly key.pointer)
  unread : reply.1 ≠ .ok → after.strayReads = world.strayReads
  outcome : ObjectSetOutcome grants object key value reply.1 reply.2

/-- The end of an insertion: the key joins the list, or leaves the map
again. -/
theorem setOwned_list {object : JsonObject (JsonNode D)} (valid : object.Valid)
    {key : TenString} (keyValid : key.Valid) {value : JsonNode D}
    {entries : TenMap CharPtr (JsonNode D)} (stillValid : entries.Valid)
    (alike : entries.Alike object.entries)
    (absent : tenMapFind object.entries key.pointer = none)
    (grown : entries.entries.Perm
      ({ hash := tenMapHash object.entries key.pointer, key := key.pointer, value } ::
        object.entries.entries)) :
    Returns (do
        let (rc, keyOrder) ← tenListAdd object.keyOrder key
        if rc ≠ .ok then
          let (_, entries) ← tenMapRemove entries (some key.pointer)
          return (.outOfMemory, { entries, keyOrder })
        else
          tenSetError .ok
          return (.ok, { entries, keyOrder }))
      grants world (ObjectSetPost grants world object key value) := by
  have reads : ∀ {after : World}, after.strayReads = world.strayReads →
      world.CleanIff after (object.ReplacesCleanly key.pointer) :=
    fun same => (World.CleanIff.of_eq same).congr
      (iff_of_true trivial (JsonObject.replacesCleanly_of_absent absent))
  rw [returns_bind]
  apply ((keeps_tenListAdd object.keyOrder key).returns (tenListAdd_spec object.keyOrder key)).mono
  intro reply after post
  obtain ⟨rc, keyOrder⟩ := reply
  obtain ⟨⟨requests, -, outcome⟩, same⟩ := post
  cases outcome with
  | added items =>
      obtain ⟨objectValid, members⟩ :=
        valid.inserted keyValid stillValid alike absent grown items
      simp only [ne_eq, not_true_eq_false, if_false, returns_bind, returns_tenSetError,
        returns_pure]
      exact ⟨objectValid, requests, .inr items, fun _ => rfl, reads same, fun _ => same,
        .done members⟩
  | refused shortage =>
      simp only [ne_eq, reduceCtorEq, not_false_eq_true, if_true, returns_bind]
      apply ((keeps_tenMapRemove entries (some key.pointer)).returns
        (tenMapRemove_spec stillValid key.pointer)).mono
      intro reply last post
      obtain ⟨rc, left⟩ := reply
      obtain ⟨⟨leftValid, leftAlike, removal, rfl⟩, sameAgain⟩ := post
      rw [returns_pure]
      have newKey : ∀ entry ∈ object.entries.entries,
          object.entries.keyBytes entry.key ≠ object.entries.keyBytes key.pointer :=
        valid.entries.find_eq_none absent
      cases removal with
      | missing gone =>
          exact absurd rfl (gone _ (grown.mem_iff.mpr List.mem_cons_self))
      | removed present filtered =>
          -- only the entry that was linked in has the key
          have restored : left.entries.Perm object.entries.entries := by
            refine (filtered.trans (grown.filter _)).trans ?_
            rw [alike.keyBytes, List.filter_cons_of_neg (by simp), List.filter_eq_self.mpr]
            intro entry member
            simpa using newKey entry member
          have leftAlikeObject : left.Alike object.entries :=
            ⟨leftAlike.keyType.trans alike.keyType, leftAlike.keySize.trans alike.keySize⟩
          obtain ⟨objectValid, members⟩ := valid.moved leftValid leftAlikeObject restored
          have unread := sameAgain.trans same
          exact ⟨objectValid, requests, .inl rfl, (fun same => by cases same), reads unread,
            fun _ => unread, .refused members shortage⟩

/-- `ten__json_object_set_owned`: an insertion into the ordered map, or no
change at all. -/
theorem tenJsonObjectSetOwned_spec {object : JsonObject (JsonNode D)} (valid : object.Valid)
    {key : TenString} (keyValid : key.Valid) (value : JsonNode D) :
    Returns (tenJsonObjectSetOwned object key value) grants world
      (ObjectSetPost grants world object key value) := by
  simp only [tenJsonObjectSetOwned, returns_bind, returns_tenSetError]
  apply ((keeps_tenMapGet object.entries (some key.pointer)).returns
    (tenMapGet_eq_find object.entries key.pointer)).mono
  intro slot afterGet got
  obtain ⟨⟨slotEq, rfl⟩, -⟩ := got
  cases found : tenMapFind object.entries key.pointer with
  | some entry =>
      rw [found] at slotEq
      subst slotEq
      simp only [Option.map_some, returns_bind]
      apply ((keeps_tenMapSet object.entries (some key.pointer) (some value)).returns
        (tenMapSet_spec valid.entries key.pointer value)).mono
      intro reply after post
      obtain ⟨rc, entries⟩ := reply
      obtain ⟨post, same⟩ := post
      have there := valid.entries.find_eq_some found
      rcases post.outcome with ⟨-, changed⟩ | ⟨absent, -⟩ | ⟨absent, -, -⟩
      · obtain ⟨objectValid, members⟩ := valid.overwritten post.valid post.alike
          (by rw [found]; rfl) changed
        simp only [ne_eq, not_true_eq_false, if_false, returns_bind]
        apply (tenJsonDestroy_spec entry.value).mono
        intro _ last released
        simp only [returns_tenSetError, returns_pure]
        have reads : world.CleanIff last (object.ReplacesCleanly key.pointer) := by
          refine (released.2.congr ?_).preceded same
          unfold JsonObject.ReplacesCleanly
          simp only [found, Option.some.injEq, forall_eq']
        exact ⟨objectValid, post.requests.trans (Nat.le_of_eq released.1.symm), .inl rfl,
          fun _ => rfl, reads.followed rfl, fun failed => absurd rfl failed, .done members⟩
      · exact absurd there.2 (absent entry there.1)
      · exact absurd there.2 (absent entry there.1)
  | none =>
      rw [found] at slotEq
      subst slotEq
      simp only [Option.map_none, returns_bind]
      apply ((keeps_tenMapSet object.entries (some key.pointer) (some value)).returns
        (tenMapSet_spec valid.entries key.pointer value)).mono
      intro reply after post
      obtain ⟨rc, entries⟩ := reply
      obtain ⟨post, same⟩ := post
      have newKey := valid.entries.find_eq_none found
      rcases post.outcome with ⟨present, -⟩ | ⟨-, grown⟩ | ⟨-, shortage, moved⟩
      · obtain ⟨entry, member, sameKey⟩ := present
        exact absurd sameKey (newKey entry member)
      · simp only [ne_eq, not_true_eq_false, if_false]
        apply (setOwned_list valid keyValid post.valid post.alike found grown).mono
        intro reply last listPost
        exact ⟨listPost.valid, post.requests.trans listPost.requests, listPost.keyOrder,
          listPost.lastError, listPost.reads.preceded same,
          fun failed => (listPost.unread failed).trans same, listPost.outcome⟩
      · obtain ⟨objectValid, members⟩ := valid.moved post.valid post.alike moved
        simp only [ne_eq, reduceCtorEq, not_false_eq_true, if_true, returns_pure]
        have unread : after.strayReads = world.strayReads := same
        have reads : world.CleanIff after (object.ReplacesCleanly key.pointer) :=
          (World.CleanIff.of_eq unread).congr
            (iff_of_true trivial (JsonObject.replacesCleanly_of_absent found))
        exact ⟨objectValid, post.requests, .inl rfl, (fun same => by cases same), reads,
          fun _ => unread, .refused members shortage⟩

/-- A string that the object does not hold yet may be handed over. -/
theorem ObjectSetPost.owned {object : JsonObject (JsonNode D)} {key : TenString}
    {value : JsonNode D} {reply : TenErrorCode × JsonObject (JsonNode D)} {after : World}
    (post : ObjectSetPost grants world object key value reply after)
    (owned : object.Owned world.requests) (allocated : key.addr < world.requests)
    (fresh : key.addr ∉ object.keyOrder.items.map TenString.addr) :
    reply.2.Owned after.requests := by
  have requests := post.requests
  rcases post.keyOrder with same | appended
  · constructor
    · rw [same]
      intro string member
      exact Nat.lt_of_lt_of_le (owned.allocated string member) requests
    · rw [same]
      exact owned.distinct
  · constructor
    · rw [appended]
      intro string member
      rw [List.mem_append, List.mem_singleton] at member
      rcases member with old | rfl
      · exact Nat.lt_of_lt_of_le (owned.allocated string old) requests
      · exact Nat.lt_of_lt_of_le allocated requests
    · rw [appended, List.map_append]
      refine List.nodup_append.mpr ⟨owned.distinct, by simp, ?_⟩
      intro left leftMember right rightMember
      rw [List.map_singleton, List.mem_singleton] at rightMember
      subst rightMember
      intro same
      exact fresh (same ▸ leftMember)

end SetOwned

section Create

variable {D : Type} {grants : Schedule} {world : World}

/-- `ten_json_create_object`. -/
theorem tenJsonCreateObject_spec :
    Returns (tenJsonCreateObject (D := D)) grants world (fun reply after =>
      world.requests ≤ after.requests ∧
        ((reply = none ∧ ¬ Ample grants) ∨
          ∃ object, reply = some (.object object) ∧ object.Valid ∧ object.members = [] ∧
            object.keyOrder.items = [] ∧ object.entries.bucketCount = tenMapInitialBuckets ∧
            after.lastError = .ok)) := by
  simp only [tenJsonCreateObject, returns_bind, returns_tenMalloc]
  constructor
  · intro granted
    apply (tenMapCreate_spec (K := CharPtr) (V := JsonNode D) .string .pointer
      (by decide) (by decide)).mono
    intro entries between mapPost
    obtain ⟨mapRequests, mapPost⟩ := mapPost
    apply (tenListCreate_spec (α := TenString) .pointer (by decide)).mono
    intro keyOrder after listPost
    obtain ⟨listRequests, listPost⟩ := listPost
    have requests : world.requests ≤ after.requests := by
      have := mapRequests.trans listRequests
      simp only [World.granted_requests] at this
      omega
    rcases mapPost with ⟨rfl, shortage, -⟩ | ⟨map, rfl, mapValid, empty, keyType, -, buckets, -⟩
    · simp only [returns_pure]
      exact ⟨requests, .inl ⟨trivial, shortage⟩⟩
    rcases listPost with ⟨rfl, shortage, -⟩ | ⟨list, rfl, noItems, -⟩
    · simp only [returns_pure]
      exact ⟨requests, .inl ⟨trivial, shortage⟩⟩
    simp only [returns_bind, returns_tenSetError, returns_pure]
    refine ⟨requests, .inr ⟨_, rfl, ?_, ?_, noItems, buckets, trivial⟩⟩
    · constructor
      · exact mapValid
      · exact keyType
      · intro key member
        change key ∈ list.items at member
        rw [noItems] at member
        cases member
      · change (map.entries.map MapEntry.key).Perm (list.items.map TenString.pointer)
        rw [empty, noItems]
        exact List.Perm.refl _
    · change list.items.filterMap _ = []
      rw [noItems]
      rfl
  · intro refused
    rw [returns_pure]
    exact ⟨Nat.le_succ _, .inl ⟨rfl, not_ample_of_refused refused⟩⟩

end Create

end Dotten
