/-
Module: Dotten.Json.TenJsonObjectRuns
Layer: Json
Purpose: Sequences of insertions into a JSON object, from the API and from the
  parser, refine an insertion-ordered map, whichever allocations are refused, as
  long as the values that they replace are destroyed without reading freed keys.
Imports: Dotten.Json.JsonLayout, Dotten.Containers.TenStringPieces
Main exports: ObjectCall, tenObjectCall, runObjectCalls, OrderedMapStep,
  OrderedMapRun, ObjectState, tenObjectCall_refines, runObjectCalls_refines,
  tenJsonObject_refines_iff_releasable, not_tenJsonObject_refines_collision
-/
import Dotten.Json.JsonLayout
import Dotten.Containers.TenStringPieces

namespace Dotten

open Dotten.Library

/-- A way to set a member of an object. -/
inductive ObjectCall (V : Type) where
  /-- `ten_json_object_set`; `none` is a NULL argument. -/
  | set (key : Option CString) (value : Option V)
  /-- The parser: it builds the key from an empty string by appending
  `pieces`, makes `others` more requests for the value, and hands both over. -/
  | setParsed (pieces : List CString) (others : Nat) (value : V)

section Runs

variable {D : Type}

/-- Allocations that other objects make. -/
def otherRequests : Nat → Ten Unit
  | 0 => return ()
  | count + 1 => do
      let _ ← tenMalloc
      otherRequests count

/-- One call on a value.  The parser gives up, with reply `none`, when the key
string itself is refused. -/
def tenObjectCall (json : JsonNode D) :
    ObjectCall (JsonNode D) → Ten (Option TenErrorCode × JsonNode D)
  | .set key value => do
      let (rc, json) ← tenJsonObjectSet json key value
      return (some rc, json)
  | .setParsed pieces others value => do
      let some empty ← tenStringEmpty
        | return (none, json)
      let key ← appendPieces empty pieces
      otherRequests others
      match json with
      | .object object =>
          let (rc, object) ← tenJsonObjectSetOwned object key value
          return (some rc, .object object)
      | _ => return (none, json)

/-- A sequence of calls. -/
def runObjectCalls (json : JsonNode D) :
    List (ObjectCall (JsonNode D)) → Ten (List (Option TenErrorCode) × JsonNode D)
  | [] => return ([], json)
  | call :: calls => do
      let (reply, json) ← tenObjectCall json call
      let (replies, json) ← runObjectCalls json calls
      return (reply :: replies, json)

end Runs

section AbstractMap

variable {V : Type}

/-- The ordered map after a key is given a value: in place when it is there,
at the end otherwise. -/
abbrev setMember (key : CString) (value : V) (members : List (CString × V)) :
    List (CString × V) :=
  OrderedMap.insert (fun key : CString => key) key value members

/-- The value of a key. -/
abbrev valueOf (key : CString) (members : List (CString × V)) : Option V :=
  OrderedMap.lookup (fun key : CString => key) key members

/-- One call on an insertion-ordered map, and the value that it replaces.  `shortage`
says whether memory may be refused; the parser's key loses the pieces whose append was
refused. -/
inductive OrderedMapStep (shortage : Prop) : List (CString × V) → ObjectCall V →
    Option TenErrorCode → List (CString × V) → Option V → Prop where
  | set (members : List (CString × V)) (key : CString) (value : V) :
      OrderedMapStep shortage members (.set (some key) (some value)) (some .ok)
        (setMember key value members) (valueOf key members)
  | setRefused (members : List (CString × V)) (key : CString) (value : V)
      (refused : shortage) :
      OrderedMapStep shortage members (.set (some key) (some value)) (some .outOfMemory) members
        none
  | setNull (members : List (CString × V)) (key : Option CString) (value : Option V)
      (null : key = none ∨ value = none) :
      OrderedMapStep shortage members (.set key value) (some .nullArgument) members none
  | parsed (members : List (CString × V)) {pieces kept : List CString} (others : Nat) (value : V)
      (sublist : kept.Sublist pieces) (complete : ¬ shortage → kept = pieces) :
      OrderedMapStep shortage members (.setParsed pieces others value) (some .ok)
        (setMember (CString.concat kept) value members) (valueOf (CString.concat kept) members)
  | parsedRefused (members : List (CString × V)) (pieces : List CString) (others : Nat)
      (value : V) {reply : Option TenErrorCode} (failed : reply ≠ some .ok)
      (refused : shortage) :
      OrderedMapStep shortage members (.setParsed pieces others value) reply members none

/-- A sequence of calls on an ordered map, and the values that they replace. -/
inductive OrderedMapRun (shortage : Prop) : List (CString × V) → List (ObjectCall V) →
    List (Option TenErrorCode) → List (CString × V) → List V → Prop where
  | nil (members : List (CString × V)) : OrderedMapRun shortage members [] [] members []
  | cons {before between after : List (CString × V)} {call : ObjectCall V}
      {calls : List (ObjectCall V)} {reply : Option TenErrorCode}
      {replies : List (Option TenErrorCode)} {replaced : Option V} {later : List V}
      (step : OrderedMapStep shortage before call reply between replaced)
      (run : OrderedMapRun shortage between calls replies after later) :
      OrderedMapRun shortage before (call :: calls) (reply :: replies) after
        (replaced.toList ++ later)

end AbstractMap

section Refinement

variable {D : Type} {grants : Schedule} {world : World}

/-- What a caller sees of an object, whatever the allocator does. -/
structure ObjectReads (json : JsonNode D) (members : List (CString × JsonNode D)) : Prop where
  count : ∀ grants world, Returns (tenJsonObjectCount (some json)) grants world
    (fun count _ => count = members.length)
  keyAt : ∀ index grants world, Returns (tenJsonObjectKeyAt (some json) index) grants world
    (fun key _ => key = members[index]?.map Prod.fst)
  get : ∀ key grants world, Returns (tenJsonObjectGet (some json) (some key)) grants world
    (fun value _ => value = valueOf key.cstr members)

/-- A value is an object in good order with the given contents: both
containers hold the same strings, each of them a block of its own and no two
with the same bytes, and the getters read the contents. -/
structure ObjectState (json : JsonNode D) (members : List (CString × JsonNode D))
    (world : World) : Prop where
  object : ∃ object : JsonObject (JsonNode D), json = .object object ∧ object.Valid ∧
    object.Owned world.requests ∧ (object.keyOrder.items.map TenString.cstr).Nodup ∧
    object.members = members
  reads : ObjectReads json members

/-- The getters of a valid object. -/
theorem JsonObject.Valid.reads {object : JsonObject (JsonNode D)} (valid : object.Valid) :
    ObjectReads (.object object) object.members := by
  have keys := valid.map_fst_members
  have sameLength : object.members.length = object.keyOrder.items.length := by
    rw [← List.length_map Prod.fst, keys, List.length_map]
  constructor
  · intro grants world
    simp only [tenJsonObjectCount, tenMapCount, returns_bind, returns_tenSetError, returns_pure]
    rw [valid.entries.counted, sameLength, ← List.length_map MapEntry.key, valid.keys.length_eq,
      List.length_map]
  · intro index grants world
    rw [← List.getElem?_map, keys, List.getElem?_map]
    simp only [tenJsonObjectKeyAt, tenListGet]
    cases object.keyOrder.items[index]? with
    | none => simp only [returns_bind, returns_tenSetError, returns_pure, Option.map_none]
    | some key => simp only [returns_bind, returns_tenSetError, returns_pure, Option.map_some]
  · intro key grants world
    simp only [tenJsonObjectGet, returns_bind]
    apply (tenMapGet_eq_find object.entries key).mono
    intro value after got
    obtain ⟨rfl, -⟩ := got
    unfold valueOf
    rw [← valid.find_map_value key]
    cases tenMapFind object.entries key with
    | none => simp only [Option.map_none, returns_pure]
    | some entry => simp only [Option.map_some, returns_bind, returns_tenSetError, returns_pure]

theorem JsonObject.Valid.state {object : JsonObject (JsonNode D)} (valid : object.Valid)
    (owned : object.Owned world.requests) :
    ObjectState (.object object) object.members world :=
  ⟨⟨object, rfl, valid, owned, valid.distinct, rfl⟩, valid.reads⟩

/-- Building a string by appends keeps some of the pieces, and all of them when
nothing is refused; the block stays above the addresses in use before. -/
theorem appendPieces_spec (pieces : List CString) :
    ∀ {string : TenString} {world : World} {floor : Nat}, string.Valid →
      floor ≤ string.addr → string.addr < world.requests → floor ≤ world.requests →
      Returns (appendPieces string pieces) grants world (fun after last =>
        world.requests ≤ last.requests ∧ after.Valid ∧ floor ≤ after.addr ∧
          after.addr < last.requests ∧ ∃ kept : List CString, kept.Sublist pieces ∧
            (Ample grants → kept = pieces) ∧
            after.cstr = string.cstr.append (CString.concat kept)) := by
  induction pieces with
  | nil =>
      intro string world floor valid above below _
      rw [appendPieces, returns_pure]
      refine ⟨Nat.le_refl _, valid, above, below, [], List.Sublist.refl _, fun _ => rfl, ?_⟩
      simp
  | cons piece pieces inductionHypothesis =>
      intro string world floor valid above below floorBelow
      rw [appendPieces, returns_bind]
      apply (tenStringAppend_spec valid piece).mono
      intro reply after post
      obtain ⟨rc, next⟩ := reply
      obtain ⟨requests, -, placed, outcome⟩ := post
      have above' : floor ≤ next.addr := by
        rcases placed with same | moved
        · rw [same]
          exact above
        · exact floorBelow.trans moved.1
      have below' : next.addr < after.requests := by
        rcases placed with same | moved
        · rw [same]
          exact Nat.lt_of_lt_of_le below requests
        · exact moved.2
      have nextValid : next.Valid := by
        cases outcome with
        | appended nextValid _ => exact nextValid
        | refused _ => exact valid
      apply (inductionHypothesis nextValid above' below' (floorBelow.trans requests)).mono
      intro last final post
      obtain ⟨later, lastValid, lastAbove, lastBelow, kept, sublist, complete, cstr⟩ := post
      refine ⟨requests.trans later, lastValid, lastAbove, lastBelow, ?_⟩
      cases outcome with
      | appended _ appended =>
          refine ⟨piece :: kept, sublist.cons_cons piece, ?_, ?_⟩
          · intro ample
            rw [complete ample]
          · rw [cstr, appended, CString.concat_cons, CString.append_assoc]
      | refused shortage =>
          exact ⟨kept, sublist.cons piece, fun ample => absurd ample shortage, cstr⟩

theorem keeps_appendPieces (pieces : List CString) :
    ∀ string : TenString, Keeps World.strayReads (appendPieces string pieces) := by
  induction pieces with
  | nil => exact fun string => .pure string
  | cons piece pieces inductionHypothesis =>
      exact fun string => (keeps_tenStringAppend string piece).bind fun reply =>
        inductionHypothesis reply.2

theorem keeps_otherRequests (count : Nat) : Keeps World.strayReads (otherRequests count) := by
  induction count with
  | zero => exact .pure ()
  | succ count inductionHypothesis => exact keeps_tenMalloc.bind fun _ => inductionHypothesis

theorem otherRequests_spec (count : Nat) :
    ∀ {world : World}, Returns (otherRequests count) grants world
      (fun _ after => world.requests ≤ after.requests) := by
  induction count with
  | zero =>
      intro world
      rw [otherRequests, returns_pure]
  | succ count inductionHypothesis =>
      intro world
      simp only [otherRequests, returns_bind, returns_tenMalloc]
      constructor
      · intro _
        apply inductionHypothesis.mono
        intro _ after requests
        exact (Nat.le_succ _).trans requests
      · intro _
        apply inductionHypothesis.mono
        intro _ after requests
        exact (Nat.le_succ _).trans requests

theorem JsonObject.Owned.mono {V : Type} {object : JsonObject V} {fewer more : Nat}
    (owned : object.Owned fewer) (le : fewer ≤ more) : object.Owned more :=
  ⟨fun key member => Nat.lt_of_lt_of_le (owned.allocated key member) le, owned.distinct⟩

/-- Addresses from a later request are not those of the object's keys. -/
theorem JsonObject.Owned.fresh {V : Type} {object : JsonObject V} {requests addr : Nat}
    (owned : object.Owned requests) (later : requests ≤ addr) :
    addr ∉ object.keyOrder.items.map TenString.addr := by
  intro listed
  obtain ⟨key, member, rfl⟩ := List.mem_map.mp listed
  have := owned.allocated key member
  omega

/-- The value that a set replaces is the one that the map holds under the key. -/
theorem JsonObject.Valid.replacesCleanly_iff_valueOf {object : JsonObject (JsonNode D)}
    (valid : object.Valid) (key : CharPtr) :
    object.ReplacesCleanly key ↔ ∀ value ∈ valueOf key.cstr object.members, value.Releasable := by
  have read : valueOf key.cstr object.members =
      (tenMapFind object.entries key).map MapEntry.value := (valid.find_map_value key).symm
  unfold JsonObject.ReplacesCleanly
  rw [read]
  simp

/-- One call of the code as a step of the ordered map: it reads no freed string exactly
when the value that the step replaces can be destroyed without that. -/
def StepsAs (grants : Schedule) (world : World) (members : List (CString × JsonNode D))
    (call : ObjectCall (JsonNode D)) (reply : Option TenErrorCode × JsonNode D) (after : World) :
    Prop :=
  ∃ members' replaced, ObjectState reply.2 members' after ∧
    OrderedMapStep (¬ Ample grants) members call reply.1 members' replaced ∧
    world.CleanIff after (∀ value ∈ replaced, value.Releasable)

/-- A step that changes nothing. -/
theorem stepsAs_unchanged {object : JsonObject (JsonNode D)} {call : ObjectCall (JsonNode D)}
    {reply : Option TenErrorCode} {after : World} (valid : object.Valid)
    (owned : object.Owned after.requests) (unread : after.strayReads = world.strayReads)
    (step : OrderedMapStep (¬ Ample grants) object.members call reply object.members none) :
    StepsAs grants world object.members call (reply, .object object) after :=
  ⟨_, none, valid.state owned, step, (World.CleanIff.of_eq unread).congr (by simp)⟩

/-- The last part of a call, which hands a key over. -/
theorem stepsAs_of_set {object object' : JsonObject (JsonNode D)} {key : TenString}
    {value : JsonNode D} {rc : TenErrorCode} {between after : World}
    {call : ObjectCall (JsonNode D)} (valid : object.Valid)
    (owned : object.Owned between.requests) (allocated : key.addr < between.requests)
    (fresh : key.addr ∉ object.keyOrder.items.map TenString.addr)
    (unread : between.strayReads = world.strayReads)
    (post : ObjectSetPost grants between object key value (rc, object') after)
    (done : OrderedMapStep (¬ Ample grants) object.members call (some .ok)
      (setMember key.cstr value object.members) (valueOf key.cstr object.members))
    (refused : ¬ Ample grants →
      OrderedMapStep (¬ Ample grants) object.members call (some .outOfMemory) object.members none) :
    StepsAs grants world object.members call (some rc, .object object') after := by
  have stillOwned := post.owned owned allocated fresh
  have state := post.valid.state stillOwned
  have stopped := post.unread
  cases post.outcome with
  | done members =>
      rw [members] at state
      exact ⟨_, _, state, done,
        (post.reads.congr (valid.replacesCleanly_iff_valueOf key.pointer)).preceded unread⟩
  | refused members shortage =>
      rw [members] at state
      have same := (stopped (by simp)).trans unread
      exact ⟨_, none, state, refused shortage, (World.CleanIff.of_eq same).congr (by simp)⟩

theorem setCall_ordered {json : JsonNode D} {members : List (CString × JsonNode D)}
    (state : ObjectState json members world) (key : Option CString) (value : Option (JsonNode D)) :
    Returns (tenObjectCall json (.set key value)) grants world
      (StepsAs grants world members (.set key value)) := by
  obtain ⟨object, rfl, valid, owned, -, rfl⟩ := state.object
  rcases key with _ | key
  · simp only [tenObjectCall, tenJsonObjectSet, returns_bind, returns_tenSetError,
      returns_pure]
    exact stepsAs_unchanged valid owned rfl (.setNull _ none value (.inl rfl))
  rcases value with _ | value
  · simp only [tenObjectCall, tenJsonObjectSet, returns_bind, returns_tenSetError,
      returns_pure]
    exact stepsAs_unchanged valid owned rfl (.setNull _ _ none (.inr rfl))
  simp only [tenObjectCall, tenJsonObjectSet, returns_bind]
  apply ((keeps_tenStringCreate _).returns (tenStringCreate_spec key)).mono
  rintro reply between ⟨⟨requests, created⟩, unread⟩
  obtain ⟨rfl, shortage, -⟩ | ⟨copy, rfl, copyValid, rfl, above, below, -⟩ := created
  · simp only [returns_pure]
    exact stepsAs_unchanged valid (owned.mono requests) unread (.setRefused _ key value shortage)
  simp only [returns_bind]
  apply (tenJsonObjectSetOwned_spec valid copyValid value).mono
  rintro ⟨rc, object'⟩ after post
  simp only [returns_pure]
  exact stepsAs_of_set valid (owned.mono requests) below (owned.fresh above) unread post
    (.set _ _ value) (.setRefused _ _ value)

theorem setParsedCall_ordered {json : JsonNode D} {members : List (CString × JsonNode D)}
    (state : ObjectState json members world) (pieces : List CString) (others : Nat)
    (value : JsonNode D) :
    Returns (tenObjectCall json (.setParsed pieces others value)) grants world
      (StepsAs grants world members (.setParsed pieces others value)) := by
  obtain ⟨object, rfl, valid, owned, -, rfl⟩ := state.object
  simp only [tenObjectCall, returns_bind]
  apply (keeps_tenStringEmpty.returns tenStringEmpty_spec).mono
  rintro reply between ⟨⟨requests, created⟩, unread⟩
  obtain ⟨rfl, shortage, -⟩ | ⟨empty, rfl, emptyValid, isEmpty, above, below, -⟩ := created
  · simp only [returns_pure]
    exact stepsAs_unchanged valid (owned.mono requests) unread
      (.parsedRefused _ pieces others value (by decide) shortage)
  simp only [returns_bind]
  apply ((keeps_appendPieces pieces empty).returns
    (appendPieces_spec pieces emptyValid above below requests)).mono
  rintro key built ⟨post, unreadKey⟩
  obtain ⟨later, keyValid, keyAbove, keyBelow, kept, sublist, complete, content⟩ := post
  rw [isEmpty, CString.default_append] at content
  apply ((keeps_otherRequests others).returns (otherRequests_spec others)).mono
  rintro _ ready ⟨latest, unreadOthers⟩
  apply (tenJsonObjectSetOwned_spec valid keyValid value).mono
  rintro ⟨rc, object'⟩ after post
  simp only [returns_pure]
  have done : OrderedMapStep (¬ Ample grants) object.members (.setParsed pieces others value)
      (some .ok) (setMember key.cstr value object.members) (valueOf key.cstr object.members) := by
    rw [content]
    exact .parsed _ others value sublist fun enough => complete (Classical.not_not.mp enough)
  exact stepsAs_of_set valid (owned.mono ((requests.trans later).trans latest))
    (Nat.lt_of_lt_of_le keyBelow latest) (owned.fresh keyAbove)
    (unreadOthers.trans (unreadKey.trans unread)) post done
    (.parsedRefused _ pieces others value (by decide))

/-- One call of the code is one step of the ordered map. -/
theorem tenObjectCall_refines {json : JsonNode D} {members : List (CString × JsonNode D)}
    (state : ObjectState json members world) (call : ObjectCall (JsonNode D)) :
    Returns (tenObjectCall json call) grants world (StepsAs grants world members call) := by
  cases call with
  | set key value => exact setCall_ordered state key value
  | setParsed pieces others value => exact setParsedCall_ordered state pieces others value

/-- Every sequence of calls of the code is a run of the ordered map. -/
theorem runObjectCalls_refines (calls : List (ObjectCall (JsonNode D))) :
    ∀ {json : JsonNode D} {members : List (CString × JsonNode D)} {world : World},
      ObjectState json members world →
      Returns (runObjectCalls json calls) grants world (fun reply after =>
        ∃ members' replaced, ObjectState reply.2 members' after ∧
          OrderedMapRun (¬ Ample grants) members calls reply.1 members' replaced ∧
          world.CleanIff after (∀ value ∈ replaced, value.Releasable)) := by
  induction calls with
  | nil =>
      intro json members world state
      rw [runObjectCalls, returns_pure]
      exact ⟨members, [], state, .nil members, (World.CleanIff.of_eq rfl).congr (by simp)⟩
  | cons call calls inductionHypothesis =>
      intro json members world state
      simp only [runObjectCalls, returns_bind]
      apply (tenObjectCall_refines state call).mono
      rintro ⟨first, json'⟩ between ⟨members', replaced, state', step, read⟩
      apply (inductionHypothesis state').mono
      rintro ⟨replies, last⟩ after ⟨members'', later, lastState, run, readLater⟩
      rw [returns_pure]
      refine ⟨members'', _, lastState, .cons step run, (read.trans readLater).congr ?_⟩
      rw [List.forall_mem_append]
      simp

/-- A fresh object and insertions into it: the object is in good order after them, its
contents are those of an insertion-ordered map that was empty at the start, and no freed
string has been read. -/
def RefinesOrderedMap (calls : List (ObjectCall (JsonNode D))) (grants : Schedule)
    (world : World) : Prop :=
  Returns (tenJsonCreateObject (D := D)) grants world (fun created after =>
    (created = none ∧ ¬ Ample grants) ∨
      ∃ json, created = some json ∧
        Returns (runObjectCalls json calls) grants after (fun reply last =>
          last.strayReads = after.strayReads ∧ ∃ members replaced,
            ObjectState reply.2 members last ∧
            OrderedMapRun (¬ Ample grants) [] calls reply.1 members replaced))

/-- A fresh object and any insertions into it, from the API and from the
parser, whichever allocations are refused at whichever call: after every
sequence the object is in good order, and its contents are those of an
insertion-ordered map that was empty at the start; and no freed string has been read
exactly when each value that was replaced can be destroyed without that. -/
theorem tenJsonObject_refines_iff_releasable (grants : Schedule) (world : World)
    (calls : List (ObjectCall (JsonNode D))) :
    Returns (tenJsonCreateObject (D := D)) grants world (fun created after =>
      (created = none ∧ ¬ Ample grants) ∨
        ∃ json, created = some json ∧
          Returns (runObjectCalls json calls) grants after (fun reply last =>
            ∃ members replaced, ObjectState reply.2 members last ∧
              OrderedMapRun (¬ Ample grants) [] calls reply.1 members replaced ∧
              (last.strayReads = after.strayReads ↔ ∀ value ∈ replaced, value.Releasable))) := by
  apply tenJsonCreateObject_spec.mono
  intro created after post
  rcases post.2 with refused | ⟨object, rfl, valid, noMembers, noKeys, -⟩
  · exact .inl refused
  · refine .inr ⟨_, rfl, ?_⟩
    have owned : object.Owned after.requests := by
      constructor
      · rw [noKeys]
        intro key member
        cases member
      · rw [noKeys]
        exact List.nodup_nil
    have state := valid.state owned
    rw [noMembers] at state
    apply (runObjectCalls_refines calls state).mono
    rintro reply last ⟨members, replaced, lastState, run, read⟩
    exact ⟨members, replaced, lastState, run, read.iff⟩

end Refinement

section Collision

/-- A fresh object after some calls. -/
def objectAfter (calls : List (ObjectCall (JsonNode Int))) :
    Ten (List (Option TenErrorCode) × JsonNode Int) := do
  let some json ← tenJsonCreateObject
    | stuck
  runObjectCalls json calls

/-- Null under each of thirteen keys, of which two have the same hash. -/
def collidingCalls : List (ObjectCall (JsonNode Int)) :=
  collidingKeys.map fun key => .set (some (CString.ofMemory (key ++ [0]))) (some .null)

/-- The object that these calls make. -/
def collidingObject : JsonNode Int :=
  (objectAfter collidingCalls (fun _ => true) ⟨0, .ok, 0⟩).elim .null fun outcome => outcome.1.2

/-- The object is set under a key, and then replaced by null. -/
def collision : List (ObjectCall (JsonNode Int)) :=
  [.set (some ⟨[ascii 'r'], by decide⟩) (some collidingObject),
    .set (some ⟨[ascii 'r'], by decide⟩) (some .null)]

/-- When the object is destroyed, the lookup of its second key compares it with the
first, which has been freed. -/
theorem not_tenJsonObject_refines_collision :
    (objectAfter collidingCalls (fun _ => true) ⟨0, .ok, 0⟩).map (fun outcome => outcome.1.1) =
        some (List.replicate 13 (some .ok)) ∧
      ¬ RefinesOrderedMap collision (fun _ => true) ⟨0, .ok, 0⟩ := by
  refine ⟨by decide +kernel, ?_⟩
  rintro ⟨created, after, run, ⟨-, shortage⟩ | ⟨json, rfl, reply, last, runCalls, unread, -⟩⟩
  · exact shortage ample_always
  have start : (tenJsonCreateObject (D := Int) (fun _ => true) ⟨0, .ok, 0⟩).map
      (fun outcome => outcome.2.strayReads) = some 0 := rfl
  have stray : (objectAfter collision (fun _ => true) ⟨0, .ok, 0⟩).map
      (fun outcome => outcome.2.strayReads) = some 1 := by
    decide +kernel
  have whole : objectAfter collision (fun _ => true) ⟨0, .ok, 0⟩ = some (reply, last) :=
    run_bind_iff.mpr ⟨_, _, run, runCalls⟩
  rw [run, Option.map_some, Option.some.injEq] at start
  rw [whole, Option.map_some, Option.some.injEq, unread, start] at stray
  cases stray

end Collision

end Dotten
