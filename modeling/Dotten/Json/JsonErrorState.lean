/-
Module: Dotten.Json.JsonErrorState
Layer: Json
Purpose: What `ten_last_error` says after a call of json.h that has failed, and
  the schedules under which it says something else than why the call failed.
Imports: Dotten.Json.JsonRelease
Main exports: Granted, Asks, JsonCall, JsonCall.perform, ReportsFailure, Misreports,
  tenJsonCreateObject_reported, tenJsonObjectSetOwned_reported, perform_reported,
  tenJsonCalls_report_iff, not_reportsFailure_object
-/
import Dotten.Json.JsonRelease

namespace Dotten

open Dotten.Library

section Requests

variable {grants : Schedule} {world : World} {α : Type}

/-- The requests from one number on are granted, `n` of them. -/
def Granted (grants : Schedule) (first n : Nat) : Prop :=
  ∀ k < n, grants (first + k) = true

/-- The outcome of a step that makes `n` requests, succeeds when they are all
granted and otherwise fails for the lack of memory. -/
inductive Asks (grants : Schedule) (world : World) (n : Nat) (succeeds fails : Prop)
    (after : World) : Prop where
  | granted (all : Granted grants world.requests n) (holds : succeeds)
      (requests : after.requests = world.requests + n) (lastError : after.lastError = .ok) :
      Asks grants world n succeeds fails after
  | refused (lacks : ¬ Granted grants world.requests n) (holds : fails)
      (lastError : after.lastError = .outOfMemory) : Asks grants world n succeeds fails after

theorem granted_zero (first : Nat) : Granted grants first 0 :=
  fun k below => absurd below (Nat.not_lt_zero k)

theorem granted_add_iff (first n m : Nat) :
    Granted grants first (n + m) ↔ Granted grants first n ∧ Granted grants (first + n) m := by
  constructor
  · intro all
    refine ⟨fun k below => all k (by omega), fun k below => ?_⟩
    rw [Nat.add_assoc]
    exact all (n + k) (by omega)
  · rintro ⟨early, late⟩ k below
    by_cases first : k < n
    · exact early k first
    · have here := late (k - n) (by omega)
      rw [Nat.add_assoc, Nat.add_sub_cancel' (Nat.le_of_not_lt first)] at here
      exact here

theorem granted_one_iff (first : Nat) : Granted grants first 1 ↔ grants first = true := by
  constructor
  · intro all
    exact all 0 Nat.one_pos
  · intro here k below
    obtain rfl : k = 0 := by omega
    exact here

theorem granted_two_iff (first : Nat) :
    Granted grants first 2 ↔ grants first = true ∧ grants (first + 1) = true := by
  rw [granted_add_iff first 1 1, granted_one_iff, granted_one_iff]

/-- A step behind one that has succeeded. -/
theorem Asks.behind {between after : World} {n m : Nat} {succeeds fails : Prop}
    (all : Granted grants world.requests n) (requests : between.requests = world.requests + n)
    (asks : Asks grants between m succeeds fails after) :
    Asks grants world (n + m) succeeds fails after := by
  cases asks with
  | granted late holds laterRequests lastError =>
      rw [requests] at late laterRequests
      refine .granted ((granted_add_iff _ n m).mpr ⟨all, late⟩) holds ?_ lastError
      rw [laterRequests, Nat.add_assoc]
  | refused lacks holds lastError =>
      rw [requests] at lacks
      exact .refused (fun whole => lacks ((granted_add_iff _ n m).mp whole).2) holds lastError

/-- A step that is not reached. -/
theorem Asks.before {after : World} {n : Nat} (m : Nat) {succeeds fails : Prop}
    (lacks : ¬ Granted grants world.requests n) (holds : fails)
    (lastError : after.lastError = .outOfMemory) :
    Asks grants world (n + m) succeeds fails after :=
  .refused (fun whole => lacks ((granted_add_iff _ n m).mp whole).1) holds lastError

theorem tenMalloc_asks :
    Returns tenMalloc grants world (fun reply after =>
      Asks grants world 1 (reply = some world.requests) (reply = none) after) := by
  rw [returns_tenMalloc]
  constructor
  · intro granted
    exact .granted ((granted_one_iff _).mpr granted) rfl rfl rfl
  · intro refused
    refine .refused ?_ rfl rfl
    rw [granted_one_iff, refused]
    simp

theorem tenListCreate_asks (type : TenType) (accepted : type ≠ .void) :
    Returns (tenListCreate (α := α) type) grants world (fun reply after =>
      Asks grants world 1 (∃ list, reply = some list) (reply = none) after) := by
  have stored : ¬ tenTypeSize type = 0 := by
    rw [tenTypeSize_eq_zero_iff]
    exact accepted
  simp only [tenListCreate, if_neg stored, returns_bind]
  apply tenMalloc_asks.mono
  intro _ after asks
  cases asks with
  | refused lacks null lastError =>
      subst null
      simp only [returns_pure]
      exact .refused lacks trivial lastError
  | granted all address requests _ =>
      subst address
      simp only [returns_bind, returns_tenSetError, returns_pure]
      exact .granted all ⟨_, rfl⟩ requests rfl

/-- `ten_map_create`: the table of the map is the second request, which is made when
the first has been granted. -/
theorem tenMapCreate_asks {K V : Type} (keyType valueType : TenType)
    (keyAccepted : keyType ≠ .void) (valueAccepted : valueType ≠ .void) :
    Returns (tenMapCreate (K := K) (V := V) keyType valueType) grants world (fun reply after =>
      Asks grants world 2 (∃ map, reply = some map) (reply = none) after ∧
        after.requests = world.requests + if grants world.requests then 2 else 1) := by
  have stored : ¬ (tenTypeSize keyType = 0 ∨ tenTypeSize valueType = 0) := by
    rw [tenTypeSize_eq_zero_iff, tenTypeSize_eq_zero_iff]
    exact not_or.mpr ⟨keyAccepted, valueAccepted⟩
  simp only [tenMapCreate, if_neg stored, returns_bind]
  rw [returns_tenMalloc]
  constructor
  · intro granted
    have all : Granted grants world.requests 1 := (granted_one_iff _).mpr granted
    rw [if_pos granted]
    simp only [returns_bind, returns_tenCalloc]
    rw [returns_tenMalloc]
    constructor
    · intro grantedTable
      simp only [returns_bind, returns_tenSetError, returns_pure]
      exact ⟨.granted ((granted_two_iff _).mpr ⟨granted, grantedTable⟩) ⟨_, rfl⟩ rfl rfl, rfl⟩
    · intro refused
      rw [returns_pure]
      refine ⟨.refused ?_ rfl rfl, rfl⟩
      rw [granted_two_iff]
      rintro ⟨-, grantedTable⟩
      exact absurd grantedTable (Bool.eq_false_iff.mp refused)
  · intro refused
    rw [returns_pure, refused]
    refine ⟨.refused ?_ rfl rfl, rfl⟩
    rw [granted_two_iff, refused]
    rintro ⟨granted, -⟩
    cases granted

/-- `ten_string_create`: the block of the string is the second request. -/
theorem tenStringCreate_asks (text : CString) :
    Returns (tenStringCreate (some text)) grants world (fun reply after =>
      Asks grants world 2
        (∃ string, reply = some string ∧
          string.pointer = { addr := world.requests + 1, cstr := text })
        (reply = none) after) := by
  simp only [tenStringCreate, tenStringAlloc, returns_bind]
  apply tenMalloc_asks.mono
  intro _ between asks
  cases asks with
  | refused lacks null lastError =>
      subst null
      simp only [returns_pure]
      exact .before 1 lacks trivial lastError
  | granted all address requests _ =>
      subst address
      simp only [returns_bind]
      apply tenMalloc_asks.mono
      intro _ after asksData
      cases asksData with
      | refused lacks null lastError =>
          subst null
          simp only [returns_pure]
          exact .behind all requests (.refused lacks trivial lastError)
      | granted allData address requestsData _ =>
          subst address
          simp only [returns_pure, returns_bind, returns_tenSetError]
          refine Asks.behind (m := 1) all requests ?_
          refine .granted allData ⟨_, rfl, ?_⟩ requestsData rfl
          rw [TenString.pointer, TenString.cstr, requests]
          exact congrArg (CharPtr.mk _) (CString.ofMemory_append_nul text [])

/-- The requests that an append to a list makes. -/
def listRequests (list : TenList α) : Nat :=
  if list.items.length + 1 ≤ list.capacity then 0 else 1

theorem tenListAdd_asks (list : TenList α) (value : α) :
    Returns (tenListAdd list value) grants world (fun reply after =>
      Asks grants world (listRequests list) (reply.1 = .ok) (reply.1 = .outOfMemory) after) := by
  unfold tenListAdd tenListInsert
  simp only [gt_iff_lt, Nat.lt_irrefl, if_false, returns_bind]
  unfold tenListGrow listRequests
  by_cases roomy : list.items.length + 1 ≤ list.capacity
  · rw [if_pos roomy, if_pos roomy]
    simp only [returns_pure, ne_eq, not_true_eq_false, if_false, returns_bind,
      returns_tenSetError]
    exact .granted (granted_zero _) trivial rfl rfl
  · rw [if_neg roomy, if_neg roomy]
    simp only [returns_bind, returns_tenRealloc]
    apply tenMalloc_asks.mono
    intro _ after asks
    cases asks with
    | refused lacks null lastError =>
        subst null
        simp only [returns_pure, ne_eq, reduceCtorEq, not_false_eq_true, if_true, returns_bind,
          returns_tenSetError]
        exact .refused lacks trivial rfl
    | granted all address requests _ =>
        subst address
        simp only [returns_pure, ne_eq, not_true_eq_false, if_false, returns_bind,
          returns_tenSetError]
        exact .granted all trivial requests rfl

variable {K V : Type} [KeyCell K]

theorem tenMapSetNew_asks (map : TenMap K V) (key : K) (value : V) :
    Returns (tenMapSetNew map key value) grants world (fun reply after =>
      Asks grants world 3 (reply.1 = .ok) (reply.1 = .outOfMemory) after) := by
  simp only [tenMapSetNew, returns_bind]
  apply tenMalloc_asks.mono
  intro _ first asks
  cases asks with
  | refused lacks null lastError =>
      subst null
      simp only [returns_pure]
      exact .before 2 lacks trivial lastError
  | granted all address requests _ =>
      subst address
      simp only [returns_bind]
      apply tenMalloc_asks.mono
      intro _ second asksKey
      cases asksKey with
      | refused lacks null lastError =>
          subst null
          simp only [returns_pure]
          exact .behind all requests (.before 1 lacks trivial lastError)
      | granted allKey address requestsKey _ =>
          subst address
          simp only [returns_bind]
          apply tenMalloc_asks.mono
          intro _ third asksValue
          cases asksValue with
          | refused lacks null lastError =>
              subst null
              simp only [returns_pure]
              exact .behind all requests (.behind allKey requestsKey
                (.refused lacks trivial lastError))
          | granted allValue address requestsValue _ =>
              subst address
              simp only [returns_pure, returns_bind, returns_tenSetError]
              refine Asks.behind (m := 2) all requests (Asks.behind (m := 1) allKey requestsKey ?_)
              exact .granted allValue trivial requestsValue rfl

/-- The requests that entering a new key into a map makes: a larger table, when the
old one is three quarters full, and an entry with its key and its value. -/
def mapRequests (map : TenMap K V) : Nat :=
  if map.count + 1 > map.bucketCount * 3 / 4 then 4 else 3

theorem tenMapSet_asks {map : TenMap K V} {key : K} (absent : tenMapFind map key = none)
    (value : V) :
    Returns (tenMapSet map (some key) (some value)) grants world (fun reply after =>
      Asks grants world (mapRequests map) (reply.1 = .ok) (reply.1 = .outOfMemory) after) := by
  simp only [tenMapSet, absent]
  unfold mapRequests
  by_cases full : map.count + 1 > map.bucketCount * 3 / 4
  · rw [if_pos full, if_pos full]
    simp only [tenMapRehash, returns_bind, returns_tenCalloc]
    apply tenMalloc_asks.mono
    intro _ between asks
    cases asks with
    | refused lacks null lastError =>
        subst null
        simp only [returns_pure, ne_eq, reduceCtorEq, not_false_eq_true, if_true, returns_bind,
          returns_tenSetError]
        exact .before 3 lacks trivial rfl
    | granted all address requests _ =>
        subst address
        simp only [returns_pure, ne_eq, not_true_eq_false, if_false]
        apply (tenMapSetNew_asks _ key value).mono
        intro reply after asksEntry
        exact .behind all requests asksEntry
  · rw [if_neg full, if_neg full]
    exact tenMapSetNew_asks map key value

end Requests

section Calls

variable {D : Type}

/-- A call of json.h that makes or changes a value; `none` is NULL. -/
inductive JsonCall (D : Type) where
  | createNull
  | createBool (value : Int)
  | createNumber (value : D)
  | createString (value : Option CString)
  | createArray
  | createObject
  | arrayAdd (json value : Option (JsonNode D))
  | objectSet (json : Option (JsonNode D)) (key : Option CString) (value : Option (JsonNode D))

/-- What a call returns: a new value, NULL or a code. -/
inductive JsonReply where
  | made
  | null
  | code (code : TenErrorCode)
deriving DecidableEq, Repr

/-- The reply of a function that returns a pointer to a value. -/
def JsonReply.pointer : Option (JsonNode D) → JsonReply
  | none => .null
  | some _ => .made

/-- A function that returns a code, on a value or NULL. -/
def codeOf (json : Option (JsonNode D))
    (change : JsonNode D → Ten (TenErrorCode × JsonNode D)) : Ten JsonReply :=
  match json with
  | none => do
      tenSetError .nullArgument
      return .code .nullArgument
  | some json => do
      let (code, _) ← change json
      return .code code

namespace JsonCall

/-- The call. -/
def perform : JsonCall D → Ten JsonReply
  | .createNull => JsonReply.pointer <$> tenJsonCreateNull (D := D)
  | .createBool value => JsonReply.pointer <$> tenJsonCreateBool (D := D) value
  | .createNumber value => JsonReply.pointer <$> tenJsonCreateNumber value
  | .createString value => JsonReply.pointer <$> tenJsonCreateString (D := D) value
  | .createArray => JsonReply.pointer <$> tenJsonCreateArray (D := D)
  | .createObject => JsonReply.pointer <$> tenJsonCreateObject (D := D)
  | .arrayAdd json value => codeOf json fun json => tenJsonArrayAdd json value
  | .objectSet json key value => codeOf json fun json => tenJsonObjectSet json key value

/-- The code of the failure of a call that returns NULL. -/
def cause : JsonCall D → TenErrorCode
  | .createString none => .nullArgument
  | _ => .outOfMemory

/-- When the call has failed, the error state says why. -/
def Reported (call : JsonCall D) (reply : JsonReply) (lastError : TenErrorCode) : Prop :=
  match reply with
  | .made => True
  | .null => lastError = call.cause
  | .code code => code = .ok ∨ lastError = code

end JsonCall

/-- `ten_last_error`, read right after the call, says why it has failed. -/
def ReportsFailure (call : JsonCall D) (grants : Schedule) (world : World) : Prop :=
  Returns (do
    let reply ← call.perform
    let lastError ← tenLastError
    return (reply, lastError)) grants world (fun reply _ => call.Reported reply.1 reply.2)

/-- An object is entered a key that it does not hold: the map takes the key, and the
request for room in the full key list is refused. -/
def KeyOrderRefused {V : Type} (grants : Schedule) (requests : Nat) (object : JsonObject V)
    (key : CharPtr) : Prop :=
  tenMapFind object.entries key = none ∧
    object.keyOrder.capacity < object.keyOrder.items.length + 1 ∧
    Granted grants requests (mapRequests object.entries) ∧
    grants (requests + mapRequests object.entries) = false

/-- The schedules under which a call fails and leaves another code: an object whose
map is refused and whose key list is not, and a key that leaves the map again. -/
def Misreports (grants : Schedule) (requests : Nat) : JsonCall D → Prop
  | .createObject =>
      grants requests = true ∧
        ((grants (requests + 1) = false ∧ grants (requests + 2) = true) ∨
          (grants (requests + 1) = true ∧ grants (requests + 2) = false ∧
            grants (requests + 3) = true))
  | .objectSet (some (.object object)) (some key) (some _) =>
      Granted grants requests 2 ∧
        KeyOrderRefused grants (requests + 2) object { addr := requests + 1, cstr := key }
  | _ => False

variable {grants : Schedule} {world : World}

/-- A function that returns NULL for the lack of memory only, and leaves its code. -/
theorem reported_pointer {call : JsonCall D} (cause : call.cause = .outOfMemory)
    {make : Ten (Option (JsonNode D))}
    (tells : Returns make grants world (fun json after =>
      json = none → after.lastError = .outOfMemory)) :
    Returns (JsonReply.pointer <$> make) grants world (fun reply after =>
      call.Reported reply after.lastError) := by
  rw [returns_map]
  apply tells.mono
  rintro (_ | json) after lastError
  · exact (lastError rfl).trans cause.symm
  · exact trivial

theorem tenJsonAlloc_tells (node : JsonNode D) :
    Returns (tenJsonAlloc node) grants world (fun json after =>
      json = none → after.lastError = .outOfMemory) := by
  simp only [tenJsonAlloc, returns_bind]
  apply tenMalloc_asks.mono
  intro _ after asks
  cases asks with
  | refused _ null lastError =>
      subst null
      simp only [returns_pure]
      exact fun _ => lastError
  | granted _ address _ _ =>
      subst address
      simp only [returns_pure]
      exact fun nothing => by cases nothing

/-- A value that is one block. -/
theorem tenJsonLeaf_tells (node : JsonNode D) :
    Returns (do
      let some json ← tenJsonAlloc node
        | return none
      tenSetError .ok
      return some json) grants world (fun json after =>
        json = none → after.lastError = .outOfMemory) := by
  rw [returns_bind]
  apply (tenJsonAlloc_tells node).mono
  intro json after tells
  cases json with
  | none =>
      simp only [returns_pure]
      exact fun _ => tells rfl
  | some json =>
      simp only [returns_bind, returns_tenSetError, returns_pure]
      exact fun nothing => by cases nothing

theorem tenJsonCreateString_tells (text : CString) :
    Returns (tenJsonCreateString (D := D) (some text)) grants world (fun json after =>
      json = none → after.lastError = .outOfMemory) := by
  simp only [tenJsonCreateString, returns_bind]
  apply (tenStringCreate_asks text).mono
  intro _ between asks
  cases asks with
  | refused _ null lastError =>
      subst null
      simp only [returns_pure]
      exact fun _ => lastError
  | granted _ made _ _ =>
      obtain ⟨string, rfl, -⟩ := made
      exact tenJsonLeaf_tells (.string string)

theorem tenJsonCreateArray_tells :
    Returns (tenJsonCreateArray (D := D)) grants world (fun json after =>
      json = none → after.lastError = .outOfMemory) := by
  simp only [tenJsonCreateArray, returns_bind]
  apply tenMalloc_asks.mono
  intro _ between asks
  cases asks with
  | refused _ null lastError =>
      subst null
      simp only [returns_pure]
      exact fun _ => lastError
  | granted _ address _ _ =>
      subst address
      simp only [returns_bind]
      apply (tenListCreate_spec (α := JsonNode D) .pointer (by decide)).mono
      rintro list after ⟨-, ⟨rfl, -, lastError⟩ | ⟨list, rfl, -, -⟩⟩
      · simp only [returns_pure]
        exact fun _ => lastError
      · simp only [returns_bind, returns_tenSetError, returns_pure]
        exact fun nothing => by cases nothing

theorem misreports_createObject_iff (requests : Nat) :
    Misreports (D := D) grants requests .createObject ↔
      grants requests = true ∧ ¬ Granted grants (requests + 1) 2 ∧
        grants (requests + 1 + if grants (requests + 1) then 2 else 1) = true := by
  rw [Misreports, granted_two_iff]
  refine and_congr_right fun _ => ?_
  cases grants (requests + 1) with
  | true => simp
  | false => simp

/-- The list is created when the map has been refused, too, and the error state is
that of the list. -/
theorem tenJsonCreateObject_reported :
    Returns (tenJsonCreateObject (D := D)) grants world (fun json after =>
      JsonCall.Reported (D := D) .createObject (.pointer json) after.lastError ↔
        ¬ Misreports (D := D) grants world.requests .createObject) := by
  rw [misreports_createObject_iff]
  simp only [tenJsonCreateObject, returns_bind]
  apply tenMalloc_asks.mono
  intro _ afterJson asksJson
  cases asksJson with
  | refused lacks null lastError =>
      subst null
      rw [granted_one_iff] at lacks
      simp only [returns_pure]
      exact iff_of_true lastError (fun misreports => lacks misreports.1)
  | granted all address requests _ =>
      subst address
      rw [granted_one_iff] at all
      simp only [returns_bind]
      apply (tenMapCreate_asks .string .pointer (by decide) (by decide)).mono
      rintro map afterMap ⟨asksMap, requestsMap⟩
      rw [requests] at requestsMap
      apply (tenListCreate_asks .pointer (by decide)).mono
      intro list after asksList
      cases asksMap with
      | granted allMap made _ _ =>
          obtain ⟨map, rfl⟩ := made
          rw [requests] at allMap
          cases asksList with
          | granted _ made _ _ =>
              obtain ⟨list, rfl⟩ := made
              simp only [returns_bind, returns_tenSetError, returns_pure]
              exact iff_of_true trivial (fun misreports => misreports.2.1 allMap)
          | refused _ null lastError =>
              subst null
              simp only [returns_pure]
              exact iff_of_true lastError (fun misreports => misreports.2.1 allMap)
      | refused lacksMap null _ =>
          subst null
          rw [requests] at lacksMap
          rw [← requestsMap]
          cases asksList with
          | granted allList _ _ lastError =>
              simp only [returns_pure]
              refine iff_of_false ?_ (not_not_intro ⟨all, lacksMap, (granted_one_iff _).mp allList⟩)
              intro reported
              cases lastError.symm.trans reported
          | refused lacksList _ lastError =>
              simp only [returns_pure]
              refine iff_of_true lastError ?_
              rintro ⟨-, -, granted⟩
              exact lacksList ((granted_one_iff _).mpr granted)

/-- Taking a key out of a map never leaves the code for the lack of memory. -/
theorem tenMapRemove_lastError {K V : Type} [KeyCell K] (map : TenMap K V) (key : K) :
    Returns (tenMapRemove map (some key)) grants world (fun _ after =>
      after.lastError ≠ .outOfMemory) := by
  simp only [tenMapRemove]
  cases unlinkFirst (tenMapMatches map (tenMapHash map key) key)
      (map.buckets.getD ((tenMapHash map key).toNat % map.bucketCount) []) with
  | none =>
      simp only [returns_bind, returns_tenSetError, returns_pure]
      simp
  | some chain =>
      simp only [returns_bind, returns_tenSetError, returns_pure]
      simp

theorem keyOrderRefused_iff {V : Type} (requests : Nat) (object : JsonObject V) (key : CharPtr) :
    KeyOrderRefused grants requests object key ↔
      tenMapFind object.entries key = none ∧
        Granted grants requests (mapRequests object.entries) ∧
        ¬ Granted grants (requests + mapRequests object.entries)
          (listRequests object.keyOrder) := by
  unfold KeyOrderRefused listRequests
  by_cases roomy : object.keyOrder.items.length + 1 ≤ object.keyOrder.capacity
  · rw [if_pos roomy]
    constructor
    · rintro ⟨-, full, -⟩
      exact absurd roomy (Nat.not_le.mpr full)
    · rintro ⟨-, -, refused⟩
      exact absurd (granted_zero _) refused
  · rw [if_neg roomy, granted_one_iff, Bool.not_eq_true]
    constructor
    · rintro ⟨absent, -, all, refused⟩
      exact ⟨absent, all, refused⟩
    · rintro ⟨absent, all, refused⟩
      exact ⟨absent, Nat.not_le.mp roomy, all, refused⟩

/-- The key list and, when it is refused room, the map that gives the key up again:
then the error is not left. -/
theorem keyOrder_reported {V : Type} (keyOrder : TenList TenString)
    (entries : TenMap CharPtr V) (key : TenString) :
    Returns (do
      let (rc, keyOrder) ← tenListAdd keyOrder key
      if rc ≠ .ok then
        let (_, entries) ← tenMapRemove entries (some key.pointer)
        return (.outOfMemory, ({ entries, keyOrder } : JsonObject V))
      else
        tenSetError .ok
        return (.ok, { entries, keyOrder })) grants world (fun reply after =>
          (reply.1 = .ok ∨ after.lastError = reply.1) ↔
            Granted grants world.requests (listRequests keyOrder)) := by
  rw [returns_bind]
  apply (tenListAdd_asks keyOrder key).mono
  rintro ⟨code, longer⟩ between asks
  cases asks with
  | granted all ok _ _ =>
      dsimp only at ok
      subst ok
      simp only [ne_eq, not_true_eq_false, if_false, returns_bind, returns_tenSetError,
        returns_pure]
      exact iff_of_true (.inl trivial) all
  | refused lacks failed _ =>
      dsimp only at failed
      subst failed
      simp only [ne_eq, reduceCtorEq, not_false_eq_true, if_true, returns_bind]
      apply (tenMapRemove_lastError entries key.pointer).mono
      rintro _ after other
      rw [returns_pure]
      refine iff_of_false ?_ lacks
      rintro (ok | same)
      · cases ok
      · exact other same

/-- A key that is set: the code is left as the error, unless the key list is refused
room for a key that the map has taken. -/
theorem tenJsonObjectSetOwned_reported (object : JsonObject (JsonNode D)) (key : TenString)
    (value : JsonNode D) :
    Returns (tenJsonObjectSetOwned object key value) grants world (fun reply after =>
      (reply.1 = .ok ∨ after.lastError = reply.1) ↔
        ¬ KeyOrderRefused grants world.requests object key.pointer) := by
  rw [keyOrderRefused_iff]
  simp only [tenJsonObjectSetOwned, tenMapGet, returns_bind, returns_tenSetError]
  cases found : tenMapFind object.entries key.pointer with
  | some entry =>
      simp only [tenMapSet, found, returns_bind, returns_tenSetError, returns_pure, ne_eq,
        not_true_eq_false, if_false]
      apply (tenJsonDestroy_spec entry.value).mono
      intro _ _ _
      simp
  | none =>
      simp only [returns_bind, returns_tenSetError, returns_pure]
      apply (tenMapSet_asks found value).mono
      rintro ⟨code, entries⟩ between asks
      cases asks with
      | refused lacks failed lastError =>
          dsimp only at failed
          subst failed
          simp only [ne_eq, reduceCtorEq, not_false_eq_true, if_true, returns_pure]
          exact iff_of_true (.inr lastError) (fun fails => lacks fails.2.1)
      | granted all ok requests _ =>
          dsimp only at ok
          subst ok
          rw [if_neg (by simp)]
          change between.requests = world.requests + mapRequests object.entries at requests
          apply (keyOrder_reported object.keyOrder entries key).mono
          intro reply after reported
          rw [reported, requests]
          constructor
          · rintro listed ⟨-, -, refused⟩
            exact refused listed
          · intro kept
            exact not_not.mp fun refused => kept ⟨trivial, all, refused⟩

theorem tenJsonArrayAdd_reported (json : JsonNode D) (value : Option (JsonNode D)) :
    Returns (tenJsonArrayAdd json value) grants world (fun reply after =>
      reply.1 = .ok ∨ after.lastError = reply.1) := by
  unfold tenJsonArrayAdd
  split
  · rename_i list value
    rw [returns_bind]
    apply (tenListAdd_asks list value).mono
    rintro ⟨code, list⟩ after asks
    rw [returns_pure]
    cases asks with
    | granted _ ok _ _ => exact .inl ok
    | refused _ failed lastError => exact .inr (lastError.trans failed.symm)
  · simp only [returns_bind, returns_tenSetError, returns_pure]
    exact .inr trivial

theorem tenJsonObjectSet_reported (json : JsonNode D) (key : Option CString)
    (value : Option (JsonNode D)) :
    Returns (tenJsonObjectSet json key value) grants world (fun reply after =>
      (reply.1 = .ok ∨ after.lastError = reply.1) ↔
        ¬ Misreports grants world.requests (.objectSet (some json) key value)) := by
  unfold tenJsonObjectSet Misreports
  split
  · rename_i object key value
    simp only [returns_bind]
    apply (tenStringCreate_asks key).mono
    intro _ between asks
    cases asks with
    | refused lacks null lastError =>
        subst null
        simp only [returns_pure]
        exact iff_of_true (.inr lastError) (fun misreports => lacks misreports.1)
    | granted all made requests _ =>
        obtain ⟨string, rfl, pointer⟩ := made
        simp only [returns_bind]
        apply (tenJsonObjectSetOwned_reported object string value).mono
        rintro ⟨code, object⟩ after reported
        rw [returns_pure]
        rw [pointer, requests] at reported
        rw [reported]
        exact not_congr (and_iff_right all).symm
  · rename_i other
    simp only [returns_bind, returns_tenSetError, returns_pure]
    refine iff_of_true (.inr trivial) ?_
    split
    · cases ‹_ = JsonCall.createObject›
    · rename_i same
      cases same
      exact absurd rfl (other _ _ _ rfl rfl)
    · exact not_false

/-- A call that returns a code, on a value or NULL. -/
theorem codeOf_reported {call : JsonCall D} {json : Option (JsonNode D)}
    {change : JsonNode D → Ten (TenErrorCode × JsonNode D)} {fact : Prop}
    (reported : ∀ node, json = some node → Returns (change node) grants world (fun reply after =>
      (reply.1 = .ok ∨ after.lastError = reply.1) ↔ fact))
    (null : json = none → fact) :
    Returns (codeOf json change) grants world (fun reply after =>
      call.Reported reply after.lastError ↔ fact) := by
  cases json with
  | none =>
      simp only [codeOf, returns_bind, returns_tenSetError, returns_pure]
      exact iff_of_true (.inr rfl) (null rfl)
  | some node =>
      simp only [codeOf, returns_bind]
      apply (reported node rfl).mono
      rintro ⟨code, _⟩ after same
      rw [returns_pure]
      exact same

/-- A call that is not misreported under any schedule. -/
theorem reported_always {call : JsonCall D} (never : ¬ Misreports grants world.requests call)
    (reported : Returns call.perform grants world (fun reply after =>
      call.Reported reply after.lastError)) :
    Returns call.perform grants world (fun reply after =>
      call.Reported reply after.lastError ↔ ¬ Misreports grants world.requests call) := by
  apply reported.mono
  intro reply after holds
  exact iff_of_true holds never

theorem perform_reported (call : JsonCall D) :
    Returns call.perform grants world (fun reply after =>
      call.Reported reply after.lastError ↔ ¬ Misreports grants world.requests call) := by
  cases call with
  | createNull =>
      exact reported_always not_false (reported_pointer rfl (tenJsonLeaf_tells .null))
  | createBool value =>
      exact reported_always not_false
        (reported_pointer rfl (tenJsonLeaf_tells (.boolean (value != 0))))
  | createNumber value =>
      exact reported_always not_false (reported_pointer rfl (tenJsonLeaf_tells (.number value)))
  | createString value =>
      cases value with
      | none =>
          simp only [JsonCall.perform, returns_map, tenJsonCreateString, returns_bind,
            returns_tenSetError, returns_pure]
          exact iff_of_true rfl not_false
      | some text =>
          exact reported_always not_false (reported_pointer rfl (tenJsonCreateString_tells text))
  | createArray => exact reported_always not_false (reported_pointer rfl tenJsonCreateArray_tells)
  | createObject =>
      simp only [JsonCall.perform, returns_map]
      exact tenJsonCreateObject_reported
  | arrayAdd json value =>
      refine codeOf_reported (fun node _ => ?_) (fun _ => not_false)
      apply (tenJsonArrayAdd_reported node value).mono
      intro reply after reported
      exact iff_of_true reported not_false
  | objectSet json key value =>
      refine codeOf_reported ?_ ?_
      · rintro node rfl
        exact tenJsonObjectSet_reported node key value
      · rintro rfl
        exact not_false

/-- Whatever the value, the arguments and the schedule are, the error state says why a
call has failed, unless the schedule is one of the two that are misreported. -/
theorem tenJsonCalls_report_iff (call : JsonCall D) (grants : Schedule) (world : World) :
    ReportsFailure call grants world ↔ ¬ Misreports grants world.requests call := by
  unfold ReportsFailure
  simp only [returns_bind, returns_tenLastError, returns_pure]
  exact returns_iff_of_iff (perform_reported call)

/-- `ten_json_create_object` when the map is refused its block: NULL, and no error.
Then `{}` and the key `a` whose place in the key list is refused: out of memory,
and no error either. -/
theorem not_reportsFailure_object :
    ¬ ReportsFailure (D := Int) .createObject (fun request => request ≠ 1) ⟨0, .ok, 0⟩ ∧
      Returns (tenJsonCreateObject (D := Int)) (fun _ => true) ⟨0, .ok, 0⟩ (fun object after =>
        object.isSome ∧ ¬ ReportsFailure
          (.objectSet object (some ⟨[ascii 'a'], by decide⟩) (some .null))
          (fun request => request ≠ 9) after) := by
  constructor
  · intro reports
    cases reports.eq rfl
  · refine ⟨_, _, rfl, rfl, ?_⟩
    intro reports
    rcases reports.eq rfl with ok | same
    · cases ok
    · cases same

end Calls

end Dotten
