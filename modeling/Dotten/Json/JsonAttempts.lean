/-
Module: Dotten.Json.JsonAttempts
Layer: Json
Purpose: The keys that an object may have when the parser sets a new key in it,
  read off the text.  Where a key is kept without some of its characters, because a
  string could not grow, it is another key.
Imports: Dotten.Json.JsonParserRuns
Main exports: Place, ReadsValue, ReadsName, Attempts, Calm, setOwned_calm
-/
import Dotten.Json.JsonParserRuns

namespace Dotten

open Dotten.Library

/-- Where the parser may stand: before a value, before an element of an array, or
before a member of an object that has got some keys. -/
inductive Place where
  | value (p : Bytes)
  | element (p : Bytes)
  | member (keys : List Bytes) (p : Bytes)

/-- A value is read at the cursor `p`, up to the cursor `q`. -/
def ReadsValue (p q : Bytes) : Prop :=
  ∃ (before : Whitespace) (text : Bytes) (tree : JsonTree Bytes), p = before.bytes ++ (text ++ q) ∧
    Derives Dialect.accepted (.value tree) text ∧ Stops tree q

/-- A name is read at the cursor `p`, with the colon behind it up to the cursor `q`, and
may be kept as `key`. -/
def ReadsName (p key q : Bytes) : Prop :=
  ∃ (text : Bytes) (string : TenString) (behind : Bytes),
    tenJsonSkipWs p = ascii '"' :: (text ++ ascii '"' :: behind) ∧
      KeptChars (emptyString 0) text string ∧ string.cstr.bytes = key ∧
      tenJsonSkipWs behind = ascii ':' :: q

/-- From the place, the parser may come to set a new key, and the keys of the object are
then these, with the new key at the end. -/
inductive Attempts : Place → List Bytes → Prop where
  | array {p tail : Bytes} {keys : List Bytes} (starts : tenJsonSkipWs p = ascii '[' :: tail)
      (inside : Attempts (.element (tenJsonSkipWs tail)) keys) : Attempts (.value p) keys
  | object {p tail : Bytes} {keys : List Bytes} (starts : tenJsonSkipWs p = ascii '{' :: tail)
      (inside : Attempts (.member [] (tenJsonSkipWs tail)) keys) : Attempts (.value p) keys
  | element {p : Bytes} {keys : List Bytes} (inside : Attempts (.value p) keys) :
      Attempts (.element p) keys
  | nextElement {p q r : Bytes} {keys : List Bytes} (read : ReadsValue p q)
      (comma : tenJsonSkipWs q = ascii ',' :: r) (later : Attempts (.element r) keys) :
      Attempts (.element p) keys
  | memberValue {p key q : Bytes} {built keys : List Bytes} (name : ReadsName p key q)
      (inside : Attempts (.value q) keys) : Attempts (.member built p) keys
  | set {p key q r : Bytes} {built : List Bytes} (name : ReadsName p key q)
      (read : ReadsValue q r) (absent : key ∉ built) : Attempts (.member built p) (built ++ [key])
  | nextMember {p key q r s : Bytes} {built keys : List Bytes} (name : ReadsName p key q)
      (read : ReadsValue q r) (absent : key ∉ built) (comma : tenJsonSkipWs r = ascii ',' :: s)
      (later : Attempts (.member (built ++ [key]) s) keys) : Attempts (.member built p) keys
  | repeated {p key q r s : Bytes} {built keys : List Bytes} (name : ReadsName p key q)
      (read : ReadsValue q r) (present : key ∈ built) (comma : tenJsonSkipWs r = ascii ',' :: s)
      (later : Attempts (.member built s) keys) : Attempts (.member built p) keys

/-- Whenever a new key is set from here on, no two keys of the object have had one hash
when its map grew. -/
def Calm (place : Place) : Prop := ∀ keys, Attempts place keys → Steady keys

section Setting

variable {D : Type} {grants : Schedule} {world after : World} {object : JsonObject (JsonNode D)}

/-- An object whose keys are in step and whose values can be released can be released. -/
theorem JsonObject.releasable (inStep : object.InStep)
    (values : ∀ member ∈ object.members, member.2.Releasable) :
    (JsonNode.object object).Releasable :=
  .object inStep (forall_found_iff.mpr values)

theorem JsonObject.Valid.replacesCleanly_of_values (valid : object.Valid)
    (values : ∀ member ∈ object.members, member.2.Releasable) (key : CharPtr) :
    object.ReplacesCleanly key := by
  intro entry found
  have read := valid.find_map_value key
  rw [found] at read
  obtain ⟨member, listed, -, same⟩ :=
    (OrderedMap.lookup_eq_some_iff valid.distinct_members).mp read.symm
  rw [← same]
  exact values member listed

/-- A set in an object of which everything can be released leaves such an object, also
when it is refused, and reads no freed string. -/
theorem setOwned_calm {key : TenString} {value : JsonNode D} {code : TenErrorCode}
    {object' : JsonObject (JsonNode D)} (valid : object.Valid) (steady : Steady object.keys)
    (attempt : key.cstr.bytes ∉ object.keys → Steady (object.keys ++ [key.cstr.bytes]))
    (values : ∀ member ∈ object.members, member.2.Releasable) (releasable : value.Releasable)
    (set : ObjectSetPost grants world object key value (code, object') after)
    (laidOut : SetLayout object key.cstr.bytes code object') :
    after.strayReads = world.strayReads ∧ Steady object'.keys ∧
      (∀ member ∈ object'.members, member.2.Releasable) ∧
      (JsonNode.object object').Releasable := by
  have unread := set.reads.iff.mpr (valid.replacesCleanly_of_values values key.pointer)
  have steady' : Steady object'.keys := by
    cases laidOut with
    | replaced _ keys _ => exact keys ▸ steady
    | added absent keys _ => exact keys ▸ attempt absent
    | refused _ keys _ => exact keys ▸ steady
    | refusedTurned _ keys _ _ => exact keys ▸ steady
  have values' : ∀ member ∈ object'.members, member.2.Releasable := by
    cases set.outcome with
    | done members =>
        rw [members]
        exact OrderedMap.forall_insert values releasable
    | refused members _ =>
        rw [members]
        exact values
  have valid' : object'.Valid := set.valid
  have inStep : object'.InStep := by
    have regular : object'.Regular → object'.InStep := fun regular =>
      (valid'.inStep_iff_of_regular regular).mpr steady'.inStep
    cases laidOut with
    | replaced _ _ still => exact regular still
    | added _ _ still => exact regular still
    | refused _ _ still => exact regular still
    | refusedTurned absent keys full turned =>
        have apart := (attempt absent).apart_of_full full
        rw [valid'.inStep_iff turned, keys]
        exact steady.inStep.turned apart
  exact ⟨unread, steady', values', JsonObject.releasable inStep values'⟩

/-- Behind a member that has been set, the object with its keys is calm still. -/
theorem SetLayout.calm_later {object' : JsonObject (JsonNode D)} {p key q r s : Bytes}
    (laidOut : SetLayout object key .ok object') (calm : Calm (.member object.keys p))
    (name : ReadsName p key q) (read : ReadsValue q r) (comma : tenJsonSkipWs r = ascii ',' :: s) :
    Calm (.member object'.keys s) := by
  intro keys later
  cases laidOut with
  | replaced present same _ =>
      rw [same] at later
      exact calm keys (.repeated name read present comma later)
  | added absent same _ =>
      rw [same] at later
      exact calm keys (.nextMember name read absent comma later)

end Setting

end Dotten
