/-
Module: Dotten.Containers.TenMapRefinement
Layer: Containers
Purpose: Sequences of map calls refine a finite map: the abstract map is a
  transition relation on finite maps, and every run of the code on a created
  table, whichever allocations are refused, is a run of it.
Imports: Dotten.Containers.TenMapCalls
Main exports: MapCall, MapReply, tenMapCall, runMapCalls, FiniteMapStep,
  FiniteMapRun, tenMapCall_refines, runMapCalls_refines, tenMap_refines_finite_map
-/
import Dotten.Containers.TenMapCalls

namespace Dotten

open Dotten.Library
open Dotten.Library.BucketTable

/-- A call on a map; `none` is a NULL argument. -/
inductive MapCall (K V : Type) where
  | set (key : Option K) (value : Option V)
  | get (key : Option K)
  | contains (key : Option K)
  | remove (key : Option K)
  | count
deriving DecidableEq, Repr

/-- What a call returns. -/
inductive MapReply (V : Type) where
  | status (code : TenErrorCode)
  | value (found : Option V)
  | flag (present : Bool)
  | number (count : Nat)
deriving DecidableEq, Repr

section Runs

variable {K V : Type} [KeyCell K]

/-- One call. -/
def tenMapCall (map : TenMap K V) : MapCall K V → Ten (MapReply V × TenMap K V)
  | .set key value => do
      let (rc, map) ← tenMapSet map key value
      return (.status rc, map)
  | .get key => do
      let found ← tenMapGet map key
      return (.value found, map)
  | .contains key => do
      let present ← tenMapContains map key
      return (.flag present, map)
  | .remove key => do
      let (rc, map) ← tenMapRemove map key
      return (.status rc, map)
  | .count => do
      let count ← tenMapCount map
      return (.number count, map)

/-- A sequence of calls: what each returned, with the error code it left. -/
def runMapCalls (map : TenMap K V) :
    List (MapCall K V) → Ten (List (MapReply V × TenErrorCode) × TenMap K V)
  | [] => return ([], map)
  | call :: calls => do
      let (reply, map) ← tenMapCall map call
      let error ← tenLastError
      let (replies, map) ← runMapCalls map calls
      return ((reply, error) :: replies, map)

end Runs

section AbstractMap

variable {K V κ : Type} [DecidableEq κ]

/-- One call on a finite map whose keys are compared by their normal form
`norm`.  `shortage` says whether memory may be refused. -/
inductive FiniteMapStep (norm : K → κ) (shortage : Prop) :
    (Finmap fun _ : κ => V) → MapCall K V → MapReply V × TenErrorCode →
      (Finmap fun _ : κ => V) → Prop where
  | set (contents : Finmap fun _ : κ => V) (key : K) (value : V) :
      FiniteMapStep norm shortage contents (.set (some key) (some value)) (.status .ok, .ok)
        (contents.insert (norm key) value)
  /-- A set that is refused memory changes nothing; replacing a value needs no
  memory. -/
  | setRefused (contents : Finmap fun _ : κ => V) (key : K) (value : V)
      (absent : norm key ∉ contents) (refused : shortage) :
      FiniteMapStep norm shortage contents (.set (some key) (some value))
        (.status .outOfMemory, .outOfMemory) contents
  | setNull (contents : Finmap fun _ : κ => V) (key : Option K) (value : Option V)
      (null : key = none ∨ value = none) :
      FiniteMapStep norm shortage contents (.set key value)
        (.status .nullArgument, .nullArgument) contents
  | get (contents : Finmap fun _ : κ => V) (key : K) :
      FiniteMapStep norm shortage contents (.get (some key))
        (.value (contents.lookup (norm key)),
          if contents.lookup (norm key) = none then .notFound else .ok) contents
  | getNull (contents : Finmap fun _ : κ => V) :
      FiniteMapStep norm shortage contents (.get none) (.value none, .nullArgument) contents
  | contains (contents : Finmap fun _ : κ => V) (key : K) :
      FiniteMapStep norm shortage contents (.contains (some key))
        (.flag (decide (norm key ∈ contents)), .ok) contents
  | containsNull (contents : Finmap fun _ : κ => V) :
      FiniteMapStep norm shortage contents (.contains none) (.flag false, .nullArgument) contents
  | remove (contents : Finmap fun _ : κ => V) (key : K) (present : norm key ∈ contents) :
      FiniteMapStep norm shortage contents (.remove (some key)) (.status .ok, .ok)
        (contents.erase (norm key))
  | removeMissing (contents : Finmap fun _ : κ => V) (key : K) (absent : norm key ∉ contents) :
      FiniteMapStep norm shortage contents (.remove (some key))
        (.status .notFound, .notFound) contents
  | removeNull (contents : Finmap fun _ : κ => V) :
      FiniteMapStep norm shortage contents (.remove none)
        (.status .nullArgument, .nullArgument) contents
  | count (contents : Finmap fun _ : κ => V) :
      FiniteMapStep norm shortage contents .count (.number contents.keys.card, .ok) contents

/-- A sequence of calls on a finite map. -/
inductive FiniteMapRun (norm : K → κ) (shortage : Prop) :
    (Finmap fun _ : κ => V) → List (MapCall K V) → List (MapReply V × TenErrorCode) →
      (Finmap fun _ : κ => V) → Prop where
  | nil (contents : Finmap fun _ : κ => V) : FiniteMapRun norm shortage contents [] [] contents
  | cons {before between after : Finmap fun _ : κ => V} {call : MapCall K V}
      {calls : List (MapCall K V)} {reply : MapReply V × TenErrorCode}
      {replies : List (MapReply V × TenErrorCode)}
      (step : FiniteMapStep norm shortage before call reply between)
      (run : FiniteMapRun norm shortage between calls replies after) :
      FiniteMapRun norm shortage before (call :: calls) (reply :: replies) after

end AbstractMap

section Refinement

variable {K V : Type} [KeyCell K] {grants : Schedule} {world : World}

/-- What relates the table after a call to the abstract map after it. -/
structure CallPost (grants : Schedule) (map : TenMap K V) (contents : Finmap fun _ : Bytes => V)
    (call : MapCall K V) (reply : MapReply V × TenMap K V) (after : World) : Prop where
  valid : reply.2.Valid
  alike : reply.2.Alike map
  refines : ∃ contents', reply.2.Holds contents' ∧
    FiniteMapStep map.keyBytes (¬ Ample grants) contents call (reply.1, after.lastError) contents'

theorem notMem_iff_absent {map : TenMap K V} {contents : Finmap fun _ : Bytes => V}
    (holds : map.Holds contents) (key : K) :
    map.keyBytes key ∉ contents ↔
      ∀ entry ∈ map.entries, map.keyBytes entry.key ≠ map.keyBytes key := by
  rw [← Finmap.lookup_eq_none]
  exact holds.lookup_eq_none

/-- A call that leaves the table as it was. -/
theorem CallPost.kept {map : TenMap K V} (valid : map.Valid)
    {contents : Finmap fun _ : Bytes => V} (holds : map.Holds contents) {call : MapCall K V}
    {reply : MapReply V} {after : World}
    (step : FiniteMapStep map.keyBytes (¬ Ample grants) contents call (reply, after.lastError)
      contents) :
    CallPost grants map contents call (reply, map) after :=
  ⟨valid, ⟨rfl, rfl⟩, contents, holds, step⟩

theorem setCall_refines {map : TenMap K V} (valid : map.Valid)
    {contents : Finmap fun _ : Bytes => V} (holds : map.Holds contents) (key : Option K)
    (value : Option V) :
    Returns (tenMapCall map (.set key value)) grants world
      (CallPost grants map contents (.set key value)) := by
  simp only [tenMapCall, returns_bind]
  rcases key with _ | key
  · simp only [tenMapSet, returns_bind, returns_tenSetError, returns_pure]
    exact .kept valid holds (.setNull contents none value (.inl rfl))
  rcases value with _ | value
  · simp only [tenMapSet, returns_bind, returns_tenSetError, returns_pure]
    exact .kept valid holds (.setNull contents _ none (.inr rfl))
  apply (tenMapSet_spec valid key value).mono
  intro reply after post
  obtain ⟨rc, map'⟩ := reply
  rw [returns_pure]
  refine ⟨post.valid, post.alike, _, post.outcome.holds post.alike holds, ?_⟩
  rw [post.lastError]
  cases post.outcome with
  | overwritten present entries => exact .set contents key value
  | inserted absent entries => exact .set contents key value
  | refused absent shortage entries =>
      exact .setRefused contents key value ((notMem_iff_absent holds key).mpr absent) shortage

theorem removeCall_refines {map : TenMap K V} (valid : map.Valid)
    {contents : Finmap fun _ : Bytes => V} (holds : map.Holds contents) (key : Option K) :
    Returns (tenMapCall map (.remove key)) grants world
      (CallPost grants map contents (.remove key)) := by
  simp only [tenMapCall, returns_bind]
  rcases key with _ | key
  · simp only [tenMapRemove, returns_bind, returns_tenSetError, returns_pure]
    exact .kept valid holds (.removeNull contents)
  apply (tenMapRemove_spec valid key).mono
  intro reply after post
  obtain ⟨rc, map'⟩ := reply
  obtain ⟨stillValid, alike, outcome, rfl⟩ := post
  rw [returns_pure]
  refine ⟨stillValid, alike, ?_⟩
  have erased := outcome.holds alike holds
  cases outcome with
  | removed present entries =>
      refine ⟨_, erased, .remove contents key ?_⟩
      obtain ⟨entry, member, same⟩ := present
      apply Decidable.byContradiction
      intro absent
      exact (notMem_iff_absent holds key).mp absent entry member same
  | missing absent =>
      have notMem := (notMem_iff_absent holds key).mpr absent
      exact ⟨contents, holds, .removeMissing contents key notMem⟩

/-- One call of the code is one step of the finite map. -/
theorem tenMapCall_refines {map : TenMap K V} (valid : map.Valid)
    {contents : Finmap fun _ : Bytes => V} (holds : map.Holds contents) (call : MapCall K V) :
    Returns (tenMapCall map call) grants world (CallPost grants map contents call) := by
  cases call with
  | set key value => exact setCall_refines valid holds key value
  | get key =>
      simp only [tenMapCall, returns_bind]
      rcases key with _ | key
      · simp only [tenMapGet, returns_bind, returns_tenSetError, returns_pure]
        exact .kept valid holds (.getNull contents)
      apply (tenMapGet_spec valid holds key).mono
      intro reply after post
      obtain ⟨rfl, rfl⟩ := post
      rw [returns_pure]
      exact .kept valid holds (.get contents key)
  | contains key =>
      rcases key with _ | key
      · simp only [tenMapCall, tenMapContains, returns_bind, returns_tenSetError, returns_pure]
        exact .kept valid holds (.containsNull contents)
      simp only [tenMapCall, tenMapContains, returns_bind, returns_tenSetError, returns_pure]
      have answer : (tenMapFind map key).isSome = decide (map.keyBytes key ∈ contents) := by
        rw [Bool.eq_iff_iff, decide_eq_true_iff]
        exact valid.find_isSome_iff holds key
      rw [answer]
      exact .kept valid holds (.contains contents key)
  | remove key => exact removeCall_refines valid holds key
  | count =>
      simp only [tenMapCall, tenMapCount, returns_bind, returns_tenSetError, returns_pure]
      rw [valid.count_eq_card holds]
      exact .kept valid holds (.count contents)

/-- Every sequence of calls of the code is a run of the finite map. -/
theorem runMapCalls_refines (calls : List (MapCall K V)) :
    ∀ {map : TenMap K V} {contents : Finmap fun _ : Bytes => V} {world : World},
      map.Valid → map.Holds contents →
      Returns (runMapCalls map calls) grants world (fun reply _ =>
        reply.2.Valid ∧ reply.2.Alike map ∧ ∃ contents', reply.2.Holds contents' ∧
          FiniteMapRun map.keyBytes (¬ Ample grants) contents calls reply.1 contents') := by
  induction calls with
  | nil =>
      intro map contents world valid holds
      simp only [runMapCalls, returns_pure]
      exact ⟨valid, ⟨rfl, rfl⟩, contents, holds, .nil contents⟩
  | cons call calls inductionHypothesis =>
      intro map contents world valid holds
      simp only [runMapCalls, returns_bind]
      apply (tenMapCall_refines valid holds call).mono
      intro reply between post
      obtain ⟨first, map'⟩ := reply
      obtain ⟨contents', holds', step⟩ := post.refines
      rw [returns_tenLastError]
      apply (inductionHypothesis post.valid holds').mono
      intro rest after run
      obtain ⟨replies, last⟩ := rest
      obtain ⟨lastValid, alike, contents'', lastHolds, later⟩ := run
      rw [post.alike.keyBytes] at later
      rw [returns_pure]
      exact ⟨lastValid,
        ⟨alike.keyType.trans post.alike.keyType, alike.keySize.trans post.alike.keySize⟩,
        contents'', lastHolds, .cons step later⟩

/-- The bytes by which a map of the given key type tells keys apart. -/
def keyBytesOf (keyType : TenType) (key : K) : Bytes :=
  if keyType = .string then (KeyCell.cstr key).bytes
  else (KeyCell.raw key).take (tenTypeSize keyType)

/-- A fresh table and any calls on it, for every accepted pair of types and
every way the allocator answers: the replies are those of a finite map that
was empty at the start, and the table satisfies its invariant at the end of
every sequence. -/
theorem tenMap_refines_finite_map (keyType valueType : TenType) (keyAccepted : keyType ≠ .void)
    (valueAccepted : valueType ≠ .void) (grants : Schedule) (world : World)
    (calls : List (MapCall K V)) :
    Returns (tenMapCreate (K := K) (V := V) keyType valueType) grants world (fun created after =>
      (created = none ∧ ¬ Ample grants ∧ after.lastError = .outOfMemory) ∨
        ∃ map, created = some map ∧ Returns (runMapCalls map calls) grants after (fun reply _ =>
          reply.2.Valid ∧ ∃ contents, reply.2.Holds contents ∧
            FiniteMapRun (keyBytesOf keyType) (¬ Ample grants) ∅ calls reply.1 contents)) := by
  apply (tenMapCreate_spec keyType valueType keyAccepted valueAccepted).mono
  intro created after post
  rcases post.2 with refused | ⟨map, rfl, valid, empty, sameType, sameSize, -⟩
  · exact .inl refused
  · refine .inr ⟨map, rfl, ?_⟩
    have holds : map.Holds ∅ := by
      unfold TenMap.Holds
      rw [empty]
      exact represents_nil
    have sameKeys : map.keyBytes = keyBytesOf keyType := by
      funext key
      unfold TenMap.keyBytes keyBytesOf
      rw [sameType, sameSize]
    apply (runMapCalls_refines calls valid holds).mono
    intro reply last run
    obtain ⟨lastValid, -, contents, lastHolds, abstractRun⟩ := run
    rw [sameKeys] at abstractRun
    exact ⟨lastValid, contents, lastHolds, abstractRun⟩

/-- A map from strings to numbers whose fourth request is refused. -/
theorem tenMap_refines_finite_map_strings :
    Returns (tenMapCreate (K := CharPtr) (V := Nat) .string .i32) (· != 3) ⟨0, .ok, 0⟩
      (fun created after =>
        (created = none ∧ ¬ Ample (· != 3) ∧ after.lastError = .outOfMemory) ∨
          ∃ map, created = some map ∧
            Returns (runMapCalls map [.set (some (CharPtr.mk 100 default)) (some 1), .count])
              (· != 3) after (fun reply _ =>
                reply.2.Valid ∧ ∃ contents, reply.2.Holds contents ∧
                  FiniteMapRun (keyBytesOf .string) (¬ Ample (· != 3)) ∅
                    [.set (some (CharPtr.mk 100 default)) (some 1), .count] reply.1 contents)) :=
  tenMap_refines_finite_map .string .i32 (by decide) (by decide) _ _
    [.set (some (CharPtr.mk 100 default)) (some 1), .count]

end Refinement

end Dotten
