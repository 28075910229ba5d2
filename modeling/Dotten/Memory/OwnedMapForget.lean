/-
Module: Dotten.Memory.OwnedMapForget
Layer: Memory
Purpose: The hash table with its blocks is the hash table without them: what the
  functions of map.c return does not depend on where the entries lie.
Imports: Dotten.Memory.OwnedMap, Dotten.Json.JsonView
Main exports: OwnedMap.forget, Heap.keeps_tenMapFind, Heap.keeps_tenMapGet,
  Heap.keeps_tenMapSet, Heap.keeps_tenMapRemove, Heap.keeps_tenMapCreate
-/
import Dotten.Memory.OwnedMap
import Dotten.Json.JsonView

namespace Dotten

open Dotten.Library
open Dotten.Library.BucketTable

/-- An entry without its blocks, its value seen through a function. -/
def seenEntry {K V W : Type} (view : V → W) (entry : MapEntry K (Cell V)) : MapEntry K W where
  hash := entry.hash
  key := entry.key
  value := view entry.value.content

/-- A map without its blocks, its values seen through a function. -/
def OwnedMap.forget {K V W : Type} (view : V → W) (owned : OwnedMap K V) : TenMap K W :=
  owned.map.mapValues fun cell => view cell.content

section Tables

variable {K V W : Type} {view : V → W}

theorem forget_buckets (owned : OwnedMap K V) :
    (owned.forget view).buckets = owned.map.buckets.map (List.map (seenEntry view)) := rfl

theorem getD_forget (owned : OwnedMap K V) (slot : Nat) :
    (owned.forget view).buckets.getD slot [] =
      (owned.map.buckets.getD slot []).map (seenEntry view) := by
  rw [forget_buckets, List.getD_eq_getElem?_getD, List.getD_eq_getElem?_getD, List.getElem?_map]
  cases owned.map.buckets[slot]? with
  | none => rfl
  | some chain => rfl

theorem overwriteFirst_map {isMatch : MapEntry K (Cell V) → Bool}
    {isMatchSeen : MapEntry K W → Bool}
    (same : ∀ entry, isMatchSeen (seenEntry view entry) = isMatch entry) (cell : Cell V)
    (chain : List (MapEntry K (Cell V))) :
    (overwriteFirst isMatch cell chain).map (seenEntry view) =
      overwriteFirst isMatchSeen (view cell.content) (chain.map (seenEntry view)) := by
  induction chain with
  | nil => rfl
  | cons entry rest inductionHypothesis =>
      rw [overwriteFirst, List.map_cons, overwriteFirst, same]
      split
      · rfl
      · rw [List.map_cons, inductionHypothesis]

theorem unlinkFirst_map {isMatch : MapEntry K (Cell V) → Bool}
    {isMatchSeen : MapEntry K W → Bool}
    (same : ∀ entry, isMatchSeen (seenEntry view entry) = isMatch entry)
    (chain : List (MapEntry K (Cell V))) :
    unlinkFirst isMatchSeen (chain.map (seenEntry view)) =
      (unlinkFirst isMatch chain).map (List.map (seenEntry view)) := by
  induction chain with
  | nil => rfl
  | cons entry rest inductionHypothesis =>
      rw [List.map_cons, unlinkFirst, unlinkFirst, same]
      split
      · rfl
      · rw [inductionHypothesis, Option.map_map, Option.map_map]
        rfl

/-- An entry is unlinked exactly where a match is found. -/
theorem unlinkFirst_isSome (isMatch : MapEntry K V → Bool) (chain : List (MapEntry K V)) :
    (unlinkFirst isMatch chain).isSome = (chain.find? isMatch).isSome := by
  induction chain with
  | nil => rfl
  | cons entry rest inductionHypothesis =>
      rw [unlinkFirst, List.find?_cons]
      cases isMatch entry with
      | true => rfl
      | false => rw [if_neg (by decide), Option.isSome_map, inductionHypothesis]

end Tables

namespace Heap

section Lifetime

variable {K V W : Type}

theorem keeps_tenMapCreate (view : V → W) (keyType valueType : TenType) :
    Keeps (Option.map (OwnedMap.forget view)) (tenMapCreate (K := K) (V := V) keyType valueType)
      (Dotten.tenMapCreate keyType valueType) := by
  refine Simulates.ite (fun _ => ?_) fun _ => ?_
  · exact Erases.bind (keeps_tenSetError _) fun _ => Simulates.pure rfl
  · refine Erases.bind keeps_tenMalloc ?_
    rintro (_ | self)
    · exact Simulates.pure rfl
    · refine Erases.bind keeps_tenCalloc ?_
      rintro (_ | buckets)
      · exact Simulates.skip (unseen_tenFree _) fun _ => Simulates.pure rfl
      · refine Erases.bind (keeps_tenSetError _) fun _ => Simulates.pure ?_
        simp [OwnedMap.forget, TenMap.mapValues]

theorem unseen_tenMapDestroy (owned : Option (OwnedMap K V)) :
    Unseen SameRequests (tenMapDestroy owned) := by
  cases owned with
  | none => exact Unseen.pure ()
  | some owned =>
      exact Unseen.bind (unseen_access _) fun _ => Unseen.bind (unseen_access _) fun _ =>
        Unseen.bind (Unseen.forM fun entry => Unseen.bind (unseen_access _) fun _ =>
          Unseen.bind (unseen_tenFree _) fun _ => Unseen.bind (unseen_tenFree _) fun _ =>
            unseen_tenFree _) fun _ =>
          Unseen.bind (unseen_tenFree _) fun _ => unseen_tenFree _

/-- The entries are moved by their hashes alone. -/
theorem keeps_tenMapRehash (view : V → W) (owned : OwnedMap K V) (newBucketCount : Nat) :
    Keeps (Prod.map id (OwnedMap.forget view)) (tenMapRehash owned newBucketCount)
      (Dotten.tenMapRehash (owned.forget view) newBucketCount) := by
  refine Erases.bind keeps_tenCalloc ?_
  rintro (_ | buckets)
  · exact Simulates.pure rfl
  · refine Simulates.skip (unseen_access _) fun _ => Simulates.skip (unseen_access _) fun _ =>
      Simulates.skip (Unseen.forM fun entry => unseen_access _) fun _ =>
        Simulates.skip (unseen_tenFree _) fun _ => Simulates.pure ?_
    have hashes : ∀ entry : MapEntry K (Cell V),
        (seenEntry view entry).hash.toNat = entry.hash.toNat := fun _ => rfl
    have moved : (redistribute (fun entry => entry.hash.toNat) newBucketCount
        owned.map.buckets).map (List.map (seenEntry view)) =
          redistribute (fun entry : MapEntry K W => entry.hash.toNat) newBucketCount
            (owned.map.buckets.map (List.map (seenEntry view))) :=
      @redistribute_map _ _ _ (fun entry : MapEntry K W => entry.hash.toNat) _ hashes _ _
    exact congrArg (fun buckets => (TenErrorCode.ok,
      ({ owned.forget view with buckets, bucketCount := newBucketCount } : TenMap K W))) moved

end Lifetime

section Lookup

variable {K V W : Type}

/-- The table after an entry is linked in. -/
theorem forget_linked (view : V → W) (owned : OwnedMap K V) (slot : Nat)
    (entry : MapEntry K (Cell V)) :
    (owned.map.buckets.modify slot (entry :: ·)).map (List.map (seenEntry view)) =
      (owned.forget view).buckets.modify slot (seenEntry view entry :: ·) :=
  map_modify (fun _ => List.map_cons) _ _

/-- The table after a chain is replaced. -/
theorem forget_replaced (view : V → W) (owned : OwnedMap K V) (slot : Nat)
    (chain : List (MapEntry K (Cell V))) :
    (owned.map.buckets.modify slot fun _ => chain).map (List.map (seenEntry view)) =
      (owned.forget view).buckets.modify slot fun _ => chain.map (seenEntry view) := by
  have commutes : ∀ old : List (MapEntry K (Cell V)),
      ((fun _ => chain) old).map (seenEntry view) =
        (fun _ => chain.map (seenEntry view)) (old.map (seenEntry view)) := fun _ => rfl
  exact map_modify commutes _ _

variable [KeyCell K]

theorem find_forget (view : V → W) (owned : OwnedMap K V) (key : K) :
    Dotten.tenMapFind (owned.forget view) key =
      (Dotten.tenMapFind owned.map key).map (seenEntry view) :=
  tenMapFind_mapValues _ _ _

theorem matches_forget (view : V → W) (owned : OwnedMap K V) (hash : UInt64) (key : K)
    (entry : MapEntry K (Cell V)) :
    tenMapMatches (owned.forget view) hash key (seenEntry view entry) =
      tenMapMatches owned.map hash key entry := rfl

/-- The table after a value is overwritten. -/
theorem forget_overwritten (view : V → W) (owned : OwnedMap K V) (slot : Nat) (hash : UInt64)
    (key : K) (cell : Cell V) :
    (owned.map.buckets.modify slot
        (overwriteFirst (tenMapMatches owned.map hash key) cell)).map
          (List.map (seenEntry view)) =
      (owned.forget view).buckets.modify slot
        (overwriteFirst (tenMapMatches (owned.forget view) hash key) (view cell.content)) := by
  have commutes : ∀ chain,
      (overwriteFirst (tenMapMatches owned.map hash key) cell chain).map (seenEntry view) =
        overwriteFirst (tenMapMatches (owned.forget view) hash key) (view cell.content)
          (chain.map (seenEntry view)) :=
    overwriteFirst_map (matches_forget view owned hash key) cell
  exact map_modify commutes _ _

variable [KeyTargets K]

theorem unseen_accessEach (targets : List Nat) : Unseen SameRequests (targets.forM access) :=
  Unseen.forM unseen_access

theorem yields_tenMapHash (owned : OwnedMap K V) (key : K) :
    Yields SameRequests (tenMapHash owned key) (Dotten.tenMapHash owned.map key) :=
  Yields.skip (unseen_access _) fun _ => Yields.skip (unseen_accessEach _) fun _ =>
    Yields.pure _

theorem yields_tenMapKeyEquals (owned : OwnedMap K V) (stored : MapEntry K (Cell V))
    (query : K) :
    Yields SameRequests (tenMapKeyEquals owned stored query)
      (Dotten.tenMapKeyEquals owned.map stored.key query) :=
  Yields.skip (unseen_access _) fun _ => Yields.skip (unseen_access _) fun _ =>
    Yields.skip (unseen_accessEach _) fun _ => Yields.skip (unseen_accessEach _) fun _ =>
      Yields.pure _

/-- A walk that reads nothing that is gone finds the first match. -/
theorem yields_findChain (owned : OwnedMap K V) (hash : UInt64) (key : K)
    (chain : List (MapEntry K (Cell V))) :
    Yields SameRequests (findChain owned hash key chain)
      (chain.find? (tenMapMatches owned.map hash key)) := by
  induction chain with
  | nil => exact Yields.pure _
  | cons entry rest inductionHypothesis =>
      refine Yields.skip (unseen_access _) fun _ => ?_
      rw [List.find?_cons]
      by_cases sameHash : entry.hash = hash
      · have tests : tenMapMatches owned.map hash key entry =
            Dotten.tenMapKeyEquals owned.map entry.key key := by
          rw [tenMapMatches, sameHash, beq_self_eq_true, Bool.true_and]
        rw [if_pos sameHash, tests]
        refine Yields.read (yields_tenMapKeyEquals owned entry key) ?_
        cases Dotten.tenMapKeyEquals owned.map entry.key key with
        | true => exact Yields.pure _
        | false => exact inductionHypothesis
      · have tests : tenMapMatches owned.map hash key entry = false := by
          rw [tenMapMatches, beq_eq_false_iff_ne.mpr sameHash, Bool.false_and]
        rw [if_neg sameHash, tests]
        exact inductionHypothesis

theorem yields_tenMapFind (owned : OwnedMap K V) (key : K) :
    Yields SameRequests (tenMapFind owned key) (Dotten.tenMapFind owned.map key) :=
  Yields.read (yields_tenMapHash owned key) <| Yields.skip (unseen_access _) fun _ =>
    yields_findChain owned _ key _

/-- A lookup that reads nothing that is gone finds the value of the key. -/
theorem yields_tenMapGet (owned : OwnedMap K V) (key : K) :
    Yields SameRequests (tenMapGet owned key)
      ((Dotten.tenMapFind owned.map key).map fun entry => entry.value.content) := by
  refine Yields.read (yields_tenMapFind owned key) ?_
  cases Dotten.tenMapFind owned.map key with
  | none => exact Yields.skip (unseen_tenSetError _) fun _ => Yields.pure _
  | some entry =>
      exact Yields.skip (unseen_tenSetError _) fun _ =>
        Yields.skip (unseen_access _) fun _ => Yields.pure _

theorem keeps_tenMapGet (view : V → W) (owned : OwnedMap K V) (key : K) :
    Keeps (Option.map view) (tenMapGet owned key)
      (Dotten.tenMapGet (owned.forget view) (some key)) := by
  refine Simulates.read (yields_tenMapFind owned key) ?_
  unfold Dotten.tenMapGet
  dsimp only
  rw [find_forget]
  cases Dotten.tenMapFind owned.map key with
  | none => exact Erases.bind (keeps_tenSetError _) fun _ => Simulates.pure rfl
  | some entry =>
      exact Erases.bind (keeps_tenSetError _) fun _ =>
        Simulates.skip (unseen_access _) fun _ => Simulates.pure rfl

theorem keeps_tenMapSetNew (view : V → W) (owned : OwnedMap K V) (key : K) (content : V) :
    Keeps (Prod.map id (OwnedMap.forget view)) (tenMapSetNew owned key content)
      (Dotten.tenMapSetNew (owned.forget view) key (view content)) := by
  refine Erases.bind keeps_tenMalloc ?_
  rintro (_ | entry)
  · exact Simulates.pure rfl
  refine Erases.bind keeps_tenMalloc ?_
  rintro (_ | keyCopy)
  · exact Simulates.skip (unseen_tenFree _) fun _ => Simulates.pure rfl
  refine Erases.bind keeps_tenMalloc ?_
  rintro (_ | value)
  · exact Simulates.skip (unseen_tenFree _) fun _ => Simulates.skip (unseen_tenFree _) fun _ =>
      Simulates.pure rfl
  refine Simulates.read (yields_tenMapHash owned key) <| Simulates.skip (unseen_access _) fun _ =>
    Erases.bind (keeps_tenSetError _) fun _ => Simulates.pure ?_
  exact congrArg (fun buckets => (TenErrorCode.ok,
    ({ owned.forget view with buckets, count := owned.map.count + 1 } : TenMap K W)))
      (forget_linked view owned _ _)

theorem keeps_tenMapSet (view : V → W) (owned : OwnedMap K V) (key : K) (content : V) :
    Keeps (Prod.map id (OwnedMap.forget view)) (tenMapSet owned key content)
      (Dotten.tenMapSet (owned.forget view) (some key) (some (view content))) := by
  refine Simulates.read (yields_tenMapFind owned key) ?_
  unfold Dotten.tenMapSet
  dsimp only
  rw [find_forget]
  cases found : Dotten.tenMapFind owned.map key with
  | some entry =>
      refine Simulates.skip (unseen_access _) fun _ => Erases.bind (keeps_tenSetError _) fun _ =>
        Simulates.pure ?_
      exact congrArg (fun buckets => (TenErrorCode.ok,
        ({ owned.forget view with buckets } : TenMap K W))) (forget_overwritten view owned _ _ _ _)
  | none =>
      refine Simulates.skip (unseen_access _) fun _ => Simulates.ite (fun _ => ?_) fun _ =>
        keeps_tenMapSetNew view owned key content
      refine Erases.bind (keeps_tenMapRehash view owned _) ?_
      rintro ⟨rc, rehashed⟩
      exact Simulates.ite (fun _ => Erases.bind (keeps_tenSetError _) fun _ => Simulates.pure rfl)
        fun _ => keeps_tenMapSetNew view rehashed key content

theorem keeps_tenMapRemove (view : V → W) (owned : OwnedMap K V) (key : K) :
    Keeps (Prod.map id (OwnedMap.forget view)) (tenMapRemove owned key)
      (Dotten.tenMapRemove (owned.forget view) (some key)) := by
  refine Simulates.read (yields_tenMapHash owned key) <| Simulates.skip (unseen_access _) fun _ =>
    Simulates.read (yields_findChain owned _ key _) ?_
  unfold Dotten.tenMapRemove
  dsimp only
  rw [getD_forget]
  have unlinks : unlinkFirst
      (tenMapMatches (owned.forget view) (Dotten.tenMapHash (owned.forget view) key) key)
      ((owned.map.buckets.getD ((Dotten.tenMapHash (owned.forget view) key).toNat %
        (owned.forget view).bucketCount) []).map (seenEntry view)) =
      (unlinkFirst (tenMapMatches owned.map (Dotten.tenMapHash owned.map key) key)
        (owned.map.buckets.getD
          ((Dotten.tenMapHash owned.map key).toNat % owned.map.bucketCount) [])).map
        (List.map (seenEntry view)) :=
    unlinkFirst_map (matches_forget view owned _ key) _
  rw [unlinks]
  generalize owned.map.buckets.getD
    ((Dotten.tenMapHash owned.map key).toNat % owned.map.bucketCount) [] = chain
  have found := unlinkFirst_isSome
    (tenMapMatches owned.map (Dotten.tenMapHash owned.map key) key) chain
  cases first : chain.find? (tenMapMatches owned.map (Dotten.tenMapHash owned.map key) key) with
  | none =>
      rw [first, Option.isSome_none, Option.isSome_eq_false_iff, Option.isNone_iff_eq_none]
        at found
      rw [found]
      exact Erases.bind (keeps_tenSetError _) fun _ => Simulates.pure rfl
  | some entry =>
      rw [first, Option.isSome_some] at found
      obtain ⟨left, unlinked⟩ := Option.isSome_iff_exists.mp found
      rw [unlinked]
      refine Simulates.skip (unseen_tenFree _) fun _ => Simulates.skip (unseen_tenFree _) fun _ =>
        Simulates.skip (unseen_tenFree _) fun _ => Erases.bind (keeps_tenSetError _) fun _ =>
          Simulates.pure ?_
      exact congrArg (fun buckets => (TenErrorCode.ok,
        ({ owned.forget view with buckets, count := owned.map.count - 1 } : TenMap K W)))
          (forget_replaced view owned _ _)

end Lookup

end Heap

end Dotten
