/-
Module: Dotten.Containers.TenMapCalls
Layer: Containers
Purpose: The specification of each function of map.c: what one call does to the
  invariant and to the entries of the table, whichever allocations are refused.
Imports: Dotten.Containers.TenMapInvariant
Main exports: TenMap.Alike, SetOutcome, tenMapCreate_spec, tenMapSet_spec,
  tenMapRemove_spec
-/
import Dotten.Containers.TenMapInvariant

namespace Dotten

open Dotten.Library
open Dotten.Library.BucketTable

section Calls

variable {K V : Type} [KeyCell K] {grants : Schedule} {world : World}

/-- Two tables that tell keys apart in the same way. -/
structure TenMap.Alike (left right : TenMap K V) : Prop where
  keyType : left.keyType = right.keyType
  keySize : left.keySize = right.keySize

theorem TenMap.Alike.keyBytes {left right : TenMap K V} (alike : left.Alike right) :
    left.keyBytes = right.keyBytes := by
  funext key
  unfold TenMap.keyBytes
  rw [alike.keyType, alike.keySize]

/-- What `ten_map_set` may do with a key and a value. -/
inductive SetOutcome (grants : Schedule) (map : TenMap K V) (key : K) (value : V) :
    TenErrorCode → TenMap K V → Prop where
  /-- The entry of the key keeps its place and its key block. -/
  | overwritten {after : TenMap K V}
      (present : ∃ entry ∈ map.entries, map.keyBytes entry.key = map.keyBytes key)
      (entries : after.entries.Perm (map.entries.map fun entry =>
        if map.keyBytes entry.key = map.keyBytes key then { entry with value := value }
        else entry)) :
      SetOutcome grants map key value .ok after
  | inserted {after : TenMap K V}
      (absent : ∀ entry ∈ map.entries, map.keyBytes entry.key ≠ map.keyBytes key)
      (entries : after.entries.Perm ({ hash := tenMapHash map key, key, value } :: map.entries)) :
      SetOutcome grants map key value .ok after
  /-- A refused request for the bucket array, the entry, the key block or the
  value block: the entries stay, possibly over a longer bucket array. -/
  | refused {after : TenMap K V}
      (absent : ∀ entry ∈ map.entries, map.keyBytes entry.key ≠ map.keyBytes key)
      (shortage : ¬ Ample grants)
      (entries : after.entries.Perm map.entries) :
      SetOutcome grants map key value .outOfMemory after

/-- The outcome of `ten_map_set` together with what holds of every outcome. -/
structure SetPost (grants : Schedule) (world : World) (map : TenMap K V) (key : K) (value : V)
    (reply : TenErrorCode × TenMap K V) (after : World) : Prop where
  valid : reply.2.Valid
  alike : reply.2.Alike map
  requests : world.requests ≤ after.requests
  lastError : after.lastError = reply.1
  outcome : SetOutcome grants map key value reply.1 reply.2

/-- The finite map after `ten_map_set`. -/
theorem SetOutcome.holds {map after : TenMap K V} {key : K} {value : V} {rc : TenErrorCode}
    {contents : Finmap fun _ : Bytes => V} (outcome : SetOutcome grants map key value rc after)
    (alike : after.Alike map) (holds : map.Holds contents) :
    after.Holds (if rc = .ok then contents.insert (map.keyBytes key) value else contents) := by
  have asBefore : ∀ {contents : Finmap fun _ : Bytes => V},
      Represents (fun entry : MapEntry K V => map.keyBytes entry.key) MapEntry.value
        after.entries contents → after.Holds contents := by
    intro contents represents
    unfold TenMap.Holds
    rw [alike.keyBytes]
    exact represents
  cases outcome with
  | overwritten present entries =>
      apply asBefore
      rw [if_pos rfl]
      refine Represents.congr (holds.overwrite ?_) (fun entry => entries.mem_iff)
      intro k v
      constructor
      · intro found
        rcases found with ⟨entry, member, rfl, rfl⟩
        rcases List.mem_map.mp member with ⟨old, oldMember, rfl⟩
        split
        · rename_i same
          exact .inl ⟨same, rfl⟩
        · rename_i apart
          exact .inr ⟨apart, old, oldMember, rfl, rfl⟩
      · intro bound
        rcases bound with ⟨rfl, rfl⟩ | ⟨apart, old, oldMember, rfl, rfl⟩
        · rcases present with ⟨old, oldMember, same⟩
          refine ⟨_, List.mem_map_of_mem oldMember, ?_⟩
          rw [if_pos same]
          exact ⟨same, rfl⟩
        · refine ⟨_, List.mem_map_of_mem oldMember, ?_⟩
          rw [if_neg apart]
          exact ⟨rfl, rfl⟩
  | inserted absent entries =>
      apply asBefore
      rw [if_pos rfl]
      have bound : Represents (fun entry : MapEntry K V => map.keyBytes entry.key) MapEntry.value
          ({ hash := tenMapHash map key, key, value } :: map.entries)
          (contents.insert (map.keyBytes key) value) := holds.insert_new absent
      exact bound.congr (fun entry => entries.mem_iff)
  | refused absent shortage entries =>
      apply asBefore
      rw [if_neg (by decide)]
      exact Represents.congr holds (fun entry => entries.mem_iff)

/-- `ten__map_rehash` to at least as many buckets. -/
theorem tenMapRehash_spec {map : TenMap K V} (valid : map.Valid) {newBucketCount : Nat}
    (grows : map.bucketCount ≤ newBucketCount) :
    Returns (tenMapRehash map newBucketCount) grants world (fun reply after =>
      world.requests ≤ after.requests ∧
        ((reply.1 = .ok ∧ reply.2.Valid ∧ reply.2.Alike map ∧
            reply.2.entries.Perm map.entries ∧ reply.2.count = map.count ∧
            reply.2.bucketCount = newBucketCount) ∨
          (reply = (.outOfMemory, map) ∧ ¬ Ample grants))) := by
  obtain ⟨stillValid, moved⟩ := valid.rehashed grows
  simp only [tenMapRehash, returns_bind, returns_tenCalloc, returns_tenMalloc]
  constructor
  · intro granted
    rw [returns_pure]
    exact ⟨Nat.le_succ _, .inl ⟨rfl, stillValid, ⟨rfl, rfl⟩, moved, rfl, rfl⟩⟩
  · intro refused
    rw [returns_pure]
    exact ⟨Nat.le_succ _, .inr ⟨rfl, not_ample_of_refused refused⟩⟩

/-- The allocations and the linking at the end of `ten_map_set`. -/
theorem tenMapSetNew_spec {map : TenMap K V} (valid : map.Valid) {key : K} (value : V)
    (absent : ∀ entry ∈ map.entries, map.keyBytes entry.key ≠ map.keyBytes key)
    (room : map.count + 1 ≤ map.bucketCount * 3 / 4) :
    Returns (tenMapSetNew map key value) grants world (SetPost grants world map key value) := by
  obtain ⟨linkedValid, grown⟩ := valid.linked value absent room
  have refusedPost : ∀ {request : Nat} {after : World}, grants request = false →
      world.requests ≤ after.requests → after.lastError = .outOfMemory →
      SetPost grants world map key value (.outOfMemory, map) after := by
    intro request after refused requests lastError
    exact ⟨valid, ⟨rfl, rfl⟩, requests, lastError,
      .refused absent (not_ample_of_refused refused) (List.Perm.refl _)⟩
  simp only [tenMapSetNew, returns_bind, returns_tenMalloc]
  constructor
  · intro entryGranted
    constructor
    · intro keyGranted
      constructor
      · intro valueGranted
        simp only [returns_tenSetError, returns_pure]
        refine ⟨linkedValid, ⟨rfl, rfl⟩, ?_, rfl, .inserted absent grown⟩
        simp only [World.granted_requests]
        omega
      · intro valueRefused
        rw [returns_pure]
        apply refusedPost valueRefused _ rfl
        simp only [World.granted_requests, World.refused_requests]
        omega
    · intro keyRefused
      rw [returns_pure]
      apply refusedPost keyRefused _ rfl
      simp only [World.granted_requests, World.refused_requests]
      omega
  · intro entryRefused
    rw [returns_pure]
    exact refusedPost entryRefused (Nat.le_succ _) rfl

/-- `ten_map_set`. -/
theorem tenMapSet_spec {map : TenMap K V} (valid : map.Valid) (key : K) (value : V) :
    Returns (tenMapSet map (some key) (some value)) grants world
      (SetPost grants world map key value) := by
  simp only [tenMapSet]
  cases found : tenMapFind map key with
  | some entry =>
      obtain ⟨overwrittenValid, changed⟩ := valid.overwritten key value
      simp only [returns_bind, returns_tenSetError, returns_pure]
      refine ⟨overwrittenValid, ⟨rfl, rfl⟩, Nat.le_refl _, rfl, ?_⟩
      exact .overwritten ⟨entry, valid.find_eq_some found⟩ changed
  | none =>
      have absent := valid.find_eq_none found
      apply returns_ite
      · intro full
        rw [returns_bind]
        apply (tenMapRehash_spec valid (Nat.le_mul_of_pos_right _ (by decide))).mono
        intro reply after rehash
        obtain ⟨rc, rehashed⟩ := reply
        obtain ⟨requests, outcome⟩ := rehash
        rcases outcome with ⟨rfl, rehashedValid, alike, moved, count, bucketCount⟩ | ⟨same, shortage⟩
        · change rehashed.Alike map at alike
          have stillAbsent : ∀ entry ∈ rehashed.entries,
              rehashed.keyBytes entry.key ≠ rehashed.keyBytes key := by
            intro entry member
            rw [alike.keyBytes]
            exact absent entry (moved.mem_iff.mp member)
          have room : rehashed.count + 1 ≤ rehashed.bucketCount * 3 / 4 := by
            have positive := valid.bucketCount_pos
            have load := valid.load
            change rehashed.count = _ at count
            change rehashed.bucketCount = _ at bucketCount
            rw [count, bucketCount]
            omega
          simp only [ne_eq, not_true_eq_false, if_false]
          apply (tenMapSetNew_spec rehashedValid value stillAbsent room).mono
          intro reply last post
          refine ⟨post.valid, ⟨post.alike.keyType.trans alike.keyType,
            post.alike.keySize.trans alike.keySize⟩, requests.trans post.requests,
            post.lastError, ?_⟩
          have sameHash : tenMapHash rehashed key = tenMapHash map key := by
            rw [TenMap.hash_eq, TenMap.hash_eq, alike.keyBytes]
          obtain ⟨rc, final⟩ := reply
          rcases post.outcome with ⟨present, -⟩ | ⟨-, entries⟩ | ⟨-, shortage, entries⟩
          · obtain ⟨entry, member, same⟩ := present
            exact absurd same (stillAbsent entry member)
          · rw [sameHash] at entries
            exact .inserted absent (entries.trans (moved.cons _))
          · exact .refused absent shortage (entries.trans moved)
        · cases same
          simp only [ne_eq, reduceCtorEq, not_false_eq_true, if_true, returns_bind,
            returns_tenSetError, returns_pure]
          exact ⟨valid, ⟨rfl, rfl⟩, requests, rfl, .refused absent shortage (List.Perm.refl _)⟩
      · intro roomy
        exact tenMapSetNew_spec valid value absent (Nat.le_of_not_gt roomy)

/-- `ten_map_create`. -/
theorem tenMapCreate_spec (keyType valueType : TenType) (keyAccepted : keyType ≠ .void)
    (valueAccepted : valueType ≠ .void) :
    Returns (tenMapCreate (K := K) (V := V) keyType valueType) grants world (fun reply after =>
      world.requests ≤ after.requests ∧
        ((reply = none ∧ ¬ Ample grants ∧ after.lastError = .outOfMemory) ∨
          ∃ map, reply = some map ∧ map.Valid ∧ map.entries = [] ∧ map.keyType = keyType ∧
            map.keySize = tenTypeSize keyType ∧ map.bucketCount = tenMapInitialBuckets ∧
            after.lastError = .ok)) := by
  have accepted : ¬ (tenTypeSize keyType = 0 ∨ tenTypeSize valueType = 0) := by
    rw [tenTypeSize_eq_zero_iff, tenTypeSize_eq_zero_iff, not_or]
    exact ⟨keyAccepted, valueAccepted⟩
  simp only [tenMapCreate, if_neg accepted, returns_bind, returns_tenMalloc]
  constructor
  · intro mapGranted
    simp only [returns_bind, returns_tenCalloc, returns_tenMalloc]
    constructor
    · intro bucketsGranted
      simp only [returns_tenSetError, returns_pure]
      have none : (List.replicate tenMapInitialBuckets ([] : List (MapEntry K V))).flatten = [] := by
        simp
      refine ⟨by simp only [World.granted_requests]; omega, .inr ⟨_, rfl, ?_, none, rfl, rfl, rfl, trivial⟩⟩
      constructor
      · exact Nat.succ_pos _
      · exact List.length_replicate
      · exact placed_replicate _
      · intro entry member
        rw [TenMap.entries, none] at member
        cases member
      · rw [TenMap.entries, none]
        exact List.nodup_nil
      · rw [TenMap.entries, none]
        rfl
      · exact Nat.zero_le _
    · intro bucketsRefused
      rw [returns_pure]
      refine ⟨?_, .inl ⟨rfl, not_ample_of_refused bucketsRefused, rfl⟩⟩
      simp only [World.granted_requests, World.refused_requests]
      omega
  · intro mapRefused
    rw [returns_pure]
    exact ⟨Nat.le_succ _, .inl ⟨rfl, not_ample_of_refused mapRefused, rfl⟩⟩

/-- What `ten_map_remove` does with a key. -/
inductive RemoveOutcome (map : TenMap K V) (key : K) : TenErrorCode → TenMap K V → Prop where
  | removed {after : TenMap K V}
      (present : ∃ entry ∈ map.entries, map.keyBytes entry.key = map.keyBytes key)
      (entries : after.entries.Perm
        (map.entries.filter fun entry => map.keyBytes entry.key ≠ map.keyBytes key)) :
      RemoveOutcome map key .ok after
  | missing (absent : ∀ entry ∈ map.entries, map.keyBytes entry.key ≠ map.keyBytes key) :
      RemoveOutcome map key .notFound map

/-- The finite map after `ten_map_remove`. -/
theorem RemoveOutcome.holds {map after : TenMap K V} {key : K} {rc : TenErrorCode}
    {contents : Finmap fun _ : Bytes => V} (outcome : RemoveOutcome map key rc after)
    (alike : after.Alike map) (holds : map.Holds contents) :
    after.Holds (contents.erase (map.keyBytes key)) := by
  unfold TenMap.Holds
  rw [alike.keyBytes]
  cases outcome with
  | removed present entries =>
      apply Represents.erase holds
      intro entry
      rw [entries.mem_iff, List.mem_filter, decide_eq_true_iff]
  | missing absent =>
      apply Represents.erase holds
      intro entry
      exact (and_iff_left_of_imp (absent entry)).symm

/-- `ten_map_remove`. -/
theorem tenMapRemove_spec {map : TenMap K V} (valid : map.Valid) (key : K) :
    Returns (tenMapRemove map (some key)) grants world (fun reply after =>
      reply.2.Valid ∧ reply.2.Alike map ∧ RemoveOutcome map key reply.1 reply.2 ∧
        after = { world with lastError := reply.1 }) := by
  unfold tenMapRemove
  rcases valid.unlinked key with ⟨missing, absent⟩ | ⟨chain, found, present, removedValid, left⟩
  · simp only [missing, returns_bind, returns_tenSetError, returns_pure]
    exact ⟨valid, ⟨rfl, rfl⟩, .missing absent, trivial⟩
  · simp only [found, returns_bind, returns_tenSetError, returns_pure]
    exact ⟨removedValid, ⟨rfl, rfl⟩, .removed present left, trivial⟩

/-- `ten_map_get` is the lookup of the table. -/
theorem tenMapGet_eq_find (map : TenMap K V) (key : K) :
    Returns (tenMapGet map (some key)) grants world (fun reply after =>
      reply = (tenMapFind map key).map MapEntry.value ∧
        after = { world with lastError := if reply = none then .notFound else .ok }) := by
  simp only [tenMapGet]
  cases tenMapFind map key with
  | none =>
      simp only [returns_bind, returns_tenSetError, returns_pure]
      exact ⟨rfl, rfl⟩
  | some entry =>
      simp only [returns_bind, returns_tenSetError, returns_pure]
      exact ⟨rfl, rfl⟩

/-- `ten_map_get` reads the represented map. -/
theorem tenMapGet_spec {map : TenMap K V} (valid : map.Valid)
    {contents : Finmap fun _ : Bytes => V} (holds : map.Holds contents) (key : K) :
    Returns (tenMapGet map (some key)) grants world (fun reply after =>
      reply = contents.lookup (map.keyBytes key) ∧
        after = { world with lastError := if reply = none then .notFound else .ok }) := by
  apply (tenMapGet_eq_find map key).mono
  intro reply after post
  exact ⟨post.1.trans (valid.find_map_value holds key), post.2⟩

/-- `ten_map_count` counts the keys of the represented map. -/
theorem TenMap.Valid.count_eq_card {map : TenMap K V} (valid : map.Valid)
    {contents : Finmap fun _ : Bytes => V} (holds : map.Holds contents) :
    map.count = contents.keys.card := by
  rw [holds.card_keys valid.distinct, valid.counted]

end Calls

end Dotten
