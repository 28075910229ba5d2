/-
Module: Dotten.Containers.TenMapOrder
Layer: Containers
Purpose: The order in which `ten__map_find` meets the keys of one hash: a new key
  comes first, rehashing turns the keys of every hash round, and a lookup compares
  the keys up to the one that it finds.
Imports: Dotten.Containers.TenMapCalls
Main exports: TenMap.keysOf, SetOrder, tenMapSet_order, tenMapRemove_order,
  tenMapCompared_eq
-/
import Dotten.Containers.TenMapCalls

namespace Dotten

open Dotten.Library
open Dotten.Library.BucketTable

section Comparing

variable {K V : Type} [KeyCell K]

/-- The keys of one hash, in the order in which a walk along their chain meets
them. -/
def TenMap.keysOf (map : TenMap K V) (h : UInt64) : List K :=
  (ofHash (fun entry => entry.hash.toNat) h.toNat map.buckets).map MapEntry.key

/-- A walk compares the keys of its hash, up to the one that is equal. -/
theorem comparedKeys_eq {map : TenMap K V} {hash : UInt64} {key own : K} {after : List K}
    (equal : tenMapKeyEquals map own key = true) (chain : List (MapEntry K V)) :
    ∀ {before : List K}, (∀ other ∈ before, tenMapKeyEquals map other key = false) →
      (chain.filter fun entry => entry.hash.toNat = hash.toNat).map MapEntry.key =
        before ++ own :: after →
      comparedKeys map hash key chain = before ++ [own] := by
  induction chain with
  | nil =>
      intro before _ split
      have impossible := congrArg List.length split
      simp at impossible
  | cons entry rest inductionHypothesis =>
      intro before apart split
      rw [comparedKeys]
      by_cases same : entry.hash = hash
      · rw [if_pos same]
        rw [List.filter_cons_of_pos (by simp [same]), List.map_cons] at split
        cases before with
        | nil =>
            rw [List.nil_append, List.cons.injEq] at split
            rw [split.1, if_pos equal]
            rfl
        | cons first before =>
            rw [List.cons_append, List.cons.injEq] at split
            have first_apart := apart first List.mem_cons_self
            rw [split.1, first_apart, if_neg (by simp), inductionHypothesis
              (fun other member => apart other (List.mem_cons_of_mem _ member)) split.2]
            rfl
      · have other : ¬ entry.hash.toNat = hash.toNat := fun here => same (UInt64.toNat_inj.mp here)
        rw [if_neg same]
        rw [List.filter_cons_of_neg (by simpa using other)] at split
        exact inductionHypothesis apart split

/-- A lookup compares the keys that it meets before the one it finds, and that
one. -/
theorem tenMapCompared_eq {map : TenMap K V} (valid : map.Valid) {key own : K}
    {before after : List K} (split : map.keysOf (tenMapHash map key) = before ++ own :: after)
    (apart : ∀ other ∈ before, map.keyBytes other ≠ map.keyBytes key)
    (equal : map.keyBytes own = map.keyBytes key) :
    tenMapCompared map key = before ++ [own] := by
  rw [tenMapCompared, valid.chain_eq]
  apply comparedKeys_eq ((TenMap.keyEquals_iff map own key).mpr equal) _ _ split
  intro other member
  rw [Bool.eq_false_iff]
  intro found
  exact apart other member ((TenMap.keyEquals_iff map other key).mp found)

end Comparing

section Order

variable {K V : Type} [KeyCell K]

theorem TenMap.Valid.keysOf_eq {map : TenMap K V} (valid : map.Valid) (h : UInt64) :
    map.keysOf h =
      (map.entries.map MapEntry.key).filter fun key => (tenMapHash map key).toNat = h.toNat := by
  rw [TenMap.keysOf, ofHash_eq_filter valid.placed valid.buckets_pos, List.filter_map]
  congr 1
  apply List.filter_congr
  intro entry member
  rw [Function.comp_apply, valid.hashed entry member]

/-- The next new key makes the table grow first. -/
def TenMap.Full (map : TenMap K V) : Prop := map.count + 1 > map.bucketCount * 3 / 4

/-- Every walk meets the same keys in the same order. -/
structure TenMap.Unmoved (map after : TenMap K V) : Prop where
  bucketCount : after.bucketCount = map.bucketCount
  keysOf : ∀ h, after.keysOf h = map.keysOf h

/-- The table has been rehashed. -/
structure TenMap.Turned (map after : TenMap K V) : Prop where
  full : map.Full
  bucketCount : after.bucketCount = map.bucketCount * 2
  keysOf : ∀ h, after.keysOf h = (map.keysOf h).reverse

/-- A key has been linked in. -/
structure TenMap.Linked (map : TenMap K V) (key : K) (after : TenMap K V) : Prop where
  bucketCount : after.bucketCount = map.bucketCount
  keysOf : ∀ h, after.keysOf h =
    if tenMapHash map key = h then key :: map.keysOf h else map.keysOf h

/-- What `ten_map_set` may do to the order of the keys. -/
inductive SetOrder (map : TenMap K V) (key : K) : TenErrorCode → TenMap K V → Prop where
  | overwritten {after : TenMap K V} (present : (tenMapFind map key).isSome = true)
      (unmoved : map.Unmoved after) : SetOrder map key .ok after
  | inserted {after : TenMap K V} (absent : tenMapFind map key = none) (roomy : ¬ map.Full)
      (linked : map.Linked key after) : SetOrder map key .ok after
  | turned {grown after : TenMap K V} (absent : tenMapFind map key = none)
      (alike : grown.Alike map) (turned : map.Turned grown) (linked : grown.Linked key after) :
      SetOrder map key .ok after
  | refused {after : TenMap K V} (absent : tenMapFind map key = none)
      (unmoved : map.Unmoved after) : SetOrder map key .outOfMemory after
  | refusedTurned {after : TenMap K V} (absent : tenMapFind map key = none)
      (turned : map.Turned after) : SetOrder map key .outOfMemory after

variable {grants : Schedule} {world : World}

/-- The last part of `ten_map_set`: the entry is linked in, or nothing moves. -/
theorem tenMapSetNew_order {map : TenMap K V} (valid : map.Valid) (key : K) (value : V) :
    Returns (tenMapSetNew map key value) grants world (fun reply _ =>
      (reply.1 = .ok ∧ map.Linked key reply.2) ∨ (reply.1 = .outOfMemory ∧ reply.2 = map)) := by
  have linked : map.Linked key
      { map with
        buckets := map.buckets.modify ((tenMapHash map key).toNat % map.bucketCount)
          (({ hash := tenMapHash map key, key, value } : MapEntry K V) :: ·)
        count := map.count + 1 } := by
    refine ⟨rfl, fun h => ?_⟩
    rw [valid.modify_eq_onChain, TenMap.keysOf]
    change List.map _ (ofHash _ _ (link (fun entry : MapEntry K V => entry.hash.toNat)
      { hash := tenMapHash map key, key, value } map.buckets)) = _
    rw [ofHash_link valid.buckets_pos]
    by_cases same : tenMapHash map key = h
    · rw [if_pos same, if_pos (congrArg UInt64.toNat same), List.map_cons]
      rfl
    · rw [if_neg same, if_neg fun here => same (UInt64.toNat_inj.mp here)]
      rfl
  simp only [tenMapSetNew, returns_bind, returns_tenMalloc]
  refine ⟨fun _ => ⟨fun _ => ⟨fun _ => ?_, fun _ => ?_⟩, fun _ => ?_⟩, fun _ => ?_⟩
  · rw [returns_tenSetError, returns_pure]
    exact .inl ⟨rfl, linked⟩
  · rw [returns_pure]
    exact .inr ⟨rfl, rfl⟩
  · rw [returns_pure]
    exact .inr ⟨rfl, rfl⟩
  · rw [returns_pure]
    exact .inr ⟨rfl, rfl⟩

/-- A value that is overwritten moves no key. -/
theorem unmoved_overwritten {map : TenMap K V} (valid : map.Valid) (key : K) (value : V) :
    map.Unmoved
      { map with
        buckets := map.buckets.modify ((tenMapHash map key).toNat % map.bucketCount)
          (overwriteFirst (tenMapMatches map (tenMapHash map key) key) value) } := by
  refine ⟨rfl, fun h => ?_⟩
  have sameKeys : ∀ chain : List (MapEntry K V),
      ((overwriteFirst (tenMapMatches map (tenMapHash map key) key) value chain).filter
        fun entry => entry.hash.toNat = h.toNat).map MapEntry.key =
        (chain.filter fun entry => entry.hash.toNat = h.toNat).map MapEntry.key := by
    intro chain
    induction chain with
    | nil => rfl
    | cons entry rest inductionHypothesis =>
        rw [overwriteFirst]
        by_cases found : tenMapMatches map (tenMapHash map key) key entry = true
        · rw [if_pos found, List.filter_cons, List.filter_cons]
          split <;> rfl
        · rw [if_neg found, List.filter_cons, List.filter_cons]
          split
          · rw [List.map_cons, List.map_cons, inductionHypothesis]
          · exact inductionHypothesis
  rw [valid.modify_eq_onChain, TenMap.keysOf, ofHash, chainAt_onChain valid.buckets_pos]
  split
  · exact sameKeys _
  · rfl

theorem tenMapRehash_order {map : TenMap K V} (valid : map.Valid) (full : map.Full) :
    Returns (tenMapRehash map (map.bucketCount * 2)) grants world (fun reply _ =>
      (reply.1 = .ok ∧ reply.2.Valid ∧ reply.2.Alike map ∧ map.Turned reply.2) ∨
        (reply.1 = .outOfMemory ∧ reply.2 = map ∧ ¬ Ample grants)) := by
  have positive := valid.bucketCount_pos
  simp only [tenMapRehash, returns_bind, returns_tenCalloc, returns_tenMalloc]
  constructor
  · intro _
    rw [returns_pure]
    refine .inl ⟨rfl, (valid.rehashed (by omega)).1, ⟨rfl, rfl⟩, full, rfl, fun h => ?_⟩
    rw [TenMap.keysOf, ofHash_redistribute valid.placed valid.buckets_pos (by omega),
      List.map_reverse]
    rfl
  · intro refused
    rw [returns_pure]
    exact .inr ⟨rfl, rfl, not_ample_of_refused refused⟩

/-- `ten_map_set`. -/
theorem tenMapSet_order {map : TenMap K V} (valid : map.Valid) (key : K) (value : V) :
    Returns (tenMapSet map (some key) (some value)) grants world (fun reply _ =>
      SetOrder map key reply.1 reply.2) := by
  simp only [tenMapSet]
  cases found : tenMapFind map key with
  | some entry =>
      simp only [returns_bind, returns_tenSetError, returns_pure]
      exact .overwritten (by rw [found]; rfl) (unmoved_overwritten valid key value)
  | none =>
      dsimp only
      by_cases full : map.count + 1 > map.bucketCount * 3 / 4
      · rw [if_pos full, returns_bind]
        apply (tenMapRehash_order valid full).mono
        rintro ⟨code, grown⟩ between (⟨rfl, grownValid, alike, turned⟩ | ⟨rfl, rfl, -⟩)
        · simp only [ne_eq, not_true_eq_false, if_false]
          apply (tenMapSetNew_order grownValid key value).mono
          rintro ⟨code, after⟩ last (⟨rfl, linked⟩ | ⟨rfl, rfl⟩)
          · exact .turned found alike turned linked
          · exact .refusedTurned found turned
        · simp only [ne_eq, reduceCtorEq, not_false_eq_true, if_true, returns_bind,
            returns_tenSetError, returns_pure]
          exact .refused found ⟨rfl, fun _ => rfl⟩
      · rw [if_neg full]
        apply (tenMapSetNew_order valid key value).mono
        rintro ⟨code, after⟩ last (⟨rfl, linked⟩ | ⟨rfl, rfl⟩)
        · exact .inserted found full linked
        · exact .refused found ⟨rfl, fun _ => rfl⟩

/-- `ten_map_remove`: the other keys keep their order. -/
theorem tenMapRemove_order {map : TenMap K V} (valid : map.Valid) (key : K) :
    Returns (tenMapRemove map (some key)) grants world (fun reply _ =>
      reply.2.bucketCount = map.bucketCount ∧ ∀ h, reply.2.keysOf h =
        (map.keysOf h).filter fun other => map.keyBytes other ≠ map.keyBytes key) := by
  have unlinked := unlinkFirst_eq (valid.distinct_chain key) (valid.tests_chain key)
  -- the entries of the key, if there are any, are in its chain
  have elsewhere : ∀ h : UInt64, ¬ (tenMapHash map key).toNat % map.buckets.length =
      h.toNat % map.buckets.length →
        (map.keysOf h).filter (fun other => map.keyBytes other ≠ map.keyBytes key) =
          map.keysOf h := by
    intro h apart
    rw [List.filter_eq_self]
    intro other member
    rw [decide_eq_true_iff]
    intro same
    rw [valid.keysOf_eq, List.mem_filter, decide_eq_true_iff] at member
    apply apart
    rw [← member.2, TenMap.hash_eq, TenMap.hash_eq, same]
  by_cases present : map.keyBytes key ∈
      (chainAt map.buckets (tenMapHash map key).toNat).map fun entry => map.keyBytes entry.key
  · rw [if_pos present, ← valid.chain_eq] at unlinked
    simp only [tenMapRemove, unlinked, returns_bind, returns_tenSetError, returns_pure]
    refine ⟨trivial, fun h => ?_⟩
    rw [valid.chain_eq, valid.modify_eq_onChain, TenMap.keysOf, ofHash,
      chainAt_onChain valid.buckets_pos]
    by_cases here : (tenMapHash map key).toNat % map.buckets.length = h.toNat % map.buckets.length
    · have chains : chainAt map.buckets h.toNat =
          chainAt map.buckets (tenMapHash map key).toNat := by
        rw [chainAt, chainAt, here]
      rw [if_pos here, TenMap.keysOf, ofHash, chains, List.filter_map, List.filter_filter,
        List.filter_filter]
      congr 1
      apply List.filter_congr
      intro entry _
      exact Bool.and_comm _ _
    · rw [if_neg here, elsewhere h here]
      rfl
  · rw [if_neg present, ← valid.chain_eq] at unlinked
    simp only [tenMapRemove, unlinked, returns_bind, returns_tenSetError, returns_pure]
    refine ⟨trivial, fun h => ?_⟩
    by_cases here : (tenMapHash map key).toNat % map.buckets.length = h.toNat % map.buckets.length
    · symm
      rw [List.filter_eq_self]
      intro other member
      rw [decide_eq_true_iff]
      intro same
      obtain ⟨entry, inside, rfl⟩ := List.mem_map.mp member
      have chains : chainAt map.buckets h.toNat =
          chainAt map.buckets (tenMapHash map key).toNat := by
        rw [chainAt, chainAt, here]
      rw [ofHash, chains, List.mem_filter] at inside
      exact present (List.mem_map.mpr ⟨entry, inside.1, same⟩)
    · exact (elsewhere h here).symm

end Order

end Dotten
