/-
Module: Dotten.Json.JsonLayout
Layer: Json
Purpose: How the keys of an object lie in its map, and when `ten_json_destroy`
  meets them in an order in which it reads no freed key: the walk along a chain
  must lead to the newer of two keys of one hash first, which rehashing undoes.
Imports: Dotten.Json.JsonView, Dotten.Containers.TenMapOrder,
  Dotten.Library.Backwards
Main exports: Layout, layoutOf, Layout.InStep, KeysInStep, Steady, Steady.inStep,
  JsonObject.LaidOut, JsonObject.Regular, JsonObject.Valid.inStep_iff,
  tenJsonObjectSetOwned_layout, JsonTree.Releasable, JsonNode.Regular,
  JsonNode.Regular.releasable_iff, JsonTree.ReplacesCleanly
-/
import Dotten.Json.JsonView
import Dotten.Containers.TenMapOrder
import Dotten.Library.Backwards

namespace Dotten

open Dotten.Library
open Dotten.Library.BucketTable

/-- How the keys of an object lie in its map: the number of buckets, and the keys
in an order in which the walks along the chains meet them. -/
structure Layout where
  bucketCount : Nat
  order : List Bytes
deriving DecidableEq, Repr

namespace Layout

/-- The next new key makes the map grow first. -/
def Full (layout : Layout) : Prop := layout.order.length + 1 > layout.bucketCount * 3 / 4

instance (layout : Layout) : Decidable layout.Full := inferInstanceAs (Decidable (_ > _))

/-- Rehashing doubles the buckets and turns the chains round. -/
def turned (layout : Layout) : Layout where
  bucketCount := layout.bucketCount * 2
  order := layout.order.reverse

/-- A new key is linked in at the head of its chain. -/
def link (layout : Layout) (key : Bytes) : Layout := { layout with order := key :: layout.order }

/-- A new key, entered with all the memory it takes. -/
def enter (layout : Layout) (key : Bytes) : Layout :=
  if layout.Full then layout.turned.link key else layout.link key

/-- The keys of one hash, as a walk meets them. -/
def keysOf (layout : Layout) (h : UInt64) : List Bytes :=
  layout.order.filter fun key => tenFnv1a key = h

/-- Of the keys of one hash, in the order in which they were entered, the walks
meet the newer first. -/
def InStep (layout : Layout) (keys : List Bytes) : Prop :=
  ∀ h, layout.keysOf h = (keys.filter fun key => tenFnv1a key = h).reverse

end Layout

/-- The layout of an object whose keys were entered one after the other. -/
def layoutOf (keys : List Bytes) : Layout := keys.foldl Layout.enter ⟨tenMapInitialBuckets, []⟩

/-- An object with these keys is destroyed without reading a key that is freed. -/
def KeysInStep (keys : List Bytes) : Prop := (layoutOf keys).InStep keys

/-- Whenever the map of an object with these keys grows, the keys that it holds then
have different hashes. -/
def Steady (keys : List Bytes) : Prop :=
  ∀ doublings, 12 * 2 ^ doublings < keys.length →
    ((keys.take (12 * 2 ^ doublings)).map tenFnv1a).Nodup

section Layouts

theorem layoutOf_append_singleton (keys : List Bytes) (key : Bytes) :
    layoutOf (keys ++ [key]) = (layoutOf keys).enter key := by
  rw [layoutOf, List.foldl_append]
  rfl

theorem Layout.enter_perm (layout : Layout) (key : Bytes) :
    (layout.enter key).order.Perm (key :: layout.order) := by
  unfold enter
  split
  · exact (List.reverse_perm _).cons key
  · exact List.Perm.refl _

theorem layoutOf_perm (keys : List Bytes) : (layoutOf keys).order.Perm keys := by
  induction keys using List.reverseRecOn with
  | nil => exact List.Perm.refl _
  | append_singleton keys key inductionHypothesis =>
      rw [layoutOf_append_singleton]
      exact ((Layout.enter_perm _ key).trans (inductionHypothesis.cons key)).trans
        (List.perm_append_singleton _ _).symm

theorem length_layoutOf (keys : List Bytes) : (layoutOf keys).order.length = keys.length :=
  (layoutOf_perm keys).length_eq

/-- The buckets have been doubled as often as the keys made it necessary. -/
theorem bucketCount_layoutOf (keys : List Bytes) : ∃ doublings,
    (layoutOf keys).bucketCount = 16 * 2 ^ doublings ∧ keys.length ≤ 12 * 2 ^ doublings ∧
      (doublings = 0 ∨ 12 * 2 ^ doublings < 2 * keys.length) := by
  induction keys using List.reverseRecOn with
  | nil => exact ⟨0, rfl, Nat.zero_le _, .inl rfl⟩
  | append_singleton keys key inductionHypothesis =>
      obtain ⟨doublings, buckets, fits, needed⟩ := inductionHypothesis
      rw [layoutOf_append_singleton, List.length_append, List.length_singleton]
      unfold Layout.enter
      by_cases full : (layoutOf keys).Full
      · rw [if_pos full]
        unfold Layout.Full at full
        rw [length_layoutOf, buckets] at full
        refine ⟨doublings + 1, ?_, ?_, .inr ?_⟩
        · change (layoutOf keys).bucketCount * 2 = _
          rw [buckets, Nat.pow_succ, Nat.mul_assoc]
        · rw [Nat.pow_succ]
          have positive : 0 < 2 ^ doublings := Nat.two_pow_pos doublings
          omega
        · rw [Nat.pow_succ]
          omega
      · rw [if_neg full]
        unfold Layout.Full at full
        rw [length_layoutOf, buckets] at full
        exact ⟨doublings, buckets, by omega, by omega⟩

/-- The map is full when it holds three quarters of its buckets. -/
theorem full_layoutOf_iff (keys : List Bytes) :
    (layoutOf keys).Full ↔ ∃ doublings, keys.length = 12 * 2 ^ doublings := by
  obtain ⟨doublings, buckets, fits, needed⟩ := bucketCount_layoutOf keys
  have positive : 0 < 2 ^ doublings := Nat.two_pow_pos doublings
  unfold Layout.Full
  rw [length_layoutOf, buckets]
  constructor
  · intro full
    exact ⟨doublings, by omega⟩
  · rintro ⟨others, length⟩
    rw [length] at fits needed ⊢
    have upTo : others ≤ doublings := (Nat.pow_le_pow_iff_right Nat.one_lt_two).mp (by omega)
    have fromThere : doublings ≤ others := by
      rcases needed with rfl | needed
      · exact Nat.zero_le _
      · have less : 2 ^ doublings < 2 ^ (others + 1) := by
          rw [Nat.pow_succ]
          omega
        exact Nat.lt_succ_iff.mp ((Nat.pow_lt_pow_iff_right Nat.one_lt_two).mp less)
    have same : doublings = others := Nat.le_antisymm fromThere upTo
    subst same
    omega

theorem steady_nil : Steady [] :=
  fun _ below => absurd below (Nat.not_lt_zero _)

theorem Steady.of_append {keys more : List Bytes} (steady : Steady (keys ++ more)) :
    Steady keys := by
  intro doublings below
  have longer := steady doublings (by rw [List.length_append]; omega)
  rw [List.take_append_of_le_length (Nat.le_of_lt below)] at longer
  exact longer

/-- Keys of different hashes do not care about the order. -/
theorem reverse_filter_of_nodup {keys : List Bytes} (apart : (keys.map tenFnv1a).Nodup)
    (h : UInt64) :
    (keys.filter fun key => tenFnv1a key = h).reverse =
      keys.filter fun key => tenFnv1a key = h := by
  have single : (keys.filter fun key => tenFnv1a key = h).length ≤ 1 := by
    have sub : ((keys.filter fun key => tenFnv1a key = h).map tenFnv1a).Nodup :=
      apart.sublist (List.filter_sublist.map _)
    have same : (keys.filter fun key => tenFnv1a key = h).map tenFnv1a =
        List.replicate (keys.filter fun key => tenFnv1a key = h).length h := by
      rw [List.eq_replicate_iff]
      refine ⟨List.length_map _, fun b member => ?_⟩
      obtain ⟨key, inside, rfl⟩ := List.mem_map.mp member
      exact of_decide_eq_true (List.mem_filter.mp inside).2
    rw [same, List.nodup_replicate] at sub
    exact sub
  cases listed : keys.filter fun key => tenFnv1a key = h with
  | nil => rfl
  | cons key rest =>
      rw [listed, List.length_cons] at single
      have none : rest = [] := List.eq_nil_of_length_eq_zero (by omega)
      rw [none]
      rfl

theorem Layout.keysOf_turned (layout : Layout) (h : UInt64) :
    layout.turned.keysOf h = (layout.keysOf h).reverse :=
  List.filter_reverse

theorem Layout.InStep.link {layout : Layout} {keys : List Bytes} (inStep : layout.InStep keys)
    (key : Bytes) : (layout.link key).InStep (keys ++ [key]) := by
  intro h
  have before := inStep h
  unfold keysOf at before ⊢
  rw [List.filter_append, List.reverse_append, ← before]
  change List.filter _ (key :: layout.order) = _
  by_cases same : tenFnv1a key = h
  · rw [List.filter_cons_of_pos (by simpa using same), List.filter_cons_of_pos
      (by simpa using same)]
    rfl
  · rw [List.filter_cons_of_neg (by simpa using same), List.filter_cons_of_neg
      (by simpa using same)]
    rfl

/-- Rehashing a map whose keys all have different hashes. -/
theorem Layout.InStep.turned {layout : Layout} {keys : List Bytes} (inStep : layout.InStep keys)
    (apart : (keys.map tenFnv1a).Nodup) : layout.turned.InStep keys := by
  intro h
  rw [keysOf_turned, inStep h, List.reverse_reverse, reverse_filter_of_nodup apart]

/-- The keys that a full map holds when a key is entered into it. -/
theorem Steady.apart_of_full {keys : List Bytes} {key : Bytes} (steady : Steady (keys ++ [key]))
    (full : (layoutOf keys).Full) : (keys.map tenFnv1a).Nodup := by
  obtain ⟨doublings, length⟩ := (full_layoutOf_iff keys).mp full
  have apart := steady doublings (by rw [List.length_append, List.length_singleton]; omega)
  rw [← length, List.take_left] at apart
  exact apart

/-- Every object on the way to these keys is in step. -/
theorem Steady.inStep {keys : List Bytes} (steady : Steady keys) : KeysInStep keys := by
  induction keys using List.reverseRecOn with
  | nil => exact fun _ => rfl
  | append_singleton keys key inductionHypothesis =>
      have before := inductionHypothesis steady.of_append
      unfold KeysInStep at before ⊢
      rw [layoutOf_append_singleton]
      unfold Layout.enter
      by_cases full : (layoutOf keys).Full
      · rw [if_pos full]
        exact (before.turned (steady.apart_of_full full)).link key
      · rw [if_neg full]
        exact before.link key

/-- Steady keys that another key makes unsteady: the map is full, and two of them have
one hash. -/
theorem Steady.collides {keys : List Bytes} {key : Bytes} (steady : Steady keys)
    (unsteady : ¬ Steady (keys ++ [key])) :
    (layoutOf keys).Full ∧ ¬ (keys.map tenFnv1a).Nodup := by
  unfold Steady at unsteady
  push Not at unsteady
  obtain ⟨doublings, below, collide⟩ := unsteady
  rw [List.length_append, List.length_singleton] at below
  have length : keys.length = 12 * 2 ^ doublings := by
    by_contra other
    have shorter : 12 * 2 ^ doublings < keys.length := by omega
    rw [List.take_append_of_le_length (Nat.le_of_lt shorter)] at collide
    exact collide (steady doublings shorter)
  rw [← length, List.take_left] at collide
  exact ⟨(full_layoutOf_iff keys).mpr ⟨doublings, length⟩, collide⟩

/-- A map that is turned with two keys of one hash in it. -/
theorem not_inStep_turned {keys : List Bytes} (distinct : keys.Nodup) (inStep : KeysInStep keys)
    (collide : ¬ (keys.map tenFnv1a).Nodup) : ¬ (layoutOf keys).turned.InStep keys := by
  intro turned
  apply collide
  rw [List.nodup_map_iff_inj_on distinct]
  intro one oneMember two twoMember same
  have palindrome := turned (tenFnv1a one)
  rw [Layout.keysOf_turned, inStep, List.reverse_reverse] at palindrome
  have oneListed : one ∈ keys.filter fun key => tenFnv1a key = tenFnv1a one :=
    List.mem_filter.mpr ⟨oneMember, by simp⟩
  have twoListed : two ∈ keys.filter fun key => tenFnv1a key = tenFnv1a one :=
    List.mem_filter.mpr ⟨twoMember, by simp [same]⟩
  exact eq_of_palindrome (distinct.filter _) palindrome.symm oneListed twoListed

/-- Thirteen keys, one more than the first table of a map holds.  The first two have
the same hash. -/
def collidingKeys : List Bytes :=
  asciiBytes ['6', 'n', 'w', '5', 'Q', 'D', 'O', 'h', 'X', 'f', 'I'] ::
    asciiBytes ['u', 'a', '4', 'j', 'D', 'c', 'U', 'A', 'I', 'f', 'A'] ::
      (asciiBytes ['a', 'b', 'c', 'd', 'e', 'f', 'g', 'h', 'i', 'j', 'k']).map fun b => [b]

example : collidingKeys.length = 13 ∧ ¬ (collidingKeys.map tenFnv1a).Nodup := by decide +kernel

end Layouts

namespace JsonObject

variable {V : Type}

/-- The keys in order. -/
def keys (object : JsonObject V) : List Bytes :=
  object.keyOrder.items.map fun key => key.cstr.bytes

/-- The keys of an object lie in its map as the layout says. -/
structure LaidOut (object : JsonObject V) (layout : Layout) : Prop where
  bucketCount : object.entries.bucketCount = layout.bucketCount
  keysOf : ∀ h, (object.entries.keysOf h).map (fun pointer => pointer.cstr.bytes) =
    layout.keysOf h

/-- The keys of an object lie in its map as if they had been entered one after the
other. -/
def Regular (object : JsonObject V) : Prop := object.LaidOut (layoutOf object.keys)

/-- The strings that the map refers to, in the order of the key list. -/
def pointers (object : JsonObject V) : List CharPtr :=
  object.keyOrder.items.map TenString.pointer

theorem map_pointers (object : JsonObject V) :
    object.pointers.map (fun pointer => pointer.cstr.bytes) = object.keys := by
  rw [pointers, List.map_map]
  rfl

namespace Valid

variable {object : JsonObject V}

theorem nodup_keys (valid : object.Valid) : object.keys.Nodup := by
  have distinct := valid.distinct.map fun _ _ => CString.ext
  rw [List.map_map] at distinct
  exact distinct

theorem nodup_pointers (valid : object.Valid) : object.pointers.Nodup := by
  have distinct := valid.nodup_keys
  rw [← map_pointers] at distinct
  exact distinct.of_map _

theorem hash_eq (valid : object.Valid) (key : CharPtr) :
    tenMapHash object.entries key = tenFnv1a key.cstr.bytes := by
  rw [TenMap.hash_eq, keyBytes_eq valid]

/-- Pointers of an object are told apart by their strings. -/
theorem pointers_inj (valid : object.Valid) {one two : CharPtr} (oneMember : one ∈ object.pointers)
    (twoMember : two ∈ object.pointers) (same : one.cstr.bytes = two.cstr.bytes) : one = two := by
  have distinct := valid.nodup_keys
  rw [← map_pointers] at distinct
  exact List.inj_on_of_nodup_map distinct oneMember twoMember same

/-- The keys of one hash that the walks meet are those of the list. -/
theorem keysOf_perm (valid : object.Valid) (h : UInt64) :
    (object.entries.keysOf h).Perm
      (object.pointers.filter fun pointer => tenFnv1a pointer.cstr.bytes = h) := by
  rw [valid.entries.keysOf_eq]
  refine (valid.keys.filter _).trans (List.Perm.of_eq (List.filter_congr fun pointer _ => ?_))
  rw [valid.hash_eq, decide_eq_decide, UInt64.toNat_inj]

/-- The lookup of the `i`-th key reads no key that has had its turn: those that it
meets first are later in the list. -/
theorem strayReads_eq_zero_iff (valid : object.Valid) {i : Nat} {key : TenString}
    (here : object.keyOrder.items[i]? = some key) {before after : List CharPtr}
    (split : object.entries.keysOf (tenFnv1a key.cstr.bytes) = before ++ key.pointer :: after) :
    object.strayReads i key = 0 ↔
      ∀ other ∈ before, object.pointers.idxOf key.pointer < object.pointers.idxOf other := by
  have located : object.pointers[i]? = some key.pointer := by
    rw [pointers, List.getElem?_map, here]
    rfl
  obtain ⟨below, atIndex⟩ := List.getElem?_eq_some_iff.mp located
  have index : object.pointers.idxOf key.pointer = i := by
    rw [← atIndex]
    exact valid.nodup_pointers.idxOf_getElem i below
  have listed : ∀ other ∈ before ++ key.pointer :: after, other ∈ object.pointers := by
    intro other member
    rw [← split] at member
    exact (List.mem_filter.mp ((valid.keysOf_perm _).mem_iff.mp member)).1
  have distinct : (before ++ key.pointer :: after).Nodup := by
    rw [← split]
    exact (valid.keysOf_perm _).nodup_iff.mpr (valid.nodup_pointers.filter _)
  have others : ∀ other ∈ before, other ≠ key.pointer := by
    intro other member same
    exact (List.nodup_append.mp distinct).2.2 other member _ List.mem_cons_self same
  have hashed : object.entries.keysOf (tenMapHash object.entries key.pointer) =
      before ++ key.pointer :: after := by
    rw [valid.hash_eq]
    exact split
  have compared : tenMapCompared object.entries key.pointer = before ++ [key.pointer] := by
    refine tenMapCompared_eq valid.entries hashed (fun other member same => ?_) rfl
    rw [keyBytes_inj valid] at same
    exact others other member (valid.pointers_inj
      (listed other (List.mem_append_left _ member)) (List.mem_of_getElem? located)
      (congrArg CString.bytes same))
  rw [strayReads, compared, List.countP_eq_zero]
  have freed : ∀ pointer ∈ object.pointers,
      pointer ∈ (object.keyOrder.items.take i).map TenString.pointer ↔
        object.pointers.idxOf pointer < i := by
    intro pointer member
    rw [List.map_take]
    exact List.mem_take_iff_idxOf_lt member
  constructor
  · intro none other member
    have unread := none other (List.mem_append_left _ member)
    rw [decide_eq_true_iff, freed other (listed other (List.mem_append_left _ member))] at unread
    have apart : object.pointers.idxOf other ≠ i := by
      rw [← index]
      intro same
      exact others other member ((List.idxOf_inj
        (listed other (List.mem_append_left _ member))).mp same)
    omega
  · intro later pointer member
    rw [List.mem_append, List.mem_singleton] at member
    rw [decide_eq_true_iff]
    rcases member with inside | rfl
    · rw [freed pointer (listed pointer (List.mem_append_left _ inside))]
      have := later pointer inside
      omega
    · rw [freed _ (List.mem_of_getElem? located)]
      omega

/-- An object is destroyed without reading a freed key when the walks meet the newer
of two keys of one hash first. -/
theorem inStep_iff_keysOf (valid : object.Valid) :
    object.InStep ↔ ∀ h, object.entries.keysOf h =
      (object.pointers.filter fun pointer => tenFnv1a pointer.cstr.bytes = h).reverse := by
  have reversed : ∀ h, object.entries.keysOf h =
      (object.pointers.filter fun pointer => tenFnv1a pointer.cstr.bytes = h).reverse ↔
        (object.entries.keysOf h).Pairwise fun earlier later =>
          object.pointers.idxOf later < object.pointers.idxOf earlier :=
    fun h => eq_reverse_iff_pairwise valid.nodup_pointers List.filter_sublist (valid.keysOf_perm h)
  constructor
  · intro inStep h
    rw [reversed, pairwise_iff_split]
    intro before pointer after split other member
    have inside : pointer ∈ object.entries.keysOf h := by
      rw [split]
      simp
    obtain ⟨listed, sameHash⟩ := List.mem_filter.mp ((valid.keysOf_perm h).mem_iff.mp inside)
    rw [decide_eq_true_iff] at sameHash
    obtain ⟨key, keyMember, rfl⟩ := List.mem_map.mp listed
    obtain ⟨i, below, here⟩ := List.mem_iff_getElem.mp keyMember
    have located : object.keyOrder.items[i]? = some key :=
      List.getElem?_eq_some_iff.mpr ⟨below, here⟩
    have hash : tenFnv1a key.cstr.bytes = h := sameHash
    rw [← hash] at split
    exact (valid.strayReads_eq_zero_iff located split).mp (inStep i key located) other member
  · intro all i key located
    have listed : key.pointer ∈ object.entries.keysOf (tenFnv1a key.cstr.bytes) := by
      rw [(valid.keysOf_perm _).mem_iff, List.mem_filter, decide_eq_true_iff]
      exact ⟨List.mem_map_of_mem (List.mem_of_getElem? located), rfl⟩
    obtain ⟨before, after, split⟩ := List.append_of_mem listed
    rw [valid.strayReads_eq_zero_iff located split]
    exact pairwise_iff_split.mp ((reversed _).mp (all _)) before key.pointer after split

/-- An object that lies in its map as a layout says is in step when the layout is. -/
theorem inStep_iff (valid : object.Valid) {layout : Layout} (laidOut : object.LaidOut layout) :
    object.InStep ↔ layout.InStep object.keys := by
  rw [valid.inStep_iff_keysOf]
  apply forall_congr'
  intro h
  have listed : (object.keys.filter fun key => tenFnv1a key = h).reverse =
      ((object.pointers.filter fun pointer => tenFnv1a pointer.cstr.bytes = h).reverse).map
        fun pointer => pointer.cstr.bytes := by
    rw [List.map_reverse, ← map_pointers, List.filter_map]
    rfl
  rw [listed, ← laidOut.keysOf]
  constructor
  · intro same
    rw [same]
  · apply eq_of_map_eq
    intro one oneMember two twoMember
    have oneListed := (List.mem_filter.mp ((valid.keysOf_perm h).mem_iff.mp oneMember)).1
    have twoListed := (List.mem_filter.mp (List.mem_reverse.mp twoMember)).1
    exact valid.pointers_inj oneListed twoListed

theorem inStep_iff_of_regular (valid : object.Valid) (regular : object.Regular) :
    object.InStep ↔ KeysInStep object.keys :=
  valid.inStep_iff regular

end Valid

end JsonObject

section Setting

variable {D : Type} {grants : Schedule} {world : World} {object : JsonObject (JsonNode D)}

/-- The map is full when its layout is. -/
theorem JsonObject.LaidOut.full_iff (valid : object.Valid) {layout : Layout}
    (laidOut : object.LaidOut layout) (sameLength : layout.order.length = object.keys.length) :
    object.entries.Full ↔ layout.Full := by
  unfold TenMap.Full Layout.Full
  have counted : object.entries.count = object.keys.length := by
    rw [valid.entries.counted, ← List.length_map MapEntry.key, valid.keys.length_eq,
      List.length_map, JsonObject.keys, List.length_map]
  rw [counted, laidOut.bucketCount, sameLength]

theorem JsonObject.LaidOut.unmoved {layout : Layout} (laidOut : object.LaidOut layout)
    {entries : TenMap CharPtr (JsonNode D)} (unmoved : object.entries.Unmoved entries)
    (keyOrder : TenList TenString) : JsonObject.LaidOut { entries, keyOrder } layout :=
  ⟨unmoved.bucketCount.trans laidOut.bucketCount, fun h => by
    rw [unmoved.keysOf h]
    exact laidOut.keysOf h⟩

theorem JsonObject.LaidOut.turned {layout : Layout} (laidOut : object.LaidOut layout)
    {entries : TenMap CharPtr (JsonNode D)} (turned : object.entries.Turned entries)
    (keyOrder : TenList TenString) : JsonObject.LaidOut { entries, keyOrder } layout.turned := by
  refine ⟨?_, fun h => ?_⟩
  · rw [turned.bucketCount, laidOut.bucketCount]
    rfl
  · rw [turned.keysOf h, List.map_reverse, laidOut.keysOf h, Layout.keysOf_turned]

theorem Layout.keysOf_link (layout : Layout) (key : Bytes) (h : UInt64) :
    (layout.link key).keysOf h =
      if tenFnv1a key = h then key :: layout.keysOf h else layout.keysOf h := by
  change List.filter _ (key :: layout.order) = _
  by_cases same : tenFnv1a key = h
  · rw [List.filter_cons_of_pos (by simpa using same), if_pos same]
    rfl
  · rw [List.filter_cons_of_neg (by simpa using same), if_neg same]
    rfl

/-- The entries with a key linked in, and the same without the key again. -/
theorem JsonObject.LaidOut.linked {layout : Layout} {base : TenMap CharPtr (JsonNode D)}
    {keyOrder : TenList TenString}
    (laidOut : JsonObject.LaidOut { entries := base, keyOrder } layout) {key : CharPtr}
    (hash : tenMapHash base key = tenFnv1a key.cstr.bytes)
    {entries : TenMap CharPtr (JsonNode D)} (linked : base.Linked key entries)
    (keyOrder' : TenList TenString) :
    JsonObject.LaidOut { entries, keyOrder := keyOrder' } (layout.link key.cstr.bytes) := by
  refine ⟨linked.bucketCount.trans laidOut.bucketCount, fun h => ?_⟩
  rw [linked.keysOf h, Layout.keysOf_link, hash, ← laidOut.keysOf h]
  split <;> rfl

/-- The keys of the list are those that the map finds. -/
theorem JsonObject.Valid.find_isSome_iff_mem_keys (valid : object.Valid) (key : TenString) :
    (tenMapFind object.entries key.pointer).isSome = true ↔ key.cstr.bytes ∈ object.keys := by
  rw [valid.find_isSome_iff, valid.map_fst_members, JsonObject.keys]
  constructor
  · intro listed
    obtain ⟨other, member, same⟩ := List.mem_map.mp listed
    have sameBytes : other.cstr.bytes = key.cstr.bytes := congrArg CString.bytes same
    exact List.mem_map.mpr ⟨other, member, sameBytes⟩
  · intro listed
    obtain ⟨other, member, same⟩ := List.mem_map.mp listed
    exact List.mem_map.mpr ⟨other, member, CString.ext same⟩

/-- What `ten__json_object_set_owned` may do to the keys of an object and to their
layout. -/
inductive SetLayout (object : JsonObject (JsonNode D)) (key : Bytes) :
    TenErrorCode → JsonObject (JsonNode D) → Prop where
  | replaced {after : JsonObject (JsonNode D)} (present : key ∈ object.keys)
      (keys : after.keys = object.keys) (regular : after.Regular) : SetLayout object key .ok after
  | added {after : JsonObject (JsonNode D)} (absent : key ∉ object.keys)
      (keys : after.keys = object.keys ++ [key]) (regular : after.Regular) :
      SetLayout object key .ok after
  | refused {after : JsonObject (JsonNode D)} (absent : key ∉ object.keys)
      (keys : after.keys = object.keys) (regular : after.Regular) :
      SetLayout object key .outOfMemory after
  /-- The map has grown for a key that it did not get. -/
  | refusedTurned {after : JsonObject (JsonNode D)} (absent : key ∉ object.keys)
      (keys : after.keys = object.keys) (full : (layoutOf object.keys).Full)
      (laidOut : after.LaidOut (layoutOf object.keys).turned) :
      SetLayout object key .outOfMemory after

theorem SetLayout.regular_of_ok {key : Bytes} {code : TenErrorCode}
    {after : JsonObject (JsonNode D)} (set : SetLayout object key code after) (ok : code = .ok) :
    after.Regular := by
  cases set with
  | replaced _ _ regular => exact regular
  | added _ _ regular => exact regular
  | refused _ _ _ => cases ok
  | refusedTurned _ _ _ _ => cases ok

/-- A key that was linked in and leaves the map again. -/
theorem keysOf_linked_removed {base entries : TenMap CharPtr (JsonNode D)} {key : CharPtr}
    (linked : base.Linked key entries) (sameBytes : entries.keyBytes = base.keyBytes)
    (absent : ∀ h, ∀ other ∈ base.keysOf h, base.keyBytes other ≠ base.keyBytes key) (h : UInt64) :
    ((entries.keysOf h).filter fun other => entries.keyBytes other ≠ entries.keyBytes key) =
      base.keysOf h := by
  have kept : ((base.keysOf h).filter fun other => base.keyBytes other ≠ base.keyBytes key) =
      base.keysOf h := by
    rw [List.filter_eq_self]
    intro other member
    simpa using absent h other member
  rw [linked.keysOf h, sameBytes]
  split
  · rw [List.filter_cons_of_neg (by simp), kept]
  · exact kept

/-- The end of an insertion: the key joins the list, or leaves the map again. -/
theorem setOwned_list_layout {base entries : TenMap CharPtr (JsonNode D)} {layout : Layout}
    {keyOrder : TenList TenString} {key : TenString} {post :
      TenErrorCode × JsonObject (JsonNode D) → World → Prop}
    (entriesValid : entries.Valid)
    (laidOut : JsonObject.LaidOut { entries := base, keyOrder } layout)
    (hash : tenMapHash base key.pointer = tenFnv1a key.cstr.bytes)
    (linked : base.Linked key.pointer entries) (sameBytes : entries.keyBytes = base.keyBytes)
    (absent : ∀ h, ∀ other ∈ base.keysOf h, base.keyBytes other ≠ base.keyBytes key.pointer)
    (added : ∀ (keyOrder' : TenList TenString) world, keyOrder'.items = keyOrder.items ++ [key] →
      JsonObject.LaidOut { entries, keyOrder := keyOrder' } (layout.link key.cstr.bytes) →
      post (.ok, { entries, keyOrder := keyOrder' }) world)
    (removed : ∀ (entries' : TenMap CharPtr (JsonNode D)) (keyOrder' : TenList TenString) world,
      keyOrder'.items = keyOrder.items →
      JsonObject.LaidOut { entries := entries', keyOrder := keyOrder' } layout →
      post (.outOfMemory, { entries := entries', keyOrder := keyOrder' }) world) :
    Returns (do
        let (rc, keyOrder) ← tenListAdd keyOrder key
        if rc ≠ .ok then
          let (_, entries) ← tenMapRemove entries (some key.pointer)
          return (.outOfMemory, { entries, keyOrder })
        else
          tenSetError .ok
          return (.ok, { entries, keyOrder }))
      grants world post := by
  rw [returns_bind]
  apply (tenListAdd_spec keyOrder key).mono
  intro reply after asked
  obtain ⟨rc, keyOrder'⟩ := reply
  obtain ⟨-, -, outcome⟩ := asked
  cases outcome with
  | added items =>
      simp only [ne_eq, not_true_eq_false, if_false, returns_bind, returns_tenSetError,
        returns_pure]
      exact added keyOrder' _ items (laidOut.linked hash linked keyOrder')
  | refused shortage =>
      simp only [ne_eq, reduceCtorEq, not_false_eq_true, if_true, returns_bind]
      apply (tenMapRemove_order entriesValid key.pointer).mono
      rintro ⟨rc, left⟩ last ⟨buckets, keysOf⟩
      rw [returns_pure]
      refine removed left _ last rfl ⟨?_, fun h => ?_⟩
      · exact (buckets.trans linked.bucketCount).trans laidOut.bucketCount
      · change List.map _ (left.keysOf h) = _
        rw [keysOf h, keysOf_linked_removed linked sameBytes absent]
        exact laidOut.keysOf h

/-- Setting a key that is new, once its entry has been made or refused. -/
theorem setOwned_new_layout (valid : object.Valid) (regular : object.Regular) {key : TenString}
    {value : JsonNode D} (absent : key.cstr.bytes ∉ object.keys)
    (found : tenMapFind object.entries key.pointer = none) {code : TenErrorCode}
    {entries : TenMap CharPtr (JsonNode D)} {between after : World}
    (set : SetPost grants between object.entries key.pointer value (code, entries) after)
    (order : SetOrder object.entries key.pointer code entries) :
    Returns (do
        if code ≠ .ok then
          return (.outOfMemory, { object with entries })
        else
          let (rc, keyOrder) ← tenListAdd object.keyOrder key
          if rc ≠ .ok then
            let (_, entries) ← tenMapRemove entries (some key.pointer)
            return (.outOfMemory, { entries, keyOrder })
          else
            tenSetError .ok
            return (.ok, { entries, keyOrder }))
      grants after (fun reply _ => SetLayout object key.cstr.bytes reply.1 reply.2) := by
  have hash := valid.hash_eq key.pointer
  have full := regular.full_iff valid (length_layoutOf _)
  have newKey : ∀ h, ∀ other ∈ object.entries.keysOf h,
      object.entries.keyBytes other ≠ object.entries.keyBytes key.pointer := by
    intro h other member
    rw [valid.entries.keysOf_eq] at member
    obtain ⟨entry, inside, rfl⟩ := List.mem_map.mp (List.mem_filter.mp member).1
    exact valid.entries.find_eq_none found entry inside
  have sameKeys : ∀ {entries : TenMap CharPtr (JsonNode D)} {keyOrder : TenList TenString},
      keyOrder.items = object.keyOrder.items →
        JsonObject.keys { entries, keyOrder } = object.keys := by
    intro entries keyOrder same
    rw [JsonObject.keys, same]
    rfl
  have moreKeys : ∀ {entries : TenMap CharPtr (JsonNode D)} {keyOrder : TenList TenString},
      keyOrder.items = object.keyOrder.items ++ [key] →
        JsonObject.keys { entries, keyOrder } = object.keys ++ [key.cstr.bytes] := by
    intro entries keyOrder appended
    rw [JsonObject.keys, appended, List.map_append]
    rfl
  cases order with
  | overwritten present _ => exact absurd present (by rw [found]; simp)
  | inserted _ roomy linked =>
      rw [if_neg (by simp)]
      refine setOwned_list_layout set.valid regular hash linked set.alike.keyBytes newKey
        (fun keyOrder' _ items laidOut => ?_) (fun entries' keyOrder' _ items laidOut => ?_)
      · refine .added absent (moreKeys items) ?_
        unfold JsonObject.Regular
        rw [moreKeys items, layoutOf_append_singleton, Layout.enter,
          if_neg fun layoutFull => roomy (full.mpr layoutFull)]
        exact laidOut
      · refine .refused absent (sameKeys items) ?_
        unfold JsonObject.Regular
        rw [sameKeys items]
        exact laidOut
  | @turned grown _ _ alike turned linked =>
      rw [if_neg (by simp)]
      have grownHash : tenMapHash grown key.pointer = tenFnv1a key.cstr.bytes := by
        rw [TenMap.hash_eq, alike.keyBytes, ← TenMap.hash_eq]
        exact hash
      refine setOwned_list_layout set.valid (regular.turned turned object.keyOrder) grownHash linked
        (set.alike.keyBytes.trans alike.keyBytes.symm) (fun h other member => ?_)
        (fun keyOrder' _ items laidOut => ?_) (fun entries' keyOrder' _ items laidOut => ?_)
      · rw [turned.keysOf h, List.mem_reverse] at member
        rw [alike.keyBytes]
        exact newKey h other member
      · refine .added absent (moreKeys items) ?_
        unfold JsonObject.Regular
        rw [moreKeys items, layoutOf_append_singleton, Layout.enter, if_pos (full.mp turned.full)]
        exact laidOut
      · exact .refusedTurned absent (sameKeys items) (full.mp turned.full) laidOut
  | refused _ unmoved =>
      rw [if_pos (by simp), returns_pure]
      exact .refused absent rfl (regular.unmoved unmoved object.keyOrder)
  | refusedTurned _ turned =>
      rw [if_pos (by simp), returns_pure]
      exact .refusedTurned absent rfl (full.mp turned.full)
        (regular.turned turned object.keyOrder)

/-- `ten__json_object_set_owned`: a new key lies where it would in an object whose keys
were all entered one after the other.  A call that fails may leave the map grown. -/
theorem tenJsonObjectSetOwned_layout (valid : object.Valid) (regular : object.Regular)
    (key : TenString) (value : JsonNode D) :
    Returns (tenJsonObjectSetOwned object key value) grants world (fun reply _ =>
      SetLayout object key.cstr.bytes reply.1 reply.2) := by
  simp only [tenJsonObjectSetOwned, returns_bind, returns_tenSetError]
  apply (tenMapGet_eq_find object.entries key.pointer).mono
  rintro slot between ⟨rfl, rfl⟩
  cases found : tenMapFind object.entries key.pointer with
  | some entry =>
      have present : key.cstr.bytes ∈ object.keys := by
        rw [← valid.find_isSome_iff_mem_keys, found]
        rfl
      simp only [Option.map_some, returns_bind]
      apply (tenMapSet_order valid.entries key.pointer value).mono
      rintro ⟨code, entries⟩ after order
      cases order with
      | overwritten _ unmoved =>
          simp only [ne_eq, not_true_eq_false, if_false, returns_bind]
          apply (tenJsonDestroy_spec entry.value).mono
          intro _ last _
          simp only [returns_tenSetError, returns_pure]
          exact .replaced present rfl (regular.unmoved unmoved object.keyOrder)
      | inserted absent _ _ => exact absurd (absent.symm.trans found) (by simp)
      | turned absent _ _ _ => exact absurd (absent.symm.trans found) (by simp)
      | refused absent _ => exact absurd (absent.symm.trans found) (by simp)
      | refusedTurned absent _ => exact absurd (absent.symm.trans found) (by simp)
  | none =>
      have absent : key.cstr.bytes ∉ object.keys := by
        rw [← valid.find_isSome_iff_mem_keys, found]
        simp
      simp only [Option.map_none, returns_bind]
      apply ((tenMapSet_spec valid.entries key.pointer value).and
        (tenMapSet_order valid.entries key.pointer value)).mono
      rintro ⟨code, entries⟩ after ⟨set, order⟩
      exact setOwned_new_layout valid regular absent found set order

/-- An object that has just been created. -/
theorem JsonObject.Valid.regular_of_empty (valid : object.Valid)
    (empty : object.keyOrder.items = [])
    (buckets : object.entries.bucketCount = tenMapInitialBuckets) : object.Regular := by
  have noKeys : object.keys = [] := by
    rw [JsonObject.keys, empty]
    rfl
  have noPointers : object.pointers = [] := by
    rw [JsonObject.pointers, empty]
    rfl
  unfold JsonObject.Regular
  rw [noKeys]
  refine ⟨buckets, fun h => ?_⟩
  have none := valid.keysOf_perm h
  rw [noPointers] at none
  rw [none.eq_nil]
  rfl

end Setting

section Values

/-- A value of which every object can be destroyed without reading a freed key, when
its keys have been entered one after the other. -/
inductive JsonTree.Releasable {ν : Type} : JsonTree ν → Prop where
  | null : Releasable .null
  | boolean (value : Bool) : Releasable (.boolean value)
  | number (value : ν) : Releasable (.number value)
  | string (content : Bytes) : Releasable (.string content)
  | array {elements : List (JsonTree ν)} (each : ∀ tree ∈ elements, Releasable tree) :
      Releasable (.array elements)
  | object {members : List (Bytes × JsonTree ν)} (inStep : KeysInStep (members.map Prod.fst))
      (each : ∀ member ∈ members, Releasable member.2) : Releasable (.object members)

/-- A value of which every object lies in its map as if its keys had been entered one
after the other. -/
inductive JsonNode.Regular {D : Type} : JsonNode D → Prop where
  | null : Regular .null
  | boolean (value : Bool) : Regular (.boolean value)
  | number (value : D) : Regular (.number value)
  | string (value : TenString) : Regular (.string value)
  | array {list : TenList (JsonNode D)} (items : ∀ item ∈ list.items, Regular item) :
      Regular (.array list)
  | object {object : JsonObject (JsonNode D)} (valid : object.Valid) (regular : object.Regular)
      (members : ∀ member ∈ object.members, Regular member.2) : Regular (.object object)

variable {D : Type}

/-- The values that a destruction finds are those of the members. -/
theorem forall_found_iff {object : JsonObject (JsonNode D)} {p : JsonNode D → Prop} :
    (∀ key ∈ object.keyOrder.items, ∀ entry,
      tenMapFind object.entries key.pointer = some entry → p entry.value) ↔
        ∀ member ∈ object.members, p member.2 := by
  constructor
  · intro all member listed
    obtain ⟨key, keyMember, read⟩ := List.mem_filterMap.mp listed
    obtain ⟨entry, found, rfl⟩ := Option.map_eq_some_iff.mp read
    exact all key keyMember entry found
  · intro all key keyMember entry found
    apply all (key.cstr, entry.value)
    refine List.mem_filterMap.mpr ⟨key, keyMember, ?_⟩
    rw [found]
    rfl

/-- The keys of the members as the getters show them. -/
theorem JsonObject.Valid.map_fst_treeMembers {object : JsonObject (JsonNode D)}
    (valid : object.Valid) :
    (object.members.map fun member => (member.1.bytes, member.2.tree)).map Prod.fst =
      object.keys := by
  have keys := congrArg (List.map CString.bytes) valid.map_fst_members
  rw [List.map_map, List.map_map] at keys
  rw [List.map_map]
  exact keys

/-- What the getters show of a value says whether it can be destroyed without reading
a freed key. -/
theorem JsonNode.Regular.releasable_iff {json : JsonNode D} (regular : json.Regular) :
    json.Releasable ↔ json.tree.Releasable := by
  induction regular with
  | null => exact iff_of_true .null .null
  | boolean value => exact iff_of_true (.boolean value) (.boolean value)
  | number value => exact iff_of_true (.number value) (.number value)
  | string value => exact iff_of_true (.string value) (.string _)
  | array items each =>
      rw [JsonNode.tree_array]
      constructor
      · intro releasable
        cases releasable with
        | array released =>
            refine .array fun tree member => ?_
            obtain ⟨item, listed, rfl⟩ := List.mem_map.mp member
            exact (each item listed).mp (released item listed)
      · intro releasable
        cases releasable with
        | array released =>
            exact .array fun item listed =>
              (each item listed).mpr (released _ (List.mem_map_of_mem listed))
  | object valid regular members each =>
      rw [JsonNode.tree_object]
      constructor
      · intro releasable
        cases releasable with
        | object inStep values =>
            refine .object ?_ fun member listed => ?_
            · rw [valid.map_fst_treeMembers]
              exact (valid.inStep_iff_of_regular regular).mp inStep
            · obtain ⟨pair, inside, rfl⟩ := List.mem_map.mp listed
              exact (each pair inside).mp (forall_found_iff.mp values pair inside)
      · intro releasable
        cases releasable with
        | object inStep values =>
            rw [valid.map_fst_treeMembers] at inStep
            refine .object ((valid.inStep_iff_of_regular regular).mpr inStep) ?_
            rw [forall_found_iff]
            intro member inside
            exact (each member inside).mpr (values _ (List.mem_map_of_mem inside))

variable [CDouble D]

/-- Every member that a later member of its key replaces has a value that can be
destroyed without reading a freed key. -/
inductive JsonTree.ReplacesCleanly (D : Type) [CDouble D] : JsonTree Bytes → Prop where
  | null : ReplacesCleanly D .null
  | boolean (value : Bool) : ReplacesCleanly D (.boolean value)
  | number (token : Bytes) : ReplacesCleanly D (.number token)
  | string (content : Bytes) : ReplacesCleanly D (.string content)
  | array {elements : List (JsonTree Bytes)} (each : ∀ tree ∈ elements, ReplacesCleanly D tree) :
      ReplacesCleanly D (.array elements)
  | object {members : List (Bytes × JsonTree Bytes)}
      (each : ∀ member ∈ members, ReplacesCleanly D member.2)
      (replaced : members.Pairwise fun earlier later =>
        earlier.1 = later.1 → (earlier.2.denote (D := D)).Releasable) :
      ReplacesCleanly D (.object members)

/-- The object is read without replacing a value that is not releasable. -/
theorem JsonTree.replacesCleanly_object_iff {members : List (Bytes × JsonTree Bytes)} :
    JsonTree.ReplacesCleanly D (.object members) ↔
      (∀ member ∈ members, member.2.ReplacesCleanly D) ∧
        OrderedMap.Replaced (fun key : Bytes => key) JsonTree.Releasable
          (JsonTree.denoteMembers (D := D) members) [] := by
  rw [OrderedMap.replaced_iff, denoteMembers_eq_map, List.pairwise_map]
  constructor
  · intro cleanly
    cases cleanly with
    | object each replaced => exact ⟨each, by simp [OrderedMap.lookup], replaced⟩
  · rintro ⟨each, -, replaced⟩
    exact .object each replaced

end Values

end Dotten
