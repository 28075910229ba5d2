/-
Module: Dotten.Json.JsonPieces
Layer: Json
Purpose: The printer as the list of the pieces that it appends, whichever of
  the appends find no room.
Imports: Dotten.Json.JsonPrinter, Dotten.Containers.TenStringPieces
Main exports: Writes, JsonTree.pieces, JsonTree.render, writes_value,
  printedUnder, tenJsonStringify_eq, tenJsonStringify_render
-/
import Dotten.Json.JsonPrinter
import Dotten.Containers.TenStringPieces

namespace Dotten

open Dotten.Library

section Writing

/-- The emitter appends the pieces one after the other, and makes no other
request. -/
def Writes (emit : Emitter) (pieces : List Bytes) : Prop :=
  ∀ (grants : Schedule) (world : World) (out : TenString),
    Returns (emit out) grants world (fun after last =>
      (last.requests, after) = pieces.foldl (putPiece grants) (world.requests, out))

theorem tenStringPut_spec {grants : Schedule} {world : World} (out : TenString) (piece : Bytes) :
    Returns (tenStringPut out piece) grants world (fun after last =>
      (last.requests, after) = putPiece grants (world.requests, out) piece) := by
  have again : putPiece grants (world.requests, out) (CString.ofMemory (piece ++ [0])).bytes =
      putPiece grants (world.requests, out) piece := by
    unfold putPiece
    rw [CString.ofMemory_append_nul (CString.ofMemory (piece ++ [0])) []]
  simp only [tenStringPut, returns_bind]
  apply (tenStringAppend_putPiece out _).mono
  rintro ⟨code, after⟩ last put
  rw [returns_pure, ← again]
  exact put

theorem writes_put (piece : Bytes) : Writes (fun out => tenStringPut out piece) [piece] :=
  fun _ _ out => tenStringPut_spec out piece

theorem writes_pure : Writes (fun out => pure out) [] := by
  intro grants world out
  rw [returns_pure]
  rfl

theorem Writes.bind {first second : Emitter} {left right : List Bytes}
    (writesFirst : Writes first left) (writesSecond : Writes second right) :
    Writes (fun out => first out >>= second) (left ++ right) := by
  intro grants world out
  rw [returns_bind]
  apply (writesFirst grants world out).mono
  intro middle between written
  apply (writesSecond grants between middle).mono
  intro last after rest
  rw [rest, written, List.foldl_append]

end Writing

section Pieces

/-- The pieces of a string in its quotes. -/
def quotedPieces (s : Bytes) : List Bytes :=
  asciiBytes ['"'] :: (s.map tenJsonEscapeByte ++ [asciiBytes ['"']])

/-- The pieces of several items, with commas between them, and one before the
first when something stands before it. -/
def separatedPieces : Bool → List (List Bytes) → List Bytes
  | _, [] => []
  | later, item :: items =>
      (if later then [asciiBytes [',']] else []) ++ (item ++ separatedPieces true items)

/-- The pieces of a member. -/
def memberPieces (key : Bytes) (pieces : List Bytes) : List Bytes :=
  quotedPieces key ++ asciiBytes [':'] :: pieces

theorem flatten_quotedPieces (s : Bytes) : (quotedPieces s).flatten = quoted s := by
  rw [quotedPieces, quoted, List.flatMap_def, List.flatten_cons, List.flatten_append,
    List.flatten_singleton]
  rfl

theorem flatten_separatedPieces (items : List (List Bytes)) :
    ∀ later, (separatedPieces later items).flatten =
      separated later (items.map List.flatten) := by
  induction items with
  | nil =>
      intro later
      rfl
  | cons item items inductionHypothesis =>
      intro later
      rw [separatedPieces, List.map_cons, separated, List.flatten_append, List.flatten_append,
        inductionHypothesis]
      cases later <;> rfl

theorem flatten_memberPieces (key : Bytes) (pieces : List Bytes) :
    (memberPieces key pieces).flatten = memberText key pieces.flatten := by
  rw [memberPieces, memberText, List.flatten_append, flatten_quotedPieces, List.flatten_cons]
  rfl

variable {D : Type} [CDouble D]

mutual

/-- The pieces that the printer appends for a value. -/
def JsonTree.pieces : JsonTree D → List Bytes
  | .null => [asciiBytes ['n', 'u', 'l', 'l']]
  | .boolean value =>
      [if value then asciiBytes ['t', 'r', 'u', 'e'] else asciiBytes ['f', 'a', 'l', 's', 'e']]
  | .number value => [tenJsonStringifyNumber value]
  | .string content => quotedPieces content
  | .array elements =>
      asciiBytes ['['] :: (separatedPieces false (JsonTree.elementPieces elements) ++
        [asciiBytes [']']])
  | .object members =>
      asciiBytes ['{'] :: (separatedPieces false (JsonTree.membersPieces members) ++
        [asciiBytes ['}']])

def JsonTree.elementPieces : List (JsonTree D) → List (List Bytes)
  | [] => []
  | tree :: rest => tree.pieces :: JsonTree.elementPieces rest

def JsonTree.membersPieces : List (Bytes × JsonTree D) → List (List Bytes)
  | [] => []
  | (key, tree) :: rest => memberPieces key tree.pieces :: JsonTree.membersPieces rest

end

theorem JsonTree.elementPieces_eq_map (elements : List (JsonTree D)) :
    JsonTree.elementPieces elements = elements.map JsonTree.pieces := by
  induction elements with
  | nil => rfl
  | cons tree rest inductionHypothesis =>
      rw [JsonTree.elementPieces, inductionHypothesis, List.map_cons]

theorem JsonTree.membersPieces_eq_map (members : List (Bytes × JsonTree D)) :
    JsonTree.membersPieces members =
      members.map fun member => memberPieces member.1 member.2.pieces := by
  induction members with
  | nil => rfl
  | cons member rest inductionHypothesis =>
      rw [JsonTree.membersPieces, inductionHypothesis, List.map_cons]

/-- The strings and keys of a value hold no NUL, and no object has a key
twice. -/
inductive JsonTree.Proper {ν : Type} : JsonTree ν → Prop where
  | null : Proper .null
  | boolean (value : Bool) : Proper (.boolean value)
  | number (value : ν) : Proper (.number value)
  | string {content : Bytes} (noNul : (0 : Byte) ∉ content) : Proper (.string content)
  | array {elements : List (JsonTree ν)} (each : ∀ tree ∈ elements, Proper tree) :
      Proper (.array elements)
  | object {members : List (Bytes × JsonTree ν)} (distinct : (members.map Prod.fst).Nodup)
      (noNul : ∀ member ∈ members, (0 : Byte) ∉ member.1)
      (each : ∀ member ∈ members, Proper member.2) : Proper (.object members)

/-- The text of a value. -/
def JsonTree.render (tree : JsonTree D) : Bytes := tree.pieces.flatten

theorem JsonTree.render_array (elements : List (JsonTree D)) :
    (JsonTree.array elements).render =
      ascii '[' :: (separated false (elements.map JsonTree.render) ++ [ascii ']']) := by
  rw [JsonTree.render, JsonTree.pieces, JsonTree.elementPieces_eq_map, List.flatten_cons,
    List.flatten_append, flatten_separatedPieces, List.map_map]
  rfl

theorem JsonTree.render_object (members : List (Bytes × JsonTree D)) :
    (JsonTree.object members).render =
      ascii '{' :: (separated false
        (members.map fun member => memberText member.1 member.2.render) ++ [ascii '}']) := by
  rw [JsonTree.render, JsonTree.pieces, JsonTree.membersPieces_eq_map, List.flatten_cons,
    List.flatten_append, flatten_separatedPieces, List.map_map]
  simp only [Function.comp_def, flatten_memberPieces]
  rfl

theorem noNul_quotedPieces {s : Bytes} (noNul : (0 : Byte) ∉ s) :
    ∀ piece ∈ quotedPieces s, (0 : Byte) ∉ piece := by
  intro piece member
  simp only [quotedPieces, List.mem_cons, List.mem_append, List.mem_map, List.not_mem_nil,
    or_false] at member
  rcases member with rfl | ⟨c, listed, rfl⟩ | rfl
  · decide
  · exact noNul_escapeByte c (fun zero => noNul (zero ▸ listed))
  · decide

theorem noNul_separatedPieces {items : List (List Bytes)}
    (noNul : ∀ item ∈ items, ∀ piece ∈ item, (0 : Byte) ∉ piece) :
    ∀ later, ∀ piece ∈ separatedPieces later items, (0 : Byte) ∉ piece := by
  induction items with
  | nil =>
      intro later piece member
      cases member
  | cons item items inductionHypothesis =>
      intro later piece member
      rw [separatedPieces, List.mem_append, List.mem_append] at member
      rcases member with comma | here | behind
      · cases later with
        | false => cases comma
        | true =>
            cases List.mem_singleton.mp comma
            decide
      · exact noNul item List.mem_cons_self piece here
      · exact inductionHypothesis
          (fun other member => noNul other (List.mem_cons_of_mem item member)) true piece behind

/-- The first piece, the pieces of the items, and the last piece. -/
theorem noNul_bracketed {opening closing : Bytes} {items : List (List Bytes)}
    (noNulOpening : (0 : Byte) ∉ opening) (noNulClosing : (0 : Byte) ∉ closing)
    (noNul : ∀ item ∈ items, ∀ piece ∈ item, (0 : Byte) ∉ piece) :
    ∀ piece ∈ opening :: (separatedPieces false items ++ [closing]), (0 : Byte) ∉ piece := by
  intro piece member
  simp only [List.mem_cons, List.mem_append, List.not_mem_nil, or_false] at member
  rcases member with rfl | inside | rfl
  · exact noNulOpening
  · exact noNul_separatedPieces noNul false piece inside
  · exact noNulClosing

theorem noNul_tenJsonStringifyNumber (v : D) : (0 : Byte) ∉ tenJsonStringifyNumber v := by
  rw [tenJsonStringifyNumber]
  split
  · exact fun zero => noNul_formatSigned _ (List.mem_of_mem_take zero)
  · exact fun zero => (CDouble.formatG17 v).noNul (List.mem_of_mem_take zero)

theorem JsonTree.Proper.noNul_pieces {tree : JsonTree D} (proper : tree.Proper) :
    ∀ piece ∈ tree.pieces, (0 : Byte) ∉ piece := by
  induction proper with
  | null =>
      intro piece member
      cases List.mem_singleton.mp member
      decide
  | boolean value =>
      intro piece member
      cases List.mem_singleton.mp member
      cases value <;> decide
  | number value =>
      intro piece member
      cases List.mem_singleton.mp member
      exact noNul_tenJsonStringifyNumber value
  | string noNul => exact noNul_quotedPieces noNul
  | array each noNul =>
      rw [JsonTree.pieces, JsonTree.elementPieces_eq_map]
      apply noNul_bracketed (by decide) (by decide)
      intro item member
      obtain ⟨tree, listed, rfl⟩ := List.mem_map.mp member
      exact noNul tree listed
  | object distinct noNulKeys each noNul =>
      rw [JsonTree.pieces, JsonTree.membersPieces_eq_map]
      apply noNul_bracketed (by decide) (by decide)
      intro item member
      obtain ⟨pair, listed, rfl⟩ := List.mem_map.mp member
      intro piece inside
      rw [memberPieces, List.mem_append, List.mem_cons] at inside
      rcases inside with key | rfl | value
      · exact noNul_quotedPieces (noNulKeys pair listed) piece key
      · decide
      · exact noNul pair listed piece value

/-- A value in good order shows strings and keys without NUL, and distinct
keys. -/
theorem JsonNode.ValidWith.proper {ν : Type} {numbers : ν → Prop} {node : JsonNode ν}
    (valid : node.ValidWith numbers) : node.tree.Proper := by
  induction valid with
  | null => exact .null
  | boolean value => exact .boolean value
  | number allowed => exact .number _
  | string valid =>
      rename_i value
      exact .string value.cstr.noNul
  | array items each =>
      rw [JsonNode.tree_array]
      apply JsonTree.Proper.array
      intro tree member
      obtain ⟨item, listed, rfl⟩ := List.mem_map.mp member
      exact each item listed
  | object valid members each =>
      rename_i object
      rw [JsonNode.tree_object]
      apply JsonTree.Proper.object
      · have keys := valid.distinct_members
        have injective : Function.Injective CString.bytes := fun _ _ same => CString.ext same
        have mapped := keys.map injective
        rw [List.map_map] at mapped ⊢
        exact mapped
      · intro member listed
        obtain ⟨pair, -, rfl⟩ := List.mem_map.mp listed
        exact pair.1.noNul
      · intro member listed
        obtain ⟨pair, inside, rfl⟩ := List.mem_map.mp listed
        exact each pair inside

end Pieces

section Members

/-- Looking the keys up by index, when all are there. -/
theorem getElem?_filterMap {α β : Type} {f : α → Option β} {items : List α}
    (present : ∀ item ∈ items, (f item).isSome = true) :
    ∀ j : Nat, (items.filterMap f)[j]? = (items[j]?).bind f := by
  induction items with
  | nil =>
      intro j
      rfl
  | cons item items inductionHypothesis =>
      intro j
      obtain ⟨result, found⟩ := Option.isSome_iff_exists.mp (present item List.mem_cons_self)
      rw [List.filterMap_cons, found]
      cases j with
      | zero => exact found.symm
      | succ j =>
          exact inductionHypothesis
            (fun other member => present other (List.mem_cons_of_mem item member)) j

/-- The key and the value behind a member. -/
theorem JsonObject.Valid.member_at {V : Type} {object : JsonObject V} (valid : object.Valid)
    {j : Nat} {member : CString × V} (here : object.members[j]? = some member) :
    ∃ key entry, object.keyOrder.items[j]? = some key ∧ key.cstr = member.1 ∧
      tenMapFind object.entries key.pointer = some entry ∧ entry.value = member.2 := by
  rw [JsonObject.members, getElem?_filterMap, Option.bind_eq_some_iff] at here
  · obtain ⟨key, listed, found⟩ := here
    obtain ⟨entry, there, rfl⟩ := Option.map_eq_some_iff.mp found
    exact ⟨key, entry, listed, rfl, there, rfl⟩
  · intro key listed
    obtain ⟨entry, found, -⟩ := valid.find_of_mem listed
    rw [found]
    rfl

end Members

section Values

variable {D : Type} [CDouble D]

theorem writes_chars (s : Bytes) : Writes (tenJsonStringifyChars s) (s.map tenJsonEscapeByte) := by
  induction s with
  | nil => exact writes_pure
  | cons c s inductionHypothesis =>
      exact (writes_put (tenJsonEscapeByte c)).bind inductionHypothesis

theorem writes_escapeString (s : CString) :
    Writes (tenJsonStringifyEscapeString s) (quotedPieces s.bytes) :=
  (writes_put (asciiBytes ['"'])).bind ((writes_chars s.bytes).bind (writes_put _))

theorem writes_comma (i : Nat) :
    Writes (tenJsonStringifyComma i) (if decide (i > 0) then [asciiBytes [',']] else []) := by
  cases i with
  | zero => exact writes_pure
  | succ i => exact writes_put _

/-- The loops over elements and members append the pieces that the items
append. -/
theorem writes_items (fetch : Nat → Ten Emitter) (items : List (List Bytes)) :
    ∀ i, (∀ j pieces, items[j]? = some pieces → ∀ grants world,
        Returns (fetch (i + j)) grants world (fun emit last =>
          last.requests = world.requests ∧ Writes emit pieces)) →
      Writes (tenJsonStringifyItems fetch i items.length)
        (separatedPieces (decide (i > 0)) items) := by
  induction items with
  | nil =>
      intro i _
      exact writes_pure
  | cons pieces items inductionHypothesis =>
      intro i fetched grants world out
      have rest := inductionHypothesis (i + 1) (by
        intro j pieces' found grants world
        have here := fetched (j + 1) pieces' (by rw [List.getElem?_cons_succ]; exact found)
          grants world
        rw [← Nat.add_assoc, Nat.add_right_comm] at here
        exact here)
      rw [decide_eq_true (Nat.succ_pos i)] at rest
      rw [List.length_cons, tenJsonStringifyItems, returns_bind]
      apply (fetched 0 pieces rfl grants world).mono
      rintro emit between ⟨requests, writes⟩
      rw [← requests]
      exact (writes_comma i).bind (writes.bind rest) grants between out

/-- An array is printed as its elements in brackets. -/
theorem writes_array {array : TenList Emitter} {items : List (List Bytes)}
    (count : array.items.length = items.length)
    (each : ∀ (j : Nat) pieces, items[j]? = some pieces →
      ∃ emit, array.items[j]? = some emit ∧ Writes emit pieces) :
    Writes (tenJsonStringifyArray array)
      (asciiBytes ['['] :: (separatedPieces false items ++ [asciiBytes [']']])) := by
  have loop := writes_items (tenJsonFetchElement array) items 0 (by
    intro j pieces found grants world
    obtain ⟨emit, here, writes⟩ := each j pieces found
    rw [← Nat.zero_add j] at here
    rw [tenJsonFetchElement, returns_bind, returns_tenListGet here, returns_pure]
    exact ⟨rfl, writes⟩)
  have whole := (writes_put (asciiBytes ['['])).bind (loop.bind (writes_put (asciiBytes [']'])))
  intro grants world out
  rw [tenJsonStringifyArray, returns_bind, returns_tenListCount, count]
  exact whole grants _ out

/-- An object is printed as its members in braces. -/
theorem writes_object {object : JsonObject Emitter} {items : List (List Bytes)}
    (count : object.keyOrder.items.length = items.length)
    (each : ∀ (j : Nat) pieces, items[j]? = some pieces →
      ∃ key entry value, object.keyOrder.items[j]? = some key ∧
        tenMapFind object.entries key.pointer = some entry ∧ Writes entry.value value ∧
        pieces = memberPieces key.cstr.bytes value) :
    Writes (tenJsonStringifyObject object)
      (asciiBytes ['{'] :: (separatedPieces false items ++ [asciiBytes ['}']])) := by
  have loop := writes_items (tenJsonFetchMember object) items 0 (by
    intro j pieces fetched grants world
    obtain ⟨key, entry, value, here, found, writes, rfl⟩ := each j pieces fetched
    rw [← Nat.zero_add j] at here
    rw [tenJsonFetchMember, returns_bind, returns_tenListGet here, returns_bind,
      returns_tenSetError, returns_bind]
    apply (tenMapGet_eq_find object.entries key.pointer).mono
    intro reply after post
    rw [found] at post
    obtain ⟨rfl, rfl⟩ := post
    rw [Option.map_some, returns_pure]
    exact ⟨rfl, (writes_escapeString key.cstr).bind ((writes_put _).bind writes)⟩)
  have whole := (writes_put (asciiBytes ['{'])).bind (loop.bind (writes_put (asciiBytes ['}'])))
  intro grants world out
  rw [tenJsonStringifyObject, returns_bind, returns_tenListCount, count]
  exact whole grants _ out

/-- The printer appends the pieces of the value: one case for each kind of
value. -/
theorem writes_value {numbers : D → Prop} {node : JsonNode D} (valid : node.ValidWith numbers) :
    Writes (tenJsonStringifyValue node) node.tree.pieces := by
  induction valid with
  | null => exact writes_put _
  | boolean value => exact writes_put _
  | number allowed => exact writes_put _
  | string valid =>
      intro grants world out
      rw [tenJsonStringifyValue, returns_bind, returns_tenSetError]
      exact writes_escapeString _ grants _ out
  | array items each =>
      rename_i list
      rw [tenJsonStringifyValue_array, JsonNode.tree_array, JsonTree.pieces,
        JsonTree.elementPieces_eq_map, List.map_map]
      apply writes_array
      · simp only [List.length_map]
      · intro j pieces found
        simp only [List.getElem?_map, Option.map_eq_some_iff, Function.comp] at found
        obtain ⟨item, here, rfl⟩ := found
        refine ⟨tenJsonStringifyValue item, ?_, each item (List.mem_of_getElem? here)⟩
        rw [List.getElem?_map, here]
        rfl
  | object valid members each =>
      rename_i object
      rw [tenJsonStringifyValue_object, JsonNode.tree_object, JsonTree.pieces,
        JsonTree.membersPieces_eq_map, List.map_map]
      apply writes_object
      · have listed := congrArg List.length valid.map_fst_members
        simp only [List.length_map] at listed ⊢
        exact listed.symm
      · intro j pieces found
        simp only [List.getElem?_map, Option.map_eq_some_iff, Function.comp] at found
        obtain ⟨member, here, rfl⟩ := found
        obtain ⟨key, entry, keyHere, sameKey, entryHere, sameValue⟩ := valid.member_at here
        have printer : tenMapFind (object.entries.mapValues tenJsonStringifyValue) key.pointer =
            some ⟨entry.hash, entry.key, tenJsonStringifyValue entry.value⟩ := by
          rw [tenMapFind_mapValues, entryHere]
          rfl
        refine ⟨key, _, member.2.tree.pieces, keyHere, printer, ?_, ?_⟩
        · rw [sameValue]
          exact each member (List.mem_of_getElem? here)
        · rw [sameKey]

/-- What is printed when the output consists of the given pieces: nothing when
there is no string to start with or no copy of it, and else the string without
the pieces that found no room. -/
def printedUnder (grants : Schedule) (requests : Nat) (pieces : List Bytes) : Option CString :=
  if grants requests = true ∧ grants (requests + 1) = true then
    let last := pieces.foldl (putPiece grants) (requests + 2, emptyString (requests + 1))
    if grants last.1 then some last.2.cstr else none
  else none

/-- `ten_json_stringify` under any schedule. -/
theorem tenJsonStringify_eq {grants : Schedule} {numbers : D → Prop} {json : JsonNode D}
    (valid : json.ValidWith numbers) (world : World) :
    Returns (tenJsonStringify (some json)) grants world (fun reply _ =>
      reply = printedUnder grants world.requests json.tree.pieces) := by
  rw [tenJsonStringify, returns_bind]
  apply tenStringEmpty_eq.mono
  rintro reply between (⟨refused, rfl⟩ | ⟨granted, rfl, requests⟩)
  · rw [returns_pure, printedUnder, if_neg refused]
  rw [returns_bind]
  apply (writes_value valid grants between _).mono
  intro out after written
  rw [requests] at written
  rw [printedUnder, if_pos granted, ← written]
  have whole : out.Valid := by
    have last := @putPieces_valid grants _ valid.proper.noNul_pieces
      (world.requests + 2, emptyString (world.requests + 1)) (emptyString_valid _)
    rw [← written] at last
    exact last
  have copied : CString.ofMemory (out.data.take (out.length + 1)) = out.cstr := by
    have all : out.data.take (out.length + 1) = out.data := by
      apply List.take_of_length_le
      rw [whole.data_eq, whole.length_eq, List.length_append]
      exact Nat.le_refl _
    rw [all]
    rfl
  simp only [tenMemdup, returns_bind, returns_tenMalloc]
  constructor
  · intro copy
    simp only [returns_tenSetError, returns_pure, returns_bind]
    rw [copied, if_pos copy]
  · intro refused
    rw [returns_pure, returns_pure, refused]
    rfl

/-- The text of a value, when no allocation is refused. -/
theorem tenJsonStringify_render {grants : Schedule} (ample : Ample grants) {numbers : D → Prop}
    {json : JsonNode D} (valid : json.ValidWith numbers) (world : World) :
    Returns (tenJsonStringify (some json)) grants world (fun reply _ =>
      ∃ text, reply = some text ∧ text.bytes = json.tree.render) := by
  apply (tenJsonStringify_eq valid world).mono
  rintro reply after rfl
  have bytes := (putPieces_of_granted valid.proper.noNul_pieces
    (emptyString_valid (world.requests + 1))
    (not_growthRefused_of_ample ample _ (world.requests + 2, _))).2
  rw [printedUnder, if_pos ⟨ample _, ample _⟩]
  dsimp only
  rw [if_pos (ample _)]
  exact ⟨_, rfl, bytes⟩

end Values

end Dotten
