/-
Module: Dotten.Json.JsonRoundTrip
Layer: Json
Purpose: What is printed of a value built with the API is parsed to an equal
  value.
Imports: Dotten.Json.JsonDocument, Dotten.Json.JsonParserComplete
Main exports: JsonTree.Same, same_reread, tenJsonStringify_spec, CreateCall,
  Built, tenJson_roundTrip
-/
import Dotten.Json.JsonDocument
import Dotten.Json.JsonParserComplete

namespace Dotten

open Dotten.Library

variable {D : Type} [CDouble D]

/-- Equal values: the same shape, strings and keys, and numbers that C compares
as equal. -/
inductive JsonTree.Same : JsonTree D → JsonTree D → Prop where
  | null : Same .null .null
  | boolean (value : Bool) : Same (.boolean value) (.boolean value)
  | number {left right : D} (equal : CDouble.eq left right = true) :
      Same (.number left) (.number right)
  | string (content : Bytes) : Same (.string content) (.string content)
  | array {left right : List (JsonTree D)} (elements : List.Forall₂ Same left right) :
      Same (.array left) (.array right)
  | object {left right : List (Bytes × JsonTree D)}
      (keys : left.map Prod.fst = right.map Prod.fst)
      (values : List.Forall₂ Same (left.map Prod.snd) (right.map Prod.snd)) :
      Same (.object left) (.object right)

section Printing

variable {grants : Schedule}

/-- A value whose numbers are small integers denotes an equal value when its
numbers are read again. -/
theorem same_reread (exact : ExactIntegers D) {tree : JsonTree D} (proper : tree.Proper)
    (numbers : tree.Numbers IsSmallInteger) : JsonTree.Same tree tree.reread := by
  induction proper with
  | null => exact .null
  | boolean value => exact .boolean value
  | number value =>
      cases numbers with
      | number allowed =>
          obtain ⟨n, small, equal⟩ := allowed
          apply JsonTree.Same.number
          rw [tenJsonStringifyNumber_eq exact small equal,
            exact.strtod_formatSigned (Nat.lt_trans small (by decide))]
          exact equal
  | string noNul => exact .string _
  | array each same =>
      cases numbers with
      | array numbers =>
          rw [reread_array]
          apply JsonTree.Same.array
          rw [List.forall₂_map_right_iff, List.forall₂_same]
          exact fun tree listed => same tree listed (numbers tree listed)
  | object distinct noNul each same =>
      cases numbers with
      | object numbers =>
          rw [reread_object distinct]
          apply JsonTree.Same.object
          · rw [List.map_map]
            rfl
          · rw [List.map_map, List.forall₂_map_left_iff, List.forall₂_map_right_iff,
              List.forall₂_same]
            exact fun member listed => same member listed (numbers member listed)

/-- `ten_json_stringify` writes a JSON text that denotes the value. -/
theorem tenJsonStringify_spec (exact : ExactIntegers D) (ample : Ample grants)
    {json : JsonNode D} (valid : json.ValidWith IsSmallInteger) (world : World) :
    Returns (tenJsonStringify (some json)) grants world (fun reply _ =>
      ∃ (text : CString) (document : JsonTree Bytes), reply = some text ∧
        JsonText Dialect.wellFormed document text.bytes ∧
        JsonTree.Same json.tree document.denote) := by
  have numerals : ∀ value : D, IsSmallInteger value →
      IsJsonNumber (tenJsonStringifyNumber value) := by
    rintro value ⟨n, small, equal⟩
    rw [tenJsonStringifyNumber_eq exact small equal]
    exact isJsonNumber_formatSigned n
  have derives : Derives Dialect.wellFormed (.value json.tree.document) json.tree.render :=
    derives_render (fun s noNul => charsText_escaped noNul) valid.proper
      (valid.numbers.mono numerals)
  apply (tenJsonStringify_render ample valid world).mono
  rintro reply after ⟨text, rfl, bytes⟩
  refine ⟨text, json.tree.document, rfl, ?_, same_reread exact valid.proper valid.numbers⟩
  rw [bytes]
  exact derives.text

/-- What is printed of a value in good order with small integers is parsed to
an equal value. -/
theorem tenJson_roundTrip_of_valid (exact : ExactIntegers D) (ample : Ample grants)
    {json : JsonNode D} (valid : json.ValidWith IsSmallInteger) (world : World) :
    Returns (do
        let text ← tenJsonStringify (some json)
        tenJsonParse (D := D) text) grants world (fun reply after =>
      ∃ parsed, reply = some parsed ∧ JsonTree.Same json.tree parsed.tree ∧
        after.lastError = .ok) := by
  rw [returns_bind]
  apply (tenJsonStringify_spec exact ample valid world).mono
  intro reply between printed
  obtain ⟨text, document, rfl, renders, same⟩ := printed
  apply (tenJsonParse_complete ample text (renders.mono wellFormed_within_accepted) between).mono
  intro reply after parsed
  obtain ⟨json', rfl, -, tree, ok, -⟩ := parsed
  refine ⟨json', rfl, ?_, ok⟩
  rw [tree]
  exact same

end Printing

/-! ### Values built with the API -/

section Building

/-- The calls of json.h that make a value. -/
inductive CreateCall (D : Type) where
  | null
  | boolean (value : Int)
  | number (value : D)
  | string (value : Option CString)
  | array
  | object

/-- The function that is called. -/
def CreateCall.run : CreateCall D → Ten (Option (JsonNode D))
  | .null => tenJsonCreateNull
  | .boolean value => tenJsonCreateBool value
  | .number value => tenJsonCreateNumber value
  | .string value => tenJsonCreateString value
  | .array => tenJsonCreateArray
  | .object => tenJsonCreateObject

/-- The values that a program holds after some calls: those it has made and not
handed over to another value.  The allocator may have refused any request. -/
inductive Built (grants : Schedule) : World → List (JsonNode D) → Prop where
  | start (world : World) : Built grants world []
  | create {world after : World} {held : List (JsonNode D)} {reply : Option (JsonNode D)}
      (built : Built grants world held) (call : CreateCall D)
      (integers : ∀ value, call = .number value → IsSmallInteger value)
      (run : call.run grants world = some (reply, after)) :
      Built grants after (reply.toList ++ held)
  | arrayAdd {world after : World} {held others : List (JsonNode D)} {json value json' : JsonNode D}
      {rc : TenErrorCode} (built : Built grants world held)
      (choice : held.Perm (json :: value :: others))
      (run : tenJsonArrayAdd json (some value) grants world = some ((rc, json'), after)) :
      Built grants after (json' :: if rc = .ok then others else value :: others)
  | objectSet {world after : World} {held others : List (JsonNode D)}
      {json value json' : JsonNode D} {rc : TenErrorCode} (built : Built grants world held)
      (choice : held.Perm (json :: value :: others)) (key : CString)
      (run : tenJsonObjectSet json (some key) (some value) grants world =
        some ((rc, json'), after)) :
      Built grants after (json' :: if rc = .ok then others else value :: others)

variable {grants : Schedule} {world : World}

omit [CDouble D] in
theorem tenJsonCreateString_spec (value : Option CString) :
    Returns (tenJsonCreateString (D := D) value) grants world (fun reply _ =>
      ∀ json ∈ reply, ∃ string : TenString, json = .string string ∧ string.Valid) := by
  cases value with
  | none =>
      simp only [tenJsonCreateString, returns_bind, returns_tenSetError, returns_pure]
      intro json held
      cases held
  | some value =>
      simp only [tenJsonCreateString, returns_bind]
      apply (tenStringCreate_spec value).mono
      intro reply between created
      obtain ⟨-, ⟨rfl, -⟩ | ⟨string, rfl, valid, -⟩⟩ := created
      · rw [returns_pure]
        intro json held
        cases held
      · rw [returns_bind]
        apply (tenJsonAlloc_spec _).mono
        intro reply after made
        rcases made with ⟨rfl, -⟩ | ⟨json, rfl, rfl⟩
        · rw [returns_pure]
          intro json held
          cases held
        · simp only [returns_bind, returns_tenSetError, returns_pure]
          intro json held
          cases held
          exact ⟨string, rfl, valid⟩

/-- What is made is in good order. -/
theorem CreateCall.run_spec (call : CreateCall D)
    (integers : ∀ value, call = .number value → IsSmallInteger value) :
    Returns call.run grants world (fun reply _ =>
      ∀ json ∈ reply, json.ValidWith IsSmallInteger) := by
  have made : ∀ {create : Ten (Option (JsonNode D))} {expected : JsonNode D → Prop},
      Creates grants world expected create →
      (∀ json, expected json → json.ValidWith IsSmallInteger) →
      Returns create grants world (fun reply _ =>
        ∀ json ∈ reply, json.ValidWith IsSmallInteger) := by
    intro create expected creates valid
    apply creates.mono
    intro reply after post json held
    rcases post with ⟨rfl, -⟩ | ⟨node, rfl, isExpected⟩
    · cases held
    · cases held
      exact valid _ isExpected
  cases call with
  | null =>
      apply made tenJsonCreateNull_spec
      rintro json rfl
      exact .null
  | boolean value =>
      apply made (tenJsonCreateBool_spec value)
      rintro json rfl
      exact .boolean _
  | number value =>
      apply made (tenJsonCreateNumber_spec value)
      rintro json rfl
      exact .number (integers value rfl)
  | string value =>
      apply (tenJsonCreateString_spec value).mono
      intro reply after post json held
      obtain ⟨string, rfl, valid⟩ := post json held
      exact .string valid
  | array =>
      apply made tenJsonCreateArray_spec
      rintro json ⟨list, rfl, empty⟩
      apply JsonNode.ValidWith.array
      rw [empty]
      intro item member
      cases member
  | object =>
      apply tenJsonCreateObject_spec.mono
      intro reply after post json held
      obtain ⟨-, ⟨rfl, -⟩ | ⟨object, rfl, valid, empty, -⟩⟩ := post
      · cases held
      · cases held
        apply JsonNode.ValidWith.object valid
        rw [empty]
        intro member listed
        cases listed

omit [CDouble D] in
/-- `ten_json_array_add` keeps good order. -/
theorem tenJsonArrayAdd_valid {numbers : D → Prop} {json value : JsonNode D}
    (jsonValid : json.ValidWith numbers) (valueValid : value.ValidWith numbers) :
    Returns (tenJsonArrayAdd json (some value)) grants world (fun reply _ =>
      reply.2.ValidWith numbers) := by
  cases jsonValid with
  | array items =>
      simp only [tenJsonArrayAdd, returns_bind]
      apply (tenListAdd_spec _ value).mono
      intro reply after post
      obtain ⟨rc, list'⟩ := reply
      obtain ⟨-, -, outcome⟩ := post
      rw [returns_pure]
      apply JsonNode.ValidWith.array
      cases outcome with
      | added same =>
          rw [same]
          intro item member
          rcases List.mem_append.mp member with old | new
          · exact items item old
          · rw [List.mem_singleton.mp new]
            exact valueValid
      | refused shortage => exact items
  | null =>
      simp only [tenJsonArrayAdd, returns_bind, returns_tenSetError, returns_pure]
      exact .null
  | boolean value =>
      simp only [tenJsonArrayAdd, returns_bind, returns_tenSetError, returns_pure]
      exact .boolean value
  | number allowed =>
      simp only [tenJsonArrayAdd, returns_bind, returns_tenSetError, returns_pure]
      exact .number allowed
  | string valid =>
      simp only [tenJsonArrayAdd, returns_bind, returns_tenSetError, returns_pure]
      exact .string valid
  | object valid members =>
      simp only [tenJsonArrayAdd, returns_bind, returns_tenSetError, returns_pure]
      exact .object valid members

omit [CDouble D] in
/-- `ten_json_object_set` keeps good order. -/
theorem tenJsonObjectSet_valid {numbers : D → Prop} {json value : JsonNode D} (key : CString)
    (jsonValid : json.ValidWith numbers) (valueValid : value.ValidWith numbers) :
    Returns (tenJsonObjectSet json (some key) (some value)) grants world (fun reply _ =>
      reply.2.ValidWith numbers) := by
  cases jsonValid with
  | object valid members =>
      simp only [tenJsonObjectSet, returns_bind]
      apply (tenStringCreate_spec key).mono
      intro reply between created
      obtain ⟨-, ⟨rfl, -⟩ | ⟨copy, rfl, copyValid, -⟩⟩ := created
      · rw [returns_pure]
        exact .object valid members
      · rw [returns_bind]
        apply (tenJsonObjectSetOwned_spec valid copyValid value).mono
        intro reply after post
        obtain ⟨rc, object'⟩ := reply
        rw [returns_pure]
        apply JsonNode.ValidWith.object post.valid
        cases post.outcome with
        | done inserted =>
            rw [inserted]
            exact OrderedMap.forall_insert members valueValid
        | refused same shortage =>
            rw [same]
            exact members
  | null =>
      simp only [tenJsonObjectSet, returns_bind, returns_tenSetError, returns_pure]
      exact .null
  | boolean value =>
      simp only [tenJsonObjectSet, returns_bind, returns_tenSetError, returns_pure]
      exact .boolean value
  | number allowed =>
      simp only [tenJsonObjectSet, returns_bind, returns_tenSetError, returns_pure]
      exact .number allowed
  | string valid =>
      simp only [tenJsonObjectSet, returns_bind, returns_tenSetError, returns_pure]
      exact .string valid
  | array items =>
      simp only [tenJsonObjectSet, returns_bind, returns_tenSetError, returns_pure]
      exact .array items

/-- Whatever has been built is in good order: one case for each call. -/
theorem Built.valid {held : List (JsonNode D)} (built : Built grants world held) :
    ∀ json ∈ held, json.ValidWith IsSmallInteger := by
  -- a call on two held values, one of which it may take over
  have updated : ∀ {held others : List (JsonNode D)} {json value json' : JsonNode D}
      {rc : TenErrorCode}, (∀ json ∈ held, json.ValidWith IsSmallInteger) →
      held.Perm (json :: value :: others) → json'.ValidWith IsSmallInteger →
      ∀ node ∈ json' :: (if rc = .ok then others else value :: others),
        node.ValidWith IsSmallInteger := by
    intro held others json value json' rc valid choice newValid node member
    rcases List.mem_cons.mp member with rfl | old
    · exact newValid
    · apply valid node
      rw [choice.mem_iff]
      apply List.mem_cons_of_mem
      split at old
      · exact List.mem_cons_of_mem value old
      · exact old
  induction built with
  | start world =>
      intro json member
      cases member
  | create built call integers run inductionHypothesis =>
      intro json member
      rcases List.mem_append.mp member with made | old
      · exact (call.run_spec integers).eq run json (Option.mem_toList.mp made)
      · exact inductionHypothesis json old
  | arrayAdd built choice run inductionHypothesis =>
      have jsonValid := inductionHypothesis _ (choice.mem_iff.mpr List.mem_cons_self)
      have valueValid := inductionHypothesis _
        (choice.mem_iff.mpr (List.mem_cons_of_mem _ List.mem_cons_self))
      exact updated inductionHypothesis choice
        ((tenJsonArrayAdd_valid jsonValid valueValid).eq run)
  | objectSet built choice key run inductionHypothesis =>
      have jsonValid := inductionHypothesis _ (choice.mem_iff.mpr List.mem_cons_self)
      have valueValid := inductionHypothesis _
        (choice.mem_iff.mpr (List.mem_cons_of_mem _ List.mem_cons_self))
      exact updated inductionHypothesis choice
        ((tenJsonObjectSet_valid key jsonValid valueValid).eq run)

/-- Whatever a program builds with the API, printing it and parsing the text
gives an equal value. -/
theorem tenJson_roundTrip (exact : ExactIntegers D) {building : Schedule} {held : List (JsonNode D)}
    (built : Built building world held) {json : JsonNode D} (member : json ∈ held)
    (grants : Schedule) (ample : Ample grants) (world' : World) :
    Returns (do
        let text ← tenJsonStringify (some json)
        tenJsonParse (D := D) text) grants world' (fun reply after =>
      ∃ parsed, reply = some parsed ∧ JsonTree.Same json.tree parsed.tree ∧
        after.lastError = .ok) :=
  tenJson_roundTrip_of_valid exact ample (built.valid json member) world'

/-- The array `[-5]`, built in three calls. -/
theorem tenJson_roundTrip_array :
    Returns (do
        let text ← tenJsonStringify (some (JsonNode.array
          { type := .pointer, elementSize := 8, items := [.number (-5)], capacity := 4 }))
        tenJsonParse (D := Int) text) (fun _ => true) ⟨0, .ok, 0⟩ (fun reply after =>
      ∃ parsed, reply = some parsed ∧
        JsonTree.Same (.array [.number (-5)]) parsed.tree ∧ after.lastError = .ok) :=
  have makeNumber : (CreateCall.number (-5 : Int)).run (fun _ => true) ⟨0, .ok, 0⟩ =
      some (some (.number (-5)), ⟨1, .ok, 0⟩) := rfl
  have makeArray : (CreateCall.array (D := Int)).run (fun _ => true) ⟨1, .ok, 0⟩ =
      some (some (.array { type := .pointer, elementSize := 8, items := [], capacity := 0 }),
        ⟨3, .ok, 0⟩) := rfl
  have number := Built.create (.start ⟨0, .ok, 0⟩) (.number (-5))
    (fun _ same => ⟨-5, by decide, by cases same; rfl⟩) makeNumber
  have array := Built.create number .array (fun _ same => by cases same) makeArray
  have built := Built.arrayAdd array (List.Perm.refl _) rfl
  tenJson_roundTrip exactIntegers_int built List.mem_cons_self (fun _ => true) ample_always
    ⟨0, .ok, 0⟩

end Building

end Dotten
