/-
Module: Dotten.Json.JsonDocument
Layer: Json
Purpose: The printed text of a value as a document: it is derived in every
  dialect that has the printed strings and numbers, and denotes the value as its
  numbers are read again.
Imports: Dotten.Json.JsonPieces
Main exports: JsonTree.document, derives_render,
  JsonTree.reread, reread_array, reread_object
-/
import Dotten.Json.JsonPieces

namespace Dotten

open Dotten.Library

section Layout

variable {g : Dialect}

/-- No white space. -/
def noSpace : Whitespace := ⟨[], by simp⟩

/-- The texts of an array's elements, with commas between them. -/
theorem derives_separated {texts : List (Bytes × JsonTree Bytes)} :
    ∀ {first : Bytes × JsonTree Bytes},
      (∀ p ∈ first :: texts, Derives g (.value p.2) p.1) →
      Derives g (.elements ((first :: texts).map Prod.snd))
        (first.1 ++ separated true (texts.map Prod.fst)) := by
  induction texts with
  | nil =>
      intro first derives
      have element := Derives.element noSpace noSpace (derives first List.mem_cons_self)
      simpa [noSpace, separated] using element
  | cons second texts inductionHypothesis =>
      intro first derives
      have others := inductionHypothesis (fun p member => derives p (List.mem_cons_of_mem first member))
      have elements := Derives.elements noSpace noSpace (derives first List.mem_cons_self) others
      simpa [noSpace, separated] using elements

theorem derives_array {texts : List (Bytes × JsonTree Bytes)}
    (derives : ∀ p ∈ texts, Derives g (.value p.2) p.1) :
    Derives g (.value (.array (texts.map Prod.snd)))
      (ascii '[' :: (separated false (texts.map Prod.fst) ++ [ascii ']'])) := by
  cases texts with
  | nil => exact .emptyArray noSpace
  | cons first rest => exact .array (derives_separated derives)

/-- The texts of an object's members, with commas between them. -/
theorem derives_members {texts : List (Bytes × Bytes × JsonTree Bytes)} :
    ∀ {first : Bytes × Bytes × JsonTree Bytes},
      (∀ p ∈ first :: texts, CharsText g (p.1.flatMap tenJsonEscapeByte) p.1 ∧
        Derives g (.value p.2.2) p.2.1) →
      Derives g (.members ((first :: texts).map fun p => (p.1, p.2.2)))
        (memberText first.1 first.2.1 ++
          separated true (texts.map fun p => memberText p.1 p.2.1)) := by
  induction texts with
  | nil =>
      intro first derives
      obtain ⟨chars, value⟩ := derives first List.mem_cons_self
      have member := Derives.member noSpace noSpace noSpace noSpace chars value
      simpa [noSpace, separated, memberText, quoted] using member
  | cons second texts inductionHypothesis =>
      intro first derives
      obtain ⟨chars, value⟩ := derives first List.mem_cons_self
      have others := inductionHypothesis (fun p member => derives p (List.mem_cons_of_mem first member))
      have members := Derives.members noSpace noSpace noSpace noSpace chars value others
      simpa [noSpace, separated, memberText, quoted] using members

theorem derives_object {texts : List (Bytes × Bytes × JsonTree Bytes)}
    (derives : ∀ p ∈ texts, CharsText g (p.1.flatMap tenJsonEscapeByte) p.1 ∧
      Derives g (.value p.2.2) p.2.1) :
    Derives g (.value (.object (texts.map fun p => (p.1, p.2.2))))
      (ascii '{' :: (separated false (texts.map fun p => memberText p.1 p.2.1) ++ [ascii '}'])) := by
  cases texts with
  | nil => exact .emptyObject noSpace
  | cons first rest => exact .object (derives_members derives)

end Layout

section Documents

variable {D : Type} [CDouble D]

mutual

/-- The document that is printed of a value: its numbers as they are printed. -/
def JsonTree.document : JsonTree D → JsonTree Bytes
  | .null => .null
  | .boolean value => .boolean value
  | .number value => .number (tenJsonStringifyNumber value)
  | .string content => .string content
  | .array elements => .array (JsonTree.documents elements)
  | .object members => .object (JsonTree.memberDocuments members)

def JsonTree.documents : List (JsonTree D) → List (JsonTree Bytes)
  | [] => []
  | tree :: rest => tree.document :: JsonTree.documents rest

def JsonTree.memberDocuments : List (Bytes × JsonTree D) → List (Bytes × JsonTree Bytes)
  | [] => []
  | (key, tree) :: rest => (key, tree.document) :: JsonTree.memberDocuments rest

end

theorem documents_eq_map (elements : List (JsonTree D)) :
    JsonTree.documents elements = elements.map JsonTree.document := by
  induction elements with
  | nil => rfl
  | cons tree rest inductionHypothesis =>
      rw [JsonTree.documents, inductionHypothesis, List.map_cons]

theorem memberDocuments_eq_map (members : List (Bytes × JsonTree D)) :
    JsonTree.memberDocuments members =
      members.map fun member => (member.1, member.2.document) := by
  induction members with
  | nil => rfl
  | cons member rest inductionHypothesis =>
      rw [JsonTree.memberDocuments, inductionHypothesis, List.map_cons]

/-- What is printed of a value renders its document, in every dialect whose
numbers are printed. -/
theorem derives_render {g : Dialect}
    (strings : ∀ s : Bytes, (0 : Byte) ∉ s → CharsText g (s.flatMap tenJsonEscapeByte) s)
    {tree : JsonTree D} (proper : tree.Proper)
    (numbers : tree.Numbers fun value => g.number (tenJsonStringifyNumber value)) :
    Derives g (.value tree.document) tree.render := by
  induction proper with
  | null => exact .litNull
  | boolean value =>
      cases value with
      | false => exact .litFalse
      | true => exact .litTrue
  | number value =>
      cases numbers with
      | number holds =>
          rw [JsonTree.render, JsonTree.pieces, List.flatten_singleton]
          exact .number holds
  | string noNul =>
      rw [JsonTree.render, JsonTree.pieces, flatten_quotedPieces]
      exact .string (strings _ noNul)
  | array each derives =>
      rename_i elements
      cases numbers with
      | array numbers =>
          have rendered : ∀ p ∈ elements.map fun tree => (tree.render, tree.document),
              Derives g (.value p.2) p.1 := by
            intro p member
            obtain ⟨tree, inside, rfl⟩ := List.mem_map.mp member
            exact derives tree inside (numbers tree inside)
          have listed := derives_array rendered
          rw [List.map_map, List.map_map] at listed
          rw [JsonTree.render_array, JsonTree.document, documents_eq_map]
          exact listed
  | object distinct noNul each derives =>
      rename_i members
      cases numbers with
      | object numbers =>
          have rendered : ∀ p ∈ members.map fun member =>
              (member.1, member.2.render, member.2.document),
              CharsText g (p.1.flatMap tenJsonEscapeByte) p.1 ∧
                Derives g (.value p.2.2) p.2.1 := by
            intro p member
            obtain ⟨pair, inside, rfl⟩ := List.mem_map.mp member
            exact ⟨strings pair.1 (noNul pair inside), derives pair inside (numbers pair inside)⟩
          have listed := derives_object rendered
          rw [List.map_map, List.map_map] at listed
          rw [JsonTree.render_object, JsonTree.document, memberDocuments_eq_map]
          exact listed

/-- The value that the document of a value denotes: its numbers printed and read
again. -/
def JsonTree.reread (tree : JsonTree D) : JsonTree D := tree.document.denote

theorem reread_array (elements : List (JsonTree D)) :
    (JsonTree.array elements).reread = .array (elements.map JsonTree.reread) := by
  rw [JsonTree.reread, JsonTree.document, JsonTree.denote, documents_eq_map, denoteAll_eq_map,
    List.map_map]
  rfl

/-- The keys are distinct, so every member of the document counts. -/
theorem reread_object {members : List (Bytes × JsonTree D)}
    (distinct : (members.map Prod.fst).Nodup) :
    (JsonTree.object members).reread =
      .object (members.map fun member => (member.1, member.2.reread)) := by
  rw [JsonTree.reread, JsonTree.document, JsonTree.denote, memberDocuments_eq_map,
    denoteMembers_eq_map, List.map_map, OrderedMap.collapse_of_distinct]
  · rfl
  · rw [List.map_map]
    exact distinct

end Documents

end Dotten
