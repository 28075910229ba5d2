/-
Module: Dotten.Json.JsonParserShortage
Layer: Json
Purpose: Parsing when allocations are refused: the whole value or NULL, except
  when a string cannot grow and the parser goes on without looking.
Imports: Dotten.Json.JsonParserRelease
Main exports: JsonTree.Strings, ParsesAllOrNothing, tenJsonParse_allOrNothing_iff
-/
import Dotten.Json.JsonParserRelease

namespace Dotten

open Dotten.Library

/-- All strings and keys of a value have a property. -/
inductive JsonTree.Strings {ν : Type} (allowed : Bytes → Prop) : JsonTree ν → Prop where
  | null : Strings allowed .null
  | boolean (value : Bool) : Strings allowed (.boolean value)
  | number (value : ν) : Strings allowed (.number value)
  | string {content : Bytes} (holds : allowed content) : Strings allowed (.string content)
  | array {elements : List (JsonTree ν)} (each : ∀ tree ∈ elements, Strings allowed tree) :
      Strings allowed (.array elements)
  | object {members : List (Bytes × JsonTree ν)} (keys : ∀ member ∈ members, allowed member.1)
      (each : ∀ member ∈ members, Strings allowed member.2) : Strings allowed (.object members)

section Documents

variable {D : Type} [CDouble D] {kept : Bytes → Bytes → Prop} {allowed : Bytes → Prop}

/-- When the strings and keys that count are kept as they are, the document still
denotes the same value.  The members that a later member replaces may differ. -/
theorem denote_of_cut (keeps : ∀ content content', allowed content → kept content content' →
      content' = content) {tree tree' : JsonTree Bytes} (cut : JsonTree.Cut kept tree tree') :
    (tree.denote (D := D)).Strings allowed → tree'.denote (D := D) = tree.denote := by
  induction cut with
  | null => exact fun _ => rfl
  | boolean value => exact fun _ => rfl
  | number token => exact fun _ => rfl
  | string same =>
      rintro (strings : JsonTree.Strings allowed (.string _))
      cases strings with
      | string holds => rw [keeps _ _ holds same]
  | array _ each =>
      rename_i pairs _
      rw [JsonTree.denote, JsonTree.denote, denoteAll_eq_map, denoteAll_eq_map, List.map_map,
        List.map_map]
      intro strings
      cases strings with
      | array strings =>
          congr 1
          apply List.map_congr_left
          intro pair listed
          exact each pair listed (strings _ (List.mem_map_of_mem listed))
  | object keys _ each =>
      rename_i pairs _
      rw [JsonTree.denote, JsonTree.denote, denoteMembers_eq_map, denoteMembers_eq_map,
        List.map_map, List.map_map]
      intro strings
      cases strings with
      | object short strings =>
          have sameKeys : ∀ pair ∈ pairs, pair.2.1 = pair.1.1 := by
            intro pair listed
            have present : pair.1.1 ∈ (OrderedMap.collapse (pairs.map
                ((fun member : Bytes × JsonTree Bytes => (member.1, member.2.denote (D := D))) ∘
                  Prod.fst))).map Prod.fst := by
              apply OrderedMap.mem_keys_collapse
              rw [List.map_map]
              exact List.mem_map_of_mem listed
            obtain ⟨member, counts, same⟩ := List.mem_map.mp present
            have holds := short member counts
            rw [same] at holds
            exact keeps _ _ holds (keys pair listed)
          have renamed : pairs.map ((fun member : Bytes × JsonTree Bytes =>
              (member.1, member.2.denote (D := D))) ∘ Prod.snd) =
                pairs.map fun pair => (pair.1.1, pair.2.2.denote (D := D)) := by
            apply List.map_congr_left
            intro pair listed
            exact Prod.ext (sameKeys pair listed) rfl
          rw [renamed]
          congr 1
          apply OrderedMap.collapse_congr
          intro pair listed counts
          exact each pair listed (strings _ counts)

/-- What the document denotes has no other strings and keys than the kept
ones. -/
theorem strings_of_cut (keeps : ∀ content content', kept content content' → allowed content')
    {tree tree' : JsonTree Bytes} (cut : JsonTree.Cut kept tree tree') :
    (tree'.denote (D := D)).Strings allowed := by
  induction cut with
  | null => exact .null
  | boolean value => exact .boolean value
  | number token => exact .number _
  | string same => exact .string (keeps _ _ same)
  | array _ each =>
      rw [JsonTree.denote, denoteAll_eq_map, List.map_map]
      apply JsonTree.Strings.array
      intro tree member
      obtain ⟨pair, listed, rfl⟩ := List.mem_map.mp member
      exact each pair listed
  | object keys _ each =>
      rename_i pairs _
      rw [JsonTree.denote, denoteMembers_eq_map, List.map_map]
      have listed : ∀ member ∈ OrderedMap.collapse (pairs.map
          ((fun member : Bytes × JsonTree Bytes => (member.1, member.2.denote (D := D))) ∘
            Prod.snd)), ∃ pair ∈ pairs, (pair.2.1, pair.2.2.denote) = member := fun member counts =>
        List.mem_map.mp (OrderedMap.mem_of_mem_collapse counts)
      apply JsonTree.Strings.object
      · intro member counts
        obtain ⟨pair, inside, rfl⟩ := listed member counts
        exact keeps _ _ (keys pair inside)
      · intro member counts
        obtain ⟨pair, inside, rfl⟩ := listed member counts
        exact each pair inside

end Documents

section Parsing

variable {D : Type} [CDouble D]

/-- All-or-nothing parsing: NULL, or what is parsed of the same text from the same
state when no request is refused.  No string is read that has been freed. -/
def ParsesAllOrNothing (D : Type) [CDouble D] (text : CString) (grants : Schedule)
    (world : World) : Prop :=
  Returns (tenJsonParse (D := D) (some text)) grants world (fun reply after =>
    Returns (tenJsonParse (D := D) (some text)) (fun _ => true) world (fun whole _ =>
      reply = none ∨ reply.map JsonNode.tree = whole.map JsonNode.tree) ∧
        after.strayReads = world.strayReads)

/-- A text whose strings and keys are short is parsed as a whole or not at
all. -/
theorem parsed_whole_of_short {text : CString} {tree : JsonTree Bytes}
    (renders : JsonText Dialect.accepted tree text.bytes)
    (short : (tree.denote (D := D)).Strings ShortString) (grants : Schedule) (world : World) :
    Returns (tenJsonParse (D := D) (some text)) grants world (fun reply _ =>
      Returns (tenJsonParse (D := D) (some text)) (fun _ => true) world (fun whole _ =>
        reply = none ∨ reply.map JsonNode.tree = whole.map JsonNode.tree)) := by
  obtain ⟨whole, last, runWhole, json, rfl, -, sameTree, -⟩ :=
    tenJsonParse_complete (D := D) ample_always text renders world
  have parse := tenJsonParse_readsAs (serves_returns (D := D) grants) readsDialect_accepted text
    renders world
  apply Returns.mono parse
  rintro reply after (⟨rfl, -⟩ | ⟨-, json', tree', rfl, read, -⟩)
  · rw [returns_iff_of_run runWhole]
    exact .inl rfl
  · rw [returns_iff_of_run runWhole]
    right
    have kept := @denote_of_cut D _ _ ShortString (fun _ _ fits kept => kept (.inr fits)) _ _
      read.cut short
    rw [Option.map_some, Option.map_some, sameTree, read.denotes, kept]

/-- Some schedule leaves short strings and keys only. -/
theorem exists_short_parse {text : CString} {tree : JsonTree Bytes}
    (renders : JsonText Dialect.accepted tree text.bytes) (world : World) :
    ∃ grants, Returns (tenJsonParse (D := D) (some text)) grants world (fun reply _ =>
      ∃ json, reply = some json ∧ json.tree.Strings ShortString) := by
  have allows := tenJsonParse_readsAs (serves_allows (D := D)) readsDialect_accepted text renders
    world
  apply Allows.exists_env
  apply Allows.mono allows
  rintro reply after (⟨-, impossible | bad⟩ | ⟨-, json, tree', rfl, read, -⟩)
  · exact impossible.elim
  · exact absurd (JsonTree.numbers_true tree) bad
  · refine ⟨json, rfl, ?_⟩
    rw [read.denotes]
    exact @strings_of_cut D _ _ ShortString (fun _ _ fits => fits) _ _ read.cut

/-- A text with a longer string is cut short by some schedule. -/
theorem short_of_allOrNothing {text : CString} {tree : JsonTree Bytes}
    (always : ∀ grants world, ParsesAllOrNothing D text grants world)
    (renders : JsonText Dialect.accepted tree text.bytes) :
    (tree.denote (D := D)).Strings ShortString := by
  obtain ⟨grants, reply, after, run, json, rfl, short⟩ :=
    exists_short_parse (D := D) renders default
  obtain ⟨whole, last, runWhole, json', rfl, -, sameTree, -⟩ :=
    tenJsonParse_complete (D := D) ample_always text renders default
  have same := always grants default
  rw [ParsesAllOrNothing, returns_iff_of_run run, returns_iff_of_run runWhole] at same
  rcases same.1 with none | same
  · cases none
  · rw [Option.map_some, Option.map_some, Option.some_inj] at same
    rw [← sameTree, ← same]
    exact short

/-- The texts that are parsed as a whole or not at all, whichever requests are
refused, are those whose strings and keys all fit the block that a string starts
with, and of which no object can come to be out of step. -/
theorem tenJsonParse_allOrNothing_iff (text : CString) :
    (∀ grants world, ParsesAllOrNothing D text grants world) ↔
      (∀ tree, JsonText Dialect.accepted tree text.bytes →
        (tree.denote (D := D)).Strings ShortString) ∧ Calm (.value text.bytes) := by
  constructor
  · intro always
    refine ⟨fun tree renders => short_of_allOrNothing always renders, ?_⟩
    rw [← tenJsonParse_unread_iff (D := D)]
    exact fun grants world => (always grants world).mono fun _ _ holds => holds.2
  · rintro ⟨short, calm⟩ grants world
    have unread := (tenJsonParse_unread_iff (D := D) text).mpr calm grants world
    refine Returns.and ?_ unread
    by_cases accepted : ∃ tree, JsonText Dialect.accepted tree text.bytes
    · obtain ⟨tree, renders⟩ := accepted
      exact parsed_whole_of_short renders (short tree renders) grants world
    · have rejected : ∀ grants, Returns (tenJsonParse (D := D) (some text)) grants world
          (fun reply _ => reply = none) := by
        intro grants
        apply (tenJsonParse_sound text world).mono
        rintro (_ | json) after ⟨-, sound, -⟩
        · rfl
        · exact absurd (sound json rfl) accepted
      apply (rejected grants).mono
      rintro reply after rfl
      apply (rejected fun _ => true).mono
      intro whole last _
      exact .inl rfl

/-- A string of letters between quotes. -/
def quotedLetters (count : Nat) : CString :=
  CString.ofMemory (ascii '"' :: (List.replicate count (ascii 'a') ++ [ascii '"']))

/-- One refused request, and one of sixteen letters is missing. -/
theorem not_parsesAllOrNothing_letters :
    ¬ ParsesAllOrNothing Int (quotedLetters 16) (fun request => request ≠ 2) ⟨0, .ok, 0⟩ := by
  have short : tenJsonParse (D := Int) (some (quotedLetters 16)) (fun request => request ≠ 2)
      ⟨0, .ok, 0⟩ = some (some (.string ⟨1, List.replicate 15 (ascii 'a') ++ [0], 15, 16⟩),
        ⟨4, .ok, 0⟩) := rfl
  have long : tenJsonParse (D := Int) (some (quotedLetters 16)) (fun _ => true) ⟨0, .ok, 0⟩ =
      some (some (.string ⟨2, List.replicate 16 (ascii 'a') ++ [0], 16, 32⟩), ⟨4, .ok, 0⟩) := rfl
  rw [ParsesAllOrNothing, returns_iff_of_run short, returns_iff_of_run long]
  rintro ⟨none | same, -⟩
  · cases none
  · cases same

end Parsing

end Dotten
