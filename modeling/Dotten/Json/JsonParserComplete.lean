/-
Module: Dotten.Json.JsonParserComplete
Layer: Json
Purpose: The parser reads every text of its dialect, and builds the value that
  the text denotes, when no allocation is refused.
Imports: Dotten.Json.JsonParserRuns, Dotten.Json.JsonDocument, Dotten.Core.Printf
Main exports: keeps_tenJsonParseString, serves_returns, JsonTree.Cut.eq,
  tenJsonParse_complete, tenJsonParse_wellFormed_iff
-/
import Dotten.Json.JsonParserRuns
import Dotten.Json.JsonDocument
import Dotten.Core.Printf

namespace Dotten

open Dotten.Library

section Constructors

variable {D : Type} {grants : Schedule} {world : World}

/-- A constructor returns the given kind of value, unless it is refused
memory. -/
def Creates (grants : Schedule) (world : World) (expected : JsonNode D → Prop)
    (create : Ten (Option (JsonNode D))) : Prop :=
  Returns create grants world (fun reply _ =>
    (reply = none ∧ ¬ Ample grants) ∨ ∃ json, reply = some json ∧ expected json)

theorem tenJsonAlloc_spec (node : JsonNode D) :
    Creates grants world (· = node) (tenJsonAlloc node) := by
  simp only [Creates, tenJsonAlloc, returns_bind, returns_tenMalloc]
  constructor
  · intro granted
    rw [returns_pure]
    exact .inr ⟨node, rfl, rfl⟩
  · intro refused
    rw [returns_pure]
    exact .inl ⟨rfl, not_ample_of_refused refused⟩

/-- The constructors of scalars: an allocation, then `ten__set_error`. -/
theorem creates_of_alloc (node : JsonNode D) :
    Creates grants world (· = node) (do
      let some json ← tenJsonAlloc node
        | return none
      tenSetError .ok
      return some json) := by
  rw [Creates, returns_bind]
  apply (tenJsonAlloc_spec node).mono
  intro reply after post
  rcases post with ⟨rfl, shortage⟩ | ⟨json, rfl, same⟩
  · simp only [returns_pure]
    exact .inl ⟨trivial, shortage⟩
  · simp only [returns_bind, returns_tenSetError, returns_pure]
    exact .inr ⟨json, rfl, same⟩

theorem tenJsonCreateNull_spec : Creates (D := D) grants world (· = .null) tenJsonCreateNull :=
  creates_of_alloc _

theorem tenJsonCreateBool_spec (value : Int) :
    Creates (D := D) grants world (· = .boolean (value != 0)) (tenJsonCreateBool value) :=
  creates_of_alloc _

theorem tenJsonCreateNumber_spec (value : D) :
    Creates grants world (· = .number value) (tenJsonCreateNumber value) :=
  creates_of_alloc _

theorem tenJsonCreateArray_spec :
    Creates (D := D) grants world (fun json => ∃ list, json = .array list ∧ list.items = [])
      tenJsonCreateArray := by
  simp only [Creates, tenJsonCreateArray, returns_bind, returns_tenMalloc]
  constructor
  · intro granted
    apply (tenListCreate_spec .pointer (by decide)).mono
    intro reply after post
    obtain ⟨-, ⟨rfl, shortage, -⟩ | ⟨list, rfl, empty, -⟩⟩ := post
    · simp only [returns_pure]
      exact .inl ⟨trivial, shortage⟩
    · simp only [returns_bind, returns_tenSetError, returns_pure]
      exact .inr ⟨_, rfl, list, rfl, empty⟩
  · intro refused
    rw [returns_pure]
    exact .inl ⟨rfl, not_ample_of_refused refused⟩

/-- Adding an element to an array. -/
theorem tenJsonArrayAdd_spec (list : TenList (JsonNode D)) (value : JsonNode D) :
    Returns (tenJsonArrayAdd (.array list) (some value)) grants world (fun reply _ =>
      (reply = (.outOfMemory, .array list) ∧ ¬ Ample grants) ∨
        ∃ list' : TenList (JsonNode D), reply = (.ok, .array list') ∧
          list'.items = list.items ++ [value]) := by
  simp only [tenJsonArrayAdd, returns_bind]
  apply (tenListAdd_spec list value).mono
  intro reply after post
  obtain ⟨rc, list'⟩ := reply
  obtain ⟨-, -, outcome⟩ := post
  rw [returns_pure]
  cases outcome with
  | added items => exact .inr ⟨list', rfl, items⟩
  | refused shortage => exact .inl ⟨rfl, shortage⟩

end Constructors

section Strings

variable {grants : Schedule} {world : World}

theorem keeps_tenJsonParseChars (steps : Nat) : ∀ (out : TenString) (p : Bytes),
    Keeps World.strayReads (tenJsonParseChars steps out p) := by
  induction steps with
  | zero => exact fun _ _ => keeps_stuck
  | succ steps inductionHypothesis =>
      intro out p
      cases p with
      | nil => exact .pure _
      | cons c rest =>
          rw [tenJsonParseChars]
          apply Keeps.ite
          · exact .pure _
          · cases tenJsonStringItem (c :: rest) with
            | none => exact .pure _
            | some item =>
                exact (keeps_tenStringAppend out _).bind fun reply =>
                  inductionHypothesis reply.2 item.2

/-- `ten__json_parse_string` destroys nothing. -/
theorem keeps_tenJsonParseString (p : Bytes) :
    Keeps World.strayReads (tenJsonParseString p) := by
  cases p with
  | nil => exact .pure _
  | cons c p =>
      apply Keeps.ite
      · exact .pure _
      · apply keeps_tenStringEmpty.bind
        rintro (_ | out)
        · exact .pure _
        · exact keeps_tenJsonParseChars _ out p

/-- How a string is kept that is read under a schedule: as it is, when nothing
is refused or it fits the block that a string starts with. -/
def KeptUnder (grants : Schedule) (content kept : Bytes) : Prop :=
  Ample grants ∨ content.length < tenStringInitialCapacity → kept = content

/-- A string literal, read under any schedule. -/
theorem tenJsonParseString_kept {text content : Bytes}
    (chars : CharsText Dialect.accepted text content) (rest : Bytes) :
    Returns (tenJsonParseString (ascii '"' :: (text ++ ascii '"' :: rest))) grants world
      (fun reply _ => (reply = none ∧ ¬ Ample grants) ∨
        ∃ string, reply = some (string, rest) ∧ string.Valid ∧
          KeptUnder grants content string.cstr.bytes) := by
  obtain ⟨pieces, denotes, reads⟩ := tenJsonParseString_eq chars
  have noNul : ∀ piece ∈ pieces.map CString.bytes, (0 : Byte) ∉ piece := by
    intro piece member
    obtain ⟨text, -, rfl⟩ := List.mem_map.mp member
    exact text.noNul
  rw [reads, returns_bind]
  apply tenStringEmpty_eq.mono
  rintro reply between (⟨refused, rfl⟩ | ⟨-, rfl, -⟩)
  · rw [returns_pure]
    exact .inl ⟨rfl, fun ample => refused ⟨ample _, ample _⟩⟩
  rw [returns_bind]
  apply (appendPieces_putPiece pieces).mono
  intro string last put
  rw [returns_pure]
  have state : (between.requests, emptyString (world.requests + 1)).2.Valid := emptyString_valid _
  refine .inr ⟨string, rfl, ?_, ?_⟩
  · have validLast := @putPieces_valid grants _ noNul _ state
    rw [← put] at validLast
    exact validLast
  · intro enough
    have granted : ¬ GrowthRefused grants (between.requests, emptyString (world.requests + 1))
        (pieces.map CString.bytes) := by
      rcases enough with ample | short
      · exact not_growthRefused_of_ample ample _ _
      · apply not_growthRefused_of_room noNul
        rw [denotes]
        change 0 + content.length < tenStringInitialCapacity
        omega
    have bytes := (putPieces_of_granted noNul state granted).2
    rw [← put, denotes] at bytes
    exact bytes

end Strings

section Reading

variable {D : Type} [CDouble D] {grants : Schedule}

omit [CDouble D] in
/-- A constructor reads no freed string. -/
theorem Creates.made {world : World} {expected : JsonNode D → Prop}
    {create : Ten (Option (JsonNode D))} (creates : Creates grants world expected create)
    (keeps : Keeps World.strayReads create) :
    Returns create grants world (Made (¬ Ample grants) world expected) := by
  apply (keeps.returns creates).mono
  rintro reply after ⟨made, unread⟩
  exact made.imp_right fun made => ⟨made, unread⟩

omit [CDouble D] in
/-- What the parser calls, under any schedule. -/
theorem serves_returns (grants : Schedule) :
    Serves D (returnsLogic grants) (¬ Ample grants) (KeptUnder grants) where
  setError code _ _ holds := (returns_tenSetError code _).mpr holds
  alloc node _ := (tenJsonAlloc_spec node).made (keeps_tenJsonAlloc node)
  create node _ := (creates_of_alloc node).made (keeps_alloc_ok node)
  array _ := tenJsonCreateArray_spec.made keeps_tenJsonCreateArray
  object _ := by
    apply (keeps_tenJsonCreateObject.returns tenJsonCreateObject_spec).mono
    rintro reply after ⟨⟨-, made⟩, unread⟩
    obtain ⟨rfl, shortage⟩ | ⟨object, rfl, valid, empty, noKeys, buckets, -⟩ := made
    · exact .inl ⟨rfl, shortage⟩
    · exact .inr ⟨⟨_, rfl, object, rfl, valid, valid.regular_of_empty noKeys buckets, empty⟩,
        unread⟩
  add list value _ := by
    apply ((keeps_tenJsonArrayAdd _ _).returns (tenJsonArrayAdd_spec list value)).mono
    rintro reply after ⟨⟨rfl, shortage⟩ | added, unread⟩
    · exact .inl ⟨by simp, shortage⟩
    · exact .inr ⟨added, unread⟩
  set valid regular _ keyValid value _ := by
    apply ((tenJsonObjectSetOwned_spec valid keyValid value).and
      (tenJsonObjectSetOwned_layout valid regular _ value)).mono
    rintro ⟨code, object'⟩ after ⟨set, laidOut⟩
    cases set.outcome with
    | refused _ shortage => exact .inl ⟨by simp, shortage⟩
    | done members =>
        exact .inr ⟨⟨object', rfl, set.valid, (laidOut.regular_of_ok rfl), members⟩, set.reads⟩
  destroy json _ := (tenJsonDestroy_spec json).mono fun _ _ _ => trivial
  string chars rest _ := by
    apply ((keeps_tenJsonParseString _).returns (tenJsonParseString_kept chars rest)).mono
    rintro reply after ⟨read, unread⟩
    exact read.imp_right fun read => ⟨read, unread⟩

/-- The parser reads its own dialect. -/
theorem readsDialect_accepted : ReadsDialect D Dialect.accepted fun _ => True where
  strings chars := chars
  numbers number := .inl ⟨number, trivial⟩

omit [CDouble D] in
/-- A document whose strings are kept as they are is the same document. -/
theorem JsonTree.Cut.eq {kept : Bytes → Bytes → Prop} (all : ∀ c c', kept c c' → c' = c)
    {tree tree' : JsonTree Bytes} (cut : JsonTree.Cut kept tree tree') : tree' = tree := by
  induction cut with
  | null => rfl
  | boolean value => rfl
  | number token => rfl
  | string same => rw [all _ _ same]
  | array _ each =>
      rw [List.map_congr_left each]
  | object keys _ each =>
      congr 1
      apply List.map_congr_left
      intro p member
      exact Prod.ext (all _ _ (keys p member)) (each p member)

/-- `ten_json_parse` accepts every text of its dialect, and builds the value
that the text denotes. -/
theorem tenJsonParse_complete (ample : Ample grants) {tree : JsonTree Bytes} (text : CString)
    (renders : JsonText Dialect.accepted tree text.bytes) (world : World) :
    Returns (tenJsonParse (D := D) (some text)) grants world (fun reply after =>
      ∃ json, reply = some json ∧ json.Valid ∧ json.tree = tree.denote ∧
        after.lastError = .ok ∧ world.CleanIff after (tree.ReplacesCleanly D)) := by
  apply Returns.mono
    (tenJsonParse_readsAs (serves_returns grants) readsDialect_accepted text renders world)
  rintro reply after (⟨-, shortage | bad⟩ | ⟨-, json, tree', rfl, read, ok⟩)
  · exact absurd ample shortage
  · exact absurd (JsonTree.numbers_true tree) bad
  · have same : tree' = tree := read.cut.eq (fun _ _ kept => kept (.inl ample))
    rw [same] at read
    exact ⟨json, rfl, read.valid, read.denotes, ok, read.reads⟩

/-- Every rendering of every JSON value: any white space, any escapes, any
number tokens, any nesting, repeated keys.  The parser succeeds and builds the
denoted tree, and reads no freed string on the way exactly when every value that it
replaces can be destroyed without that. -/
theorem tenJsonParse_wellFormed_iff (text : CString) (tree : JsonTree Bytes)
    (renders : JsonText Dialect.wellFormed tree text.bytes) (grants : Schedule)
    (ample : Ample grants) (world : World) :
    Returns (tenJsonParse (D := D) (some text)) grants world (fun reply after =>
      (∃ json, reply = some json ∧ json.tree = tree.denote ∧ after.lastError = .ok) ∧
        after.strayReads = world.strayReads) ↔ tree.ReplacesCleanly D := by
  apply returns_iff_of_iff
  have accepted := renders.mono wellFormed_within_accepted
  apply (tenJsonParse_complete ample text accepted world).mono
  rintro reply after ⟨json, rfl, -, sameTree, ok, reads⟩
  constructor
  · rintro ⟨-, unread⟩
    exact reads.iff.mp unread
  · intro cleanly
    exact ⟨⟨json, rfl, sameTree, ok⟩, reads.iff.mpr cleanly⟩

end Reading

/-- The text `{"a":0,"a": "\u0041"}` replaces a number. -/
theorem tenJsonParse_wellFormed_object :
    Returns (tenJsonParse (D := Int) (some ⟨asciiBytes
        ['{', '"', 'a', '"', ':', '0', ',', '"', 'a', '"', ':', ' ', '"', '\\', 'u', '0', '0', '4',
          '1', '"', '}'], by decide⟩)) (fun _ => true) ⟨0, .ok, 0⟩ (fun reply after =>
      (∃ json, reply = some json ∧
        json.tree = .object [(asciiBytes ['a'], .string (asciiBytes ['A']))] ∧
        after.lastError = .ok) ∧ after.strayReads = 0) := by
  let none : Whitespace := ⟨[], by simp⟩
  let one : Whitespace := ⟨asciiBytes [' '], forall_mem_of_all (by decide)⟩
  let quad : HexQuad := ⟨ascii '0', ascii '0', ascii '4', ascii '1', forall_mem_of_all (by decide)⟩
  have key : CharsText Dialect.wellFormed (asciiBytes ['a']) (asciiBytes ['a']) :=
    .cons (.raw (show 0x20 ≤ (ascii 'a').toNat by decide) (by decide) (by decide)) .nil
  have zero : IsJsonNumber (asciiBytes ['0']) := .intro (.inl rfl) .zero .none .none
  have unit : quad.unit = 0x41 := by decide
  have char : CharText Dialect.wellFormed (ascii '\\' :: ascii 'u' :: quad.bytes)
      (asciiBytes ['A']) := by
    have encoded : Dialect.wellFormed.encode quad.unit = asciiBytes ['A'] := by
      rw [unit]
      decide
    rw [← encoded]
    apply CharText.unit
    rw [unit]
    exact ⟨by decide, by decide, by decide⟩
  have letter := Derives.string (.cons char .nil)
  have members := Derives.members none none none none key (.number zero)
    (.member none none one none key letter)
  have renders : JsonText Dialect.wellFormed
      (.object [(asciiBytes ['a'], .number (asciiBytes ['0'])),
        (asciiBytes ['a'], .string (asciiBytes ['A']))]) _ :=
    .intro none none (.object members)
  have cleanly : (JsonTree.object [(asciiBytes ['a'], .number (asciiBytes ['0'])),
      (asciiBytes ['a'], .string (asciiBytes ['A']))]).ReplacesCleanly Int := by
    refine .object ?_ ?_
    · rintro member (_ | ⟨_, _ | ⟨_, ⟨⟩⟩⟩)
      · exact .number _
      · exact .string _
    · rw [List.pairwise_pair]
      exact fun _ => .number _
  exact (tenJsonParse_wellFormed_iff ⟨_, by decide⟩ _ renders _ ample_always _).mpr cleanly

section Collision

/-- The text of an object, from the keys of its members and the texts and documents of
their values. -/
def objectText (members : List (Bytes × Bytes × JsonTree Bytes)) : Bytes :=
  ascii '{' :: (separated false (members.map fun p => memberText p.1 p.2.1) ++ [ascii '}'])

def objectTree (members : List (Bytes × Bytes × JsonTree Bytes)) : JsonTree Bytes :=
  .object (members.map fun p => (p.1, p.2.2))

/-- Zero under each of the keys. -/
def zeros (keys : List Bytes) : List (Bytes × Bytes × JsonTree Bytes) :=
  keys.map fun key => (key, asciiBytes ['0'], .number (asciiBytes ['0']))

/-- An object that is replaced by a number. -/
def collisionMembers : List (Bytes × Bytes × JsonTree Bytes) :=
  (asciiBytes ['r'], objectText (zeros collidingKeys), objectTree (zeros collidingKeys)) ::
    zeros [asciiBytes ['r']]

def collisionText : CString := ⟨objectText collisionMembers, by decide +kernel⟩

theorem derives_zeros {keys : List Bytes} (noNul : ∀ key ∈ keys, (0 : Byte) ∉ key) :
    ∀ p ∈ zeros keys, CharsText Dialect.wellFormed (p.1.flatMap tenJsonEscapeByte) p.1 ∧
      Derives Dialect.wellFormed (.value p.2.2) p.2.1 := by
  intro p listed
  obtain ⟨key, member, rfl⟩ := List.mem_map.mp listed
  exact ⟨charsText_escaped (noNul key member), .number (.intro (.inl rfl) .zero .none .none)⟩

/-- The text names `r` twice.  The object that is replaced is destroyed, and the lookup of
the second key compares it with the first, which has been freed. -/
theorem not_tenJsonParse_wellFormed_collision :
    JsonText Dialect.wellFormed (objectTree collisionMembers) collisionText.bytes ∧
      ¬ Returns (tenJsonParse (D := Int) (some collisionText)) (fun _ => true) ⟨0, .ok, 0⟩
        (fun reply after =>
          (∃ json, reply = some json ∧ json.tree = (objectTree collisionMembers).denote ∧
            after.lastError = .ok) ∧ after.strayReads = 0) := by
  constructor
  · have inner := derives_object (@derives_zeros collidingKeys (by decide))
    have whole : Derives Dialect.wellFormed (.value (objectTree collisionMembers))
        (objectText collisionMembers) := by
      apply derives_object
      rintro p (_ | ⟨_, listed⟩)
      · exact ⟨charsText_escaped (by decide), inner⟩
      · exact derives_zeros (by decide) p listed
    have text := JsonText.intro noSpace noSpace whole
    rw [noSpace, List.append_nil] at text
    exact text
  · have stray : (tenJsonParse (D := Int) (some collisionText) (fun _ => true) ⟨0, .ok, 0⟩).map
        (fun outcome => outcome.2.strayReads) = some 1 := by
      decide +kernel
    rintro ⟨reply, after, run, -, unread⟩
    rw [run, Option.map_some, unread] at stray
    cases stray

end Collision

end Dotten
