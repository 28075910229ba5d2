/-
Module: Dotten.Json.JsonParserRuns
Layer: Json
Purpose: What the parser makes of a text of a grammar, for any way of speaking
  about its runs: a value for each value of the document, with its strings as
  they have been kept, unless memory is refused or a number cannot be read; and
  the freed keys that it reads when it destroys a value that is replaced.
Imports: Dotten.Json.JsonStrings, Dotten.Json.JsonLayout
Main exports: JsonTree.Cut, Serves, Hopeless, ReadsDialect, Stops, ReadsAs,
  readsAs_of_derives, tenJsonParse_readsAs
-/
import Dotten.Json.JsonStrings
import Dotten.Json.JsonLayout
import Mathlib.Data.List.DropRight

namespace Dotten

open Dotten.Library

section Spaces

/-- The white space of the code is that of the grammar. -/
theorem tenJsonIsWs_eq (b : Byte) : tenJsonIsWs b = isJsonSpace b := rfl

theorem tenJsonSkipWs_cons {b : Byte} (visible : isJsonSpace b = false) (rest : Bytes) :
    tenJsonSkipWs (b :: rest) = b :: rest := by
  rw [tenJsonSkipWs, List.dropWhile_cons, tenJsonIsWs_eq, visible]
  rfl

theorem tenJsonSkipWs_space (space : Whitespace) (rest : Bytes) :
    tenJsonSkipWs (space.bytes ++ rest) = tenJsonSkipWs rest :=
  List.dropWhile_append_of_pos space.spaces

theorem length_tenJsonSkipWs_le (p : Bytes) : (tenJsonSkipWs p).length ≤ p.length :=
  (List.dropWhile_sublist _).length_le

theorem tenJsonSkipWs_idem (p : Bytes) : tenJsonSkipWs (tenJsonSkipWs p) = tenJsonSkipWs p :=
  List.dropWhile_idempotent _ p

/-- What follows a number token in a text of the grammar. -/
theorem endsSubject_space (space : Whitespace) {b : Byte} (ends : isSubjectByte b = false)
    (rest : Bytes) : EndsSubject (space.bytes ++ b :: rest) := by
  intro first isFirst
  cases spaces : space.bytes with
  | nil =>
      rw [spaces] at isFirst
      cases isFirst
      exact ends
  | cons c more =>
      rw [spaces] at isFirst
      cases isFirst
      have isSpace : isJsonSpace first = true :=
        space.spaces first (by rw [spaces]; exact List.mem_cons_self)
      have apart : ∀ b : Byte, isJsonSpace b = true → isSubjectByte b = false := by
        apply forall_byte
        decide
      exact apart first isSpace

end Spaces

section Runs

variable {D : Type} [CDouble D]

/-- The members of an object as the getters show them. -/
def JsonObject.treeMembers (object : JsonObject (JsonNode D)) : List (Bytes × JsonTree D) :=
  object.members.map (Prod.map CString.bytes JsonNode.tree)

/-- The members after more pairs have been set, in the order of the text. -/
def setAll (pairs built : List (Bytes × JsonTree D)) : List (Bytes × JsonTree D) :=
  pairs.foldl (fun built pair => OrderedMap.insert (fun key : Bytes => key) pair.1 pair.2 built) built

omit [CDouble D] in
/-- A set that succeeds on the visible members. -/
theorem treeMembers_of_insert {object object' : JsonObject (JsonNode D)} {key : TenString}
    {value : JsonNode D}
    (members : object'.members =
      OrderedMap.insert (fun key : CString => key) key.cstr value object.members) :
    object'.treeMembers = OrderedMap.insert (fun key : Bytes => key) key.cstr.bytes value.tree
      object.treeMembers := by
  rw [JsonObject.treeMembers, members, JsonObject.treeMembers]
  exact (OrderedMap.insert_map CString.bytes JsonNode.tree
    (fun _ _ => ⟨CString.ext, congrArg CString.bytes⟩) key.cstr value object.members).symm

/-- The same document but for its strings and keys, of which each has been kept
in a way. -/
inductive JsonTree.Cut (kept : Bytes → Bytes → Prop) : JsonTree Bytes → JsonTree Bytes → Prop where
  | null : Cut kept .null .null
  | boolean (value : Bool) : Cut kept (.boolean value) (.boolean value)
  | number (token : Bytes) : Cut kept (.number token) (.number token)
  | string {content content' : Bytes} (same : kept content content') :
      Cut kept (.string content) (.string content')
  | array {pairs : List (JsonTree Bytes × JsonTree Bytes)}
      (each : ∀ p ∈ pairs, Cut kept p.1 p.2) :
      Cut kept (.array (pairs.map Prod.fst)) (.array (pairs.map Prod.snd))
  | object {pairs : List ((Bytes × JsonTree Bytes) × Bytes × JsonTree Bytes)}
      (keys : ∀ p ∈ pairs, kept p.1.1 p.2.1) (each : ∀ p ∈ pairs, Cut kept p.1.2 p.2.2) :
      Cut kept (.object (pairs.map Prod.fst)) (.object (pairs.map Prod.snd))

/-- A constructor returns the given kind of value, unless there is a
shortage. -/
def Made (shortage : Prop) (world : World) (expected : JsonNode D → Prop)
    (reply : Option (JsonNode D)) (after : World) : Prop :=
  (reply = none ∧ shortage) ∨
    ((∃ json, reply = some json ∧ expected json) ∧ after.strayReads = world.strayReads)

/-- What is known of the runs of the functions that the parser calls: they do
what they are for unless there is a shortage, and keep strings in a way. -/
structure Serves (D : Type) (logic : RunLogic Schedule World) (shortage : Prop)
    (kept : Bytes → Bytes → Prop) : Prop where
  setError (code : TenErrorCode) {world : World} {post : Unit → World → Prop}
    (holds : post () { world with lastError := code }) :
    logic.Holds (tenSetError code) world post
  alloc (node : JsonNode D) (world : World) :
    logic.Holds (tenJsonAlloc node) world (Made shortage world (· = node))
  create (node : JsonNode D) (world : World) :
    logic.Holds (do
        let some json ← tenJsonAlloc node
          | return none
        tenSetError .ok
        return some json) world (Made shortage world (· = node))
  array (world : World) :
    logic.Holds (tenJsonCreateArray (D := D)) world
      (Made shortage world fun json => ∃ list, json = .array list ∧ list.items = [])
  object (world : World) :
    logic.Holds (tenJsonCreateObject (D := D)) world (Made shortage world fun json =>
      ∃ object, json = .object object ∧ object.Valid ∧ object.Regular ∧ object.members = [])
  add (list : TenList (JsonNode D)) (value : JsonNode D) (world : World) :
    logic.Holds (tenJsonArrayAdd (.array list) (some value)) world (fun reply after =>
      (reply.1 ≠ .ok ∧ shortage) ∨
        ((∃ list' : TenList (JsonNode D), reply = (.ok, .array list') ∧
          list'.items = list.items ++ [value]) ∧ after.strayReads = world.strayReads))
  set {object : JsonObject (JsonNode D)} (valid : object.Valid) (regular : object.Regular)
    {key : TenString} (keyValid : key.Valid) (value : JsonNode D) (world : World) :
    logic.Holds (tenJsonObjectSetOwned object key value) world (fun reply after =>
      (reply.1 ≠ .ok ∧ shortage) ∨ ((∃ object' : JsonObject (JsonNode D), reply = (.ok, object') ∧
        object'.Valid ∧ object'.Regular ∧ object'.members =
          OrderedMap.insert (fun key : CString => key) key.cstr value object.members) ∧
        world.CleanIff after (object.ReplacesCleanly key.pointer)))
  destroy (json : JsonNode D) (world : World) :
    logic.Holds (tenJsonDestroy (some json)) world (fun _ _ => True)
  string {text content : Bytes} (chars : CharsText Dialect.accepted text content) (rest : Bytes)
    (world : World) :
    logic.Holds (tenJsonParseString (ascii '"' :: (text ++ ascii '"' :: rest))) world
      (fun reply after => (reply = none ∧ shortage) ∨
        ((∃ string, reply = some (string, rest) ∧ string.Valid ∧
          kept content string.cstr.bytes) ∧ after.strayReads = world.strayReads))

/-- A token that starts like no value, or like one that it is not. -/
def Hopeless (D : Type) [CDouble D] (token : Bytes) : Prop :=
  (∃ b tail, token = b :: tail ∧ isJsonSpace b = false ∧ b ≠ ascii ']' ∧ b ≠ ascii '}') ∧
    ∀ (steps : Nat) (p rest : Bytes), tenJsonSkipWs p = token ++ rest →
      tenJsonParseValue (D := D) (steps + 1) p = pure none

/-- The parser reads the strings of a dialect, and of its numbers those that are
`good`. -/
structure ReadsDialect (D : Type) [CDouble D] (g : Dialect) (good : Bytes → Prop) : Prop where
  strings {text content : Bytes} (chars : CharsText g text content) :
    CharsText Dialect.accepted text content
  numbers {token : Bytes} (number : g.number token) :
    (Dialect.accepted.number token ∧ good token) ∨ (Hopeless D token ∧ ¬ good token)

/-- All numbers of what a piece of text renders have a property. -/
def Phrase.Numbers (good : Bytes → Prop) : Phrase → Prop
  | .value tree => tree.Numbers good
  | .elements trees => ∀ tree ∈ trees, tree.Numbers good
  | .members list => ∀ member ∈ list, member.2.Numbers good

/-- A number that is read from here ends where it ends in the text. -/
def Stops (tree : JsonTree Bytes) (rest : Bytes) : Prop :=
  ∀ token, tree = .number token → Dialect.accepted.number token →
    strtodLen (token ++ rest) = token.length

theorem stops_of_ends {tree : JsonTree Bytes} {rest : Bytes} (ends : EndsSubject rest) :
    Stops tree rest :=
  fun _ _ number => strtodLen_append number.1 ends

/-- The value that has been read for a document, and the freed keys that were read on
the way. -/
structure ReadValue (kept : Bytes → Bytes → Prop) (tree : JsonTree Bytes) (world : World)
    (json : JsonNode D) (tree' : JsonTree Bytes) (after : World) : Prop where
  valid : json.Valid
  regular : json.Regular
  cut : JsonTree.Cut kept tree tree'
  denotes : json.tree = tree'.denote
  reads : world.CleanIff after (tree'.ReplacesCleanly D)

/-- A value that has been read without replacing another. -/
theorem ReadValue.of_unread {kept : Bytes → Bytes → Prop} {tree tree' : JsonTree Bytes}
    {json : JsonNode D} {world after : World} (valid : json.Valid) (regular : json.Regular)
    (cut : JsonTree.Cut kept tree tree') (denotes : json.tree = tree'.denote)
    (cleanly : tree'.ReplacesCleanly D) (unread : after.strayReads = world.strayReads) :
    ReadValue kept tree world json tree' after :=
  ⟨valid, regular, cut, denotes,
    (World.CleanIff.of_eq unread).congr (iff_of_true trivial cleanly)⟩

/-- The elements that have been added to an array. -/
structure ReadElements (kept : Bytes → Bytes → Prop) (list : TenList (JsonNode D))
    (trees : List (JsonTree Bytes)) (world : World) (list' : TenList (JsonNode D))
    (pairs : List (JsonTree Bytes × JsonTree Bytes)) (after : World) : Prop where
  items : ∀ item ∈ list'.items, item.Valid ∧ item.Regular
  trees : pairs.map Prod.fst = trees
  cuts : ∀ p ∈ pairs, JsonTree.Cut kept p.1 p.2
  denotes : list'.items.map JsonNode.tree =
    list.items.map JsonNode.tree ++ JsonTree.denoteAll (pairs.map Prod.snd)
  reads : world.CleanIff after (∀ p ∈ pairs, p.2.ReplacesCleanly D)

/-- The members that have been set in an object. -/
structure ReadMembers (kept : Bytes → Bytes → Prop) (object : JsonObject (JsonNode D))
    (members : List (Bytes × JsonTree Bytes)) (world : World) (object' : JsonObject (JsonNode D))
    (pairs : List ((Bytes × JsonTree Bytes) × Bytes × JsonTree Bytes)) (after : World) :
    Prop where
  valid : object'.Valid
  regular : object'.Regular
  values : ∀ member ∈ object'.members, member.2.Valid ∧ member.2.Regular
  members : pairs.map Prod.fst = members
  keys : ∀ p ∈ pairs, kept p.1.1 p.2.1
  cuts : ∀ p ∈ pairs, JsonTree.Cut kept p.1.2 p.2.2
  denotes : object'.treeMembers =
    setAll (JsonTree.denoteMembers (pairs.map Prod.snd)) object.treeMembers
  reads : world.CleanIff after ((∀ p ∈ pairs, p.2.2.ReplacesCleanly D) ∧
    OrderedMap.Replaced (fun key : Bytes => key) JsonTree.Releasable
      (JsonTree.denoteMembers (D := D) (pairs.map Prod.snd)) object.treeMembers)

/-- The parser reads a piece of text: from any cursor that stands before it, and
with steps enough for the text that is left, it returns what the piece denotes
with the strings that have been kept, and stops right behind it.  It gives up
when there is a shortage, and when one of the numbers is not good. -/
def ReadsAs (D : Type) [CDouble D] (logic : RunLogic Schedule World) (shortage : Prop)
    (kept : Bytes → Bytes → Prop) (good : Bytes → Prop) (phrase : Phrase) (text : Bytes) : Prop :=
  match phrase with
  | .value tree => ∀ {steps : Nat} {world : World} {p : Bytes} (rest : Bytes),
      tenJsonSkipWs p = text ++ rest → Stops tree rest → 2 * p.length + 1 ≤ steps →
      logic.Holds (tenJsonParseValue (D := D) steps p) world (fun reply after =>
        (reply = none ∧ (shortage ∨ ¬ phrase.Numbers good)) ∨
          (phrase.Numbers good ∧ ∃ json tree', reply = some (json, rest) ∧
            ReadValue kept tree world json tree' after))
  | .elements trees => ∀ {steps : Nat} {world : World} {p : Bytes} {list : TenList (JsonNode D)}
      (rest : Bytes), tenJsonSkipWs p = tenJsonSkipWs (text ++ ascii ']' :: rest) →
      (∀ item ∈ list.items, item.Valid ∧ item.Regular) → 2 * p.length + 2 ≤ steps →
      logic.Holds (tenJsonParseElements steps (.array list) p) world (fun reply after =>
        (reply = none ∧ (shortage ∨ ¬ phrase.Numbers good)) ∨
          (phrase.Numbers good ∧ ∃ list' pairs, reply = some (.array list', rest) ∧
            ReadElements kept list trees world list' pairs after))
  | .members members => ∀ {steps : Nat} {world : World} {p : Bytes}
      {object : JsonObject (JsonNode D)} (rest : Bytes),
      tenJsonSkipWs p = tenJsonSkipWs (text ++ ascii '}' :: rest) →
      object.Valid → object.Regular →
      (∀ member ∈ object.members, member.2.Valid ∧ member.2.Regular) →
      2 * p.length + 2 ≤ steps →
      logic.Holds (tenJsonParseMembers steps (.object object) p) world (fun reply after =>
        (reply = none ∧ (shortage ∨ ¬ phrase.Numbers good)) ∨
          (phrase.Numbers good ∧ ∃ object' pairs, reply = some (.object object', rest) ∧
            ReadMembers kept object members world object' pairs after))

end Runs

section Rules

variable {D : Type} [CDouble D] {logic : RunLogic Schedule World} {shortage : Prop}
  {kept : Bytes → Bytes → Prop} {g : Dialect} {good : Bytes → Prop}

/-- The first byte of a number: it is no white space and closes nothing. -/
theorem ReadsDialect.number_head (reads : ReadsDialect D g good) {token : Bytes}
    (number : g.number token) :
    ∃ b tail, token = b :: tail ∧ isJsonSpace b = false ∧ b ≠ ascii ']' ∧ b ≠ ascii '}' := by
  obtain ⟨⟨-, b, tail, same, starts⟩, -⟩ | ⟨⟨head, -⟩, -⟩ := reads.numbers number
  · refine ⟨b, tail, same, ?_⟩
    rcases starts with rfl | digit
    · decide
    · have digits : ∀ b : Byte, isDigit b = true →
          isJsonSpace b = false ∧ b ≠ ascii ']' ∧ b ≠ ascii '}' := by
        apply forall_byte
        decide
      exact digits b digit
  · exact head

/-- The first byte of a value: it is no white space and closes nothing. -/
theorem ReadsDialect.value_head (reads : ReadsDialect D g good) {tree : JsonTree Bytes}
    {text : Bytes} (derives : Derives g (.value tree) text) :
    ∃ b tail, text = b :: tail ∧ isJsonSpace b = false ∧ b ≠ ascii ']' ∧ b ≠ ascii '}' := by
  cases derives with
  | litNull => exact ⟨_, _, rfl, by decide⟩
  | litTrue => exact ⟨_, _, rfl, by decide⟩
  | litFalse => exact ⟨_, _, rfl, by decide⟩
  | number allowed => exact reads.number_head allowed
  | string chars => exact ⟨_, _, rfl, by decide⟩
  | emptyArray space => exact ⟨_, _, rfl, by decide⟩
  | array elements => exact ⟨_, _, rfl, by decide⟩
  | emptyObject space => exact ⟨_, _, rfl, by decide⟩
  | object list => exact ⟨_, _, rfl, by decide⟩

/-- Skipping white space before a value stops at the value. -/
theorem ReadsDialect.skip_value (reads : ReadsDialect D g good) {tree : JsonTree Bytes}
    {text : Bytes} (derives : Derives g (.value tree) text) (before : Whitespace)
    (rest : Bytes) : tenJsonSkipWs (before.bytes ++ (text ++ rest)) = text ++ rest := by
  obtain ⟨b, tail, rfl, visible, -⟩ := reads.value_head derives
  rw [tenJsonSkipWs_space]
  exact tenJsonSkipWs_cons visible _

theorem skip_space_cons (before : Whitespace) {b : Byte} (visible : isJsonSpace b = false)
    (rest : Bytes) : tenJsonSkipWs (before.bytes ++ b :: rest) = b :: rest := by
  rw [tenJsonSkipWs_space]
  exact tenJsonSkipWs_cons visible rest

/-- An array with elements does not look closed. -/
theorem ReadsDialect.elements_head (reads : ReadsDialect D g good)
    {trees : List (JsonTree Bytes)} {text : Bytes} (derives : Derives g (.elements trees) text)
    (rest : Bytes) : ∃ c tail, tenJsonSkipWs (text ++ rest) = c :: tail ∧ c ≠ ascii ']' := by
  cases derives with
  | element before after value =>
      obtain ⟨c, tail, same, -, notClosed, -⟩ := reads.value_head value
      rw [List.append_assoc, List.append_assoc, reads.skip_value value before, same]
      exact ⟨c, _, rfl, notClosed⟩
  | elements before after value _ =>
      obtain ⟨c, tail, same, -, notClosed, -⟩ := reads.value_head value
      rw [List.append_assoc, List.append_assoc, reads.skip_value value before, same]
      exact ⟨c, _, rfl, notClosed⟩

/-- An object with members does not look closed. -/
theorem members_head {members : List (Bytes × JsonTree Bytes)} {text : Bytes}
    (derives : Derives g (.members members) text) (rest : Bytes) :
    ∃ c tail, tenJsonSkipWs (text ++ rest) = c :: tail ∧ c ≠ ascii '}' := by
  cases derives with
  | member before beforeColon beforeValue after chars value =>
      rw [List.append_assoc, List.cons_append, skip_space_cons before (by decide)]
      exact ⟨_, _, rfl, by decide⟩
  | members before beforeColon beforeValue after chars value _ =>
      rw [List.append_assoc, List.cons_append, skip_space_cons before (by decide)]
      exact ⟨_, _, rfl, by decide⟩

/-! ### Scalars -/

section Scalars

variable (serves : Serves D logic shortage kept)

include serves

omit [CDouble D] in
/-- A parser that destroys what it has and gives up. -/
theorem holds_destroyAndFail (json : JsonNode D) {world : World}
    {post : Option (JsonNode D × Bytes) → World → Prop} (givesUp : ∀ after, post none after) :
    logic.Holds (destroyAndFail json) world post := by
  refine logic.bind (logic.mono (serves.destroy json world) ?_)
  intro _ after _
  exact logic.pure (givesUp after)

omit [CDouble D] in
/-- The literal names. -/
theorem readsAs_literal {literal rest : Bytes} {node : JsonNode D} {world : World} :
    logic.Holds (tenJsonParseLiteral literal (do
        let some json ← tenJsonAlloc node
          | return none
        tenSetError .ok
        return some json) (literal ++ rest)) world (fun reply after =>
      (reply = none ∧ shortage) ∨
        (reply = some (node, rest) ∧ after.strayReads = world.strayReads)) := by
  have matched : literal.length ≤ (literal ++ rest).length ∧
      (literal ++ rest).take literal.length = literal := by
    simp
  rw [tenJsonParseLiteral, if_pos matched]
  refine logic.bind (logic.mono (serves.create node world) ?_)
  rintro reply after (⟨rfl, short⟩ | ⟨⟨json, rfl, rfl⟩, unread⟩)
  · exact logic.pure (.inl ⟨rfl, short⟩)
  · exact logic.pure (.inr ⟨by rw [List.drop_left], unread⟩)

theorem readsAs_null :
    ReadsAs D logic shortage kept good (.value .null) (asciiBytes ['n', 'u', 'l', 'l']) := by
  intro steps world p rest skipped _ enough
  cases steps with
  | zero => omega
  | succ steps =>
      have starts : tenJsonSkipWs p = ascii 'n' :: (asciiBytes ['u', 'l', 'l'] ++ rest) := skipped
      rw [tenJsonParseValue, starts]
      dsimp only
      rw [if_pos rfl]
      apply logic.mono (readsAs_literal serves)
      rintro reply after (⟨none, short⟩ | ⟨same, unread⟩)
      · exact .inl ⟨none, .inl short⟩
      · exact .inr ⟨JsonTree.Numbers.null, .null, .null, same,
          .of_unread .null .null .null rfl .null unread⟩

theorem readsAs_true :
    ReadsAs D logic shortage kept good (.value (.boolean true))
      (asciiBytes ['t', 'r', 'u', 'e']) := by
  intro steps world p rest skipped _ enough
  cases steps with
  | zero => omega
  | succ steps =>
      have starts : tenJsonSkipWs p = ascii 't' :: (asciiBytes ['r', 'u', 'e'] ++ rest) := skipped
      rw [tenJsonParseValue, starts]
      dsimp only
      rw [if_neg (by decide), if_pos rfl]
      apply logic.mono (readsAs_literal serves)
      rintro reply after (⟨none, short⟩ | ⟨same, unread⟩)
      · exact .inl ⟨none, .inl short⟩
      · exact .inr ⟨JsonTree.Numbers.boolean _, _, .boolean true, same,
          .of_unread (.boolean _) (.boolean _) (.boolean _) rfl (.boolean _) unread⟩

theorem readsAs_false :
    ReadsAs D logic shortage kept good (.value (.boolean false))
      (asciiBytes ['f', 'a', 'l', 's', 'e']) := by
  intro steps world p rest skipped _ enough
  cases steps with
  | zero => omega
  | succ steps =>
      have starts : tenJsonSkipWs p = ascii 'f' :: (asciiBytes ['a', 'l', 's', 'e'] ++ rest) :=
        skipped
      rw [tenJsonParseValue, starts]
      dsimp only
      rw [if_neg (by decide), if_neg (by decide), if_pos rfl]
      apply logic.mono (readsAs_literal serves)
      rintro reply after (⟨none, short⟩ | ⟨same, unread⟩)
      · exact .inl ⟨none, .inl short⟩
      · exact .inr ⟨JsonTree.Numbers.boolean _, _, .boolean false, same,
          .of_unread (.boolean _) (.boolean _) (.boolean _) rfl (.boolean _) unread⟩

theorem readsAs_number (reads : ReadsDialect D g good) {token : Bytes} (number : g.number token) :
    ReadsAs D logic shortage kept good (.value (.number token)) token := by
  intro steps world p rest skipped stops enough
  cases steps with
  | zero => omega
  | succ steps =>
      obtain ⟨accepted, isGood⟩ | ⟨⟨-, fails⟩, bad⟩ := reads.numbers number
      · have length := stops token rfl accepted
        obtain ⟨-, b, tail, rfl, starts⟩ := accepted
        have dispatch : ∀ b : Byte, (b = ascii '-' ∨ isDigit b = true) →
            b ≠ ascii 'n' ∧ b ≠ ascii 't' ∧ b ≠ ascii 'f' ∧ b ≠ ascii '"' ∧ b ≠ ascii '[' ∧
              b ≠ ascii '{' := by
          apply forall_byte
          decide
        obtain ⟨notN, notT, notF, notQuote, notBracket, notBrace⟩ := dispatch b starts
        rw [tenJsonParseValue, skipped]
        simp only [List.cons_append]
        rw [if_neg notN, if_neg notT, if_neg notF, if_neg notQuote, if_neg notBracket,
          if_neg notBrace, if_pos starts, tenJsonParseNumber]
        rw [List.cons_append] at length
        rw [length, if_neg (by simp)]
        refine logic.bind (logic.mono (serves.create _ world) ?_)
        rintro reply after (⟨rfl, short⟩ | ⟨⟨json, rfl, rfl⟩, unread⟩)
        · exact logic.pure (.inl ⟨rfl, .inl short⟩)
        · apply logic.pure
          rw [← List.cons_append, List.drop_left, List.take_left]
          exact .inr ⟨JsonTree.Numbers.number isGood, _, .number (b :: tail), rfl,
            .of_unread (.number trivial) (.number _) (.number _) rfl (.number _) unread⟩
      · rw [fails steps p rest skipped]
        apply logic.pure
        refine .inl ⟨rfl, .inr ?_⟩
        rintro (holds : JsonTree.Numbers good (.number token))
        cases holds with
        | number holds => exact bad holds

theorem readsAs_string {text content : Bytes} (chars : CharsText Dialect.accepted text content) :
    ReadsAs D logic shortage kept good (.value (.string content))
      (ascii '"' :: (text ++ [ascii '"'])) := by
  intro steps world p rest skipped _ enough
  have literal : ascii '"' :: (text ++ [ascii '"']) ++ rest =
      ascii '"' :: (text ++ ascii '"' :: rest) := by
    simp
  cases steps with
  | zero => omega
  | succ steps =>
      rw [tenJsonParseValue, skipped, literal]
      dsimp only
      rw [if_neg (by decide), if_neg (by decide), if_neg (by decide), if_pos rfl]
      refine logic.bind (logic.mono (serves.string chars rest world) ?_)
      rintro reply after (⟨rfl, short⟩ | ⟨⟨string, rfl, valid, same⟩, unread⟩)
      · exact logic.pure (.inl ⟨rfl, .inl short⟩)
      refine logic.bind (logic.mono (serves.alloc _ after) ?_)
      rintro reply last (⟨rfl, short⟩ | ⟨⟨json, rfl, rfl⟩, still⟩)
      · exact logic.pure (.inl ⟨rfl, .inl short⟩)
      · exact logic.pure (.inr ⟨JsonTree.Numbers.string _, _, .string string.cstr.bytes, rfl,
          .of_unread (.string valid) (.string _) (.string same) rfl (.string _)
            (still.trans unread)⟩)

end Scalars

/-! ### Arrays -/

section Arrays

variable (serves : Serves D logic shortage kept)

include serves

theorem readsAs_emptyArray (space : Whitespace) :
    ReadsAs D logic shortage kept good (.value (.array []))
      (ascii '[' :: (space.bytes ++ [ascii ']'])) := by
  intro steps world p rest skipped _ enough
  have starts : tenJsonSkipWs p = ascii '[' :: (space.bytes ++ ascii ']' :: rest) := by
    rw [skipped]
    simp
  cases steps with
  | zero => omega
  | succ steps =>
      rw [tenJsonParseValue, starts]
      dsimp only
      rw [if_neg (by decide), if_neg (by decide), if_neg (by decide), if_neg (by decide),
        if_pos rfl]
      refine logic.bind (logic.mono (serves.array world) ?_)
      rintro reply after (⟨rfl, short⟩ | ⟨⟨json, rfl, list, rfl, empty⟩, unread⟩)
      · exact logic.pure (.inl ⟨rfl, .inl short⟩)
      dsimp only
      rw [skip_space_cons space (by decide) rest]
      dsimp only
      rw [if_pos rfl]
      apply logic.pure
      have none : JsonTree.Numbers good (.array []) := .array (fun _ member => by cases member)
      have cut : JsonTree.Cut kept (.array []) (.array []) :=
        @JsonTree.Cut.array kept [] (fun _ member => by cases member)
      refine .inr ⟨none, _, .array [], rfl, .of_unread (.array ?_) (.array ?_) cut ?_ (.array ?_)
        unread⟩
      · rw [empty]
        exact List.forall_mem_nil _
      · rw [empty]
        exact List.forall_mem_nil _
      · rw [JsonNode.tree_array, empty]
        rfl
      · exact List.forall_mem_nil _

theorem readsAs_array (reads : ReadsDialect D g good) {trees : List (JsonTree Bytes)}
    {text : Bytes} (derives : Derives g (.elements trees) text)
    (elements : ReadsAs D logic shortage kept good (.elements trees) text) :
    ReadsAs D logic shortage kept good (.value (.array trees))
      (ascii '[' :: (text ++ [ascii ']'])) := by
  intro steps world p rest skipped _ enough
  have starts : tenJsonSkipWs p = ascii '[' :: (text ++ ascii ']' :: rest) := by
    rw [skipped]
    simp
  have shorter := length_tenJsonSkipWs_le p
  have inner := length_tenJsonSkipWs_le (text ++ ascii ']' :: rest)
  rw [starts, List.length_cons] at shorter
  cases steps with
  | zero => omega
  | succ steps =>
      rw [tenJsonParseValue, starts]
      dsimp only
      rw [if_neg (by decide), if_neg (by decide), if_neg (by decide), if_neg (by decide),
        if_pos rfl]
      refine logic.bind (logic.mono (serves.array world) ?_)
      rintro reply after (⟨rfl, short⟩ | ⟨⟨json, rfl, list, rfl, empty⟩, unread⟩)
      · exact logic.pure (.inl ⟨rfl, .inl short⟩)
      obtain ⟨c, tail, head, notClosed⟩ := reads.elements_head derives (ascii ']' :: rest)
      have again := tenJsonSkipWs_idem (text ++ ascii ']' :: rest)
      rw [head] at again inner
      dsimp only
      rw [head]
      dsimp only
      rw [if_neg notClosed]
      have noItems : ∀ item ∈ list.items, item.Valid ∧ item.Regular := by
        rw [empty]
        simp
      apply logic.mono (elements rest (again.trans head.symm) noItems (by omega))
      rintro reply last (⟨rfl, gaveUp⟩ | ⟨numbers, list', pairs, rfl, read⟩)
      · refine .inl ⟨rfl, gaveUp.imp_right ?_⟩
        rintro bad (numbers : JsonTree.Numbers good (.array trees))
        cases numbers with
        | array each => exact bad each
      · have cut : JsonTree.Cut kept (.array trees) (.array (pairs.map Prod.snd)) := by
          rw [← read.trees]
          exact .array read.cuts
        refine .inr ⟨JsonTree.Numbers.array numbers, _, .array (pairs.map Prod.snd), rfl,
          .array fun item member => (read.items item member).1,
          .array fun item member => (read.items item member).2, cut, ?_, ?_⟩
        · rw [JsonNode.tree_array, read.denotes, empty]
          rfl
        · refine (read.reads.congr ?_).preceded unread
          constructor
          · intro each
            refine .array fun tree member => ?_
            obtain ⟨pair, listed, rfl⟩ := List.mem_map.mp member
            exact each pair listed
          · intro clean
            cases clean with
            | array each => exact fun pair listed => each _ (List.mem_map_of_mem listed)

/-- One element has been read: what is left of the loop over an array. -/
theorem readsAs_one_element {tree : JsonTree Bytes} {text : Bytes}
    (value : ReadsAs D logic shortage kept good (.value tree) text) {steps : Nat} {world : World}
    {p after : Bytes} {list : TenList (JsonNode D)}
    {post : Option (JsonNode D × Bytes) → World → Prop}
    (skipped : tenJsonSkipWs p = text ++ after) (ends : EndsSubject after)
    (items : ∀ item ∈ list.items, item.Valid ∧ item.Regular)
    (enough : 2 * p.length + 2 ≤ steps + 1)
    (givesUp : ∀ world, shortage ∨ ¬ tree.Numbers good → post none world)
    (goesOn : ∀ (list' : TenList (JsonNode D)) (tree' : JsonTree Bytes) (between : World),
      tree.Numbers good → JsonTree.Cut kept tree tree' →
      (∀ item ∈ list'.items, item.Valid ∧ item.Regular) →
      list'.items.map JsonNode.tree = list.items.map JsonNode.tree ++ [tree'.denote] →
      world.CleanIff between (tree'.ReplacesCleanly D) →
      logic.Holds (match tenJsonSkipWs after with
        | [] => destroyAndFail (.array list')
        | c :: p =>
            if c = ascii ',' then tenJsonParseElements steps (.array list') p
            else if c = ascii ']' then return some (.array list', p)
            else destroyAndFail (.array list')) between post) :
    logic.Holds (tenJsonParseElements (steps + 1) (.array list) p) world post := by
  rw [tenJsonParseElements]
  refine logic.bind (logic.mono (value after skipped (stops_of_ends ends) (by omega)) ?_)
  rintro reply between (⟨rfl, gaveUp⟩ | ⟨numbers, json, tree', rfl, read⟩)
  · exact holds_destroyAndFail serves _ fun _ => givesUp _ gaveUp
  refine logic.bind (logic.mono (serves.add list json between) ?_)
  rintro ⟨code, json'⟩ last (⟨failed, short⟩ | ⟨⟨list', added, items'⟩, unread⟩)
  · dsimp only
    rw [if_pos failed]
    refine logic.bind (logic.mono (serves.destroy json last) ?_)
    intro _ after _
    exact holds_destroyAndFail serves _ fun _ => givesUp _ (.inl short)
  cases added
  dsimp only
  rw [if_neg (by simp)]
  apply goesOn list' tree' last numbers read.cut
  · rw [items']
    intro item member
    rcases List.mem_append.mp member with old | new
    · exact items item old
    · rw [List.mem_singleton.mp new]
      exact ⟨read.valid, read.regular⟩
  · rw [items', List.map_append, List.map_singleton, read.denotes]
  · exact read.reads.followed unread

theorem readsAs_element (reads : ReadsDialect D g good) {tree : JsonTree Bytes} {text : Bytes}
    (before after : Whitespace) (derives : Derives g (.value tree) text)
    (value : ReadsAs D logic shortage kept good (.value tree) text) :
    ReadsAs D logic shortage kept good (.elements [tree])
      (before.bytes ++ (text ++ after.bytes)) := by
  intro steps world p list rest skipped items enough
  rw [List.append_assoc, List.append_assoc, reads.skip_value derives before] at skipped
  cases steps with
  | zero => omega
  | succ steps =>
      apply readsAs_one_element serves value skipped
        (endsSubject_space after (by decide) rest) items enough
      · rintro world gaveUp
        refine .inl ⟨rfl, gaveUp.imp_right ?_⟩
        intro bad numbers
        exact bad (numbers tree List.mem_cons_self)
      · intro list' tree' world numbers cut items' trees cleanly
        rw [skip_space_cons after (by decide)]
        dsimp only
        rw [if_neg (by decide), if_pos rfl]
        apply logic.pure
        have each : ∀ other ∈ [tree], other.Numbers good := List.forall_mem_singleton.mpr numbers
        exact .inr ⟨each, list', [(tree, tree')], rfl, items', rfl,
          List.forall_mem_singleton.mpr cut, trees,
          cleanly.congr (by simp only [List.mem_singleton, forall_eq])⟩

theorem readsAs_elements (reads : ReadsDialect D g good) {tree : JsonTree Bytes}
    {trees : List (JsonTree Bytes)} {text texts : Bytes} (before after : Whitespace)
    (derives : Derives g (.value tree) text)
    (value : ReadsAs D logic shortage kept good (.value tree) text)
    (others : ReadsAs D logic shortage kept good (.elements trees) texts) :
    ReadsAs D logic shortage kept good (.elements (tree :: trees))
      (before.bytes ++ (text ++ (after.bytes ++ ascii ',' :: texts))) := by
  intro steps world p list rest skipped items enough
  rw [List.append_assoc, List.append_assoc, reads.skip_value derives before, List.append_assoc,
    List.cons_append] at skipped
  have shorter := length_tenJsonSkipWs_le p
  rw [skipped, List.length_append, List.length_append, List.length_cons] at shorter
  cases steps with
  | zero => omega
  | succ steps =>
      apply readsAs_one_element serves value skipped
        (endsSubject_space after (by decide) _) items enough
      · rintro world gaveUp
        refine .inl ⟨rfl, gaveUp.imp_right ?_⟩
        intro bad numbers
        exact bad (numbers tree List.mem_cons_self)
      · intro list' tree' between numbers cut items' itemTrees cleanly
        rw [skip_space_cons after (by decide)]
        dsimp only
        rw [if_pos rfl]
        apply logic.mono (others rest rfl items' (by omega))
        rintro reply last (⟨rfl, gaveUp⟩ | ⟨numbers', list'', pairs, rfl, read⟩)
        · refine .inl ⟨rfl, gaveUp.imp_right ?_⟩
          intro bad all
          exact bad fun other member => all other (List.mem_cons_of_mem tree member)
        · refine .inr ⟨List.forall_mem_cons.mpr ⟨numbers, numbers'⟩, list'', (tree, tree') :: pairs,
            rfl, read.items, ?_, List.forall_mem_cons.mpr ⟨cut, read.cuts⟩, ?_,
            (cleanly.trans read.reads).congr (by rw [List.forall_mem_cons])⟩
          · rw [List.map_cons, read.trees]
          · rw [read.denotes, itemTrees, List.append_assoc]
            rfl

end Arrays

/-! ### Objects -/

section Objects

omit [CDouble D] in
/-- What the getters show of an object says whether a set replaces a value that can be
destroyed without reading a freed key. -/
theorem JsonObject.Valid.replacesCleanly_iff {object : JsonObject (JsonNode D)}
    (valid : object.Valid) (regular : ∀ member ∈ object.members, member.2.Regular)
    (key : TenString) :
    object.ReplacesCleanly key.pointer ↔ ∀ value,
      OrderedMap.lookup (fun key : Bytes => key) key.cstr.bytes object.treeMembers = some value →
        value.Releasable := by
  have shown : OrderedMap.lookup (fun key : Bytes => key) key.cstr.bytes object.treeMembers =
      ((tenMapFind object.entries key.pointer).map MapEntry.value).map JsonNode.tree := by
    rw [valid.find_map_value]
    exact OrderedMap.lookup_map CString.bytes JsonNode.tree
      (fun _ _ => ⟨CString.ext, congrArg CString.bytes⟩) key.cstr object.members
  rw [shown]
  cases found : tenMapFind object.entries key.pointer with
  | none => exact iff_of_true (JsonObject.replacesCleanly_of_absent found) (by simp)
  | some entry =>
      have read : OrderedMap.lookup (fun key : CString => key) key.cstr object.members =
          some entry.value := by
        have value := valid.find_map_value key.pointer
        rw [found] at value
        exact value.symm
      obtain ⟨member, listed, -, same⟩ :=
        (OrderedMap.lookup_eq_some_iff valid.distinct_members).mp read
      have entryRegular : entry.value.Regular := by
        rw [← same]
        exact regular member listed
      unfold JsonObject.ReplacesCleanly
      simp only [found, Option.some.injEq, forall_eq', Option.map_some]
      exact entryRegular.releasable_iff

variable (serves : Serves D logic shortage kept)

include serves

theorem readsAs_emptyObject (space : Whitespace) :
    ReadsAs D logic shortage kept good (.value (.object []))
      (ascii '{' :: (space.bytes ++ [ascii '}'])) := by
  intro steps world p rest skipped _ enough
  have starts : tenJsonSkipWs p = ascii '{' :: (space.bytes ++ ascii '}' :: rest) := by
    rw [skipped]
    simp
  cases steps with
  | zero => omega
  | succ steps =>
      rw [tenJsonParseValue, starts]
      dsimp only
      rw [if_neg (by decide), if_neg (by decide), if_neg (by decide), if_neg (by decide),
        if_neg (by decide), if_pos rfl]
      refine logic.bind (logic.mono (serves.object world) ?_)
      rintro reply after
        (⟨rfl, short⟩ | ⟨⟨json, rfl, object, rfl, valid, regular, noMembers⟩, unread⟩)
      · exact logic.pure (.inl ⟨rfl, .inl short⟩)
      dsimp only
      rw [skip_space_cons space (by decide) rest]
      dsimp only
      rw [if_pos rfl]
      apply logic.pure
      have none : JsonTree.Numbers good (.object []) := .object (fun _ member => by cases member)
      have cut : JsonTree.Cut kept (.object []) (.object []) :=
        @JsonTree.Cut.object kept [] (fun _ member => by cases member)
          (fun _ member => by cases member)
      refine .inr ⟨none, _, .object [], rfl, .of_unread (.object valid ?_)
        (.object valid regular ?_) cut ?_ (.object ?_ .nil) unread⟩
      · rw [noMembers]
        exact List.forall_mem_nil _
      · rw [noMembers]
        exact List.forall_mem_nil _
      · rw [JsonNode.tree_object, noMembers]
        rfl
      · exact List.forall_mem_nil _

theorem readsAs_object {members : List (Bytes × JsonTree Bytes)} {text : Bytes}
    (derives : Derives g (.members members) text)
    (list : ReadsAs D logic shortage kept good (.members members) text) :
    ReadsAs D logic shortage kept good (.value (.object members))
      (ascii '{' :: (text ++ [ascii '}'])) := by
  intro steps world p rest skipped _ enough
  have starts : tenJsonSkipWs p = ascii '{' :: (text ++ ascii '}' :: rest) := by
    rw [skipped]
    simp
  have shorter := length_tenJsonSkipWs_le p
  have inner := length_tenJsonSkipWs_le (text ++ ascii '}' :: rest)
  rw [starts, List.length_cons] at shorter
  cases steps with
  | zero => omega
  | succ steps =>
      rw [tenJsonParseValue, starts]
      dsimp only
      rw [if_neg (by decide), if_neg (by decide), if_neg (by decide), if_neg (by decide),
        if_neg (by decide), if_pos rfl]
      refine logic.bind (logic.mono (serves.object world) ?_)
      rintro reply after
        (⟨rfl, short⟩ | ⟨⟨json, rfl, object, rfl, valid, regular, noMembers⟩, unread⟩)
      · exact logic.pure (.inl ⟨rfl, .inl short⟩)
      obtain ⟨c, tail, head, notClosed⟩ := members_head derives (ascii '}' :: rest)
      have again := tenJsonSkipWs_idem (text ++ ascii '}' :: rest)
      rw [head] at again inner
      dsimp only
      rw [head]
      dsimp only
      rw [if_neg notClosed]
      apply logic.mono (list rest (again.trans head.symm) valid regular (by rw [noMembers]; simp)
        (by omega))
      rintro reply last (⟨rfl, gaveUp⟩ | ⟨numbers, object', pairs, rfl, read⟩)
      · refine .inl ⟨rfl, gaveUp.imp_right ?_⟩
        rintro bad (numbers : JsonTree.Numbers good (.object members))
        cases numbers with
        | object each => exact bad each
      · have fresh : object.treeMembers = [] := by
          rw [JsonObject.treeMembers, noMembers]
          rfl
        have cut : JsonTree.Cut kept (.object members) (.object (pairs.map Prod.snd)) := by
          rw [← read.members]
          exact .object read.keys read.cuts
        refine .inr ⟨JsonTree.Numbers.object numbers, _, .object (pairs.map Prod.snd), rfl,
          .object read.valid fun member listed => (read.values member listed).1,
          .object read.valid read.regular fun member listed => (read.values member listed).2,
          cut, ?_, (read.reads.congr ?_).preceded unread⟩
        · rw [JsonNode.tree_object, JsonTree.denote, ← OrderedMap.ofList_eq_collapse]
          have shown := read.denotes
          rw [fresh] at shown
          exact congrArg JsonTree.object shown
        · rw [fresh, JsonTree.replacesCleanly_object_iff, List.forall_mem_map]

/-- One member has been read: what is left of the loop over an object. -/
theorem readsAs_one_member (reads : ReadsDialect D g good) {tree : JsonTree Bytes}
    {key content text : Bytes} (chars : CharsText Dialect.accepted key content)
    (derives : Derives g (.value tree) text)
    (value : ReadsAs D logic shortage kept good (.value tree) text)
    {steps : Nat} {world : World} {p after : Bytes} {beforeColon beforeValue : Whitespace}
    {object : JsonObject (JsonNode D)} {post : Option (JsonNode D × Bytes) → World → Prop}
    (skipped : tenJsonSkipWs p = ascii '"' :: (key ++ ascii '"' :: (beforeColon.bytes ++
      ascii ':' :: (beforeValue.bytes ++ (text ++ after)))))
    (ends : EndsSubject after) (valid : object.Valid) (regular : object.Regular)
    (values : ∀ member ∈ object.members, member.2.Valid ∧ member.2.Regular)
    (enough : 2 * p.length + 2 ≤ steps + 1)
    (givesUp : ∀ world, shortage ∨ ¬ tree.Numbers good → post none world)
    (goesOn : ∀ (object' : JsonObject (JsonNode D)) (content' : Bytes) (tree' : JsonTree Bytes)
      (between : World), tree.Numbers good → kept content content' →
      JsonTree.Cut kept tree tree' → object'.Valid → object'.Regular →
      (∀ member ∈ object'.members, member.2.Valid ∧ member.2.Regular) →
      object'.treeMembers =
        OrderedMap.insert (fun key : Bytes => key) content' tree'.denote object.treeMembers →
      world.CleanIff between (tree'.ReplacesCleanly D ∧ ∀ value,
        OrderedMap.lookup (fun key : Bytes => key) content' object.treeMembers = some value →
          value.Releasable) →
      logic.Holds (match tenJsonSkipWs after with
        | [] => destroyAndFail (.object object')
        | c :: p =>
            if c = ascii ',' then tenJsonParseMembers steps (.object object') p
            else if c = ascii '}' then return some (.object object', p)
            else destroyAndFail (.object object')) between post) :
    logic.Holds (tenJsonParseMembers (steps + 1) (.object object) p) world post := by
  have shorter := length_tenJsonSkipWs_le p
  rw [skipped] at shorter
  simp only [List.length_cons, List.length_append] at shorter
  rw [tenJsonParseMembers, skipped]
  refine logic.bind (logic.mono (serves.string chars _ world) ?_)
  rintro reply between (⟨rfl, short⟩ | ⟨⟨string, rfl, stringValid, same⟩, unread⟩)
  · exact holds_destroyAndFail serves _ fun _ => givesUp _ (.inl short)
  dsimp only
  rw [skip_space_cons beforeColon (by decide)]
  dsimp only
  rw [if_neg (by simp)]
  refine logic.bind (logic.mono (value after (reads.skip_value derives beforeValue after)
    (stops_of_ends ends) (by simp only [List.length_append]; omega)) ?_)
  rintro reply last (⟨rfl, gaveUp⟩ | ⟨numbers, json, tree', rfl, read⟩)
  · exact holds_destroyAndFail serves _ fun _ => givesUp _ gaveUp
  refine logic.bind (logic.mono (serves.set valid regular stringValid json last) ?_)
  rintro ⟨code, object'⟩ final
    (⟨failed, short⟩ | ⟨⟨object'', done, valid', regular', members⟩, cleanly⟩)
  · dsimp only
    rw [if_pos failed]
    refine logic.bind (logic.mono (serves.destroy json final) ?_)
    intro _ after _
    exact holds_destroyAndFail serves _ fun _ => givesUp _ (.inl short)
  cases done
  dsimp only
  rw [if_neg (by simp)]
  apply goesOn object' string.cstr.bytes tree' final numbers same read.cut valid' regular'
  · rw [members]
    exact OrderedMap.forall_insert (P := fun value : JsonNode D => value.Valid ∧ value.Regular)
      values ⟨read.valid, read.regular⟩
  · rw [treeMembers_of_insert members, read.denotes]
  · have shown := valid.replacesCleanly_iff (fun member listed => (values member listed).2) string
    exact ((read.reads.trans cleanly).congr (and_congr_right fun _ => shown)).preceded unread

theorem readsAs_member (reads : ReadsDialect D g good) {tree : JsonTree Bytes}
    {key content text : Bytes} (before beforeColon beforeValue after : Whitespace)
    (chars : CharsText Dialect.accepted key content) (derives : Derives g (.value tree) text)
    (value : ReadsAs D logic shortage kept good (.value tree) text) :
    ReadsAs D logic shortage kept good (.members [(content, tree)])
      (before.bytes ++ ascii '"' :: (key ++ ascii '"' :: (beforeColon.bytes ++
        ascii ':' :: (beforeValue.bytes ++ (text ++ after.bytes))))) := by
  intro steps world p object rest skipped valid regular values enough
  simp only [List.append_assoc, List.cons_append] at skipped
  rw [skip_space_cons before (by decide)] at skipped
  cases steps with
  | zero => omega
  | succ steps =>
      apply readsAs_one_member serves reads chars derives value skipped
        (endsSubject_space after (by decide) rest) valid regular values enough
      · intro world gaveUp
        refine .inl ⟨rfl, gaveUp.imp_right ?_⟩
        intro bad numbers
        exact bad (numbers (content, tree) List.mem_cons_self)
      · intro object' content' tree' between numbers same cut valid' regular' values' treeMembers
          cleanly
        rw [skip_space_cons after (by decide)]
        dsimp only
        rw [if_neg (by decide), if_pos rfl]
        apply logic.pure
        refine .inr ⟨List.forall_mem_singleton.mpr numbers, object',
          [((content, tree), content', tree')], rfl, valid', regular', values', rfl,
          List.forall_mem_singleton.mpr same, List.forall_mem_singleton.mpr cut, treeMembers,
          cleanly.congr ?_⟩
        simp only [List.mem_singleton, forall_eq, List.map_cons, List.map_nil,
          JsonTree.denoteMembers, OrderedMap.Replaced, and_true]

theorem readsAs_members (reads : ReadsDialect D g good) {tree : JsonTree Bytes}
    {members : List (Bytes × JsonTree Bytes)} {key content text texts : Bytes}
    (before beforeColon beforeValue after : Whitespace)
    (chars : CharsText Dialect.accepted key content) (derives : Derives g (.value tree) text)
    (value : ReadsAs D logic shortage kept good (.value tree) text)
    (others : ReadsAs D logic shortage kept good (.members members) texts) :
    ReadsAs D logic shortage kept good (.members ((content, tree) :: members))
      (before.bytes ++ ascii '"' :: (key ++ ascii '"' :: (beforeColon.bytes ++
        ascii ':' :: (beforeValue.bytes ++ (text ++ (after.bytes ++ ascii ',' :: texts)))))) := by
  intro steps world p object rest skipped valid regular values enough
  simp only [List.append_assoc, List.cons_append] at skipped
  rw [skip_space_cons before (by decide)] at skipped
  have shorter := length_tenJsonSkipWs_le p
  rw [skipped] at shorter
  simp only [List.length_cons, List.length_append] at shorter
  cases steps with
  | zero => omega
  | succ steps =>
      apply readsAs_one_member serves reads chars derives value skipped
        (endsSubject_space after (by decide) _) valid regular values enough
      · intro world gaveUp
        refine .inl ⟨rfl, gaveUp.imp_right ?_⟩
        intro bad numbers
        exact bad (numbers (content, tree) List.mem_cons_self)
      · intro object' content' tree' between numbers same cut valid' regular' values' treeMembers
          cleanly
        rw [skip_space_cons after (by decide)]
        dsimp only
        rw [if_pos rfl]
        apply logic.mono (others rest rfl valid' regular' values'
          (by simp only [List.length_cons, List.length_append]; omega))
        rintro reply last (⟨rfl, gaveUp⟩ | ⟨numbers', object'', pairs, rfl, read⟩)
        · refine .inl ⟨rfl, gaveUp.imp_right ?_⟩
          intro bad all
          exact bad fun other member => all other (List.mem_cons_of_mem _ member)
        · refine .inr ⟨List.forall_mem_cons.mpr ⟨numbers, numbers'⟩, object'',
            ((content, tree), content', tree') :: pairs, rfl, read.valid, read.regular, read.values,
            ?_, List.forall_mem_cons.mpr ⟨same, read.keys⟩,
            List.forall_mem_cons.mpr ⟨cut, read.cuts⟩, ?_, (cleanly.trans read.reads).congr ?_⟩
          · rw [List.map_cons, read.members]
          · rw [read.denotes, treeMembers]
            rfl
          · rw [treeMembers, List.forall_mem_cons, List.map_cons, JsonTree.denoteMembers,
              OrderedMap.Replaced]
            exact and_and_and_comm

end Objects

/-- The parser reads every piece of text of the dialect: one case for each rule
of the grammar. -/
theorem readsAs_of_derives (serves : Serves D logic shortage kept)
    (reads : ReadsDialect D g good) {phrase : Phrase} {text : Bytes}
    (derives : Derives g phrase text) : ReadsAs D logic shortage kept good phrase text := by
  induction derives with
  | litNull => exact readsAs_null serves
  | litTrue => exact readsAs_true serves
  | litFalse => exact readsAs_false serves
  | number allowed => exact readsAs_number serves reads allowed
  | string chars => exact readsAs_string serves (reads.strings chars)
  | emptyArray space => exact readsAs_emptyArray serves space
  | array elements read => exact readsAs_array serves reads elements read
  | emptyObject space => exact readsAs_emptyObject serves space
  | object list read => exact readsAs_object serves list read
  | element before after value read => exact readsAs_element serves reads before after value read
  | elements before after value _ read others =>
      exact readsAs_elements serves reads before after value read others
  | member before beforeColon beforeValue after chars value read =>
      exact readsAs_member serves reads before beforeColon beforeValue after
        (reads.strings chars) value read
  | members before beforeColon beforeValue after chars value _ read others =>
      exact readsAs_members serves reads before beforeColon beforeValue after
        (reads.strings chars) value read others

/-- `ten_json_parse` on a document of the dialect. -/
theorem tenJsonParse_readsAs (serves : Serves D logic shortage kept)
    (reads : ReadsDialect D g good) {tree : JsonTree Bytes} (text : CString)
    (renders : JsonText g tree text.bytes) (world : World) :
    logic.Holds (tenJsonParse (D := D) (some text)) world (fun reply after =>
      (reply = none ∧ (shortage ∨ ¬ tree.Numbers good)) ∨
        (tree.Numbers good ∧ ∃ json tree', reply = some json ∧
          ReadValue kept tree world json tree' after ∧ after.lastError = .ok)) := by
  obtain ⟨bytes, noNul⟩ := text
  cases renders with
  | intro before after value =>
      rename_i text
      have ends : EndsSubject after.bytes := by
        intro b first
        have isSpace := after.spaces b (List.mem_of_mem_head? first)
        have apart : ∀ b : Byte, isJsonSpace b = true → isSubjectByte b = false := by
          apply forall_byte
          decide
        exact apart b isSpace
      have allRead : tenJsonSkipWs after.bytes = [] := by
        have skipped := tenJsonSkipWs_space after []
        rw [List.append_nil] at skipped
        exact skipped
      have readText : ReadsAs D logic shortage kept good (.value tree) text :=
        readsAs_of_derives serves reads value
      rw [tenJsonParse]
      refine logic.bind (logic.mono (readText after.bytes
        (reads.skip_value value before after.bytes) (stops_of_ends ends) (Nat.le_refl _)) ?_)
      rintro reply last (⟨rfl, gaveUp⟩ | ⟨numbers, json, tree', rfl, read⟩)
      · apply logic.bind
        apply serves.setError
        exact logic.pure (.inl ⟨rfl, gaveUp⟩)
      · dsimp only
        rw [if_neg (by simp [allRead])]
        apply logic.bind
        apply serves.setError
        exact logic.pure (.inr ⟨numbers, json, tree', rfl,
          ⟨read.valid, read.regular, read.cut, read.denotes, read.reads.followed rfl⟩, rfl⟩)

end Rules

end Dotten
