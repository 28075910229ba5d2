/-
Module: Dotten.Containers.StringCalls
Layer: Containers
Purpose: The strings that a program makes and appends to, in whatever order and
  whichever allocations are refused: what is kept of their blocks, and what each
  call does to their contents.
Imports: Dotten.Containers.TenString, Dotten.Library.Block, Dotten.Library.Lines
Main exports: tenStringSubstring, tenStringEquals, tenStringContains, StringCall,
  TenString.Terminated, StringStep, perform_stepKept, tenStrings_run
-/
import Dotten.Containers.TenString
import Dotten.Library.Block
import Dotten.Library.Lines

namespace Dotten

open Dotten.Library

/-- `ten_string_substring`.  The subtraction does not wrap, since the disjunct
before it holds when it would. -/
def tenStringSubstring (string : Option TenString) (start length : Nat) : Ten (Option TenString) :=
  match string with
  | none => do
      tenSetError .nullArgument
      return none
  | some string => do
      if start > string.length ∨ length > string.length - start then
        tenSetError .outOfRange
        return none
      else
        let some result ← tenStringAlloc (length + 1)
          | return none
        let some slice := readBlock string.data start length
          | stuck
        tenSetError .ok
        return some { result with data := slice ++ [0], length }

/-- `ten_string_equals`: `memcmp` reads as many bytes of both blocks as the first
string is long. -/
def tenStringEquals (a b : Option TenString) : Ten Bool :=
  match a, b with
  | some a, some b => do
      tenSetError .ok
      if a.length ≠ b.length then
        return false
      else
        let some left := readBlock a.data 0 a.length
          | stuck
        let some right := readBlock b.data 0 a.length
          | stuck
        return left == right
  | _, _ => do
      tenSetError .nullArgument
      return false

/-- `ten_string_contains`: `strstr` reads the block up to its NUL. -/
def tenStringContains (string : Option TenString) (text : Option CString) : Ten Bool :=
  match string, text with
  | some string, some text => do
      tenSetError .ok
      if 0 ∈ string.data then
        return (findSlice text.bytes string.cstr.bytes).isSome
      else
        stuck
  | _, _ => do
      tenSetError .nullArgument
      return false

/-- The calls of a program on its strings, which it numbers as they are made.  A
number that no string has stands for NULL. -/
inductive StringCall where
  | create (text : Option CString)
  | empty
  | append (string : Nat) (text : Option CString)
  | substring (string start length : Nat)
  | equals (a b : Nat)
  | contains (string : Nat) (text : Option CString)
deriving DecidableEq, Repr

/-- What a call answers: a new string, NULL with the error state, a code, or 0
or 1. -/
inductive StringReply where
  | made
  | null (code : TenErrorCode)
  | code (code : TenErrorCode)
  | answer (holds : Bool)
deriving DecidableEq, Repr

/-- The answer of a function that makes a string. -/
def StringReply.ofNew (strings : List TenString) (made : Option TenString) :
    Ten (StringReply × List TenString) :=
  match made with
  | some string => return (.made, strings ++ [string])
  | none => do
      let code ← tenLastError
      return (.null code, strings)

/-- A call on the strings made so far. -/
def StringCall.perform (strings : List TenString) : StringCall → Ten (StringReply × List TenString)
  | .create text => do
      let made ← tenStringCreate text
      StringReply.ofNew strings made
  | .empty => do
      let made ← tenStringEmpty
      StringReply.ofNew strings made
  | .append string text =>
      match strings[string]?, text with
      | some old, some text => do
          let (rc, new) ← tenStringAppend old text
          return (.code rc, strings.set string new)
      | _, _ => do
          tenSetError .nullArgument
          return (.code .nullArgument, strings)
  | .substring string start length => do
      let made ← tenStringSubstring strings[string]? start length
      StringReply.ofNew strings made
  | .equals a b => do
      let same ← tenStringEquals strings[a]? strings[b]?
      return (.answer same, strings)
  | .contains string text => do
      let found ← tenStringContains strings[string]? text
      return (.answer found, strings)

/-- The strings that calls leave, one after the other. -/
def performStrings (strings : List TenString) : List StringCall → Ten (List TenString)
  | [] => return strings
  | call :: calls => do
      let (_, strings) ← call.perform strings
      performStrings strings calls

namespace TenString

/-- The bytes that count. -/
def contents (string : TenString) : Bytes := string.data.take string.length

/-- What other modules rely on when they use the C string and the stored length
for each other. -/
structure Terminated (string : TenString) : Prop where
  noNul : (0 : Byte) ∉ string.contents
  nul : string.data[string.length]? = some 0
  fits : string.length < string.capacity

variable {string : TenString}

theorem Valid.contents_eq (valid : string.Valid) : string.contents = string.cstr.bytes := by
  rw [contents, valid.data_eq, valid.length_eq, CString.length, List.take_left]

theorem Valid.length_contents (valid : string.Valid) : string.contents.length = string.length := by
  rw [valid.contents_eq, valid.length_eq, CString.length]

theorem Valid.data_contents (valid : string.Valid) : string.data = string.contents ++ [0] := by
  rw [valid.contents_eq]
  exact valid.data_eq

theorem Valid.terminated (valid : string.Valid) : string.Terminated where
  noNul := by
    rw [valid.contents_eq]
    exact string.cstr.noNul
  nul := by
    rw [← valid.length_contents, valid.data_contents, List.getElem?_append_right (Nat.le_refl _),
      Nat.sub_self, List.getElem?_cons_zero]
  fits := valid.fits

/-- A block that holds the bytes and a NUL. -/
theorem valid_of_contents {content : Bytes} (data : string.data = content ++ [0])
    (length : string.length = content.length) (noNul : (0 : Byte) ∉ content)
    (fits : string.length < string.capacity) : string.Valid ∧ string.contents = content := by
  have valid : string.Valid := valid_of_data (c := ⟨content, noNul⟩) data length fits
  refine ⟨valid, ?_⟩
  rw [contents, data, length, List.take_left]

end TenString

/-- Both requests for a new string are granted. -/
def NewBlocks (grants : Schedule) (requests : Nat) : Prop :=
  grants requests = true ∧ grants (requests + 1) = true

/-- What the string holds that a call makes, if it makes one. -/
def StringCall.newContent (pool : List Bytes) : StringCall → Option Bytes
  | .create text => text.map CString.bytes
  | .empty => some []
  | .substring string start length => do
      let content ← pool[string]?
      if start + length ≤ content.length then some ((content.drop start).take length) else none
  | _ => none

/-- What a call does to the contents of the strings, after a number of
requests. -/
inductive StringStep (grants : Schedule) (requests : Nat) (pool : List Bytes) :
    StringCall → StringReply → List Bytes → Prop where
  | made {call : StringCall} {content : Bytes} (new : call.newContent pool = some content)
      (granted : NewBlocks grants requests) :
      StringStep grants requests pool call .made (pool ++ [content])
  | refused {call : StringCall} {content : Bytes} (new : call.newContent pool = some content)
      (refused : ¬ NewBlocks grants requests) :
      StringStep grants requests pool call (.null .outOfMemory) pool
  | noText : StringStep grants requests pool (.create none) (.null .nullArgument) pool
  | noString {string start length : Nat} (absent : pool[string]? = none) :
      StringStep grants requests pool (.substring string start length) (.null .nullArgument) pool
  | outOfRange {string start length : Nat} {content : Bytes} (here : pool[string]? = some content)
      (beyond : content.length < start + length) :
      StringStep grants requests pool (.substring string start length) (.null .outOfRange) pool
  | appended {string : Nat} {text : CString} {content : Bytes}
      (here : pool[string]? = some content) :
      StringStep grants requests pool (.append string (some text)) (.code .ok)
        (pool.set string (content ++ text.bytes))
  | appendRefused {string : Nat} {text : CString} {content : Bytes}
      (here : pool[string]? = some content) (refused : grants requests = false) :
      StringStep grants requests pool (.append string (some text)) (.code .outOfMemory) pool
  | appendNull {string : Nat} {text : Option CString}
      (absent : pool[string]? = none ∨ text = none) :
      StringStep grants requests pool (.append string text) (.code .nullArgument) pool
  | compared {a b : Nat} {left right : Bytes} (hereLeft : pool[a]? = some left)
      (hereRight : pool[b]? = some right) :
      StringStep grants requests pool (.equals a b) (.answer (decide (left = right))) pool
  | compareNull {a b : Nat} (absent : pool[a]? = none ∨ pool[b]? = none) :
      StringStep grants requests pool (.equals a b) (.answer false) pool
  | searched {string : Nat} {text : CString} {content : Bytes}
      (here : pool[string]? = some content) :
      StringStep grants requests pool (.contains string (some text))
        (.answer (decide (text.bytes <:+: content))) pool
  | searchNull {string : Nat} {text : Option CString}
      (absent : pool[string]? = none ∨ text = none) :
      StringStep grants requests pool (.contains string text) (.answer false) pool

section Making

variable {grants : Schedule} {world : World}

/-- A string with the content is made, exactly when both requests are granted, in
a block of the initial capacity or one that the content just fits. -/
def MakesString (grants : Schedule) (world : World) (content : Bytes) (made : Option TenString)
    (after : World) : Prop :=
  (¬ NewBlocks grants world.requests ∧ made = none ∧ after.lastError = .outOfMemory) ∨
    (NewBlocks grants world.requests ∧ ∃ string, made = some string ∧ string.Valid ∧
      string.contents = content ∧
      string.capacity = max tenStringInitialCapacity (content.length + 1))

theorem makesString_of_data {content : Bytes} {string : TenString} {after : World}
    (granted : NewBlocks grants world.requests) (data : string.data = content ++ [0])
    (length : string.length = content.length) (noNul : (0 : Byte) ∉ content)
    (capacity : string.capacity = max tenStringInitialCapacity (content.length + 1)) :
    MakesString grants world content (some string) after := by
  obtain ⟨valid, holds⟩ := TenString.valid_of_contents data length noNul (by omega)
  exact .inr ⟨granted, string, rfl, valid, holds, capacity⟩

theorem tenStringCreate_makes (text : CString) :
    Returns (tenStringCreate (some text)) grants world (MakesString grants world text.bytes) := by
  rw [tenStringCreate, returns_bind]
  apply (tenStringAlloc_blocks _).mono
  rintro made after ⟨-, ⟨refused, rfl, error⟩ | ⟨granted, rfl, -⟩⟩
  · rw [returns_pure]
    exact .inl ⟨refused, rfl, error⟩
  · simp only [returns_bind, returns_tenSetError, returns_pure]
    exact makesString_of_data granted rfl rfl text.noNul rfl

theorem tenStringEmpty_makes :
    Returns tenStringEmpty grants world (MakesString grants world []) := by
  rw [tenStringEmpty, returns_bind]
  apply (tenStringAlloc_blocks _).mono
  rintro made after ⟨-, ⟨refused, rfl, error⟩ | ⟨granted, rfl, -⟩⟩
  · rw [returns_pure]
    exact .inl ⟨refused, rfl, error⟩
  · simp only [returns_bind, returns_tenSetError, returns_pure]
    exact makesString_of_data granted rfl rfl (by simp) rfl

/-- The range test is exact: nothing in it wraps. -/
theorem substring_range {start length size : Nat} :
    (start > size ∨ length > size - start) ↔ size < start + length := by
  omega

/-- A slice within the string. -/
theorem tenStringSubstring_makes {string : TenString} (valid : string.Valid) {start length : Nat}
    (within : start + length ≤ string.contents.length) :
    Returns (tenStringSubstring (some string) start length) grants world
      (MakesString grants world ((string.contents.drop start).take length)) := by
  have size := valid.length_contents
  have inside : ¬ (start > string.length ∨ length > string.length - start) := by
    rw [substring_range]
    omega
  have sliced : ((string.contents.drop start).take length).length = length := by
    simp only [List.length_take, List.length_drop]
    omega
  have read : readBlock string.data start length =
      some ((string.contents.drop start).take length) := by
    have there : start + length ≤ (string.contents ++ [(0 : Byte)]).length := by
      rw [List.length_append]
      omega
    have short : length ≤ (string.contents.drop start).length := by
      rw [List.length_drop]
      omega
    rw [valid.data_contents, readBlock, if_pos there, List.drop_append_of_le_length (by omega),
      List.take_append_of_le_length short]
  have noNul : (0 : Byte) ∉ (string.contents.drop start).take length := by
    intro member
    exact valid.terminated.noNul (List.mem_of_mem_drop (List.mem_of_mem_take member))
  rw [tenStringSubstring, if_neg inside, returns_bind]
  apply (tenStringAlloc_blocks _).mono
  rintro made after ⟨-, ⟨refused, rfl, error⟩ | ⟨granted, rfl, -⟩⟩
  · rw [returns_pure]
    exact .inl ⟨refused, rfl, error⟩
  · simp only [read, returns_bind, returns_tenSetError, returns_pure]
    refine makesString_of_data granted rfl sliced.symm noNul ?_
    rw [sliced]

end Making

section Appending

variable {grants : Schedule} {world : World} {string : TenString}

/-- An append fails only for want of a block. -/
theorem tenStringAppend_refusal (text : CString) :
    Returns (tenStringAppend string text) grants world (fun reply _ =>
      reply.1 = .outOfMemory → grants world.requests = false) := by
  unfold tenStringAppend
  apply returns_ite
  · intro _
    simp only [returns_bind, returns_tenRealloc, returns_tenMalloc, returns_tenSetError,
      returns_pure]
    exact ⟨fun _ impossible => (TenErrorCode.noConfusion impossible), fun refused _ => refused⟩
  · intro _
    simp only [returns_bind, returns_tenSetError, returns_pure]
    intro impossible
    cases impossible

/-- An append is concatenation, or changes nothing. -/
theorem tenStringAppend_contents (valid : string.Valid) (text : CString) :
    Returns (tenStringAppend string text) grants world (fun reply _ =>
      (reply.1 = .ok ∧ reply.2.Valid ∧ reply.2.contents = string.contents ++ text.bytes) ∨
        (reply.1 = .outOfMemory ∧ reply.2 = string ∧ grants world.requests = false)) := by
  apply ((tenStringAppend_spec valid text).and (tenStringAppend_refusal text)).mono
  rintro ⟨rc, after⟩ _ ⟨⟨-, -, -, outcome⟩, refusal⟩
  cases outcome with
  | appended validAfter cstr =>
      refine .inl ⟨rfl, validAfter, ?_⟩
      rw [validAfter.contents_eq, valid.contents_eq, cstr, CString.append_bytes]
  | refused _ => exact .inr ⟨rfl, rfl, refusal rfl⟩

end Appending

section Queries

variable {grants : Schedule} {world : World} {string : TenString}

theorem TenString.Valid.read (valid : string.Valid) {size : Nat} (same : string.length = size) :
    readBlock string.data 0 size = some string.contents := by
  have there : 0 + size ≤ string.data.length := by
    rw [valid.data_contents, List.length_append, valid.length_contents]
    omega
  rw [readBlock, if_pos there, List.drop_zero, ← same]
  rfl

/-- `ten_string_equals` compares the contents. -/
theorem tenStringEquals_contents {a b : TenString} (validA : a.Valid) (validB : b.Valid) :
    Returns (tenStringEquals (some a) (some b)) grants world (fun answer _ =>
      answer = decide (a.contents = b.contents)) := by
  have lengthA := validA.length_contents
  have lengthB := validB.length_contents
  simp only [tenStringEquals, returns_bind, returns_tenSetError]
  apply returns_ite
  · intro different
    rw [returns_pure, eq_comm, decide_eq_false_iff_not]
    intro same
    rw [same, lengthB] at lengthA
    exact different lengthA.symm
  · intro same
    rw [not_not] at same
    simp only [validA.read rfl, validB.read same.symm, returns_pure]
    exact beq_eq_decide _ _

/-- `ten_string_contains` looks for the text in the contents. -/
theorem tenStringContains_contents (valid : string.Valid) (text : CString) :
    Returns (tenStringContains (some string) (some text)) grants world (fun answer _ =>
      answer = decide (text.bytes <:+: string.contents)) := by
  have ends : (0 : Byte) ∈ string.data := by
    rw [valid.data_contents]
    simp
  simp only [tenStringContains, returns_bind, returns_tenSetError, if_pos ends, returns_pure]
  rw [Bool.eq_iff_iff, decide_eq_true_iff, isSome_findSlice, valid.contents_eq]

end Queries

section Steps

variable {grants : Schedule} {world : World} {strings : List TenString}

/-- All strings made so far are in good order. -/
def AllValid (strings : List TenString) : Prop :=
  ∀ string ∈ strings, string.Valid

theorem AllValid.append (all : AllValid strings) {string : TenString} (valid : string.Valid) :
    AllValid (strings ++ [string]) := by
  intro other member
  rcases List.mem_append.mp member with old | new
  · exact all other old
  · rw [List.mem_singleton.mp new]
    exact valid

theorem AllValid.set (all : AllValid strings) {string : TenString} (valid : string.Valid)
    (i : Nat) : AllValid (strings.set i string) := by
  intro other member
  rcases List.mem_or_eq_of_mem_set member with old | rfl
  · exact all other old
  · exact valid

/-- The contents of the strings. -/
abbrev poolOf (strings : List TenString) : List Bytes := strings.map TenString.contents

theorem poolOf_none {i : Nat} (absent : strings[i]? = none) : (poolOf strings)[i]? = none := by
  rw [poolOf, List.getElem?_map, absent, Option.map_none]

theorem poolOf_some {i : Nat} {string : TenString} (here : strings[i]? = some string) :
    (poolOf strings)[i]? = some string.contents := by
  rw [poolOf, List.getElem?_map, here, Option.map_some]

theorem poolOf_append (string : TenString) :
    poolOf (strings ++ [string]) = poolOf strings ++ [string.contents] :=
  List.map_append

theorem poolOf_set (i : Nat) (string : TenString) :
    poolOf (strings.set i string) = (poolOf strings).set i string.contents :=
  List.map_set

theorem set_same {i : Nat} {string : TenString} (here : strings[i]? = some string) :
    strings.set i string = strings := by
  obtain ⟨below, rfl⟩ := List.getElem?_eq_some_iff.mp here
  exact List.set_getElem_self below

/-- What a call leaves in good order, and does as a step on the contents. -/
def StepKept (grants : Schedule) (world : World) (strings : List TenString) (call : StringCall)
    (out : StringReply × List TenString) : Prop :=
  AllValid out.2 ∧ StringStep grants world.requests (poolOf strings) call out.1 (poolOf out.2)

/-- The answer of a call that makes a string with the content. -/
theorem ofNew_stepKept {call : StringCall} {content : Bytes} {made : Option TenString}
    {after : World} (all : AllValid strings) (new : call.newContent (poolOf strings) = some content)
    (makes : MakesString grants world content made after) :
    Returns (StringReply.ofNew strings made) grants after
      (fun out _ => StepKept grants world strings call out) := by
  obtain ⟨refused, rfl, error⟩ | ⟨granted, string, rfl, valid, holds, -⟩ := makes
  · rw [StringReply.ofNew, returns_bind, returns_tenLastError, returns_pure, error]
    exact ⟨all, .refused new refused⟩
  · rw [StringReply.ofNew, returns_pure]
    refine ⟨all.append valid, ?_⟩
    rw [poolOf_append, holds]
    exact .made new granted

theorem create_stepKept (all : AllValid strings) (text : Option CString) :
    Returns ((StringCall.create text).perform strings) grants world
      (fun out _ => StepKept grants world strings (.create text) out) := by
  rw [StringCall.perform, returns_bind]
  cases text with
  | none =>
      simp only [tenStringCreate, StringReply.ofNew, returns_bind, returns_tenSetError,
        returns_tenLastError, returns_pure]
      exact ⟨all, .noText⟩
  | some text =>
      apply (tenStringCreate_makes text).mono
      intro made after makes
      exact ofNew_stepKept all rfl makes

theorem append_stepKept (all : AllValid strings) (i : Nat) (text : Option CString) :
    Returns ((StringCall.append i text).perform strings) grants world
      (fun out _ => StepKept grants world strings (.append i text) out) := by
  cases here : strings[i]? with
  | none =>
      simp only [StringCall.perform, here, returns_bind, returns_tenSetError, returns_pure]
      exact ⟨all, .appendNull (.inl (poolOf_none here))⟩
  | some string =>
      cases text with
      | none =>
          simp only [StringCall.perform, here, returns_bind, returns_tenSetError, returns_pure]
          exact ⟨all, .appendNull (.inr rfl)⟩
      | some text =>
          have there := poolOf_some here
          simp only [StringCall.perform, here, returns_bind]
          apply (tenStringAppend_contents (all string (List.mem_of_getElem? here)) text).mono
          rintro ⟨rc, after⟩ _ (⟨rfl, valid, holds⟩ | ⟨rfl, rfl, refused⟩)
          · rw [returns_pure]
            refine ⟨all.set valid i, ?_⟩
            rw [poolOf_set, holds]
            exact .appended there
          · rw [returns_pure, set_same here]
            exact ⟨all, .appendRefused there refused⟩

theorem substring_stepKept (all : AllValid strings) (i start length : Nat) :
    Returns ((StringCall.substring i start length).perform strings) grants world
      (fun out _ => StepKept grants world strings (.substring i start length) out) := by
  rw [StringCall.perform, returns_bind]
  cases here : strings[i]? with
  | none =>
      simp only [tenStringSubstring, StringReply.ofNew, returns_bind, returns_tenSetError,
        returns_tenLastError, returns_pure]
      exact ⟨all, .noString (poolOf_none here)⟩
  | some string =>
      have there := poolOf_some here
      have valid := all string (List.mem_of_getElem? here)
      by_cases within : start + length ≤ string.contents.length
      · apply (tenStringSubstring_makes valid within).mono
        intro made after makes
        refine ofNew_stepKept all ?_ makes
        simp only [StringCall.newContent, there, Option.bind_eq_bind, Option.bind_some,
          if_pos within]
      · have beyond := within
        rw [valid.length_contents, Nat.not_le, ← substring_range] at beyond
        simp only [tenStringSubstring, if_pos beyond, StringReply.ofNew, returns_bind,
          returns_tenSetError, returns_tenLastError, returns_pure]
        exact ⟨all, .outOfRange there (Nat.not_le.mp within)⟩

theorem equals_stepKept (all : AllValid strings) (i j : Nat) :
    Returns ((StringCall.equals i j).perform strings) grants world
      (fun out _ => StepKept grants world strings (.equals i j) out) := by
  rw [StringCall.perform, returns_bind]
  cases hereA : strings[i]? with
  | none =>
      simp only [tenStringEquals, returns_bind, returns_tenSetError, returns_pure]
      exact ⟨all, .compareNull (.inl (poolOf_none hereA))⟩
  | some a =>
      cases hereB : strings[j]? with
      | none =>
          simp only [tenStringEquals, returns_bind, returns_tenSetError, returns_pure]
          exact ⟨all, .compareNull (.inr (poolOf_none hereB))⟩
      | some b =>
          apply (tenStringEquals_contents (all a (List.mem_of_getElem? hereA))
            (all b (List.mem_of_getElem? hereB))).mono
          rintro answer _ rfl
          rw [returns_pure]
          exact ⟨all, .compared (poolOf_some hereA) (poolOf_some hereB)⟩

theorem contains_stepKept (all : AllValid strings) (i : Nat) (text : Option CString) :
    Returns ((StringCall.contains i text).perform strings) grants world
      (fun out _ => StepKept grants world strings (.contains i text) out) := by
  rw [StringCall.perform, returns_bind]
  cases here : strings[i]? with
  | none =>
      simp only [tenStringContains, returns_bind, returns_tenSetError, returns_pure]
      exact ⟨all, .searchNull (.inl (poolOf_none here))⟩
  | some string =>
      cases text with
      | none =>
          simp only [tenStringContains, returns_bind, returns_tenSetError, returns_pure]
          exact ⟨all, .searchNull (.inr rfl)⟩
      | some text =>
          apply (tenStringContains_contents (all string (List.mem_of_getElem? here)) text).mono
          rintro answer _ rfl
          rw [returns_pure]
          exact ⟨all, .searched (poolOf_some here)⟩

/-- One call. -/
theorem perform_stepKept (all : AllValid strings) (call : StringCall) :
    Returns (call.perform strings) grants world
      (fun out _ => StepKept grants world strings call out) := by
  cases call with
  | create text => exact create_stepKept all text
  | empty =>
      rw [StringCall.perform, returns_bind]
      apply tenStringEmpty_makes.mono
      intro made after makes
      exact ofNew_stepKept all rfl makes
  | append i text => exact append_stepKept all i text
  | substring i start length => exact substring_stepKept all i start length
  | equals i j => exact equals_stepKept all i j
  | contains i text => exact contains_stepKept all i text

/-- Calls leave strings in good order. -/
theorem performStrings_valid (calls : List StringCall) :
    ∀ {world : World} {strings : List TenString}, AllValid strings →
      Returns (performStrings strings calls) grants world (fun after _ => AllValid after) := by
  induction calls with
  | nil =>
      intro world strings all
      rw [performStrings, returns_pure]
      exact all
  | cons call calls inductionHypothesis =>
      intro world strings all
      rw [performStrings, returns_bind]
      apply (perform_stepKept all call).mono
      rintro ⟨reply, next⟩ between ⟨kept, -⟩
      exact inductionHypothesis kept

/-- Whatever calls have been made, in any order and with any requests refused,
every string is terminated in its block, and any call now does its step on the
contents. -/
theorem tenStrings_run (grants : Schedule) (world : World) (calls : List StringCall) :
    Returns (performStrings [] calls) grants world (fun strings after =>
      (∀ string ∈ strings, string.Terminated) ∧
        ∀ call : StringCall, Returns (call.perform strings) grants after (fun out _ =>
          (∀ string ∈ out.2, string.Terminated) ∧
            StringStep grants after.requests (poolOf strings) call out.1 (poolOf out.2))) := by
  have start : AllValid [] := by
    intro string member
    cases member
  apply (performStrings_valid calls start).mono
  intro strings after all
  refine ⟨fun string member => (all string member).terminated, ?_⟩
  intro call
  apply (perform_stepKept all call).mono
  rintro out _ ⟨kept, step⟩
  exact ⟨fun string member => (kept string member).terminated, step⟩

end Steps

end Dotten
