/-
Module: Dotten.Http.HttpMessageCalls
Layer: Http
Purpose: What a sequence of calls on a request or a response leaves in it: a
  map of headers and a body.
Imports: Dotten.Http.HttpMessages
Main exports: MessageCall, MessageContent, MessageContent.ofCalls, Holds,
  SafeContent, tenHttpSetHeader_spec, tenHttpSetBody_spec
-/
import Dotten.Http.HttpMessages

namespace Dotten

open Dotten.Library

/-- A call that changes the headers or the body of a message. -/
inductive MessageCall where
  | setHeader (name value : CString)
  | setBody (data : Bytes)
deriving DecidableEq, Repr

/-- What a message says, apart from its first line. -/
structure MessageContent where
  headers : List (CString × CString)
  body : Bytes
deriving DecidableEq, Repr

namespace MessageContent

/-- The content of a new message. -/
def empty : MessageContent := { headers := [], body := [] }

/-- The last value of a header name counts, up to letter case, and the last
body. -/
def apply (content : MessageContent) : MessageCall → MessageContent
  | .setHeader name value =>
      { content with headers := OrderedMap.insert foldCase name value content.headers }
  | .setBody data => { content with body := data }

/-- The content after a sequence of calls. -/
def ofCalls (calls : List MessageCall) : MessageContent := calls.foldl apply empty

theorem distinct_apply {content : MessageContent}
    (distinct : OrderedMap.Distinct foldCase content.headers) (call : MessageCall) :
    OrderedMap.Distinct foldCase (content.apply call).headers := by
  cases call with
  | setHeader name value => exact distinct.insert name value
  | setBody data => exact distinct

theorem distinct_foldl (calls : List MessageCall) :
    ∀ {content : MessageContent}, OrderedMap.Distinct foldCase content.headers →
      OrderedMap.Distinct foldCase (calls.foldl apply content).headers := by
  induction calls with
  | nil =>
      intro content distinct
      exact distinct
  | cons call rest inductionHypothesis =>
      intro content distinct
      exact inductionHypothesis (distinct_apply distinct call)

/-- No two headers of a message have the same name, up to letter case. -/
theorem distinct_ofCalls (calls : List MessageCall) :
    OrderedMap.Distinct foldCase (ofCalls calls).headers :=
  distinct_foldl calls OrderedMap.distinct_nil

end MessageContent

/-- The header list and the body buffer of a message hold a content. -/
structure Holds (headers : TenHttpHeaders) (body : Option TenBuffer) (content : MessageContent) :
    Prop where
  pairs : headers.pairs = content.headers
  bytes : bodyBytes body = content.body
  valid : ∀ buffer, body = some buffer → buffer.Valid

theorem holds_empty : Holds .none none .empty where
  pairs := rfl
  bytes := rfl
  valid := by simp

/-- The added headers are told apart from others by their two names. -/
theorem distinct_added_iff {headers : List (CString × CString)} {bodySize : Nat}
    (distinct : OrderedMap.Distinct foldCase headers) :
    OrderedMap.Distinct foldCase (headers ++ addedHeaders bodySize) ↔
      ∀ pair ∈ headers, foldCase pair.1 ≠ foldCase contentLengthName ∧
        foldCase pair.1 ≠ foldCase connectionName := by
  have added : OrderedMap.Distinct foldCase (addedHeaders bodySize) := by
    refine OrderedMap.distinct_cons.mpr ⟨?_, OrderedMap.distinct_cons.mpr ⟨?_, .nil⟩⟩
    · rw [List.map_singleton, List.mem_singleton]
      exact foldCase_connectionName_ne.symm
    · exact List.not_mem_nil
  rw [OrderedMap.distinct_append_iff, and_iff_right distinct, and_iff_right added]
  simp only [addedHeaders, List.forall_mem_cons, List.not_mem_nil, false_imp_iff,
    implies_true, and_true]

/-- A content whose headers can be told apart on the wire from each other and
from those that are added, and whose body is an object in memory. -/
structure SafeContent (content : MessageContent) : Prop where
  readBack : ∀ pair ∈ content.headers, ReadsBack pair
  noLength : ∀ pair ∈ content.headers, foldCase pair.1 ≠ foldCase contentLengthName
  noConnection : ∀ pair ∈ content.headers, foldCase pair.1 ≠ foldCase connectionName
  object : content.body.length ≤ objectSizeMax

namespace SafeContent

variable {content : MessageContent} (safe : SafeContent content)

include safe

/-- The headers of a message and those that are added to it. -/
theorem readsBack_added :
    ∀ pair ∈ content.headers ++ addedHeaders content.body.length, ReadsBack pair := by
  intro pair member
  rcases List.mem_append.mp member with given | added
  · exact safe.readBack pair given
  · exact readsBack_addedHeaders _ pair added

theorem distinct_added (distinct : OrderedMap.Distinct foldCase content.headers) :
    OrderedMap.Distinct foldCase (content.headers ++ addedHeaders content.body.length) :=
  (distinct_added_iff distinct).mpr
    fun pair listed => ⟨safe.noLength pair listed, safe.noConnection pair listed⟩

/-- The only length that is announced is the size of the body. -/
theorem lengths_added :
    ∀ pair ∈ content.headers ++ addedHeaders content.body.length,
      foldCase pair.1 = foldCase contentLengthName → 0 ≤ atol pair.2.bytes := by
  intro pair member named
  rcases List.mem_append.mp member with given | added
  · exact absurd named (safe.noLength pair given)
  · simp only [addedHeaders, List.mem_cons, List.not_mem_nil, or_false] at added
    rcases added with rfl | rfl
    · rw [ofMemory_formatUnsigned, atol_formatUnsigned]
      exact Int.natCast_nonneg _
    · exact absurd named foldCase_connectionName_ne

end SafeContent

section Specifications

variable {grants : Schedule} {world : World} (ample : Ample grants) {headers : TenHttpHeaders}
  {body : Option TenBuffer} {content : MessageContent} (holds : Holds headers body content)

include ample holds

theorem tenHttpSetHeader_spec (name value : CString) :
    Returns (tenHttpSetHeader headers (some name) (some value)) grants world (fun reply _ =>
      Holds reply.2 body (content.apply (.setHeader name value))) := by
  apply (tenHttpHeadersSet_spec headers name value).mono
  rintro ⟨code, after⟩ _ outcome
  obtain ⟨-, pairs⟩ := outcome.of_ample ample
  constructor
  · rw [pairs, holds.pairs]
    rfl
  · exact holds.bytes
  · exact holds.valid

theorem tenHttpFreshBody_spec :
    Returns (tenHttpFreshBody body) grants world (fun reply _ =>
      ∃ fresh, reply = some fresh ∧ fresh.Valid ∧ fresh.contents = []) := by
  cases body with
  | none =>
      apply tenBufferCreate_spec.mono
      rintro reply _ (⟨rfl, shortage⟩ | created)
      · exact absurd ample shortage
      · exact created
  | some buffer =>
      simp only [tenHttpFreshBody, returns_pure]
      exact ⟨_, rfl, (holds.valid buffer rfl).clear, TenBuffer.contents_clear⟩

theorem tenHttpSetBody_spec (data : Bytes) :
    Returns (tenHttpSetBody body (some data) data.length) grants world (fun reply _ =>
      Holds headers reply.2 (content.apply (.setBody data))) := by
  simp only [tenHttpSetBody]
  rw [if_neg (by simp), returns_bind]
  apply (tenHttpFreshBody_spec ample holds).mono
  rintro _ _ ⟨fresh, rfl, valid, empty⟩
  simp only [returns_bind]
  apply (tenBufferWrite_spec valid data data.length).mono
  rintro ⟨code, written⟩ _ ⟨-, outcome⟩
  obtain ⟨-, validWritten, contents⟩ := outcome.of_ample ample
  rw [returns_pure]
  constructor
  · exact holds.pairs
  · change written.contents = data
    rw [contents, empty, List.nil_append, List.take_length]
  · rintro _ ⟨⟩
    exact validWritten

end Specifications

end Dotten
