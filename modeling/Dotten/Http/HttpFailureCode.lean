/-
Module: Dotten.Http.HttpFailureCode
Layer: Http
Purpose: The code for a failed first line, which the header parser returns in
  place of a content length, and the blocks on which the two are confused.
Imports: Dotten.Http.HttpHeaderStore, Dotten.Http.HttpReception
Main exports: lastLength, announcedBy_eq, FirstLineFails, AnnouncesFailure,
  tenHttpParseHeadersText_failure, readBlock_eq_none_iff,
  tenHttpParseHeaders_failure_iff
-/
import Dotten.Http.HttpHeaderStore
import Dotten.Http.HttpReception

namespace Dotten

open Dotten.Library

/-- The length on the last line that announces one. -/
def lastLength (lines : List Bytes) : Option Int :=
  (((lines.filterMap lineHeader).filter fun header =>
    foldCase header.1 = foldCase contentLengthName).getLast?).map fun header =>
      atol header.2.bytes

/-- The last length that lines announce is the code for a failed first line. -/
def AnnouncesFailure (lines : List Bytes) : Prop := lastLength lines = some (-2)

theorem foldl_announcedLength (headers : List (CString × CString)) (before : Int) :
    headers.foldl announcedLength before =
      (((headers.filter fun header => foldCase header.1 = foldCase contentLengthName).getLast?).map
        fun header => atol header.2.bytes).getD before := by
  induction headers using List.reverseRecOn with
  | nil => rfl
  | append_singleton headers header inductionHypothesis =>
      rw [List.foldl_append, List.foldl_cons, List.foldl_nil, List.filter_append, announcedLength]
      by_cases named : foldCase header.1 = foldCase contentLengthName
      · rw [if_pos named, List.filter_cons_of_pos (by simpa using named)]
        simp
      · rw [if_neg named, List.filter_cons_of_neg (by simpa using named), inductionHypothesis]
        simp

/-- The last announcement counts, and without one there is no length. -/
theorem announcedBy_eq (lines : List Bytes) (before : Int) :
    announcedBy lines before = (lastLength lines).getD before :=
  foldl_announcedLength (lines.filterMap lineHeader) before

theorem announcedBy_eq_failure_iff (lines : List Bytes) :
    announcedBy lines (-1) = -2 ↔ AnnouncesFailure lines := by
  rw [announcedBy_eq, AnnouncesFailure]
  cases lastLength lines with
  | none => simp
  | some length => simp

section Parsing

variable {γ : Type} {firstLineFn : TenFirstLineFn γ} {ctx : γ} {grants : Schedule} {world : World}

/-- There is no line, or the callback rejects the first one. -/
def FirstLineFails (firstLineFn : TenFirstLineFn γ) (ctx : γ) (lines : List Bytes)
    (grants : Schedule) (world : World) : Prop :=
  match lines with
  | [] => True
  | first :: _ => Returns (firstLineFn first ctx) grants world (fun reply _ => reply.1 = false)

/-- The callback, which returns, fails or accepts. -/
theorem tenHttpParseHeadersText_failure
    (answers : ∀ line ctx now, Returns (firstLineFn line ctx) grants now (fun _ _ => True))
    (text : CString) (headers : TenHttpHeaders) :
    Returns (tenHttpParseHeadersText text headers firstLineFn ctx) grants world (fun reply _ =>
      reply.1 = -2 ↔
        (FirstLineFails firstLineFn ctx (blockLines text.bytes) grants world ∨
          AnnouncesFailure (blockLines text.bytes).tail)) := by
  have sets := @tenHttpParseHeadersText_sets γ firstLineFn text
    { method := .get, path := none, headers, body := none } ctx
  dsimp only at sets
  rw [sets]
  cases blockLines text.bytes with
  | nil =>
      rw [returns_pure]
      exact iff_of_true rfl (.inl trivial)
  | cons first lines =>
      dsimp only
      rw [returns_bind]
      obtain ⟨⟨accepted, filled⟩, between, run, -⟩ := answers first ctx world
      rw [returns_iff_of_run run, FirstLineFails, returns_iff_of_run run, List.tail_cons,
        ← announcedBy_eq_failure_iff]
      cases accepted with
      | false =>
          rw [if_neg (by simp), returns_pure]
          exact iff_of_true rfl (.inl rfl)
      | true =>
          rw [if_pos rfl, returns_bind]
          apply (setRequestHeaders_spec (lineCalls lines)).mono
          rintro reply _ -
          rw [returns_pure]
          simp

/-- The code means that the first line failed, unless that line was accepted and
the code is what the headers announce. -/
theorem tenHttpParseHeadersText_failure_iff
    (answers : ∀ line ctx now, Returns (firstLineFn line ctx) grants now (fun _ _ => True))
    (text : CString) (headers : TenHttpHeaders) :
    Returns (tenHttpParseHeadersText text headers firstLineFn ctx) grants world (fun reply _ =>
      reply.1 = -2 ↔ FirstLineFails firstLineFn ctx (blockLines text.bytes) grants world) ↔
      ¬ (¬ FirstLineFails firstLineFn ctx (blockLines text.bytes) grants world ∧
        AnnouncesFailure (blockLines text.bytes).tail) := by
  apply returns_iff_of_iff
  apply (tenHttpParseHeadersText_failure answers text headers).mono
  intro reply _ failure
  rw [failure, or_iff_left_iff_imp, not_and, not_imp_not]

end Parsing

section Messages

variable {γ μ : Type} {parts : Bytes → Option γ}

/-- The lines of the text that a header block is copied to, which ends at the first
NUL. -/
def textLines (block : Bytes) : List Bytes := blockLines (CString.ofMemory (block ++ [0])).bytes

/-- Nothing is read of a block without an accepted first line, and of one that
announces the code. -/
theorem readBlock_eq_none_iff (block : Bytes) :
    readBlock parts block = none ↔
      (textLines block).head?.bind parts = none ∨ AnnouncesFailure (textLines block).tail := by
  change (match textLines block with
    | [] => none
    | first :: lines => _) = none ↔ _
  cases textLines block with
  | nil => exact iff_of_true rfl (.inl rfl)
  | cons first lines =>
      rw [List.head?_cons, List.tail_cons, Option.bind_some, ← announcedBy_eq_failure_iff]
      dsimp only
      cases parts first with
      | none => exact iff_of_true rfl (.inl rfl)
      | some filled =>
          rw [foldl_readLine]
          dsimp only
          split
          · rename_i announced
            exact iff_of_true rfl (.inr announced)
          · rename_i other
            simp [other]

/-- A message is discarded for its first line alone, unless its headers announce
the code. -/
theorem Parses.discards_iff {grants : Schedule} {world : World} {transport : Transport}
    {content : μ → HttpMessage γ} {parse : TenSocket → Bytes → Nat → Bytes → Nat → Ten (Option μ)}
    (parses : Parses grants transport parts content parse) (sock : TenSocket) (headerBlock : Bytes)
    (headerLen : Nat) {bodyPrefix : Bytes} {bodyPrefixLen : Nat}
    (whole : bodyPrefixLen ≤ bodyPrefix.length) :
    Returns (parse sock headerBlock headerLen bodyPrefix bodyPrefixLen) grants world
        (fun reply _ => reply = none ↔
          (textLines (headerBlock.take headerLen)).head?.bind parts = none) ↔
      ¬ ((textLines (headerBlock.take headerLen)).head?.bind parts ≠ none ∧
        AnnouncesFailure (textLines (headerBlock.take headerLen)).tail) := by
  apply returns_iff_of_iff
  apply (parses whole).mono
  intro reply _ read
  have none : reply = none ↔ readBlock parts (headerBlock.take headerLen) = none := by
    rw [← Option.map_eq_none_iff (f := content), read, Option.map_eq_none_iff]
  rw [none, readBlock_eq_none_iff, or_iff_left_iff_imp, not_and, not_imp_comm, not_not]

end Messages

/-- For every text, callback and schedule, the header parser returns the code
exactly when the first line failed, unless the headers announce it; and the
parsers of requests and responses discard exactly the messages whose first line
fails, with the same exception. -/
theorem tenHttpParseHeaders_failure_iff {γ : Type} (firstLineFn : TenFirstLineFn γ) (ctx : γ)
    (text : CString) (headers : TenHttpHeaders) (transport : Transport) (sock : TenSocket)
    (headerBlock : Bytes) (headerLen : Nat) {bodyPrefix : Bytes} {bodyPrefixLen : Nat}
    (whole : bodyPrefixLen ≤ bodyPrefix.length) (grants : Schedule) (world : World)
    (answers : ∀ line ctx now, Returns (firstLineFn line ctx) grants now (fun _ _ => True)) :
    (Returns (tenHttpParseHeadersText text headers firstLineFn ctx) grants world (fun reply _ =>
        reply.1 = -2 ↔ FirstLineFails firstLineFn ctx (blockLines text.bytes) grants world) ↔
      ¬ (¬ FirstLineFails firstLineFn ctx (blockLines text.bytes) grants world ∧
        AnnouncesFailure (blockLines text.bytes).tail)) ∧
    (Ample grants →
      (Returns (tenHttpParseRequest transport sock headerBlock headerLen bodyPrefix bodyPrefixLen)
          grants world (fun reply _ => reply = none ↔
            (textLines (headerBlock.take headerLen)).head?.bind requestLineParts = none) ↔
        ¬ ((textLines (headerBlock.take headerLen)).head?.bind requestLineParts ≠ none ∧
          AnnouncesFailure (textLines (headerBlock.take headerLen)).tail)) ∧
      (Returns (tenHttpParseResponse transport sock headerBlock headerLen bodyPrefix bodyPrefixLen)
          grants world (fun reply _ => reply = none ↔
            (textLines (headerBlock.take headerLen)).head?.bind responseLineStatus = none) ↔
        ¬ ((textLines (headerBlock.take headerLen)).head?.bind responseLineStatus ≠ none ∧
          AnnouncesFailure (textLines (headerBlock.take headerLen)).tail))) := by
  constructor
  · exact tenHttpParseHeadersText_failure_iff answers text headers
  · intro ample
    exact ⟨Parses.discards_iff (tenHttpParseRequest_parses ample) sock headerBlock headerLen whole,
      Parses.discards_iff (tenHttpParseResponse_parses ample) sock headerBlock headerLen whole⟩

section Examples

/-- A callback that accepts every line, and a block that announces no length. -/
theorem tenHttpParseHeaders_failure_plain :
    Returns (tenHttpParseHeadersText (literalString "GET / HTTP/1.1\r\nA: b") .none
      (fun _ _ => pure (true, ())) ()) (fun _ => true) default (fun reply _ => reply.1 = -2 ↔
        FirstLineFails (fun _ _ => pure (true, ())) ()
          (blockLines (literalString "GET / HTTP/1.1\r\nA: b").bytes) (fun _ => true)
          default) ∧
    Returns (tenHttpParseRequest bytewise (.connected []) (literal "GET / HTTP/1.1\r\nA: b") 20 [] 0)
      (fun _ => true) default (fun reply _ => reply = none ↔
        (textLines ((literal "GET / HTTP/1.1\r\nA: b").take 20)).head?.bind
          requestLineParts = none) := by
  obtain ⟨ofText, ofMessages⟩ := @tenHttpParseHeaders_failure_iff Unit
    (fun _ _ => pure (true, ())) () (literalString "GET / HTTP/1.1\r\nA: b") .none bytewise
    (.connected []) (literal "GET / HTTP/1.1\r\nA: b") 20 [] 0 (Nat.le_refl 0) (fun _ => true)
    default (by simp)
  constructor
  · apply ofText.mpr
    rintro ⟨-, announced⟩
    exact absurd announced (by unfold AnnouncesFailure; decide)
  · apply (ofMessages ample_always).1.mpr
    rintro ⟨-, announced⟩
    exact absurd announced (by unfold AnnouncesFailure; decide)

/-- A request line that is accepted, and a length that is taken for the code. -/
theorem tenHttpParseHeaders_not_failure_minusTwo :
    ¬ Returns (tenHttpParseHeadersText (literalString "GET / HTTP/1.1\r\nContent-Length: -2") .none
      tenRequestFirstLine { method := .get, path := none }) (fun _ => true) default
      (fun reply _ => reply.1 = -2 ↔
        FirstLineFails tenRequestFirstLine { method := .get, path := none }
          (blockLines (literalString "GET / HTTP/1.1\r\nContent-Length: -2").bytes)
          (fun _ => true) default) := by
  intro returns
  have fails := (returns.eq rfl).mp rfl
  cases fails.eq rfl

end Examples

end Dotten
