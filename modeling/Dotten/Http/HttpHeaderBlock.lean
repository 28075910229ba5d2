/-
Module: Dotten.Http.HttpHeaderBlock
Layer: Http
Purpose: What the header parser makes of a block of any bytes: a function of
  the block alone when no allocation is refused.
Imports: Dotten.Http.HttpHeaderStore
Main exports: readLine, foldl_readLine, readBlock, tenHttpParseHeadersText_block,
  requestLineParts, responseLineStatus, tenRequestFirstLine_reply,
  tenResponseFirstLine_parts
-/
import Dotten.Http.HttpHeaderStore

namespace Dotten

open Dotten.Library

/-- The content length and the headers after one more line. -/
def readLine (read : Int × List (CString × CString)) (line : Bytes) :
    Int × List (CString × CString) :=
  match lineHeader line with
  | none => read
  | some header =>
      (announcedLength read.1 header, OrderedMap.insert foldCase header.1 header.2 read.2)

/-- What a block is read as when `parts` takes its first line apart: the content
length, the headers and the parts of the first line, unless the block is
rejected. -/
def readBlock {γ : Type} (parts : Bytes → Option γ) (block : Bytes) :
    Option (Int × List (CString × CString) × γ) :=
  match blockLines (CString.ofMemory (block ++ [0])).bytes with
  | [] => none
  | first :: lines =>
      match parts first with
      | none => none
      | some filled =>
          let read := lines.foldl readLine (-1, [])
          if read.1 = -2 then none else some (read.1, read.2, filled)

/-- The method and the path on a request line. -/
def requestLineParts (line : Bytes) : Option TenRequestFirstLineCtx :=
  (strchr line (ascii ' ')).bind fun parts =>
    (tenHttpMethodParse parts.1).map fun method =>
      { method, path := some (CString.ofMemory (parts.2.takeWhile (· ≠ ascii ' '))) }

/-- The status on a status line. -/
def responseLineStatus (line : Bytes) : Option Int :=
  (strchr line (ascii ' ')).bind fun parts =>
    let status := atoi (parts.2.takeWhile (· ≠ ascii ' '))
    if 0 < status then some status else none

/-- The reply of a function that takes first lines apart as `parts` does. -/
def FirstLineReply {γ : Type} (parts : Bytes → Option γ) (line : Bytes) (reply : Bool × γ) :
    Prop :=
  match parts line with
  | none => reply.1 = false
  | some filled => reply = (true, filled)

section Specifications

variable {grants : Schedule} {world : World} {γ : Type} {firstLineFn : TenFirstLineFn γ}
  {parts : Bytes → Option γ}

/-- Lines are read as the length that they announce and as the headers on them. -/
theorem foldl_readLine (lines : List Bytes) :
    ∀ read : Int × List (CString × CString), lines.foldl readLine read =
      (announcedBy lines read.1, (lines.filterMap lineHeader).foldl
        (fun built header => OrderedMap.insert foldCase header.1 header.2 built) read.2) := by
  induction lines with
  | nil =>
      intro read
      rfl
  | cons line lines inductionHypothesis =>
      intro read
      rw [List.foldl_cons, inductionHypothesis, announcedBy, announcedBy, List.filterMap_cons,
        readLine]
      cases lineHeader line with
      | none => rfl
      | some header => rfl

/-- A block is read up to its first NUL. -/
theorem readBlock_ofMemory (block : Bytes) :
    readBlock parts (CString.ofMemory (block ++ [0])).bytes = readBlock parts block := by
  have whole := CString.ofMemory_append_nul (CString.ofMemory (block ++ [0])) []
  rw [readBlock, whole, readBlock]

/-- The block of any bytes. -/
theorem tenHttpParseHeadersText_block (ample : Ample grants)
    (answers : ∀ (line : Bytes) (ctx : γ) (now : World),
      Returns (firstLineFn line ctx) grants now (fun reply _ => FirstLineReply parts line reply))
    (text : CString) (ctx : γ) :
    Returns (tenHttpParseHeadersText text .none firstLineFn ctx) grants world (fun reply _ =>
      match readBlock parts text.bytes with
      | none => reply.1 = -2
      | some (contentLength, headers, filled) =>
          reply.1 = contentLength ∧ contentLength ≠ -2 ∧ reply.2.1.pairs = headers ∧
            reply.2.2 = filled) := by
  have whole := CString.ofMemory_append_nul text []
  have sets := @tenHttpParseHeadersText_sets γ firstLineFn text
    { method := .get, path := none, headers := .none, body := none } ctx
  dsimp only at sets
  rw [sets, readBlock, whole]
  cases blockLines text.bytes with
  | nil => rw [returns_pure]
  | cons first lines =>
      dsimp only
      rw [returns_bind]
      apply (answers first ctx world).mono
      rintro ⟨accepted, filled⟩ _ answer
      cases taken : parts first with
      | none =>
          rw [FirstLineReply, taken] at answer
          dsimp only at answer ⊢
          rw [answer, if_neg (by simp), returns_pure]
      | some value =>
          rw [FirstLineReply, taken] at answer
          cases answer
          dsimp only
          rw [if_pos rfl, returns_bind, lineCalls]
          apply (setRequestHeaders_sets ample _).mono
          rintro ⟨codes, request⟩ _ pairs
          rw [returns_pure, foldl_readLine]
          dsimp only at pairs ⊢
          by_cases announced : announcedBy lines (-1) = -2
          · rw [if_pos announced]
            exact announced
          · rw [if_neg announced]
            exact ⟨rfl, announced, pairs, rfl⟩

end Specifications

section FirstLines

variable {grants : Schedule} {world : World}

/-- The request line of any bytes: it is not accepted, either, when there is no
memory for the path. -/
theorem tenRequestFirstLine_reply (line : Bytes) (ctx : TenRequestFirstLineCtx) :
    Returns (tenRequestFirstLine line ctx) grants world (fun reply _ =>
      (reply.1 = false ∧ ¬ Ample grants) ∨ FirstLineReply requestLineParts line reply) := by
  rw [tenRequestFirstLine]
  unfold FirstLineReply
  rw [requestLineParts]
  cases strchr line (ascii ' ') with
  | none =>
      rw [returns_pure]
      exact .inr rfl
  | some words =>
      dsimp only [Option.bind_some]
      cases tenHttpMethodParse words.1 with
      | none =>
          rw [returns_pure]
          exact .inr rfl
      | some method =>
          obtain ⟨search, word⟩ | ⟨after, search⟩ := strchr_cases words.2 (ascii ' ')
          · simp only [search, word, returns_bind, returns_pure]
            apply (tenHttpCopy_spec _).mono
            rintro path _ (⟨rfl, shortage⟩ | rfl)
            · exact .inl ⟨rfl, shortage⟩
            · exact .inr rfl
          · simp only [search, returns_bind, returns_pure]
            apply (tenHttpCopy_spec _).mono
            rintro path _ (⟨rfl, shortage⟩ | rfl)
            · exact .inl ⟨rfl, shortage⟩
            · exact .inr rfl

theorem tenRequestFirstLine_parts (ample : Ample grants) (line : Bytes)
    (ctx : TenRequestFirstLineCtx) :
    Returns (tenRequestFirstLine line ctx) grants world (fun reply _ =>
      FirstLineReply requestLineParts line reply) := by
  apply (tenRequestFirstLine_reply line ctx).mono
  rintro reply _ (⟨-, shortage⟩ | reply)
  · exact absurd ample shortage
  · exact reply

/-- The status line of any bytes. -/
theorem tenResponseFirstLine_parts (line : Bytes) (ctx : Int) :
    Returns (tenResponseFirstLine line ctx) grants world (fun reply _ =>
      FirstLineReply responseLineStatus line reply) := by
  rw [tenResponseFirstLine]
  unfold FirstLineReply
  rw [responseLineStatus]
  cases strchr line (ascii ' ') with
  | none =>
      rw [returns_pure]
      exact rfl
  | some words =>
      dsimp only [Option.bind_some]
      have answer : ∀ status : Int, FirstLineReply
          (fun _ => if 0 < status then some status else none) line (decide (status > 0), status) := by
        intro status
        unfold FirstLineReply
        by_cases positive : 0 < status <;> simp [positive]
      obtain ⟨search, word⟩ | ⟨after, search⟩ := strchr_cases words.2 (ascii ' ')
      · simp only [search, word, returns_pure]
        exact answer _
      · simp only [search, returns_pure]
        exact answer _

end FirstLines

end Dotten
