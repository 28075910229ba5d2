/-
Module: Dotten.Http.HttpParsing
Layer: Http
Purpose: Reading a header block line by line gives back the headers that its
  lines were made of.
Imports: Dotten.Http.HttpHeaders
Main exports: headerLine, ReadsBack, announcedLength,
  tenHttpParseHeadersText_spec, tenRequestFirstLine_spec,
  tenResponseFirstLine_spec
-/
import Dotten.Http.HttpHeaders

namespace Dotten

open Dotten.Library

section Strings

variable {line before : Bytes} {c : Byte}

theorem strchr_append (absent : c ∉ before) (after : Bytes) :
    strchr (before ++ c :: after) c = some (before, after) := by
  have stops : ∀ b ∈ before, decide (b ≠ c) = true := by
    intro b member
    have apart : b ≠ c := fun same => absent (same ▸ member)
    simpa using apart
  have taken : (before ++ c :: after).takeWhile (· ≠ c) = before := by
    rw [List.takeWhile_append_of_pos stops, List.takeWhile_cons_of_neg (by simp), List.append_nil]
  have left : (before ++ c :: after).dropWhile (· ≠ c) = c :: after := by
    rw [List.dropWhile_append_of_pos stops, List.dropWhile_cons_of_neg (by simp)]
  rw [strchr, if_pos (by simp), taken, left]
  rfl

/-- Both answers of `strchr`. -/
theorem strchr_cases (text : Bytes) (c : Byte) :
    (strchr text c = none ∧ text.takeWhile (· ≠ c) = text) ∨
      ∃ after, strchr text c = some (text.takeWhile (· ≠ c), after) := by
  rw [strchr]
  split_ifs with member
  · exact .inr ⟨_, rfl⟩
  · refine .inl ⟨rfl, List.takeWhile_eq_self_iff.mpr ?_⟩
    intro b listed
    have apart : b ≠ c := fun same => member (same ▸ listed)
    simpa using apart

theorem strstr_line (noEnd : ascii '\n' ∉ line) (rest : Bytes) :
    strstr (line ++ crlf ++ rest) crlf = some (line, rest) := by
  have apart : ascii '\r' ≠ ascii '\n' := by decide
  have found := findSlice_line apart (unbroken_of_notMem noEnd) rest
  rw [strstr, List.append_assoc]
  change (findSlice [ascii '\r', ascii '\n'] (line ++ ascii '\r' :: ascii '\n' :: rest)).map _ = _
  rw [found, Option.map_some, List.take_left]
  congr 2
  change (line ++ (crlf ++ rest)).drop (line.length + crlf.length) = rest
  rw [← List.drop_drop, List.drop_left]
  rfl

theorem strstr_lastLine (noEnd : ascii '\n' ∉ line) : strstr line crlf = none := by
  rw [strstr, findSlice_openLine (unbroken_of_notMem noEnd)]
  rfl

end Strings

/-- A header as `ten__http_write_headers` writes it, without the line end. -/
def headerLine (pair : CString × CString) : Bytes :=
  pair.1.bytes ++ literal ": " ++ pair.2.bytes

/-- The line of a header can be taken apart again: its name has no colon and no
LF, and its value has no LF and does not start with a space. -/
structure ReadsBack (pair : CString × CString) : Prop where
  nameColon : ascii ':' ∉ pair.1.bytes
  nameEnd : ascii '\n' ∉ pair.1.bytes
  valueEnd : ascii '\n' ∉ pair.2.bytes
  valueStart : pair.2.bytes.head? ≠ some (ascii ' ')

instance (pair : CString × CString) : Decidable (ReadsBack pair) :=
  decidable_of_iff
    (ascii ':' ∉ pair.1.bytes ∧ ascii '\n' ∉ pair.1.bytes ∧ ascii '\n' ∉ pair.2.bytes ∧
      pair.2.bytes.head? ≠ some (ascii ' '))
    ⟨fun ⟨colon, name, value, start⟩ => ⟨colon, name, value, start⟩,
      fun ⟨colon, name, value, start⟩ => ⟨colon, name, value, start⟩⟩

/-- `"Content-Length"`. -/
def contentLengthName : CString := literalString "Content-Length"

/-- The content length after a header, given the one before it. -/
def announcedLength (before : Int) (pair : CString × CString) : Int :=
  if foldCase pair.1 = foldCase contentLengthName then atol pair.2.bytes else before

theorem ReadsBack.noEnd {pair : CString × CString} (readsBack : ReadsBack pair) :
    ascii '\n' ∉ headerLine pair := by
  simp only [headerLine, List.mem_append, not_or]
  exact ⟨⟨readsBack.nameEnd, by decide⟩, readsBack.valueEnd⟩

theorem headerLine_ne_nil (pair : CString × CString) : headerLine pair ≠ [] := by
  intro empty
  have length := congrArg List.length empty
  have separator : (literal ": ").length = 2 := by decide
  simp only [headerLine, List.length_append, separator, List.length_nil] at length
  omega

/-- The rest of a text whose next lines are the given ones: NULL when there is
no line left. -/
def linesCursor : List Bytes → Option Bytes
  | [] => none
  | line :: lines => some (crlf.intercalate (line :: lines))

section Specifications

variable {grants : Schedule} {world : World} {γ : Type} {firstLineFn : TenFirstLineFn γ}
  (ample : Ample grants)

include ample

/-- One header line is one insertion. -/
theorem tenHttpParseHeaderLine_spec {pair : CString × CString} (readsBack : ReadsBack pair)
    (headers : TenHttpHeaders) (contentLength : Int) :
    Returns (tenHttpParseHeaderLine (headerLine pair) headers contentLength) grants world
      (fun reply _ =>
        reply.1.pairs = OrderedMap.insert foldCase pair.1 pair.2 headers.pairs ∧
          reply.2 = announcedLength contentLength pair) := by
  have split : strchr (headerLine pair) (ascii ':') =
      some (pair.1.bytes, ascii ' ' :: pair.2.bytes) := by
    rw [headerLine, List.append_assoc]
    exact strchr_append readsBack.nameColon (ascii ' ' :: pair.2.bytes)
  have skipped : (ascii ' ' :: pair.2.bytes).dropWhile (· = ascii ' ') = pair.2.bytes := by
    rw [List.dropWhile_cons_of_pos (by simp)]
    cases value : pair.2.bytes with
    | nil => rfl
    | cons first rest =>
        have start := readsBack.valueStart
        rw [value] at start
        rw [List.dropWhile_cons_of_neg (by simpa using start)]
  simp only [tenHttpParseHeaderLine, split, skipped, CString.ofMemory_bytes, returns_bind]
  apply (tenHttpHeadersSet_spec headers pair.1 pair.2).mono
  rintro ⟨code, after⟩ _ outcome
  rw [returns_pure]
  refine ⟨(outcome.of_ample ample).2, ?_⟩
  simp only [tenCiStrcmp_eq_zero_iff]
  rfl

omit ample in
/-- A step of the loop takes a line off the text. -/
theorem tenHttpParseHeadersLoop_line {steps : Nat} {line : Bytes} {lines : List Bytes}
    {firstLine : Bool} {contentLength : Int} {headers : TenHttpHeaders} {ctx : γ}
    (noEnd : ascii '\n' ∉ line) (nonempty : line ≠ []) :
    tenHttpParseHeadersLoop firstLineFn (steps + 1) (linesCursor (line :: lines)) firstLine
        contentLength headers ctx =
      if firstLine then
        firstLineFn line ctx >>= fun reply =>
          if reply.1 then
            tenHttpParseHeadersLoop firstLineFn steps (linesCursor lines) false contentLength
              headers reply.2
          else pure (-2, headers, reply.2)
      else
        tenHttpParseHeaderLine line headers contentLength >>= fun reply =>
          tenHttpParseHeadersLoop firstLineFn steps (linesCursor lines) firstLine reply.2
            reply.1 ctx := by
  cases lines with
  | nil =>
      obtain ⟨head, tail, rfl⟩ := List.exists_cons_of_ne_nil nonempty
      simp only [linesCursor, List.intercalate_singleton, tenHttpParseHeadersLoop,
        strstr_lastLine noEnd, if_neg nonempty]
  | cons next more =>
      obtain ⟨head, tail, rfl⟩ := List.exists_cons_of_ne_nil nonempty
      have cut := strstr_line noEnd (crlf.intercalate (next :: more))
      simp only [linesCursor, List.intercalate_cons_cons, List.cons_append] at cut ⊢
      simp only [tenHttpParseHeadersLoop, cut, if_neg nonempty]

omit ample in
theorem tenHttpParseHeadersLoop_end (steps : Nat) (contentLength : Int)
    (headers : TenHttpHeaders) (ctx : γ) :
    tenHttpParseHeadersLoop firstLineFn (steps + 1) (linesCursor []) false contentLength headers
      ctx = pure (contentLength, headers, ctx) := rfl

/-- After the first line, the loop inserts the header of every line. -/
theorem tenHttpParseHeadersLoop_headers {ctx : γ} {members : List (CString × CString)}
    (readBack : ∀ pair ∈ members, ReadsBack pair) :
    ∀ {steps : Nat} {contentLength : Int} {headers : TenHttpHeaders} {world : World},
      members.length < steps →
      Returns (tenHttpParseHeadersLoop firstLineFn steps (linesCursor (members.map headerLine))
          false contentLength headers ctx) grants world (fun reply _ =>
        reply.1 = members.foldl announcedLength contentLength ∧
          reply.2.1.pairs = members.foldl
            (fun built pair => OrderedMap.insert foldCase pair.1 pair.2 built) headers.pairs ∧
          reply.2.2 = ctx) := by
  induction members with
  | nil =>
      intro steps contentLength headers world enough
      obtain ⟨steps, rfl⟩ := Nat.exists_eq_succ_of_ne_zero (Nat.ne_of_gt enough)
      rw [List.map_nil, tenHttpParseHeadersLoop_end, returns_pure]
      exact ⟨rfl, rfl, rfl⟩
  | cons pair rest inductionHypothesis =>
      intro steps contentLength headers world enough
      obtain ⟨steps, rfl⟩ := Nat.exists_eq_succ_of_ne_zero (Nat.ne_zero_of_lt enough)
      have readsBack := readBack pair List.mem_cons_self
      rw [List.map_cons, tenHttpParseHeadersLoop_line readsBack.noEnd (headerLine_ne_nil pair),
        if_neg (by simp), returns_bind]
      apply (tenHttpParseHeaderLine_spec ample readsBack headers contentLength).mono
      rintro ⟨after, length⟩ _ ⟨pairs, rfl⟩
      apply (inductionHypothesis
        (fun other member => readBack other (List.mem_cons_of_mem pair member))
        (Nat.lt_of_succ_lt_succ enough)).mono
      rintro reply _ ⟨announced, built, same⟩
      dsimp only at pairs
      rw [pairs] at built
      exact ⟨announced, built, same⟩

/-- The text of a block whose first line is accepted gives the headers of its
other lines. -/
theorem tenHttpParseHeadersText_spec {text : CString} {first : Bytes}
    {members : List (CString × CString)} {headers : TenHttpHeaders} {ctx filled : γ}
    (bytes : text.bytes = crlf.intercalate (first :: members.map headerLine))
    (noEnd : ascii '\n' ∉ first) (nonempty : first ≠ [])
    (readBack : ∀ pair ∈ members, ReadsBack pair)
    (accepts : ∀ {now : World},
      Returns (firstLineFn first ctx) grants now (fun reply _ => reply = (true, filled))) :
    Returns (tenHttpParseHeadersText text headers firstLineFn ctx) grants world (fun reply _ =>
      reply.1 = members.foldl announcedLength (-1) ∧
        reply.2.1.pairs = members.foldl
          (fun built pair => OrderedMap.insert foldCase pair.1 pair.2 built) headers.pairs ∧
        reply.2.2 = filled) := by
  have cursor : some text.bytes = linesCursor (first :: members.map headerLine) := by
    rw [bytes]
    rfl
  have noBlank : ∀ line ∈ first :: members.map headerLine, line ≠ [] := by
    intro line member
    rcases List.mem_cons.mp member with rfl | later
    · exact nonempty
    · obtain ⟨pair, -, rfl⟩ := List.mem_map.mp later
      exact headerLine_ne_nil pair
  have enough : members.length < text.length := by
    have length := length_le_length_intercalate crlf noBlank
    rw [← bytes, List.length_cons, List.length_map] at length
    exact length
  rw [tenHttpParseHeadersText, cursor, tenHttpParseHeadersLoop_line noEnd nonempty,
    if_pos rfl, returns_bind]
  apply accepts.mono
  rintro _ _ rfl
  exact tenHttpParseHeadersLoop_headers ample readBack enough

end Specifications

section FirstLines

variable {grants : Schedule} {world : World}

theorem tenHttpMethodParse_name (method : TenHttpMethod) :
    tenHttpMethodParse (tenHttpMethodName method) = some method := by
  cases method <;> decide

theorem space_notMem_methodName (method : TenHttpMethod) :
    ascii ' ' ∉ tenHttpMethodName method := by
  cases method <;> decide

/-- A request line: the method, and what stands before the next space. -/
theorem tenRequestFirstLine_spec (ample : Ample grants) (method : TenHttpMethod) (rest : Bytes)
    (ctx : TenRequestFirstLineCtx) :
    Returns (tenRequestFirstLine (tenHttpMethodName method ++ ascii ' ' :: rest) ctx) grants world
      (fun reply _ => reply =
        (true, { method, path := some (CString.ofMemory (rest.takeWhile (· ≠ ascii ' '))) })) := by
  simp only [tenRequestFirstLine, strchr_append (space_notMem_methodName method),
    tenHttpMethodParse_name]
  obtain ⟨search, word⟩ | ⟨after, search⟩ := strchr_cases rest (ascii ' ')
  · simp only [search, word, returns_bind, returns_pure]
    apply (tenHttpCopy_spec _).mono
    rintro path _ (⟨rfl, shortage⟩ | rfl)
    · exact absurd ample shortage
    · rfl
  · simp only [search, returns_bind, returns_pure]
    apply (tenHttpCopy_spec _).mono
    rintro path _ (⟨rfl, shortage⟩ | rfl)
    · exact absurd ample shortage
    · rfl

theorem space_notMem_formatSigned {n : Int} : ascii ' ' ∉ formatSigned n := by
  intro member
  have digit : ascii ' ' ∈ formatUnsigned n.natAbs := by
    rw [formatSigned] at member
    split at member
    · exact (List.mem_cons.mp member).resolve_left (by decide)
    · exact member
  exact absurd (isDigit_of_mem_formatUnsigned digit) (by decide)

/-- A status line with a positive status. -/
theorem tenResponseFirstLine_spec {status : Int} (positive : 1 ≤ status) (int : status < 2 ^ 31)
    (reason : Bytes) (ctx : Int) :
    Returns (tenResponseFirstLine
        (literal "HTTP/1.1 " ++ formatSigned status ++ literal " " ++ reason) ctx) grants world
      (fun reply _ => reply = (true, status)) := by
  have version : literal "HTTP/1.1 " = literal "HTTP/1.1" ++ [ascii ' '] := by decide
  have first : strchr (literal "HTTP/1.1 " ++ formatSigned status ++ literal " " ++ reason)
      (ascii ' ') = some (literal "HTTP/1.1", formatSigned status ++ ascii ' ' :: reason) := by
    rw [version, List.append_assoc, List.append_assoc, List.append_assoc]
    exact strchr_append (by decide) _
  simp only [tenResponseFirstLine, first, strchr_append space_notMem_formatSigned,
    atoi_formatSigned (by omega : -2 ^ 31 ≤ status) int, returns_pure]
  rw [decide_eq_true (by omega)]

end FirstLines

end Dotten
