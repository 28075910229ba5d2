/-
Module: Dotten.Http.HttpSeenHeaders
Layer: Http
Purpose: The headers of a request as they stand in the whole of the received
  block, and the blocks of which the parser stores other headers.
Imports: Dotten.Http.HttpFailureCode
Main exports: upToNul, declaredHeaders, receivedRequestLine, SeesAllHeaders,
  HidesHeaders, receivedRequestLine_eq, tenHttpParseRequest_seesAll_iff
-/
import Dotten.Http.HttpFailureCode

namespace Dotten

open Dotten.Library

/-- What a C string that starts with a text holds of it. -/
def upToNul (text : Bytes) : Bytes := text.takeWhile (· ≠ 0)

/-- The header on a line: what stands before its first colon, and what stands
behind it without leading spaces. -/
def declaredHeader (line : Bytes) : Option (Bytes × Bytes) :=
  (strchr line (ascii ':')).map fun parts => (parts.1, parts.2.dropWhile (· = ascii ' '))

/-- The headers of a block: of its lines that are not empty, the first is the
request line, and of equal names, up to letter case, the last value counts. -/
def declaredHeaders (block : Bytes) : List (Bytes × Bytes) :=
  OrderedMap.ofList (List.map lowerByte) ((blockLines block).tail.filterMap declaredHeader)

/-- What the callback makes of the first line of a block that is not empty. -/
def receivedRequestLine (block : Bytes) : Option TenRequestFirstLineCtx :=
  (blockLines block).head?.bind fun line => requestLineParts (upToNul line)

/-- The headers that a request stores. -/
def storedHeaders (request : TenHttpRequest) : List (Bytes × Bytes) :=
  request.headers.pairs.map (Prod.map CString.bytes CString.bytes)

/-- The request has exactly the headers of the block when its request line is
accepted, and is refused otherwise. -/
def SeesAllHeaders (block : Bytes) (reply : Option TenHttpRequest) : Prop :=
  reply.map storedHeaders = (receivedRequestLine block).map fun _ => declaredHeaders block

/-- A block with an acceptable request line that has other headers up to its first
NUL than in whole, or that announces the code for a failed request line there. -/
def HidesHeaders (block : Bytes) : Prop :=
  receivedRequestLine block ≠ none ∧
    (declaredHeaders (upToNul block) ≠ declaredHeaders block ∨
      AnnouncesFailure (blockLines (upToNul block)).tail)

section Text

theorem upToNul_of_noNul {text : Bytes} (noNul : (0 : Byte) ∉ text) : upToNul text = text :=
  CString.ofMemory_bytes_of_noNul noNul

theorem zero_notMem_upToNul (text : Bytes) : (0 : Byte) ∉ upToNul text :=
  (CString.ofMemory text).noNul

/-- The copy of a block, with its terminator, reads as the block up to its first
NUL. -/
theorem ofMemory_terminated (block : Bytes) :
    (CString.ofMemory (block ++ [0])).bytes = upToNul block := by
  change (block ++ [0]).takeWhile (· ≠ 0) = _
  rw [upToNul]
  induction block with
  | nil => rfl
  | cons b block inductionHypothesis =>
      rw [List.cons_append, List.takeWhile_cons, List.takeWhile_cons, inductionHypothesis]

theorem upToNul_append (front rest : Bytes) :
    upToNul (front ++ rest) = if (0 : Byte) ∈ front then upToNul front else front ++ upToNul rest := by
  split
  · rename_i member
    rw [upToNul, List.takeWhile_append, if_neg]
    · rfl
    · intro whole
      have same : upToNul front = front := (List.takeWhile_prefix _).eq_of_length whole
      have noNul := zero_notMem_upToNul front
      rw [same] at noNul
      exact noNul member
  · rename_i absent
    refine List.takeWhile_append_of_pos ?_
    intro b member
    have nonzero : b ≠ 0 := fun zero => absent (zero ▸ member)
    simpa using nonzero

/-- The bytes of a line are bytes of the text. -/
theorem mem_of_mem_linesWithin {line : Bytes} :
    ∀ {bound : Nat} {text : Bytes}, line ∈ linesWithin bound text → ∀ b ∈ line, b ∈ text := by
  intro bound
  induction bound with
  | zero =>
      intro text member
      cases member
  | succ bound inductionHypothesis =>
      intro text member b inLine
      have piece := (List.mem_filter.mp member).1
      rw [piecesWithin] at piece
      cases found : findSlice crlf text with
      | none =>
          rw [found, List.mem_singleton] at piece
          exact piece ▸ inLine
      | some i =>
          rw [found] at piece
          rcases List.mem_cons.mp piece with rfl | later
          · exact List.mem_of_mem_take inLine
          · have rest : line ∈ linesWithin bound (text.drop (i + crlf.length)) :=
              List.mem_filter.mpr ⟨later, (List.mem_filter.mp member).2⟩
            exact List.mem_of_mem_drop (inductionHypothesis rest b inLine)

theorem head_linesWithin_last {β : Type} {read : Bytes → Option β} (empty : read [] = none)
    {bound : Nat} {text : Bytes} (found : findSlice crlf text = none) :
    (linesWithin (bound + 1) text).head?.bind read = read text := by
  by_cases nonempty : text = []
  · rw [nonempty, linesWithin_nil, empty]
    rfl
  · rw [linesWithin_last nonempty found]
    rfl

/-- A prefix of a text without line ends has none. -/
theorem findSlice_of_prefix_unbroken {text part : Bytes} (starts : part <+: text)
    (unbroken : ¬ crlf <:+: text) : findSlice crlf part = none := by
  rw [findSlice_eq_none_iff_absent (by simp)]
  exact fun inside => unbroken (inside.trans starts.isInfix)

theorem length_pos_of_found {text : Bytes} {i : Nat} (found : findSlice crlf text = some i) :
    0 < text.length := by
  cases text with
  | nil => cases found
  | cons b rest => exact Nat.succ_pos _

/-- A NUL in the first bytes ends the text there. -/
theorem upToNul_of_mem_take {text : Bytes} {i : Nat} (ends : (0 : Byte) ∈ text.take i) :
    upToNul text = upToNul (text.take i) := by
  conv_lhs => rw [← List.take_append_drop i text, upToNul_append, if_pos ends]

/-- A first line without NUL is kept, and the text goes on behind it. -/
theorem upToNul_of_line {text : Bytes} {i : Nat} (found : findSlice crlf text = some i)
    (noNul : (0 : Byte) ∉ text.take i) :
    findSlice crlf (upToNul text) = some i ∧ (upToNul text).take i = text.take i ∧
      (upToNul text).drop (i + crlf.length) = upToNul (text.drop (i + crlf.length)) := by
  obtain ⟨hit, -⟩ := (findSlice_eq_some_iff (by simp)).mp found
  have starts : upToNul text <+: text := List.takeWhile_prefix _
  have split : text = text.take i ++ (crlf ++ text.drop (i + crlf.length)) := by
    obtain ⟨rest, same⟩ := hit
    rw [← List.drop_drop, ← same, List.drop_left, same, List.take_append_drop]
  have two : crlf.length = 2 := rfl
  have length : (text.take i).length = i := by
    have room := hit.length_le
    rw [List.length_drop] at room
    rw [List.length_take]
    omega
  have whole : upToNul text = text.take i ++ (crlf ++ upToNul (text.drop (i + crlf.length))) := by
    conv_lhs => rw [split, upToNul_append, if_neg noNul, upToNul_append,
      if_neg (by decide : (0 : Byte) ∉ crlf)]
  have sizes := congrArg List.length whole
  rw [List.length_append, List.length_append, length] at sizes
  refine ⟨?_, ?_, ?_⟩
  · rw [List.prefix_iff_eq_take.mp starts, findSlice_take (by simp) found, if_pos]
    omega
  · conv_lhs => rw [whole, List.take_left' length]
  · conv_lhs => rw [whole, ← List.drop_drop, List.drop_left' length, List.drop_left]

/-- The first line of a text up to its first NUL is the first line of the text, up
to its first NUL. -/
theorem head_linesWithin_upToNul {β : Type} {read : Bytes → Option β} (empty : read [] = none) :
    ∀ {bound other : Nat} {text : Bytes}, text.length < bound → (upToNul text).length < other →
      (linesWithin other (upToNul text)).head?.bind read =
        (linesWithin bound text).head?.bind fun line => read (upToNul line) := by
  intro bound
  induction bound with
  | zero =>
      intro other text enough
      omega
  | succ bound inductionHypothesis =>
      intro other text enough more
      obtain ⟨other, rfl⟩ : ∃ fewer, other = fewer + 1 :=
        Nat.exists_eq_succ_of_ne_zero (by omega)
      obtain found | ⟨i, found⟩ := Option.eq_none_or_eq_some (findSlice crlf text)
      · have starts : upToNul text <+: text := List.takeWhile_prefix _
        have unbroken := (findSlice_eq_none_iff_absent (by simp)).mp found
        rw [head_linesWithin_last empty (findSlice_of_prefix_unbroken starts unbroken),
          @head_linesWithin_last _ (fun line => read (upToNul line)) empty _ _ found]
      · by_cases ends : (0 : Byte) ∈ text.take i
        · -- the NUL is in the first piece, which is not empty
          have line : text.take i ≠ [] := List.ne_nil_of_mem ends
          have starts : upToNul (text.take i) <+: text.take i := List.takeWhile_prefix _
          have unbroken := not_infix_take (by simp) found
          rw [linesWithin_line found line, upToNul_of_mem_take ends,
            head_linesWithin_last empty (findSlice_of_prefix_unbroken starts unbroken)]
          rfl
        · obtain ⟨again, sameLine, sameRest⟩ := upToNul_of_line found ends
          by_cases blank : text.take i = []
          · have positive := length_pos_of_found found
            have positiveUpTo := length_pos_of_found again
            have fewer := congrArg List.length sameRest
            rw [List.length_drop] at fewer
            rw [linesWithin_blank found blank, linesWithin_blank again (sameLine.trans blank),
              sameRest]
            apply inductionHypothesis
            · rw [List.length_drop, List.length_cons]
              omega
            · rw [← fewer, List.length_cons]
              omega
          · rw [linesWithin_line found blank, linesWithin_line again (sameLine ▸ blank), sameLine,
              List.head?_cons, List.head?_cons, Option.bind_some, Option.bind_some,
              upToNul_of_noNul ends]

/-- The callback is called with the first line of the block, as far as a C string
goes. -/
theorem receivedRequestLine_eq (block : Bytes) :
    receivedRequestLine block = (blockLines (upToNul block)).head?.bind requestLineParts :=
  (head_linesWithin_upToNul rfl (Nat.lt_succ_self _) (Nat.lt_succ_self _)).symm

end Text

section Stored

/-- A line without NUL holds the header that is set. -/
theorem lineHeader_bytes {line : Bytes} (noNul : (0 : Byte) ∉ line) :
    (lineHeader line).map (Prod.map CString.bytes CString.bytes) = declaredHeader line := by
  rw [lineHeader, declaredHeader, Option.map_map, strchr]
  split
  · have name : (0 : Byte) ∉ line.takeWhile (· ≠ ascii ':') :=
      fun member => noNul ((List.takeWhile_sublist _).subset member)
    have value : (0 : Byte) ∉ ((line.dropWhile (· ≠ ascii ':')).drop 1).dropWhile
        (· = ascii ' ') := by
      intro member
      have behind := List.mem_of_mem_drop ((List.dropWhile_sublist _).subset member)
      exact noNul ((List.dropWhile_sublist _).subset behind)
    rw [Option.map_some, Option.map_some, Function.comp_apply, Prod.map_apply,
      CString.ofMemory_bytes_of_noNul name, CString.ofMemory_bytes_of_noNul value]
  · rfl

theorem filterMap_lineHeader {lines : List Bytes} (noNul : ∀ line ∈ lines, (0 : Byte) ∉ line) :
    (lines.filterMap lineHeader).map (Prod.map CString.bytes CString.bytes) =
      lines.filterMap declaredHeader := by
  rw [List.map_filterMap]
  apply List.filterMap_congr
  intro line member
  exact lineHeader_bytes (noNul line member)

/-- What is read of a block are the headers that it declares up to its first
NUL. -/
theorem readBlock_declared {block : Bytes} {contentLength : Int}
    {headers : List (CString × CString)} {filled : TenRequestFirstLineCtx}
    (read : readBlock requestLineParts block = some (contentLength, headers, filled)) :
    headers.map (Prod.map CString.bytes CString.bytes) = declaredHeaders (upToNul block) := by
  have noNul : ∀ line ∈ blockLines (upToNul block), (0 : Byte) ∉ line :=
    fun line member zero => zero_notMem_upToNul block (mem_of_mem_linesWithin member 0 zero)
  rw [readBlock, ofMemory_terminated] at read
  rw [declaredHeaders]
  cases lines : blockLines (upToNul block) with
  | nil =>
      rw [lines] at read
      cases read
  | cons first rest =>
      rw [lines] at read noNul
      dsimp only at read
      split at read
      · cases read
      · rw [foldl_readLine] at read
        dsimp only at read
        split at read
        · cases read
        · cases read
          rw [List.tail_cons, ← filterMap_lineHeader
            (fun line member => noNul line (List.mem_cons_of_mem first member))]
          exact (OrderedMap.ofList_map CString.bytes CString.bytes (fun _ _ => Iff.rfl) _).symm

end Stored

/-- A request has all headers of its block, or is refused for its request line,
exactly when the block hides none of them. -/
theorem tenHttpParseRequest_seesAll_iff {grants : Schedule} (ample : Ample grants)
    (transport : Transport) (sock : TenSocket) (headerBlock : Bytes) (headerLen : Nat)
    {bodyPrefix : Bytes} {bodyPrefixLen : Nat} (whole : bodyPrefixLen ≤ bodyPrefix.length)
    (world : World) :
    Returns (tenHttpParseRequest transport sock headerBlock headerLen bodyPrefix bodyPrefixLen)
        grants world (fun reply _ => SeesAllHeaders (headerBlock.take headerLen) reply) ↔
      ¬ HidesHeaders (headerBlock.take headerLen) := by
  apply returns_iff_of_iff
  apply (tenHttpParseRequest_parses ample whole).mono
  intro reply _ parsed
  generalize headerBlock.take headerLen = block at parsed ⊢
  have stored : reply.map storedHeaders = (readBlock requestLineParts block).map
      fun read => read.2.1.map (Prod.map CString.bytes CString.bytes) := by
    have headers := congrArg (Option.map fun message : HttpMessage TenRequestFirstLineCtx =>
      message.headers.map (Prod.map CString.bytes CString.bytes)) parsed
    rw [Option.map_map, Option.map_map] at headers
    exact headers
  have nothing := @readBlock_eq_none_iff _ requestLineParts block
  rw [textLines, ofMemory_terminated, ← receivedRequestLine_eq] at nothing
  rw [SeesAllHeaders, stored, HidesHeaders]
  cases line : receivedRequestLine block with
  | none =>
      rw [nothing.mpr (.inl line)]
      exact iff_of_true rfl (fun hides => hides.1 rfl)
  | some parts =>
      rw [line] at nothing
      cases read : readBlock requestLineParts block with
      | none =>
          have announced := (nothing.mp read).resolve_left (by simp)
          refine iff_of_false (by simp) (not_not_intro ⟨by simp, .inr announced⟩)
      | some result =>
          have silent : ¬ AnnouncesFailure (blockLines (upToNul block)).tail := by
            intro announced
            rw [nothing.mpr (.inr announced)] at read
            cases read
          obtain ⟨contentLength, headers, filled⟩ := result
          rw [Option.map_some, Option.map_some, Option.some_inj, readBlock_declared read]
          simp [silent]

/-- A block without NUL hides its headers only behind the code for a failed
request line. -/
theorem hidesHeaders_iff_of_noNul {block : Bytes} (noNul : (0 : Byte) ∉ block) :
    HidesHeaders block ↔
      receivedRequestLine block ≠ none ∧ AnnouncesFailure (blockLines block).tail := by
  rw [HidesHeaders, upToNul_of_noNul noNul, or_iff_right (fun differ => differ rfl)]

section Examples

/-- A request with two headers, one of them twice. -/
def plainBlock : Bytes := literal "GET / HTTP/1.1\r\nA: b\r\nno header\r\na:  c"

theorem tenHttpParseRequest_seesAll_plain :
    Returns (tenHttpParseRequest bytewise (.connected []) plainBlock plainBlock.length [] 0)
      (fun _ => true) default (fun reply _ =>
        SeesAllHeaders (plainBlock.take plainBlock.length) reply) := by
  apply (tenHttpParseRequest_seesAll_iff ample_always _ _ _ _ (Nat.le_refl 0) _).mpr
  rintro ⟨-, differ | announced⟩
  · exact differ (by decide)
  · exact absurd announced (by unfold AnnouncesFailure; decide)

/-- A request whose first header has a NUL at its end. -/
def nulBlock : Bytes :=
  literal "GET / HTTP/1.1\r\nA: b" ++ 0 :: literal "\r\nContent-Length: 5"

/-- The length behind the NUL is announced in an accepted request, and not
stored. -/
theorem tenHttpParseRequest_not_seesAll_nul :
    findSlice (crlf ++ crlf) (nulBlock ++ crlf ++ crlf) = some nulBlock.length ∧
    ¬ Returns (tenHttpParseRequest bytewise (.connected []) nulBlock nulBlock.length [] 0)
      (fun _ => true) default (fun reply _ =>
        SeesAllHeaders (nulBlock.take nulBlock.length) reply) := by
  constructor
  · decide
  · intro returns
    have sees := returns.eq rfl
    exact absurd sees (by unfold SeesAllHeaders; decide)

end Examples

end Dotten
