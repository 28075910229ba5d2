/-
Module: Dotten.Http.HttpMessages
Layer: Http
Purpose: The bytes of a message as lines, and what the receiver makes of lines
  that end in a blank one.
Imports: Dotten.Http.HttpTransfer, Dotten.Http.HttpParsing
Main exports: addedHeaders, bodyBytes, crlfLines, tenHttpSendMessage_spec,
  tenHttpReceive_spec
-/
import Dotten.Http.HttpTransfer
import Dotten.Http.HttpParsing

namespace Dotten

open Dotten.Library

/-- `PTRDIFF_MAX` of a 64-bit platform: no object has more bytes. -/
def objectSizeMax : Nat := 2 ^ 63 - 1

/-- `"Connection"`. -/
def connectionName : CString := literalString "Connection"

/-- The headers that are added to a message with a body of the given size. -/
def addedHeaders (bodySize : Nat) : List (CString × CString) :=
  [(contentLengthName, CString.ofMemory (formatUnsigned bodySize)),
    (connectionName, literalString "close")]

/-- The bytes of a body, none when there is no buffer. -/
def bodyBytes (body : Option TenBuffer) : Bytes := body.elim [] TenBuffer.contents

/-- Lines that end in CRLF. -/
abbrev crlfLines (lines : List Bytes) : Bytes := endLines (ascii '\r') (ascii '\n') lines

/-- A text that fits a line buffer is not cut. -/
theorem snprintf_of_fits {size : Nat} {text : Bytes} (fits : text.length < size) :
    snprintf size text = text :=
  List.take_of_length_le (by omega)

theorem noNul_formatUnsigned (n : Nat) : (0 : Byte) ∉ formatUnsigned n := by
  intro member
  exact absurd (isDigit_of_mem_formatUnsigned member) (by decide)

theorem ofMemory_formatUnsigned (n : Nat) :
    (CString.ofMemory (formatUnsigned n)).bytes = formatUnsigned n :=
  CString.ofMemory_bytes_of_noNul (noNul_formatUnsigned n)

/-- The added headers can be read back, and announce the size of the body. -/
theorem readsBack_addedHeaders (bodySize : Nat) :
    ∀ pair ∈ addedHeaders bodySize, ReadsBack pair := by
  have notDigit : ∀ {b : Byte}, isDigit b = false → b ∉ formatUnsigned bodySize := by
    intro b other member
    rw [isDigit_of_mem_formatUnsigned member] at other
    cases other
  intro pair member
  simp only [addedHeaders, List.mem_cons, List.not_mem_nil, or_false] at member
  rcases member with rfl | rfl
  · constructor
    · change ascii ':' ∉ contentLengthName.bytes
      decide
    · change ascii '\n' ∉ contentLengthName.bytes
      decide
    · rw [ofMemory_formatUnsigned]
      exact notDigit (by decide)
    · rw [ofMemory_formatUnsigned]
      intro first
      exact notDigit (by decide) (List.mem_of_mem_head? first)
  · constructor <;> decide

theorem foldCase_connectionName_ne :
    foldCase connectionName ≠ foldCase contentLengthName := by decide

theorem announcedLength_addedHeaders (before : Int) (bodySize : Nat) :
    (addedHeaders bodySize).foldl announcedLength before = bodySize := by
  have first : announcedLength before
      (contentLengthName, CString.ofMemory (formatUnsigned bodySize)) = bodySize := by
    rw [announcedLength, if_pos rfl, ofMemory_formatUnsigned, atol_formatUnsigned]
  have second : announcedLength bodySize (connectionName, literalString "close") = bodySize :=
    if_neg foldCase_connectionName_ne
  simp only [addedHeaders, List.foldl_cons, List.foldl_nil, first, second]

/-- Headers of other names do not announce a length. -/
theorem announcedLength_of_forall_ne {members : List (CString × CString)}
    (others : ∀ pair ∈ members, foldCase pair.1 ≠ foldCase contentLengthName) (before : Int) :
    members.foldl announcedLength before = before := by
  induction members generalizing before with
  | nil => rfl
  | cons pair rest inductionHypothesis =>
      have same : announcedLength before pair = before :=
        if_neg (others pair List.mem_cons_self)
      rw [List.foldl_cons, same]
      exact inductionHypothesis
        (fun other member => others other (List.mem_cons_of_mem pair member)) before

/-- Headers that announce no negative length do not announce the code of a
failed first line. -/
theorem announcedLength_ne_failure {members : List (CString × CString)}
    (lengths : ∀ pair ∈ members, foldCase pair.1 = foldCase contentLengthName →
      0 ≤ atol pair.2.bytes) {before : Int} (start : before ≠ -2) :
    members.foldl announcedLength before ≠ -2 := by
  induction members generalizing before with
  | nil => exact start
  | cons pair rest inductionHypothesis =>
      rw [List.foldl_cons]
      apply inductionHypothesis
        (fun other member => lengths other (List.mem_cons_of_mem pair member))
      rw [announcedLength]
      split
      · rename_i named
        have nonnegative := lengths pair List.mem_cons_self named
        omega
      · exact start

section Sending

variable {grants : Schedule} {world : World} {transport : Transport} (ample : Ample grants)

include ample

/-- `ten__http_write_headers` writes the headers line by line. -/
theorem tenHttpWriteHeaders_spec (pairs : List (CString × CString)) :
    ∀ {out : TenBuffer} {world : World}, out.Valid →
      Returns (tenHttpWriteHeaders out pairs) grants world (fun after _ =>
        after.Valid ∧ after.contents = out.contents ++ crlfLines (pairs.map headerLine)) := by
  induction pairs with
  | nil =>
      intro out world valid
      simp only [tenHttpWriteHeaders, returns_pure]
      exact ⟨valid, by simp⟩
  | cons pair rest inductionHypothesis =>
      intro out world valid
      simp only [tenHttpWriteHeaders, returns_bind]
      apply (tenHttpPut_spec ample valid _).mono
      rintro one _ ⟨validOne, contentsOne⟩
      apply (tenHttpPut_spec ample validOne _).mono
      rintro two _ ⟨validTwo, contentsTwo⟩
      apply (tenHttpPut_spec ample validTwo _).mono
      rintro three _ ⟨validThree, contentsThree⟩
      apply (tenHttpPut_spec ample validThree _).mono
      rintro four _ ⟨validFour, contentsFour⟩
      apply (inductionHypothesis validFour).mono
      rintro after _ ⟨validAfter, contentsAfter⟩
      refine ⟨validAfter, ?_⟩
      rw [contentsAfter, contentsFour, contentsThree, contentsTwo, contentsOne]
      simp only [List.map_cons, crlfLines, endLines_cons, headerLine, crlf, List.append_assoc,
        List.cons_append, List.nil_append]

omit ample in
/-- The lines written behind the headers are those of the added headers. -/
theorem closing_eq (bodySize : Nat) :
    literal "Content-Length: " ++ formatUnsigned bodySize ++ crlf ++
        literal "Connection: close" ++ crlf ++ crlf =
      crlfLines ((addedHeaders bodySize).map headerLine) ++ crlf := by
  have name : literal "Content-Length: " = contentLengthName.bytes ++ literal ": " := by decide
  have connection : literal "Connection: close" =
      headerLine (connectionName, literalString "close") := by decide
  rw [name, connection]
  simp [addedHeaders, headerLine, ofMemory_formatUnsigned]

omit ample in
theorem length_formatUnsigned_le_of_object {bodySize : Nat} (object : bodySize ≤ objectSizeMax) :
    (formatUnsigned bodySize).length ≤ 19 := by
  apply length_formatUnsigned_le
  · unfold objectSizeMax at object
    omega
  · decide

omit ample in
theorem tenHttpBodySize_spec {body : Option TenBuffer}
    (validBody : ∀ buffer, body = some buffer → buffer.Valid) :
    Returns (tenHttpBodySize body) grants world (fun size _ => size = (bodyBytes body).length) := by
  cases body with
  | none =>
      simp only [tenHttpBodySize, returns_pure]
      rfl
  | some buffer =>
      simp only [tenHttpBodySize, returns_tenBufferSize]
      exact (validBody buffer rfl).length_contents.symm

theorem tenHttpPutBody_spec {out : TenBuffer} (valid : out.Valid) {body : Option TenBuffer}
    (validBody : ∀ buffer, body = some buffer → buffer.Valid) :
    Returns (tenHttpPutBody out body (bodyBytes body).length) grants world (fun after _ =>
      after.Valid ∧ after.contents = out.contents ++ bodyBytes body) := by
  cases body with
  | none =>
      simp only [tenHttpPutBody, returns_pure]
      exact ⟨valid, (List.append_nil _).symm⟩
  | some buffer =>
      have size : (bodyBytes (some buffer)).length = buffer.size :=
        (validBody buffer rfl).length_contents
      simp only [tenHttpPutBody]
      apply returns_ite
      · intro positive
        simp only [returns_bind, returns_tenBufferData, returns_pure]
        apply (tenBufferWrite_spec valid _ _).mono
        rintro ⟨code, after⟩ _ ⟨-, outcome⟩
        obtain ⟨-, validAfter, contents⟩ := outcome.of_ample ample
        rw [size] at contents
        exact ⟨validAfter, contents⟩
      · intro empty
        rw [returns_pure]
        refine ⟨valid, ?_⟩
        rw [List.eq_nil_of_length_eq_zero (Nat.eq_zero_of_not_pos empty), List.append_nil]

omit ample in
/-- The lines behind the headers fit the line buffer. -/
theorem closing_fits {bodySize : Nat} (object : bodySize ≤ objectSizeMax) :
    (literal "Content-Length: " ++ formatUnsigned bodySize ++ crlf ++
      literal "Connection: close" ++ crlf ++ crlf).length < tenHttpLineBuf := by
  have length := length_formatUnsigned_le_of_object object
  have name : (literal "Content-Length: ").length = 16 := by decide
  have connection : (literal "Connection: close").length = 17 := by decide
  simp only [List.length_append, name, connection, tenHttpLineBuf, List.length_cons,
    List.length_nil]
  omega

/-- What is gathered behind a first line is sent: the headers, the added ones,
the blank line and the body. -/
theorem tenHttpSendMessage_spec (delivers : transport.Delivers) {sock : TenSocket}
    {out : TenBuffer} (valid : out.Valid) (headers : TenHttpHeaders) {body : Option TenBuffer}
    (validBody : ∀ buffer, body = some buffer → buffer.Valid)
    (object : (bodyBytes body).length ≤ objectSizeMax) :
    Returns (tenHttpSendMessage transport sock out headers body) grants world (fun reply _ =>
      reply.1 = .ok ∧ reply.2.outgoing = sock.outgoing ++ (out.contents ++
        crlfLines ((headers.pairs ++ addedHeaders (bodyBytes body).length).map headerLine) ++
          crlf ++ bodyBytes body)) := by
  simp only [tenHttpSendMessage, returns_bind]
  apply (tenHttpWriteHeaders_spec ample headers.pairs valid).mono
  rintro written _ ⟨validWritten, contentsWritten⟩
  apply (tenHttpBodySize_spec validBody).mono
  rintro _ _ rfl
  rw [snprintf_of_fits (closing_fits object), closing_eq]
  apply (tenHttpPut_spec ample validWritten _).mono
  rintro closed _ ⟨validClosed, contentsClosed⟩
  apply (tenHttpPutBody_spec ample validClosed validBody).mono
  rintro after _ ⟨validAfter, contentsAfter⟩
  simp only [returns_tenBufferData, returns_tenBufferSize]
  apply (tenHttpSendAll_spec delivers sock validAfter.written).mono
  rintro reply _ ⟨ok, outgoing⟩
  refine ⟨ok, ?_⟩
  change _ = sock.outgoing ++ after.contents at outgoing
  rw [outgoing, contentsAfter, contentsClosed, contentsWritten, List.map_append, crlfLines,
    crlfLines, crlfLines, endLines_append]
  simp only [List.append_assoc]

end Sending

section Receiving

/-- What a receiver gets of a message: a first line, the members of the lines
behind it, and the bytes behind the blank line. -/
structure Received where
  first : Bytes
  members : List (CString × CString)
  rest : Bytes

namespace Received

/-- The lines before the blank one. -/
def lines (message : Received) : List Bytes := message.first :: message.members.map headerLine

/-- The length that the headers announce, -1 when they do not. -/
def announced (message : Received) : Int := message.members.foldl announcedLength (-1)

/-- The header block, up to and including the blank line. -/
def headerBlock (message : Received) : Bytes := crlfLines message.lines ++ crlf

/-- The bytes on the wire. -/
def stream (message : Received) : Bytes := message.headerBlock ++ message.rest

/-- The first line is a line, every other line can be taken apart again, and
the header block, with its blank line, is no larger than the receiver
allows. -/
structure Readable (message : Received) : Prop where
  nonempty : message.first ≠ []
  noEnd : ascii '\n' ∉ message.first
  noNul : (0 : Byte) ∉ message.first
  readBack : ∀ pair ∈ message.members, ReadsBack pair
  small : message.headerBlock.length ≤ tenHttpMaxHeaderSize

/-- The arguments of a parser that has received `message`: the header block,
the start of the body, and the rest of it still to be received. -/
structure Split (message : Received) (sock : TenSocket) (headerBlock : Bytes) (headerLen : Nat)
    (bodyPrefix : Bytes) (bodyPrefixLen : Nat) : Prop where
  headers : headerBlock.take headerLen = crlf.intercalate message.lines
  whole : bodyPrefixLen ≤ bodyPrefix.length
  body : bodyPrefix.take bodyPrefixLen ++ sock.incoming = message.rest

variable {message : Received}

theorem Readable.lines_noEnd (readable : message.Readable) :
    ∀ line ∈ message.lines, ascii '\n' ∉ line := by
  intro line member
  rcases List.mem_cons.mp member with rfl | later
  · exact readable.noEnd
  · obtain ⟨pair, listed, rfl⟩ := List.mem_map.mp later
    exact (readable.readBack pair listed).noEnd

theorem Readable.lines_ne_nil (readable : message.Readable) :
    ∀ line ∈ message.lines, line ≠ [] := by
  intro line member
  rcases List.mem_cons.mp member with rfl | later
  · exact readable.nonempty
  · obtain ⟨pair, -, rfl⟩ := List.mem_map.mp later
    exact headerLine_ne_nil pair

theorem Readable.blankLine (readable : message.Readable) :
    findSlice (crlf ++ crlf) message.stream =
      some (crlf.intercalate message.lines).length := by
  have apart : ascii '\r' ≠ ascii '\n' := by decide
  have found := findSlice_blankLine apart (List.cons_ne_nil _ _)
    (fun line member => unbroken_of_notMem (readable.lines_noEnd line member))
    readable.lines_ne_nil message.rest
  rw [stream, headerBlock, List.append_assoc]
  exact found

theorem noNul_headerLine (pair : CString × CString) : (0 : Byte) ∉ headerLine pair := by
  simp only [headerLine, List.mem_append, not_or]
  exact ⟨⟨pair.1.noNul, by decide⟩, pair.2.noNul⟩

theorem crlfLines_lines (message : Received) :
    crlfLines message.lines = crlf.intercalate message.lines ++ crlf :=
  endLines_eq_intercalate (List.cons_ne_nil _ _)

/-- No line holds a NUL, so the header block reads as one string. -/
theorem Readable.noNul_text (readable : message.Readable) :
    (0 : Byte) ∉ crlf.intercalate message.lines := by
  intro member
  have inLines : (0 : Byte) ∈ crlfLines message.lines := by
    rw [crlfLines_lines]
    exact List.mem_append_left _ member
  obtain ⟨line, listed, inLine⟩ := List.mem_flatMap.mp inLines
  have noNul : (0 : Byte) ∉ line := by
    rcases List.mem_cons.mp listed with rfl | later
    · exact readable.noNul
    · obtain ⟨pair, -, rfl⟩ := List.mem_map.mp later
      exact noNul_headerLine pair
  rcases List.mem_append.mp inLine with content | lineEnd
  · exact noNul content
  · exact absurd lineEnd (by decide)

end Received

variable {grants : Schedule} {world : World} {transport : Transport} (ample : Ample grants)
  (delivers : transport.Delivers) {message : Received} (readable : message.Readable)

include ample delivers readable

/-- However the message is cut into pieces, the parser gets its header block and
all bytes behind the blank line. -/
theorem tenHttpReceive_spec {μ : Type}
    {parse : TenSocket → Bytes → Nat → Bytes → Nat → Ten (Option μ)} (post : Option μ → Prop)
    {sock : TenSocket} (incoming : sock.incoming = message.stream)
    (parses : ∀ {rest : TenSocket} {headerBlock bodyPrefix : Bytes} {headerLen bodyPrefixLen : Nat}
      {now : World}, message.Split rest headerBlock headerLen bodyPrefix bodyPrefixLen →
      Returns (parse rest headerBlock headerLen bodyPrefix bodyPrefixLen) grants now
        (fun reply _ => post reply)) :
    Returns (tenHttpReceive transport parse sock) grants world (fun reply _ => post reply.2) := by
  have blank := readable.blankLine
  have small : (crlf.intercalate message.lines).length + 4 ≤ tenHttpMaxHeaderSize + 1 := by
    have block := readable.small
    rw [Received.headerBlock, Received.crlfLines_lines, List.length_append,
      List.length_append] at block
    simp only [List.length_cons, List.length_nil] at block
    omega
  simp only [tenHttpReceive, returns_bind]
  apply tenBufferCreate_spec.mono
  rintro reply _ (⟨rfl, shortage⟩ | ⟨raw, rfl, valid, contents⟩)
  · exact absurd ample shortage
  · simp only [returns_bind]
    apply (tenHttpReadUntilHeadersEnd_of_segments ample delivers.segments
      (incoming ▸ blank) small valid contents).mono
    rintro ⟨found, raw, rest⟩ _ ⟨rfl, validRaw, received, arrived⟩
    dsimp only at validRaw received arrived ⊢
    rw [incoming] at received
    simp only [if_true, returns_bind, returns_tenBufferData, returns_tenBufferSize]
    have search := tenFindCrlfCrlf_received received blank
    rw [if_pos arrived] at search
    rw [search]
    simp only [returns_bind, returns_pure]
    apply parses
    have size := validRaw.length_contents
    have written := validRaw.written
    have start : message.stream.take (crlf.intercalate message.lines).length =
        crlf.intercalate message.lines := by
      rw [Received.stream, Received.headerBlock, Received.crlfLines_lines, List.append_assoc,
        List.append_assoc, List.take_left]
    have behind : message.stream.drop ((crlf.intercalate message.lines).length + 4) =
        message.rest := by
      have block : message.stream =
          (crlf.intercalate message.lines ++ crlf ++ crlf) ++ message.rest := by
        rw [Received.stream, Received.headerBlock, Received.crlfLines_lines]
      have length : (crlf.intercalate message.lines).length + 4 =
          (crlf.intercalate message.lines ++ crlf ++ crlf).length := by
        simp
      rw [block, length, List.drop_left]
    constructor
    · have inContents : raw.data.take (crlf.intercalate message.lines).length =
          raw.contents.take (crlf.intercalate message.lines).length := by
        rw [TenBuffer.contents, List.take_take, Nat.min_eq_left (by omega)]
      rw [inContents]
      rw [← received, List.take_append_of_le_length (by omega)] at start
      exact start
    · rw [List.length_drop]
      omega
    · rw [← behind, ← received, List.drop_append_of_le_length (by omega), TenBuffer.contents,
        List.drop_take]
      rw [Nat.sub_sub]

omit ample delivers in
/-- The text that the parsers of headers get. -/
theorem headerText_of_split {sock : TenSocket} {headerBlock bodyPrefix : Bytes}
    {headerLen bodyPrefixLen : Nat}
    (split : message.Split sock headerBlock headerLen bodyPrefix bodyPrefixLen) :
    (CString.ofMemory (headerBlock.take headerLen ++ [0])).bytes =
      crlf.intercalate message.lines := by
  rw [split.headers]
  exact CString.takeWhile_append_nul readable.noNul_text []

omit readable in
/-- The body that is read, from what came with the headers on. -/
theorem tenHttpReadBody_of_split {sock : TenSocket} {headerBlock bodyPrefix : Bytes}
    {headerLen bodyPrefixLen : Nat}
    (split : message.Split sock headerBlock headerLen bodyPrefix bodyPrefixLen)
    {contentLength : Int} (length : contentLength = message.announced) :
    Returns (tenHttpReadBody transport sock contentLength bodyPrefix bodyPrefixLen) grants world
      (fun reply _ => ∃ body, reply.1 = some body ∧
        body.contents = message.rest.take message.announced.toNat) := by
  apply (tenHttpReadBody_of_segments ample delivers.segments sock contentLength bodyPrefix
    split.whole).mono
  rintro reply _ ⟨body, same, -, contents⟩
  rw [split.body, length] at contents
  exact ⟨body, same, contents⟩

/-- A response whose status line is accepted. -/
theorem tenHttpParseResponse_spec {status : Int}
    (accepts : ∀ {ctx : Int} {now : World},
      Returns (tenResponseFirstLine message.first ctx) grants now
        (fun reply _ => reply = (true, status)))
    (announced : message.announced ≠ -2) {sock : TenSocket} {headerBlock bodyPrefix : Bytes}
    {headerLen bodyPrefixLen : Nat}
    (split : message.Split sock headerBlock headerLen bodyPrefix bodyPrefixLen) :
    Returns (tenHttpParseResponse transport sock headerBlock headerLen bodyPrefix bodyPrefixLen)
      grants world (fun reply _ => ∃ parsed, reply = some parsed ∧ parsed.status = status ∧
        parsed.headers.pairs = OrderedMap.ofList foldCase message.members ∧
        bodyBytes parsed.body = message.rest.take message.announced.toNat) := by
  simp only [tenHttpParseResponse, tenHttpResponseCreate, returns_bind, returns_tenMalloc]
  constructor
  · intro granted
    constructor
    · intro grantedResp
      simp only [returns_bind, returns_pure]
      apply (tenHttpParseHeadersText_spec ample (headerText_of_split readable split)
        readable.noEnd readable.nonempty readable.readBack accepts).mono
      rintro ⟨contentLength, headers, parsedStatus⟩ _ ⟨length, pairs, sameStatus⟩
      dsimp only at length pairs sameStatus ⊢
      have accepted : contentLength ≠ -2 := length ▸ announced
      rw [if_neg accepted, returns_bind]
      apply (tenHttpReadBody_of_split ample delivers split length).mono
      rintro ⟨reply, rest⟩ _ ⟨body, rfl, contents⟩
      dsimp only
      rw [returns_pure]
      exact ⟨_, rfl, sameStatus, pairs, contents⟩
    · intro refused
      exact absurd ample (not_ample_of_refused refused)
  · intro refused
    exact absurd ample (not_ample_of_refused refused)

/-- A request whose request line is accepted. -/
theorem tenHttpParseRequest_spec {filled : TenRequestFirstLineCtx}
    (accepts : ∀ {ctx : TenRequestFirstLineCtx} {now : World},
      Returns (tenRequestFirstLine message.first ctx) grants now
        (fun reply _ => reply = (true, filled)))
    (announced : message.announced ≠ -2) {sock : TenSocket} {headerBlock bodyPrefix : Bytes}
    {headerLen bodyPrefixLen : Nat}
    (split : message.Split sock headerBlock headerLen bodyPrefix bodyPrefixLen) :
    Returns (tenHttpParseRequest transport sock headerBlock headerLen bodyPrefix bodyPrefixLen)
      grants world (fun reply _ => ∃ parsed, reply = some parsed ∧
        parsed.method = filled.method ∧ parsed.path = filled.path ∧
        parsed.headers.pairs = OrderedMap.ofList foldCase message.members ∧
        bodyBytes parsed.body = message.rest.take message.announced.toNat) := by
  simp only [tenHttpParseRequest, returns_bind, returns_tenMalloc]
  constructor
  · intro granted
    constructor
    · intro grantedReq
      apply (tenHttpParseHeadersText_spec ample (headerText_of_split readable split)
        readable.noEnd readable.nonempty readable.readBack accepts).mono
      rintro ⟨contentLength, headers, ctx⟩ _ ⟨length, pairs, rfl⟩
      dsimp only at length pairs ⊢
      have accepted : contentLength ≠ -2 := length ▸ announced
      rw [if_neg accepted, returns_bind]
      apply (tenHttpReadBody_of_split ample delivers split length).mono
      rintro ⟨reply, rest⟩ _ ⟨body, rfl, contents⟩
      dsimp only
      rw [returns_pure]
      exact ⟨_, rfl, rfl, rfl, pairs, contents⟩
    · intro refused
      exact absurd ample (not_ample_of_refused refused)
  · intro refused
    exact absurd ample (not_ample_of_refused refused)

end Receiving

end Dotten
