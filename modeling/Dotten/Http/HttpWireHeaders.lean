/-
Module: Dotten.Http.HttpWireHeaders
Layer: Http
Purpose: When the header names of a message are told apart on the wire.  The
  stored names always are; the lines that the serializers add around them, those
  that the line buffer cuts and those that a path or a host spells need not be.
Imports: Dotten.Http.HttpFraming, Dotten.Http.HttpHeaderBlock,
  Dotten.Http.HttpRequestRoundTrip
Main exports: wireHeaders, PlainHeader, UniqueHeaders, PlainLines,
  exists_requestMessage, tenHttp_uniqueHeaders_iff
-/
import Dotten.Http.HttpFraming
import Dotten.Http.HttpHeaderBlock
import Dotten.Http.HttpRequestRoundTrip

namespace Dotten

open Dotten.Library

/-- The headers in the header block of a stream: those of the lines behind the
first one. -/
def wireHeaders (stream : Bytes) : Option (List (CString × CString)) :=
  (splitBlock stream).map fun parts => parts.1.tail.filterMap lineHeader

/-- The bytes that the client sends for a request to the host. -/
def sentRequest (transport : Transport) (method : TenHttpMethod) (path host : CString)
    (calls : List MessageCall) : Ten (Option Bytes) := do
  let some request ← buildRequest method path calls
    | return none
  let (_, sock) ← tenHttpSendRequest transport (.connected []) request host
  return some sock.outgoing

/-- A header whose name has no colon and no LF, and whose value has no LF. -/
structure PlainHeader (pair : CString × CString) : Prop where
  nameColon : ascii ':' ∉ pair.1.bytes
  nameEnd : ascii '\n' ∉ pair.1.bytes
  valueEnd : ascii '\n' ∉ pair.2.bytes

instance (pair : CString × CString) : Decidable (PlainHeader pair) :=
  decidable_of_iff
    (ascii ':' ∉ pair.1.bytes ∧ ascii '\n' ∉ pair.1.bytes ∧ ascii '\n' ∉ pair.2.bytes)
    ⟨fun ⟨colon, name, value⟩ => ⟨colon, name, value⟩,
      fun ⟨colon, name, value⟩ => ⟨colon, name, value⟩⟩

/-- One of the headers has the given name, up to letter case. -/
def HasHeader (name : CString) (headers : List (CString × CString)) : Prop :=
  ∃ pair ∈ headers, foldCase pair.1 = foldCase name

instance (name : CString) (headers : List (CString × CString)) :
    Decidable (HasHeader name headers) :=
  inferInstanceAs (Decidable (∃ pair ∈ headers, foldCase pair.1 = foldCase name))

/-- No two headers have the same name, up to letter case, and one of them is a
`Content-Length` that is the size of the body. -/
structure UniqueHeaders (bodySize : Nat) (headers : List (CString × CString)) : Prop where
  distinct : OrderedMap.Distinct foldCase headers
  length : ∃ pair ∈ headers,
    foldCase pair.1 = foldCase contentLengthName ∧ atol pair.2.bytes = bodySize

/-- The headers of a response on the wire are told apart. -/
def ResponseUnique (bodySize : Nat) (sent : Option Bytes) : Prop :=
  ∃ headers, sent.bind wireHeaders = some headers ∧ UniqueHeaders bodySize headers

/-- The headers of a request on the wire are told apart, and one of them is
`Host`. -/
def RequestUnique (bodySize : Nat) (sent : Option Bytes) : Prop :=
  ∃ headers, sent.bind wireHeaders = some headers ∧ UniqueHeaders bodySize headers ∧
    HasHeader hostName headers

/-- No header has the name of one that is added to every message. -/
def NoneAdded (headers : List (CString × CString)) : Prop :=
  ∀ pair ∈ headers, foldCase pair.1 ≠ foldCase contentLengthName ∧
    foldCase pair.1 ≠ foldCase connectionName

instance (headers : List (CString × CString)) : Decidable (NoneAdded headers) :=
  inferInstanceAs (Decidable (∀ pair ∈ headers, foldCase pair.1 ≠ foldCase contentLengthName ∧
    foldCase pair.1 ≠ foldCase connectionName))

/-- The request line and the Host line, as they leave the line buffer. -/
def requestFront (method : TenHttpMethod) (path host : CString) : Bytes :=
  bufferedLine (requestLine method path) ++ bufferedLine (headerLine (hostName, host))

/-- The lines that end in the front of a request.  A path or a host with line
ends in it brings more lines than the two. -/
def frontLines (method : TenHttpMethod) (path host : CString) : List Bytes :=
  (pieces crlf (requestFront method path host)).dropLast

/-- The start of a line behind the last line end of the front: empty, unless a
line does not fit. -/
def frontRest (method : TenHttpMethod) (path host : CString) : Bytes :=
  (pieces crlf (requestFront method path host)).getLastD []

/-- The lines behind the front that are still lines of their own: an unfinished
front takes the first one with it. -/
def linesBehindFront (method : TenHttpMethod) (path host : CString)
    (lines : List (CString × CString)) : List (CString × CString) :=
  if frontRest method path host = [] then lines else lines.tail

/-- The header on the line that an unfinished front makes of the first line
behind it, if that is not the first line of the request. -/
def runOnHeader (method : TenHttpMethod) (path host : CString)
    (lines : List (CString × CString)) : Option (CString × CString) :=
  if frontRest method path host = [] ∨ frontLines method path host = [] then none
  else lines.head?.bind fun next => lineHeader (frontRest method path host ++ headerLine next)

/-- The headers that the front brings when it holds no blank line: the Host line,
what a path or a host with line ends spells, and the line that it runs into. -/
def frontHeaders (method : TenHttpMethod) (path host : CString)
    (lines : List (CString × CString)) : List (CString × CString) :=
  (frontLines method path host).tail.filterMap lineHeader ++
    (runOnHeader method path host lines).toList

/-- A path that spells a header line has the library send two Host lines. -/
example : (frontHeaders .get (literalString "/ HTTP/1.1\r\nHost: evil\r\nX: y")
    (literalString "localhost") []).map Prod.fst = [hostName, literalString "X", hostName] := by
  decide

/-- The headers of a front that holds a blank line, which ends the header
block. -/
def closedHeaders (method : TenHttpMethod) (path host : CString) : List (CString × CString) :=
  ((frontLines method path host).takeWhile (· ≠ [])).tail.filterMap lineHeader

/-- The headers of a front without a blank line are told apart from each other,
from the stored headers behind it and from the added ones; the added
Content-Length, if it runs into the front alone, has a stand-in there; and there
is a Host. -/
structure OpenFront (method : TenHttpMethod) (path host : CString) (content : MessageContent)
    (brought stored : List (CString × CString)) : Prop where
  distinct : OrderedMap.Distinct foldCase brought
  apart : ∀ pair ∈ brought, ¬ HasHeader pair.1 stored
  noConnection : ¬ HasHeader connectionName (brought ++ stored)
  oneLength : if frontRest method path host = [] ∨ content.headers ≠ [] then
      ¬ HasHeader contentLengthName (brought ++ stored)
    else ∃ pair ∈ brought, foldCase pair.1 = foldCase contentLengthName ∧
      atol pair.2.bytes = content.body.length
  oneHost : HasHeader hostName (brought ++ stored)

/-- What has to hold of the method, the path, the host and the content of a
request for its headers to be told apart. -/
def DistinctLines (method : TenHttpMethod) (path host : CString) (content : MessageContent) :
    Prop :=
  ([] ∈ frontLines method path host →
    UniqueHeaders content.body.length (closedHeaders method path host) ∧
      HasHeader hostName (closedHeaders method path host)) ∧
  ([] ∉ frontLines method path host →
    OpenFront method path host content
      (frontHeaders method path host (content.headers ++ addedHeaders content.body.length))
      (linesBehindFront method path host content.headers))

/-- The request line fits the line buffer. -/
abbrev RequestLineFits (method : TenHttpMethod) (path : CString) : Prop :=
  (tenHttpMethodName method).length + path.length + 12 < tenHttpLineBuf

/-- The Host line fits the line buffer. -/
abbrev HostLineFits (host : CString) : Prop := host.length + 8 < tenHttpLineBuf

/-- The lines behind the Host line that are still lines of their own: a Host
line that does not fit takes the first one with it. -/
def linesBehindHost (host : CString) (lines : List (CString × CString)) :
    List (CString × CString) :=
  if HostLineFits host then lines else lines.tail

/-- What has to hold when the path and the host are one line each: the Host line
takes no added line with it, no other header has the name of an added one, and a
header has the name `Host` exactly when the Host line is lost to a request line
that does not fit. -/
structure PlainLines (method : TenHttpMethod) (path host : CString)
    (headers : List (CString × CString)) : Prop where
  lengthLine : HostLineFits host ∨ headers ≠ []
  noneAdded : NoneAdded (linesBehindHost host headers)
  oneHost : RequestLineFits method path ↔ ¬ HasHeader hostName (linesBehindHost host headers)

instance (method : TenHttpMethod) (path host : CString) (headers : List (CString × CString)) :
    Decidable (PlainLines method path host headers) :=
  decidable_of_iff
    ((HostLineFits host ∨ headers ≠ []) ∧ NoneAdded (linesBehindHost host headers) ∧
      (RequestLineFits method path ↔ ¬ HasHeader hostName (linesBehindHost host headers)))
    ⟨fun ⟨length, fresh, one⟩ => ⟨length, fresh, one⟩,
      fun ⟨length, fresh, one⟩ => ⟨length, fresh, one⟩⟩

section Lines

/-- A header as it is read off its line: without the spaces before its value. -/
def readHeader (pair : CString × CString) : CString × CString :=
  (pair.1, CString.ofMemory (pair.2.bytes.dropWhile (· = ascii ' ')))

theorem lineHeader_headerLine {pair : CString × CString} (nameColon : ascii ':' ∉ pair.1.bytes) :
    lineHeader (headerLine pair) = some (readHeader pair) := by
  have separator : literal ": " = [ascii ':', ascii ' '] := by decide
  have split : strchr (headerLine pair) (ascii ':') =
      some (pair.1.bytes, ascii ' ' :: pair.2.bytes) := by
    rw [headerLine, separator, List.append_assoc]
    exact strchr_append nameColon _
  rw [lineHeader, split, Option.map_some, List.dropWhile_cons_of_pos (by simp),
    CString.ofMemory_bytes]
  rfl

theorem PlainHeader.noEnd {pair : CString × CString} (plain : PlainHeader pair) :
    ascii '\n' ∉ headerLine pair := by
  simp only [headerLine, List.mem_append, not_or]
  exact ⟨⟨plain.nameEnd, by decide⟩, plain.valueEnd⟩

theorem ReadsBack.plain {pair : CString × CString} (readsBack : ReadsBack pair) :
    PlainHeader pair where
  nameColon := readsBack.nameColon
  nameEnd := readsBack.nameEnd
  valueEnd := readsBack.valueEnd

theorem plain_added {headers : List (CString × CString)} (plain : ∀ pair ∈ headers, PlainHeader pair)
    (bodySize : Nat) : ∀ pair ∈ headers ++ addedHeaders bodySize, PlainHeader pair := by
  intro pair member
  rcases List.mem_append.mp member with given | added
  · exact plain pair given
  · exact (readsBack_addedHeaders bodySize pair added).plain

/-- The headers on the wire are those of the message. -/
theorem wireHeaders_stream {message : Received} (nonempty : message.first ≠ [])
    (noEnd : ascii '\n' ∉ message.first) (plain : ∀ pair ∈ message.members, PlainHeader pair) :
    wireHeaders message.stream = some (message.members.map readHeader) := by
  have split : splitBlock message.stream = some (message.lines, message.rest) :=
    splitBlock_stream (unbroken_of_notMem noEnd) nonempty
      fun pair member => unbroken_of_notMem (plain pair member).noEnd
  have read : ∀ pair ∈ message.members, (lineHeader ∘ headerLine) pair = some (readHeader pair) :=
    fun pair member => lineHeader_headerLine (plain pair member).nameColon
  rw [wireHeaders, split, Option.map_some, Received.lines, List.tail_cons, List.filterMap_map,
    List.filterMap_congr read, List.filterMap_eq_map']

end Lines

section Names

variable {headers : List (CString × CString)} {bodySize : Nat}

theorem distinct_readHeader_iff :
    OrderedMap.Distinct foldCase (headers.map readHeader) ↔
      OrderedMap.Distinct foldCase headers := by
  unfold OrderedMap.Distinct
  rw [List.map_map]
  exact Iff.rfl

theorem hasHeader_readHeader_iff {name : CString} :
    HasHeader name (headers.map readHeader) ↔ HasHeader name headers := by
  unfold HasHeader
  constructor
  · rintro ⟨_, member, same⟩
    obtain ⟨pair, listed, rfl⟩ := List.mem_map.mp member
    exact ⟨pair, listed, same⟩
  · rintro ⟨pair, listed, same⟩
    exact ⟨readHeader pair, List.mem_map_of_mem listed, same⟩

/-- The added headers announce the size of the body. -/
theorem length_readHeader_added :
    ∃ pair ∈ (headers ++ addedHeaders bodySize).map readHeader,
      foldCase pair.1 = foldCase contentLengthName ∧ atol pair.2.bytes = bodySize := by
  have listed : (contentLengthName, CString.ofMemory (formatUnsigned bodySize)) ∈
      headers ++ addedHeaders bodySize :=
    List.mem_append_right _ List.mem_cons_self
  refine ⟨_, List.mem_map_of_mem listed, rfl, ?_⟩
  have noSpace : ∀ b ∈ formatUnsigned bodySize, ¬ decide (b = ascii ' ') = true := by
    intro b member same
    have digit := isDigit_of_mem_formatUnsigned member
    rw [of_decide_eq_true same] at digit
    exact absurd digit (by decide)
  have kept : (formatUnsigned bodySize).dropWhile (· = ascii ' ') = formatUnsigned bodySize := by
    cases digits : formatUnsigned bodySize with
    | nil => rfl
    | cons first rest =>
        exact List.dropWhile_cons_of_neg (noSpace first (digits ▸ List.mem_cons_self))
  rw [readHeader, ofMemory_formatUnsigned, kept, ofMemory_formatUnsigned, atol_formatUnsigned]

theorem hasHeader_append_iff {name : CString} {left right : List (CString × CString)} :
    HasHeader name (left ++ right) ↔ HasHeader name left ∨ HasHeader name right := by
  unfold HasHeader
  simp only [List.mem_append, or_and_right, exists_or]

theorem not_hasHeader_host_added : ¬ HasHeader hostName (addedHeaders bodySize) := by
  rintro ⟨pair, member, same⟩
  simp only [addedHeaders, List.mem_cons, List.not_mem_nil, or_false] at member
  rcases member with rfl | rfl
  · have apart : foldCase contentLengthName ≠ foldCase hostName := by decide
    exact apart same
  · have apart : foldCase connectionName ≠ foldCase hostName := by decide
    exact apart same

/-- Stored headers are told apart from the added ones by two names. -/
theorem uniqueHeaders_added_iff (distinct : OrderedMap.Distinct foldCase headers) :
    UniqueHeaders bodySize ((headers ++ addedHeaders bodySize).map readHeader) ↔
      NoneAdded headers := by
  constructor
  · rintro ⟨told, -⟩
    exact (distinct_added_iff distinct).mp (distinct_readHeader_iff.mp told)
  · intro none
    constructor
    · exact distinct_readHeader_iff.mpr ((distinct_added_iff distinct).mpr none)
    · exact length_readHeader_added

/-- With a Host line in front, no stored header is another one. -/
theorem uniqueHeaders_host_added_iff (distinct : OrderedMap.Distinct foldCase headers)
    (value : CString) :
    UniqueHeaders bodySize
        (((hostName, value) :: (headers ++ addedHeaders bodySize)).map readHeader) ↔
      NoneAdded headers ∧ ¬ HasHeader hostName headers := by
  have fresh : foldCase hostName ∉
        (headers ++ addedHeaders bodySize).map (fun pair => foldCase pair.1) ↔
      ¬ HasHeader hostName headers := by
    rw [← not_iff_not, not_not, not_not, List.mem_map]
    change HasHeader hostName (headers ++ addedHeaders bodySize) ↔ _
    rw [hasHeader_append_iff]
    exact or_iff_left not_hasHeader_host_added
  have stored : NoneAdded headers ↔
      OrderedMap.Distinct foldCase (headers ++ addedHeaders bodySize) :=
    (distinct_added_iff distinct).symm
  have behindHost : OrderedMap.Distinct foldCase
        ((hostName, value) :: (headers ++ addedHeaders bodySize)) ↔
      foldCase hostName ∉
          (headers ++ addedHeaders bodySize).map (fun pair => foldCase pair.1) ∧
        OrderedMap.Distinct foldCase (headers ++ addedHeaders bodySize) :=
    OrderedMap.distinct_cons
  rw [stored, and_comm, ← fresh, ← behindHost, ← distinct_readHeader_iff]
  constructor
  · exact UniqueHeaders.distinct
  · intro told
    obtain ⟨pair, listed, announced⟩ :
        ∃ pair ∈ (headers ++ addedHeaders bodySize).map readHeader,
          foldCase pair.1 = foldCase contentLengthName ∧ atol pair.2.bytes = bodySize :=
      length_readHeader_added
    exact ⟨told, pair, List.mem_cons_of_mem _ listed, announced⟩

end Names

section Requests

variable {method : TenHttpMethod} {path host : CString}

/-- The Host line and the lines behind it are header lines, whether the Host
line fits or not. -/
theorem exists_hostLine (hostEnd : ascii '\n' ∉ host.bytes) {lines : List (CString × CString)}
    (nonempty : lines ≠ []) (plain : ∀ pair ∈ lines, PlainHeader pair) :
    ∃ value, PlainHeader (hostName, value) ∧
      bufferedLine (headerLine (hostName, host)) ++ crlfLines (lines.map headerLine) =
        headerLine (hostName, value) ++ crlf ++
          crlfLines ((linesBehindHost host lines).map headerLine) := by
  have plainHost : ∀ {value : CString}, ascii '\n' ∉ value.bytes →
      PlainHeader (hostName, value) := by
    intro value valueEnd
    constructor
    · change ascii ':' ∉ hostName.bytes
      decide
    · change ascii '\n' ∉ hostName.bytes
      decide
    · exact valueEnd
  by_cases fits : HostLineFits host
  · refine ⟨host, plainHost hostEnd, ?_⟩
    rw [linesBehindHost, if_pos fits, bufferedLine_of_fits]
    rw [length_hostLine]
    exact fits
  · obtain ⟨next, later, rfl⟩ := List.exists_cons_of_ne_nil nonempty
    have nextPlain := plain next List.mem_cons_self
    refine ⟨mergedHost host next, plainHost (noEnd_mergedHost (Nat.le_of_not_lt fits) hostEnd
      nextPlain.noEnd), ?_⟩
    rw [linesBehindHost, if_neg fits, ← bufferedLine_hostLine_append, List.tail_cons]
    simp only [List.map_cons, crlfLines, endLines_cons, List.append_assoc, List.cons_append,
      List.nil_append]

/-- A request stands on the wire as a message.  A request line that does not fit
takes the Host line with it. -/
theorem exists_requestMessage (pathEnd : ascii '\n' ∉ path.bytes)
    (hostEnd : ascii '\n' ∉ host.bytes) {content : MessageContent}
    (plain : ∀ pair ∈ content.headers, PlainHeader pair) :
    ∃ message : Received, ∃ value,
      message.stream = requestBlock method path host content ++ content.body ∧
      message.first ≠ [] ∧ ascii '\n' ∉ message.first ∧
      (∀ pair ∈ message.members, PlainHeader pair) ∧
      message.members = (if RequestLineFits method path then [(hostName, value)] else []) ++
        linesBehindHost host (content.headers ++ addedHeaders content.body.length) := by
  have plainLines := plain_added plain content.body.length
  generalize linesEq : content.headers ++ addedHeaders content.body.length = lines
    at plainLines ⊢
  have nonempty : lines ≠ [] := by
    rw [← linesEq]
    simp [addedHeaders]
  obtain ⟨value, plainHost, hostLine⟩ := exists_hostLine hostEnd nonempty plainLines
  have plainBehind : ∀ pair ∈ linesBehindHost host lines, PlainHeader pair := by
    intro pair member
    apply plainLines
    rw [linesBehindHost] at member
    split at member
    · exact member
    · exact List.mem_of_mem_tail member
  have noEndLine : ascii '\n' ∉ requestLine method path := noEnd_requestLine pathEnd
  have block : requestBlock method path host content =
      bufferedLine (requestLine method path) ++ headerLine (hostName, value) ++ crlf ++
        crlfLines ((linesBehindHost host lines).map headerLine) ++ crlf := by
    rw [requestBlock, linesEq, List.append_assoc (bufferedLine _), hostLine]
    simp only [List.append_assoc]
  have length := length_requestLine method path
  by_cases fits : RequestLineFits method path
  · refine ⟨{
      first := requestLine method path
      members := (hostName, value) :: linesBehindHost host lines
      rest := content.body }, value, ?_, ?_, noEndLine, ?_, ?_⟩
    · rw [block, bufferedLine_of_fits (by omega)]
      simp only [Received.stream, Received.headerBlock, Received.lines, crlfLines, endLines_cons,
        List.map_cons, List.append_assoc, List.cons_append, List.nil_append]
    · rw [requestLine_eq]
      simp
    · exact List.forall_mem_cons.mpr ⟨plainHost, plainBehind⟩
    · rw [if_pos fits]
      rfl
  · have cut : tenHttpLineBuf ≤ (requestLine method path).length + 2 := by
      unfold RequestLineFits at fits
      omega
    refine ⟨{
      first := bufferedLine (requestLine method path) ++ headerLine (hostName, value)
      members := linesBehindHost host lines
      rest := content.body }, value, ?_, ?_, ?_, plainBehind, ?_⟩
    · rw [block]
      simp only [Received.stream, Received.headerBlock, Received.lines, crlfLines, endLines_cons,
        List.append_assoc, List.cons_append, List.nil_append]
    · exact List.append_ne_nil_of_right_ne_nil _ (headerLine_ne_nil _)
    · rw [List.mem_append, not_or]
      exact ⟨noEnd_bufferedLine cut noEndLine, plainHost.noEnd⟩
    · rw [if_neg fits, List.nil_append]

/-- The headers behind a request line are told apart, and one of them is `Host`,
when none has the name of an added one, and a stored one is `Host` only where
the Host line is lost. -/
theorem uniqueHeaders_request_iff {headers : List (CString × CString)} {bodySize : Nat}
    (distinct : OrderedMap.Distinct foldCase headers) (value : CString) (fits : Prop)
    [Decidable fits] {members : List (CString × CString)}
    (membersEq : members =
      (if fits then [(hostName, value)] else []) ++ (headers ++ addedHeaders bodySize)) :
    UniqueHeaders bodySize (members.map readHeader) ∧ HasHeader hostName (members.map readHeader) ↔
      NoneAdded headers ∧ (fits ↔ ¬ HasHeader hostName headers) := by
  rw [hasHeader_readHeader_iff, membersEq]
  by_cases here : fits
  · have named : HasHeader hostName ((hostName, value) :: (headers ++ addedHeaders bodySize)) :=
      ⟨_, List.mem_cons_self, rfl⟩
    rw [if_pos here, List.singleton_append, uniqueHeaders_host_added_iff distinct,
      and_iff_left named, iff_true_left here]
  · rw [if_neg here, List.nil_append, uniqueHeaders_added_iff distinct, hasHeader_append_iff,
      or_iff_left not_hasHeader_host_added, iff_false_left here, not_not]

/-- Without a Content-Length line the headers are not those of a message. -/
theorem not_uniqueHeaders_of_no_length {value : CString} {fits : Prop} [Decidable fits]
    {bodySize : Nat} {members : List (CString × CString)}
    (membersEq : members = (if fits then [(hostName, value)] else []) ++
      (addedHeaders bodySize).tail) : ¬ UniqueHeaders bodySize (members.map readHeader) := by
  rintro ⟨-, pair, listed, named, -⟩
  obtain ⟨member, inMembers, rfl⟩ := List.mem_map.mp listed
  have apart : foldCase hostName ≠ foldCase contentLengthName := by decide
  rw [membersEq, List.mem_append] at inMembers
  rcases inMembers with inHost | inRest
  · split at inHost
    · rw [List.mem_singleton] at inHost
      rw [inHost] at named
      exact apart named
    · cases inHost
  · change member ∈ [(connectionName, literalString "close")] at inRest
    rw [List.mem_singleton] at inRest
    rw [inRest] at named
    exact foldCase_connectionName_ne named

/-- The headers of a request are told apart on the wire exactly when its lines
are. -/
theorem requestUnique_iff_plain (pathEnd : ascii '\n' ∉ path.bytes) (hostEnd : ascii '\n' ∉ host.bytes)
    {content : MessageContent} (distinct : OrderedMap.Distinct foldCase content.headers)
    (plain : ∀ pair ∈ content.headers, PlainHeader pair) :
    RequestUnique content.body.length
        (some (requestBlock method path host content ++ content.body)) ↔
      PlainLines method path host content.headers := by
  obtain ⟨message, value, stream, nonempty, noEnd, plainMembers, members⟩ :
      ∃ message : Received, ∃ value,
        message.stream = requestBlock method path host content ++ content.body ∧
        message.first ≠ [] ∧ ascii '\n' ∉ message.first ∧
        (∀ pair ∈ message.members, PlainHeader pair) ∧
        message.members = (if RequestLineFits method path then [(hostName, value)] else []) ++
          linesBehindHost host (content.headers ++ addedHeaders content.body.length) :=
    exists_requestMessage pathEnd hostEnd plain
  have onWire : RequestUnique content.body.length (some message.stream) ↔
      UniqueHeaders content.body.length (message.members.map readHeader) ∧
        HasHeader hostName (message.members.map readHeader) := by
    rw [RequestUnique, Option.bind_some, wireHeaders_stream nonempty noEnd plainMembers]
    simp only [Option.some.injEq, exists_eq_left']
  rw [← stream, onWire]
  by_cases lengthLine : HostLineFits host ∨ content.headers ≠ []
  · have behind : linesBehindHost host (content.headers ++ addedHeaders content.body.length) =
        linesBehindHost host content.headers ++ addedHeaders content.body.length := by
      unfold linesBehindHost
      by_cases fits : HostLineFits host
      · rw [if_pos fits, if_pos fits]
      · rw [if_neg fits, if_neg fits,
          List.tail_append_of_ne_nil (lengthLine.resolve_left fits)]
    have kept : (linesBehindHost host content.headers).Sublist content.headers := by
      unfold linesBehindHost
      split
      · exact List.Sublist.refl _
      · exact List.tail_sublist _
    rw [behind] at members
    rw [uniqueHeaders_request_iff (distinct.sublist kept) value _ members]
    exact ⟨fun ⟨noneAdded, oneHost⟩ => ⟨lengthLine, noneAdded, oneHost⟩,
      fun lines => ⟨lines.noneAdded, lines.oneHost⟩⟩
  · obtain ⟨cut, none⟩ := not_or.mp lengthLine
    rw [ne_eq, not_not] at none
    rw [none, List.nil_append, linesBehindHost, if_neg cut] at members
    apply iff_of_false
    · rintro ⟨unique, -⟩
      exact not_uniqueHeaders_of_no_length members unique
    · intro lines
      exact lengthLine lines.lengthLine

end Requests

section Fronts

variable {method : TenHttpMethod} {path host : CString}

/-- The headers on lines, of which the first is not blank, end at the first
blank line. -/
theorem wireHeaders_lines {first : Bytes} {later : List Bytes} (nonempty : first ≠ [])
    (oneLine : ∀ line ∈ first :: later, OneLine line) (rest : Bytes) :
    wireHeaders (crlfLines (first :: later) ++ crlf ++ rest) =
      some (((first :: later).takeWhile (· ≠ [])).tail.filterMap lineHeader) := by
  by_cases blank : [] ∈ first :: later
  · obtain ⟨front, behind, split, fresh⟩ :
        ∃ front behind, first :: later = front ++ [] :: behind ∧ [] ∉ front :=
      List.eq_append_cons_of_mem blank
    have started : front ≠ [] := by
      rintro rfl
      exact nonempty (List.cons.inj split).1
    have noBlank : ∀ line ∈ front, line ≠ [] :=
      fun line member same => fresh (same ▸ member)
    have stream : crlfLines (first :: later) ++ crlf ++ rest =
        crlfLines front ++ crlf ++ (crlfLines behind ++ crlf ++ rest) := by
      rw [split, crlfLines, crlfLines, endLines_append, endLines_cons, crlf]
      simp only [List.append_assoc, List.cons_append, List.nil_append]
    have before : (first :: later).takeWhile (· ≠ []) = front := by
      rw [split, List.takeWhile_append_of_pos (fun line member => by simpa using noBlank line member),
        List.takeWhile_cons_of_neg (by simp), List.append_nil]
    have split' : splitBlock (crlfLines front ++ crlf ++ (crlfLines behind ++ crlf ++ rest)) =
        some (front, crlfLines behind ++ crlf ++ rest) :=
      splitBlock_lines started (fun line member => oneLine line
        (split ▸ List.mem_append_left _ member)) noBlank _
    rw [stream, wireHeaders, split', Option.map_some, before]
  · have noBlank : ∀ line ∈ first :: later, line ≠ [] :=
      fun line member same => blank (same ▸ member)
    have whole : (first :: later).takeWhile (· ≠ []) = first :: later :=
      List.takeWhile_eq_self_iff.mpr (fun line member => by simpa using noBlank line member)
    rw [wireHeaders, splitBlock_lines (List.cons_ne_nil _ _) oneLine noBlank, Option.map_some, whole]

/-- The front of a request is made of its lines and the start of the next
one. -/
theorem requestFront_eq :
    requestFront method path host =
      crlfLines (frontLines method path host) ++ frontRest method path host := by
  have parts : frontLines method path host ++ [frontRest method path host] =
      pieces crlf (requestFront method path host) := by
    have nonempty : pieces crlf (requestFront method path host) ≠ [] := pieces_ne_nil
    rw [frontLines, frontRest, List.getLastD_eq_getLast?, List.getLast?_eq_some_getLast nonempty,
      Option.getD_some]
    exact List.dropLast_append_getLast nonempty
  have joined : crlf.intercalate (pieces crlf (requestFront method path host)) =
      requestFront method path host := intercalate_pieces (by simp) _
  rw [← parts] at joined
  rw [← joined]
  exact (endLines_append_eq_intercalate _ _).symm

theorem oneLine_front :
    (∀ line ∈ frontLines method path host, OneLine line) ∧
      OneLine (frontRest method path host) := by
  have inPieces : ∀ piece ∈ pieces crlf (requestFront method path host), OneLine piece :=
    fun piece member => not_infix_of_mem_pieces (by simp) member
  constructor
  · exact fun line member => inPieces line (List.mem_of_mem_dropLast member)
  · have nonempty : pieces crlf (requestFront method path host) ≠ [] := pieces_ne_nil
    rw [frontRest, List.getLastD_eq_getLast?, List.getLast?_eq_some_getLast nonempty,
      Option.getD_some]
    exact inPieces _ (List.getLast_mem nonempty)

/-- The first line of a request starts with the method. -/
theorem requestFront_not_crlf (rest : Bytes) : requestFront method path host ≠ crlf ++ rest := by
  obtain ⟨behind, starts⟩ :
      ∃ behind, bufferedLine (requestLine method path) =
        tenHttpMethodName method ++ ascii ' ' :: behind :=
    exists_bufferedLine_requestLine method path
  have letter : (tenHttpMethodName method).head? ≠ some (ascii '\r') ∧
      (tenHttpMethodName method).head? ≠ none := by
    cases method <;> decide
  intro same
  have heads := congrArg List.head? same
  rw [requestFront, starts, List.append_assoc, List.head?_append, crlf] at heads
  cases name : (tenHttpMethodName method).head? with
  | none => exact letter.2 name
  | some head =>
      rw [name] at heads
      exact letter.1 (name.trans heads)

theorem frontLines_first {first : Bytes} {later : List Bytes}
    (lines : frontLines method path host = first :: later) : first ≠ [] := by
  rintro rfl
  have front := @requestFront_eq method path host
  rw [lines, crlfLines, endLines_cons, List.nil_append] at front
  exact requestFront_not_crlf _ front

/-- The headers of the lines behind a front without a blank line. -/
theorem filterMap_openFront {next : CString × CString} {later : List (CString × CString)}
    (plain : ∀ pair ∈ next :: later, PlainHeader pair) :
    (frontLines method path host ++ (frontRest method path host ++ headerLine next) ::
        later.map headerLine).tail.filterMap lineHeader =
      frontHeaders method path host (next :: later) ++
        (linesBehindFront method path host (next :: later)).map readHeader := by
  have readLines : ∀ lines : List (CString × CString), (∀ pair ∈ lines, PlainHeader pair) →
      (lines.map headerLine).filterMap lineHeader = lines.map readHeader := by
    intro lines plainLines
    have read : ∀ pair ∈ lines, (lineHeader ∘ headerLine) pair = some (readHeader pair) :=
      fun pair member => lineHeader_headerLine (plainLines pair member).nameColon
    rw [List.filterMap_map, List.filterMap_congr read, List.filterMap_eq_map']
  have plainLater : ∀ pair ∈ later, PlainHeader pair :=
    fun pair member => plain pair (List.mem_cons_of_mem next member)
  rw [frontHeaders, runOnHeader, linesBehindFront]
  by_cases ended : frontRest method path host = []
  · obtain ⟨first, lines, front⟩ : ∃ first lines, frontLines method path host = first :: lines := by
      apply List.exists_cons_of_ne_nil
      intro none
      have front := @requestFront_eq method path host
      obtain ⟨behind, starts⟩ := exists_bufferedLine_requestLine method path
      rw [none, ended, requestFront, starts] at front
      simp [crlfLines] at front
    rw [if_pos (.inl ended), if_pos ended, ended, front, List.nil_append, List.cons_append,
      List.tail_cons, List.tail_cons, List.filterMap_append, Option.toList_none, List.append_nil]
    exact congrArg _ (readLines (next :: later) plain)
  · rw [if_neg ended]
    cases front : frontLines method path host with
    | nil =>
        rw [if_pos (.inr rfl)]
        exact readLines later plainLater
    | cons first lines =>
        rw [if_neg (by simp [ended]), List.cons_append, List.tail_cons, List.tail_cons,
          List.filterMap_append, List.filterMap_cons, List.head?_cons, Option.bind_some,
          List.append_assoc, readLines later plainLater]
        cases lineHeader (frontRest method path host ++ headerLine next) with
        | none => rfl
        | some header => rfl

/-- A header line starts with no LF, so no line end arises where the front runs
into it. -/
theorem oneLine_runOn {next : CString × CString} (plain : PlainHeader next) :
    OneLine (frontRest method path host ++ headerLine next) := by
  intro occurs
  obtain ⟨j, first, second⟩ := pair_infix_iff_getElem?.mp occurs
  rw [List.getElem?_append] at first second
  by_cases inRest : j + 1 < (frontRest method path host).length
  · rw [if_pos (by omega)] at first
    rw [if_pos inRest] at second
    exact oneLine_front.2 (pair_infix_iff_getElem?.mpr ⟨j, first, second⟩)
  · rw [if_neg inRest] at second
    exact plain.noEnd (List.mem_of_getElem? second)

/-- Lines that are not blank end at a blank line of the front, if there is one. -/
theorem takeWhile_frontLines {behind : List Bytes} (noBlank : ∀ line ∈ behind, line ≠ []) :
    (frontLines method path host ++ behind).takeWhile (· ≠ []) =
      if [] ∈ frontLines method path host then
        (frontLines method path host).takeWhile (· ≠ [])
      else frontLines method path host ++ behind := by
  split
  · rename_i blank
    obtain ⟨before, after, split, fresh⟩ := List.eq_append_cons_of_mem blank
    have whole : ∀ line ∈ before, decide (line ≠ []) = true := fun line member => by
      simpa using fun same : line = [] => fresh (same ▸ member)
    rw [split, List.append_assoc, List.takeWhile_append_of_pos whole,
      List.takeWhile_append_of_pos whole, List.cons_append,
      List.takeWhile_cons_of_neg (by simp), List.takeWhile_cons_of_neg (by simp)]
  · rename_i fresh
    rw [List.takeWhile_eq_self_iff]
    intro line member
    rcases List.mem_append.mp member with inFront | inRest
    · simpa using fun same : line = [] => fresh (same ▸ inFront)
    · simpa using noBlank line inRest

/-- The headers of a request on the wire. -/
theorem wireHeaders_request {content : MessageContent}
    (plain : ∀ pair ∈ content.headers, PlainHeader pair) :
    wireHeaders (requestBlock method path host content ++ content.body) =
      some (if [] ∈ frontLines method path host then closedHeaders method path host
        else frontHeaders method path host (content.headers ++ addedHeaders content.body.length) ++
          (linesBehindFront method path host
            (content.headers ++ addedHeaders content.body.length)).map readHeader) := by
  have plainLines := plain_added plain content.body.length
  have block : requestBlock method path host content = requestFront method path host ++
      crlfLines ((content.headers ++ addedHeaders content.body.length).map headerLine) ++ crlf :=
    rfl
  rw [block]
  generalize linesEq : content.headers ++ addedHeaders content.body.length = lines
    at plainLines ⊢
  obtain ⟨next, later, rfl⟩ : ∃ next later, lines = next :: later := by
    apply List.exists_cons_of_ne_nil
    rw [← linesEq]
    simp [addedHeaders]
  have stream : requestFront method path host ++ crlfLines ((next :: later).map headerLine) ++
        crlf ++ content.body =
      crlfLines (frontLines method path host ++
        (frontRest method path host ++ headerLine next) :: later.map headerLine) ++ crlf ++
          content.body := by
    rw [requestFront_eq]
    simp only [crlfLines, List.map_cons, endLines_append, endLines_cons, List.append_assoc,
      List.cons_append]
  have oneLine : ∀ line ∈ frontLines method path host ++
      (frontRest method path host ++ headerLine next) :: later.map headerLine, OneLine line := by
    intro line member
    rcases List.mem_append.mp member with inFront | inRest
    · exact oneLine_front.1 line inFront
    · rcases List.mem_cons.mp inRest with rfl | behind
      · exact oneLine_runOn (plainLines next List.mem_cons_self)
      · obtain ⟨pair, listed, rfl⟩ := List.mem_map.mp behind
        exact unbroken_of_notMem (plainLines pair (List.mem_cons_of_mem next listed)).noEnd
  have noBlank : ∀ line ∈ (frontRest method path host ++ headerLine next) :: later.map headerLine,
      line ≠ [] := by
    intro line member
    rcases List.mem_cons.mp member with rfl | behind
    · exact List.append_ne_nil_of_right_ne_nil _ (headerLine_ne_nil next)
    · obtain ⟨pair, -, rfl⟩ := List.mem_map.mp behind
      exact headerLine_ne_nil pair
  obtain ⟨first, behind, start, nonempty⟩ : ∃ first behind, frontLines method path host ++
      (frontRest method path host ++ headerLine next) :: later.map headerLine =
        first :: behind ∧ first ≠ [] := by
    cases front : frontLines method path host with
    | nil => exact ⟨_, _, rfl, noBlank _ List.mem_cons_self⟩
    | cons first lines => exact ⟨_, _, rfl, frontLines_first front⟩
  rw [stream, start, wireHeaders_lines nonempty (start ▸ oneLine), ← start,
    takeWhile_frontLines noBlank]
  split
  · rfl
  · rw [filterMap_openFront plainLines]

section Names

variable {brought stored : List (CString × CString)} {bodySize : Nat}

/-- Brought headers are told apart from stored ones when no name is shared. -/
theorem distinct_brought_iff (distinct : OrderedMap.Distinct foldCase stored) :
    OrderedMap.Distinct foldCase (brought ++ stored) ↔
      OrderedMap.Distinct foldCase brought ∧ ∀ pair ∈ brought, ¬ HasHeader pair.1 stored := by
  rw [OrderedMap.distinct_append_iff, and_iff_right distinct]
  refine and_congr_right fun _ => forall₂_congr fun pair _ => ?_
  unfold HasHeader
  constructor
  · rintro apart ⟨other, member, same⟩
    exact apart other member same.symm
  · intro fresh other member same
    exact fresh ⟨other, member, same.symm⟩

theorem noneAdded_iff {headers : List (CString × CString)} :
    NoneAdded headers ↔
      ¬ HasHeader contentLengthName headers ∧ ¬ HasHeader connectionName headers := by
  unfold NoneAdded HasHeader
  constructor
  · intro none
    exact ⟨fun ⟨pair, member, same⟩ => (none pair member).1 same,
      fun ⟨pair, member, same⟩ => (none pair member).2 same⟩
  · rintro ⟨noLength, noConnection⟩ pair member
    exact ⟨fun same => noLength ⟨pair, member, same⟩,
      fun same => noConnection ⟨pair, member, same⟩⟩

/-- Names do not depend on what the values are read as. -/
theorem distinct_brought_readHeader_iff {headers : List (CString × CString)} :
    OrderedMap.Distinct foldCase (brought ++ headers.map readHeader) ↔
      OrderedMap.Distinct foldCase (brought ++ headers) := by
  unfold OrderedMap.Distinct
  rw [List.map_append, List.map_append, List.map_map]
  exact Iff.rfl

theorem hasHeader_brought_iff {name : CString} {headers : List (CString × CString)} :
    HasHeader name (brought ++ headers.map readHeader) ↔ HasHeader name (brought ++ headers) := by
  rw [hasHeader_append_iff, hasHeader_append_iff, hasHeader_readHeader_iff]

/-- Behind a front that spoils no added line. -/
theorem uniqueHeaders_brought_iff (distinct : OrderedMap.Distinct foldCase stored) :
    UniqueHeaders bodySize (brought ++ (stored ++ addedHeaders bodySize).map readHeader) ↔
      OrderedMap.Distinct foldCase brought ∧ (∀ pair ∈ brought, ¬ HasHeader pair.1 stored) ∧
        NoneAdded (brought ++ stored) := by
  have names : OrderedMap.Distinct foldCase
        (brought ++ (stored ++ addedHeaders bodySize).map readHeader) ↔
      OrderedMap.Distinct foldCase brought ∧ (∀ pair ∈ brought, ¬ HasHeader pair.1 stored) ∧
        NoneAdded (brought ++ stored) := by
    rw [distinct_brought_readHeader_iff, ← List.append_assoc, ← and_assoc, ← distinct_brought_iff distinct]
    constructor
    · intro told
      have here := told.sublist (List.sublist_append_left _ _)
      exact ⟨here, (distinct_added_iff here).mp told⟩
    · rintro ⟨here, none⟩
      exact (distinct_added_iff here).mpr none
  rw [← names]
  constructor
  · exact UniqueHeaders.distinct
  · intro told
    obtain ⟨pair, listed, announced⟩ :
        ∃ pair ∈ (stored ++ addedHeaders bodySize).map readHeader,
          foldCase pair.1 = foldCase contentLengthName ∧ atol pair.2.bytes = bodySize :=
      length_readHeader_added
    exact ⟨told, pair, List.mem_append_right _ listed, announced⟩

/-- Behind a front that the added Content-Length runs into. -/
theorem uniqueHeaders_spoiled_iff :
    UniqueHeaders bodySize (brought ++ (addedHeaders bodySize).tail.map readHeader) ↔
      OrderedMap.Distinct foldCase brought ∧ ¬ HasHeader connectionName brought ∧
        ∃ pair ∈ brought, foldCase pair.1 = foldCase contentLengthName ∧
          atol pair.2.bytes = bodySize := by
  have one : OrderedMap.Distinct foldCase (addedHeaders bodySize).tail :=
    OrderedMap.distinct_cons.mpr ⟨List.not_mem_nil, OrderedMap.distinct_nil⟩
  have names : OrderedMap.Distinct foldCase
        (brought ++ (addedHeaders bodySize).tail.map readHeader) ↔
      OrderedMap.Distinct foldCase brought ∧ ¬ HasHeader connectionName brought := by
    rw [distinct_brought_readHeader_iff, distinct_brought_iff one]
    refine and_congr_right fun _ => ?_
    change (∀ pair ∈ brought, ¬ HasHeader pair.1 [(connectionName, literalString "close")]) ↔ _
    unfold HasHeader
    simp only [List.mem_singleton, exists_eq_left, not_exists, not_and, eq_comm]
  constructor
  · rintro ⟨told, pair, listed, named, size⟩
    obtain ⟨distinct, noConnection⟩ := names.mp told
    refine ⟨distinct, noConnection, pair, ?_, named, size⟩
    rcases List.mem_append.mp listed with inFront | inAdded
    · exact inFront
    · change pair ∈ [readHeader (connectionName, literalString "close")] at inAdded
      rw [List.mem_singleton] at inAdded
      rw [inAdded] at named
      exact absurd named foldCase_connectionName_ne
  · rintro ⟨distinct, noConnection, pair, listed, announced⟩
    exact ⟨names.mpr ⟨distinct, noConnection⟩, pair, List.mem_append_left _ listed, announced⟩

end Names

/-- The headers of a request are told apart on the wire exactly when its lines
are, whatever the path and the host are. -/
theorem requestUnique_iff {content : MessageContent}
    (distinct : OrderedMap.Distinct foldCase content.headers)
    (plain : ∀ pair ∈ content.headers, PlainHeader pair) :
    RequestUnique content.body.length
        (some (requestBlock method path host content ++ content.body)) ↔
      DistinctLines method path host content := by
  have kept : (linesBehindFront method path host content.headers).Sublist content.headers := by
    unfold linesBehindFront
    split
    · exact List.Sublist.refl _
    · exact List.tail_sublist _
  rw [RequestUnique, Option.bind_some, wireHeaders_request plain]
  simp only [Option.some.injEq, exists_eq_left']
  by_cases blank : [] ∈ frontLines method path host
  · rw [if_pos blank]
    exact ⟨fun unique => ⟨fun _ => unique, absurd blank⟩, fun lines => lines.1 blank⟩
  · have opened : DistinctLines method path host content ↔ OpenFront method path host content
        (frontHeaders method path host (content.headers ++ addedHeaders content.body.length))
        (linesBehindFront method path host content.headers) :=
      ⟨fun lines => lines.2 blank, fun front => ⟨fun inside => absurd inside blank, fun _ => front⟩⟩
    rw [if_neg blank, opened, hasHeader_brought_iff]
    generalize frontHeaders method path host
      (content.headers ++ addedHeaders content.body.length) = brought
    by_cases lengthLine : frontRest method path host = [] ∨ content.headers ≠ []
    · have behind : linesBehindFront method path host
            (content.headers ++ addedHeaders content.body.length) =
          linesBehindFront method path host content.headers ++
            addedHeaders content.body.length := by
        unfold linesBehindFront
        by_cases ended : frontRest method path host = []
        · rw [if_pos ended, if_pos ended]
        · rw [if_neg ended, if_neg ended,
            List.tail_append_of_ne_nil (lengthLine.resolve_left ended)]
      rw [behind, uniqueHeaders_brought_iff (distinct.sublist kept), noneAdded_iff,
        ← List.append_assoc, @hasHeader_append_iff _ _ (addedHeaders content.body.length),
        or_iff_left not_hasHeader_host_added]
      constructor
      · rintro ⟨⟨distinct, apart, noLength, noConnection⟩, oneHost⟩
        exact ⟨distinct, apart, noConnection, by rwa [if_pos lengthLine], oneHost⟩
      · rintro ⟨distinct, apart, noConnection, oneLength, oneHost⟩
        rw [if_pos lengthLine] at oneLength
        exact ⟨⟨distinct, apart, oneLength, noConnection⟩, oneHost⟩
    · obtain ⟨cut, none⟩ := not_or.mp lengthLine
      rw [ne_eq, not_not] at none
      have behind : linesBehindFront method path host content.headers = [] := by
        rw [none, linesBehindFront, if_neg cut, List.tail_nil]
      have spoiled : linesBehindFront method path host
          (content.headers ++ addedHeaders content.body.length) =
            (addedHeaders content.body.length).tail := by
        rw [none, linesBehindFront, if_neg cut, List.nil_append]
      have noHost : ¬ HasHeader hostName (addedHeaders content.body.length).tail :=
        fun ⟨pair, listed, same⟩ =>
          not_hasHeader_host_added ⟨pair, List.mem_of_mem_tail listed, same⟩
      rw [behind, spoiled, uniqueHeaders_spoiled_iff, hasHeader_append_iff, or_iff_left noHost]
      constructor
      · rintro ⟨⟨distinct, noConnection, length⟩, oneHost⟩
        refine ⟨distinct, fun pair _ ⟨_, member, _⟩ => List.not_mem_nil member, ?_, ?_, ?_⟩
        · rwa [List.append_nil]
        · rwa [if_neg lengthLine]
        · rwa [List.append_nil]
      · rintro ⟨distinct, -, noConnection, oneLength, oneHost⟩
        rw [if_neg lengthLine] at oneLength
        rw [List.append_nil] at noConnection oneHost
        exact ⟨⟨distinct, noConnection, oneLength⟩, oneHost⟩

/-- When the path and the host are one line each, the lines of a request are told
apart by the names of the stored headers and by what fits the line buffer. -/
theorem distinctLines_iff_plain (pathEnd : ascii '\n' ∉ path.bytes)
    (hostEnd : ascii '\n' ∉ host.bytes) {content : MessageContent}
    (distinct : OrderedMap.Distinct foldCase content.headers)
    (plain : ∀ pair ∈ content.headers, PlainHeader pair) :
    DistinctLines method path host content ↔ PlainLines method path host content.headers :=
  (requestUnique_iff distinct plain).symm.trans
    (requestUnique_iff_plain pathEnd hostEnd distinct plain)

end Fronts

section Messages

variable {grants : Schedule} {world : World} (ample : Ample grants) {transport : Transport}
  (delivers : transport.Delivers) {calls : List MessageCall}
  (plain : ∀ pair ∈ (MessageContent.ofCalls calls).headers, PlainHeader pair)
  (object : (MessageContent.ofCalls calls).body.length ≤ objectSizeMax)

include ample delivers plain object

/-- The headers of a response are told apart on the wire exactly when none has
the name of an added one. -/
theorem sentResponse_uniqueHeaders_iff {status : Int} (int : IsInt status) :
    Returns (sentResponse transport status calls) grants world (fun sent _ =>
        ResponseUnique (MessageContent.ofCalls calls).body.length sent) ↔
      NoneAdded (MessageContent.ofCalls calls).headers := by
  obtain ⟨sent, after, run, rfl⟩ :
      Returns (sentResponse transport status calls) grants world (fun sent _ =>
        sent = some (responseMessage status (.ofCalls calls)).stream) :=
    sentResponse_spec ample delivers int object
  rw [returns_iff_of_run run, ResponseUnique, Option.bind_some,
    wireHeaders_stream (statusLine_ne_nil status) (statusLine_noEnd status)
      (plain_added plain _)]
  simp only [Option.some.injEq, exists_eq_left']
  exact uniqueHeaders_added_iff (MessageContent.distinct_ofCalls calls)

/-- The headers of a request are told apart on the wire exactly when its lines
are. -/
theorem sentRequest_uniqueHeaders_iff (method : TenHttpMethod) (path host : CString) :
    Returns (sentRequest transport method path host calls) grants world (fun sent _ =>
        RequestUnique (MessageContent.ofCalls calls).body.length sent) ↔
      DistinctLines method path host (.ofCalls calls) := by
  have sends : Returns (sentRequest transport method path host calls) grants world
      (fun sent _ => sent = some (requestBlock method path host (.ofCalls calls) ++
        (MessageContent.ofCalls calls).body)) := by
    simp only [sentRequest, returns_bind]
    apply (buildRequest_spec ample method path calls).mono
    rintro _ _ ⟨request, rfl, rfl, located, holds⟩
    simp only [returns_bind]
    apply (tenHttpSendRequest_spec ample delivers (.connected []) located holds object).mono
    rintro ⟨code, sock⟩ _ ⟨-, outgoing⟩
    rw [returns_pure, outgoing]
    rfl
  obtain ⟨sent, after, run, rfl⟩ := sends
  rw [returns_iff_of_run run]
  exact requestUnique_iff (MessageContent.distinct_ofCalls calls) plain

/-- Header names are told apart on the wire exactly when the stored ones differ
from those that are added and from those that the path and the host bring, and no
added line is lost to the line buffer. -/
theorem tenHttp_uniqueHeaders_iff {status : Int} (int : IsInt status) (method : TenHttpMethod)
    (path host : CString) :
    (Returns (sentResponse transport status calls) grants world (fun sent _ =>
        ResponseUnique (MessageContent.ofCalls calls).body.length sent) ↔
      NoneAdded (MessageContent.ofCalls calls).headers) ∧
    (Returns (sentRequest transport method path host calls) grants world (fun sent _ =>
        RequestUnique (MessageContent.ofCalls calls).body.length sent) ↔
      DistinctLines method path host (.ofCalls calls)) :=
  ⟨sentResponse_uniqueHeaders_iff ample delivers plain object int,
    sentRequest_uniqueHeaders_iff ample delivers plain object method path host⟩

end Messages

/-- A header and a body. -/
def plainCalls : List MessageCall :=
  [.setHeader (literalString "Accept") (literalString "text/plain"), .setBody (literal "hello")]

theorem tenHttp_uniqueHeaders_iff_plain :
    Returns (sentResponse bytewise 200 plainCalls) (fun _ => true) default (fun sent _ =>
        ResponseUnique 5 sent) ∧
    Returns (sentRequest bytewise .get (literalString "/") (literalString "localhost") plainCalls)
        (fun _ => true) default (fun sent _ => RequestUnique 5 sent) := by
  have plain : ∀ pair ∈ (MessageContent.ofCalls plainCalls).headers, PlainHeader pair := by decide
  have both : (Returns (sentResponse bytewise 200 plainCalls) (fun _ => true) default
        (fun sent _ => ResponseUnique (MessageContent.ofCalls plainCalls).body.length sent) ↔
      NoneAdded (MessageContent.ofCalls plainCalls).headers) ∧
    (Returns (sentRequest bytewise .get (literalString "/") (literalString "localhost") plainCalls)
        (fun _ => true) default
        (fun sent _ => RequestUnique (MessageContent.ofCalls plainCalls).body.length sent) ↔
      DistinctLines .get (literalString "/") (literalString "localhost") (.ofCalls plainCalls)) :=
    tenHttp_uniqueHeaders_iff ample_always bytewise_delivers plain (by decide)
      ⟨by decide, by decide⟩ .get (literalString "/") (literalString "localhost")
  have lines : DistinctLines .get (literalString "/") (literalString "localhost")
      (.ofCalls plainCalls) :=
    (distinctLines_iff_plain (by decide) (by decide) (MessageContent.distinct_ofCalls plainCalls)
      plain).mpr (by decide)
  exact ⟨both.1.mpr (by decide), both.2.mpr lines⟩

/-- A request to a virtual host. -/
def virtualHostCalls : List MessageCall :=
  [.setHeader (literalString "Host") (literalString "example")]

/-- The header that the caller has set, and the Host line. -/
theorem sentRequest_not_unique_virtualHost :
    ¬ Returns (sentRequest bytewise .get (literalString "/") (literalString "localhost")
      virtualHostCalls) (fun _ => true) default (fun sent _ => RequestUnique 0 sent) := by
  have plain : ∀ pair ∈ (MessageContent.ofCalls virtualHostCalls).headers, PlainHeader pair := by
    decide
  intro unique
  have lines : DistinctLines .get (literalString "/") (literalString "localhost")
      (.ofCalls virtualHostCalls) :=
    (sentRequest_uniqueHeaders_iff ample_always bytewise_delivers plain (by decide) .get
      (literalString "/") (literalString "localhost")).mp unique
  have names := (distinctLines_iff_plain (by decide) (by decide)
    (MessageContent.distinct_ofCalls virtualHostCalls) plain).mp lines
  have fits : RequestLineFits .get (literalString "/") := by decide
  exact names.oneHost.mp fits
    ⟨(literalString "Host", literalString "example"), by decide, by decide⟩

end Dotten
