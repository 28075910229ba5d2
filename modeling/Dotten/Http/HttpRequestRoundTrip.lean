/-
Module: Dotten.Http.HttpRequestRoundTrip
Layer: Http
Purpose: Which requests arrive as they were sent.  The request line and the
  Host line go through a buffer of 256 bytes, and a line that does not fit
  loses its end and runs into the next line.
Imports: Dotten.Http.HttpMessageCalls
Main exports: exchangeRequest, RequestArrives, FitsLineBuffer,
  tenHttpSendRequest_spec, tenHttpRequest_arrives_iff
-/
import Dotten.Http.HttpMessageCalls

namespace Dotten

open Dotten.Library

/-- A call on a request. -/
def runRequestCall (request : TenHttpRequest) : MessageCall → Ten TenHttpRequest
  | .setHeader name value => do
      let (_, request) ← tenHttpRequestSetHeader request (some name) (some value)
      return request
  | .setBody data => do
      let (_, request) ← tenHttpRequestSetBody request (some data) data.length
      return request

/-- A sequence of calls on a request. -/
def runRequestCalls (request : TenHttpRequest) : List MessageCall → Ten TenHttpRequest
  | [] => pure request
  | call :: calls => do
      let request ← runRequestCall request call
      runRequestCalls request calls

/-- A new request, and the given calls on it. -/
def buildRequest (method : TenHttpMethod) (path : CString) (calls : List MessageCall) :
    Ten (Option TenHttpRequest) := do
  let some request ← tenHttpRequestCreate method (some path)
    | return none
  let request ← runRequestCalls request calls
  return some request

/-- The client sends a request to the host, and the server receives the bytes
that were sent. -/
def exchangeRequest (client server : Transport) (method : TenHttpMethod) (path host : CString)
    (calls : List MessageCall) : Ten (Option TenHttpRequest) := do
  let some request ← buildRequest method path calls
    | return none
  let (_, sock) ← tenHttpSendRequest client (.connected []) request host
  let (_, received) ← tenHttpReceiveRequest server (.connected sock.outgoing)
  return received

/-- `"Host"`. -/
def hostName : CString := literalString "Host"

/-- The reply is a request with the given method and path, the body of a
content, every one of its headers, and the host. -/
def RequestArrives (method : TenHttpMethod) (path host : CString) (content : MessageContent)
    (reply : Option TenHttpRequest) : Prop :=
  ∃ received, reply = some received ∧ received.method = method ∧ received.path = some path ∧
    bodyBytes received.body = content.body ∧
    (∀ pair ∈ content.headers, tenHttpHeadersGet received.headers pair.1 = some pair.2) ∧
    tenHttpHeadersGet received.headers hostName = some host

/-- A request line, without its end. -/
def requestLine (method : TenHttpMethod) (path : CString) : Bytes :=
  tenHttpMethodName method ++ literal " " ++ path.bytes ++ literal " HTTP/1.1"

/-- A line as it leaves the line buffer. -/
def bufferedLine (line : Bytes) : Bytes := snprintf tenHttpLineBuf (line ++ crlf)

/-- The header block of a request as it is sent. -/
def requestBlock (method : TenHttpMethod) (path host : CString) (content : MessageContent) :
    Bytes :=
  bufferedLine (requestLine method path) ++ bufferedLine (headerLine (hostName, host)) ++
    crlfLines ((content.headers ++ addedHeaders content.body.length).map headerLine) ++ crlf

/-- A path without spaces and LFs, a host without LFs that does not start with
a space, and a safe content without a Host header. -/
structure SafeRequest (path host : CString) (content : MessageContent) : Prop
    extends SafeContent content where
  pathSpace : ascii ' ' ∉ path.bytes
  pathEnd : ascii '\n' ∉ path.bytes
  hostEnd : ascii '\n' ∉ host.bytes
  hostStart : host.bytes.head? ≠ some (ascii ' ')
  noHost : ∀ pair ∈ content.headers, foldCase pair.1 ≠ foldCase hostName

/-- The request line fits the line buffer, and so does the Host line.  A Host
line that does not fit does no harm where the line that it runs into, which can
only be the first added one, spells the lost end of the host, and is not missed
because there is no body. -/
structure FitsLineBuffer (method : TenHttpMethod) (path host : CString)
    (content : MessageContent) : Prop where
  request : (tenHttpMethodName method).length + path.length + 12 < tenHttpLineBuf
  host : host.length + 8 < tenHttpLineBuf ∨
    (content.headers = [] ∧ content.body = [] ∧
      host.bytes.drop 249 = literal "Content-Length: 0")

section Lines

theorem bufferedLine_of_fits {line : Bytes} (fits : line.length + 2 < tenHttpLineBuf) :
    bufferedLine line = line ++ crlf := by
  apply snprintf_of_fits
  rw [List.length_append]
  exact fits

/-- A line that does not fit loses its end. -/
theorem noEnd_bufferedLine {line : Bytes} (cut : tenHttpLineBuf ≤ line.length + 2)
    (noEnd : ascii '\n' ∉ line) : ascii '\n' ∉ bufferedLine line := by
  unfold tenHttpLineBuf at cut
  have short : bufferedLine line = (line ++ [ascii '\r']).take 255 := by
    rw [bufferedLine, snprintf, crlf]
    change (line ++ ([ascii '\r'] ++ [ascii '\n'])).take 255 = _
    rw [← List.append_assoc, List.take_append_of_le_length]
    rw [List.length_append, List.length_singleton]
    omega
  rw [short]
  intro member
  rcases List.mem_append.mp (List.mem_of_mem_take member) with inLine | last
  · exact noEnd inLine
  · exact absurd last (by decide)

theorem noNul_bufferedLine {line : Bytes} (noNul : (0 : Byte) ∉ line) :
    (0 : Byte) ∉ bufferedLine line := by
  intro member
  rcases List.mem_append.mp (List.mem_of_mem_take member) with inLine | last
  · exact noNul inLine
  · exact absurd last (by decide)

theorem length_methodName_le (method : TenHttpMethod) :
    (tenHttpMethodName method).length ≤ 7 := by
  cases method <;> decide

theorem length_requestLine (method : TenHttpMethod) (path : CString) :
    (requestLine method path).length + 2 =
      (tenHttpMethodName method).length + path.length + 12 := by
  have space : (literal " ").length = 1 := by decide
  have version : (literal " HTTP/1.1").length = 9 := by decide
  simp only [requestLine, List.length_append, space, version, CString.length]
  omega

theorem length_hostLine (host : CString) :
    (headerLine (hostName, host)).length + 2 = host.length + 8 := by
  have name : hostName.bytes.length = 4 := by decide
  have separator : (literal ": ").length = 2 := by decide
  simp only [headerLine, List.length_append, name, separator, CString.length]
  omega

end Lines

section FirstLine

/-- What stands behind the method and the space in the request line. -/
theorem requestLine_eq (method : TenHttpMethod) (path : CString) :
    requestLine method path =
      tenHttpMethodName method ++ ascii ' ' :: (path.bytes ++ literal " HTTP/1.1") := by
  have space : literal " " = [ascii ' '] := by decide
  rw [requestLine, space]
  simp only [List.append_assoc, List.cons_append, List.nil_append]

/-- The path is the second word of the request line. -/
theorem path_of_requestLine {path : CString} (noSpace : ascii ' ' ∉ path.bytes) :
    CString.ofMemory ((path.bytes ++ literal " HTTP/1.1").takeWhile (· ≠ ascii ' ')) = path := by
  have version : literal " HTTP/1.1" = ascii ' ' :: literal "HTTP/1.1" := by decide
  have stops : ∀ b ∈ path.bytes, decide (b ≠ ascii ' ') = true := by
    intro b member
    have apart : b ≠ ascii ' ' := fun same => noSpace (same ▸ member)
    simpa using apart
  rw [version, List.takeWhile_append_of_pos stops, List.takeWhile_cons_of_neg (by simp),
    List.append_nil, CString.ofMemory_bytes]

/-- However little of it the line buffer leaves, the request line starts with
the method and a space. -/
theorem exists_bufferedLine_requestLine (method : TenHttpMethod) (path : CString) :
    ∃ rest, bufferedLine (requestLine method path) =
      tenHttpMethodName method ++ ascii ' ' :: rest := by
  have short := length_methodName_le method
  have room : tenHttpLineBuf - 1 - (tenHttpMethodName method).length =
      (254 - (tenHttpMethodName method).length) + 1 := by
    unfold tenHttpLineBuf
    omega
  refine ⟨(path.bytes ++ literal " HTTP/1.1" ++ crlf).take
    (254 - (tenHttpMethodName method).length), ?_⟩
  rw [bufferedLine, snprintf, requestLine_eq, List.append_assoc, List.cons_append, List.take_append,
    room, List.take_succ_cons, List.take_of_length_le (by unfold tenHttpLineBuf; omega)]

theorem noEnd_requestLine {method : TenHttpMethod} {path : CString}
    (noEnd : ascii '\n' ∉ path.bytes) : ascii '\n' ∉ requestLine method path := by
  have noEndMethod : ascii '\n' ∉ tenHttpMethodName method := by
    cases method <;> decide
  simp only [requestLine, List.mem_append, not_or]
  exact ⟨⟨⟨noEndMethod, by decide⟩, noEnd⟩, by decide⟩

theorem noNul_requestLine (method : TenHttpMethod) (path : CString) :
    (0 : Byte) ∉ requestLine method path := by
  have noNulMethod : (0 : Byte) ∉ tenHttpMethodName method := by
    cases method <;> decide
  simp only [requestLine, List.mem_append, not_or]
  exact ⟨⟨⟨noNulMethod, by decide⟩, path.noNul⟩, by decide⟩

end FirstLine

section HostLine

/-- What a Host line that does not fit becomes together with the line that it
runs into. -/
def mergedHost (host : CString) (next : CString × CString) : CString :=
  CString.ofMemory ((host.bytes ++ crlf).take 249 ++ headerLine next)

variable {host : CString} {next : CString × CString}

theorem mergedHost_bytes :
    (mergedHost host next).bytes = (host.bytes ++ crlf).take 249 ++ headerLine next := by
  apply CString.ofMemory_bytes_of_noNul
  intro member
  rcases List.mem_append.mp member with inHost | inNext
  · rcases List.mem_append.mp (List.mem_of_mem_take inHost) with inside | last
    · exact host.noNul inside
    · exact absurd last (by decide)
  · exact Received.noNul_headerLine next inNext

theorem bufferedLine_hostLine (host : CString) :
    bufferedLine (headerLine (hostName, host)) =
      hostName.bytes ++ literal ": " ++ (host.bytes ++ crlf).take 249 := by
  have length : (hostName.bytes ++ literal ": ").length = 6 := by decide
  rw [bufferedLine, snprintf, headerLine, List.append_assoc, List.take_append, length,
    List.take_of_length_le]
  · rfl
  · rw [length]
    decide

/-- The merged line is a header line, too. -/
theorem bufferedLine_hostLine_append (host : CString) (next : CString × CString) :
    bufferedLine (headerLine (hostName, host)) ++ headerLine next =
      headerLine (hostName, mergedHost host next) := by
  rw [bufferedLine_hostLine, headerLine, headerLine, mergedHost_bytes, headerLine]
  simp only [List.append_assoc]

theorem noEnd_mergedHost (cut : tenHttpLineBuf ≤ host.length + 8)
    (hostEnd : ascii '\n' ∉ host.bytes) (nextEnd : ascii '\n' ∉ headerLine next) :
    ascii '\n' ∉ (mergedHost host next).bytes := by
  have noEndLine : ascii '\n' ∉ headerLine (hostName, host) := by
    simp only [headerLine, List.mem_append, not_or]
    exact ⟨⟨by decide, by decide⟩, hostEnd⟩
  have noEndBuffered := noEnd_bufferedLine (by
    rw [length_hostLine]
    exact cut) noEndLine
  rw [bufferedLine_hostLine] at noEndBuffered
  rw [mergedHost_bytes]
  intro member
  rcases List.mem_append.mp member with inHost | inNext
  · exact noEndBuffered (List.mem_append_right _ inHost)
  · exact nextEnd inNext

theorem readsBack_mergedHost (cut : tenHttpLineBuf ≤ host.length + 8)
    (hostEnd : ascii '\n' ∉ host.bytes) (hostStart : host.bytes.head? ≠ some (ascii ' '))
    (readsBack : ReadsBack next) : ReadsBack (hostName, mergedHost host next) := by
  constructor
  · change ascii ':' ∉ hostName.bytes
    decide
  · change ascii '\n' ∉ hostName.bytes
    decide
  · exact noEnd_mergedHost cut hostEnd readsBack.noEnd
  · rw [mergedHost_bytes]
    unfold tenHttpLineBuf CString.length at cut
    cases bytes : host.bytes with
    | nil =>
        rw [bytes] at cut
        simp at cut
    | cons first rest =>
        rw [bytes] at hostStart
        exact hostStart

/-- The merged host is the host only where the line behind it spells the lost
end of the host. -/
theorem mergedHost_eq_iff (cut : tenHttpLineBuf ≤ host.length + 8) :
    mergedHost host next = host ↔ host.bytes.drop 249 = headerLine next := by
  unfold tenHttpLineBuf CString.length at cut
  have length : ((host.bytes ++ crlf).take 249).length = 249 := by
    rw [List.length_take, List.length_append]
    change min 249 (_ + 2) = 249
    omega
  constructor
  · intro same
    have bytes := congrArg CString.bytes same
    rw [mergedHost_bytes] at bytes
    rw [← bytes, List.drop_append, length, Nat.sub_self, List.drop_zero,
      List.drop_eq_nil_of_le (Nat.le_of_eq length), List.nil_append]
  · intro spelled
    have nonempty := List.length_pos_of_ne_nil (headerLine_ne_nil next)
    rw [← spelled, List.length_drop] at nonempty
    apply CString.ext
    rw [mergedHost_bytes, ← spelled, List.take_append_of_le_length (by omega),
      List.take_append_drop]

end HostLine

section Specifications

variable {grants : Schedule} {world : World} (ample : Ample grants)

include ample

theorem runRequestCalls_spec (calls : List MessageCall) :
    ∀ {request : TenHttpRequest} {content : MessageContent} {world : World},
      Holds request.headers request.body content →
      Returns (runRequestCalls request calls) grants world (fun after _ =>
        after.method = request.method ∧ after.path = request.path ∧
          Holds after.headers after.body (calls.foldl MessageContent.apply content)) := by
  induction calls with
  | nil =>
      intro request content world holds
      simp only [runRequestCalls, returns_pure]
      exact ⟨trivial, trivial, holds⟩
  | cons call rest inductionHypothesis =>
      intro request content world holds
      simp only [runRequestCalls, returns_bind]
      cases call with
      | setHeader name value =>
          simp only [runRequestCall, tenHttpRequestSetHeader, returns_bind, returns_pure]
          apply (tenHttpSetHeader_spec ample holds name value).mono
          rintro ⟨code, headers⟩ _ holdsAfter
          exact inductionHypothesis holdsAfter
      | setBody data =>
          simp only [runRequestCall, tenHttpRequestSetBody, returns_bind, returns_pure]
          apply (tenHttpSetBody_spec ample holds data).mono
          rintro ⟨code, body⟩ _ holdsAfter
          exact inductionHypothesis holdsAfter

/-- A request holds what the calls on it say. -/
theorem buildRequest_spec (method : TenHttpMethod) (path : CString) (calls : List MessageCall) :
    Returns (buildRequest method path calls) grants world (fun reply _ =>
      ∃ request, reply = some request ∧ request.method = method ∧ request.path = some path ∧
        Holds request.headers request.body (.ofCalls calls)) := by
  simp only [buildRequest, tenHttpRequestCreate, returns_bind, returns_tenMalloc]
  constructor
  · intro granted
    apply (tenHttpCopy_spec path).mono
    rintro copy _ (⟨rfl, shortage⟩ | rfl)
    · exact absurd ample shortage
    · simp only [returns_bind, returns_tenSetError, returns_pure]
      apply (runRequestCalls_spec ample calls holds_empty).mono
      rintro request _ ⟨sameMethod, samePath, holds⟩
      exact ⟨request, rfl, sameMethod, samePath, holds⟩
  · intro refused
    exact absurd ample (not_ample_of_refused refused)

/-- `ten__http_send_request` sends the header block, as the line buffer leaves
it, and the body. -/
theorem tenHttpSendRequest_spec {transport : Transport} (delivers : transport.Delivers)
    (sock : TenSocket) {request : TenHttpRequest} {path host : CString}
    {content : MessageContent} (located : request.path = some path)
    (holds : Holds request.headers request.body content)
    (object : content.body.length ≤ objectSizeMax) :
    Returns (tenHttpSendRequest transport sock request host) grants world (fun reply _ =>
      reply.1 = .ok ∧ reply.2.outgoing =
        sock.outgoing ++ (requestBlock request.method path host content ++ content.body)) := by
  have hostText : literal "Host: " ++ host.bytes ++ crlf = headerLine (hostName, host) ++ crlf := by
    have name : literal "Host: " = hostName.bytes ++ literal ": " := by decide
    rw [name]
    rfl
  simp only [tenHttpSendRequest, located, returns_bind]
  apply tenBufferCreate_spec.mono
  rintro reply _ (⟨rfl, shortage⟩ | ⟨out, rfl, valid, contents⟩)
  · exact absurd ample shortage
  · simp only [hostText, returns_bind]
    apply (tenHttpPut_spec ample valid _).mono
    rintro first _ ⟨validFirst, contentsFirst⟩
    apply (tenHttpPut_spec ample validFirst _).mono
    rintro second _ ⟨validSecond, contentsSecond⟩
    rw [← holds.bytes] at object
    apply (tenHttpSendMessage_spec ample delivers validSecond request.headers holds.valid
      object).mono
    rintro reply _ ⟨ok, outgoing⟩
    refine ⟨ok, ?_⟩
    rw [outgoing, contentsSecond, contentsFirst, contents, holds.pairs, holds.bytes]
    simp only [requestBlock, bufferedLine, requestLine, List.nil_append, List.append_assoc]

end Specifications

namespace SafeRequest

variable {path host : CString} {content : MessageContent} (safe : SafeRequest path host content)

include safe

theorem noHost_added :
    ∀ pair ∈ content.headers ++ addedHeaders content.body.length,
      foldCase pair.1 ≠ foldCase hostName := by
  intro pair member
  rcases List.mem_append.mp member with given | added
  · exact safe.noHost pair given
  · simp only [addedHeaders, List.mem_cons, List.not_mem_nil, or_false] at added
    rcases added with rfl | rfl
    · change foldCase contentLengthName ≠ foldCase hostName
      decide
    · change foldCase connectionName ≠ foldCase hostName
      decide

theorem distinct_host (distinct : OrderedMap.Distinct foldCase content.headers) (value : CString) :
    OrderedMap.Distinct foldCase
      ((hostName, value) :: (content.headers ++ addedHeaders content.body.length)) := by
  refine OrderedMap.distinct_cons.mpr ⟨?_, safe.distinct_added distinct⟩
  intro member
  obtain ⟨pair, listed, same⟩ := List.mem_map.mp member
  exact safe.noHost_added pair listed same

theorem readsBack_host : ReadsBack (hostName, host) where
  nameColon := by
    change ascii ':' ∉ hostName.bytes
    decide
  nameEnd := by
    change ascii '\n' ∉ hostName.bytes
    decide
  valueEnd := safe.hostEnd
  valueStart := safe.hostStart

end SafeRequest

/-- The message that is read when the Host line runs into the line of the header
`next`. -/
def mergedMessage (method : TenHttpMethod) (path host : CString) (content : MessageContent)
    (next : CString × CString) (later : List (CString × CString)) : Received where
  first := requestLine method path
  members := (hostName, mergedHost host next) :: later
  rest := content.body

/-- The reply is the request that a server reads from a message whose first line
has the given method and path. -/
def ReadAs (message : Received) (method : TenHttpMethod) (path : CString)
    (reply : Option TenHttpRequest) : Prop :=
  ∃ received, reply = some received ∧ received.method = method ∧ received.path = some path ∧
    received.headers.pairs = OrderedMap.ofList foldCase message.members ∧
    bodyBytes received.body = message.rest.take message.announced.toNat

section Exchange

variable {grants : Schedule} {world : World} (ample : Ample grants) {client server : Transport}
  (sends : client.Delivers) (receives : server.Delivers) {method : TenHttpMethod}
  {path host : CString} {calls : List MessageCall} {content : MessageContent}
  (built : MessageContent.ofCalls calls = content) (safe : SafeRequest path host content)
  (small : (requestBlock method path host content).length ≤ tenHttpMaxHeaderSize)

include ample sends receives built safe small

/-- What the server makes of a request whose header block has the given
lines. -/
theorem exchangeRequest_spec {message : Received} {rest : Bytes}
    (block : message.headerBlock = requestBlock method path host content)
    (body : message.rest = content.body)
    (first : message.first = tenHttpMethodName method ++ ascii ' ' :: rest)
    (noEnd : ascii '\n' ∉ message.first) (noNul : (0 : Byte) ∉ message.first)
    (readBack : ∀ pair ∈ message.members, ReadsBack pair) (announced : message.announced ≠ -2) :
    Returns (exchangeRequest client server method path host calls) grants world (fun reply _ =>
      ReadAs message method (CString.ofMemory (rest.takeWhile (· ≠ ascii ' '))) reply) := by
  have readable : message.Readable := {
    nonempty := by
      rw [first]
      simp
    noEnd, noNul, readBack
    small := by
      rw [block]
      exact small }
  simp only [exchangeRequest, returns_bind]
  apply (buildRequest_spec ample method path calls).mono
  rintro _ _ ⟨request, rfl, rfl, located, holds⟩
  rw [built] at holds
  simp only [returns_bind]
  apply (tenHttpSendRequest_spec ample sends (.connected []) located holds safe.object).mono
  rintro ⟨code, sock⟩ _ ⟨-, outgoing⟩
  have stream : sock.outgoing = message.stream := by
    rw [Received.stream, block, body]
    exact outgoing
  have accepts : ∀ {ctx : TenRequestFirstLineCtx} {now : World},
      Returns (tenRequestFirstLine message.first ctx) grants now (fun reply _ => reply = (true,
        { method := request.method
          path := some (CString.ofMemory (rest.takeWhile (· ≠ ascii ' '))) })) := by
    intro ctx now
    rw [first]
    exact tenRequestFirstLine_spec ample request.method rest ctx
  simp only [tenHttpReceiveRequest, returns_pure]
  apply tenHttpReceive_spec ample receives readable (ReadAs message request.method _) stream
  intro left headerBlock bodyPrefix headerLen bodyPrefixLen now split
  apply (tenHttpParseRequest_spec ample receives readable accepts announced split).mono
  rintro _ _ ⟨received, rfl, sameMethod, samePath, pairs, bytes⟩
  exact ⟨received, rfl, sameMethod, samePath, pairs, bytes⟩

omit ample sends receives built safe small in
/-- The headers of a request that was read are those of its lines. -/
theorem ReadAs.get {message : Received} {received : TenHttpRequest}
    (distinct : OrderedMap.Distinct foldCase message.members)
    (pairs : received.headers.pairs = OrderedMap.ofList foldCase message.members)
    (name : CString) :
    tenHttpHeadersGet received.headers name =
      OrderedMap.lookup foldCase name message.members := by
  rw [tenHttpHeadersGet_eq_lookup, pairs, OrderedMap.ofList_of_distinct distinct]

/-- A request whose request line and Host line fit arrives. -/
theorem exchangeRequest_fits
    (fitsRequest : (requestLine method path).length + 2 < tenHttpLineBuf)
    (fitsHost : (headerLine (hostName, host)).length + 2 < tenHttpLineBuf) :
    Returns (exchangeRequest client server method path host calls) grants world (fun reply _ =>
      RequestArrives method path host content reply) := by
  let message : Received := {
    first := requestLine method path
    members := (hostName, host) :: (content.headers ++ addedHeaders content.body.length)
    rest := content.body }
  have distinct : OrderedMap.Distinct foldCase message.members :=
    safe.distinct_host (built ▸ MessageContent.distinct_ofCalls calls) host
  have block : message.headerBlock = requestBlock method path host content := by
    rw [requestBlock, bufferedLine_of_fits fitsRequest, bufferedLine_of_fits fitsHost]
    simp only [message, Received.headerBlock, Received.lines, crlfLines, endLines_cons,
      List.map_cons, List.append_assoc, List.cons_append, List.nil_append]
  have readBack : ∀ pair ∈ message.members, ReadsBack pair := by
    intro pair member
    rcases List.mem_cons.mp member with rfl | later
    · exact safe.readsBack_host
    · exact safe.readsBack_added pair later
  have announced : message.announced = content.body.length := by
    have notLength : foldCase hostName ≠ foldCase contentLengthName := by decide
    rw [Received.announced, List.foldl_cons, announcedLength, if_neg notLength, List.foldl_append,
      announcedLength_addedHeaders]
  apply (exchangeRequest_spec ample sends receives built safe small block rfl
    (requestLine_eq method path) (noEnd_requestLine safe.pathEnd) (noNul_requestLine method path)
    readBack (by omega)).mono
  rintro _ _ ⟨received, rfl, sameMethod, samePath, pairs, bytes⟩
  rw [path_of_requestLine safe.pathSpace] at samePath
  rw [announced, Int.toNat_natCast] at bytes
  refine ⟨received, rfl, sameMethod, samePath, bytes.trans List.take_length, ?_, ?_⟩
  · intro pair given
    rw [ReadAs.get distinct pairs, OrderedMap.lookup_eq_some_iff distinct]
    exact ⟨pair, List.mem_cons_of_mem _ (List.mem_append_left _ given), rfl, rfl⟩
  · rw [ReadAs.get distinct pairs, OrderedMap.lookup_eq_some_iff distinct]
    exact ⟨(hostName, host), List.mem_cons_self, rfl, rfl⟩

/-- A request line that does not fit runs into the line behind it, which is
the Host line, or the Host line and the first header. -/
theorem exchangeRequest_swallowed {opening : Bytes} {members : List (CString × CString)}
    (cutRequest : tenHttpLineBuf ≤ (requestLine method path).length + 2)
    (noEnd : ascii '\n' ∉ opening) (noNul : (0 : Byte) ∉ opening)
    (sublist : members.Sublist (content.headers ++ addedHeaders content.body.length))
    (block : bufferedLine (requestLine method path) ++ opening ++ crlf ++
        crlfLines (members.map headerLine) ++ crlf = requestBlock method path host content) :
    Returns (exchangeRequest client server method path host calls) grants world (fun reply _ =>
      ¬ RequestArrives method path host content reply) := by
  obtain ⟨rest, starts⟩ := exists_bufferedLine_requestLine method path
  let message : Received := {
    first := bufferedLine (requestLine method path) ++ opening
    members
    rest := content.body }
  have distinct : OrderedMap.Distinct foldCase message.members :=
    (safe.distinct_added (built ▸ MessageContent.distinct_ofCalls calls)).sublist sublist
  have lines : message.headerBlock = requestBlock method path host content := by
    rw [← block]
    simp only [message, Received.headerBlock, Received.lines, crlfLines, endLines_cons,
      List.append_assoc, List.cons_append, List.nil_append]
  have first : message.first = tenHttpMethodName method ++ ascii ' ' :: (rest ++ opening) := by
    change bufferedLine (requestLine method path) ++ opening = _
    rw [starts, List.append_assoc, List.cons_append]
  have noEndFirst : ascii '\n' ∉ message.first := by
    intro member
    rcases List.mem_append.mp member with inLine | inOpening
    · exact noEnd_bufferedLine cutRequest (noEnd_requestLine safe.pathEnd) inLine
    · exact noEnd inOpening
  have noNulFirst : (0 : Byte) ∉ message.first := by
    intro member
    rcases List.mem_append.mp member with inLine | inOpening
    · exact noNul_bufferedLine (noNul_requestLine method path) inLine
    · exact noNul inOpening
  have announced : message.announced ≠ -2 :=
    announcedLength_ne_failure (fun pair listed =>
      safe.lengths_added pair (sublist.subset listed)) (by decide)
  apply (exchangeRequest_spec ample sends receives built safe small lines rfl first noEndFirst
    noNulFirst (fun pair listed => safe.readsBack_added pair (sublist.subset listed))
    announced).mono
  rintro _ _ ⟨received, rfl, -, -, pairs, -⟩ ⟨_, ⟨⟩, -, -, -, -, named⟩
  have absent : OrderedMap.lookup foldCase hostName message.members = none :=
    OrderedMap.lookup_eq_none (fun pair listed =>
      safe.noHost_added pair (sublist.subset listed))
  rw [ReadAs.get distinct pairs, absent] at named
  cases named

/-- A request whose request line does not fit loses its Host header. -/
theorem exchangeRequest_cut
    (cutRequest : tenHttpLineBuf ≤ (requestLine method path).length + 2) :
    Returns (exchangeRequest client server method path host calls) grants world (fun reply _ =>
      ¬ RequestArrives method path host content reply) := by
  have noEndHost := safe.readsBack_host.noEnd
  have noNulHost := Received.noNul_headerLine (hostName, host)
  by_cases fitsHost : (headerLine (hostName, host)).length + 2 < tenHttpLineBuf
  · apply exchangeRequest_swallowed ample sends receives built safe small cutRequest noEndHost
      noNulHost (List.Sublist.refl _)
    rw [requestBlock, bufferedLine_of_fits fitsHost]
    simp only [List.append_assoc]
  · have cutHost : tenHttpLineBuf ≤ (headerLine (hostName, host)).length + 2 := by omega
    obtain ⟨next, later, lines⟩ : ∃ next later,
        content.headers ++ addedHeaders content.body.length = next :: later := by
      cases content.headers with
      | nil => exact ⟨_, _, rfl⟩
      | cons first more => exact ⟨_, _, rfl⟩
    have nextReadsBack := safe.readsBack_added next (by
      rw [lines]
      exact List.mem_cons_self)
    have noEnd : ascii '\n' ∉ bufferedLine (headerLine (hostName, host)) ++ headerLine next := by
      rw [List.mem_append, not_or]
      exact ⟨noEnd_bufferedLine cutHost noEndHost, nextReadsBack.noEnd⟩
    have noNul : (0 : Byte) ∉ bufferedLine (headerLine (hostName, host)) ++ headerLine next := by
      rw [List.mem_append, not_or]
      exact ⟨noNul_bufferedLine noNulHost, Received.noNul_headerLine next⟩
    have sublist : later.Sublist (content.headers ++ addedHeaders content.body.length) := by
      rw [lines]
      exact .cons next (List.Sublist.refl later)
    apply exchangeRequest_swallowed ample sends receives built safe small cutRequest noEnd noNul
      sublist
    rw [requestBlock, lines]
    simp only [List.map_cons, crlfLines, endLines_cons, List.append_assoc, List.cons_append,
      List.nil_append]

/-- A Host line that does not fit runs into the line behind it, and becomes the
value of the Host header. -/
theorem exchangeRequest_mergedHost
    (fitsRequest : (requestLine method path).length + 2 < tenHttpLineBuf)
    (cutHost : tenHttpLineBuf ≤ host.length + 8) {next : CString × CString}
    {later : List (CString × CString)}
    (lines : content.headers ++ addedHeaders content.body.length = next :: later) :
    Returns (exchangeRequest client server method path host calls) grants world (fun reply _ =>
      ReadAs (mergedMessage method path host content next later) method path reply) := by
  have nextListed : next ∈ content.headers ++ addedHeaders content.body.length := by
    rw [lines]
    exact List.mem_cons_self
  have laterListed : ∀ pair ∈ later,
      pair ∈ content.headers ++ addedHeaders content.body.length := by
    intro pair listed
    rw [lines]
    exact List.mem_cons_of_mem next listed
  have block : (mergedMessage method path host content next later).headerBlock =
      requestBlock method path host content := by
    rw [requestBlock, bufferedLine_of_fits fitsRequest, lines]
    simp only [mergedMessage, Received.headerBlock, Received.lines, crlfLines, endLines_cons,
      List.map_cons, ← bufferedLine_hostLine_append, List.append_assoc, List.cons_append,
      List.nil_append]
  have notLength : foldCase hostName ≠ foldCase contentLengthName := by decide
  have announced : (mergedMessage method path host content next later).announced ≠ -2 := by
    rw [Received.announced, mergedMessage, List.foldl_cons, announcedLength, if_neg notLength]
    exact announcedLength_ne_failure
      (fun pair listed => safe.lengths_added pair (laterListed pair listed)) (by decide)
  have readBack : ∀ pair ∈ (mergedMessage method path host content next later).members,
      ReadsBack pair := by
    intro pair member
    rcases List.mem_cons.mp member with rfl | listed
    · exact readsBack_mergedHost cutHost safe.hostEnd safe.hostStart
        (safe.readsBack_added next nextListed)
    · exact safe.readsBack_added pair (laterListed pair listed)
  apply (exchangeRequest_spec ample sends receives built safe small block rfl
    (requestLine_eq method path) (noEnd_requestLine safe.pathEnd) (noNul_requestLine method path)
    readBack announced).mono
  intro reply _ reads
  rw [path_of_requestLine safe.pathSpace] at reads
  exact reads

end Exchange

section MergedHost

variable {method : TenHttpMethod} {path host : CString} {content : MessageContent}
  (safe : SafeRequest path host content)
  (distinct : OrderedMap.Distinct foldCase content.headers)

include safe distinct

/-- The first header has become a part of the Host line, and is lost. -/
theorem not_requestArrives_of_readAs_header {first : CString × CString}
    {more : List (CString × CString)} (headers : content.headers = first :: more)
    {reply : Option TenHttpRequest}
    (reads : ReadAs (mergedMessage method path host content first
      (more ++ addedHeaders content.body.length)) method path reply) :
    ¬ RequestArrives method path host content reply := by
  have listed : first ∈ content.headers := by
    rw [headers]
    exact List.mem_cons_self
  have whole := safe.distinct_host distinct (mergedHost host first)
  rw [headers, List.cons_append] at whole
  have distinctMembers := whole.sublist
    (.cons_cons (hostName, mergedHost host first) (.cons first (List.Sublist.refl _)))
  have distinctLines := (OrderedMap.distinct_cons.mp whole).2
  obtain ⟨received, rfl, -, -, pairs, -⟩ := reads
  rintro ⟨_, ⟨⟩, -, -, -, given, -⟩
  have missing : OrderedMap.lookup foldCase first.1
      (mergedMessage method path host content first
        (more ++ addedHeaders content.body.length)).members = none := by
    apply OrderedMap.lookup_eq_none
    intro pair member same
    rcases List.mem_cons.mp member with rfl | later
    · exact safe.noHost first listed same.symm
    · exact (OrderedMap.distinct_cons.mp distinctLines).1 (List.mem_map.mpr ⟨pair, later, same⟩)
  have found := given first listed
  rw [ReadAs.get distinctMembers pairs, missing] at found
  cases found

/-- Without headers the Content-Length line has become a part of the Host
line, so that no body is read. -/
theorem requestArrives_iff_of_readAs_length (cutHost : tenHttpLineBuf ≤ host.length + 8)
    (headers : content.headers = []) {reply : Option TenHttpRequest}
    (reads : ReadAs (mergedMessage method path host content
      (contentLengthName, CString.ofMemory (formatUnsigned content.body.length))
      [(connectionName, literalString "close")]) method path reply) :
    RequestArrives method path host content reply ↔
      content.body = [] ∧ host.bytes.drop 249 = literal "Content-Length: 0" := by
  have whole := safe.distinct_host distinct (mergedHost host
    (contentLengthName, CString.ofMemory (formatUnsigned content.body.length)))
  rw [headers, List.nil_append, addedHeaders] at whole
  have distinctMembers := whole.sublist (.cons_cons _ (.cons _ (List.Sublist.refl _)))
  obtain ⟨received, rfl, sameMethod, samePath, pairs, bytes⟩ := reads
  have named : tenHttpHeadersGet received.headers hostName = some (mergedHost host
      (contentLengthName, CString.ofMemory (formatUnsigned content.body.length))) := by
    rw [ReadAs.get distinctMembers pairs, mergedMessage, OrderedMap.lookup, if_pos rfl]
  have announced : (mergedMessage method path host content
      (contentLengthName, CString.ofMemory (formatUnsigned content.body.length))
      [(connectionName, literalString "close")]).announced = -1 := by
    apply announcedLength_of_forall_ne
    intro pair member
    simp only [mergedMessage, List.mem_cons, List.not_mem_nil, or_false] at member
    rcases member with rfl | rfl
    · change foldCase hostName ≠ foldCase contentLengthName
      decide
    · exact foldCase_connectionName_ne
  rw [announced] at bytes
  have noBody : bodyBytes received.body = [] := bytes
  have spelled : headerLine (contentLengthName, CString.ofMemory (formatUnsigned 0)) =
      literal "Content-Length: 0" := by decide
  constructor
  · rintro ⟨_, ⟨⟩, -, -, sameBody, -, sameHost⟩
    have empty : content.body = [] := sameBody.symm.trans noBody
    rw [named, Option.some.injEq, mergedHost_eq_iff cutHost, empty, List.length_nil,
      spelled] at sameHost
    exact ⟨empty, sameHost⟩
  · rintro ⟨empty, sameEnd⟩
    refine ⟨received, rfl, sameMethod, samePath, noBody.trans empty.symm, ?_, ?_⟩
    · rw [headers]
      simp
    · rw [named, Option.some.injEq, mergedHost_eq_iff cutHost, empty, List.length_nil, spelled]
      exact sameEnd

end MergedHost

/-- A request arrives as it was sent exactly when its request line and its Host
line fit the line buffer, or nothing is lost with the end of the Host line. -/
theorem tenHttpRequest_arrives_iff {grants : Schedule} {world : World} (ample : Ample grants)
    {client server : Transport} (sends : client.Delivers) (receives : server.Delivers)
    {method : TenHttpMethod} {path host : CString} {calls : List MessageCall}
    (safe : SafeRequest path host (.ofCalls calls))
    (small : (requestBlock method path host (.ofCalls calls)).length ≤ tenHttpMaxHeaderSize) :
    Returns (exchangeRequest client server method path host calls) grants world (fun reply _ =>
      RequestArrives method path host (.ofCalls calls) reply ↔
        FitsLineBuffer method path host (.ofCalls calls)) := by
  have distinct := MessageContent.distinct_ofCalls calls
  generalize built : MessageContent.ofCalls calls = content at *
  have lengthRequest := length_requestLine method path
  have lengthHost := length_hostLine host
  by_cases fitsRequest : (requestLine method path).length + 2 < tenHttpLineBuf
  · by_cases fitsHost : (headerLine (hostName, host)).length + 2 < tenHttpLineBuf
    · apply (exchangeRequest_fits ample sends receives built safe small fitsRequest fitsHost).mono
      intro reply _ arrives
      exact iff_of_true arrives ⟨by omega, .inl (by omega)⟩
    · have cutHost : tenHttpLineBuf ≤ host.length + 8 := by omega
      cases headers : content.headers with
      | cons first more =>
          have lines : content.headers ++ addedHeaders content.body.length =
              first :: (more ++ addedHeaders content.body.length) := by
            rw [headers, List.cons_append]
          apply (exchangeRequest_mergedHost ample sends receives built safe small fitsRequest
            cutHost lines).mono
          intro reply _ reads
          apply iff_of_false
            (not_requestArrives_of_readAs_header safe distinct headers reads)
          rintro ⟨-, fits | ⟨none, -⟩⟩
          · omega
          · rw [headers] at none
            cases none
      | nil =>
          have lines : content.headers ++ addedHeaders content.body.length =
              [(contentLengthName, CString.ofMemory (formatUnsigned content.body.length)),
                (connectionName, literalString "close")] := by
            rw [headers]
            rfl
          apply (exchangeRequest_mergedHost ample sends receives built safe small fitsRequest
            cutHost lines).mono
          intro reply _ reads
          rw [requestArrives_iff_of_readAs_length safe distinct cutHost headers reads]
          constructor
          · rintro ⟨empty, sameEnd⟩
            exact ⟨by omega, .inr ⟨headers, empty, sameEnd⟩⟩
          · rintro ⟨-, fits | ⟨-, empty, sameEnd⟩⟩
            · omega
            · exact ⟨empty, sameEnd⟩
  · have cutRequest : tenHttpLineBuf ≤ (requestLine method path).length + 2 := by omega
    have lost : ¬ FitsLineBuffer method path host content := by
      rintro ⟨fits, -⟩
      omega
    have swallowed : Returns (exchangeRequest client server method path host calls) grants world
        (fun reply _ => ¬ RequestArrives method path host content reply) :=
      exchangeRequest_cut ample sends receives built safe small cutRequest
    apply swallowed.mono
    intro reply _ misses
    exact iff_of_false misses lost

/-- A small request with a header and a body. -/
theorem tenHttpRequest_arrives_iff_hello :
    Returns (exchangeRequest bytewise bytewise .post (literalString "/hello")
        (literalString "localhost")
        [.setHeader (literalString "Accept") (literalString "text/plain"),
          .setBody (literal "hello")])
      (fun _ => true) default (fun reply _ =>
        RequestArrives .post (literalString "/hello") (literalString "localhost")
            { headers := [(literalString "Accept", literalString "text/plain")]
              body := literal "hello" } reply ↔
          FitsLineBuffer .post (literalString "/hello") (literalString "localhost")
            { headers := [(literalString "Accept", literalString "text/plain")]
              body := literal "hello" }) :=
  tenHttpRequest_arrives_iff ample_always bytewise_delivers bytewise_delivers
    { readBack := by decide
      noLength := by decide
      noConnection := by decide
      object := by decide
      pathSpace := by decide
      pathEnd := by decide
      hostEnd := by decide
      hostStart := by decide
      noHost := by decide }
    (by decide)

/-- Every request whose header block the server accepts arrives as it was
sent. -/
def RequestsArrive : Prop :=
  ∀ {grants : Schedule} {world : World}, Ample grants →
    ∀ {client server : Transport}, client.Delivers → server.Delivers →
      ∀ {method : TenHttpMethod} {path host : CString} {calls : List MessageCall},
        SafeRequest path host (.ofCalls calls) →
        (requestBlock method path host (.ofCalls calls)).length ≤ tenHttpMaxHeaderSize →
        Returns (exchangeRequest client server method path host calls) grants world
          (fun reply _ => RequestArrives method path host (.ofCalls calls) reply)

section LongPath

-- The block of the failing request is evaluated byte by byte.
set_option maxRecDepth 4000

/-- A path of 300 letters. -/
def longPath : CString := CString.ofMemory (List.replicate 300 (ascii 'a'))

/-- The end of the request line and the Host header of a request with a long
path are lost. -/
theorem not_requestsArrive_longPath : ¬ RequestsArrive := by
  intro arrive
  have safe : SafeRequest longPath (literalString "localhost") (.ofCalls []) := {
    readBack := by decide
    noLength := by decide
    noConnection := by decide
    object := by decide
    pathSpace := by decide
    pathEnd := by decide
    hostEnd := by decide
    hostStart := by decide
    noHost := by decide }
  have small : (requestBlock .get longPath (literalString "localhost") (.ofCalls [])).length ≤
      tenHttpMaxHeaderSize := by decide
  have cut : tenHttpLineBuf ≤ (requestLine .get longPath).length + 2 := by decide
  obtain ⟨reply, world, -, arrives, misses⟩ :=
    (@arrive _ default ample_always _ _ bytewise_delivers bytewise_delivers _ _ _ _ safe small).and
      (exchangeRequest_cut ample_always bytewise_delivers bytewise_delivers rfl safe small cut)
  exact misses arrives

end LongPath

end Dotten
