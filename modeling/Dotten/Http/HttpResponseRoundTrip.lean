/-
Module: Dotten.Http.HttpResponseRoundTrip
Layer: Http
Purpose: A response that is sent is the response that is received, however the
  transport divides the bytes.
Imports: Dotten.Http.HttpMessageCalls
Main exports: respond, exchangeResponse, responseMessage,
  tenHttpSendResponse_spec, tenHttpResponse_endToEnd
-/
import Dotten.Http.HttpMessageCalls

namespace Dotten

open Dotten.Library

/-- `INT_MAX`. -/
def intMax : Int := 2147483647

/-- A value of the type `int`. -/
def IsInt (n : Int) : Prop := -intMax - 1 ≤ n ∧ n ≤ intMax

/-- A call on a response. -/
def runResponseCall (response : TenHttpResponse) : MessageCall → Ten TenHttpResponse
  | .setHeader name value => do
      let (_, response) ← tenHttpResponseSetHeader response (some name) (some value)
      return response
  | .setBody data => do
      let (_, response) ← tenHttpResponseSetBody response (some data) data.length
      return response

/-- A sequence of calls on a response. -/
def runResponseCalls (response : TenHttpResponse) : List MessageCall → Ten TenHttpResponse
  | [] => pure response
  | call :: calls => do
      let response ← runResponseCall response call
      runResponseCalls response calls

/-- A handler that answers with a status and makes the given calls. -/
def respond (status : Int) (calls : List MessageCall) : Ten (Option TenHttpResponse) := do
  let some response ← tenHttpResponseCreate
    | return none
  let (_, response) ← tenHttpResponseSetStatus response status
  let response ← runResponseCalls response calls
  return some response

/-- The server sends the response of a handler, and the client receives the
bytes that were sent. -/
def exchangeResponse (server client : Transport) (status : Int) (calls : List MessageCall) :
    Ten (Option TenHttpResponse) := do
  let some response ← respond status calls
    | return none
  let (_, sock) ← tenHttpSendResponse server (.connected []) response
  tenHttpReceiveResponse client (.connected sock.outgoing)

/-- The status line, without its end. -/
def statusLine (status : Int) : Bytes :=
  literal "HTTP/1.1 " ++ formatSigned status ++ literal " " ++ tenHttpStatusText status

/-- A response as it stands on the wire. -/
def responseMessage (status : Int) (content : MessageContent) : Received where
  first := statusLine status
  members := content.headers ++ addedHeaders content.body.length
  rest := content.body

section StatusLine

/-- A text without line ends and NULs that leaves room in the line buffer. -/
def plainText (text : Bytes) : Bool :=
  text.all (fun b => b ≠ ascii '\n' && b ≠ 0) && text.length ≤ 21

theorem plainText_ite {condition : Prop} [Decidable condition] {yes no : Bytes}
    (plainYes : plainText yes = true) (plainNo : plainText no = true) :
    plainText (if condition then yes else no) = true := by
  split
  · exact plainYes
  · exact plainNo

theorem plainText_statusText (status : Int) : plainText (tenHttpStatusText status) = true := by
  unfold tenHttpStatusText
  repeat' apply plainText_ite
  all_goals decide

theorem tenHttpStatusText_facts (status : Int) :
    ascii '\n' ∉ tenHttpStatusText status ∧ (0 : Byte) ∉ tenHttpStatusText status ∧
      (tenHttpStatusText status).length ≤ 21 := by
  have plain := plainText_statusText status
  rw [plainText, Bool.and_eq_true, List.all_eq_true, decide_eq_true_iff] at plain
  obtain ⟨clean, short⟩ := plain
  refine ⟨?_, ?_, short⟩
  · intro member
    exact absurd (clean _ member) (by decide)
  · intro member
    exact absurd (clean _ member) (by decide)

theorem notMem_formatSigned {n : Int} {b : Byte} (notSign : b ≠ ascii '-')
    (notDigit : isDigit b = false) : b ∉ formatSigned n := by
  have notDigits : b ∉ formatUnsigned n.natAbs := by
    intro member
    rw [isDigit_of_mem_formatUnsigned member] at notDigit
    cases notDigit
  rw [formatSigned]
  split
  · rw [List.mem_cons, not_or]
    exact ⟨notSign, notDigits⟩
  · exact notDigits

theorem length_formatSigned_le_of_int {n : Int} (int : IsInt n) :
    (formatSigned n).length ≤ 11 := by
  have digits : (formatUnsigned n.natAbs).length ≤ 10 := by
    apply length_formatUnsigned_le
    · unfold IsInt intMax at int
      omega
    · decide
  rw [formatSigned]
  split
  · rw [List.length_cons]
    omega
  · omega

theorem length_statusLine (status : Int) :
    (statusLine status).length =
      10 + (formatSigned status).length + (tenHttpStatusText status).length := by
  have version : (literal "HTTP/1.1 ").length = 9 := by decide
  have space : (literal " ").length = 1 := by decide
  simp only [statusLine, List.length_append, version, space]
  omega

theorem statusLine_ne_nil (status : Int) : statusLine status ≠ [] := by
  intro empty
  have length := length_statusLine status
  rw [empty, List.length_nil] at length
  omega

theorem notMem_statusLine {status : Int} {b : Byte} (notVersion : b ∉ literal "HTTP/1.1 ")
    (notSign : b ≠ ascii '-') (notDigit : isDigit b = false)
    (notText : b ∉ tenHttpStatusText status) : b ∉ statusLine status := by
  have version : literal "HTTP/1.1 " = literal "HTTP/1.1" ++ literal " " := by decide
  have notSpace : b ∉ literal " " := by
    rw [version] at notVersion
    exact fun member => notVersion (List.mem_append_right _ member)
  simp only [statusLine, List.mem_append, not_or]
  exact ⟨⟨⟨notVersion, notMem_formatSigned notSign notDigit⟩, notSpace⟩, notText⟩

/-- The status line is one line. -/
theorem statusLine_noEnd (status : Int) : ascii '\n' ∉ statusLine status :=
  notMem_statusLine (by decide) (by decide) (by decide) (tenHttpStatusText_facts status).1

theorem statusLine_fits {status : Int} (int : IsInt status) :
    (statusLine status ++ crlf).length < tenHttpLineBuf := by
  have number := length_formatSigned_le_of_int int
  have text := (tenHttpStatusText_facts status).2.2
  rw [List.length_append, length_statusLine]
  change _ + 2 < 256
  omega

end StatusLine

section Specifications

variable {grants : Schedule} {world : World} (ample : Ample grants)

include ample

theorem runResponseCalls_spec (calls : List MessageCall) :
    ∀ {response : TenHttpResponse} {content : MessageContent} {world : World},
      Holds response.headers response.body content →
      Returns (runResponseCalls response calls) grants world (fun after _ =>
        after.status = response.status ∧
          Holds after.headers after.body (calls.foldl MessageContent.apply content)) := by
  induction calls with
  | nil =>
      intro response content world holds
      simp only [runResponseCalls, returns_pure]
      exact ⟨trivial, holds⟩
  | cons call rest inductionHypothesis =>
      intro response content world holds
      simp only [runResponseCalls, returns_bind]
      cases call with
      | setHeader name value =>
          simp only [runResponseCall, tenHttpResponseSetHeader, returns_bind, returns_pure]
          apply (tenHttpSetHeader_spec ample holds name value).mono
          rintro ⟨code, headers⟩ _ holdsAfter
          exact inductionHypothesis holdsAfter
      | setBody data =>
          simp only [runResponseCall, tenHttpResponseSetBody, returns_bind, returns_pure]
          apply (tenHttpSetBody_spec ample holds data).mono
          rintro ⟨code, body⟩ _ holdsAfter
          exact inductionHypothesis holdsAfter

/-- A handler's response holds what its calls say. -/
theorem respond_spec (status : Int) (calls : List MessageCall) :
    Returns (respond status calls) grants world (fun reply _ =>
      ∃ response, reply = some response ∧ response.status = status ∧
        Holds response.headers response.body (.ofCalls calls)) := by
  simp only [respond, tenHttpResponseCreate, tenHttpResponseSetStatus, returns_bind,
    returns_tenMalloc]
  constructor
  · intro granted
    simp only [returns_bind, returns_pure, returns_tenSetError]
    apply (runResponseCalls_spec ample calls holds_empty).mono
    rintro response _ ⟨same, holds⟩
    exact ⟨response, rfl, same, holds⟩
  · intro refused
    exact absurd ample (not_ample_of_refused refused)

/-- `ten__http_send_response` sends the message that the response stands
for. -/
theorem tenHttpSendResponse_spec {transport : Transport} (delivers : transport.Delivers)
    (sock : TenSocket) {response : TenHttpResponse} {content : MessageContent}
    (holds : Holds response.headers response.body content) (int : IsInt response.status)
    (object : content.body.length ≤ objectSizeMax) :
    Returns (tenHttpSendResponse transport sock response) grants world (fun reply _ =>
      reply.1 = .ok ∧
        reply.2.outgoing = sock.outgoing ++ (responseMessage response.status content).stream) := by
  have line : literal "HTTP/1.1 " ++ formatSigned response.status ++ literal " " ++
      tenHttpStatusText response.status ++ crlf = statusLine response.status ++ crlf := rfl
  simp only [tenHttpSendResponse, returns_bind]
  apply tenBufferCreate_spec.mono
  rintro reply _ (⟨rfl, shortage⟩ | ⟨out, rfl, valid, contents⟩)
  · exact absurd ample shortage
  · rw [line, snprintf_of_fits (statusLine_fits int)]
    simp only [returns_bind]
    apply (tenHttpPut_spec ample valid _).mono
    rintro started _ ⟨validStarted, contentsStarted⟩
    rw [← holds.bytes] at object
    apply (tenHttpSendMessage_spec ample delivers validStarted response.headers holds.valid
      object).mono
    rintro reply _ ⟨ok, outgoing⟩
    refine ⟨ok, ?_⟩
    rw [outgoing, contentsStarted, contents, holds.pairs, holds.bytes]
    simp only [responseMessage, Received.stream, Received.headerBlock, Received.lines, crlfLines, endLines_cons,
      List.nil_append, List.append_assoc, List.cons_append]

end Specifications

/-- The reply is a response with the given status, the body of a content, and
its headers followed by those that the sender adds. -/
def ResponseArrives (status : Int) (content : MessageContent) (reply : Option TenHttpResponse) :
    Prop :=
  ∃ received, reply = some received ∧ received.status = status ∧
    bodyBytes received.body = content.body ∧
    received.headers.pairs = content.headers ++ addedHeaders content.body.length

/-- Every response arrives as it was sent: the same status, the same body, and
the headers in the order in which they were set, followed by those that the
sender adds. -/
theorem tenHttpResponse_endToEnd {grants : Schedule} {world : World} (ample : Ample grants)
    {server client : Transport} (sends : server.Delivers) (receives : client.Delivers)
    {status : Int} (positive : 1 ≤ status) (int : status ≤ intMax) {calls : List MessageCall}
    (safe : SafeContent (.ofCalls calls))
    (small : (responseMessage status (.ofCalls calls)).headerBlock.length ≤ tenHttpMaxHeaderSize) :
    Returns (exchangeResponse server client status calls) grants world (fun reply _ =>
      ResponseArrives status (.ofCalls calls) reply) := by
  have distinct := safe.distinct_added (MessageContent.distinct_ofCalls calls)
  generalize contentEq : MessageContent.ofCalls calls = content at *
  have text := tenHttpStatusText_facts status
  have readable : (responseMessage status content).Readable := {
    nonempty := statusLine_ne_nil status
    noEnd := statusLine_noEnd status
    noNul := notMem_statusLine (by decide) (by decide) (by decide) text.2.1
    readBack := safe.readsBack_added
    small }
  have announced : (responseMessage status content).announced = content.body.length := by
    rw [Received.announced, responseMessage, List.foldl_append, announcedLength_addedHeaders]
  simp only [exchangeResponse, returns_bind]
  apply (respond_spec ample status calls).mono
  rintro _ _ ⟨response, rfl, rfl, holds⟩
  rw [contentEq] at holds
  simp only [returns_bind]
  have isInt : IsInt response.status := by
    unfold IsInt intMax
    exact ⟨by omega, int⟩
  apply (tenHttpSendResponse_spec ample sends (.connected []) holds isInt safe.object).mono
  rintro ⟨code, sock⟩ _ ⟨-, outgoing⟩
  simp only [tenHttpReceiveResponse, returns_bind, returns_tenSetError, returns_pure]
  apply tenHttpReceive_spec ample receives readable
    (ResponseArrives response.status content) outgoing
  intro rest headerBlock bodyPrefix headerLen bodyPrefixLen now split
  apply (tenHttpParseResponse_spec ample receives readable
    (tenResponseFirstLine_spec positive (Int.lt_of_le_of_lt int (by decide)) _ _) (by omega)
    split).mono
  rintro _ _ ⟨received, rfl, sameStatus, pairs, body⟩
  refine ⟨received, rfl, sameStatus, ?_, ?_⟩
  · rw [body, announced, Int.toNat_natCast]
    exact List.take_length
  · rw [pairs]
    exact OrderedMap.ofList_of_distinct distinct

/-- A text with a header and a body that holds a blank line, byte by byte. -/
theorem tenHttpResponse_endToEnd_text :
    Returns (exchangeResponse bytewise bytewise 200
        [.setHeader (literalString "Content-Type") (literalString "text/plain"),
          .setBody (literal "a\r\n\r\nb")])
      (fun _ => true) default (fun reply _ => ResponseArrives 200
        { headers := [(literalString "Content-Type", literalString "text/plain")]
          body := literal "a\r\n\r\nb" } reply) :=
  tenHttpResponse_endToEnd ample_always bytewise_delivers bytewise_delivers (by decide) (by decide)
    { readBack := by decide
      noLength := by decide
      noConnection := by decide
      object := by decide }
    (by decide)

end Dotten
