/-
Module: Dotten.Http.HttpSendShortage
Layer: Http
Purpose: Sending when allocations are refused: the whole message or an error,
  except when the buffer that the message is gathered in cannot grow and the
  message goes out without the piece that found no room.
Imports: Dotten.Http.HttpMessages, Dotten.Containers.TenBufferPieces
Main exports: WritesBytes, messagePieces, requestPieces, responsePieces,
  SendsAllOrNothing, LosesPart, GathersAndSends.allOrNothing_iff,
  tenHttpSend_allOrNothing_iff
-/
import Dotten.Http.HttpMessages
import Dotten.Containers.TenBufferPieces

namespace Dotten

open Dotten.Library

section Gathering

/-- The program writes the pieces one after the other, and makes no other
request. -/
def WritesBytes (write : TenBuffer → Ten TenBuffer) (pieces : List Bytes) : Prop :=
  ∀ (grants : Schedule) (world : World) (out : TenBuffer),
    Returns (write out) grants world (fun after last =>
      (last.requests, after) = (bufferWriter grants).puts (world.requests, out) pieces)

theorem writesBytes_put (text : Bytes) : WritesBytes (fun out => tenHttpPut out text) [text] := by
  intro grants world out
  simp only [tenHttpPut, returns_bind, returns_pure]
  apply (tenBufferWrite_writeBytes out text text.length).mono
  rintro ⟨code, after⟩ last ⟨written, -⟩
  exact written

theorem WritesBytes.bind {first second : TenBuffer → Ten TenBuffer} {left right : List Bytes}
    (writesFirst : WritesBytes first left) (writesSecond : WritesBytes second right) :
    WritesBytes (fun out => first out >>= second) (left ++ right) := by
  intro grants world out
  rw [returns_bind]
  apply (writesFirst grants world out).mono
  intro middle between written
  apply (writesSecond grants between middle).mono
  intro after last rest
  rw [rest, written, LossyWriter.puts_append]

/-- The pieces of the header lines. -/
def headerPieces (pairs : List (CString × CString)) : List Bytes :=
  pairs.flatMap fun pair => [pair.1.bytes, literal ": ", pair.2.bytes, crlf]

theorem writesBytes_headers (pairs : List (CString × CString)) :
    WritesBytes (fun out => tenHttpWriteHeaders out pairs) (headerPieces pairs) := by
  induction pairs with
  | nil =>
      intro grants world out
      simp only [tenHttpWriteHeaders, returns_pure]
      rfl
  | cons pair rest inductionHypothesis =>
      exact (writesBytes_put pair.1.bytes).bind ((writesBytes_put (literal ": ")).bind
        ((writesBytes_put pair.2.bytes).bind ((writesBytes_put crlf).bind inductionHypothesis)))

/-- The lines behind the headers, as they are written for a body of the given
size. -/
def closingLines (bodySize : Nat) : Bytes :=
  snprintf tenHttpLineBuf
    (literal "Content-Length: " ++ formatUnsigned bodySize ++ crlf ++
      literal "Connection: close" ++ crlf ++ crlf)

/-- The pieces of a message behind its first lines. -/
def messagePieces (headers : TenHttpHeaders) (body : Option TenBuffer) : List Bytes :=
  headerPieces headers.pairs ++ [closingLines (bodyBytes body).length, bodyBytes body]

theorem writesBytes_body {body : Option TenBuffer}
    (validBody : ∀ buffer, body = some buffer → buffer.Valid) :
    WritesBytes (fun out => tenHttpPutBody out body (bodyBytes body).length) [bodyBytes body] := by
  intro grants world out
  have nothing : ∀ {state : Nat × TenBuffer}, (bufferWriter grants).puts state [[]] = state := by
    intro state
    rfl
  cases body with
  | none =>
      simp only [tenHttpPutBody, returns_pure]
      exact nothing.symm
  | some buffer =>
      have size : buffer.contents.length = buffer.size := (validBody buffer rfl).length_contents
      simp only [tenHttpPutBody]
      apply returns_ite
      · intro _
        simp only [returns_bind, returns_tenBufferData, returns_pure]
        apply (tenBufferWrite_writeBytes out buffer.data _).mono
        rintro ⟨code, after⟩ last ⟨written, -⟩
        have same : buffer.data.take buffer.contents.length =
            buffer.contents.take buffer.contents.length := by
          rw [List.take_length, size]
          rfl
        exact written.trans (writeBytes_congr same _)
      · intro empty
        rw [returns_pure, List.eq_nil_of_length_eq_zero (Nat.eq_zero_of_not_pos empty)]
        exact nothing.symm

end Gathering

section Sending

variable {transport : Transport}

/-- The loop of `ten__http_send_all` does not ask the allocator. -/
theorem tenHttpSendAllLoop_uniform {data : Bytes} {size : Nat} :
    ∀ {steps : Nat} {sock : TenSocket} {sent : Nat}, size - sent < steps →
      ∃ reply, ∀ (grants : Schedule) (world : World),
        Returns (tenHttpSendAllLoop transport data size steps sock sent) grants world
          (fun last _ => last = reply) := by
  intro steps
  induction steps with
  | zero =>
      intro sock sent enough
      omega
  | succ steps inductionHypothesis =>
      intro sock sent enough
      simp only [tenHttpSendAllLoop, tenSocketSend]
      by_cases unfinished : sent < size
      · cases answer : transport.sends sock.sendCalls with
        | none =>
            refine ⟨(.network, { sock with sendCalls := sock.sendCalls + 1 }), ?_⟩
            intro grants world
            have negative : (-1 : Int) ≤ 0 := by decide
            simp only [if_pos unfinished, if_pos negative, returns_bind, returns_tenSetError,
              returns_pure]
        | some asked =>
            have positive : ¬ ((min (max asked 1) (size - sent) : Nat) : Int) ≤ 0 := by omega
            obtain ⟨reply, rest⟩ := @inductionHypothesis
              { sock with
                sendCalls := sock.sendCalls + 1
                outgoing := sock.outgoing ++
                  (data.drop sent).take (min (max asked 1) (size - sent)) }
              (sent + min (max asked 1) (size - sent)) (by omega)
            refine ⟨reply, ?_⟩
            intro grants world
            simp only [if_pos unfinished, returns_bind, returns_tenSetError, returns_pure,
              if_neg positive]
            exact rest grants _
      · refine ⟨(.ok, sock), ?_⟩
        intro grants world
        simp only [if_neg unfinished, returns_pure]

/-- The outcome of handing a text to a socket. -/
def sentReply (transport : Transport) (sock : TenSocket) (text : Bytes) :
    TenErrorCode × TenSocket :=
  match tenHttpSendAll transport sock text text.length (fun _ => true) default with
  | none => default
  | some (reply, _) => reply

theorem tenHttpSendAll_reply (sock : TenSocket) (text : Bytes) {grants : Schedule}
    {world : World} :
    Returns (tenHttpSendAll transport sock text text.length) grants world
      (fun reply _ => reply = sentReply transport sock text) := by
  obtain ⟨reply, uniform⟩ := @tenHttpSendAllLoop_uniform transport text text.length
    (text.length + 1) sock 0 (by omega)
  obtain ⟨same, last, run, rfl⟩ := uniform (fun _ => true) default
  have outcome : sentReply transport sock text = same := by
    rw [sentReply, tenHttpSendAll, run]
  rw [outcome]
  exact uniform grants world

theorem sentReply_of_delivers (delivers : transport.Delivers) (sock : TenSocket) (text : Bytes) :
    (sentReply transport sock text).1 = .ok ∧
      (sentReply transport sock text).2.outgoing = sock.outgoing ++ text := by
  obtain ⟨reply, last, -, rfl, ok, outgoing⟩ :=
    (@tenHttpSendAll_reply transport sock text (fun _ => true) default).and
      (tenHttpSendAll_spec delivers sock (Nat.le_refl text.length))
  rw [List.take_length] at outgoing
  exact ⟨ok, outgoing⟩

/-- What is sent does not depend on what the block holds behind the text. -/
theorem tenHttpSendAllLoop_take {data : Bytes} {size : Nat} :
    ∀ {steps : Nat} {sock : TenSocket} {sent : Nat},
      tenHttpSendAllLoop transport data size steps sock sent =
        tenHttpSendAllLoop transport (data.take size) size steps sock sent := by
  intro steps
  induction steps with
  | zero =>
      intro sock sent
      rfl
  | succ steps inductionHypothesis =>
      intro sock sent
      have chunk : ∀ asked, ((data.take size).drop sent).take (min (max asked 1) (size - sent)) =
          (data.drop sent).take (min (max asked 1) (size - sent)) := by
        intro asked
        rw [List.drop_take, List.take_take, Nat.min_eq_left (Nat.min_le_right _ _)]
      simp only [tenHttpSendAllLoop, tenSocketSend, inductionHypothesis, chunk]

theorem tenHttpSendAll_contents {out : TenBuffer} (valid : out.Valid) (sock : TenSocket) :
    tenHttpSendAll transport sock out.data out.size =
      tenHttpSendAll transport sock out.contents out.contents.length := by
  rw [valid.length_contents]
  exact tenHttpSendAllLoop_take

end Sending

section Messages

/-- What has been gathered of the pieces of a message, from a buffer that is
empty. -/
def gathered (grants : Schedule) (requests : Nat) (pieces : List Bytes) : Bytes :=
  ((bufferWriter grants).puts (requests, emptyBuffer) pieces).2.contents

/-- The program makes a buffer, gathers the pieces in it and hands what it has
gathered to the socket. -/
def GathersAndSends (send : Transport → TenSocket → Ten (TenErrorCode × TenSocket))
    (pieces : List Bytes) : Prop :=
  ∀ (transport : Transport) (sock : TenSocket) (grants : Schedule) (world : World),
    Returns (send transport sock) grants world (fun reply _ =>
      reply = if grants world.requests = true then
          sentReply transport sock (gathered grants (world.requests + 1) pieces)
        else (.outOfMemory, sock))

/-- All-or-nothing sending, whatever the transport does: the bytes that are
handed over when no request is refused, or no bytes and an error. -/
def SendsAllOrNothing (send : Transport → TenSocket → Ten (TenErrorCode × TenSocket))
    (grants : Schedule) (world : World) : Prop :=
  ∀ (transport : Transport) (sock : TenSocket),
    Returns (send transport sock) grants world (fun reply _ =>
      Returns (send transport sock) (fun _ => true) world (fun whole _ =>
        reply.2.outgoing = whole.2.outgoing ∨
          (reply.2.outgoing = sock.outgoing ∧ reply.1 ≠ .ok)))

/-- The buffer is made, but one of the larger blocks that it needs for the pieces
is refused. -/
def LosesPart (grants : Schedule) (requests : Nat) (pieces : List Bytes) : Prop :=
  grants requests = true ∧
    ∃ k < growthsNeeded 0 0 (pieces.map List.length), grants (requests + 1 + k) = false

theorem gathered_eq_iff (grants : Schedule) (requests : Nat) (pieces : List Bytes) :
    gathered grants requests pieces = pieces.flatten ↔
      ¬ ∃ k < growthsNeeded 0 0 (pieces.map List.length), grants (requests + k) = false := by
  have whole := @LossyWriter.text_puts_eq_iff _ _ (bufferWriter grants) pieces
    (fun _ _ => trivial) (requests, emptyBuffer) emptyBuffer_valid
  rw [losesSome_iff] at whole
  exact whole

theorem length_gathered_lt {grants : Schedule} {requests : Nat} {pieces : List Bytes}
    (lost : ∃ k < growthsNeeded 0 0 (pieces.map List.length), grants (requests + k) = false) :
    (gathered grants requests pieces).length < pieces.flatten.length := by
  have shorter := @LossyWriter.length_text_puts_lt _ _ (bufferWriter grants) pieces
    (fun _ _ => trivial) (requests, emptyBuffer) emptyBuffer_valid
    ((losesSome_iff pieces _).mpr lost)
  have start : ((bufferWriter grants).text (requests, emptyBuffer)).length = 0 := rfl
  rw [start, Nat.zero_add] at shorter
  exact shorter

theorem gathered_of_ample (requests : Nat) (pieces : List Bytes) :
    gathered (fun _ => true) requests pieces = pieces.flatten := by
  rw [gathered_eq_iff]
  rintro ⟨k, -, refused⟩
  cases refused

variable {send : Transport → TenSocket → Ten (TenErrorCode × TenSocket)} {pieces : List Bytes}

/-- A message is sent as a whole or not at all exactly when no part is lost. -/
theorem GathersAndSends.allOrNothing_iff (sends : GathersAndSends send pieces) (grants : Schedule)
    (world : World) :
    SendsAllOrNothing send grants world ↔ ¬ LosesPart grants world.requests pieces := by
  have whole : ∀ transport sock, Returns (send transport sock) (fun _ => true) world
      (fun reply _ => reply = sentReply transport sock pieces.flatten) := by
    intro transport sock
    apply (sends transport sock _ world).mono
    rintro _ _ rfl
    rw [if_pos rfl, gathered_of_ample]
  constructor
  · rintro all ⟨made, lost⟩
    -- a transport that delivers hands over exactly what has been gathered
    let sock : TenSocket := .connected []
    obtain ⟨_, _, -, rfl, also⟩ := (sends bytewise sock grants world).and (all bytewise sock)
    obtain ⟨_, _, -, rfl, outcome⟩ := (whole bytewise sock).and also
    obtain ⟨ok, part⟩ := sentReply_of_delivers bytewise_delivers sock
      (gathered grants (world.requests + 1) pieces)
    obtain ⟨-, text⟩ := sentReply_of_delivers bytewise_delivers sock pieces.flatten
    rw [if_pos made, ok, part, text] at outcome
    have shorter := length_gathered_lt lost
    rcases outcome with same | ⟨-, fails⟩
    · rw [List.append_right_inj] at same
      rw [same] at shorter
      exact Nat.lt_irrefl _ shorter
    · exact fails rfl
  · intro kept transport sock
    apply (sends transport sock grants world).mono
    rintro _ _ rfl
    apply (whole transport sock).mono
    rintro _ _ rfl
    cases made : grants world.requests with
    | false => exact .inr ⟨rfl, by simp⟩
    | true =>
        left
        rw [if_pos rfl, (gathered_eq_iff grants _ pieces).mpr (fun lost => kept ⟨made, lost⟩)]

theorem tenHttpBodySize_requests {grants : Schedule} {world : World} {body : Option TenBuffer}
    (validBody : ∀ buffer, body = some buffer → buffer.Valid) :
    Returns (tenHttpBodySize body) grants world (fun size last =>
      size = (bodyBytes body).length ∧ last.requests = world.requests) := by
  cases body with
  | none =>
      simp only [tenHttpBodySize, returns_pure]
      exact ⟨rfl, trivial⟩
  | some buffer =>
      simp only [tenHttpBodySize, returns_tenBufferSize]
      exact ⟨(validBody buffer rfl).length_contents.symm, trivial⟩

/-- The end of both serializers: the pieces of the message behind those that have
been gathered. -/
theorem tenHttpSendMessage_gathers {transport : Transport} {grants : Schedule} {world : World}
    (sock : TenSocket) {requests : Nat} {out : TenBuffer} (first : List Bytes)
    (headers : TenHttpHeaders) {body : Option TenBuffer}
    (validBody : ∀ buffer, body = some buffer → buffer.Valid)
    (before : (world.requests, out) =
      (bufferWriter grants).puts (requests, emptyBuffer) first) :
    Returns (tenHttpSendMessage transport sock out headers body) grants world (fun reply _ =>
      reply = sentReply transport sock
        (gathered grants requests (first ++ messagePieces headers body))) := by
  simp only [tenHttpSendMessage, returns_bind]
  apply (writesBytes_headers headers.pairs grants world out).mono
  intro lines afterLines linesWritten
  apply (tenHttpBodySize_requests validBody).mono
  rintro _ afterSize ⟨rfl, requestsSize⟩
  apply (writesBytes_put (closingLines (bodyBytes body).length) grants afterSize lines).mono
  intro closed afterClosed closedWritten
  apply (writesBytes_body validBody grants afterClosed closed).mono
  intro whole afterBody bodyWritten
  have all : (afterBody.requests, whole) = (bufferWriter grants).puts (requests, emptyBuffer)
      (first ++ messagePieces headers body) := by
    have closing : [closingLines (bodyBytes body).length, bodyBytes body] =
        [closingLines (bodyBytes body).length] ++ [bodyBytes body] := rfl
    rw [bodyWritten, closedWritten, requestsSize, linesWritten, before, messagePieces, closing,
      LossyWriter.puts_append, LossyWriter.puts_append, LossyWriter.puts_append]
  have valid : whole.Valid := by
    have good := @LossyWriter.puts_good _ _ (bufferWriter grants)
      (first ++ messagePieces headers body) (fun _ _ => trivial) (requests, emptyBuffer)
      emptyBuffer_valid
    rw [← all] at good
    exact good
  have text : gathered grants requests (first ++ messagePieces headers body) = whole.contents := by
    rw [gathered, ← all]
  simp only [returns_tenBufferData, returns_tenBufferSize]
  rw [tenHttpSendAll_contents valid, text]
  exact tenHttpSendAll_reply sock whole.contents

/-- The pieces of a request. -/
def requestPieces (method : TenHttpMethod) (path host : CString) (headers : TenHttpHeaders)
    (body : Option TenBuffer) : List Bytes :=
  [snprintf tenHttpLineBuf
      (tenHttpMethodName method ++ literal " " ++ path.bytes ++ literal " HTTP/1.1" ++ crlf),
    snprintf tenHttpLineBuf (literal "Host: " ++ host.bytes ++ crlf)] ++
    messagePieces headers body

/-- The pieces of a response. -/
def responsePieces (response : TenHttpResponse) : List Bytes :=
  [snprintf tenHttpLineBuf
      (literal "HTTP/1.1 " ++ formatSigned response.status ++ literal " " ++
        tenHttpStatusText response.status ++ crlf)] ++
    messagePieces response.headers response.body

theorem tenHttpSendRequest_gathers {request : TenHttpRequest} {path : CString}
    (named : request.path = some path)
    (validBody : ∀ buffer, request.body = some buffer → buffer.Valid) (host : CString) :
    GathersAndSends (fun transport sock => tenHttpSendRequest transport sock request host)
      (requestPieces request.method path host request.headers request.body) := by
  intro transport sock grants world
  simp only [tenHttpSendRequest, tenBufferCreate, returns_bind, returns_tenMalloc]
  constructor
  · intro granted
    simp only [returns_tenSetError, returns_pure]
    rw [if_pos granted, named]
    dsimp only
    rw [returns_bind]
    apply (writesBytes_put _ grants _ _).mono
    intro line afterLine lineWritten
    rw [returns_bind]
    apply (writesBytes_put _ grants _ _).mono
    intro hostLine afterHost hostWritten
    rw [requestPieces]
    apply tenHttpSendMessage_gathers sock _ _ validBody
    rw [hostWritten, lineWritten]
    rfl
  · intro refused
    simp only [returns_pure]
    rw [if_neg (by simp [refused])]

theorem tenHttpSendResponse_gathers {response : TenHttpResponse}
    (validBody : ∀ buffer, response.body = some buffer → buffer.Valid) :
    GathersAndSends (fun transport sock => tenHttpSendResponse transport sock response)
      (responsePieces response) := by
  intro transport sock grants world
  simp only [tenHttpSendResponse, tenBufferCreate, returns_bind, returns_tenMalloc]
  constructor
  · intro granted
    simp only [returns_tenSetError, returns_pure]
    rw [if_pos granted, returns_bind]
    apply (writesBytes_put _ grants _ _).mono
    intro line afterLine lineWritten
    rw [responsePieces]
    apply tenHttpSendMessage_gathers sock _ _ validBody
    rw [lineWritten]
    rfl
  · intro refused
    simp only [returns_pure]
    rw [if_neg (by simp [refused])]

end Messages

/-- A request, and a response, is sent as a whole or not at all exactly when no
part of it is lost. -/
theorem tenHttpSend_allOrNothing_iff {request : TenHttpRequest} {path : CString}
    (named : request.path = some path)
    (validRequest : ∀ buffer, request.body = some buffer → buffer.Valid)
    {response : TenHttpResponse}
    (validResponse : ∀ buffer, response.body = some buffer → buffer.Valid) (host : CString)
    (grants : Schedule) (world : World) :
    (SendsAllOrNothing (fun transport sock => tenHttpSendRequest transport sock request host)
        grants world ↔
      ¬ LosesPart grants world.requests
        (requestPieces request.method path host request.headers request.body)) ∧
    (SendsAllOrNothing (fun transport sock => tenHttpSendResponse transport sock response)
        grants world ↔
      ¬ LosesPart grants world.requests (responsePieces response)) :=
  ⟨(tenHttpSendRequest_gathers named validRequest host).allOrNothing_iff grants world,
    (tenHttpSendResponse_gathers validResponse).allOrNothing_iff grants world⟩

section Examples

/-- A header and a body. -/
def letterHeaders : TenHttpHeaders :=
  { pairs := [(literalString "X-Key", literalString "value")], capacity := 4 }

def letterBody : TenBuffer := { data := literal "hello", size := 5, capacity := 16 }

theorem letterBody_valid : letterBody.Valid := by
  constructor <;> decide

/-- An upload and an answer. -/
def letterRequest : TenHttpRequest :=
  { method := .post
    path := some (literalString "/letters")
    headers := letterHeaders
    body := some letterBody }

def letterResponse : TenHttpResponse :=
  { status := 200, headers := letterHeaders, body := some letterBody }

/-- The request needs three blocks for its pieces and the response two, so when the
third is refused the response is sent as a whole and the request without its last
lines. -/
theorem tenHttpSend_allOrNothing_letters :
    ¬ SendsAllOrNothing (fun transport sock =>
        tenHttpSendRequest transport sock letterRequest (literalString "localhost"))
      (fun request => request ≠ 3) default ∧
    SendsAllOrNothing (fun transport sock => tenHttpSendResponse transport sock letterResponse)
      (fun request => request ≠ 3) default := by
  obtain ⟨ofRequest, ofResponse⟩ := @tenHttpSend_allOrNothing_iff letterRequest
    (literalString "/letters") rfl (by rintro _ ⟨⟩; exact letterBody_valid) letterResponse
    (by rintro _ ⟨⟩; exact letterBody_valid) (literalString "localhost")
    (fun request => request ≠ 3) default
  constructor
  · rw [ofRequest, not_not]
    exact ⟨rfl, 2, by decide, rfl⟩
  · apply ofResponse.mpr
    rintro ⟨-, k, below, refused⟩
    have needed : growthsNeeded 0 0 ((responsePieces letterResponse).map List.length) = 2 := by
      decide
    rw [needed] at below
    have last : 0 + 1 + k = 3 := of_not_not (of_decide_eq_false refused)
    omega

/-- The response 200 without headers and body. -/
def plainResponse : TenHttpResponse := { status := 200, headers := .none, body := none }

/-- The block for the status line is refused, the one for the lines behind it is
granted, and these are sent. -/
theorem not_sendsAllOrNothing_plain :
    ¬ SendsAllOrNothing (fun transport sock => tenHttpSendResponse transport sock plainResponse)
      (fun request => request ≠ 1) ⟨0, .ok, 0⟩ := by
  intro all
  have here := all chunkwise (.connected [])
  have cut : tenHttpSendResponse chunkwise (.connected []) plainResponse
      (fun request => request ≠ 1) ⟨0, .ok, 0⟩ = some ((.ok,
        { outgoing := literal "Content-Length: 0\r\nConnection: close\r\n\r\n", incoming := []
          sendCalls := 1, receiveCalls := 0 }), ⟨3, .ok, 0⟩) := rfl
  have whole : tenHttpSendResponse chunkwise (.connected []) plainResponse
      (fun _ => true) ⟨0, .ok, 0⟩ = some ((.ok,
        { outgoing := literal
            "HTTP/1.1 200 OK\r\nContent-Length: 0\r\nConnection: close\r\n\r\n"
          incoming := [], sendCalls := 1, receiveCalls := 0 }), ⟨3, .ok, 0⟩) := rfl
  dsimp only at here
  rw [returns_iff_of_run cut, returns_iff_of_run whole] at here
  rcases here with same | ⟨-, fails⟩
  · exact absurd (congrArg List.length same) (by decide)
  · exact fails rfl

end Examples

end Dotten
