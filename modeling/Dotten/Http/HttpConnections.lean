/-
Module: Dotten.Http.HttpConnections
Layer: Http
Purpose: A connection from the first byte received to the last one sent: what
  the handler and the caller of the client get to see of the stream.
Imports: Dotten.Http.HttpReception
Main exports: tenHttpHandleConnection_read, RequestSent,
  tenHttpClientSend_read
-/
import Dotten.Http.HttpReception

namespace Dotten

open Dotten.Library

/-- Two sockets have the same bytes to receive, and the same calls behind
them. -/
structure TenSocket.SameReceiving (before after : TenSocket) : Prop where
  incoming : after.incoming = before.incoming
  calls : after.receiveCalls = before.receiveCalls

theorem TenSocket.SameReceiving.refl (sock : TenSocket) : sock.SameReceiving sock := ⟨rfl, rfl⟩

theorem TenSocket.SameReceiving.trans {first second third : TenSocket}
    (one : first.SameReceiving second) (two : second.SameReceiving third) :
    first.SameReceiving third :=
  ⟨two.incoming.trans one.incoming, two.calls.trans one.calls⟩

section Sending

variable {grants : Schedule} {world : World} {transport : Transport}

theorem tenSocketSend_keeps (sock : TenSocket) (data : Bytes) (size : Nat) :
    Returns (tenSocketSend transport sock data size) grants world (fun reply _ =>
      sock.SameReceiving reply.2) := by
  unfold tenSocketSend
  cases transport.sends sock.sendCalls <;>
    simp only [returns_bind, returns_tenSetError, returns_pure] <;> exact ⟨rfl, rfl⟩

/-- Sending ends, and takes nothing from what there is to receive. -/
theorem tenHttpSendAllLoop_keeps {data : Bytes} {size : Nat} :
    ∀ {steps : Nat} {sock : TenSocket} {sent : Nat} {world : World}, size - sent < steps →
      Returns (tenHttpSendAllLoop transport data size steps sock sent) grants world
        (fun reply _ => sock.SameReceiving reply.2) := by
  intro steps
  induction steps with
  | zero =>
      intro sock sent world enough
      omega
  | succ steps inductionHypothesis =>
      intro sock sent world enough
      rw [tenHttpSendAllLoop]
      apply returns_ite
      · intro unfinished
        rw [returns_bind]
        apply ((tenSocketSend_spec (by omega)).and (tenSocketSend_keeps sock _ _)).mono
        rintro ⟨reply, after⟩ _ ⟨outcome, kept⟩
        dsimp only at outcome kept ⊢
        apply returns_ite
        · intro _
          rw [returns_pure]
          exact kept
        · intro positive
          cases outcome with
          | failed => omega
          | accepted =>
              apply (inductionHypothesis (by omega)).mono
              intro reply _ rest
              exact kept.trans rest
      · intro _
        rw [returns_pure]
        exact .refl sock

theorem tenHttpPut_returns (out : TenBuffer) (text : Bytes) :
    Returns (tenHttpPut out text) grants world (fun _ _ => True) := by
  simp only [tenHttpPut, returns_bind, returns_pure]
  exact tenBufferWrite_returns out _ _

theorem tenHttpWriteHeaders_returns (pairs : List (CString × CString)) :
    ∀ {out : TenBuffer} {world : World},
      Returns (tenHttpWriteHeaders out pairs) grants world (fun _ _ => True) := by
  induction pairs with
  | nil =>
      intro out world
      simp [tenHttpWriteHeaders]
  | cons pair rest inductionHypothesis =>
      intro out world
      simp only [tenHttpWriteHeaders, returns_bind]
      apply (tenHttpPut_returns out _).mono
      intro one _ _
      apply (tenHttpPut_returns one _).mono
      intro two _ _
      apply (tenHttpPut_returns two _).mono
      intro three _ _
      apply (tenHttpPut_returns three _).mono
      intro four _ _
      exact inductionHypothesis

theorem tenHttpPutBody_returns (out : TenBuffer) (body : Option TenBuffer) (bodySize : Nat) :
    Returns (tenHttpPutBody out body bodySize) grants world (fun _ _ => True) := by
  unfold tenHttpPutBody
  cases body with
  | none => simp
  | some body =>
      apply returns_ite
      · intro _
        simp only [returns_bind, returns_tenBufferData, returns_pure]
        exact tenBufferWrite_returns out _ _
      · intro _
        simp

theorem tenHttpSendMessage_keeps (sock : TenSocket) (out : TenBuffer) (headers : TenHttpHeaders)
    (body : Option TenBuffer) :
    Returns (tenHttpSendMessage transport sock out headers body) grants world (fun reply _ =>
      sock.SameReceiving reply.2) := by
  have finish : ∀ {out : TenBuffer} {bodySize : Nat} {now : World},
      Returns (do
        let out ← tenHttpPut out (snprintf tenHttpLineBuf
          (literal "Content-Length: " ++ formatUnsigned bodySize ++ crlf ++
            literal "Connection: close" ++ crlf ++ crlf))
        let out ← tenHttpPutBody out body bodySize
        let data ← tenBufferData out
        let size ← tenBufferSize out
        tenHttpSendAll transport sock data size) grants now (fun reply _ =>
      sock.SameReceiving reply.2) := by
    intro out bodySize now
    rw [returns_bind]
    apply (tenHttpPut_returns out _).mono
    intro closed _ _
    rw [returns_bind]
    apply (tenHttpPutBody_returns closed body bodySize).mono
    intro whole _ _
    simp only [returns_bind, returns_tenBufferData, returns_tenBufferSize]
    exact tenHttpSendAllLoop_keeps (by omega)
  rw [tenHttpSendMessage, returns_bind]
  apply (tenHttpWriteHeaders_returns headers.pairs).mono
  intro written _ _
  cases body with
  | none =>
      simp only [tenHttpBodySize, returns_bind, returns_pure] at finish ⊢
      exact finish
  | some body =>
      rw [returns_bind, tenHttpBodySize, returns_tenBufferSize]
      exact finish

/-- A response is sent, or an error returned. -/
theorem tenHttpSendResponse_keeps (sock : TenSocket) (response : TenHttpResponse) :
    Returns (tenHttpSendResponse transport sock response) grants world (fun reply _ =>
      sock.SameReceiving reply.2) := by
  simp only [tenHttpSendResponse, returns_bind]
  apply tenBufferCreate_spec.mono
  rintro reply _ (⟨rfl, -⟩ | ⟨out, rfl, -, -⟩)
  · simp only [returns_pure]
    exact .refl sock
  · simp only [returns_bind]
    apply (tenHttpPut_returns out _).mono
    intro started _ _
    exact tenHttpSendMessage_keeps sock started _ _

theorem tenHttpSendRequest_keeps (sock : TenSocket) {request : TenHttpRequest} {path : CString}
    (located : request.path = some path) (host : CString) :
    Returns (tenHttpSendRequest transport sock request host) grants world (fun reply _ =>
      sock.SameReceiving reply.2) := by
  simp only [tenHttpSendRequest, located, returns_bind]
  apply tenBufferCreate_spec.mono
  rintro reply _ (⟨rfl, -⟩ | ⟨out, rfl, -, -⟩)
  · simp only [returns_pure]
    exact .refl sock
  · simp only [returns_bind]
    apply (tenHttpPut_returns out _).mono
    intro started _ _
    apply (tenHttpPut_returns started _).mono
    intro hosted _ _
    exact tenHttpSendMessage_keeps sock hosted _ _

end Sending

section Specifications

variable {grants : Schedule} {world : World} {transport : Transport} (ample : Ample grants)

include ample

/-- The handler is called with what the stream is read as. -/
theorem tenHttpHandleConnection_read (handler : TenHttpHandler) (client : TenSocket) :
    Returns (tenHttpHandleConnection transport handler client) grants world (fun reply _ =>
      reply.1.map TenHttpRequest.content = readMessage transport requestLineParts client) := by
  rw [tenHttpHandleConnection, returns_bind]
  apply (tenHttpReceiveRequest_read ample client).mono
  rintro ⟨code, req⟩ _ ⟨content, -⟩
  cases req with
  | none =>
      apply returns_ite
      · intro _
        simp only [tenHttpResponseCreate, returns_bind, returns_tenMalloc_of_ample ample,
          returns_pure]
        apply (tenHttpSendResponse_keeps client _).mono
        intro _ _ _
        exact content
      · intro _
        rw [returns_pure]
        exact content
  | some req =>
      simp only [tenHttpResponseCreate, returns_bind, returns_tenMalloc_of_ample ample,
        returns_pure]
      refine ⟨_, _, rfl, ?_⟩
      apply (tenHttpSendResponse_keeps client _).mono
      intro _ _ _
      exact content

/-- The whole request is accepted by the transport. -/
def RequestSent (grants : Schedule) (world : World) (transport : Transport) (sock : TenSocket)
    (request : TenHttpRequest) (host : CString) : Prop :=
  Returns (tenHttpSendRequest transport sock request host) grants world (fun reply _ =>
    reply.1 = .ok)

/-- Once the request is sent, the response is what the stream is read as.  There
is none when it could not be sent, and an error with none. -/
theorem tenHttpClientSend_read (sock : TenSocket) {request : TenHttpRequest} {path : CString}
    (located : request.path = some path) (host : CString) :
    Returns (tenHttpClientSend transport (.ok sock) (some host) (some request)) grants world
      (fun reply after =>
        (RequestSent grants world transport sock request host →
          reply.map TenHttpResponse.content = readMessage transport responseLineStatus sock) ∧
        (¬ RequestSent grants world transport sock request host → reply = none) ∧
        (after.lastError = .ok ↔ reply.isSome = true)) := by
  obtain ⟨⟨rc, after⟩, now, run, kept⟩ :
      Returns (tenHttpSendRequest transport sock request host) grants world (fun reply _ =>
        sock.SameReceiving reply.2) :=
    tenHttpSendRequest_keeps sock located host
  have sent : RequestSent grants world transport sock request host ↔ rc = .ok := by
    constructor
    · intro sent
      exact sent.eq run
    · intro ok
      exact ⟨_, _, run, ok⟩
  simp only [tenHttpClientSend, returns_bind]
  refine ⟨_, _, run, ?_⟩
  rw [sent]
  apply returns_ite
  · intro failed
    simp only [returns_bind, returns_tenSetError, returns_pure]
    exact ⟨fun ok => absurd ok failed, fun _ => trivial, by simp⟩
  · intro ok
    have sameRead : readMessage transport responseLineStatus after =
        readMessage transport responseLineStatus sock := by
      rw [readMessage, readMessage, kept.incoming, kept.calls]
    apply (tenHttpReceiveResponse_read ample after).mono
    rintro reply _ ⟨content, answered⟩
    exact ⟨fun _ => content.trans sameRead, fun failed => absurd (not_not.mp ok) failed, answered⟩

end Specifications

end Dotten
