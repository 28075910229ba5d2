/-
Module: Dotten.Http.HttpSegmentation
Layer: Http
Purpose: How a stream is cut into chunks makes no difference to the request
  that is read from it, and the header reader stops in time on every stream.
Imports: Dotten.Http.HttpConnections
Main exports: streamMessage, readMessage_of_segments,
  tenHttpReadUntilHeadersEnd_bounded, tenHttpHandleConnection_segmentation
-/
import Dotten.Http.HttpConnections

namespace Dotten

open Dotten.Library

/-- What a stream is read as when all of it arrives: a function of its bytes. -/
def streamMessage {γ : Type} (parts : Bytes → Option γ) (stream : Bytes) :
    Option (HttpMessage γ) :=
  (findSlice (crlf ++ crlf) stream).bind fun i =>
    (readBlock parts (stream.take i)).map fun block =>
      { first := block.2.2
        headers := block.2.1
        body := (stream.drop (i + 4)).take block.1.toNat }

section Segments

variable {transport : Transport} (segments : transport.Segments)
include segments

/-- Of an announced body all arrives, or all there is. -/
theorem bodyReceived_of_segments (call left early announced : Nat) :
    bodyReceived transport call left early announced = min announced (early + left) := by
  rw [bodyReceived, bytesBrought_of_segments segments (Nat.lt_succ_self _)]
  omega

/-- A message is read from its bytes alone. -/
theorem readMessage_of_segments {γ : Type} (parts : Bytes → Option γ) {sock : TenSocket} {i : Nat}
    (blank : findSlice (crlf ++ crlf) sock.incoming = some i)
    (small : i + 4 ≤ tenHttpMaxHeaderSize) :
    readMessage transport parts sock = streamMessage parts sock.incoming := by
  obtain ⟨calls, arrived, all, inside⟩ : ∃ calls arrived,
      headersReceived transport sock.incoming (sock.incoming.length + 1) sock.receiveCalls 0 =
        some (i, calls, arrived) ∧ i + 4 ≤ arrived :=
    headersReceived_of_segments segments blank (by omega) (Nat.zero_le _) (by omega)
  rw [readMessage, all, streamMessage, blank]
  dsimp only [Option.bind_some]
  congr 1
  funext block
  rw [bodyReceived_of_segments segments]
  have enough : ((sock.incoming.drop (i + 4)).take (min block.1.toNat
      (arrived - (i + 4) + (sock.incoming.length - arrived)))) =
      (sock.incoming.drop (i + 4)).take block.1.toNat := by
    rw [List.take_eq_take_iff, List.length_drop]
    omega
  rw [enough]

end Segments

section Bound

variable {grants : Schedule} {transport : Transport}

/-- Whatever arrives, and whatever is refused, the reader stops before it has
received another chunk beyond the limit. -/
theorem tenHttpReadUntilHeadersEndLoop_bounded :
    ∀ {steps : Nat} {sock : TenSocket} {raw : TenBuffer} {world : World}, raw.Valid →
      raw.size ≤ tenHttpMaxHeaderSize + tenHttpChunkSize → sock.incoming.length < steps →
      Returns (tenHttpReadUntilHeadersEndLoop transport steps sock raw) grants world
        (fun reply _ => reply.2.1.size ≤ tenHttpMaxHeaderSize + tenHttpChunkSize) := by
  intro steps
  induction steps with
  | zero =>
      intro sock raw world _ _ enough
      omega
  | succ steps inductionHypothesis =>
      intro sock raw world valid bounded enough
      simp only [tenHttpReadUntilHeadersEndLoop, returns_bind, returns_tenBufferData,
        returns_tenBufferSize]
      apply returns_ite
      · intro _
        rw [returns_pure]
        exact bounded
      intro _
      apply returns_ite
      · intro _
        rw [returns_pure]
        exact bounded
      intro small
      rw [returns_bind]
      apply (tenSocketReceive_handOver sock tenHttpChunkSize).mono
      rintro ⟨reply, chunk, after⟩ _ handOver
      dsimp only at handOver ⊢
      apply returns_ite
      · intro _
        rw [returns_pure]
        exact bounded
      intro positive
      have some : 0 < transport.handsOver sock.receiveCalls tenHttpChunkSize
          sock.incoming.length :=
        Nat.pos_of_ne_zero (fun none => positive (handOver.ended none))
      have bounds := transport.handsOver_le sock.receiveCalls tenHttpChunkSize
        sock.incoming.length
      obtain ⟨rfl, rfl⟩ := handOver.count some
      rw [returns_bind]
      apply (tenBufferWrite_spec valid _ _).mono
      rintro ⟨code, grown⟩ _ ⟨-, outcome⟩
      dsimp only at outcome ⊢
      cases outcome with
      | refused shortage =>
          rw [if_pos (by simp), returns_pure]
          exact bounded
      | written validGrown contents =>
          rw [if_neg (by simp)]
          have size := validGrown.length_contents
          rw [contents, List.length_append, valid.length_contents, List.length_take,
            List.length_take] at size
          apply inductionHypothesis validGrown
          · omega
          · rw [handOver.incoming, List.length_drop]
            omega

theorem tenHttpReadUntilHeadersEnd_bounded {world : World} (sock : TenSocket) {raw : TenBuffer}
    (valid : raw.Valid) (empty : raw.size = 0) :
    Returns (tenHttpReadUntilHeadersEnd transport sock raw) grants world (fun reply _ =>
      reply.2.1.size ≤ tenHttpMaxHeaderSize + tenHttpChunkSize) :=
  tenHttpReadUntilHeadersEndLoop_bounded valid (by omega) (Nat.lt_succ_self _)

end Bound

/-- The handler is called with what the bytes of the stream say. -/
theorem tenHttpHandleConnection_of_segments {grants : Schedule} (ample : Ample grants)
    {transport : Transport} (segments : transport.Segments) {stream : Bytes} {i : Nat}
    (blank : findSlice (crlf ++ crlf) stream = some i) (small : i + 4 ≤ tenHttpMaxHeaderSize)
    (handler : TenHttpHandler) (world : World) :
    Returns (tenHttpHandleConnection transport handler (.connected stream)) grants world
      (fun reply _ =>
        reply.1.map TenHttpRequest.content = streamMessage requestLineParts stream) := by
  have same : readMessage transport requestLineParts (.connected stream) =
      streamMessage requestLineParts stream :=
    readMessage_of_segments segments requestLineParts blank small
  rw [← same]
  exact tenHttpHandleConnection_read ample handler _

/-- Two ways of cutting a stream into chunks lead to the same request, or both
to none, and on every stream the header reader holds at most one chunk more
than its limit. -/
theorem tenHttpHandleConnection_segmentation {grants : Schedule} (ample : Ample grants)
    {first second : Transport} (segmentsFirst : first.Segments) (segmentsSecond : second.Segments)
    {stream : Bytes} {i : Nat} (blank : findSlice (crlf ++ crlf) stream = some i)
    (small : i + 4 ≤ tenHttpMaxHeaderSize) (handler : TenHttpHandler) (world other : World) :
    (∃ seen : Option (HttpMessage TenRequestFirstLineCtx),
      Returns (tenHttpHandleConnection first handler (.connected stream)) grants world
        (fun reply _ => reply.1.map TenHttpRequest.content = seen) ∧
      Returns (tenHttpHandleConnection second handler (.connected stream)) grants other
        (fun reply _ => reply.1.map TenHttpRequest.content = seen)) ∧
    ∀ (transport : Transport) (sock : TenSocket) (raw : TenBuffer) (now : World),
      raw.Valid → raw.size = 0 →
      Returns (tenHttpReadUntilHeadersEnd transport sock raw) grants now
        (fun reply _ => reply.2.1.size ≤ 65536 + 4096) := by
  constructor
  · exact ⟨streamMessage requestLineParts stream,
      tenHttpHandleConnection_of_segments ample segmentsFirst blank small handler world,
      tenHttpHandleConnection_of_segments ample segmentsSecond blank small handler other⟩
  · intro transport sock raw now valid empty
    exact tenHttpReadUntilHeadersEnd_bounded sock valid empty

/-- A request of which the headers and the body come byte by byte, or in chunks
of seven bytes before the connection aborts. -/
theorem tenHttpHandleConnection_segmentation_hello :
    ∃ seen : Option (HttpMessage TenRequestFirstLineCtx),
      Returns (tenHttpHandleConnection bytewise (fun _ response _ world => (response, world))
          (.connected (literal "POST /echo HTTP/1.1\r\nContent-Length: 5\r\n\r\nhello")))
          (fun _ => true) default (fun reply _ => reply.1.map TenHttpRequest.content = seen) ∧
      Returns (tenHttpHandleConnection ⟨fun _ => some 1, fun _ => some 7, true⟩
          (fun _ response _ world => (response, world))
          (.connected (literal "POST /echo HTTP/1.1\r\nContent-Length: 5\r\n\r\nhello")))
          (fun _ => true) default (fun reply _ => reply.1.map TenHttpRequest.content = seen) :=
  (tenHttpHandleConnection_segmentation ample_always bytewise_delivers.segments
    (fun call => by simp) (i := 38) (by decide) (by decide) _ default default).1

end Dotten
