/-
Module: Dotten.Http.HttpTransfer
Layer: Http
Purpose: What the loops of http.c move between a buffer and a socket, however
  the transport divides the bytes among the calls.
Imports: Dotten.Http.TenHttp
Main exports: tenHttpPut_spec, tenHttpSendAll_spec, headersReceived,
  bytesBrought, tenHttpReadUntilHeadersEnd_reads, tenHttpReadUntilHeadersEnd_spec,
  tenHttpReadBody_spec,
  tenHttpReadUntilHeadersEnd_of_segments, tenHttpReadBody_of_segments
-/
import Dotten.Http.TenHttp

namespace Dotten

open Dotten.Library

variable {grants : Schedule} {world : World} {transport : Transport}

theorem SendOutcome.of_delivers {sock after : TenSocket} {data : Bytes} {size : Nat} {reply : Int}
    (delivers : transport.Delivers) (outcome : SendOutcome transport sock data size reply after) :
    ∃ n : Nat, reply = n ∧ 0 < n ∧ n ≤ size ∧ after.outgoing = sock.outgoing ++ data.take n := by
  cases outcome with
  | failed broken => exact absurd delivers broken
  | accepted positive atMost outgoing => exact ⟨_, rfl, positive, atMost, outgoing⟩

/-- The transport that moves 4096 bytes a call. -/
def chunkwise : Transport where
  sends _ := some tenHttpChunkSize
  receives _ := some tenHttpChunkSize
  aborts := false

theorem chunkwise_segments : chunkwise.Segments := by
  simp [Transport.Segments, chunkwise]

section Sending

/-- From the byte `sent` on, the loop sends the rest. -/
theorem tenHttpSendAllLoop_spec (delivers : transport.Delivers) {data : Bytes} {size : Nat}
    (whole : size ≤ data.length) :
    ∀ {steps : Nat} {sock : TenSocket} {sent : Nat} {world : World}, size - sent < steps →
      Returns (tenHttpSendAllLoop transport data size steps sock sent) grants world
        (fun reply _ => reply.1 = .ok ∧
          reply.2.outgoing = sock.outgoing ++ (data.take size).drop sent) := by
  intro steps
  induction steps with
  | zero =>
      intro sock sent world enough
      omega
  | succ steps inductionHypothesis =>
      intro sock sent world enough
      rw [tenHttpSendAllLoop]
      apply returns_ite
      · intro unfinished
        rw [returns_bind]
        apply (tenSocketSend_spec (by omega)).mono
        rintro ⟨reply, after⟩ _ outcome
        obtain ⟨n, rfl, positive, atMost, outgoing⟩ := outcome.of_delivers delivers
        dsimp only at outgoing ⊢
        rw [if_neg (by omega)]
        apply (inductionHypothesis (by omega)).mono
        rintro reply _ ⟨ok, sentAll⟩
        refine ⟨ok, ?_⟩
        have next : (data.take size).drop sent =
            (data.drop sent).take n ++ (data.take size).drop (sent + n) := by
          rw [← List.drop_drop, List.drop_take]
          have first : (data.drop sent).take n = ((data.drop sent).take (size - sent)).take n := by
            rw [List.take_take, Nat.min_eq_left atMost]
          rw [first, List.take_append_drop]
        rw [sentAll, outgoing, List.append_assoc, next]
        rfl
      · intro finished
        rw [returns_pure]
        refine ⟨rfl, ?_⟩
        rw [List.drop_eq_nil_of_le (by rw [List.length_take]; omega), List.append_nil]

/-- `ten__http_send_all` sends all. -/
theorem tenHttpSendAll_spec (delivers : transport.Delivers) (sock : TenSocket) {data : Bytes}
    {size : Nat} (whole : size ≤ data.length) :
    Returns (tenHttpSendAll transport sock data size) grants world (fun reply _ =>
      reply.1 = .ok ∧ reply.2.outgoing = sock.outgoing ++ data.take size) := by
  apply (tenHttpSendAllLoop_spec delivers whole (by omega)).mono
  intro reply _ sent
  simpa using sent

end Sending

section Writing

variable (ample : Ample grants)
include ample

/-- Writing without looking at the return code appends when memory is ample. -/
theorem tenHttpPut_spec {out : TenBuffer} (valid : out.Valid) (text : Bytes) :
    Returns (tenHttpPut out text) grants world (fun after _ =>
      after.Valid ∧ after.contents = out.contents ++ text) := by
  simp only [tenHttpPut, returns_bind]
  apply (tenBufferWrite_spec valid text text.length).mono
  rintro ⟨code, after⟩ _ ⟨-, outcome⟩
  obtain ⟨-, validAfter, contents⟩ := outcome.of_ample ample
  rw [returns_pure]
  rw [List.take_length] at contents
  exact ⟨validAfter, contents⟩

end Writing

section Reception

variable (transport : Transport)

/-- How the header reader fares with a stream: the place of the blank line, the
calls made and the bytes received when it has the blank line.  So far it has
made `call` calls and received the first `received` bytes. -/
def headersReceived (stream : Bytes) : Nat → Nat → Nat → Option (Nat × Nat × Nat)
  | 0, _, _ => none
  | steps + 1, call, received =>
      match findSlice (crlf ++ crlf) (stream.take received) with
      | some i => some (i, call, received)
      | none =>
          if received > tenHttpMaxHeaderSize then none
          else
            let n := transport.handsOver call tenHttpChunkSize (stream.length - received)
            if n = 0 then none else headersReceived stream steps (call + 1) (received + n)

/-- The number of bytes that the transport brings, from a given call on and with
`left` bytes of the stream left, to a reader that still wants `wanted` bytes. -/
def bytesBrought : Nat → Nat → Nat → Nat → Nat
  | 0, _, _, _ => 0
  | steps + 1, call, left, wanted =>
      let n := transport.handsOver call (min wanted tenHttpChunkSize) left
      if n = 0 then 0 else n + bytesBrought steps (call + 1) (left - n) (wanted - n)

variable {transport}

/-- A transport that loses nothing brings what is wanted, or all there is. -/
theorem bytesBrought_of_segments (segments : transport.Segments) :
    ∀ {steps call left wanted : Nat}, left < steps →
      bytesBrought transport steps call left wanted = min left wanted := by
  intro steps
  induction steps with
  | zero =>
      intro call left wanted enough
      omega
  | succ steps inductionHypothesis =>
      intro call left wanted enough
      have bounds := transport.handsOver_le call (min wanted tenHttpChunkSize) left
      rw [bytesBrought]
      by_cases finished : wanted = 0 ∨ left = 0
      · rw [if_pos (by omega)]
        omega
      · have positive : 0 < transport.handsOver call (min wanted tenHttpChunkSize) left :=
          segments.handsOver_pos (by rw [tenHttpChunkSize]; omega) (by omega)
        rw [if_neg (by omega), inductionHypothesis (by omega)]
        omega

theorem bytesBrought_le : ∀ {steps call left wanted : Nat},
    bytesBrought transport steps call left wanted ≤ min left wanted := by
  intro steps
  induction steps with
  | zero =>
      intro call left wanted
      exact Nat.zero_le _
  | succ steps inductionHypothesis =>
      intro call left wanted
      have bounds := transport.handsOver_le call (min wanted tenHttpChunkSize) left
      have rest := @inductionHypothesis (call + 1)
        (left - transport.handsOver call (min wanted tenHttpChunkSize) left)
        (wanted - transport.handsOver call (min wanted tenHttpChunkSize) left)
      rw [bytesBrought]
      split <;> omega

theorem blank_within {stream : Bytes} {i : Nat}
    (blank : findSlice (crlf ++ crlf) stream = some i) : i + 4 ≤ stream.length := by
  have inside := ((findSlice_eq_some_iff (by simp)).mp blank).1.length_le
  simp only [List.length_append, List.length_cons, List.length_nil, List.length_drop] at inside
  omega

/-- Whether the blank line has been received. -/
theorem blank_received {stream : Bytes} {i : Nat}
    (blank : findSlice (crlf ++ crlf) stream = some i) (received : Nat) :
    findSlice (crlf ++ crlf) (stream.take received) =
      if i + 4 ≤ received then some i else none := by
  have search := findSlice_take (by simp) blank received
  simpa using search

/-- A transport that loses nothing brings the whole of a block that is not too
long. -/
theorem headersReceived_of_segments (segments : transport.Segments) {stream : Bytes} {i : Nat}
    (blank : findSlice (crlf ++ crlf) stream = some i) (small : i + 4 ≤ tenHttpMaxHeaderSize + 1) :
    ∀ {steps call received : Nat}, received ≤ stream.length → stream.length - received < steps →
      ∃ calls arrived, headersReceived transport stream steps call received =
        some (i, calls, arrived) ∧ i + 4 ≤ arrived := by
  have inside := blank_within blank
  intro steps
  induction steps with
  | zero =>
      intro call received _ enough
      omega
  | succ steps inductionHypothesis =>
      intro call received _ enough
      rw [headersReceived, blank_received blank]
      by_cases arrived : i + 4 ≤ received
      · rw [if_pos arrived]
        exact ⟨call, received, rfl, arrived⟩
      · have bounds := transport.handsOver_le call tenHttpChunkSize (stream.length - received)
        have positive : 0 < transport.handsOver call tenHttpChunkSize (stream.length - received) :=
          segments.handsOver_pos (by decide) (by omega)
        rw [if_neg arrived]
        dsimp only
        rw [if_neg (by omega), if_neg (by omega)]
        exact inductionHypothesis (by omega) (by omega)

end Reception

section Receiving

theorem tenFindCrlfCrlf_data (raw : TenBuffer) :
    tenFindCrlfCrlf raw.data raw.size = findSlice (crlf ++ crlf) raw.contents := rfl

/-- The blank line is found as soon as all of it has been received. -/
theorem tenFindCrlfCrlf_received {raw : TenBuffer} {stream rest : Bytes} {i : Nat}
    (received : raw.contents ++ rest = stream) (blank : findSlice (crlf ++ crlf) stream = some i) :
    tenFindCrlfCrlf raw.data raw.size =
      if i + 4 ≤ raw.contents.length then some i else none := by
  have start : raw.contents = stream.take raw.contents.length := by
    rw [← received, List.take_left]
  rw [tenFindCrlfCrlf_data, start, blank_received blank, ← start]

/-- What has come with the headers, followed by what is brought after it. -/
theorem take_append_brought {early late : Bytes} {earlyLen size brought : Nat}
    (whole : earlyLen ≤ early.length) (atMost : brought ≤ min late.length (size - earlyLen)) :
    (early.take earlyLen ++ late).take (min earlyLen size + brought) =
      early.take (min earlyLen size) ++ late.take brought := by
  have length : (early.take earlyLen).length = earlyLen := by
    rw [List.length_take, Nat.min_eq_left whole]
  rw [List.take_append, length, List.take_take]
  rcases Nat.le_total size earlyLen with short | long
  · have none : brought = 0 := by omega
    rw [none, List.take_zero]
    congr 2 <;> simp [short]
  · congr 2 <;> omega

/-- What the header reader returns: the bytes up to the blank line or beyond it,
none of them lost. -/
inductive HeadersRead (stream : Bytes) :
    Option (Nat × Nat × Nat) → Bool → TenBuffer → TenSocket → Prop where
  | missing {raw : TenBuffer} {sock : TenSocket} : HeadersRead stream none false raw sock
  | found {i : Nat} {raw : TenBuffer} {sock : TenSocket} (valid : raw.Valid)
      (received : raw.contents ++ sock.incoming = stream)
      (blank : findSlice (crlf ++ crlf) raw.contents = some i) :
      HeadersRead stream (some (i, sock.receiveCalls, raw.contents.length)) true raw sock

/-- What has been received goes behind what the buffer holds, unless the buffer may
not grow. -/
theorem tenBufferWrite_received {sock after : TenSocket} {asked : Nat} {reply : Int} {chunk : Bytes}
    {buffer : TenBuffer} (valid : buffer.Valid)
    (handOver : HandOver transport sock asked reply chunk after)
    (something : transport.handsOver sock.receiveCalls asked sock.incoming.length ≠ 0) :
    ¬ reply ≤ 0 ∧ Returns (tenBufferWrite buffer (some chunk) reply.toNat) grants world
      (fun out _ => (out = (.outOfMemory, buffer) ∧ ¬ Ample grants) ∨
        (out.1 = .ok ∧ out.2.Valid ∧
          out.2.contents = buffer.contents ++ sock.incoming.take
            (transport.handsOver sock.receiveCalls asked sock.incoming.length) ∧
          out.2.contents.length = buffer.size +
            transport.handsOver sock.receiveCalls asked sock.incoming.length)) := by
  have bounds := transport.handsOver_le sock.receiveCalls asked sock.incoming.length
  obtain ⟨rfl, rfl⟩ := handOver.count (Nat.pos_of_ne_zero something)
  refine ⟨by omega, ?_⟩
  apply (tenBufferWrite_spec valid _ _).mono
  rintro ⟨code, grown⟩ _ ⟨-, outcome⟩
  cases outcome with
  | refused shortage => exact .inl ⟨rfl, shortage⟩
  | written validGrown contents =>
      rw [Int.toNat_natCast, List.take_take, Nat.min_self] at contents
      refine .inr ⟨rfl, validGrown, contents, ?_⟩
      rw [contents, List.length_append, List.length_take, valid.length_contents]
      omega

theorem tenHttpReadUntilHeadersEndLoop_reads {stream : Bytes} :
    ∀ {steps : Nat} {sock : TenSocket} {raw : TenBuffer} {world : World}, raw.Valid →
      raw.contents ++ sock.incoming = stream → sock.incoming.length < steps →
      Returns (tenHttpReadUntilHeadersEndLoop transport steps sock raw) grants world
        (fun reply _ => (reply.1 = false ∧ ¬ Ample grants) ∨ HeadersRead stream
          (headersReceived transport stream steps sock.receiveCalls raw.contents.length)
          reply.1 reply.2.1 reply.2.2) := by
  intro steps
  induction steps with
  | zero =>
      intro sock raw world valid received enough
      omega
  | succ steps inductionHypothesis =>
      intro sock raw world valid received enough
      have size := valid.length_contents
      have start : stream.take raw.contents.length = raw.contents := by
        rw [← received, List.take_left]
      have left : stream.length - raw.contents.length = sock.incoming.length := by
        rw [← received, List.length_append, Nat.add_sub_cancel_left]
      simp only [tenHttpReadUntilHeadersEndLoop, returns_bind, returns_tenBufferData,
        returns_tenBufferSize]
      rw [headersReceived, start, left, tenFindCrlfCrlf_data]
      cases blank : findSlice (crlf ++ crlf) raw.contents with
      | some i =>
          simp only [Option.isSome_some, if_true, returns_pure]
          exact .inr (.found valid received blank)
      | none =>
          rw [if_neg (by simp)]
          dsimp only
          rw [size]
          by_cases full : raw.size > tenHttpMaxHeaderSize
          · rw [if_pos full, if_pos full, returns_pure]
            exact .inr .missing
          rw [if_neg full, if_neg full, returns_bind]
          apply (tenSocketReceive_handOver sock tenHttpChunkSize).mono
          rintro ⟨reply, chunk, after⟩ _ handOver
          have bounds := transport.handsOver_le sock.receiveCalls tenHttpChunkSize
            sock.incoming.length
          by_cases nothing : transport.handsOver sock.receiveCalls tenHttpChunkSize
              sock.incoming.length = 0
          · have ended := handOver.ended nothing
            dsimp only at ended ⊢
            rw [if_pos nothing, if_pos ended, returns_pure]
            exact .inr .missing
          · obtain ⟨positive, written⟩ :=
              tenBufferWrite_received valid handOver nothing
            have incoming := handOver.incoming
            have calls := handOver.calls
            dsimp only at positive incoming calls ⊢
            rw [if_neg nothing, if_neg positive, returns_bind]
            apply written.mono
            rintro ⟨code, grown⟩ _ (⟨refused, shortage⟩ | ⟨rfl, validGrown, contents, more⟩)
            · cases refused
              dsimp only
              rw [if_pos (by simp), returns_pure]
              exact .inl ⟨rfl, shortage⟩
            · dsimp only at contents more ⊢
              rw [if_neg (by simp), ← more, ← calls]
              apply inductionHypothesis validGrown
              · rw [contents, incoming, List.append_assoc, List.take_append_drop, received]
              · rw [incoming, List.length_drop]
                omega

/-- `ten__http_read_until_headers_end` into a buffer that is empty, whatever is
refused. -/
theorem tenHttpReadUntilHeadersEnd_reads {sock : TenSocket} {raw : TenBuffer} (valid : raw.Valid)
    (empty : raw.contents = []) :
    Returns (tenHttpReadUntilHeadersEnd transport sock raw) grants world (fun reply _ =>
      (reply.1 = false ∧ ¬ Ample grants) ∨ HeadersRead sock.incoming
        (headersReceived transport sock.incoming (sock.incoming.length + 1) sock.receiveCalls 0)
        reply.1 reply.2.1 reply.2.2) := by
  have whole : raw.contents ++ sock.incoming = sock.incoming := by rw [empty, List.nil_append]
  have start : raw.contents.length = 0 := by rw [empty, List.length_nil]
  rw [← start]
  exact tenHttpReadUntilHeadersEndLoop_reads valid whole (Nat.lt_succ_self _)

variable (ample : Ample grants)
include ample

/-- `ten__http_read_until_headers_end` into a buffer that is empty. -/
theorem tenHttpReadUntilHeadersEnd_spec {sock : TenSocket} {raw : TenBuffer} (valid : raw.Valid)
    (empty : raw.contents = []) :
    Returns (tenHttpReadUntilHeadersEnd transport sock raw) grants world (fun reply _ =>
      HeadersRead sock.incoming
        (headersReceived transport sock.incoming (sock.incoming.length + 1) sock.receiveCalls 0)
        reply.1 reply.2.1 reply.2.2) := by
  apply (tenHttpReadUntilHeadersEnd_reads valid empty).mono
  rintro reply _ (⟨-, shortage⟩ | read)
  · exact absurd ample shortage
  · exact read

theorem tenHttpReadBodyLoop_spec {contentLength : Nat} :
    ∀ {steps : Nat} {sock : TenSocket} {body : TenBuffer} {world : World}, body.Valid →
      body.contents.length ≤ contentLength → sock.incoming.length < steps →
      Returns (tenHttpReadBodyLoop transport contentLength steps sock body) grants world
        (fun reply _ => reply.1.Valid ∧ reply.1.contents = body.contents ++ sock.incoming.take
          (bytesBrought transport steps sock.receiveCalls sock.incoming.length
            (contentLength - body.contents.length))) := by
  intro steps
  induction steps with
  | zero =>
      intro sock body world valid atMost enough
      omega
  | succ steps inductionHypothesis =>
      intro sock body world valid atMost enough
      have size := valid.length_contents
      simp only [tenHttpReadBodyLoop, returns_bind, returns_tenBufferSize]
      rw [bytesBrought, size, Int.toNat_natCast]
      have asked : (if contentLength - body.size < tenHttpChunkSize then
          contentLength - body.size else tenHttpChunkSize) =
          min (contentLength - body.size) tenHttpChunkSize := by
        split <;> omega
      rw [asked]
      have bounds := transport.handsOver_le sock.receiveCalls
        (min (contentLength - body.size) tenHttpChunkSize) sock.incoming.length
      apply returns_ite
      · intro unfinished
        rw [returns_bind]
        apply (tenSocketReceive_handOver sock _).mono
        rintro ⟨reply, chunk, after⟩ _ handOver
        by_cases nothing : transport.handsOver sock.receiveCalls
            (min (contentLength - body.size) tenHttpChunkSize) sock.incoming.length = 0
        · have ended := handOver.ended nothing
          dsimp only at ended ⊢
          rw [if_pos nothing, if_pos ended, returns_pure, List.take_zero, List.append_nil]
          exact ⟨valid, rfl⟩
        · obtain ⟨positive, written⟩ :=
            tenBufferWrite_received valid handOver nothing
          have incoming := handOver.incoming
          have calls := handOver.calls
          dsimp only at positive incoming calls ⊢
          rw [if_neg nothing, if_neg positive, returns_bind]
          apply written.mono
          rintro ⟨code, grown⟩ _ (⟨-, shortage⟩ | ⟨-, validGrown, contents, more⟩)
          · exact absurd ample shortage
          dsimp only at validGrown contents more ⊢
          apply (inductionHypothesis validGrown (by omega) (by
            rw [incoming, List.length_drop]
            omega)).mono
          rintro ⟨last, rest⟩ _ ⟨validLast, all⟩
          refine ⟨validLast, ?_⟩
          rw [all, more, incoming, calls, contents, List.length_drop, List.append_assoc,
            ← List.take_add, Nat.sub_sub]
      · intro finished
        rw [returns_pure]
        have full : contentLength - body.size = 0 := by omega
        rw [full, Nat.zero_min] at bounds ⊢
        rw [if_pos (by omega), List.take_zero, List.append_nil]
        exact ⟨valid, rfl⟩

/-- `ten__http_read_body` yields the bytes that came with the headers and those
that the transport brings, as far as they belong to the announced body. -/
theorem tenHttpReadBody_spec (sock : TenSocket) (contentLength : Int) (bodyPrefix : Bytes)
    {bodyPrefixLen : Nat} (whole : bodyPrefixLen ≤ bodyPrefix.length) :
    Returns (tenHttpReadBody transport sock contentLength bodyPrefix bodyPrefixLen) grants world
      (fun reply _ => ∃ body, reply.1 = some body ∧ body.Valid ∧
        body.contents = (bodyPrefix.take bodyPrefixLen ++ sock.incoming).take
          (min bodyPrefixLen contentLength.toNat +
            bytesBrought transport (sock.incoming.length + 1) sock.receiveCalls
              sock.incoming.length (contentLength.toNat - bodyPrefixLen))) := by
  simp only [tenHttpReadBody, returns_bind]
  apply tenBufferCreate_spec.mono
  rintro reply _ (⟨rfl, shortage⟩ | ⟨body, rfl, valid, contents⟩)
  · exact absurd ample shortage
  · apply returns_ite
    · intro none
      rw [returns_pure]
      refine ⟨body, rfl, valid, ?_⟩
      have nothing : bytesBrought transport (sock.incoming.length + 1) sock.receiveCalls
          sock.incoming.length 0 = 0 :=
        Nat.eq_zero_of_le_zero (bytesBrought_le.trans (Nat.min_le_right _ _))
      rw [contents, Int.toNat_of_nonpos none, Nat.zero_sub, nothing, Nat.min_zero, List.take_zero]
    · intro some
      obtain ⟨size, rfl⟩ : ∃ size : Nat, contentLength = size := ⟨contentLength.toNat, by omega⟩
      rw [Int.toNat_natCast]
      have first : (if bodyPrefixLen < size then bodyPrefixLen else size) =
          min bodyPrefixLen size := by
        split <;> omega
      rw [first]
      -- Whether the prefix is empty or not, the body starts with it.
      have finishes : ∀ {start : TenBuffer} {now : World}, start.Valid →
          start.contents = bodyPrefix.take (min bodyPrefixLen size) →
          Returns (tenHttpReadBodyLoop transport size (sock.incoming.length + 1) sock start)
            grants now (fun reply _ => reply.1.Valid ∧ reply.1.contents =
              (bodyPrefix.take bodyPrefixLen ++ sock.incoming).take (min bodyPrefixLen size +
                bytesBrought transport (sock.incoming.length + 1) sock.receiveCalls
                  sock.incoming.length (size - bodyPrefixLen))) := by
        intro start now validStart contentsStart
        have length : start.contents.length = min bodyPrefixLen size := by
          rw [contentsStart, List.length_take]
          omega
        apply (tenHttpReadBodyLoop_spec ample validStart (by omega) (Nat.lt_succ_self _)).mono
        rintro ⟨last, rest⟩ _ ⟨validLast, contentsLast⟩
        refine ⟨validLast, ?_⟩
        have missing : size - min bodyPrefixLen size = size - bodyPrefixLen := by omega
        rw [contentsLast, length, missing, contentsStart]
        exact (take_append_brought whole bytesBrought_le).symm
      apply returns_ite
      · intro positive
        simp only [returns_bind, returns_pure]
        apply (tenBufferWrite_spec valid _ _).mono
        rintro ⟨code, start⟩ _ ⟨-, outcome⟩
        obtain ⟨-, validStart, written⟩ := outcome.of_ample ample
        rw [contents, List.nil_append] at written
        apply (finishes validStart written).mono
        rintro reply _ ⟨validLast, contentsLast⟩
        exact ⟨reply.1, rfl, validLast, contentsLast⟩
      · intro empty
        simp only [returns_bind, returns_pure]
        have nothing : body.contents = bodyPrefix.take (min bodyPrefixLen size) := by
          rw [contents, Nat.eq_zero_of_not_pos empty, List.take_zero]
        apply (finishes valid nothing).mono
        rintro reply _ ⟨validLast, contentsLast⟩
        exact ⟨reply.1, rfl, validLast, contentsLast⟩

section Segments

variable (segments : transport.Segments)
include segments

/-- The blank line of a block that is not too long is found, and nothing is
lost. -/
theorem tenHttpReadUntilHeadersEnd_of_segments {sock : TenSocket} {raw : TenBuffer} {i : Nat}
    (blank : findSlice (crlf ++ crlf) sock.incoming = some i)
    (small : i + 4 ≤ tenHttpMaxHeaderSize + 1) (valid : raw.Valid) (empty : raw.contents = []) :
    Returns (tenHttpReadUntilHeadersEnd transport sock raw) grants world (fun reply _ =>
      reply.1 = true ∧ reply.2.1.Valid ∧
        reply.2.1.contents ++ reply.2.2.incoming = sock.incoming ∧
        i + 4 ≤ reply.2.1.contents.length) := by
  obtain ⟨calls, arrived, all, inside⟩ : ∃ calls arrived,
      headersReceived transport sock.incoming (sock.incoming.length + 1) sock.receiveCalls 0 =
        some (i, calls, arrived) ∧ i + 4 ≤ arrived :=
    headersReceived_of_segments segments blank small (Nat.zero_le _) (by omega)
  apply (tenHttpReadUntilHeadersEnd_spec ample valid empty).mono
  rintro ⟨found, after, rest⟩ _ read
  rw [all] at read
  cases read with
  | found validAfter received _ => exact ⟨rfl, validAfter, received, inside⟩

/-- The body has the announced number of bytes, or as many as there are. -/
theorem tenHttpReadBody_of_segments (sock : TenSocket) (contentLength : Int) (bodyPrefix : Bytes)
    {bodyPrefixLen : Nat} (whole : bodyPrefixLen ≤ bodyPrefix.length) :
    Returns (tenHttpReadBody transport sock contentLength bodyPrefix bodyPrefixLen) grants world
      (fun reply _ => ∃ body, reply.1 = some body ∧ body.Valid ∧
        body.contents =
          (bodyPrefix.take bodyPrefixLen ++ sock.incoming).take contentLength.toNat) := by
  apply (tenHttpReadBody_spec ample sock contentLength bodyPrefix whole).mono
  rintro reply _ ⟨body, same, valid, contents⟩
  refine ⟨body, same, valid, ?_⟩
  rw [contents, bytesBrought_of_segments segments (Nat.lt_succ_self _)]
  have all : (bodyPrefix.take bodyPrefixLen ++ sock.incoming).length =
      bodyPrefixLen + sock.incoming.length := by
    rw [List.length_append, List.length_take, Nat.min_eq_left whole]
  have total : min bodyPrefixLen contentLength.toNat +
      min sock.incoming.length (contentLength.toNat - bodyPrefixLen) =
      min contentLength.toNat (bodyPrefixLen + sock.incoming.length) := by
    omega
  rw [total, ← all, ← List.take_take, List.take_length]

end Segments

end Receiving

end Dotten
