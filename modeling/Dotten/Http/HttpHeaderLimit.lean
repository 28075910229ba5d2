/-
Module: Dotten.Http.HttpHeaderLimit
Layer: Http
Purpose: The limit on header blocks, and the streams on which it depends on the
  chunks that they come in.
Imports: Dotten.Http.HttpSegmentation, Dotten.Http.HttpTruncation
Main exports: AcceptsHeaders, LimitIgnoresChunks, EndsNearLimit,
  headersReceived_bytewise, headersReceived_chunkwise,
  tenHttpReadUntilHeadersEnd_limit_iff
-/
import Dotten.Http.HttpSegmentation
import Dotten.Http.HttpTruncation

namespace Dotten

open Dotten.Library

section Boundary

variable {stream : Bytes} {i : Nat} (blank : findSlice (crlf ++ crlf) stream = some i)

include blank

/-- Byte by byte, a blank line that ends behind the limit is not reached. -/
theorem headersReceived_bytewise (behind : tenHttpMaxHeaderSize + 1 < i + 4) :
    ∀ {steps call received : Nat}, received ≤ tenHttpMaxHeaderSize + 1 →
      headersReceived bytewise stream steps call received = none := by
  intro steps
  induction steps with
  | zero =>
      intro call received _
      rfl
  | succ steps inductionHypothesis =>
      intro call received small
      rw [headersReceived, blank_received blank, if_neg (by omega)]
      dsimp only
      split
      · rfl
      · rename_i below
        have one : bytewise.handsOver call tenHttpChunkSize (stream.length - received) ≤ 1 := by
          rw [Transport.handsOver]
          change min (min (max 1 1) tenHttpChunkSize) _ ≤ 1
          omega
        split
        · rfl
        · exact inductionHypothesis (by omega)

/-- In chunks of 4096 bytes, a blank line is reached that ends within the first
chunk behind the limit. -/
theorem headersReceived_chunkwise (near : i + 4 ≤ tenHttpMaxHeaderSize + tenHttpChunkSize) :
    ∀ {steps call k : Nat}, stream.length - tenHttpChunkSize * k < steps →
      headersReceived chunkwise stream steps call (min (tenHttpChunkSize * k) stream.length) ≠
        none := by
  have inside := blank_within blank
  unfold tenHttpMaxHeaderSize tenHttpChunkSize at near
  intro steps
  induction steps with
  | zero =>
      intro call k enough
      omega
  | succ steps inductionHypothesis =>
      intro call k enough
      rw [headersReceived, blank_received blank]
      unfold tenHttpChunkSize at enough ⊢
      by_cases arrived : i + 4 ≤ min (4096 * k) stream.length
      · rw [if_pos arrived]
        simp
      · have next : min (4096 * k) stream.length +
            chunkwise.handsOver call 4096 (stream.length - min (4096 * k) stream.length) =
            min (4096 * (k + 1)) stream.length := by
          change _ + min (min (max 4096 1) 4096) _ = _
          omega
        have limit : ¬ min (4096 * k) stream.length > tenHttpMaxHeaderSize := by
          unfold tenHttpMaxHeaderSize
          omega
        rw [if_neg arrived]
        dsimp only
        rw [if_neg limit, if_neg (by omega), next]
        exact inductionHypothesis (by unfold tenHttpChunkSize; omega)

end Boundary

section Acceptance

variable {grants : Schedule} {transport : Transport}

/-- The header reader, into an empty buffer, finds the end of the headers. -/
def AcceptsHeaders (grants : Schedule) (transport : Transport) (sock : TenSocket)
    (raw : TenBuffer) (world : World) : Prop :=
  Returns (tenHttpReadUntilHeadersEnd transport sock raw) grants world
    (fun reply _ => reply.1 = true)

variable (ample : Ample grants) {sock : TenSocket} {raw : TenBuffer} (valid : raw.Valid)
  (empty : raw.contents = []) (world : World)

include ample valid empty

theorem acceptsHeaders_iff :
    AcceptsHeaders grants transport sock raw world ↔
      headersReceived transport sock.incoming (sock.incoming.length + 1) sock.receiveCalls 0 ≠
        none := by
  apply returns_iff_of_iff
  apply (tenHttpReadUntilHeadersEnd_spec ample valid empty).mono
  rintro ⟨found, after, rest⟩ _ read
  generalize headersReceived transport sock.incoming (sock.incoming.length + 1)
    sock.receiveCalls 0 = outcome at read ⊢
  cases read with
  | missing => simp
  | found _ _ _ => simp

/-- What is accepted ends within the first chunk behind the limit. -/
theorem AcceptsHeaders.bounded (accepts : AcceptsHeaders grants transport sock raw world) :
    ∃ i, findSlice (crlf ++ crlf) sock.incoming = some i ∧
      i + 4 ≤ tenHttpMaxHeaderSize + tenHttpChunkSize := by
  have size : raw.size = 0 := by
    rw [← valid.length_contents, empty, List.length_nil]
  obtain ⟨⟨found, after, rest⟩, last, run, read, bounded⟩ :=
    (@tenHttpReadUntilHeadersEnd_spec grants world transport ample sock raw valid empty).and
      (tenHttpReadUntilHeadersEnd_bounded sock valid size)
  obtain rfl : found = true := accepts.eq run
  generalize headersReceived transport sock.incoming (sock.incoming.length + 1)
    sock.receiveCalls 0 = outcome at read
  cases read with
  | @found i _ _ validAfter received blank =>
      dsimp only at bounded blank
      have start : after.contents = sock.incoming.take after.contents.length := by
        rw [← received, List.take_left]
      have size : after.contents.length = after.size := validAfter.length_contents
      have inside := blank_within blank
      rw [start] at blank
      exact ⟨i, findSlice_of_take (by simp) blank, by omega⟩

end Acceptance

/-- Whether the headers of a stream are accepted does not depend on how the
stream is cut into chunks. -/
def LimitIgnoresChunks (grants : Schedule) (stream : Bytes) : Prop :=
  ∀ (first second : Transport), first.Segments → second.Segments →
    ∀ (one two : TenSocket), one.incoming = stream → two.incoming = stream →
      ∀ (raw : TenBuffer), raw.Valid → raw.contents = [] → ∀ (world other : World),
        (AcceptsHeaders grants first one raw world ↔ AcceptsHeaders grants second two raw other)

/-- The first blank line ends behind the limit, but within a chunk of it. -/
def EndsNearLimit (stream : Bytes) : Prop :=
  ∃ i, findSlice (crlf ++ crlf) stream = some i ∧ tenHttpMaxHeaderSize + 1 < i + 4 ∧
    i + 4 ≤ tenHttpMaxHeaderSize + tenHttpChunkSize

section Limit

variable {grants : Schedule} (ample : Ample grants) {stream : Bytes}

include ample

/-- Elsewhere, what is accepted is decided by where the first blank line ends. -/
theorem acceptsHeaders_of_not_near (far : ¬ EndsNearLimit stream) {transport : Transport}
    (segments : transport.Segments) {sock : TenSocket} (same : sock.incoming = stream)
    {raw : TenBuffer} (valid : raw.Valid) (empty : raw.contents = []) (world : World) :
    AcceptsHeaders grants transport sock raw world ↔
      ∃ i, findSlice (crlf ++ crlf) stream = some i ∧ i + 4 ≤ tenHttpMaxHeaderSize + 1 := by
  constructor
  · intro accepts
    obtain ⟨i, blank, bounded⟩ := accepts.bounded ample valid empty
    rw [same] at blank
    refine ⟨i, blank, ?_⟩
    by_contra behind
    exact far ⟨i, blank, by omega, bounded⟩
  · rintro ⟨i, blank, small⟩
    rw [acceptsHeaders_iff ample valid empty, same]
    obtain ⟨calls, arrived, all, -⟩ : ∃ calls arrived,
        headersReceived transport stream (stream.length + 1) sock.receiveCalls 0 =
          some (i, calls, arrived) ∧ i + 4 ≤ arrived :=
      headersReceived_of_segments segments blank small (Nat.zero_le _) (by omega)
    rw [all]
    simp

/-- The limit on headers depends on the bytes alone exactly when they do not end
near it. -/
theorem tenHttpReadUntilHeadersEnd_limit_iff (stream : Bytes) :
    LimitIgnoresChunks grants stream ↔ ¬ EndsNearLimit stream := by
  constructor
  · rintro ignores ⟨i, blank, behind, near⟩
    have agree := ignores bytewise chunkwise bytewise_delivers.segments chunkwise_segments
      (.connected stream) (.connected stream) rfl rfl emptyBuffer emptyBuffer_valid rfl default
      default
    rw [acceptsHeaders_iff ample emptyBuffer_valid rfl,
      acceptsHeaders_iff ample emptyBuffer_valid rfl] at agree
    have reached := @headersReceived_chunkwise stream i blank near (stream.length + 1) 0 0
      (by omega)
    rw [Nat.mul_zero, Nat.zero_min] at reached
    exact agree.mpr reached (headersReceived_bytewise blank behind (Nat.zero_le _))
  · intro far first second segmentsFirst segmentsSecond one two sameOne sameTwo raw valid empty
      world other
    rw [acceptsHeaders_of_not_near ample far segmentsFirst sameOne valid empty,
      acceptsHeaders_of_not_near ample far segmentsSecond sameTwo valid empty]

end Limit

section Examples

/-- A short request. -/
theorem tenHttpReadUntilHeadersEnd_limit_short :
    LimitIgnoresChunks (fun _ => true) (literal "GET / HTTP/1.1\r\n\r\n") := by
  apply (tenHttpReadUntilHeadersEnd_limit_iff ample_always _).mpr
  rintro ⟨i, blank, behind, -⟩
  have inside := blank_within blank
  have length : (literal "GET / HTTP/1.1\r\n\r\n").length = 18 := by decide
  unfold tenHttpMaxHeaderSize at behind
  omega

/-- A request with one header, whose value has the given length. -/
def paddedRequest (n : Nat) : Bytes :=
  crlfLines [literal "GET / HTTP/1.1", literal "A: " ++ List.replicate n (ascii 'a')] ++ crlf

theorem paddedRequest_blank (n : Nat) :
    findSlice (crlf ++ crlf) (paddedRequest n) = some (n + 19) := by
  have apart : ascii '\r' ≠ ascii '\n' := by decide
  have noEnd : ∀ line ∈ [literal "GET / HTTP/1.1",
      literal "A: " ++ List.replicate n (ascii 'a')], ascii '\n' ∉ line := by
    intro line member
    simp only [List.mem_cons, List.not_mem_nil, or_false] at member
    rcases member with rfl | rfl
    · decide
    · rw [List.mem_append, List.mem_replicate, not_or]
      exact ⟨by decide, fun same => absurd same.2 (by decide)⟩
  have nonempty : ∀ line ∈ [literal "GET / HTTP/1.1",
      literal "A: " ++ List.replicate n (ascii 'a')], line ≠ [] := by
    simp [literal]
  have found := findSlice_blankLine apart (List.cons_ne_nil _ _)
    (fun line member => unbroken_of_notMem (noEnd line member)) nonempty []
  have first : (literal "GET / HTTP/1.1").length = 14 := by decide
  have name : (literal "A: ").length = 3 := by decide
  rw [paddedRequest]
  refine found.trans (congrArg some ?_)
  rw [List.intercalate, List.intersperse_cons_cons, List.intersperse_singleton]
  simp only [List.flatten_cons, List.flatten_nil, List.length_append, List.length_replicate,
    List.length_cons, List.length_nil, first, name]
  omega

/-- A request whose header block ends two bytes behind the limit: byte by byte it
is refused, in chunks of 4096 bytes it is accepted. -/
theorem not_limitIgnoresChunks_padded :
    ¬ LimitIgnoresChunks (fun _ => true) (paddedRequest 65515) := by
  intro ignores
  have agree := ignores bytewise chunkwise bytewise_delivers.segments chunkwise_segments
    (.connected (paddedRequest 65515)) (.connected (paddedRequest 65515)) rfl rfl emptyBuffer
    emptyBuffer_valid rfl default default
  rw [acceptsHeaders_iff ample_always emptyBuffer_valid rfl,
    acceptsHeaders_iff ample_always emptyBuffer_valid rfl] at agree
  have reached := @headersReceived_chunkwise _ _ (paddedRequest_blank 65515) (by decide)
    ((paddedRequest 65515).length + 1) 0 0 (by omega)
  rw [Nat.mul_zero, Nat.zero_min] at reached
  exact agree.mpr reached
    (headersReceived_bytewise (paddedRequest_blank 65515) (by decide) (Nat.zero_le _))

end Examples

end Dotten
