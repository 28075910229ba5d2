/-
Module: Dotten.Http.HttpReception
Layer: Http
Purpose: What a receiver makes of a stream of any bytes, whatever the transport
  does with it: a function of the stream and the transport when no allocation is
  refused.
Imports: Dotten.Http.HttpHeaderBlock, Dotten.Http.HttpMessages
Main exports: HttpMessage, bodyReceived, readMessage,
  tenHttpReceiveRequest_read, tenHttpReceiveResponse_read
-/
import Dotten.Http.HttpHeaderBlock
import Dotten.Http.HttpMessages

namespace Dotten

open Dotten.Library

/-- What a message says: the parts of its first line, its headers and its
body. -/
structure HttpMessage (γ : Type) where
  first : γ
  headers : List (CString × CString)
  body : Bytes
deriving DecidableEq, Repr

/-- What a request says. -/
def TenHttpRequest.content (request : TenHttpRequest) : HttpMessage TenRequestFirstLineCtx where
  first := { method := request.method, path := request.path }
  headers := request.headers.pairs
  body := bodyBytes request.body

/-- What a response says. -/
def TenHttpResponse.content (response : TenHttpResponse) : HttpMessage Int where
  first := response.status
  headers := response.headers.pairs
  body := bodyBytes response.body

section Reading

variable (transport : Transport)

/-- The number of bytes of an announced body that arrive: of the `early` bytes
that came with the headers, and of the `left` bytes of the stream behind
them. -/
def bodyReceived (call left early announced : Nat) : Nat :=
  min early announced + bytesBrought transport (left + 1) call left (announced - early)

/-- What the bytes that arrive on a socket are read as. -/
def readMessage {γ : Type} (parts : Bytes → Option γ) (sock : TenSocket) :
    Option (HttpMessage γ) :=
  match headersReceived transport sock.incoming (sock.incoming.length + 1) sock.receiveCalls 0 with
  | none => none
  | some (i, calls, received) =>
      (readBlock parts (sock.incoming.take i)).map fun block =>
        { first := block.2.2
          headers := block.2.1
          body := (sock.incoming.drop (i + 4)).take (bodyReceived transport calls
            (sock.incoming.length - received) (received - (i + 4)) block.1.toNat) }

end Reading

section Specifications

variable {grants : Schedule} {world : World} {transport : Transport} {γ μ : Type}

/-- The parser of one kind of messages reads the block in front of it, and as
much of the body as arrives. -/
def Parses (grants : Schedule) (transport : Transport) (parts : Bytes → Option γ)
    (content : μ → HttpMessage γ)
    (parse : TenSocket → Bytes → Nat → Bytes → Nat → Ten (Option μ)) : Prop :=
  ∀ {sock : TenSocket} {headerBlock bodyPrefix : Bytes} {headerLen bodyPrefixLen : Nat}
    {world : World}, bodyPrefixLen ≤ bodyPrefix.length →
    Returns (parse sock headerBlock headerLen bodyPrefix bodyPrefixLen) grants world
      (fun reply _ => reply.map content =
        (readBlock parts (headerBlock.take headerLen)).map fun block =>
          { first := block.2.2
            headers := block.2.1
            body := (bodyPrefix.take bodyPrefixLen ++ sock.incoming).take
              (bodyReceived transport sock.receiveCalls sock.incoming.length bodyPrefixLen
                block.1.toNat) })

/-- Where the blank line is found in what has been read: the block in front of it,
the bytes that came behind it, and what is left to receive. -/
structure SplitAt (stream : Bytes) (i calls received : Nat) (raw : TenBuffer) (sock : TenSocket) :
    Prop where
  search : tenFindCrlfCrlf raw.data raw.size = some i
  front : raw.data.take i = stream.take i
  behind : (raw.data.drop (i + 4)).take (raw.size - i - 4) ++ sock.incoming = stream.drop (i + 4)
  whole : raw.size - i - 4 ≤ (raw.data.drop (i + 4)).length
  size : raw.size - i - 4 = received - (i + 4)
  left : sock.incoming.length = stream.length - received
  calls : sock.receiveCalls = calls

theorem HeadersRead.splitAt {stream : Bytes} {i calls received : Nat} {raw : TenBuffer}
    {sock : TenSocket} (read : HeadersRead stream (some (i, calls, received)) true raw sock) :
    SplitAt stream i calls received raw sock := by
  cases read with
  | found valid same blank =>
      have size := valid.length_contents
      have written := valid.written
      have inside : i + 4 ≤ raw.contents.length := blank_within blank
      constructor
      · exact blank
      · rw [← same, List.take_append_of_le_length (by omega), TenBuffer.contents, List.take_take,
          Nat.min_eq_left (by omega)]
      · rw [← same, List.drop_append_of_le_length inside, TenBuffer.contents, List.drop_take,
          Nat.sub_sub]
      · rw [List.length_drop]
        omega
      · omega
      · rw [← same, List.length_append, Nat.add_sub_cancel_left]
      · rfl

variable (ample : Ample grants)
include ample

theorem tenHttpParseRequest_parses :
    Parses grants transport requestLineParts TenHttpRequest.content
      (tenHttpParseRequest transport) := by
  intro sock headerBlock bodyPrefix headerLen bodyPrefixLen world whole
  simp only [tenHttpParseRequest, returns_bind, returns_tenMalloc_of_ample ample]
  apply (tenHttpParseHeadersText_block ample
    (fun line ctx _ => tenRequestFirstLine_parts ample line ctx) _ _).mono
  rintro ⟨contentLength, headers, ctx⟩ _ read
  rw [readBlock_ofMemory] at read
  cases block : readBlock requestLineParts (headerBlock.take headerLen) with
  | none =>
      rw [block] at read
      dsimp only at read ⊢
      rw [if_pos read, returns_pure]
      rfl
  | some parsed =>
      obtain ⟨length, pairs, filled⟩ := parsed
      rw [block] at read
      obtain ⟨rfl, notFailure, rfl, rfl⟩ := read
      dsimp only at notFailure ⊢
      rw [if_neg notFailure, returns_bind]
      apply (tenHttpReadBody_spec ample sock contentLength bodyPrefix whole).mono
      rintro ⟨reply, rest⟩ _ ⟨body, rfl, -, contents⟩
      dsimp only
      rw [returns_pure, Option.map_some, Option.map_some, TenHttpRequest.content, bodyBytes,
        Option.elim_some, contents]
      rfl

theorem tenHttpParseResponse_parses :
    Parses grants transport responseLineStatus TenHttpResponse.content
      (tenHttpParseResponse transport) := by
  intro sock headerBlock bodyPrefix headerLen bodyPrefixLen world whole
  simp only [tenHttpParseResponse, tenHttpResponseCreate, returns_bind,
    returns_tenMalloc_of_ample ample, returns_pure]
  apply (tenHttpParseHeadersText_block ample
    (fun line ctx _ => tenResponseFirstLine_parts line ctx) _ _).mono
  rintro ⟨contentLength, headers, status⟩ _ read
  rw [readBlock_ofMemory] at read
  cases block : readBlock responseLineStatus (headerBlock.take headerLen) with
  | none =>
      rw [block] at read
      dsimp only at read ⊢
      rw [if_pos read, returns_pure]
      rfl
  | some parsed =>
      obtain ⟨length, pairs, filled⟩ := parsed
      rw [block] at read
      obtain ⟨rfl, notFailure, rfl, rfl⟩ := read
      dsimp only at notFailure ⊢
      rw [if_neg notFailure, returns_bind]
      apply (tenHttpReadBody_spec ample sock contentLength bodyPrefix whole).mono
      rintro ⟨reply, rest⟩ _ ⟨body, rfl, -, contents⟩
      dsimp only
      rw [returns_pure, Option.map_some, Option.map_some, TenHttpResponse.content, bodyBytes,
        Option.elim_some, contents]
      rfl

/-- A message is received as its stream is read. -/
theorem tenHttpReceive_read {parts : Bytes → Option γ} {content : μ → HttpMessage γ}
    {parse : TenSocket → Bytes → Nat → Bytes → Nat → Ten (Option μ)}
    (parses : Parses grants transport parts content parse) (sock : TenSocket) :
    Returns (tenHttpReceive transport parse sock) grants world (fun reply _ =>
      reply.2.map content = readMessage transport parts sock ∧
        (reply.1 = .ok ↔ reply.2.isSome = true)) := by
  simp only [tenHttpReceive, returns_bind]
  apply tenBufferCreate_spec.mono
  rintro reply _ (⟨rfl, shortage⟩ | ⟨raw, rfl, valid, empty⟩)
  · exact absurd ample shortage
  · simp only [returns_bind]
    apply (tenHttpReadUntilHeadersEnd_spec ample valid empty).mono
    rintro ⟨found, raw, rest⟩ _ read
    rw [readMessage]
    generalize headersReceived transport sock.incoming (sock.incoming.length + 1)
      sock.receiveCalls 0 = outcome at read
    dsimp only at read ⊢
    cases read with
    | missing =>
        rw [if_neg (by simp), returns_pure]
        exact ⟨rfl, by simp⟩
    | @found i _ _ validRaw received blank =>
        have split := (HeadersRead.found validRaw received blank).splitAt
        simp only [if_true, returns_bind, returns_tenBufferData, returns_tenBufferSize,
          split.search]
        apply (parses split.whole).mono
        intro message _ parsed
        rw [split.front, split.behind] at parsed
        rw [returns_pure, ← split.left, ← split.size]
        refine ⟨parsed, ?_⟩
        cases message <;> simp

theorem tenHttpReceiveRequest_read (client : TenSocket) :
    Returns (tenHttpReceiveRequest transport client) grants world (fun reply _ =>
      reply.2.map TenHttpRequest.content = readMessage transport requestLineParts client ∧
        (reply.1 = .ok ↔ reply.2.isSome = true)) :=
  tenHttpReceive_read ample (tenHttpParseRequest_parses ample) client

theorem tenHttpReceiveResponse_read (sock : TenSocket) :
    Returns (tenHttpReceiveResponse transport sock) grants world (fun reply after =>
      reply.map TenHttpResponse.content = readMessage transport responseLineStatus sock ∧
        (after.lastError = .ok ↔ reply.isSome = true)) := by
  simp only [tenHttpReceiveResponse, returns_bind]
  apply (tenHttpReceive_read ample (tenHttpParseResponse_parses ample) sock).mono
  rintro ⟨code, reply⟩ _ ⟨content, answered⟩
  simp only [returns_tenSetError, returns_pure]
  exact ⟨content, answered⟩

end Specifications

end Dotten
