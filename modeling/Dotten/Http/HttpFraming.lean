/-
Module: Dotten.Http.HttpFraming
Layer: Http
Purpose: Which responses stand on the wire as one header block with one line
  for each header: those whose header names and values hold no line end.
Imports: Dotten.Http.HttpResponseRoundTrip
Main exports: splitBlock, sentResponse, Framed, sentResponse_framed_iff
-/
import Dotten.Http.HttpResponseRoundTrip

namespace Dotten

open Dotten.Library

/-- The lines before the first blank line of a stream, and the bytes behind
it. -/
def splitBlock (stream : Bytes) : Option (List Bytes × Bytes) :=
  (findSlice (crlf ++ crlf) stream).map fun i =>
    (pieces crlf (stream.take i), stream.drop (i + (crlf ++ crlf).length))

/-- The bytes that the server sends for the response of a handler. -/
def sentResponse (transport : Transport) (status : Int) (calls : List MessageCall) :
    Ten (Option Bytes) := do
  let some response ← respond status calls
    | return none
  let (_, sock) ← tenHttpSendResponse transport (.connected []) response
  return some sock.outgoing

/-- The bytes are those of one response: the first blank line stands right
before the body, and the lines before it are the status line, one line for each
header, `Content-Length` and `Connection`. -/
def Framed (status : Int) (content : MessageContent) (sent : Option Bytes) : Prop :=
  sent.bind splitBlock = some ((responseMessage status content).lines, content.body)

/-- A text without a line end. -/
abbrev OneLine (text : Bytes) : Prop := Unbroken (ascii '\r') (ascii '\n') text

theorem cr_ne_lf : ascii '\r' ≠ ascii '\n' := by decide

/-- The line of a header is one line when its name and its value are. -/
theorem oneLine_headerLine_iff {pair : CString × CString} :
    OneLine (headerLine pair) ↔ OneLine pair.1.bytes ∧ OneLine pair.2.bytes := by
  have separator : literal ": " = [ascii ':', ascii ' '] := by decide
  constructor
  · intro line
    constructor
    · exact line.of_infix ⟨[], literal ": " ++ pair.2.bytes, (List.append_assoc _ _ _).symm⟩
    · exact line.of_infix (List.suffix_append _ _).isInfix
  · rintro ⟨name, value⟩
    have joined : headerLine pair =
        pair.1.bytes ++ ascii ':' :: ([] ++ ascii ' ' :: pair.2.bytes) := by
      rw [headerLine, separator, List.append_assoc]
      rfl
    have blank : OneLine [] := unbroken_of_notMem List.not_mem_nil
    rw [joined]
    exact name.append (blank.append value (by decide) (by decide)) (by decide) (by decide)

section Lines

/-- Lines that hold no line end and are not blank are the lines that are read off
a stream. -/
theorem splitBlock_lines {lines : List Bytes} (nonempty : lines ≠ [])
    (oneLine : ∀ line ∈ lines, OneLine line) (noBlank : ∀ line ∈ lines, line ≠ [])
    (rest : Bytes) : splitBlock (crlfLines lines ++ crlf ++ rest) = some (lines, rest) := by
  have blank : findSlice (crlf ++ crlf) (crlfLines lines ++ crlf ++ rest) =
      some (crlf.intercalate lines).length := by
    rw [List.append_assoc]
    exact findSlice_blankLine cr_ne_lf nonempty oneLine noBlank rest
  have block : crlfLines lines ++ crlf ++ rest =
      crlf.intercalate lines ++ ((crlf ++ crlf) ++ rest) := by
    have joined : crlfLines lines = crlf.intercalate lines ++ crlf :=
      endLines_eq_intercalate nonempty
    rw [joined]
    simp only [List.append_assoc]
  have apart : pieces crlf (crlf.intercalate lines) = lines :=
    pieces_intercalate cr_ne_lf nonempty oneLine
  rw [splitBlock, blank, Option.map_some, block, List.take_left, ← List.drop_drop, List.drop_left,
    List.drop_left, apart]

/-- The lines of a message are the lines that are read off its stream. -/
theorem splitBlock_stream {message : Received} (first : OneLine message.first)
    (nonempty : message.first ≠ [])
    (members : ∀ pair ∈ message.members, OneLine (headerLine pair)) :
    splitBlock message.stream = some (message.lines, message.rest) := by
  apply splitBlock_lines (List.cons_ne_nil _ _)
  · intro line member
    rcases List.mem_cons.mp member with rfl | later
    · exact first
    · obtain ⟨pair, listed, rfl⟩ := List.mem_map.mp later
      exact members pair listed
  · intro line member
    rcases List.mem_cons.mp member with rfl | later
    · exact nonempty
    · obtain ⟨pair, -, rfl⟩ := List.mem_map.mp later
      exact headerLine_ne_nil pair

/-- The lines that are read off a stream hold no line end. -/
theorem oneLine_of_splitBlock {stream : Bytes} {lines : List Bytes} {rest : Bytes}
    (split : splitBlock stream = some (lines, rest)) : ∀ line ∈ lines, OneLine line := by
  intro line member
  obtain ⟨i, -, same⟩ := Option.map_eq_some_iff.mp split
  cases same
  exact not_infix_of_mem_pieces (by simp) member

end Lines

theorem oneLine_addedHeaders (bodySize : Nat) :
    ∀ pair ∈ addedHeaders bodySize, OneLine (headerLine pair) := by
  intro pair member
  exact unbroken_of_notMem (readsBack_addedHeaders bodySize pair member).noEnd

/-- The stream of a response is framed exactly when no header name or value
holds a line end. -/
theorem framed_stream_iff {status : Int} {content : MessageContent} :
    Framed status content (some (responseMessage status content).stream) ↔
      ∀ pair ∈ content.headers, OneLine pair.1.bytes ∧ OneLine pair.2.bytes := by
  simp only [← oneLine_headerLine_iff]
  constructor
  · intro framed pair member
    apply oneLine_of_splitBlock framed
    exact List.mem_cons_of_mem _ (List.mem_map_of_mem (List.mem_append_left _ member))
  · intro given
    apply splitBlock_stream (unbroken_of_notMem (statusLine_noEnd status))
      (statusLine_ne_nil status)
    intro pair member
    rcases List.mem_append.mp member with listed | added
    · exact given pair listed
    · exact oneLine_addedHeaders _ pair added

/-- The bytes that are sent are those of the response. -/
theorem sentResponse_spec {grants : Schedule} {world : World} (ample : Ample grants)
    {transport : Transport} (delivers : transport.Delivers) {status : Int} (int : IsInt status)
    {calls : List MessageCall}
    (object : (MessageContent.ofCalls calls).body.length ≤ objectSizeMax) :
    Returns (sentResponse transport status calls) grants world (fun sent _ =>
      sent = some (responseMessage status (.ofCalls calls)).stream) := by
  simp only [sentResponse, returns_bind]
  apply (respond_spec ample status calls).mono
  rintro _ _ ⟨response, rfl, rfl, holds⟩
  simp only [returns_bind]
  apply (tenHttpSendResponse_spec ample delivers (.connected []) holds int object).mono
  rintro ⟨code, sock⟩ _ ⟨-, outgoing⟩
  rw [returns_pure, outgoing]
  rfl

/-- What is sent for a response is one header block with one line for each
header, followed by the body, exactly when no header name or value holds a line
end. -/
theorem sentResponse_framed_iff {grants : Schedule} {world : World} (ample : Ample grants)
    {transport : Transport} (delivers : transport.Delivers) {status : Int} (int : IsInt status)
    {calls : List MessageCall}
    (object : (MessageContent.ofCalls calls).body.length ≤ objectSizeMax) :
    Returns (sentResponse transport status calls) grants world (fun sent _ =>
        Framed status (.ofCalls calls) sent) ↔
      ∀ pair ∈ (MessageContent.ofCalls calls).headers,
        OneLine pair.1.bytes ∧ OneLine pair.2.bytes := by
  obtain ⟨sent, after, run, rfl⟩ :
      Returns (sentResponse transport status calls) grants world (fun sent _ =>
        sent = some (responseMessage status (.ofCalls calls)).stream) :=
    sentResponse_spec ample delivers int object
  rw [returns_iff_of_run run, framed_stream_iff]

/-- A header with a lone CR and a lone LF, and a body with a blank line. -/
def loneEndCalls : List MessageCall :=
  [.setHeader (literalString "X") (literalString "a\rb\n\r"), .setBody (literal "a\r\n\r\nb")]

theorem sentResponse_framed_iff_loneEnds :
    Returns (sentResponse bytewise 200 loneEndCalls) (fun _ => true) default (fun sent _ =>
      Framed 200 (.ofCalls loneEndCalls) sent) :=
  (sentResponse_framed_iff ample_always bytewise_delivers ⟨by decide, by decide⟩
    (by decide)).mpr (by decide)

/-- A header value that ends the header block early. -/
def splittingCalls : List MessageCall :=
  [.setHeader (literalString "X") (literalString "y\r\n\r\nevil")]

theorem sentResponse_not_framed_splitting :
    ¬ Returns (sentResponse bytewise 200 splittingCalls) (fun _ => true) default (fun sent _ =>
      Framed 200 (.ofCalls splittingCalls) sent) := by
  intro framed
  obtain ⟨sent, after, run, rfl⟩ :
      Returns (sentResponse bytewise 200 splittingCalls) (fun _ => true) default (fun sent _ =>
        sent = some (responseMessage 200 (.ofCalls splittingCalls)).stream) :=
    sentResponse_spec ample_always bytewise_delivers ⟨by decide, by decide⟩ (by decide)
  rw [returns_iff_of_run run] at framed
  have value := (framed_stream_iff.mp framed
    (literalString "X", literalString "y\r\n\r\nevil") (by decide)).2
  exact value ⟨literal "y", literal "\r\nevil", by decide⟩

end Dotten
