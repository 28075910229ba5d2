/-
Module: Dotten.Http.HttpShortReception
Layer: Http
Purpose: What is received when allocations may be refused: a message that is
  passed on has the lengths of some of its lines, and a body that may have lost
  what did not fit; and both can be what refusals lead to.
Imports: Dotten.Http.HttpArrival, Dotten.Http.HttpConnections
Main exports: LengthLine, parseMessage, MessageParser, ShortMessage,
  tenHttpReceive_short, LeadsTo, tenHttpReceive_allows, tenHttpSendRequest_allows
-/
import Dotten.Http.HttpArrival
import Dotten.Http.HttpConnections

namespace Dotten

open Dotten.Library

/-- The value of a line of the block that is named Content-Length. -/
def LengthLine (block : Bytes) (value : CString) : Prop :=
  ∃ name, (name, value) ∈
      (blockLines (CString.ofMemory (block ++ [0])).bytes).tail.filterMap lineHeader ∧
    foldCase name = foldCase contentLengthName

section Confined

theorem confined_tenBufferCreate : Confined World.requests tenBufferCreate := by
  apply confined_tenMalloc.bind
  rintro (_ | _)
  · exact .pure _
  · exact (confined_tenSetError _).bind fun _ => .pure _

theorem confined_tenBufferWrite (buffer : TenBuffer) (data : Option Bytes) (size : Nat) :
    Confined World.requests (tenBufferWrite buffer data size) := by
  have answered : ∀ code (reply : TenErrorCode × TenBuffer), Confined World.requests (do
      tenSetError code
      return reply) := fun code _ => (confined_tenSetError code).bind fun _ => .pure _
  cases data with
  | none => exact .ite (answered _ _) (answered _ _)
  | some data =>
      refine .ite (answered _ _) (.ite ?_ (answered _ _))
      apply confined_tenMalloc.bind
      rintro (_ | _)
      · exact .pure _
      · exact answered _ _

theorem confined_tenBufferData (buffer : TenBuffer) :
    Confined World.requests (tenBufferData buffer) :=
  (confined_tenSetError _).bind fun _ => .pure _

theorem confined_tenBufferSize (buffer : TenBuffer) :
    Confined World.requests (tenBufferSize buffer) :=
  (confined_tenSetError _).bind fun _ => .pure _

variable {transport : Transport}

theorem confined_tenSocketSend (sock : TenSocket) (data : Bytes) (size : Nat) :
    Confined World.requests (tenSocketSend transport sock data size) := by
  unfold tenSocketSend
  cases transport.sends sock.sendCalls <;>
    exact (confined_tenSetError _).bind fun _ => .pure _

theorem confined_tenSocketReceive (sock : TenSocket) (size : Nat) :
    Confined World.requests (tenSocketReceive transport sock size) := by
  unfold tenSocketReceive
  cases transport.receives sock.receiveCalls with
  | none => exact (confined_tenSetError _).bind fun _ => .pure _
  | some asked =>
      exact .ite ((confined_tenSetError _).bind fun _ => .pure _)
        ((confined_tenSetError _).bind fun _ => .pure _)

theorem confined_tenHttpReadUntilHeadersEndLoop (steps : Nat) :
    ∀ (sock : TenSocket) (raw : TenBuffer),
      Confined World.requests (tenHttpReadUntilHeadersEndLoop transport steps sock raw) := by
  induction steps with
  | zero => exact fun _ _ => confined_stuck
  | succ steps inductionHypothesis =>
      intro sock raw
      refine (confined_tenBufferData raw).bind fun data =>
        (confined_tenBufferSize raw).bind fun size => .ite (.pure _) (.ite (.pure _) ?_)
      refine (confined_tenSocketReceive sock _).bind ?_
      rintro ⟨n, chunk, after⟩
      refine .ite (.pure _) ((confined_tenBufferWrite raw _ _).bind ?_)
      rintro ⟨code, grown⟩
      exact .ite (.pure _) (inductionHypothesis after grown)

theorem confined_tenHttpReadBodyLoop (contentLength : Int) (steps : Nat) :
    ∀ (sock : TenSocket) (body : TenBuffer),
      Confined World.requests (tenHttpReadBodyLoop transport contentLength steps sock body) := by
  induction steps with
  | zero => exact fun _ _ => confined_stuck
  | succ steps inductionHypothesis =>
      intro sock body
      refine (confined_tenBufferSize body).bind fun size => .ite ?_ (.pure _)
      refine (confined_tenSocketReceive sock _).bind ?_
      rintro ⟨n, chunk, after⟩
      refine .ite (.pure _) ((confined_tenBufferWrite body _ _).bind ?_)
      rintro ⟨code, grown⟩
      exact inductionHypothesis after grown

theorem confined_tenHttpCopy (text : CString) : Confined World.requests (tenHttpCopy text) := by
  refine Confined.bind (Confined.bind confined_tenMalloc ?_) fun _ => .pure _
  rintro (_ | _)
  · exact .pure _
  · exact (confined_tenSetError _).bind fun _ => .pure _

theorem confined_tenHttpHeadersPush (headers : TenHttpHeaders) (name value : CString) :
    Confined World.requests (tenHttpHeadersPush headers name value) := by
  apply (confined_tenHttpCopy name).bind
  rintro (_ | _)
  · exact .pure _
  · apply (confined_tenHttpCopy value).bind
    rintro (_ | _)
    · exact .pure _
    · exact .pure _

theorem confined_tenHttpHeadersSet (headers : TenHttpHeaders) (name value : CString) :
    Confined World.requests (tenHttpHeadersSet headers name value) := by
  unfold tenHttpHeadersSet
  split
  · apply (confined_tenHttpCopy value).bind
    rintro (_ | _)
    · exact .pure _
    · exact .pure _
  · refine .ite ?_ (confined_tenHttpHeadersPush _ _ _)
    apply confined_tenMalloc.bind
    rintro (_ | _)
    · exact .pure _
    · exact confined_tenHttpHeadersPush _ _ _

theorem confined_setRequestHeaders (calls : List HeaderCall) :
    ∀ request : TenHttpRequest, Confined World.requests (setRequestHeaders request calls) := by
  induction calls with
  | nil => exact fun _ => .pure _
  | cons call calls inductionHypothesis =>
      intro request
      obtain ⟨name, value⟩ := call
      refine Confined.bind (Confined.bind ?_ fun _ => .pure _) fun reply =>
        (inductionHypothesis reply.2).bind fun _ => .pure _
      cases name with
      | none => exact (confined_tenSetError _).bind fun _ => .pure _
      | some name =>
          cases value with
          | none => exact (confined_tenSetError _).bind fun _ => .pure _
          | some value => exact confined_tenHttpHeadersSet _ _ _

theorem confined_tenRequestFirstLine (line : Bytes) (ctx : TenRequestFirstLineCtx) :
    Confined World.requests (tenRequestFirstLine line ctx) := by
  unfold tenRequestFirstLine
  split
  · exact .pure _
  · split
    · exact .pure _
    · exact (confined_tenHttpCopy _).bind fun _ => .pure _

theorem confined_tenResponseFirstLine (line : Bytes) (ctx : Int) :
    Confined World.requests (tenResponseFirstLine line ctx) := by
  unfold tenResponseFirstLine
  split
  · exact .pure _
  · exact .pure _

theorem confined_tenHttpReadBody (sock : TenSocket) (contentLength : Int) (bodyPrefix : Bytes)
    (bodyPrefixLen : Nat) :
    Confined World.requests
      (tenHttpReadBody transport sock contentLength bodyPrefix bodyPrefixLen) := by
  apply confined_tenBufferCreate.bind
  rintro (_ | body)
  · exact .pure _
  have finish : ∀ start : TenErrorCode × TenBuffer, Confined World.requests (do
      let reply ← tenHttpReadBodyLoop transport contentLength (sock.incoming.length + 1)
        sock start.2
      return (some reply.1, reply.2)) :=
    fun start => (confined_tenHttpReadBodyLoop _ _ _ _).bind fun _ => .pure _
  exact .ite (.pure _) (.ite ((confined_tenBufferWrite _ _ _).bind finish)
    (Confined.bind (.pure _) finish))

end Confined

section Refused

variable {world : World} {transport : Transport}

/-- Nothing gets into a buffer that may not have a block. -/
theorem tenBufferWrite_refused (data : Bytes) (size : Nat) :
    Returns (tenBufferWrite emptyBuffer (some data) size) (fun _ => false) world (fun reply _ =>
      reply.2 = emptyBuffer) := by
  unfold tenBufferWrite
  apply returns_ite
  · intro _
    simp
  · intro positive
    apply returns_ite
    · intro _
      simp
    · intro roomy
      have none : emptyBuffer.capacity = 0 := rfl
      omega

theorem tenHttpReadBodyLoop_refused (contentLength : Int) :
    ∀ {steps : Nat} {sock : TenSocket} {world : World}, sock.incoming.length < steps →
      Returns (tenHttpReadBodyLoop transport contentLength steps sock emptyBuffer)
        (fun _ => false) world (fun reply _ => reply.1 = emptyBuffer) := by
  intro steps
  induction steps with
  | zero =>
      intro sock world enough
      omega
  | succ steps inductionHypothesis =>
      intro sock world enough
      simp only [tenHttpReadBodyLoop, returns_bind, returns_tenBufferSize]
      apply returns_ite
      · intro _
        rw [returns_bind]
        apply (tenSocketReceive_handOver sock _).mono
        rintro ⟨reply, chunk, after⟩ _ handOver
        have incoming := handOver.incoming
        have ended := handOver.ended
        have bounds := transport.handsOver_le sock.receiveCalls
          (if contentLength.toNat - emptyBuffer.size < tenHttpChunkSize then
            contentLength.toNat - emptyBuffer.size else tenHttpChunkSize) sock.incoming.length
        dsimp only at incoming ended ⊢
        apply returns_ite
        · intro _
          rw [returns_pure]
        · intro positive
          rw [returns_bind]
          apply (tenBufferWrite_refused _ _).mono
          rintro ⟨code, body⟩ _ rfl
          apply inductionHypothesis
          rw [incoming, List.length_drop]
          omega
      · intro _
        rw [returns_pure]

/-- A header whose copies are refused is not set. -/
theorem tenHttpHeadersSet_refused (headers : TenHttpHeaders) (name value : CString) :
    Returns (tenHttpHeadersSet headers name value) (fun _ => false) world (fun reply _ =>
      reply.2.pairs = headers.pairs) := by
  unfold tenHttpHeadersSet tenHttpHeadersPush tenHttpCopy tenMemdup
  split
  · simp
  · apply returns_ite <;> intro _ <;> simp

theorem setRequestHeaders_refused (calls : List HeaderCall) :
    ∀ {request : TenHttpRequest} {world : World},
      Returns (setRequestHeaders request calls) (fun _ => false) world (fun reply _ =>
        reply.2.headers.pairs = request.headers.pairs) := by
  induction calls with
  | nil =>
      intro request world
      rw [setRequestHeaders, returns_pure]
  | cons call calls inductionHypothesis =>
      intro request world
      obtain ⟨name, value⟩ := call
      have rest : ∀ {headers : TenHttpHeaders} {now : World},
          headers.pairs = request.headers.pairs →
          Returns (setRequestHeaders { request with headers } calls) (fun _ => false) now
            (fun reply _ => reply.2.headers.pairs = request.headers.pairs) := by
        intro headers now same
        apply inductionHypothesis.mono
        intro reply _ kept
        exact kept.trans same
      simp only [setRequestHeaders, tenHttpRequestSetHeader, tenHttpSetHeader, returns_bind,
        returns_pure]
      cases name with
      | none =>
          simp only [returns_bind, returns_tenSetError, returns_pure]
          exact rest rfl
      | some name =>
          cases value with
          | none =>
              simp only [returns_bind, returns_tenSetError, returns_pure]
              exact rest rfl
          | some value =>
              apply (tenHttpHeadersSet_refused request.headers name value).mono
              rintro ⟨code, headers⟩ _ same
              exact rest same

end Refused

section Bodies

variable {grants : Schedule} {world : World} {transport : Transport}

/-- The body loop ends, whatever is refused, and adds nothing where nothing
arrives. -/
theorem tenHttpReadBodyLoop_ends (contentLength : Nat) :
    ∀ {steps : Nat} {sock : TenSocket} {body : TenBuffer} {world : World},
      sock.incoming.length < steps →
      Returns (tenHttpReadBodyLoop transport contentLength steps sock body) grants world
        (fun reply _ => bytesBrought transport steps sock.receiveCalls sock.incoming.length
          (contentLength - body.size) = 0 → reply.1 = body) := by
  intro steps
  induction steps with
  | zero =>
      intro sock body world enough
      omega
  | succ steps inductionHypothesis =>
      intro sock body world enough
      simp only [tenHttpReadBodyLoop, returns_bind, returns_tenBufferSize]
      rw [bytesBrought, Int.toNat_natCast]
      have asked : (if contentLength - body.size < tenHttpChunkSize then
          contentLength - body.size else tenHttpChunkSize) =
          min (contentLength - body.size) tenHttpChunkSize := by
        split <;> omega
      rw [asked]
      apply returns_ite
      · intro _
        rw [returns_bind]
        apply (tenSocketReceive_handOver sock _).mono
        rintro ⟨reply, chunk, after⟩ _ handOver
        have incoming := handOver.incoming
        have ended := handOver.ended
        have bounds := transport.handsOver_le sock.receiveCalls
          (min (contentLength - body.size) tenHttpChunkSize) sock.incoming.length
        dsimp only at incoming ended ⊢
        apply returns_ite
        · intro _
          rw [returns_pure]
          exact fun _ => rfl
        · intro positive
          rw [returns_bind]
          apply (tenBufferWrite_returns body _ _).mono
          rintro ⟨code, grown⟩ _ -
          apply (inductionHypothesis (by rw [incoming, List.length_drop]; omega)).mono
          intro reply _ _ nothing
          split at nothing <;> omega
      · intro _
        rw [returns_pure]
        exact fun _ => rfl

/-- The body is empty where nothing arrives. -/
theorem tenHttpReadBody_ends (sock : TenSocket) (contentLength : Int) (bodyPrefix : Bytes)
    (bodyPrefixLen : Nat) :
    Returns (tenHttpReadBody transport sock contentLength bodyPrefix bodyPrefixLen) grants world
      (fun reply _ => ∀ body, reply.1 = some body →
        bodyReceived transport sock.receiveCalls sock.incoming.length bodyPrefixLen
          contentLength.toNat = 0 → body.contents = []) := by
  simp only [tenHttpReadBody, returns_bind]
  apply tenBufferCreate_spec.mono
  rintro reply _ (⟨rfl, -⟩ | ⟨body, rfl, valid, contents⟩)
  · rw [returns_pure]
    simp
  apply returns_ite
  · intro _
    rw [returns_pure]
    rintro _ ⟨⟩ _
    exact contents
  · intro positive
    obtain ⟨size, rfl⟩ : ∃ size : Nat, contentLength = size := ⟨contentLength.toNat, by omega⟩
    rw [Int.toNat_natCast, bodyReceived]
    have empty : body.size = 0 := by
      rw [← valid.length_contents, contents, List.length_nil]
    apply returns_ite
    · intro some
      simp only [returns_bind, returns_pure]
      apply (tenBufferWrite_returns body _ _).mono
      rintro ⟨code, start⟩ _ -
      apply (tenHttpReadBodyLoop_ends size (Nat.lt_add_one _)).mono
      intro reply _ _ _ _ nothing
      split at some <;> omega
    · intro none
      simp only [returns_bind, returns_pure]
      apply (tenHttpReadBodyLoop_ends size (Nat.lt_add_one _)).mono
      rintro reply _ kept _ ⟨⟩ nothing
      have early : bodyPrefixLen = 0 := by
        split at none <;> omega
      rw [empty] at kept
      rw [early] at nothing
      rw [kept (by omega)]
      exact contents

/-- All of a body may be lost. -/
theorem tenHttpReadBody_allows_empty (sock : TenSocket) (contentLength : Int) (bodyPrefix : Bytes)
    (bodyPrefixLen : Nat) (world : World) :
    Allows World.requests (tenHttpReadBody transport sock contentLength bodyPrefix bodyPrefixLen)
      world (fun reply _ => ∃ body, reply.1 = some body ∧ body.contents = []) := by
  have created : Returns tenBufferCreate (fun _ => true) world (fun reply _ =>
      reply = some emptyBuffer) := by
    simp [tenBufferCreate, emptyBuffer]
  have finish : ∀ (code : TenErrorCode) (start : TenBuffer) (now : World), start = emptyBuffer →
      Allows World.requests (do
        let reply ← tenHttpReadBodyLoop transport contentLength (sock.incoming.length + 1)
          sock (code, start).2
        return (some reply.1, reply.2)) now
        (fun reply _ => ∃ body, reply.1 = some body ∧ body.contents = []) := by
    rintro code _ now rfl
    have ends : Returns (tenHttpReadBodyLoop transport contentLength (sock.incoming.length + 1)
        sock emptyBuffer) (fun _ => false) now (fun reply _ => reply.1 = emptyBuffer) :=
      tenHttpReadBodyLoop_refused contentLength (Nat.lt_succ_self _)
    refine Allows.bind (Allows.mono ((confined_tenHttpReadBodyLoop _ _ _ _).allows ends) ?_)
    rintro ⟨body, rest⟩ _ rfl
    exact .pure ⟨emptyBuffer, rfl, rfl⟩
  refine Allows.bind (Allows.mono (confined_tenBufferCreate.allows created) ?_)
  rintro reply now rfl
  dsimp only
  by_cases none : contentLength ≤ 0
  · rw [if_pos none]
    exact .pure ⟨emptyBuffer, rfl, rfl⟩
  rw [if_neg none]
  generalize (if bodyPrefixLen < contentLength.toNat then bodyPrefixLen else contentLength.toNat) =
    take
  by_cases some : take > 0
  · rw [if_pos some]
    refine Allows.bind (Allows.mono ((confined_tenBufferWrite _ _ _).allows
      (tenBufferWrite_refused bodyPrefix _)) ?_)
    rintro ⟨code, start⟩ _ same
    exact finish code start _ same
  · rw [if_neg some]
    exact finish .ok emptyBuffer _ rfl

end Bodies

section Messages

variable {γ μ : Type} (transport : Transport)

/-- What `ten__http_parse_request` and `ten__http_parse_response` have in common. -/
def parseMessage (firstLineFn : TenFirstLineFn γ) (ctx : γ)
    (build : γ → TenHttpHeaders → TenBuffer → μ) (sock : TenSocket) (headerBlock : Bytes)
    (headerLen : Nat) (bodyPrefix : Bytes) (bodyPrefixLen : Nat) : Ten (Option μ) := do
  let some _ ← tenMalloc
    | return none
  let some _ ← tenMalloc
    | return none
  let (contentLength, headers, ctx) ← tenHttpParseHeadersText
    (CString.ofMemory (headerBlock.take headerLen ++ [0])) .none firstLineFn ctx
  if contentLength = -2 then
    return none
  else
    let (body, _) ← tenHttpReadBody transport sock contentLength bodyPrefix bodyPrefixLen
    match body with
    | none => return none
    | some body => return some (build ctx headers body)

theorem tenHttpParseRequest_eq :
    tenHttpParseRequest transport = parseMessage transport tenRequestFirstLine
      { method := .get, path := none }
      fun ctx headers body => { method := ctx.method, path := ctx.path, headers, body } := rfl

theorem tenHttpParseResponse_eq :
    tenHttpParseResponse transport = parseMessage transport tenResponseFirstLine 0
      fun status headers body => { status, headers, body } := by
  funext sock headerBlock headerLen bodyPrefix bodyPrefixLen
  simp only [tenHttpParseResponse, parseMessage, tenHttpResponseCreate, bind_assoc]
  refine bind_congr ?_
  rintro (_ | _)
  · rfl
  · dsimp only
    refine bind_congr ?_
    rintro (_ | _)
    · simp only [pure_bind]
    · rfl

variable {transport}

/-- A parser of messages: how it takes the first line apart, and what it makes of
the parts. -/
structure MessageParser (transport : Transport) (parts : Bytes → Option γ)
    (content : μ → HttpMessage γ)
    (parse : TenSocket → Bytes → Nat → Bytes → Nat → Ten (Option μ)) where
  firstLineFn : TenFirstLineFn γ
  ctx : γ
  build : γ → TenHttpHeaders → TenBuffer → μ
  parses : parse = parseMessage transport firstLineFn ctx build
  answers : ∀ (grants : Schedule) (world : World) (line : Bytes) (ctx : γ),
    Returns (firstLineFn line ctx) grants world (fun reply _ =>
      (reply.1 = false ∧ ¬ Ample grants) ∨ FirstLineReply parts line reply)
  confined : ∀ (line : Bytes) (ctx : γ), Confined World.requests (firstLineFn line ctx)
  built : ∀ (ctx : γ) (headers : TenHttpHeaders) (body : TenBuffer),
    content (build ctx headers body) =
      { first := ctx, headers := headers.pairs, body := body.contents }

/-- The parser of requests. -/
def requestParser (transport : Transport) :
    MessageParser transport requestLineParts TenHttpRequest.content
      (tenHttpParseRequest transport) where
  firstLineFn := tenRequestFirstLine
  ctx := { method := .get, path := none }
  build ctx headers body := { method := ctx.method, path := ctx.path, headers, body }
  parses := tenHttpParseRequest_eq transport
  answers _ _ := tenRequestFirstLine_reply
  confined := confined_tenRequestFirstLine
  built _ _ _ := rfl

/-- The parser of responses. -/
def responseParser (transport : Transport) :
    MessageParser transport responseLineStatus TenHttpResponse.content
      (tenHttpParseResponse transport) where
  firstLineFn := tenResponseFirstLine
  ctx := 0
  build status headers body := { status, headers, body }
  parses := tenHttpParseResponse_eq transport
  answers _ _ line ctx := (tenResponseFirstLine_parts line ctx).mono fun _ _ reply => .inr reply
  confined := confined_tenResponseFirstLine
  built _ _ _ := rfl

end Messages

section Headers

variable {grants : Schedule} {world : World} {γ : Type} {firstLineFn : TenFirstLineFn γ}
  {parts : Bytes → Option γ}

theorem mem_of_mem_successful {calls : List HeaderCall} {codes : List TenErrorCode}
    {header : CString × CString} (member : header ∈ successful calls codes) :
    (some header.1, some header.2) ∈ calls := by
  obtain ⟨⟨⟨name, value⟩, code⟩, listed, taken⟩ := List.mem_filterMap.mp member
  have inCalls := (List.of_mem_zip listed).1
  split at taken
  · rename_i same
    cases same
    cases taken
    exact inCalls
  · cases taken

theorem readBlock_accepted {block : Bytes} {read : Int × List (CString × CString) × γ}
    (parsed : readBlock parts block = some read) : read.1 ≠ -2 := by
  rw [readBlock] at parsed
  split at parsed
  · cases parsed
  · split at parsed
    · cases parsed
    · dsimp only at parsed
      split at parsed
      · cases parsed
      · rename_i accepted
        cases parsed
        exact accepted

theorem FirstLineReply.parts_eq {line : Bytes} {filled : γ}
    (reply : FirstLineReply parts line (true, filled)) : parts line = some filled := by
  rw [FirstLineReply] at reply
  cases taken : parts line with
  | none =>
      rw [taken] at reply
      cases reply
  | some value =>
      rw [taken] at reply
      cases reply
      rfl

/-- A block whose headers may not be stored: the length that is announced is
that of the last line all the same, and the one that is stored is that of some
line. -/
theorem tenHttpParseHeadersText_short
    (answers : ∀ (line : Bytes) (ctx : γ) (now : World),
      Returns (firstLineFn line ctx) grants now (fun reply _ =>
        (reply.1 = false ∧ ¬ Ample grants) ∨ FirstLineReply parts line reply))
    (block : Bytes) (ctx : γ) :
    Returns (tenHttpParseHeadersText (CString.ofMemory (block ++ [0])) .none firstLineFn ctx)
      grants world (fun reply _ => reply.1 = -2 ∨ ∃ read, readBlock parts block = some read ∧
        reply.1 = read.1 ∧ ∀ value, OrderedMap.lookup foldCase contentLengthName reply.2.1.pairs =
          some value → LengthLine block value) := by
  have sets := @tenHttpParseHeadersText_sets γ firstLineFn (CString.ofMemory (block ++ [0]))
    { method := .get, path := none, headers := .none, body := none } ctx
  dsimp only at sets
  unfold LengthLine
  rw [sets, readBlock]
  cases blockLines (CString.ofMemory (block ++ [0])).bytes with
  | nil =>
      rw [returns_pure]
      exact .inl rfl
  | cons first lines =>
      dsimp only
      rw [returns_bind]
      apply (answers first ctx world).mono
      rintro ⟨accepted, filled⟩ _ answer
      cases accepted with
      | false =>
          rw [if_neg (by simp), returns_pure]
          exact .inl rfl
      | true =>
          have taken : parts first = some filled := by
            obtain ⟨rejected, -⟩ | reply := answer
            · cases rejected
            · exact reply.parts_eq
          rw [if_pos rfl, returns_bind, taken]
          apply (setRequestHeaders_spec (lineCalls lines)).mono
          rintro ⟨codes, request⟩ _ ⟨-, pairs⟩
          rw [returns_pure]
          by_cases announced : announcedBy lines (-1) = -2
          · exact .inl announced
          have kept : (if (lines.foldl readLine (-1, [])).1 = -2 then none
              else some ((lines.foldl readLine (-1, [])).1, (lines.foldl readLine (-1, [])).2,
                filled)) = some (announcedBy lines (-1), (lines.foldl readLine (-1, [])).2,
                  filled) := by
            rw [foldl_readLine]
            exact if_neg announced
          refine .inr ⟨_, kept, rfl, ?_⟩
          intro value found
          dsimp only at pairs found
          rw [pairs] at found
          change OrderedMap.lookup _ _ (OrderedMap.ofList foldCase _) = _ at found
          rw [OrderedMap.lookup_ofList, Option.map_eq_some_iff] at found
          obtain ⟨⟨name, value⟩, search, rfl⟩ := found
          have member := List.mem_reverse.mp (List.mem_of_find?_eq_some search)
          have named := List.find?_some search
          have listed := mem_of_mem_successful member
          rw [lineCalls, List.mem_map] at listed
          obtain ⟨⟨otherName, otherValue⟩, inLines, same⟩ := listed
          cases same
          exact ⟨name, inLines, of_decide_eq_true named⟩

/-- Every line may be the last one that is stored. -/
theorem tenHttpParseHeadersText_allows
    (answers : ∀ (line : Bytes) (ctx : γ) (now : World),
      Returns (firstLineFn line ctx) (fun _ => true) now (fun reply _ =>
        FirstLineReply parts line reply))
    (confined : ∀ (line : Bytes) (ctx : γ), Confined World.requests (firstLineFn line ctx))
    {block : Bytes} {read : Int × List (CString × CString) × γ}
    (parsed : readBlock parts block = some read) {value : CString}
    (line : LengthLine block value) (ctx : γ) (world : World) :
    Allows World.requests
      (tenHttpParseHeadersText (CString.ofMemory (block ++ [0])) .none firstLineFn ctx) world
      (fun reply _ => reply.1 = read.1 ∧ reply.2.2 = read.2.2 ∧
        OrderedMap.lookup foldCase contentLengthName reply.2.1.pairs = some value) := by
  have sets := @tenHttpParseHeadersText_sets γ firstLineFn (CString.ofMemory (block ++ [0]))
    { method := .get, path := none, headers := .none, body := none } ctx
  dsimp only at sets
  obtain ⟨name, listed, named⟩ := line
  rw [readBlock] at parsed
  rw [sets]
  cases all : blockLines (CString.ofMemory (block ++ [0])).bytes with
  | nil =>
      rw [all] at parsed
      cases parsed
  | cons first lines =>
      rw [all] at parsed listed
      rw [List.tail_cons] at listed
      dsimp only at parsed ⊢
      cases taken : parts first with
      | none =>
          rw [taken] at parsed
          cases parsed
      | some filled =>
          rw [taken, foldl_readLine] at parsed
          dsimp only at parsed
          split at parsed
          · cases parsed
          cases parsed
          refine Allows.bind (Allows.mono ((confined first ctx).allows (answers first ctx world)) ?_)
          rintro ⟨accepted, again⟩ now answer
          rw [FirstLineReply, taken] at answer
          cases answer
          dsimp only
          rw [if_pos rfl]
          -- the lines up to this one are granted what they need, and the others refused
          obtain ⟨before, after, cut⟩ := List.append_of_mem listed
          have calls : lineCalls lines = (before ++ [(name, value)]).map
              (fun header => (some header.1, some header.2)) ++
                after.map (fun header => (some header.1, some header.2)) := by
            rw [lineCalls, cut, ← List.map_append, List.append_assoc, List.singleton_append]
          rw [calls, setRequestHeaders_append]
          refine Allows.bind (Allows.bind (Allows.mono ((confined_setRequestHeaders _ _).allows
            (setRequestHeaders_sets ample_always _)) ?_))
          rintro ⟨codes, request⟩ _ stored
          refine Allows.bind (Allows.mono ((confined_setRequestHeaders _ _).allows
            (setRequestHeaders_refused _)) ?_)
          rintro ⟨others, last⟩ _ kept
          refine Allows.pure (Allows.pure ⟨rfl, rfl, ?_⟩)
          dsimp only at stored kept ⊢
          rw [kept, stored, List.foldl_append, List.foldl_cons, List.foldl_nil,
            OrderedMap.lookup_insert, if_pos named]

end Headers

section Receiving

variable {grants : Schedule} {world : World} {transport : Transport} {γ μ : Type}
  {parts : Bytes → Option γ} {content : μ → HttpMessage γ}
  {parse : TenSocket → Bytes → Nat → Bytes → Nat → Ten (Option μ)}

theorem MessageParser.short (parser : MessageParser transport parts content parse)
    (sock : TenSocket) (headerBlock : Bytes) (headerLen : Nat) (bodyPrefix : Bytes)
    (bodyPrefixLen : Nat) :
    Returns (parse sock headerBlock headerLen bodyPrefix bodyPrefixLen) grants world
      (fun reply _ => ∀ message, reply = some message →
        ∃ read, readBlock parts (headerBlock.take headerLen) = some read ∧
          (∀ value, OrderedMap.lookup foldCase contentLengthName (content message).headers =
            some value → LengthLine (headerBlock.take headerLen) value) ∧
          (bodyReceived transport sock.receiveCalls sock.incoming.length bodyPrefixLen
            read.1.toNat = 0 → (content message).body = [])) := by
  rw [parser.parses]
  simp only [parseMessage, returns_bind, returns_tenMalloc]
  refine ⟨fun _ => ⟨fun _ => ?_, fun _ => by simp⟩, fun _ => by simp⟩
  apply (tenHttpParseHeadersText_short (fun line ctx now => parser.answers grants now line ctx)
    (headerBlock.take headerLen) parser.ctx).mono
  rintro ⟨contentLength, headers, ctx⟩ _ read
  dsimp only at read ⊢
  apply returns_ite
  · intro _
    rw [returns_pure]
    rintro message ⟨⟩
  · intro accepted
    obtain failed | ⟨read, parsed, rfl, stored⟩ := read
    · exact absurd failed accepted
    rw [returns_bind]
    apply (tenHttpReadBody_ends sock read.1 bodyPrefix bodyPrefixLen).mono
    rintro ⟨reply, rest⟩ _ empty
    cases reply with
    | none =>
        simp only [returns_pure]
        rintro message ⟨⟩
    | some body =>
        simp only [returns_pure]
        rintro message ⟨⟩
        rw [parser.built]
        exact ⟨read, parsed, stored, empty body rfl⟩

theorem MessageParser.allows (parser : MessageParser transport parts content parse) (keep : Bool)
    {sock : TenSocket} {headerBlock : Bytes} {headerLen : Nat} {bodyPrefix : Bytes}
    {bodyPrefixLen : Nat} (whole : bodyPrefixLen ≤ bodyPrefix.length)
    {read : Int × List (CString × CString) × γ}
    (parsed : readBlock parts (headerBlock.take headerLen) = some read) {value : CString}
    (line : LengthLine (headerBlock.take headerLen) value) (world : World) :
    Allows World.requests (parse sock headerBlock headerLen bodyPrefix bodyPrefixLen) world
      (fun reply _ => ∃ message, reply = some message ∧
        OrderedMap.lookup foldCase contentLengthName (content message).headers = some value ∧
        (content message).body.length = if keep then bodyReceived transport sock.receiveCalls
          sock.incoming.length bodyPrefixLen read.1.toNat else 0) := by
  have granted : ∀ now : World, Returns tenMalloc (fun _ => true) now (fun reply _ =>
      ∃ addr, reply = some addr) := by
    intro now
    rw [returns_tenMalloc_of_ample ample_always]
    exact ⟨_, rfl⟩
  have notFailure : read.1 ≠ -2 := readBlock_accepted parsed
  rw [parser.parses, parseMessage]
  refine Allows.bind (Allows.mono (confined_tenMalloc.allows (granted world)) ?_)
  rintro _ one ⟨text, rfl⟩
  refine Allows.bind (Allows.mono (confined_tenMalloc.allows (granted one)) ?_)
  rintro _ two ⟨block, rfl⟩
  refine Allows.bind (Allows.mono (tenHttpParseHeadersText_allows
    (fun line ctx now => ((parser.answers _ now line ctx).mono fun reply _ answer =>
      answer.resolve_left fun refused => refused.2 ample_always))
    parser.confined parsed line parser.ctx two) ?_)
  rintro ⟨contentLength, headers, ctx⟩ three ⟨rfl, -, stored⟩
  dsimp only at stored ⊢
  rw [if_neg notFailure]
  have body : Allows World.requests
      (tenHttpReadBody transport sock read.1 bodyPrefix bodyPrefixLen) three (fun reply _ =>
        ∃ body, reply.1 = some body ∧ body.contents.length =
          if keep then bodyReceived transport sock.receiveCalls sock.incoming.length bodyPrefixLen
            read.1.toNat else 0) := by
    cases keep with
    | false =>
        apply (tenHttpReadBody_allows_empty sock read.1 bodyPrefix bodyPrefixLen three).mono
        rintro reply _ ⟨body, same, empty⟩
        exact ⟨body, same, by rw [empty]; rfl⟩
    | true =>
        apply Allows.mono ((confined_tenHttpReadBody _ _ _ _).allows
          (tenHttpReadBody_spec ample_always sock read.1 bodyPrefix whole))
        rintro reply _ ⟨body, same, -, contents⟩
        refine ⟨body, same, ?_⟩
        have brought := @bytesBrought_le transport (sock.incoming.length + 1) sock.receiveCalls
          sock.incoming.length (read.1.toNat - bodyPrefixLen)
        rw [contents, if_pos rfl, bodyReceived, List.length_take, List.length_append,
          List.length_take]
        omega
  refine Allows.bind (Allows.mono body ?_)
  rintro ⟨reply, rest⟩ _ ⟨body, rfl, length⟩
  refine Allows.pure ⟨_, rfl, ?_⟩
  rw [parser.built]
  exact ⟨stored, length⟩

/-- The bytes of a body that a reader gets, and whether there are any. -/
theorem bodyReceived_eq_zero_iff {sock : TenSocket} {i calls received : Nat} {announced : Int}
    (reached : headersReceived transport sock.incoming (sock.incoming.length + 1)
      sock.receiveCalls 0 = some (i, calls, received)) :
    bodyReceived transport calls (sock.incoming.length - received) (received - (i + 4))
        announced.toNat = 0 ↔ announced ≤ 0 ∨ ¬ Arrives transport sock (i + 5) := by
  have one := le_bodyReceived_iff announced.toNat 1 reached
  have positive : 1 ≤ announced.toNat ↔ ¬ announced ≤ 0 := by omega
  rw [positive] at one
  rw [← Nat.lt_one_iff, ← Nat.not_le, one, not_and_or, not_not]

/-- What is known of a message that is received when allocations may be refused: the
length that is stored is that of some line of its block, and nothing is in the
body where nothing of it was announced or arrived. -/
def ShortMessage (transport : Transport) (parts : Bytes → Option γ) (sock : TenSocket)
    (message : HttpMessage γ) : Prop :=
  ∃ i read, BlockArrives transport sock i ∧ readBlock parts (sock.incoming.take i) = some read ∧
    (∀ value, OrderedMap.lookup foldCase contentLengthName message.headers = some value →
      LengthLine (sock.incoming.take i) value) ∧
    (read.1 ≤ 0 ∨ ¬ Arrives transport sock (i + 5) → message.body = [])

theorem tenHttpReceive_short (parser : MessageParser transport parts content parse)
    (sock : TenSocket) :
    Returns (tenHttpReceive transport parse sock) grants world (fun reply _ =>
      (reply.1 = .ok ↔ reply.2.isSome = true) ∧ ∀ message, reply.2 = some message →
        ShortMessage transport parts sock (content message)) := by
  simp only [tenHttpReceive, returns_bind]
  apply tenBufferCreate_spec.mono
  rintro reply _ (⟨rfl, -⟩ | ⟨raw, rfl, valid, empty⟩)
  · simp
  simp only [returns_bind]
  apply (tenHttpReadUntilHeadersEnd_reads valid empty).mono
  rintro ⟨found, raw, rest⟩ _ read
  generalize reached : headersReceived transport sock.incoming (sock.incoming.length + 1)
    sock.receiveCalls 0 = outcome at read
  dsimp only at read ⊢
  cases found with
  | false => simp
  | true =>
      obtain ⟨missing, -⟩ | read := read
      · cases missing
      cases read with
      | @found i _ _ validRaw received blank =>
          have split := (HeadersRead.found validRaw received blank).splitAt
          simp only [if_true, returns_bind, returns_tenBufferData, returns_tenBufferSize,
            split.search]
          apply (parser.short rest raw.data i (raw.data.drop (i + 4)) _).mono
          intro reply _ short
          rw [returns_pure]
          refine ⟨by cases reply <;> simp, fun message same => ?_⟩
          obtain ⟨read, parsed, stored, nothing⟩ := short message same
          rw [split.front] at parsed stored
          rw [split.size, split.left, bodyReceived_eq_zero_iff reached] at nothing
          exact ⟨i, read, headersReceived_iff.mp ⟨_, _, reached⟩, parsed, stored, nothing⟩

/-- What refusals can lead to: any line is the one that is stored, and what arrives
of the body is kept or lost. -/
def LeadsTo (transport : Transport) (keep : Bool) (sock : TenSocket) (i : Nat) (announced : Int)
    (value : CString) (message : HttpMessage γ) : Prop :=
  OrderedMap.lookup foldCase contentLengthName message.headers = some value ∧
    (message.body = [] ↔ keep = false ∨ announced ≤ 0 ∨ ¬ Arrives transport sock (i + 5))

theorem tenHttpReceive_allows (parser : MessageParser transport parts content parse) (keep : Bool)
    {sock : TenSocket} {i : Nat} (arrives : BlockArrives transport sock i)
    {read : Int × List (CString × CString) × γ}
    (parsed : readBlock parts (sock.incoming.take i) = some read) {value : CString}
    (line : LengthLine (sock.incoming.take i) value) (world : World) :
    Allows World.requests (tenHttpReceive transport parse sock) world (fun reply _ =>
      ∃ message, reply.2 = some message ∧
        LeadsTo transport keep sock i read.1 value (content message)) := by
  obtain ⟨calls, received, reached⟩ := headersReceived_iff.mpr arrives
  have created : Returns tenBufferCreate (fun _ => true) world (fun reply _ =>
      reply = some emptyBuffer) := by
    simp [tenBufferCreate, emptyBuffer]
  rw [tenHttpReceive]
  refine Allows.bind (Allows.mono (confined_tenBufferCreate.allows created) ?_)
  rintro reply one rfl
  refine Allows.bind (Allows.mono ((confined_tenHttpReadUntilHeadersEndLoop _ _ _).allows
    (tenHttpReadUntilHeadersEnd_spec ample_always emptyBuffer_valid rfl)) ?_)
  rintro ⟨found, raw, rest⟩ two headersRead
  rw [reached] at headersRead
  dsimp only at headersRead
  cases found with
  | false => cases headersRead
  | true =>
      have split := headersRead.splitAt
      dsimp only
      rw [if_pos rfl]
      refine Allows.bind (Allows.mono ((confined_tenBufferData raw).allows
        ((@returns_tenBufferData (fun _ => true) _ raw fun data _ =>
          data = raw.data).mpr rfl)) ?_)
      rintro _ three rfl
      refine Allows.bind (Allows.mono ((confined_tenBufferSize raw).allows
        ((@returns_tenBufferSize (fun _ => true) _ raw fun size _ =>
          size = raw.size).mpr rfl)) ?_)
      rintro _ four rfl
      rw [split.search]
      have block : raw.data.take i = sock.incoming.take i := split.front
      rw [← block] at parsed line
      refine Allows.bind (Allows.mono (parser.allows keep split.whole parsed line four) ?_)
      rintro _ last ⟨message, rfl, stored, length⟩
      refine Allows.pure ⟨message, rfl, stored, ?_⟩
      rw [split.size, split.left, split.calls] at length
      rw [← bodyReceived_eq_zero_iff reached, ← List.length_eq_zero_iff, length]
      cases keep <;> simp

end Receiving

section Sending

variable {world : World} {transport : Transport}

theorem confined_tenHttpPut (out : TenBuffer) (text : Bytes) :
    Confined World.requests (tenHttpPut out text) :=
  (confined_tenBufferWrite _ _ _).bind fun _ => .pure _

theorem confined_tenHttpWriteHeaders (pairs : List (CString × CString)) :
    ∀ out : TenBuffer, Confined World.requests (tenHttpWriteHeaders out pairs) := by
  induction pairs with
  | nil => exact fun _ => .pure _
  | cons pair rest inductionHypothesis =>
      intro out
      exact (confined_tenHttpPut _ _).bind fun one => (confined_tenHttpPut one _).bind fun two =>
        (confined_tenHttpPut two _).bind fun three => (confined_tenHttpPut three _).bind
          inductionHypothesis

theorem confined_tenHttpPutBody (out : TenBuffer) (body : Option TenBuffer) (bodySize : Nat) :
    Confined World.requests (tenHttpPutBody out body bodySize) := by
  cases body with
  | none => exact .pure _
  | some body =>
      exact .ite ((confined_tenBufferData body).bind fun data =>
        (confined_tenBufferWrite _ _ _).bind fun _ => .pure _) (.pure _)

theorem confined_tenHttpSendAllLoop (data : Bytes) (size steps : Nat) :
    ∀ (sock : TenSocket) (sent : Nat),
      Confined World.requests (tenHttpSendAllLoop transport data size steps sock sent) := by
  induction steps with
  | zero => exact fun _ _ => confined_stuck
  | succ steps inductionHypothesis =>
      intro sock sent
      refine .ite ((confined_tenSocketSend sock _ _).bind ?_) (.pure _)
      rintro ⟨n, after⟩
      exact .ite (.pure _) (inductionHypothesis after _)

theorem confined_tenHttpSendMessage (sock : TenSocket) (out : TenBuffer)
    (headers : TenHttpHeaders) (body : Option TenBuffer) :
    Confined World.requests (tenHttpSendMessage transport sock out headers body) := by
  refine (confined_tenHttpWriteHeaders _ out).bind fun written => Confined.bind ?_ fun bodySize =>
    (confined_tenHttpPut written _).bind fun closed => (confined_tenHttpPutBody closed _ _).bind
      fun whole => (confined_tenBufferData whole).bind fun data =>
        (confined_tenBufferSize whole).bind fun size => confined_tenHttpSendAllLoop _ _ _ _ _
  cases body with
  | none => exact .pure _
  | some body => exact confined_tenBufferSize body

theorem tenHttpPut_refused (text : Bytes) :
    Returns (tenHttpPut emptyBuffer text) (fun _ => false) world (fun out _ =>
      out = emptyBuffer) := by
  simp only [tenHttpPut, returns_bind, returns_pure]
  exact tenBufferWrite_refused text text.length

theorem tenHttpWriteHeaders_refused (pairs : List (CString × CString)) :
    ∀ {world : World}, Returns (tenHttpWriteHeaders emptyBuffer pairs) (fun _ => false) world
      (fun out _ => out = emptyBuffer) := by
  induction pairs with
  | nil =>
      intro world
      rw [tenHttpWriteHeaders, returns_pure]
  | cons pair rest inductionHypothesis =>
      intro world
      simp only [tenHttpWriteHeaders, returns_bind]
      apply (tenHttpPut_refused _).mono
      rintro _ _ rfl
      apply (tenHttpPut_refused _).mono
      rintro _ _ rfl
      apply (tenHttpPut_refused _).mono
      rintro _ _ rfl
      apply (tenHttpPut_refused _).mono
      rintro _ _ rfl
      exact inductionHypothesis

theorem tenHttpPutBody_refused (body : Option TenBuffer) (bodySize : Nat) :
    Returns (tenHttpPutBody emptyBuffer body bodySize) (fun _ => false) world (fun out _ =>
      out = emptyBuffer) := by
  cases body with
  | none => exact (returns_pure _ _).mpr rfl
  | some body =>
      apply returns_ite
      · intro _
        simp only [returns_bind, returns_tenBufferData, returns_pure]
        exact tenBufferWrite_refused body.data bodySize
      · intro _
        rw [returns_pure]

/-- A message that does not get into the buffer is sent: there is nothing to
send. -/
theorem tenHttpSendMessage_refused (sock : TenSocket) (headers : TenHttpHeaders)
    (body : Option TenBuffer) :
    Returns (tenHttpSendMessage transport sock emptyBuffer headers body) (fun _ => false) world
      (fun reply _ => reply.1 = .ok) := by
  rw [tenHttpSendMessage, returns_bind]
  apply (tenHttpWriteHeaders_refused headers.pairs).mono
  rintro _ one rfl
  rw [returns_bind]
  have sized : Returns (tenHttpBodySize body) (fun _ => false) one (fun _ _ => True) := by
    cases body <;> simp [tenHttpBodySize]
  apply sized.mono
  intro bodySize two _
  rw [returns_bind]
  apply (tenHttpPut_refused _).mono
  rintro _ three rfl
  rw [returns_bind]
  apply (tenHttpPutBody_refused body bodySize).mono
  rintro _ four rfl
  simp only [returns_bind, returns_tenBufferData, returns_tenBufferSize]
  rw [tenHttpSendAll, tenHttpSendAllLoop]
  apply returns_ite
  · intro some
    exact absurd some (Nat.lt_irrefl 0)
  · intro _
    rw [returns_pure]

/-- Refusals can lead to a request that counts as sent, with nothing sent. -/
theorem tenHttpSendRequest_allows (sock : TenSocket) {request : TenHttpRequest} {path : CString}
    (located : request.path = some path) (host : CString) (world : World) :
    Allows World.requests (tenHttpSendRequest transport sock request host) world (fun reply _ =>
      reply.1 = .ok ∧ sock.SameReceiving reply.2) := by
  have created : Returns tenBufferCreate (fun _ => true) world (fun reply _ =>
      reply = some emptyBuffer) := by
    simp [tenBufferCreate, emptyBuffer]
  simp only [tenHttpSendRequest, located]
  refine Allows.bind (Allows.mono (confined_tenBufferCreate.allows created) ?_)
  rintro _ one rfl
  refine Allows.bind (Allows.mono ((confined_tenHttpPut _ _).allows (tenHttpPut_refused _)) ?_)
  rintro _ two rfl
  refine Allows.bind (Allows.mono ((confined_tenHttpPut _ _).allows (tenHttpPut_refused _)) ?_)
  rintro _ three rfl
  exact (confined_tenHttpSendMessage _ _ _ _).allows
    ((tenHttpSendMessage_refused sock request.headers request.body).and
      (tenHttpSendMessage_keeps sock emptyBuffer request.headers request.body))

end Sending

section Connections

variable {grants : Schedule} {world : World} {transport : Transport}

section SameReceiving

variable {sock after : TenSocket} {γ : Type} {amount i : Nat}

theorem TenSocket.SameReceiving.arrives_iff (kept : sock.SameReceiving after) :
    Arrives transport after amount ↔ Arrives transport sock amount := by
  rw [Arrives, Arrives, kept.incoming, kept.calls]

theorem TenSocket.SameReceiving.blockArrives_iff (kept : sock.SameReceiving after) :
    BlockArrives transport after i ↔ BlockArrives transport sock i := by
  rw [BlockArrives, BlockArrives, kept.incoming, kept.calls]

theorem TenSocket.SameReceiving.short (kept : sock.SameReceiving after)
    {parts : Bytes → Option γ} {message : HttpMessage γ}
    (short : ShortMessage transport parts after message) :
    ShortMessage transport parts sock message := by
  unfold ShortMessage at short ⊢
  simpa only [kept.incoming, kept.blockArrives_iff, kept.arrives_iff] using short

theorem TenSocket.SameReceiving.leadsTo (kept : sock.SameReceiving after) {keep : Bool}
    {announced : Int} {value : CString} {message : HttpMessage γ}
    (leads : LeadsTo transport keep after i announced value message) :
    LeadsTo transport keep sock i announced value message := by
  unfold LeadsTo at leads ⊢
  rwa [kept.arrives_iff] at leads

end SameReceiving

/-- The request that the handler is called with. -/
theorem tenHttpHandleConnection_short (handler : TenHttpHandler) (client : TenSocket) :
    Returns (tenHttpHandleConnection transport handler client) grants world (fun reply _ =>
      ∀ request, reply.1 = some request →
        ShortMessage transport requestLineParts client request.content) := by
  rw [tenHttpHandleConnection, returns_bind]
  apply (tenHttpReceive_short (requestParser transport) client).mono
  rintro ⟨code, req⟩ _ ⟨-, short⟩
  dsimp only at short ⊢
  cases req with
  | none =>
      apply returns_ite
      · intro _
        simp only [tenHttpResponseCreate, returns_bind, returns_tenMalloc]
        constructor
        · intro _
          simp only [returns_bind, returns_pure]
          apply (tenHttpSendResponse_keeps client _).mono
          rintro _ _ _ request ⟨⟩
        · intro _
          simp
      · intro _
        simp
  | some req =>
      simp only [tenHttpResponseCreate, returns_bind, returns_tenMalloc]
      constructor
      · intro _
        simp only [returns_bind, returns_pure]
        refine ⟨_, _, rfl, ?_⟩
        apply (tenHttpSendResponse_keeps client _).mono
        rintro _ _ _ request same
        exact short request same
      · intro _
        simp

/-- Refusals can lead to a call of the handler with a length of any line, and a
body that has been lost. -/
theorem tenHttpHandleConnection_leads (handler : TenHttpHandler) (keep : Bool)
    {client : TenSocket} {i : Nat} (arrives : BlockArrives transport client i)
    {read : Int × List (CString × CString) × TenRequestFirstLineCtx}
    (parsed : readBlock requestLineParts (client.incoming.take i) = some read) {value : CString}
    (line : LengthLine (client.incoming.take i) value) (world : World) :
    ∃ grants, Returns (tenHttpHandleConnection transport handler client) grants world
      (fun reply _ => ∃ request, reply.1 = some request ∧
        LeadsTo transport keep client i read.1 value request.content) := by
  have created : ∀ now : World, Returns tenHttpResponseCreate (fun _ => true) now (fun reply _ =>
      ∃ response, reply = some response) := by
    intro now
    simp [tenHttpResponseCreate]
  have confined : Confined World.requests tenHttpResponseCreate := by
    apply confined_tenMalloc.bind
    rintro (_ | _)
    · exact .pure _
    · exact .pure _
  have called : Allows World.requests (do
      let received ← tenHttpReceiveRequest transport client
      let response ← tenHttpResponseCreate
      return (received.2, response)) world (fun reply _ =>
        (∃ request, reply.1 = some request ∧
          LeadsTo transport keep client i read.1 value request.content) ∧
        ∃ response, reply.2 = some response) := by
    refine Allows.bind (Allows.mono (tenHttpReceive_allows (requestParser transport) keep arrives
      parsed line world) ?_)
    intro received now message
    refine Allows.bind (Allows.mono (confined.allows (created now)) ?_)
    intro response _ filled
    exact .pure ⟨message, filled⟩
  obtain ⟨grants, received⟩ := called.exists_env
  simp only [returns_bind, returns_pure] at received
  refine ⟨grants, ?_⟩
  rw [tenHttpHandleConnection, returns_bind]
  apply received.mono
  rintro ⟨code, reply⟩ between ⟨response, after, run, ⟨request, rfl, leads⟩, new, rfl⟩
  dsimp only
  rw [returns_bind]
  refine ⟨some new, after, run, ?_⟩
  dsimp only
  rw [returns_bind]
  refine ⟨_, _, rfl, ?_⟩
  dsimp only
  rw [returns_bind]
  apply (tenHttpSendResponse_keeps client _).mono
  intro _ _ _
  rw [returns_pure]
  exact ⟨request, rfl, leads⟩

/-- The response that the client returns; and it reports an error when there is
none. -/
theorem tenHttpClientSend_short (sock : TenSocket) {request : TenHttpRequest} {path : CString}
    (located : request.path = some path) (host : CString) :
    Returns (tenHttpClientSend transport (.ok sock) (some host) (some request)) grants world
      (fun reply after => (∀ response, reply = some response →
          ShortMessage transport responseLineStatus sock response.content) ∧
        (reply = none → after.lastError ≠ .ok)) := by
  simp only [tenHttpClientSend, returns_bind]
  apply (tenHttpSendRequest_keeps sock located host).mono
  rintro ⟨rc, after⟩ _ kept
  dsimp only at kept ⊢
  apply returns_ite
  · intro _
    simp
  · intro _
    simp only [tenHttpReceiveResponse, returns_bind]
    apply (tenHttpReceive_short (responseParser transport) after).mono
    rintro ⟨code, reply⟩ _ ⟨answered, short⟩
    simp only [returns_tenSetError, returns_pure]
    refine ⟨fun response same => kept.short (short response same), ?_⟩
    rintro rfl ok
    simpa using answered.mp ok

theorem tenHttpClientSend_leads (keep : Bool) {sock : TenSocket} {request : TenHttpRequest}
    {path : CString} (located : request.path = some path) (host : CString) {i : Nat}
    (arrives : BlockArrives transport sock i) {read : Int × List (CString × CString) × Int}
    (parsed : readBlock responseLineStatus (sock.incoming.take i) = some read) {value : CString}
    (line : LengthLine (sock.incoming.take i) value) (world : World) :
    ∃ grants, Returns (tenHttpClientSend transport (.ok sock) (some host) (some request)) grants
      world (fun reply _ => ∃ response, reply = some response ∧
        LeadsTo transport keep sock i read.1 value response.content) := by
  suffices allows : Allows World.requests
      (tenHttpClientSend transport (.ok sock) (some host) (some request)) world (fun reply _ =>
        ∃ response, reply = some response ∧
          LeadsTo transport keep sock i read.1 value response.content) from allows.exists_env
  rw [tenHttpClientSend]
  refine Allows.bind (Allows.mono (tenHttpSendRequest_allows sock located host world) ?_)
  rintro ⟨rc, after⟩ now ⟨rfl, kept⟩
  dsimp only at kept ⊢
  rw [if_neg (by simp)]
  rw [← kept.blockArrives_iff] at arrives
  rw [← kept.incoming] at parsed line
  refine Allows.bind (Allows.mono (tenHttpReceive_allows (responseParser transport) keep arrives
    parsed line now) ?_)
  rintro ⟨code, reply⟩ last ⟨response, rfl, leads⟩
  refine Allows.bind (Allows.mono ((confined_tenSetError code).allows
    ((@returns_tenSetError (fun _ => true) _ code fun _ _ => True).mpr trivial)) ?_)
  intro _ _ _
  exact .pure ⟨response, rfl, kept.leadsTo leads⟩

end Connections

end Dotten
