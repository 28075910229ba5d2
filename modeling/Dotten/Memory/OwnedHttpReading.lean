/-
Module: Dotten.Memory.OwnedHttpReading
Layer: Memory
Purpose: Receiving a message of http.c with its blocks.  What was read, and the
  copy of the header block that is parsed, are freed on every path, and a message
  that is given up in the middle leaves no block behind.
Imports: Dotten.Memory.OwnedHttpSending
Main exports: Heap.tenSocketReceive, Heap.tenHttpReadUntilHeadersEnd,
  Heap.tenHttpReadBody, Heap.tenHttpParseHeadersText, Heap.tenHttpParseRequest,
  Heap.tenHttpParseResponse, Heap.tenHttpReceive
-/
import Dotten.Memory.OwnedHttpSending

namespace Dotten

open Dotten.Library

namespace Heap

section Functions

variable (transport : Transport)

/-- `ten_socket_receive` of at most `size` bytes into an array of the caller. -/
def tenSocketReceive (sock : OwnedSocket) (size : Nat) : Op (Int × Bytes × OwnedSocket) := do
  access sock.self
  let socket := sock.socket
  let after := { socket with receiveCalls := socket.receiveCalls + 1 }
  match transport.receives socket.receiveCalls with
  | none =>
      tenSetError .network
      return (-1, [], { sock with socket := after })
  | some asked =>
      if socket.incoming = [] ∧ transport.aborts = true then
        tenSetError .network
        return (-1, [], { sock with socket := after })
      else
        let n := min (min (max asked 1) size) socket.incoming.length
        tenSetError .ok
        return (n, socket.incoming.take n,
          { sock with socket := { after with incoming := socket.incoming.drop n } })

/-- The loop of `ten__http_read_until_headers_end`. -/
def tenHttpReadUntilHeadersEndLoop :
    Nat → OwnedSocket → OwnedBuffer → Op (Bool × OwnedBuffer × OwnedSocket)
  | 0, _, _ => stuck
  | steps + 1, sock, raw => do
      let (pointer, data) ← tenBufferData raw
      let size ← tenBufferSize raw
      readBlock pointer size
      if (tenFindCrlfCrlf data size).isSome then
        return (true, raw, sock)
      else if size > tenHttpMaxHeaderSize then
        return (false, raw, sock)
      else
        let (n, chunk, sock) ← tenSocketReceive transport sock tenHttpChunkSize
        if n ≤ 0 then
          return (false, raw, sock)
        else
          let (code, raw) ← tenBufferWrite raw (some chunk) n.toNat
          if code ≠ .ok then
            return (false, raw, sock)
          else
            tenHttpReadUntilHeadersEndLoop steps sock raw

/-- `ten__http_read_until_headers_end`. -/
def tenHttpReadUntilHeadersEnd (sock : OwnedSocket) (raw : OwnedBuffer) :
    Op (Bool × OwnedBuffer × OwnedSocket) :=
  tenHttpReadUntilHeadersEndLoop transport (sock.socket.incoming.length + 1) sock raw

/-- The loop of `ten__http_read_body`. -/
def tenHttpReadBodyLoop (contentLength : Int) :
    Nat → OwnedSocket → OwnedBuffer → Op (OwnedBuffer × OwnedSocket)
  | 0, _, _ => stuck
  | steps + 1, sock, body => do
      let size ← tenBufferSize body
      if (size : Int) < contentLength then
        let remaining := contentLength.toNat - size
        let toRead := if remaining < tenHttpChunkSize then remaining else tenHttpChunkSize
        let (n, chunk, sock) ← tenSocketReceive transport sock toRead
        if n ≤ 0 then
          return (body, sock)
        else
          let (_, body) ← tenBufferWrite body (some chunk) n.toNat
          tenHttpReadBodyLoop contentLength steps sock body
      else
        return (body, sock)

/-- `ten__http_read_body`; the start of the body lies in the block `source`. -/
def tenHttpReadBody (sock : OwnedSocket) (contentLength : Int) (source : Option Nat)
    (bodyPrefix : Bytes) (bodyPrefixLen : Nat) : Op (Option OwnedBuffer × OwnedSocket) := do
  let some body ← tenBufferCreate
    | return (none, sock)
  if contentLength ≤ 0 then
    return (some body, sock)
  else
    let take :=
      if bodyPrefixLen < contentLength.toNat then bodyPrefixLen else contentLength.toNat
    let (_, body) ←
      if take > 0 then do
        readBlock source take
        tenBufferWrite body (some bodyPrefix) take
      else pure (TenErrorCode.ok, body)
    let (body, sock) ←
      tenHttpReadBodyLoop transport contentLength (sock.socket.incoming.length + 1) sock body
    return (some body, sock)

/-- `ten__first_line_fn`: whether the first line was accepted, and the
context. -/
abbrev TenFirstLineFn (γ : Type) := Bytes → γ → Op (Bool × γ)

/-- What the loop of `ten__http_parse_headers_text` does with a line that is
neither empty nor the first. -/
def tenHttpParseHeaderLine (owner text : Nat) (line : Bytes) (headers : OwnedHeaders)
    (contentLength : Int) : Op (OwnedHeaders × Int) :=
  match strchr line (ascii ':') with
  | none => pure (headers, contentLength)
  | some (name, rest) => do
      let name := CString.ofMemory name
      let value := CString.ofMemory (rest.dropWhile (· = ascii ' '))
      let contentLength :=
        if tenCiStrcmp name (literalString "Content-Length") = 0 then atol value.bytes
        else contentLength
      let (_, headers) ← tenHttpHeadersSet owner (some text) headers name value
      return (headers, contentLength)

/-- The loop of `ten__http_parse_headers_text`; the cursor points into the block
`text`, and the headers are those of the message in the block `owner`. -/
def tenHttpParseHeadersLoop {γ : Type} (owner text : Nat) (firstLineFn : TenFirstLineFn γ) :
    Nat → Option Bytes → Bool → Int → OwnedHeaders → γ → Op (Int × OwnedHeaders × γ)
  | 0, _, _, _, _, _ => stuck
  | steps + 1, cursor, firstLine, contentLength, headers, ctx => do
      access text
      match cursor with
      | none | some [] => pure (if firstLine then -2 else contentLength, headers, ctx)
      | some rest => do
          let (line, next) :=
            match strstr rest crlf with
            | some (line, rest) => (line, some rest)
            | none => (rest, none)
          if line = [] then
            tenHttpParseHeadersLoop owner text firstLineFn steps next firstLine contentLength
              headers ctx
          else if firstLine then
            let (accepted, ctx) ← firstLineFn line ctx
            if accepted then
              tenHttpParseHeadersLoop owner text firstLineFn steps next false contentLength headers
                ctx
            else
              return (-2, headers, ctx)
          else
            let (headers, contentLength) ←
              tenHttpParseHeaderLine owner text line headers contentLength
            tenHttpParseHeadersLoop owner text firstLineFn steps next firstLine contentLength
              headers ctx

/-- `ten__http_parse_headers_text`. -/
def tenHttpParseHeadersText {γ : Type} (owner text : Nat) (headersText : CString)
    (headers : OwnedHeaders) (firstLineFn : TenFirstLineFn γ) (ctx : γ) :
    Op (Int × OwnedHeaders × γ) :=
  tenHttpParseHeadersLoop owner text firstLineFn (headersText.length + 1)
    (some headersText.bytes) true (-1) headers ctx

/-- What `ten__request_first_line` fills in of a request. -/
structure OwnedFirstLineCtx where
  method : TenHttpMethod
  path : Option OwnedText

/-- `ten__request_first_line`, for the request in the block `owner` and a line in
the block `text`. -/
def tenRequestFirstLine (owner text : Nat) : TenFirstLineFn OwnedFirstLineCtx := fun line ctx =>
  match strchr line (ascii ' ') with
  | none => pure (false, ctx)
  | some (method, rest) =>
      match tenHttpMethodParse method with
      | none => pure (false, ctx)
      | some method => do
          let path :=
            match strchr rest (ascii ' ') with
            | some (path, _) => path
            | none => rest
          access owner
          let path ← tenHttpCopy (some text) (CString.ofMemory path)
          return (path.isSome, { method, path })

/-- `ten__response_first_line`, whose context is the status. -/
def tenResponseFirstLine : TenFirstLineFn Int := fun line ctx =>
  match strchr line (ascii ' ') with
  | none => pure (false, ctx)
  | some (_, rest) =>
      let statusStr :=
        match strchr rest (ascii ' ') with
        | some (status, _) => status
        | none => rest
      let status := atoi statusStr
      pure (status > 0, status)

/-- `ten__http_parse_request` of what lies in the block `source`. -/
def tenHttpParseRequest (sock : OwnedSocket) (source : Option Nat) (headerBlock : Bytes)
    (headerLen : Nat) (bodyPrefix : Bytes) (bodyPrefixLen : Nat) : Op (Option OwnedRequest) := do
  let some text ← tenMalloc
    | return none
  readBlock source headerLen
  access text
  let headersText := CString.ofMemory (headerBlock.take headerLen ++ [0])
  let some self ← tenMalloc
    | do
      tenFree (some text)
      return none
  let (contentLength, headers, ctx) ←
    tenHttpParseHeadersText self text headersText .none (tenRequestFirstLine self text)
      { method := .get, path := none }
  tenFree (some text)
  if contentLength = -2 then
    tenHttpRequestDestroy
      (some { self, method := ctx.method, path := ctx.path, headers, body := none })
    return none
  else
    let (body, _) ← tenHttpReadBody transport sock contentLength source bodyPrefix bodyPrefixLen
    match body with
    | none => do
        tenHttpRequestDestroy
          (some { self, method := ctx.method, path := ctx.path, headers, body := none })
        return none
    | some body =>
        return some { self, method := ctx.method, path := ctx.path, headers, body := some body }

/-- `ten__http_parse_response`. -/
def tenHttpParseResponse (sock : OwnedSocket) (source : Option Nat) (headerBlock : Bytes)
    (headerLen : Nat) (bodyPrefix : Bytes) (bodyPrefixLen : Nat) :
    Op (Option OwnedResponse) := do
  let some text ← tenMalloc
    | return none
  readBlock source headerLen
  access text
  let headersText := CString.ofMemory (headerBlock.take headerLen ++ [0])
  let some resp ← tenHttpResponseCreate
    | do
      tenFree (some text)
      return none
  let (contentLength, headers, status) ←
    tenHttpParseHeadersText resp.self text headersText resp.headers tenResponseFirstLine 0
  tenFree (some text)
  if contentLength = -2 then
    tenHttpResponseDestroy (some { resp with headers })
    return none
  else
    let (body, _) ← tenHttpReadBody transport sock contentLength source bodyPrefix bodyPrefixLen
    match body with
    | none => do
        tenHttpResponseDestroy (some { resp with status, headers })
        return none
    | some body => return some { resp with status, headers, body := some body }

/-- What `ten__http_handle_connection` and `ten_http_client_send` do to receive
a message. -/
def tenHttpReceive {μ : Type}
    (parse : OwnedSocket → Option Nat → Bytes → Nat → Bytes → Nat → Op (Option μ))
    (sock : OwnedSocket) : Op (TenErrorCode × Option μ) := do
  let some raw ← tenBufferCreate
    | return (.outOfMemory, none)
  let (found, raw, sock) ← tenHttpReadUntilHeadersEnd transport sock raw
  if found then
    let (pointer, data) ← tenBufferData raw
    let size ← tenBufferSize raw
    readBlock pointer size
    let some headerLen := tenFindCrlfCrlf data size
      | stuck
    let message ←
      parse sock pointer data headerLen (data.drop (headerLen + 4)) (size - headerLen - 4)
    tenBufferDestroy (some raw)
    return (if message.isSome then .ok else .parse, message)
  else
    tenBufferDestroy (some raw)
    return (.network, none)

end Functions

section Ownership

variable {transport : Transport} {grants : Schedule} {given : Multiset Nat}

/-- What a `recv` leaves of a socket: the struct, and fewer bytes to come when it
handed some over. -/
structure Received (sock : OwnedSocket) (reply : Int) (after : OwnedSocket) : Prop where
  same : SameStruct sock after
  fewer : 0 < reply → after.socket.incoming.length < sock.socket.incoming.length

theorem owns_tenSocketReceive {sock : OwnedSocket} (held : sock.self ∈ given) (size : Nat) :
    Owns grants given (tenSocketReceive transport sock size) (fun _ => given)
      fun reply => Received sock reply.1 reply.2.2 := by
  have failed : ∀ after, Owns grants given
      (do
        tenSetError .network
        return ((-1 : Int), ([] : Bytes), { sock with socket := after })) (fun _ => given)
      fun reply => Received sock reply.1 reply.2.2 := by
    intro after
    refine Transfers.bind (owns_tenSetError _) ?_
    rintro ⟨⟩ -
    exact Transfers.pure rfl ⟨rfl, fun positive => by omega⟩
  refine Transfers.bind (owns_access held) ?_
  rintro ⟨⟩ -
  dsimp only
  cases transport.receives sock.socket.receiveCalls with
  | none => exact failed _
  | some asked =>
      refine Transfers.ite (fun _ => failed _) fun _ => ?_
      refine Transfers.bind (owns_tenSetError _) ?_
      rintro ⟨⟩ -
      refine Transfers.pure rfl ⟨rfl, ?_⟩
      intro positive
      dsimp only at positive ⊢
      rw [List.length_drop]
      omega

/-- What has been read up to the blank line, if it was found. -/
def HeadersRead (sock : OwnedSocket) (reply : Bool × OwnedBuffer × OwnedSocket) : Prop :=
  SameStruct sock reply.2.2 ∧
    (reply.1 = true →
      (tenFindCrlfCrlf reply.2.1.buffer.data reply.2.1.buffer.size).isSome = true)

/-- Every pass that goes on has received a byte. -/
theorem owns_tenHttpReadUntilHeadersEndLoop (steps : Nat) :
    ∀ {sock : OwnedSocket} {raw : OwnedBuffer}, sock.self ∈ given →
      sock.socket.incoming.length < steps →
      Owns grants (raw.blocks + given) (tenHttpReadUntilHeadersEndLoop transport steps sock raw)
        (fun reply => reply.2.1.blocks + given) (HeadersRead sock) := by
  induction steps with
  | zero =>
      intro sock raw held enough
      omega
  | succ steps inductionHypothesis =>
      intro sock raw held enough
      have rawHeld : raw.blocks ≤ raw.blocks + given := Multiset.le_add_right _ _
      have stopped : HeadersRead sock (false, raw, sock) := ⟨rfl, fun found => by cases found⟩
      refine Transfers.bind (owns_tenBufferData rawHeld) ?_
      rintro ⟨pointer, data⟩ ⟨⟩
      refine Transfers.bind (owns_tenBufferSize rawHeld) ?_
      rintro size rfl
      refine Transfers.bind (owns_readBlock (fun none => (raw.placed none).2)
        (raw.block_le.trans rawHeld)) ?_
      rintro ⟨⟩ -
      refine Transfers.ite (fun found => Transfers.pure rfl ⟨rfl, fun _ => found⟩) fun _ => ?_
      refine Transfers.ite (fun _ => Transfers.pure rfl stopped) fun _ => ?_
      refine Transfers.bind (owns_tenSocketReceive (Multiset.mem_add.mpr (.inr held)) _) ?_
      rintro ⟨n, chunk, after⟩ ⟨same, fewer⟩
      have sameStruct : after.self = sock.self := same
      have shorter : 0 < n → after.socket.incoming.length < sock.socket.incoming.length := fewer
      refine Transfers.ite (fun _ => Transfers.pure rfl ⟨same, fun found => by cases found⟩)
        fun positive => ?_
      refine Transfers.call given (owns_tenBufferWrite raw _ _) rfl ?_
      rintro ⟨code, raw⟩ -
      refine Transfers.ite (fun _ => Transfers.pure rfl ⟨same, fun found => by cases found⟩)
        fun _ => ?_
      have less := shorter (by omega)
      refine (inductionHypothesis (sameStruct ▸ held) (by omega)).conseq rfl (fun _ _ => rfl) ?_
      rintro reply ⟨lastSame, found⟩
      exact ⟨lastSame.trans sameStruct, found⟩

theorem owns_tenHttpReadBodyLoop {contentLength : Int} (steps : Nat) :
    ∀ {sock : OwnedSocket} {body : OwnedBuffer}, sock.self ∈ given →
      sock.socket.incoming.length < steps →
      Owns grants (body.blocks + given) (tenHttpReadBodyLoop transport contentLength steps sock body)
        (fun reply => reply.1.blocks + given) fun _ => True := by
  induction steps with
  | zero =>
      intro sock body held enough
      omega
  | succ steps inductionHypothesis =>
      intro sock body held enough
      refine Transfers.bind (owns_tenBufferSize (Multiset.le_add_right _ _)) ?_
      rintro size -
      refine Transfers.ite (fun _ => ?_) fun _ => Transfers.pure rfl trivial
      refine Transfers.bind (owns_tenSocketReceive (Multiset.mem_add.mpr (.inr held)) _) ?_
      rintro ⟨n, chunk, after⟩ ⟨same, fewer⟩
      have sameStruct : after.self = sock.self := same
      have shorter : 0 < n → after.socket.incoming.length < sock.socket.incoming.length := fewer
      refine Transfers.ite (fun _ => Transfers.pure rfl trivial) fun positive => ?_
      refine Transfers.call given (owns_tenBufferWrite body _ _) rfl ?_
      rintro ⟨code, body⟩ -
      have less := shorter (by omega)
      exact inductionHypothesis (sameStruct ▸ held) (by omega)

/-- A body that there was no memory for owns nothing. -/
theorem owns_tenHttpReadBody {sock : OwnedSocket} (sockHeld : sock.self ∈ given)
    {source : Option Nat} (there : source ≠ none) (held : ofPointer source ≤ given)
    (contentLength : Int) (bodyPrefix : Bytes) (bodyPrefixLen : Nat) :
    Owns grants given
      (tenHttpReadBody transport sock contentLength source bodyPrefix bodyPrefixLen)
      (fun reply => ownsOption OwnedBuffer.blocks reply.1 + given) fun _ => True := by
  refine Transfers.call given owns_tenBufferCreate (zero_add _).symm ?_
  rintro (_ | body) -
  · exact Transfers.pure rfl trivial
  refine Transfers.ite (fun _ => Transfers.pure rfl trivial) fun _ => ?_
  have rest : ∀ body : OwnedBuffer, Owns grants (body.blocks + given)
      (do
        let (body, sock) ← tenHttpReadBodyLoop transport contentLength
          (sock.socket.incoming.length + 1) sock body
        return (some body, sock))
      (fun reply => ownsOption OwnedBuffer.blocks reply.1 + given) fun _ => True := by
    intro body
    refine Transfers.bind (owns_tenHttpReadBodyLoop _ sockHeld (Nat.lt_succ_self _)) ?_
    rintro ⟨body, after⟩ -
    exact Transfers.pure rfl trivial
  dsimp only
  refine Transfers.ite (fun _ => ?_) fun _ => rest body
  refine Transfers.bind (owns_readBlock (fun none => absurd none there)
    (held.trans (Multiset.le_add_left _ _))) ?_
  rintro ⟨⟩ -
  refine Transfers.call given (owns_tenBufferWrite body _ _) rfl ?_
  rintro ⟨code, body⟩ -
  exact rest body

theorem owns_tenHttpParseHeaderLine {owner text : Nat} (ownerHeld : owner ∈ given)
    (textHeld : text ∈ given) (line : Bytes) (headers : OwnedHeaders) (contentLength : Int) :
    Owns grants (headers.blocks + given)
      (tenHttpParseHeaderLine owner text line headers contentLength)
      (fun reply => reply.1.blocks + given) fun _ => True := by
  unfold tenHttpParseHeaderLine
  split
  · exact Transfers.pure rfl trivial
  · have textSource : ofPointer (some text) ≤ given := Multiset.singleton_le.mpr textHeld
    refine Transfers.bind (owns_tenHttpHeadersSet ownerHeld textSource headers _ _) ?_
    rintro ⟨code, headers⟩ -
    exact Transfers.pure rfl trivial

theorem length_of_strstr {text line rest : Bytes} {needle : Bytes}
    (found : strstr text needle = some (line, rest)) (positive : 0 < needle.length)
    (nonempty : text ≠ []) : rest.length < text.length := by
  obtain ⟨i, -, split⟩ := Option.map_eq_some_iff.mp found
  obtain ⟨rfl, rfl⟩ := Prod.mk.inj split
  have some := List.length_pos_iff.mpr nonempty
  rw [List.length_drop]
  omega

/-- The first line is read by the callback, with the context as it was at the
start; every other line sets a header. -/
theorem owns_tenHttpParseHeadersLoop {γ : Type} (ctxBlocks : γ → Multiset Nat) (start : γ)
    {owner text : Nat} {firstLineFn : TenFirstLineFn γ} (ownerHeld : owner ∈ given)
    (textHeld : text ∈ given)
    (reads : ∀ line, Owns grants (ctxBlocks start + given) (firstLineFn line start)
      (fun reply => ctxBlocks reply.2 + given) fun _ => True) (steps : Nat) :
    ∀ {cursor : Option Bytes} {firstLine : Bool} {contentLength : Int} {headers : OwnedHeaders}
      {ctx : γ}, cursor.elim 0 List.length < steps → (firstLine = true → ctx = start) →
      Owns grants (headers.blocks + (ctxBlocks ctx + given))
        (tenHttpParseHeadersLoop owner text firstLineFn steps cursor firstLine contentLength headers
          ctx)
        (fun reply => reply.2.1.blocks + (ctxBlocks reply.2.2 + given)) fun _ => True := by
  induction steps with
  | zero =>
      intro cursor firstLine contentLength headers ctx enough atStart
      omega
  | succ steps inductionHypothesis =>
      intro cursor firstLine contentLength headers ctx enough atStart
      have textInside : text ∈ headers.blocks + (ctxBlocks ctx + given) := by
        simp [textHeld]
      refine Transfers.bind (owns_access textInside) ?_
      rintro ⟨⟩ -
      rcases cursor with _ | (_ | ⟨c, rest⟩)
      · exact Transfers.pure rfl trivial
      · exact Transfers.pure rfl trivial
      have further : ∀ line next,
          next.elim 0 List.length < steps →
          Owns grants (headers.blocks + (ctxBlocks ctx + given))
            (if line = [] then
              tenHttpParseHeadersLoop owner text firstLineFn steps next firstLine contentLength
                headers ctx
            else if firstLine then do
              let (accepted, ctx) ← firstLineFn line ctx
              if accepted then
                tenHttpParseHeadersLoop owner text firstLineFn steps next false contentLength
                  headers ctx
              else
                return (-2, headers, ctx)
            else do
              let (headers, contentLength) ←
                tenHttpParseHeaderLine owner text line headers contentLength
              tenHttpParseHeadersLoop owner text firstLineFn steps next firstLine contentLength
                headers ctx)
            (fun reply => reply.2.1.blocks + (ctxBlocks reply.2.2 + given)) fun _ => True := by
        intro line next shorter
        refine Transfers.ite (fun _ => inductionHypothesis shorter atStart) fun _ => ?_
        refine Transfers.ite (fun first => ?_) fun later => ?_
        · rw [atStart first]
          refine Transfers.call headers.blocks (reads line) (add_comm _ _) ?_
          rintro ⟨accepted, ctx⟩ -
          refine Transfers.ite (fun _ => ?_) fun _ => Transfers.pure (add_comm _ _) trivial
          exact (inductionHypothesis shorter (fun first => by cases first)).conseq (add_comm _ _)
            (fun _ _ => rfl) fun _ holds => holds
        · refine Transfers.bind (owns_tenHttpParseHeaderLine
            (Multiset.mem_add.mpr (.inr ownerHeld)) (Multiset.mem_add.mpr (.inr textHeld))
            line headers contentLength) ?_
          rintro ⟨headers, contentLength⟩ -
          exact inductionHypothesis shorter atStart
      change rest.length + 1 < steps + 1 at enough
      dsimp only
      cases found : strstr (c :: rest) crlf with
      | none => exact further _ none (Nat.lt_of_le_of_lt (Nat.zero_le _) (Nat.lt_of_succ_lt_succ enough))
      | some parts =>
          obtain ⟨line, next⟩ := parts
          have shorter : next.length < rest.length + 1 :=
            length_of_strstr found (by decide) (by simp)
          exact further line (some next) (show next.length < steps by omega)

/-- Parsing the headers of a new message whose context owns nothing yet. -/
theorem owns_tenHttpParseHeadersText {γ : Type} (ctxBlocks : γ → Multiset Nat) {owner text : Nat}
    {firstLineFn : TenFirstLineFn γ} {start : γ} (ownerHeld : owner ∈ given)
    (textHeld : text ∈ given) (nothing : ctxBlocks start = 0)
    (reads : ∀ line, Owns grants given (firstLineFn line start)
      (fun reply => ctxBlocks reply.2 + given) fun _ => True) (headersText : CString) :
    Owns grants given
      (tenHttpParseHeadersText owner text headersText .none firstLineFn start)
      (fun reply => reply.2.1.blocks + (ctxBlocks reply.2.2 + given)) fun _ => True := by
  refine (owns_tenHttpParseHeadersLoop ctxBlocks start ownerHeld textHeld
    ?_ _ (Nat.lt_succ_self _) fun _ => rfl).conseq ?_ (fun _ _ => rfl) fun _ holds => holds
  · intro line
    rw [nothing, zero_add]
    exact reads line
  · rw [nothing, OwnedHeaders.blocks_none, zero_add, zero_add]

/-- A first line is copied, or refused. -/
theorem owns_tenRequestFirstLine {owner text : Nat} (ownerHeld : owner ∈ given)
    (textHeld : text ∈ given) {ctx : OwnedFirstLineCtx} (empty : ctx.path = none) (line : Bytes) :
    Owns grants given (tenRequestFirstLine owner text line ctx)
      (fun reply => ownsOption OwnedText.blocks reply.2.path + given) fun _ => True := by
  have kept : given = ownsOption OwnedText.blocks ctx.path + given := by
    rw [empty, ownsOption_none, zero_add]
  unfold tenRequestFirstLine
  split
  · exact Transfers.pure kept trivial
  split
  · exact Transfers.pure kept trivial
  have textSource : ofPointer (some text) ≤ given := Multiset.singleton_le.mpr textHeld
  refine Transfers.bind (owns_access ownerHeld) ?_
  rintro ⟨⟩ -
  refine Transfers.bind (owns_tenHttpCopy textSource _) ?_
  rintro path -
  exact Transfers.pure (add_comm _ _) trivial

theorem owns_tenResponseFirstLine (line : Bytes) (status : Int) :
    Owns grants given (tenResponseFirstLine line status) (fun _ => given) fun _ => True := by
  unfold tenResponseFirstLine
  split
  · exact Transfers.pure rfl trivial
  · exact Transfers.pure rfl trivial

/-- A request that is parsed owns its blocks; every other block that parsing
allocates has been freed. -/
theorem owns_tenHttpParseRequest {sock : OwnedSocket} (sockHeld : sock.self ∈ given)
    {source : Option Nat} (there : source ≠ none) (held : ofPointer source ≤ given)
    (headerBlock : Bytes) (headerLen : Nat) (bodyPrefix : Bytes) (bodyPrefixLen : Nat) :
    Owns grants given
      (tenHttpParseRequest transport sock source headerBlock headerLen bodyPrefix bodyPrefixLen)
      (fun reply => ownsOption OwnedRequest.blocks reply + given) fun _ => True := by
  refine Transfers.call given owns_tenMalloc (zero_add _).symm ?_
  rintro (_ | text) -
  · exact Transfers.pure rfl trivial
  refine Transfers.bind (owns_readBlock (fun none => absurd none there)
    (held.trans (Multiset.le_add_left _ _))) ?_
  rintro ⟨⟩ -
  refine Transfers.bind (owns_access (by simp)) ?_
  rintro ⟨⟩ -
  refine Transfers.call (ofPointer (some text) + given) owns_tenMalloc (zero_add _).symm ?_
  rintro (_ | self) -
  · refine Transfers.call given (owns_tenFree (some text)) (zero_add _) ?_
    rintro ⟨⟩ -
    exact Transfers.pure rfl trivial
  refine Transfers.bind (owns_tenHttpParseHeadersText
    (fun ctx => ownsOption OwnedText.blocks ctx.path) (by simp) (by simp) rfl
    (fun line => owns_tenRequestFirstLine (by simp) (by simp) rfl line) _) ?_
  rintro ⟨contentLength, headers, ctx⟩ -
  refine Transfers.call
    (headers.blocks + ({self} + ownsOption OwnedText.blocks ctx.path) + given)
    (owns_tenFree (some text)) ?_ ?_
  · simp only [ofPointer_some]
    abel
  rintro ⟨⟩ -
  rw [zero_add]
  have abandoned : Owns grants (headers.blocks + ({self} + ownsOption OwnedText.blocks ctx.path) +
      given)
      (do
        tenHttpRequestDestroy
          (some { self, method := ctx.method, path := ctx.path, headers, body := none })
        return none) (fun reply => ownsOption OwnedRequest.blocks reply + given)
      fun _ => True := by
    refine Transfers.call given (owns_tenHttpRequestDestroy _) ?_ ?_
    · simp [OwnedRequest.blocks, contentBlocks]
    rintro ⟨⟩ -
    exact Transfers.pure rfl trivial
  refine Transfers.ite (fun _ => abandoned) fun _ => ?_
  refine Transfers.bind (owns_tenHttpReadBody (Multiset.mem_add.mpr (.inr sockHeld)) there
    (held.trans (Multiset.le_add_left _ _)) _ _ _) ?_
  rintro ⟨_ | body, after⟩ -
  · exact abandoned.conseq (zero_add _) (fun _ _ => rfl) fun _ holds => holds
  · refine Transfers.pure ?_ trivial
    simp only [OwnedRequest.blocks, contentBlocks, ownsOption_some]
    abel

theorem owns_tenHttpParseResponse {sock : OwnedSocket} (sockHeld : sock.self ∈ given)
    {source : Option Nat} (there : source ≠ none) (held : ofPointer source ≤ given)
    (headerBlock : Bytes) (headerLen : Nat) (bodyPrefix : Bytes) (bodyPrefixLen : Nat) :
    Owns grants given
      (tenHttpParseResponse transport sock source headerBlock headerLen bodyPrefix bodyPrefixLen)
      (fun reply => ownsOption OwnedResponse.blocks reply + given) fun _ => True := by
  refine Transfers.call given owns_tenMalloc (zero_add _).symm ?_
  rintro (_ | text) -
  · exact Transfers.pure rfl trivial
  refine Transfers.bind (owns_readBlock (fun none => absurd none there)
    (held.trans (Multiset.le_add_left _ _))) ?_
  rintro ⟨⟩ -
  refine Transfers.bind (owns_access (by simp)) ?_
  rintro ⟨⟩ -
  refine Transfers.call (ofPointer (some text) + given) owns_tenHttpResponseCreate
    (zero_add _).symm ?_
  rintro (_ | resp) made
  · refine Transfers.call given (owns_tenFree (some text)) (zero_add _) ?_
    rintro ⟨⟩ -
    exact Transfers.pure rfl trivial
  obtain ⟨self, rfl⟩ := made resp rfl
  have selfHeld := OwnedResponse.self_mem { self, status := 200, headers := .none, body := none }
  refine Transfers.bind (owns_tenHttpParseHeadersText (fun _ => 0)
    (Multiset.mem_add.mpr (.inl selfHeld)) (by simp) rfl
    (fun line => (owns_tenResponseFirstLine line 0).conseq rfl (fun _ _ => (zero_add _).symm)
      fun _ holds => holds) _) ?_
  rintro ⟨contentLength, headers, status⟩ -
  refine Transfers.call (headers.blocks + {self} + given) (owns_tenFree (some text)) ?_ ?_
  · simp only [OwnedResponse.blocks, contentBlocks, OwnedHeaders.blocks_none, ownsOption_none,
      ofPointer_some]
    abel
  rintro ⟨⟩ -
  rw [zero_add]
  have abandoned : ∀ status, Owns grants (headers.blocks + {self} + given)
      (do
        tenHttpResponseDestroy (some { self, status, headers, body := none })
        return none) (fun reply => ownsOption OwnedResponse.blocks reply + given)
      fun _ => True := by
    intro status
    refine Transfers.call given (owns_tenHttpResponseDestroy _) ?_ ?_
    · simp [OwnedResponse.blocks, contentBlocks]
    rintro ⟨⟩ -
    exact Transfers.pure rfl trivial
  refine Transfers.ite (fun _ => abandoned 200) fun _ => ?_
  refine Transfers.bind (owns_tenHttpReadBody (Multiset.mem_add.mpr (.inr sockHeld)) there
    (held.trans (Multiset.le_add_left _ _)) _ _ _) ?_
  rintro ⟨_ | body, after⟩ -
  · exact (abandoned status).conseq (zero_add _) (fun _ _ => rfl) fun _ holds => holds
  · refine Transfers.pure ?_ trivial
    simp only [OwnedResponse.blocks, contentBlocks, ownsOption_some]
    abel

/-- Receiving a message frees what was read, whether there is a message or not. -/
theorem owns_tenHttpReceive {μ : Type} (owns : μ → Multiset Nat) {sock : OwnedSocket}
    (sockHeld : sock.self ∈ given)
    {parse : OwnedSocket → Option Nat → Bytes → Nat → Bytes → Nat → Op (Option μ)}
    (parses : ∀ {held : Multiset Nat} {after : OwnedSocket} {source : Option Nat},
      after.self ∈ held → source ≠ none → ofPointer source ≤ held →
      ∀ headerBlock headerLen bodyPrefix bodyPrefixLen,
        Owns grants held (parse after source headerBlock headerLen bodyPrefix bodyPrefixLen)
          (fun reply => ownsOption owns reply + held) fun _ => True) :
    Owns grants given (tenHttpReceive transport parse sock)
      (fun reply => ownsOption owns reply.2 + given) fun _ => True := by
  refine Transfers.call given owns_tenBufferCreate (zero_add _).symm ?_
  rintro (_ | raw) -
  · exact Transfers.pure rfl trivial
  refine Transfers.bind (owns_tenHttpReadUntilHeadersEndLoop _ sockHeld (Nat.lt_succ_self _)) ?_
  rintro ⟨found, raw, after⟩ ⟨same, ending⟩
  have afterHeld : after.self ∈ given := by
    have sameStruct : after.self = sock.self := same
    rw [sameStruct]
    exact sockHeld
  have rawHeld : raw.blocks ≤ raw.blocks + given := Multiset.le_add_right _ _
  refine Transfers.ite (fun isFound => ?_) fun _ => ?_
  · refine Transfers.bind (owns_tenBufferData rawHeld) ?_
    rintro ⟨pointer, data⟩ ⟨⟩
    refine Transfers.bind (owns_tenBufferSize rawHeld) ?_
    rintro size rfl
    refine Transfers.bind (owns_readBlock (fun none => (raw.placed none).2)
      (raw.block_le.trans rawHeld)) ?_
    rintro ⟨⟩ -
    obtain ⟨headerLen, there⟩ := Option.isSome_iff_exists.mp (ending isFound)
    rw [there]
    have placed : raw.block ≠ none := by
      intro none
      rw [(raw.placed none).2] at there
      cases there
    refine Transfers.bind (parses (Multiset.mem_add.mpr (.inr afterHeld)) placed
      (raw.block_le.trans rawHeld) _ _ _ _) ?_
    rintro message -
    refine Transfers.call (ownsOption owns message + given) (owns_tenBufferDestroy (some raw)) ?_ ?_
    · rw [ownsOption_some]
      abel
    rintro ⟨⟩ -
    exact Transfers.pure (zero_add _) trivial
  · refine Transfers.call given (owns_tenBufferDestroy (some raw)) rfl ?_
    rintro ⟨⟩ -
    exact Transfers.pure rfl trivial

end Ownership

section Forgetting

variable {transport : Transport}

/-- What a `recv` returns, without the block of the socket. -/
def seenReceived (reply : Int × Bytes × OwnedSocket) : Int × Bytes × TenSocket :=
  (reply.1, reply.2.1, reply.2.2.socket)

theorem keeps_tenSocketReceive (sock : OwnedSocket) (size : Nat) :
    Keeps seenReceived (tenSocketReceive transport sock size)
      (Dotten.tenSocketReceive transport sock.socket size) := by
  refine Simulates.skip (unseen_access _) fun _ => ?_
  unfold Dotten.tenSocketReceive
  dsimp only
  cases transport.receives sock.socket.receiveCalls with
  | none => exact Erases.bind (keeps_tenSetError _) fun _ => Simulates.pure rfl
  | some asked =>
      refine Simulates.ite (fun _ => ?_) fun _ => ?_
      · exact Erases.bind (keeps_tenSetError _) fun _ => Simulates.pure rfl
      · exact Erases.bind (keeps_tenSetError _) fun _ => Simulates.pure rfl

/-- What reading up to the blank line returns, without blocks. -/
def seenRead (reply : Bool × OwnedBuffer × OwnedSocket) : Bool × TenBuffer × TenSocket :=
  (reply.1, reply.2.1.buffer, reply.2.2.socket)

theorem keeps_tenHttpReadUntilHeadersEndLoop (steps : Nat) :
    ∀ (sock : OwnedSocket) (raw : OwnedBuffer),
      Keeps seenRead (tenHttpReadUntilHeadersEndLoop transport steps sock raw)
        (Dotten.tenHttpReadUntilHeadersEndLoop transport steps sock.socket raw.buffer) := by
  induction steps with
  | zero => exact fun sock raw => keeps_stuck _ _
  | succ steps inductionHypothesis =>
      intro sock raw
      refine Erases.bind (keeps_tenBufferData raw) fun data =>
        Erases.bind (keeps_tenBufferSize raw) fun size => ?_
      refine Simulates.skip (unseen_readBlock _ _) fun _ =>
        Simulates.ite (fun _ => Simulates.pure rfl) fun _ => ?_
      refine Simulates.ite (fun _ => Simulates.pure rfl) fun _ => ?_
      refine Erases.bind (keeps_tenSocketReceive sock _) ?_
      rintro ⟨n, chunk, after⟩
      refine Simulates.ite (fun _ => Simulates.pure rfl) fun _ => ?_
      refine Erases.bind (keeps_tenBufferWrite raw _ _) ?_
      rintro ⟨code, raw⟩
      exact Simulates.ite (fun _ => Simulates.pure rfl) fun _ => inductionHypothesis after raw

theorem keeps_tenHttpReadBodyLoop (contentLength : Int) (steps : Nat) :
    ∀ (sock : OwnedSocket) (body : OwnedBuffer),
      Keeps (Prod.map OwnedBuffer.buffer OwnedSocket.socket)
        (tenHttpReadBodyLoop transport contentLength steps sock body)
        (Dotten.tenHttpReadBodyLoop transport contentLength steps sock.socket body.buffer) := by
  induction steps with
  | zero => exact fun sock body => keeps_stuck _ _
  | succ steps inductionHypothesis =>
      intro sock body
      refine Erases.bind (keeps_tenBufferSize body) fun size => ?_
      refine Simulates.ite (fun _ => ?_) fun _ => Simulates.pure rfl
      refine Erases.bind (keeps_tenSocketReceive sock _) ?_
      rintro ⟨n, chunk, after⟩
      refine Simulates.ite (fun _ => Simulates.pure rfl) fun _ => ?_
      exact Erases.bind (keeps_tenBufferWrite body _ _) fun reply =>
        inductionHypothesis after reply.2

theorem keeps_tenHttpReadBody (sock : OwnedSocket) (contentLength : Int) (source : Option Nat)
    (bodyPrefix : Bytes) (bodyPrefixLen : Nat) :
    Keeps (Prod.map (Option.map OwnedBuffer.buffer) OwnedSocket.socket)
      (tenHttpReadBody transport sock contentLength source bodyPrefix bodyPrefixLen)
      (Dotten.tenHttpReadBody transport sock.socket contentLength bodyPrefix bodyPrefixLen) := by
  refine Erases.bind keeps_tenBufferCreate ?_
  rintro (_ | body)
  · exact Simulates.pure rfl
  refine Simulates.ite (fun _ => Simulates.pure rfl) fun _ => ?_
  have rest : ∀ body : OwnedBuffer,
      Keeps (Prod.map (Option.map OwnedBuffer.buffer) OwnedSocket.socket)
        (do
          let reply ← tenHttpReadBodyLoop transport contentLength
            (sock.socket.incoming.length + 1) sock body
          return reply.map some id)
        (do
          let reply ← Dotten.tenHttpReadBodyLoop transport contentLength
            (sock.socket.incoming.length + 1) sock.socket body.buffer
          return reply.map some id) :=
    fun body => Erases.bind (keeps_tenHttpReadBodyLoop _ _ sock body) fun _ => Simulates.pure rfl
  refine Simulates.ite (fun _ => ?_) fun _ => rest body
  exact Simulates.skip (unseen_readBlock _ _) fun _ =>
    Erases.bind (keeps_tenBufferWrite body _ _) fun reply => rest reply.2

theorem keeps_tenHttpParseHeaderLine (owner text : Nat) (line : Bytes) (headers : OwnedHeaders)
    (contentLength : Int) :
    Keeps (Prod.map OwnedHeaders.forget id)
      (tenHttpParseHeaderLine owner text line headers contentLength)
      (Dotten.tenHttpParseHeaderLine line headers.forget contentLength) := by
  unfold tenHttpParseHeaderLine Dotten.tenHttpParseHeaderLine
  cases strchr line (ascii ':') with
  | none => exact Simulates.pure rfl
  | some parts =>
      exact Erases.bind (keeps_tenHttpHeadersSet _ _ headers _ _) fun _ => Simulates.pure rfl

/-- What parsing the headers returns, with the context seen through a function. -/
def seenParsed {γ δ : Type} (view : γ → δ) (reply : Int × OwnedHeaders × γ) :
    Int × TenHttpHeaders × δ :=
  (reply.1, reply.2.1.forget, view reply.2.2)

theorem keeps_tenHttpParseHeadersLoop {γ δ : Type} (view : γ → δ) (owner text : Nat)
    {firstLineFn : TenFirstLineFn γ} {plainFn : Dotten.TenFirstLineFn δ}
    (reads : ∀ line ctx, Keeps (Prod.map id view) (firstLineFn line ctx) (plainFn line (view ctx)))
    (steps : Nat) :
    ∀ (cursor : Option Bytes) (firstLine : Bool) (contentLength : Int) (headers : OwnedHeaders)
      (ctx : γ),
      Keeps (seenParsed view)
        (tenHttpParseHeadersLoop owner text firstLineFn steps cursor firstLine contentLength headers
          ctx)
        (Dotten.tenHttpParseHeadersLoop plainFn steps cursor firstLine contentLength headers.forget
          (view ctx)) := by
  induction steps with
  | zero => exact fun cursor firstLine contentLength headers ctx => keeps_stuck _ _
  | succ steps inductionHypothesis =>
      intro cursor firstLine contentLength headers ctx
      refine Simulates.skip (unseen_access _) fun _ => ?_
      rcases cursor with _ | (_ | ⟨c, rest⟩)
      · exact Simulates.pure rfl
      · exact Simulates.pure rfl
      dsimp only [Dotten.tenHttpParseHeadersLoop]
      refine Simulates.ite (fun _ => inductionHypothesis _ _ _ _ _) fun _ => ?_
      refine Simulates.ite (fun _ => ?_) fun _ => ?_
      · refine Erases.bind (reads _ ctx) ?_
        rintro ⟨accepted, ctx⟩
        exact Simulates.ite (fun _ => inductionHypothesis _ _ _ _ ctx) fun _ => Simulates.pure rfl
      · exact Erases.bind (keeps_tenHttpParseHeaderLine _ _ _ headers _) fun reply =>
          inductionHypothesis _ _ _ reply.1 ctx

/-- The context of a first line without its blocks. -/
def OwnedFirstLineCtx.forget (ctx : OwnedFirstLineCtx) : TenRequestFirstLineCtx where
  method := ctx.method
  path := ctx.path.map OwnedText.text

theorem keeps_tenRequestFirstLine (owner text : Nat) (line : Bytes) (ctx : OwnedFirstLineCtx) :
    Keeps (Prod.map id OwnedFirstLineCtx.forget) (tenRequestFirstLine owner text line ctx)
      (Dotten.tenRequestFirstLine line ctx.forget) := by
  unfold tenRequestFirstLine Dotten.tenRequestFirstLine
  cases strchr line (ascii ' ') with
  | none => exact Simulates.pure rfl
  | some parts =>
      dsimp only
      cases tenHttpMethodParse parts.1 with
      | none => exact Simulates.pure rfl
      | some method =>
          refine Simulates.skip (unseen_access _) fun _ => Erases.bind (keeps_tenHttpCopy _ _) ?_
          rintro (_ | path)
          · exact Simulates.pure rfl
          · exact Simulates.pure rfl

theorem keeps_tenResponseFirstLine (line : Bytes) (status : Int) :
    Keeps (Prod.map id id) (tenResponseFirstLine line status)
      (Dotten.tenResponseFirstLine line status) := by
  unfold tenResponseFirstLine Dotten.tenResponseFirstLine
  cases strchr line (ascii ' ') with
  | none => exact Simulates.pure rfl
  | some parts => exact Simulates.pure rfl

theorem keeps_tenHttpParseRequest (sock : OwnedSocket) (source : Option Nat) (headerBlock : Bytes)
    (headerLen : Nat) (bodyPrefix : Bytes) (bodyPrefixLen : Nat) :
    Keeps (Option.map OwnedRequest.forget)
      (tenHttpParseRequest transport sock source headerBlock headerLen bodyPrefix bodyPrefixLen)
      (Dotten.tenHttpParseRequest transport sock.socket headerBlock headerLen bodyPrefix
        bodyPrefixLen) := by
  refine Erases.bind keeps_tenMalloc ?_
  rintro (_ | text)
  · exact Simulates.pure rfl
  refine Simulates.skip (unseen_readBlock _ _) fun _ => Simulates.skip (unseen_access _) fun _ => ?_
  refine Erases.bind keeps_tenMalloc ?_
  rintro (_ | self)
  · exact Simulates.skip (unseen_tenFree _) fun _ => Simulates.pure rfl
  refine Erases.bind (keeps_tenHttpParseHeadersLoop OwnedFirstLineCtx.forget self text
    (keeps_tenRequestFirstLine self text) _ _ _ _ _ _) ?_
  rintro ⟨contentLength, headers, ctx⟩
  refine Simulates.skip (unseen_tenFree _) fun _ => Simulates.ite (fun _ => ?_) fun _ => ?_
  · exact Simulates.skip (unseen_tenHttpRequestDestroy _) fun _ => Simulates.pure rfl
  refine Erases.bind (keeps_tenHttpReadBody sock _ _ _ _) ?_
  rintro ⟨_ | body, after⟩
  · exact Simulates.skip (unseen_tenHttpRequestDestroy _) fun _ => Simulates.pure rfl
  · exact Simulates.pure rfl

theorem keeps_tenHttpParseResponse (sock : OwnedSocket) (source : Option Nat)
    (headerBlock : Bytes) (headerLen : Nat) (bodyPrefix : Bytes) (bodyPrefixLen : Nat) :
    Keeps (Option.map OwnedResponse.forget)
      (tenHttpParseResponse transport sock source headerBlock headerLen bodyPrefix bodyPrefixLen)
      (Dotten.tenHttpParseResponse transport sock.socket headerBlock headerLen bodyPrefix
        bodyPrefixLen) := by
  refine Erases.bind keeps_tenMalloc ?_
  rintro (_ | text)
  · exact Simulates.pure rfl
  refine Simulates.skip (unseen_readBlock _ _) fun _ => Simulates.skip (unseen_access _) fun _ => ?_
  refine Erases.bind keeps_tenHttpResponseCreate ?_
  rintro (_ | resp)
  · exact Simulates.skip (unseen_tenFree _) fun _ => Simulates.pure rfl
  refine Erases.bind (keeps_tenHttpParseHeadersLoop id resp.self text keeps_tenResponseFirstLine
    _ _ _ _ _ _) ?_
  rintro ⟨contentLength, headers, status⟩
  refine Simulates.skip (unseen_tenFree _) fun _ => Simulates.ite (fun _ => ?_) fun _ => ?_
  · exact Simulates.skip (unseen_tenHttpResponseDestroy _) fun _ => Simulates.pure rfl
  refine Erases.bind (keeps_tenHttpReadBody sock _ _ _ _) ?_
  rintro ⟨_ | body, after⟩
  · exact Simulates.skip (unseen_tenHttpResponseDestroy _) fun _ => Simulates.pure rfl
  · exact Simulates.pure rfl

theorem keeps_tenHttpReceive {μ ν : Type} {view : μ → ν}
    {parse : OwnedSocket → Option Nat → Bytes → Nat → Bytes → Nat → Op (Option μ)}
    {plainParse : TenSocket → Bytes → Nat → Bytes → Nat → Ten (Option ν)}
    (parses : ∀ after source headerBlock headerLen bodyPrefix bodyPrefixLen,
      Keeps (Option.map view) (parse after source headerBlock headerLen bodyPrefix bodyPrefixLen)
        (plainParse after.socket headerBlock headerLen bodyPrefix bodyPrefixLen))
    (sock : OwnedSocket) :
    Keeps (Prod.map id (Option.map view)) (tenHttpReceive transport parse sock)
      (Dotten.tenHttpReceive transport plainParse sock.socket) := by
  refine Erases.bind keeps_tenBufferCreate ?_
  rintro (_ | raw)
  · exact Simulates.pure rfl
  refine Erases.bind (keeps_tenHttpReadUntilHeadersEndLoop _ sock raw) ?_
  rintro ⟨found, raw, after⟩
  refine Simulates.ite (fun _ => ?_) fun _ => ?_
  · refine Erases.bind (keeps_tenBufferData raw) ?_
    rintro ⟨pointer, data⟩
    refine Erases.bind (keeps_tenBufferSize raw) fun size =>
      Simulates.skip (unseen_readBlock _ _) fun _ => ?_
    dsimp only [id]
    cases tenFindCrlfCrlf data size with
    | none => exact keeps_stuck _ _
    | some headerLen =>
        refine Erases.bind (parses after _ _ _ _ _) fun message =>
          Simulates.skip (unseen_tenBufferDestroy _) fun _ => ?_
        cases message with
        | none => exact Simulates.pure rfl
        | some message => exact Simulates.pure rfl
  · exact Simulates.skip (unseen_tenBufferDestroy _) fun _ => Simulates.pure rfl

end Forgetting

end Heap

end Dotten
