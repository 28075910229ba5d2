/-
Module: Dotten.Http.TenHttp
Layer: Http
Purpose: The messages of http.c: the header store, requests and responses, how
  they are written to a socket and how they are read from one.
Imports: Dotten.Http.TenSocket, Dotten.Containers.TenBuffer, Dotten.Core.Printf,
  Dotten.Library.Lines
Main exports: TenHttpHeaders, tenHttpHeadersSet, TenHttpRequest,
  TenHttpResponse, tenHttpSendRequest, tenHttpSendResponse,
  tenHttpReadUntilHeadersEnd, tenHttpParseHeadersText, tenHttpParseRequest,
  tenHttpParseResponse, tenHttpReceiveRequest, tenHttpReceiveResponse,
  tenHttpHandleConnection, tenHttpClientSend
-/
import Dotten.Http.TenSocket
import Dotten.Containers.TenBuffer
import Dotten.Core.Printf
import Dotten.Library.Lines

namespace Dotten

open Dotten.Library

/-- `TEN_HTTP_MAX_HEADER_SIZE`. -/
def tenHttpMaxHeaderSize : Nat := 64 * 1024

/-- `TEN_HTTP_LINE_BUF`. -/
def tenHttpLineBuf : Nat := 256

/-- The size of the `chunk` arrays that are received into. -/
def tenHttpChunkSize : Nat := 4096

/-- The bytes of a string literal of the source. -/
def literal (text : String) : Bytes := asciiBytes text.toList

/-- The string of a string literal of the source. -/
def literalString (text : String) : CString := CString.ofMemory (literal text)

/-- `"\r\n"`. -/
abbrev crlf : Bytes := [ascii '\r', ascii '\n']

/-- `strchr`: what stands before the first `c` in a string, and what stands
behind it. -/
def strchr (text : Bytes) (c : Byte) : Option (Bytes × Bytes) :=
  if c ∈ text then some (text.takeWhile (· ≠ c), (text.dropWhile (· ≠ c)).drop 1) else none

/-- `strstr`: what stands before the first `needle` in a string, and what
stands behind it. -/
def strstr (text needle : Bytes) : Option (Bytes × Bytes) :=
  (findSlice needle text).map fun i => (text.take i, text.drop (i + needle.length))

section Headers

/-- The loop of `ten__ci_strcmp` over the bytes before the NULs. -/
def tenCiStrcmpLoop : Bytes → Bytes → Int
  | [], [] => 0
  | a :: _, [] => a.toNat
  | [], b :: _ => - (b.toNat : Int)
  | a :: as, b :: bs =>
      if lowerByte a ≠ lowerByte b then (lowerByte a).toNat - (lowerByte b).toNat
      else tenCiStrcmpLoop as bs

/-- `ten__ci_strcmp`. -/
def tenCiStrcmp (a b : CString) : Int := tenCiStrcmpLoop a.bytes b.bytes

/-- The header list of a message: `headers`, the first `header_count` of which
are the pairs here, and `header_capacity`. -/
structure TenHttpHeaders where
  pairs : List (CString × CString)
  capacity : Nat
deriving DecidableEq, Repr, Inhabited

/-- No headers, and no block for them. -/
def TenHttpHeaders.none : TenHttpHeaders := { pairs := [], capacity := 0 }

/-- A string copied with `ten_memdup(text, strlen(text) + 1)`. -/
def tenHttpCopy (text : CString) : Ten (Option CString) := do
  let copy ← tenMemdup (text.bytes ++ [0]) (text.length + 1)
  return copy.map CString.ofMemory

/-- The end of `ten__http_headers_set`: a new pair in a block that has room. -/
def tenHttpHeadersPush (headers : TenHttpHeaders) (name value : CString) :
    Ten (TenErrorCode × TenHttpHeaders) := do
  let some nameCopy ← tenHttpCopy name
    | return (.outOfMemory, headers)
  let some valueCopy ← tenHttpCopy value
    | return (.outOfMemory, headers)
  return (.ok, { headers with pairs := headers.pairs ++ [(nameCopy, valueCopy)] })

/-- `ten__http_headers_set`. -/
def tenHttpHeadersSet (headers : TenHttpHeaders) (name value : CString) :
    Ten (TenErrorCode × TenHttpHeaders) := do
  match headers.pairs.findIdx? fun pair => tenCiStrcmp pair.1 name = 0 with
  | some i =>
      let some valueCopy ← tenHttpCopy value
        | return (.outOfMemory, headers)
      return (.ok,
        { headers with pairs := headers.pairs.modify i fun pair => (pair.1, valueCopy) })
  | none =>
      if headers.pairs.length = headers.capacity then
        let newCapacity := if headers.capacity = 0 then 4 else headers.capacity * 2
        let some _ ← tenRealloc
          | return (.outOfMemory, headers)
        tenHttpHeadersPush { headers with capacity := newCapacity } name value
      else
        tenHttpHeadersPush headers name value

/-- `ten__http_headers_get`. -/
def tenHttpHeadersGet (headers : TenHttpHeaders) (name : CString) : Option CString :=
  (headers.pairs.find? fun pair => tenCiStrcmp pair.1 name = 0).map Prod.snd

end Headers

section Messages

/-- `ten_http_method_t`. -/
inductive TenHttpMethod where
  | get
  | post
  | put
  | delete
  | head
  | options
deriving DecidableEq, Repr, Inhabited

/-- `ten__http_method_name`. -/
def tenHttpMethodName : TenHttpMethod → Bytes
  | .get => literal "GET"
  | .post => literal "POST"
  | .put => literal "PUT"
  | .delete => literal "DELETE"
  | .head => literal "HEAD"
  | .options => literal "OPTIONS"

/-- `ten__http_method_parse`. -/
def tenHttpMethodParse (s : Bytes) : Option TenHttpMethod :=
  if s = literal "GET" then some .get
  else if s = literal "POST" then some .post
  else if s = literal "PUT" then some .put
  else if s = literal "DELETE" then some .delete
  else if s = literal "HEAD" then some .head
  else if s = literal "OPTIONS" then some .options
  else none

/-- `ten__http_status_text`. -/
def tenHttpStatusText (status : Int) : Bytes :=
  if status = 200 then literal "OK"
  else if status = 201 then literal "Created"
  else if status = 204 then literal "No Content"
  else if status = 301 then literal "Moved Permanently"
  else if status = 302 then literal "Found"
  else if status = 400 then literal "Bad Request"
  else if status = 401 then literal "Unauthorized"
  else if status = 403 then literal "Forbidden"
  else if status = 404 then literal "Not Found"
  else if status = 405 then literal "Method Not Allowed"
  else if status = 500 then literal "Internal Server Error"
  else if status = 501 then literal "Not Implemented"
  else if status = 503 then literal "Service Unavailable"
  else literal "Unknown"

/-- `struct ten_http_request`; the path and the body are `none` where their
pointers are NULL. -/
structure TenHttpRequest where
  method : TenHttpMethod
  path : Option CString
  headers : TenHttpHeaders
  body : Option TenBuffer
deriving DecidableEq, Repr, Inhabited

/-- `struct ten_http_response`. -/
structure TenHttpResponse where
  status : Int
  headers : TenHttpHeaders
  body : Option TenBuffer
deriving DecidableEq, Repr, Inhabited

/-- `ten_http_request_create`. -/
def tenHttpRequestCreate (method : TenHttpMethod) (path : Option CString) :
    Ten (Option TenHttpRequest) :=
  match path with
  | none => do
      tenSetError .nullArgument
      return none
  | some path => do
      let some _ ← tenMalloc
        | return none
      let some pathCopy ← tenHttpCopy path
        | return none
      tenSetError .ok
      return some { method, path := some pathCopy, headers := .none, body := none }

/-- `ten__http_response_create`. -/
def tenHttpResponseCreate : Ten (Option TenHttpResponse) := do
  let some _ ← tenMalloc
    | return none
  return some { status := 200, headers := .none, body := none }

/-- `ten_http_response_set_status` of a response. -/
def tenHttpResponseSetStatus (response : TenHttpResponse) (statusCode : Int) :
    Ten (TenErrorCode × TenHttpResponse) := do
  tenSetError .ok
  return (.ok, { response with status := statusCode })

/-- What `ten_http_request_set_header` and `ten_http_response_set_header` do to
the headers of a message. -/
def tenHttpSetHeader (headers : TenHttpHeaders) (name value : Option CString) :
    Ten (TenErrorCode × TenHttpHeaders) :=
  match name, value with
  | some name, some value => tenHttpHeadersSet headers name value
  | _, _ => do
      tenSetError .nullArgument
      return (.nullArgument, headers)

/-- `ten_http_request_set_header` of a request. -/
def tenHttpRequestSetHeader (request : TenHttpRequest) (name value : Option CString) :
    Ten (TenErrorCode × TenHttpRequest) := do
  let (code, headers) ← tenHttpSetHeader request.headers name value
  return (code, { request with headers })

/-- `ten_http_request_header`. -/
def tenHttpRequestHeader (request : Option TenHttpRequest) (name : Option CString) :
    Ten (Option CString) :=
  match request, name with
  | some request, some name => do
      tenSetError .ok
      return tenHttpHeadersGet request.headers name
  | _, _ => do
      tenSetError .nullArgument
      return none

/-- `ten_http_response_set_header` of a response. -/
def tenHttpResponseSetHeader (response : TenHttpResponse) (name value : Option CString) :
    Ten (TenErrorCode × TenHttpResponse) := do
  let (code, headers) ← tenHttpSetHeader response.headers name value
  return (code, { response with headers })

/-- The buffer that a new body is written to: a new one, or the old one
emptied. -/
def tenHttpFreshBody : Option TenBuffer → Ten (Option TenBuffer)
  | none => tenBufferCreate
  | some body => pure (some (tenBufferClear body))

/-- What `ten_http_request_set_body` and `ten_http_response_set_body` do to the
body of a message. -/
def tenHttpSetBody (body : Option TenBuffer) (data : Option Bytes) (size : Nat) :
    Ten (TenErrorCode × Option TenBuffer) := do
  if data = none ∧ size > 0 then
    tenSetError .nullArgument
    return (.nullArgument, body)
  else
    let some fresh ← tenHttpFreshBody body
      | return (.outOfMemory, body)
    let (code, written) ← tenBufferWrite fresh data size
    return (code, some written)

/-- `ten_http_request_set_body` of a request. -/
def tenHttpRequestSetBody (request : TenHttpRequest) (data : Option Bytes) (size : Nat) :
    Ten (TenErrorCode × TenHttpRequest) := do
  let (code, body) ← tenHttpSetBody request.body data size
  return (code, { request with body })

/-- `ten_http_response_set_body` of a response. -/
def tenHttpResponseSetBody (response : TenHttpResponse) (data : Option Bytes) (size : Nat) :
    Ten (TenErrorCode × TenHttpResponse) := do
  let (code, body) ← tenHttpSetBody response.body data size
  return (code, { response with body })

/-- What `ten_http_request_body` and `ten_http_response_body` read of the body
of a message: its data, or NULL, and `*out_size`.  The data pointer of a buffer
is NULL until it has a block. -/
def tenHttpBody (body : Option TenBuffer) : Ten (Option Bytes × Nat) := do
  tenSetError .ok
  match body with
  | none => return (none, 0)
  | some body =>
      let size ← tenBufferSize body
      let data ← tenBufferData body
      return (if body.capacity = 0 then none else some data, size)

/-- `ten_http_request_body` of a request. -/
def tenHttpRequestBody (request : TenHttpRequest) : Ten (Option Bytes × Nat) :=
  tenHttpBody request.body

end Messages

section Sending

variable (transport : Transport)

/-- The loop of `ten__http_send_all`.  Every accepted call accepts a byte, so
the loop ends within `size` steps. -/
def tenHttpSendAllLoop (data : Bytes) (size : Nat) :
    Nat → TenSocket → Nat → Ten (TenErrorCode × TenSocket)
  | 0, _, _ => stuck
  | steps + 1, sock, sent => do
      if sent < size then
        let (n, sock) ← tenSocketSend transport sock (data.drop sent) (size - sent)
        if n ≤ 0 then
          return (.network, sock)
        else
          tenHttpSendAllLoop data size steps sock (sent + n.toNat)
      else
        return (.ok, sock)

/-- `ten__http_send_all`. -/
def tenHttpSendAll (sock : TenSocket) (data : Bytes) (size : Nat) :
    Ten (TenErrorCode × TenSocket) :=
  tenHttpSendAllLoop transport data size (size + 1) sock 0

/-- A write whose return code is not looked at. -/
def tenHttpPut (out : TenBuffer) (text : Bytes) : Ten TenBuffer := do
  let (_, out) ← tenBufferWrite out (some text) text.length
  return out

/-- `ten__http_write_headers`. -/
def tenHttpWriteHeaders (out : TenBuffer) : List (CString × CString) → Ten TenBuffer
  | [] => pure out
  | (name, value) :: rest => do
      let out ← tenHttpPut out name.bytes
      let out ← tenHttpPut out (literal ": ")
      let out ← tenHttpPut out value.bytes
      let out ← tenHttpPut out crlf
      tenHttpWriteHeaders out rest

/-- The size of a body, 0 when there is none. -/
def tenHttpBodySize : Option TenBuffer → Ten Nat
  | some body => tenBufferSize body
  | none => pure 0

/-- The write of a body that is not empty. -/
def tenHttpPutBody (out : TenBuffer) (body : Option TenBuffer) (bodySize : Nat) : Ten TenBuffer :=
  match body with
  | none => pure out
  | some body => do
      if bodySize > 0 then
        let data ← tenBufferData body
        let (_, out) ← tenBufferWrite out (some data) bodySize
        return out
      else
        return out

/-- The end of `ten__http_send_request` and `ten__http_send_response`: the
headers of the message, those that are added to them, the body, and sending
what has been gathered in `out`. -/
def tenHttpSendMessage (sock : TenSocket) (out : TenBuffer) (headers : TenHttpHeaders)
    (body : Option TenBuffer) : Ten (TenErrorCode × TenSocket) := do
  let out ← tenHttpWriteHeaders out headers.pairs
  let bodySize ← tenHttpBodySize body
  let line := snprintf tenHttpLineBuf
    (literal "Content-Length: " ++ formatUnsigned bodySize ++ crlf ++
      literal "Connection: close" ++ crlf ++ crlf)
  let out ← tenHttpPut out line
  let out ← tenHttpPutBody out body bodySize
  let data ← tenBufferData out
  let size ← tenBufferSize out
  tenHttpSendAll transport sock data size

/-- `ten__http_send_request`.  A path that is NULL must not be printed. -/
def tenHttpSendRequest (sock : TenSocket) (request : TenHttpRequest) (host : CString) :
    Ten (TenErrorCode × TenSocket) := do
  let some out ← tenBufferCreate
    | return (.outOfMemory, sock)
  let some path := request.path
    | stuck
  let line := snprintf tenHttpLineBuf
    (tenHttpMethodName request.method ++ literal " " ++ path.bytes ++ literal " HTTP/1.1" ++ crlf)
  let out ← tenHttpPut out line
  let line := snprintf tenHttpLineBuf (literal "Host: " ++ host.bytes ++ crlf)
  let out ← tenHttpPut out line
  tenHttpSendMessage transport sock out request.headers request.body

/-- `ten__http_send_response`. -/
def tenHttpSendResponse (sock : TenSocket) (response : TenHttpResponse) :
    Ten (TenErrorCode × TenSocket) := do
  let some out ← tenBufferCreate
    | return (.outOfMemory, sock)
  let line := snprintf tenHttpLineBuf
    (literal "HTTP/1.1 " ++ formatSigned response.status ++ literal " " ++
      tenHttpStatusText response.status ++ crlf)
  let out ← tenHttpPut out line
  tenHttpSendMessage transport sock out response.headers response.body

end Sending

section Reading

variable (transport : Transport)

/-- `ten__find_crlf_crlf`. -/
def tenFindCrlfCrlf (data : Bytes) (size : Nat) : Option Nat :=
  findSlice (crlf ++ crlf) (data.take size)

/-- The loop of `ten__http_read_until_headers_end`.  Every call that does not
end the loop takes a byte that the peer has sent, so the loop ends within as
many steps. -/
def tenHttpReadUntilHeadersEndLoop :
    Nat → TenSocket → TenBuffer → Ten (Bool × TenBuffer × TenSocket)
  | 0, _, _ => stuck
  | steps + 1, sock, raw => do
      let data ← tenBufferData raw
      let size ← tenBufferSize raw
      if (tenFindCrlfCrlf data size).isSome then
        return (true, raw, sock)
      else if size > tenHttpMaxHeaderSize then
        return (false, raw, sock)
      else
        let (n, chunk, sock) ← tenSocketReceive transport sock tenHttpChunkSize
        if n ≤ 0 then
          return (false, raw, sock)
        else
          let (code, raw) ← tenBufferWrite raw (some chunk) n.toNat
          if code ≠ .ok then
            return (false, raw, sock)
          else
            tenHttpReadUntilHeadersEndLoop steps sock raw

/-- `ten__http_read_until_headers_end`. -/
def tenHttpReadUntilHeadersEnd (sock : TenSocket) (raw : TenBuffer) :
    Ten (Bool × TenBuffer × TenSocket) :=
  tenHttpReadUntilHeadersEndLoop transport (sock.incoming.length + 1) sock raw

/-- The loop of `ten__http_read_body`, which ends within as many steps as the
peer has sent bytes, too. -/
def tenHttpReadBodyLoop (contentLength : Int) :
    Nat → TenSocket → TenBuffer → Ten (TenBuffer × TenSocket)
  | 0, _, _ => stuck
  | steps + 1, sock, body => do
      let size ← tenBufferSize body
      if (size : Int) < contentLength then
        let remaining := contentLength.toNat - size
        let toRead := if remaining < tenHttpChunkSize then remaining else tenHttpChunkSize
        let (n, chunk, sock) ← tenSocketReceive transport sock toRead
        if n ≤ 0 then
          return (body, sock)
        else
          let (_, body) ← tenBufferWrite body (some chunk) n.toNat
          tenHttpReadBodyLoop contentLength steps sock body
      else
        return (body, sock)

/-- `ten__http_read_body`. -/
def tenHttpReadBody (sock : TenSocket) (contentLength : Int) (bodyPrefix : Bytes)
    (bodyPrefixLen : Nat) : Ten (Option TenBuffer × TenSocket) := do
  let some body ← tenBufferCreate
    | return (none, sock)
  if contentLength ≤ 0 then
    return (some body, sock)
  else
    let take :=
      if bodyPrefixLen < contentLength.toNat then bodyPrefixLen else contentLength.toNat
    let (_, body) ←
      if take > 0 then tenBufferWrite body (some bodyPrefix) take
      else pure (TenErrorCode.ok, body)
    let (body, sock) ←
      tenHttpReadBodyLoop transport contentLength (sock.incoming.length + 1) sock body
    return (some body, sock)

/-- `ten__first_line_fn`: whether the first line was accepted, and the
context. -/
abbrev TenFirstLineFn (γ : Type) := Bytes → γ → Ten (Bool × γ)

/-- What the loop of `ten__http_parse_headers_text` does with a line that is
neither empty nor the first: the headers and the content length after it. -/
def tenHttpParseHeaderLine (line : Bytes) (headers : TenHttpHeaders) (contentLength : Int) :
    Ten (TenHttpHeaders × Int) :=
  match strchr line (ascii ':') with
  | none => pure (headers, contentLength)
  | some (name, rest) => do
      let name := CString.ofMemory name
      let value := CString.ofMemory (rest.dropWhile (· = ascii ' '))
      let contentLength :=
        if tenCiStrcmp name (literalString "Content-Length") = 0 then atol value.bytes
        else contentLength
      let (_, headers) ← tenHttpHeadersSet headers name value
      return (headers, contentLength)

/-- The loop of `ten__http_parse_headers_text`; the cursor is the rest of the
text, or NULL.  Every step but the last passes a line end, so the loop ends
within the length of the text. -/
def tenHttpParseHeadersLoop {γ : Type} (firstLineFn : TenFirstLineFn γ) :
    Nat → Option Bytes → Bool → Int → TenHttpHeaders → γ → Ten (Int × TenHttpHeaders × γ)
  | 0, _, _, _, _, _ => stuck
  | steps + 1, cursor, firstLine, contentLength, headers, ctx =>
      match cursor with
      | none | some [] => pure (if firstLine then -2 else contentLength, headers, ctx)
      | some text => do
          let (line, next) :=
            match strstr text crlf with
            | some (line, rest) => (line, some rest)
            | none => (text, none)
          if line = [] then
            tenHttpParseHeadersLoop firstLineFn steps next firstLine contentLength headers ctx
          else if firstLine then
            let (accepted, ctx) ← firstLineFn line ctx
            if accepted then
              tenHttpParseHeadersLoop firstLineFn steps next false contentLength headers ctx
            else
              return (-2, headers, ctx)
          else
            let (headers, contentLength) ← tenHttpParseHeaderLine line headers contentLength
            tenHttpParseHeadersLoop firstLineFn steps next firstLine contentLength headers ctx

/-- `ten__http_parse_headers_text`: the content length, -1 when there is none
and -2 when the first line was not accepted; the headers; the context. -/
def tenHttpParseHeadersText {γ : Type} (headersText : CString) (headers : TenHttpHeaders)
    (firstLineFn : TenFirstLineFn γ) (ctx : γ) : Ten (Int × TenHttpHeaders × γ) :=
  tenHttpParseHeadersLoop firstLineFn (headersText.length + 1) (some headersText.bytes) true (-1)
    headers ctx

/-- What `ten__request_first_line` fills in of a request. -/
structure TenRequestFirstLineCtx where
  method : TenHttpMethod
  path : Option CString
deriving DecidableEq, Repr, Inhabited

/-- `ten__request_first_line`. -/
def tenRequestFirstLine : TenFirstLineFn TenRequestFirstLineCtx := fun line ctx =>
  match strchr line (ascii ' ') with
  | none => pure (false, ctx)
  | some (method, rest) =>
      match tenHttpMethodParse method with
      | none => pure (false, ctx)
      | some method => do
          let path :=
            match strchr rest (ascii ' ') with
            | some (path, _) => path
            | none => rest
          let path ← tenHttpCopy (CString.ofMemory path)
          return (path.isSome, { method, path })

/-- `ten__response_first_line`, whose context is the status. -/
def tenResponseFirstLine : TenFirstLineFn Int := fun line ctx =>
  match strchr line (ascii ' ') with
  | none => pure (false, ctx)
  | some (_, rest) =>
      let statusStr :=
        match strchr rest (ascii ' ') with
        | some (status, _) => status
        | none => rest
      let status := atoi statusStr
      pure (status > 0, status)

/-- `ten__http_parse_request`. -/
def tenHttpParseRequest (sock : TenSocket) (headerBlock : Bytes) (headerLen : Nat)
    (bodyPrefix : Bytes) (bodyPrefixLen : Nat) : Ten (Option TenHttpRequest) := do
  let some _ ← tenMalloc
    | return none
  let headersText := CString.ofMemory (headerBlock.take headerLen ++ [0])
  let some _ ← tenMalloc
    | return none
  let (contentLength, headers, ctx) ←
    tenHttpParseHeadersText headersText .none tenRequestFirstLine { method := .get, path := none }
  if contentLength = -2 then
    return none
  else
    let (body, _) ← tenHttpReadBody transport sock contentLength bodyPrefix bodyPrefixLen
    match body with
    | none => return none
    | some body => return some { method := ctx.method, path := ctx.path, headers, body }

/-- `ten__http_parse_response`. -/
def tenHttpParseResponse (sock : TenSocket) (headerBlock : Bytes) (headerLen : Nat)
    (bodyPrefix : Bytes) (bodyPrefixLen : Nat) : Ten (Option TenHttpResponse) := do
  let some _ ← tenMalloc
    | return none
  let headersText := CString.ofMemory (headerBlock.take headerLen ++ [0])
  let some resp ← tenHttpResponseCreate
    | return none
  let (contentLength, headers, status) ←
    tenHttpParseHeadersText headersText resp.headers tenResponseFirstLine 0
  if contentLength = -2 then
    return none
  else
    let (body, _) ← tenHttpReadBody transport sock contentLength bodyPrefix bodyPrefixLen
    match body with
    | none => return none
    | some body => return some { status, headers, body }

/-- What `ten__http_handle_connection` and `ten_http_client_send` do to receive
a message: reading up to the blank line, and parsing what stands before it with
what has been read behind it as the start of the body.  Without a message the
code says what went wrong. -/
def tenHttpReceive {μ : Type}
    (parse : TenSocket → Bytes → Nat → Bytes → Nat → Ten (Option μ)) (sock : TenSocket) :
    Ten (TenErrorCode × Option μ) := do
  let some raw ← tenBufferCreate
    | return (.outOfMemory, none)
  let (found, raw, sock) ← tenHttpReadUntilHeadersEnd transport sock raw
  if found then
    let data ← tenBufferData raw
    let size ← tenBufferSize raw
    let some headerLen := tenFindCrlfCrlf data size
      | stuck
    let message ←
      parse sock data headerLen (data.drop (headerLen + 4)) (size - headerLen - 4)
    return (if message.isSome then .ok else .parse, message)
  else
    return (.network, none)

/-- The part of `ten__http_handle_connection` that receives the request. -/
def tenHttpReceiveRequest (client : TenSocket) : Ten (TenErrorCode × Option TenHttpRequest) :=
  tenHttpReceive transport (tenHttpParseRequest transport) client

/-- The part of `ten_http_client_send` that receives the response.  The
allocator has already set the error when there was no room for the buffer. -/
def tenHttpReceiveResponse (sock : TenSocket) : Ten (Option TenHttpResponse) := do
  let (code, resp) ← tenHttpReceive transport (tenHttpParseResponse transport) sock
  tenSetError code
  return resp

end Reading

section Connections

variable (transport : Transport)

/-- `ten_http_handler_t`, with its `userdata`: the response after a call.  A
handler returns. -/
abbrev TenHttpHandler :=
  TenHttpRequest → TenHttpResponse → Schedule → World → TenHttpResponse × World

/-- `ten__http_handle_connection`: the request that the handler was called with,
if it was called, and the socket.  Nothing is received behind the request, so
the socket to send on is the one before it. -/
def tenHttpHandleConnection (handler : TenHttpHandler) (client : TenSocket) :
    Ten (Option TenHttpRequest × TenSocket) := do
  let (code, req) ← tenHttpReceiveRequest transport client
  match req with
  | none =>
      if code = .parse then
        let some errorResp ← tenHttpResponseCreate
          | return (none, client)
        let (_, client) ← tenHttpSendResponse transport client { errorResp with status := 400 }
        return (none, client)
      else
        return (none, client)
  | some req =>
      let some resp ← tenHttpResponseCreate
        | return (none, client)
      let resp ← fun grants world => some (handler req resp grants world)
      let (_, client) ← tenHttpSendResponse transport client resp
      return (some req, client)

/-- `ten_http_client_send`; `connected` is what `ten_tcp_connect` has returned
for the host and the port: a socket, or the error it has set. -/
def tenHttpClientSend (connected : Except TenErrorCode TenSocket) (host : Option CString)
    (request : Option TenHttpRequest) : Ten (Option TenHttpResponse) :=
  match host, request with
  | some host, some request =>
      match connected with
      | .error code => do
          tenSetError code
          return none
      | .ok sock => do
          let (rc, sock) ← tenHttpSendRequest transport sock request host
          if rc ≠ .ok then
            tenSetError .network
            return none
          else
            tenHttpReceiveResponse transport sock
  | _, _ => do
      tenSetError .nullArgument
      return none

end Connections

end Dotten
