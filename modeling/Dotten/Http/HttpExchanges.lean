/-
Module: Dotten.Http.HttpExchanges
Layer: Http
Purpose: Whole exchanges of http.c, from the socket that is opened for them on:
  handlers that use the functions of the library in any order and with any use of
  the replies, the connections that a server serves with one, and a request of a
  client.
Imports: Dotten.Http.TenHttp
Main exports: HandlerProgram, HandlerProgram.run, HandlerProgram.handler,
  tenTcpAccept, tenTcpConnect, tenHttpServe, tenHttpClientExchange
-/
import Dotten.Http.TenHttp

namespace Dotten

open Dotten.Library

/-- The calls of a handler.  What it does next may depend on what a call
returned. -/
inductive HandlerProgram where
  | done
  | requestMethod (next : TenHttpMethod → HandlerProgram)
  | requestPath (next : Option CString → HandlerProgram)
  | requestHeader (name : Option CString) (next : Option CString → HandlerProgram)
  | requestBody (next : Option Bytes × Nat → HandlerProgram)
  | setStatus (statusCode : Int) (next : TenErrorCode → HandlerProgram)
  | setHeader (name value : Option CString) (next : TenErrorCode → HandlerProgram)
  | setBody (data : Option Bytes) (size : Nat) (next : TenErrorCode → HandlerProgram)

/-- `ten_http_request_method` of a request. -/
def tenHttpRequestMethod (request : TenHttpRequest) : Ten TenHttpMethod := do
  tenSetError .ok
  return request.method

/-- `ten_http_request_path` of a request. -/
def tenHttpRequestPath (request : TenHttpRequest) : Ten (Option CString) := do
  tenSetError .ok
  return request.path

/-- A call of the handler: the response afterwards. -/
def HandlerProgram.run (request : TenHttpRequest) :
    HandlerProgram → TenHttpResponse → Ten TenHttpResponse
  | .done, response => pure response
  | .requestMethod next, response => do
      let method ← tenHttpRequestMethod request
      (next method).run request response
  | .requestPath next, response => do
      let path ← tenHttpRequestPath request
      (next path).run request response
  | .requestHeader name next, response => do
      let value ← tenHttpRequestHeader (some request) name
      (next value).run request response
  | .requestBody next, response => do
      let body ← tenHttpRequestBody request
      (next body).run request response
  | .setStatus statusCode next, response => do
      let (code, response) ← tenHttpResponseSetStatus response statusCode
      (next code).run request response
  | .setHeader name value next, response => do
      let (code, response) ← tenHttpResponseSetHeader response name value
      (next code).run request response
  | .setBody data size next, response => do
      let (code, response) ← tenHttpResponseSetBody response data size
      (next code).run request response

/-- The handler that makes the calls. -/
def HandlerProgram.handler (program : HandlerProgram) : TenHttpHandler :=
  fun request response grants world =>
    (program.run request response grants world).getD (response, world)

/-- The end of the functions that open a socket: `opened` is the descriptor that
the system has given, with its connection, or nothing. -/
def tenSocketOpened (opened : Option TenSocket) : Ten (Option TenSocket) :=
  match opened with
  | none => do
      tenSetError .network
      return none
  | some socket => do
      tenSetError .ok
      let some _ ← tenMalloc
        | return none
      return some socket

/-- `ten_tcp_accept` of a listener. -/
def tenTcpAccept (accepted : Option TenSocket) : Ten (Option TenSocket) := tenSocketOpened accepted

/-- `ten_tcp_connect` to a host, after its name was looked up and its addresses
were tried. -/
def tenTcpConnect (connected : Option TenSocket) : Ten (Option TenSocket) :=
  tenSocketOpened connected

/-- A pass of the loop of `ten_http_server_run` in which the listener is readable:
what `accept` returns, and how the transport of the connection behaves. -/
structure Arrival where
  accepted : Option TenSocket
  transport : Transport

/-- The passes of the loop of `ten_http_server_run`: the request that was read on
every connection that was served, and the connection when it was closed. -/
def tenHttpServe (handler : TenHttpHandler) :
    List Arrival → Ten (List (Option TenHttpRequest × TenSocket))
  | [] => return []
  | arrival :: rest => do
      let some client ← tenTcpAccept arrival.accepted
        | tenHttpServe handler rest
      let served ← tenHttpHandleConnection arrival.transport handler client
      let others ← tenHttpServe handler rest
      return served :: others

/-- `ten_http_client_send`, with its call of `ten_tcp_connect`. -/
def tenHttpClientExchange (transport : Transport) (connected : Option TenSocket)
    (host : Option CString) (request : Option TenHttpRequest) : Ten (Option TenHttpResponse) :=
  match host, request with
  | some host, some request => do
      let some sock ← tenTcpConnect connected
        | return none
      tenHttpClientSend transport (.ok sock) (some host) (some request)
  | host, request => tenHttpClientSend transport (.error .network) host request

end Dotten
