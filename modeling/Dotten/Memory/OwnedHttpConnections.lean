/-
Module: Dotten.Memory.OwnedHttpConnections
Layer: Memory
Purpose: The connections of http.c with their blocks, on the side of the server
  and on the side of the client, and the server from its creation to its
  destruction.
Imports: Dotten.Memory.OwnedHttpReading, Dotten.Http.HttpExchanges
Main exports: Heap.runHandler, Heap.tenHttpHandleConnection, Heap.tenHttpServe,
  Heap.tenHttpServerLife, Heap.tenHttpClientSend, server_life_blocks,
  server_serves_plain
-/
import Dotten.Memory.OwnedHttpReading
import Dotten.Http.HttpExchanges

namespace Dotten

open Dotten.Library

namespace Heap

/-- `ten_http_request_method` of a request. -/
def tenHttpRequestMethod (request : OwnedRequest) : Op TenHttpMethod := do
  access request.self
  tenSetError .ok
  return request.method

/-- `ten_http_request_path` of a request. -/
def tenHttpRequestPath (request : OwnedRequest) : Op (Option CString) := do
  access request.self
  tenSetError .ok
  return request.path.map OwnedText.text

/-- A call of a handler with a request and a response in the heap. -/
def runHandler (request : OwnedRequest) : HandlerProgram → OwnedResponse → Op OwnedResponse
  | .done, response => pure response
  | .requestMethod next, response => do
      let method ← tenHttpRequestMethod request
      runHandler request (next method) response
  | .requestPath next, response => do
      let path ← tenHttpRequestPath request
      runHandler request (next path) response
  | .requestHeader name next, response => do
      let value ← tenHttpRequestHeader request name
      runHandler request (next value) response
  | .requestBody next, response => do
      let body ← tenHttpRequestBody request
      runHandler request (next body) response
  | .setStatus statusCode next, response => do
      let (code, response) ← tenHttpResponseSetStatus response statusCode
      runHandler request (next code) response
  | .setHeader name value next, response => do
      let (code, response) ← tenHttpResponseSetHeader response name value
      runHandler request (next code) response
  | .setBody data size next, response => do
      let (code, response) ← tenHttpResponseSetBody response data size
      runHandler request (next code) response

/-- The end of the functions that open a socket, with `ten__socket_wrap`. -/
def tenSocketOpened (opened : Option TenSocket) : Op (Option OwnedSocket) :=
  match opened with
  | none => do
      tenSetError .network
      return none
  | some socket => do
      tenSetError .ok
      let some self ← tenMalloc
        | return none
      return some { self, socket }

/-- `ten_tcp_accept` of the listener in the block `listener`. -/
def tenTcpAccept (listener : Nat) (accepted : Option TenSocket) : Op (Option OwnedSocket) := do
  access listener
  tenSocketOpened accepted

/-- `ten_tcp_connect`. -/
def tenTcpConnect (connected : Option TenSocket) : Op (Option OwnedSocket) :=
  tenSocketOpened connected

/-- `ten_socket_close` of a socket. -/
def tenSocketClose (sock : OwnedSocket) : Op Unit := do
  access sock.self
  tenFree (some sock.self)

section Functions

variable (transport : Transport)

/-- `ten__http_handle_connection`. -/
def tenHttpHandleConnection (handler : HandlerProgram) (client : OwnedSocket) :
    Op (Option TenHttpRequest × OwnedSocket) := do
  let (code, req) ← tenHttpReceive transport (tenHttpParseRequest transport) client
  match req with
  | none =>
      if code = .parse then
        let some errorResp ← tenHttpResponseCreate
          | return (none, client)
        access errorResp.self
        let errorResp := { errorResp with status := 400 }
        let (_, client) ← tenHttpSendResponse transport client errorResp
        tenHttpResponseDestroy (some errorResp)
        return (none, client)
      else
        return (none, client)
  | some req =>
      let some resp ← tenHttpResponseCreate
        | do
          tenHttpRequestDestroy (some req)
          return (none, client)
      let resp ← runHandler req handler resp
      let (_, client) ← tenHttpSendResponse transport client resp
      tenHttpResponseDestroy (some resp)
      tenHttpRequestDestroy (some req)
      return (some req.forget, client)

end Functions

/-- A `ten_http_server_t *`: the blocks of the struct, of the socket that listens
and of the lock. -/
structure OwnedServer where
  self : Nat
  listener : Nat
  lock : Nat

def OwnedServer.blocks (server : OwnedServer) : Multiset Nat :=
  {server.self} + {server.listener} + {server.lock}

/-- The passes of the loop of `ten_http_server_run`.  Every pass reads the flag
under the lock. -/
def tenHttpServe (server : OwnedServer) (handler : HandlerProgram) :
    List Arrival → Op (List (Option TenHttpRequest × TenSocket))
  | [] => return []
  | arrival :: rest => do
      access server.self
      access server.lock
      let some client ← tenTcpAccept server.listener arrival.accepted
        | tenHttpServe server handler rest
      let (req, client) ← tenHttpHandleConnection arrival.transport handler client
      tenSocketClose client
      let others ← tenHttpServe server handler rest
      return (req, client.socket) :: others

/-- What the system answers while a server is created: whether there is a socket
that listens, and whether `pthread_mutex_init` succeeds. -/
structure ServerAnswers where
  listening : Bool
  initialised : Bool

/-- `ten_tcp_listen`. -/
def tenTcpListen (listening : Bool) : Op (Option Nat) := do
  if listening then
    tenSetError .ok
    tenMalloc
  else
    tenSetError .network
    return none

/-- `ten_mutex_create`. -/
def tenMutexCreate (initialised : Bool) : Op (Option Nat) := do
  let some self ← tenMalloc
    | return none
  if initialised then
    tenSetError .ok
    return some self
  else
    tenFree (some self)
    tenSetError .system
    return none

/-- `ten_mutex_destroy` of a mutex, and `ten_socket_close` of a listener. -/
def tenDestroyHandle (self : Nat) : Op Unit := do
  access self
  tenFree (some self)

/-- `ten_http_server_create`. -/
def tenHttpServerCreate (answers : ServerAnswers) : Op (Option OwnedServer) := do
  let some listener ← tenTcpListen answers.listening
    | return none
  let some self ← tenMalloc
    | do
      tenDestroyHandle listener
      return none
  let some lock ← tenMutexCreate answers.initialised
    | do
      tenFree (some self)
      tenDestroyHandle listener
      return none
  tenSetError .ok
  return some { self, listener, lock }

/-- `ten_http_server_destroy` of a server. -/
def tenHttpServerDestroy (server : OwnedServer) : Op Unit := do
  access server.self
  tenDestroyHandle server.listener
  tenDestroyHandle server.lock
  tenFree (some server.self)

/-- A server that is created, serves what arrives until it is stopped, and is
destroyed. -/
def tenHttpServerLife (answers : ServerAnswers) (handler : HandlerProgram)
    (arrivals : List Arrival) : Op (Option (List (Option TenHttpRequest × TenSocket))) := do
  let some server ← tenHttpServerCreate answers
    | return none
  let served ← tenHttpServe server handler arrivals
  tenHttpServerDestroy server
  return some served

/-- `ten_http_client_send`. -/
def tenHttpClientSend (transport : Transport) (connected : Option TenSocket)
    (host : Option CString) (request : Option OwnedRequest) : Op (Option OwnedResponse) :=
  match host, request with
  | some host, some request => do
      let some sock ← tenTcpConnect connected
        | return none
      let (rc, sock) ← tenHttpSendRequest transport sock request host
      if rc ≠ .ok then
        tenSocketClose sock
        tenSetError .network
        return none
      else
        let (code, resp) ← tenHttpReceive transport (tenHttpParseResponse transport) sock
        tenSocketClose sock
        tenSetError code
        return resp
  | _, _ => do
      tenSetError .nullArgument
      return none

section Ownership

variable {transport : Transport} {grants : Schedule} {given : Multiset Nat}

theorem owns_requestField {α : Type} {request : OwnedRequest} (held : request.blocks ≤ given)
    (field : α) :
    Owns grants given
      (do
        access request.self
        tenSetError .ok
        return field) (fun _ => given) fun _ => True := by
  refine Transfers.bind (owns_access (Multiset.mem_of_le held request.self_mem)) ?_
  rintro ⟨⟩ -
  refine Transfers.bind (owns_tenSetError _) ?_
  rintro ⟨⟩ -
  exact Transfers.pure rfl trivial

/-- A handler leaves the request as it is, and whatever it sets is the
response's. -/
theorem owns_runHandler {request : OwnedRequest} (held : request.blocks ≤ given)
    (handler : HandlerProgram) :
    ∀ response : OwnedResponse, Owns grants (response.blocks + given)
      (runHandler request handler response) (fun response => response.blocks + given)
      fun _ => True := by
  have inside : ∀ response : OwnedResponse, request.blocks ≤ response.blocks + given :=
    fun response => held.trans (Multiset.le_add_left _ _)
  induction handler with
  | done => exact fun response => Transfers.pure rfl trivial
  | requestMethod next inductionHypothesis =>
      intro response
      refine Transfers.bind (owns_requestField (inside response) request.method) ?_
      rintro method -
      exact inductionHypothesis method response
  | requestPath next inductionHypothesis =>
      intro response
      refine Transfers.bind (owns_requestField (inside response) _) ?_
      rintro path -
      exact inductionHypothesis path response
  | requestHeader name next inductionHypothesis =>
      intro response
      refine Transfers.bind (owns_tenHttpRequestHeader (inside response) name) ?_
      rintro value -
      exact inductionHypothesis value response
  | requestBody next inductionHypothesis =>
      intro response
      refine Transfers.bind (owns_tenHttpRequestBody (inside response)) ?_
      rintro body -
      exact inductionHypothesis body response
  | setStatus statusCode next inductionHypothesis =>
      intro response
      refine Transfers.call given (owns_tenHttpResponseSetStatus response statusCode) rfl ?_
      rintro ⟨code, response⟩ -
      exact inductionHypothesis code response
  | setHeader name value next inductionHypothesis =>
      intro response
      refine Transfers.call given (owns_tenHttpResponseSetHeader response name value) rfl ?_
      rintro ⟨code, response⟩ -
      exact inductionHypothesis code response
  | setBody data size next inductionHypothesis =>
      intro response
      refine Transfers.call given (owns_tenHttpResponseSetBody response data size) rfl ?_
      rintro ⟨code, response⟩ -
      exact inductionHypothesis code response

/-- A connection is given back as it came, whatever was received on it. -/
theorem owns_tenHttpHandleConnection (handler : HandlerProgram) {client : OwnedSocket}
    (held : client.self ∈ given) :
    Owns grants given (tenHttpHandleConnection transport handler client) (fun _ => given)
      fun reply => SameStruct client reply.2 := by
  refine Transfers.bind (owns_tenHttpReceive OwnedRequest.blocks held
    fun member there inside => owns_tenHttpParseRequest member there inside) ?_
  rintro ⟨code, _ | req⟩ -
  · rw [ownsOption_none, zero_add]
    refine Transfers.ite (fun _ => ?_) fun _ => Transfers.pure rfl rfl
    refine Transfers.call given owns_tenHttpResponseCreate (zero_add _).symm ?_
    rintro (_ | errorResp) -
    · exact Transfers.pure (zero_add _) rfl
    refine Transfers.bind (owns_access (by simp)) ?_
    rintro ⟨⟩ -
    have errorHeld : ({ errorResp with status := 400 } : OwnedResponse).blocks ≤
        ownsOption OwnedResponse.blocks (some errorResp) + given := Multiset.le_add_right _ _
    refine Transfers.bind (owns_tenHttpSendResponse (Multiset.mem_add.mpr (.inr held))
      errorHeld) ?_
    rintro ⟨rc, after⟩ same
    refine Transfers.call given (owns_tenHttpResponseDestroy _) rfl ?_
    rintro ⟨⟩ -
    exact Transfers.pure (zero_add _) same
  · rw [ownsOption_some]
    refine Transfers.call (req.blocks + given) owns_tenHttpResponseCreate (zero_add _).symm ?_
    rintro (_ | resp) -
    · refine Transfers.call given (owns_tenHttpRequestDestroy (some req)) (zero_add _) ?_
      rintro ⟨⟩ -
      exact Transfers.pure (zero_add _) rfl
    refine Transfers.bind (owns_runHandler (Multiset.le_add_right _ _) handler resp) ?_
    rintro resp -
    refine Transfers.bind (owns_tenHttpSendResponse (by simp [held])
      (Multiset.le_add_right _ _)) ?_
    rintro ⟨rc, after⟩ same
    refine Transfers.call (req.blocks + given) (owns_tenHttpResponseDestroy (some resp)) rfl ?_
    rintro ⟨⟩ -
    refine Transfers.call given (owns_tenHttpRequestDestroy (some req)) (zero_add _) ?_
    rintro ⟨⟩ -
    exact Transfers.pure (zero_add _) same

theorem owns_tenSocketOpened (opened : Option TenSocket) :
    Owns grants 0 (tenSocketOpened opened) (ownsOption OwnedSocket.blocks) fun _ => True := by
  cases opened with
  | none =>
      refine Transfers.bind (owns_tenSetError _) ?_
      rintro ⟨⟩ -
      exact Transfers.pure rfl trivial
  | some socket =>
      refine Transfers.bind (owns_tenSetError _) ?_
      rintro ⟨⟩ -
      refine Transfers.bind owns_tenMalloc ?_
      rintro (_ | self) -
      · exact Transfers.pure rfl trivial
      · exact Transfers.pure rfl trivial

theorem owns_tenDestroyHandle (self : Nat) :
    Owns grants {self} (tenDestroyHandle self) (fun _ => 0) fun _ => True := by
  refine Transfers.bind (owns_access (Multiset.mem_singleton_self self)) ?_
  rintro ⟨⟩ -
  exact owns_tenFree (some self)

theorem owns_tenSocketClose (sock : OwnedSocket) :
    Owns grants sock.blocks (tenSocketClose sock) (fun _ => 0) fun _ => True :=
  owns_tenDestroyHandle sock.self

/-- Serving leaves the blocks as they were after every connection. -/
theorem owns_tenHttpServe {server : OwnedServer} (held : server.blocks ≤ given)
    (handler : HandlerProgram) (arrivals : List Arrival) :
    Owns grants given (tenHttpServe server handler arrivals) (fun _ => given) fun _ => True := by
  induction arrivals with
  | nil => exact Transfers.pure rfl trivial
  | cons arrival rest inductionHypothesis =>
      have field : ∀ block ∈ server.blocks, block ∈ given :=
        fun block member => Multiset.mem_of_le held member
      refine Transfers.bind (owns_access (field _ (by simp [OwnedServer.blocks]))) ?_
      rintro ⟨⟩ -
      refine Transfers.bind (owns_access (field _ (by simp [OwnedServer.blocks]))) ?_
      rintro ⟨⟩ -
      have accepts : Owns grants given (tenTcpAccept server.listener arrival.accepted)
          (fun client => ownsOption OwnedSocket.blocks client + given) fun _ => True := by
        refine Transfers.bind (owns_access (field _ (by simp [OwnedServer.blocks]))) ?_
        rintro ⟨⟩ -
        exact ((owns_tenSocketOpened _).frame given).conseq (zero_add _).symm
          (fun _ _ => rfl) fun _ holds => holds
      refine Transfers.bind accepts ?_
      rintro (_ | client) -
      · rw [ownsOption_none, zero_add]
        exact inductionHypothesis
      refine Transfers.bind (owns_tenHttpHandleConnection handler (by simp [OwnedSocket.blocks])) ?_
      rintro ⟨req, after⟩ same
      refine Transfers.call given (owns_tenSocketClose after) ?_ ?_
      · have sameStruct : after.self = client.self := same
        rw [ownsOption_some, OwnedSocket.blocks, OwnedSocket.blocks, sameStruct]
      rintro ⟨⟩ -
      rw [zero_add]
      refine Transfers.bind inductionHypothesis ?_
      rintro others -
      exact Transfers.pure rfl trivial

theorem owns_tenTcpListen (listening : Bool) :
    Owns grants 0 (tenTcpListen listening) ofPointer fun _ => True := by
  refine Transfers.ite (fun _ => ?_) fun _ => ?_
  · refine Transfers.bind (owns_tenSetError _) ?_
    rintro ⟨⟩ -
    exact owns_tenMalloc
  · refine Transfers.bind (owns_tenSetError _) ?_
    rintro ⟨⟩ -
    exact Transfers.pure rfl trivial

theorem owns_tenMutexCreate (initialised : Bool) :
    Owns grants 0 (tenMutexCreate initialised) ofPointer fun _ => True := by
  refine Transfers.bind owns_tenMalloc ?_
  rintro (_ | self) -
  · exact Transfers.pure rfl trivial
  refine Transfers.ite (fun _ => ?_) fun _ => ?_
  · refine Transfers.bind (owns_tenSetError _) ?_
    rintro ⟨⟩ -
    exact Transfers.pure rfl trivial
  · refine Transfers.bind (owns_tenFree (some self)) ?_
    rintro ⟨⟩ -
    refine Transfers.bind (owns_tenSetError _) ?_
    rintro ⟨⟩ -
    exact Transfers.pure rfl trivial

/-- A server that could not be created leaves nothing behind, wherever its
creation gave up. -/
theorem owns_tenHttpServerCreate (answers : ServerAnswers) :
    Owns grants 0 (tenHttpServerCreate answers) (ownsOption OwnedServer.blocks)
      fun _ => True := by
  refine Transfers.bind (owns_tenTcpListen _) ?_
  rintro (_ | listener) -
  · exact Transfers.pure rfl trivial
  refine Transfers.call {listener} owns_tenMalloc (by simp) ?_
  rintro (_ | self) -
  · refine Transfers.call 0 (owns_tenDestroyHandle listener) (by simp) ?_
    rintro ⟨⟩ -
    exact Transfers.pure rfl trivial
  refine Transfers.call ({self} + {listener}) (owns_tenMutexCreate _) (by simp) ?_
  rintro (_ | lock) -
  · refine Transfers.call {listener} (owns_tenFree (some self)) (by simp) ?_
    rintro ⟨⟩ -
    refine Transfers.call 0 (owns_tenDestroyHandle listener) (by simp) ?_
    rintro ⟨⟩ -
    exact Transfers.pure rfl trivial
  · refine Transfers.bind (owns_tenSetError _) ?_
    rintro ⟨⟩ -
    exact Transfers.pure (add_comm _ _) trivial

theorem owns_tenHttpServerDestroy (server : OwnedServer) :
    Owns grants server.blocks (tenHttpServerDestroy server) (fun _ => 0) fun _ => True := by
  refine Transfers.bind (owns_access (by simp [OwnedServer.blocks])) ?_
  rintro ⟨⟩ -
  refine Transfers.call ({server.self} + {server.lock}) (owns_tenDestroyHandle server.listener) ?_ ?_
  · rw [OwnedServer.blocks]
    abel
  rintro ⟨⟩ -
  refine Transfers.call {server.self} (owns_tenDestroyHandle server.lock) (by abel) ?_
  rintro ⟨⟩ -
  rw [zero_add]
  exact owns_tenFree (some server.self)

theorem owns_tenHttpServerLife (answers : ServerAnswers) (handler : HandlerProgram)
    (arrivals : List Arrival) :
    Owns grants 0 (tenHttpServerLife answers handler arrivals) (fun _ => 0) fun _ => True := by
  refine Transfers.bind (owns_tenHttpServerCreate answers) ?_
  rintro (_ | server) -
  · exact Transfers.pure rfl trivial
  refine Transfers.bind (owns_tenHttpServe le_rfl handler arrivals) ?_
  rintro served -
  refine Transfers.bind (owns_tenHttpServerDestroy server) ?_
  rintro ⟨⟩ -
  exact Transfers.pure rfl trivial

/-- A call of the client gives back the response, and closes its socket on every
path. -/
theorem owns_tenHttpClientSend (connected : Option TenSocket) (host : Option CString)
    {request : Option OwnedRequest}
    (located : Located request)
    (held : ownsOption OwnedRequest.blocks request ≤ given) :
    Owns grants given (tenHttpClientSend transport connected host request)
      (fun reply => ownsOption OwnedResponse.blocks reply + given) fun _ => True := by
  have refused : Owns grants given
      (do
        tenSetError .nullArgument
        return none) (fun reply => ownsOption OwnedResponse.blocks reply + given)
      fun _ => True := by
    refine Transfers.bind (owns_tenSetError _) ?_
    rintro ⟨⟩ -
    exact Transfers.pure (zero_add _).symm trivial
  cases host with
  | none => exact refused
  | some host =>
      cases request with
      | none => exact refused
      | some request =>
          refine Transfers.call given (owns_tenSocketOpened connected) (zero_add _).symm ?_
          rintro (_ | sock) -
          · exact Transfers.pure rfl trivial
          refine Transfers.bind (owns_tenHttpSendRequest (located request rfl)
            (by simp [OwnedSocket.blocks]) (held.trans (Multiset.le_add_left _ _)) host) ?_
          rintro ⟨rc, after⟩ same
          have sameStruct : after.self = sock.self := same
          have sameBlocks : ownsOption OwnedSocket.blocks (some sock) = after.blocks := by
            rw [ownsOption_some, OwnedSocket.blocks, OwnedSocket.blocks, sameStruct]
          rw [sameBlocks]
          refine Transfers.ite (fun _ => ?_) fun _ => ?_
          · refine Transfers.call given (owns_tenSocketClose after) rfl ?_
            rintro ⟨⟩ -
            refine Transfers.bind (owns_tenSetError _) ?_
            rintro ⟨⟩ -
            exact Transfers.pure rfl trivial
          · refine Transfers.bind (owns_tenHttpReceive OwnedResponse.blocks
              (by simp [OwnedSocket.blocks])
              fun member there inside => owns_tenHttpParseResponse member there inside) ?_
            rintro ⟨code, resp⟩ -
            refine Transfers.call (ownsOption OwnedResponse.blocks resp + given)
              (owns_tenSocketClose after) (by abel) ?_
            rintro ⟨⟩ -
            refine Transfers.bind (owns_tenSetError _) ?_
            rintro ⟨⟩ -
            exact Transfers.pure (zero_add _) trivial

end Ownership

section Forgetting

variable {transport : Transport}

theorem keeps_runHandler (request : OwnedRequest) (handler : HandlerProgram) :
    ∀ response : OwnedResponse, Keeps OwnedResponse.forget (runHandler request handler response)
      (handler.run request.forget response.forget) := by
  induction handler with
  | done => exact fun response => Simulates.pure rfl
  | requestMethod next inductionHypothesis =>
      intro response
      have field : Keeps id (tenHttpRequestMethod request)
          (Dotten.tenHttpRequestMethod request.forget) :=
        Simulates.skip (unseen_access _) fun _ =>
          Erases.bind (keeps_tenSetError _) fun _ => Simulates.pure rfl
      exact Erases.bind field fun method => inductionHypothesis method response
  | requestPath next inductionHypothesis =>
      intro response
      have field : Keeps id (tenHttpRequestPath request)
          (Dotten.tenHttpRequestPath request.forget) :=
        Simulates.skip (unseen_access _) fun _ =>
          Erases.bind (keeps_tenSetError _) fun _ => Simulates.pure rfl
      exact Erases.bind field fun path => inductionHypothesis path response
  | requestHeader name next inductionHypothesis =>
      intro response
      exact Erases.bind (keeps_tenHttpRequestHeader request name) fun value =>
        inductionHypothesis value response
  | requestBody next inductionHypothesis =>
      intro response
      exact Erases.bind (keeps_tenHttpBody request.self request.body) fun body =>
        inductionHypothesis body response
  | setStatus statusCode next inductionHypothesis =>
      intro response
      exact Erases.bind (keeps_tenHttpResponseSetStatus response statusCode) fun reply =>
        inductionHypothesis reply.1 reply.2
  | setHeader name value next inductionHypothesis =>
      intro response
      exact Erases.bind (keeps_tenHttpResponseSetHeader response name value) fun reply =>
        inductionHypothesis reply.1 reply.2
  | setBody data size next inductionHypothesis =>
      intro response
      exact Erases.bind (keeps_tenHttpResponseSetBody response data size) fun reply =>
        inductionHypothesis reply.1 reply.2

/-- A handler that is run is the handler that the server is given. -/
theorem keeps_handler (request : OwnedRequest) (handler : HandlerProgram)
    (response : OwnedResponse) :
    Keeps OwnedResponse.forget (runHandler request handler response)
      (fun grants world => some (handler.handler request.forget response.forget grants world)) := by
  intro grants heap world after heap' same run
  obtain ⟨plain, world', plainRun, seen, there⟩ :=
    keeps_runHandler request handler response grants heap world after heap' same run
  refine ⟨plain, world', ?_, seen, there⟩
  change some ((handler.run request.forget response.forget grants world).getD _) = _
  rw [plainRun]
  rfl

theorem keeps_tenHttpHandleConnection (handler : HandlerProgram) (client : OwnedSocket) :
    Keeps (Prod.map id OwnedSocket.socket) (tenHttpHandleConnection transport handler client)
      (Dotten.tenHttpHandleConnection transport handler.handler client.socket) := by
  refine Erases.bind (keeps_tenHttpReceive (fun after source headerBlock headerLen bodyPrefix
    bodyPrefixLen => keeps_tenHttpParseRequest after source headerBlock headerLen bodyPrefix
      bodyPrefixLen) client) ?_
  rintro ⟨code, _ | req⟩
  · refine Simulates.ite (fun _ => ?_) fun _ => Simulates.pure rfl
    refine Erases.bind keeps_tenHttpResponseCreate ?_
    rintro (_ | errorResp)
    · exact Simulates.pure rfl
    refine Simulates.skip (unseen_access _) fun _ =>
      Erases.bind (keeps_tenHttpSendResponse client { errorResp with status := 400 }) fun reply => ?_
    exact Simulates.skip (unseen_tenHttpResponseDestroy _) fun _ => Simulates.pure rfl
  · refine Erases.bind keeps_tenHttpResponseCreate ?_
    rintro (_ | resp)
    · exact Simulates.skip (unseen_tenHttpRequestDestroy _) fun _ => Simulates.pure rfl
    refine Erases.bind (keeps_handler req handler resp) fun resp =>
      Erases.bind (keeps_tenHttpSendResponse client resp) fun reply => ?_
    exact Simulates.skip (unseen_tenHttpResponseDestroy _) fun _ =>
      Simulates.skip (unseen_tenHttpRequestDestroy _) fun _ => Simulates.pure rfl

theorem keeps_tenSocketOpened (opened : Option TenSocket) :
    Keeps (Option.map OwnedSocket.socket) (tenSocketOpened opened)
      (Dotten.tenSocketOpened opened) := by
  cases opened with
  | none => exact Erases.bind (keeps_tenSetError _) fun _ => Simulates.pure rfl
  | some socket =>
      refine Erases.bind (keeps_tenSetError _) fun _ => Erases.bind keeps_tenMalloc ?_
      rintro (_ | self)
      · exact Simulates.pure rfl
      · exact Simulates.pure rfl

theorem unseen_tenDestroyHandle (self : Nat) : Unseen SameRequests (tenDestroyHandle self) :=
  Unseen.bind (unseen_access _) fun _ => unseen_tenFree _

theorem keeps_tenHttpServe (server : OwnedServer) (handler : HandlerProgram)
    (arrivals : List Arrival) :
    Keeps id (tenHttpServe server handler arrivals)
      (Dotten.tenHttpServe handler.handler arrivals) := by
  induction arrivals with
  | nil => exact Simulates.pure rfl
  | cons arrival rest inductionHypothesis =>
      refine Simulates.skip (unseen_access _) fun _ => Simulates.skip (unseen_access _) fun _ => ?_
      have accepts : Keeps (Option.map OwnedSocket.socket)
          (tenTcpAccept server.listener arrival.accepted)
          (Dotten.tenTcpAccept arrival.accepted) :=
        Simulates.skip (unseen_access _) fun _ => keeps_tenSocketOpened _
      refine Erases.bind accepts ?_
      rintro (_ | client)
      · exact inductionHypothesis
      refine Erases.bind (keeps_tenHttpHandleConnection handler client) fun reply =>
        Simulates.skip (unseen_tenDestroyHandle _) fun _ => ?_
      exact Erases.bind inductionHypothesis fun others => Simulates.pure rfl

theorem keeps_tenHttpClientSend (connected : Option TenSocket) (host : Option CString)
    (request : Option OwnedRequest) :
    Keeps (Option.map OwnedResponse.forget) (tenHttpClientSend transport connected host request)
      (Dotten.tenHttpClientExchange transport connected host
        (request.map OwnedRequest.forget)) := by
  cases host with
  | none => exact Erases.bind (keeps_tenSetError _) fun _ => Simulates.pure rfl
  | some host =>
      cases request with
      | none => exact Erases.bind (keeps_tenSetError _) fun _ => Simulates.pure rfl
      | some request =>
          refine Erases.bind (keeps_tenSocketOpened connected) ?_
          rintro (_ | sock)
          · exact Simulates.pure rfl
          refine Erases.bind (keeps_tenHttpSendRequest sock request host) ?_
          rintro ⟨rc, after⟩
          refine Simulates.ite (fun _ => ?_) fun _ => ?_
          · exact Simulates.skip (unseen_tenDestroyHandle _) fun _ =>
              Erases.bind (keeps_tenSetError _) fun _ => Simulates.pure rfl
          · refine Erases.bind (keeps_tenHttpReceive (fun after source headerBlock headerLen
              bodyPrefix bodyPrefixLen => keeps_tenHttpParseResponse after source headerBlock
                headerLen bodyPrefix bodyPrefixLen) after) fun reply => ?_
            exact Simulates.skip (unseen_tenDestroyHandle _) fun _ =>
              Erases.bind (keeps_tenSetError _) fun _ => Simulates.pure rfl

end Forgetting

end Heap

section Runs

variable {grants : Schedule}

/-- A server leaves no block behind, whatever arrives: it may fail to be created
at any point, its peers may send anything and stop anywhere, its handler may make
any calls on the request and the response, and any allocation may be refused.  No
block is touched that is not in use. -/
theorem server_life_blocks (answers : Heap.ServerAnswers) (handler : HandlerProgram)
    (arrivals : List Arrival) (heap : Heap) :
    Returns (Heap.tenHttpServerLife answers handler arrivals) grants heap
      (fun _ after => after.blocks = heap.blocks) :=
  (Heap.owns_tenHttpServerLife answers handler arrivals).held_eq.mono fun _ _ same => same.1

/-- The connections that a server with its blocks serves are those that the server
without them serves. -/
theorem server_serves_plain (handler : HandlerProgram) (arrivals : List Arrival)
    {server : Heap.OwnedServer} {heap : Heap} (held : server.blocks ≤ heap.blocks) :
    Returns (Heap.tenHttpServe server handler arrivals) grants heap
      (fun served after => after.blocks = heap.blocks ∧
        ∃ world, tenHttpServe handler.handler arrivals grants heap.world =
          some (served, world)) := by
  obtain ⟨served, after, run, same, -⟩ :=
    Heap.owns_tenHttpServe held handler arrivals heap 0 (add_zero _).symm
  obtain ⟨world, plainRun, -⟩ :=
    Erases.run (Heap.keeps_tenHttpServe server handler arrivals) (Eq.refl heap.world.requests) run
  exact ⟨served, after, run, same.trans (add_zero _), world, plainRun⟩

/-- A server in a heap with nothing else, whose handler answers with the path; the
third request for memory is refused. -/
theorem server_serves_plain_echo :
    let heap : Heap :=
      { world := { requests := 3, lastError := .ok }, live := {0, 1, 2}, fresh := by decide }
    let handler : HandlerProgram :=
      .requestPath fun path => .setHeader (some (literalString "X-Path")) path fun _ => .done
    let arrivals : List Arrival :=
      [⟨none, bytewise⟩, ⟨some (.connected (literal "GET / HTTP/1.1" ++ crlf ++ crlf)), bytewise⟩]
    Returns (Heap.tenHttpServe ⟨1, 0, 2⟩ handler arrivals) (fun request => request != 5) heap
      (fun served after => after.blocks = heap.blocks ∧
        ∃ world, tenHttpServe handler.handler arrivals (fun request => request != 5) heap.world =
          some (served, world)) :=
  server_serves_plain _ _ (by decide)

end Runs

end Dotten
