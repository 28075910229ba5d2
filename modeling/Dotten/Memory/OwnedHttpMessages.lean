/-
Module: Dotten.Memory.OwnedHttpMessages
Layer: Memory
Purpose: The requests and responses of http.c with their blocks, and what a
  handler can do with them.
Imports: Dotten.Memory.OwnedHttpHeaders
Main exports: OwnedRequest, OwnedResponse, Heap.tenHttpRequestCreate,
  Heap.tenHttpRequestDestroy, Heap.tenHttpRequestSetHeader,
  Heap.tenHttpRequestSetBody, Heap.tenHttpResponseCreate,
  Heap.tenHttpResponseDestroy, Heap.tenHttpResponseSetHeader,
  Heap.tenHttpResponseSetBody, Heap.Located
-/
import Dotten.Memory.OwnedHttpHeaders

namespace Dotten

open Dotten.Library

/-- A `ten_http_request_t *`: the block of the struct, and its fields. -/
structure OwnedRequest where
  self : Nat
  method : TenHttpMethod
  path : Option OwnedText
  headers : OwnedHeaders
  body : Option OwnedBuffer

/-- A `ten_http_response_t *`. -/
structure OwnedResponse where
  self : Nat
  status : Int
  headers : OwnedHeaders
  body : Option OwnedBuffer

/-- The blocks of the headers and the body of a message. -/
def contentBlocks (headers : OwnedHeaders) (body : Option OwnedBuffer) : Multiset Nat :=
  headers.blocks + ownsOption OwnedBuffer.blocks body

def OwnedRequest.blocks (request : OwnedRequest) : Multiset Nat :=
  contentBlocks request.headers request.body +
    ({request.self} + ownsOption OwnedText.blocks request.path)

def OwnedResponse.blocks (response : OwnedResponse) : Multiset Nat :=
  contentBlocks response.headers response.body + {response.self}

/-- A request without its blocks. -/
def OwnedRequest.forget (request : OwnedRequest) : TenHttpRequest where
  method := request.method
  path := request.path.map OwnedText.text
  headers := request.headers.forget
  body := request.body.map OwnedBuffer.buffer

/-- A response without its blocks. -/
def OwnedResponse.forget (response : OwnedResponse) : TenHttpResponse where
  status := response.status
  headers := response.headers.forget
  body := response.body.map OwnedBuffer.buffer

@[simp] theorem OwnedRequest.self_mem (request : OwnedRequest) : request.self ∈ request.blocks := by
  simp [OwnedRequest.blocks]

@[simp] theorem OwnedResponse.self_mem (response : OwnedResponse) :
    response.self ∈ response.blocks := by
  simp [OwnedResponse.blocks]

namespace Heap

/-- `ten_http_request_create`.  The path of the caller need not lie in the heap. -/
def tenHttpRequestCreate (method : TenHttpMethod) (path : Option CString) :
    Op (Option OwnedRequest) :=
  match path with
  | none => do
      tenSetError .nullArgument
      return none
  | some path => do
      let some self ← tenMalloc
        | return none
      let some pathCopy ← tenHttpCopy none path
        | do
          tenFree (some self)
          return none
      tenSetError .ok
      return some { self, method, path := some pathCopy, headers := .none, body := none }

/-- `ten_http_request_destroy`. -/
def tenHttpRequestDestroy (request : Option OwnedRequest) : Op Unit :=
  match request with
  | none => return ()
  | some request => do
      access request.self
      tenFree (request.path.map OwnedText.block)
      tenHttpHeadersFree request.headers
      tenBufferDestroy request.body
      tenFree (some request.self)

/-- `ten__http_response_create`. -/
def tenHttpResponseCreate : Op (Option OwnedResponse) := do
  let some self ← tenMalloc
    | return none
  return some { self, status := 200, headers := .none, body := none }

/-- `ten_http_response_destroy`. -/
def tenHttpResponseDestroy (response : Option OwnedResponse) : Op Unit :=
  match response with
  | none => return ()
  | some response => do
      access response.self
      tenHttpHeadersFree response.headers
      tenBufferDestroy response.body
      tenFree (some response.self)

/-- `ten_http_response_set_status` of a response. -/
def tenHttpResponseSetStatus (response : OwnedResponse) (statusCode : Int) :
    Op (TenErrorCode × OwnedResponse) := do
  access response.self
  tenSetError .ok
  return (.ok, { response with status := statusCode })

/-- What `ten_http_request_set_header` and `ten_http_response_set_header` do to
the headers of the message in the block `owner`. -/
def tenHttpSetHeader (owner : Nat) (headers : OwnedHeaders) (name value : Option CString) :
    Op (TenErrorCode × OwnedHeaders) :=
  match name, value with
  | some name, some value => tenHttpHeadersSet owner none headers name value
  | _, _ => do
      tenSetError .nullArgument
      return (.nullArgument, headers)

/-- `ten_http_request_set_header` of a request. -/
def tenHttpRequestSetHeader (request : OwnedRequest) (name value : Option CString) :
    Op (TenErrorCode × OwnedRequest) := do
  let (code, headers) ← tenHttpSetHeader request.self request.headers name value
  return (code, { request with headers })

/-- `ten_http_response_set_header` of a response. -/
def tenHttpResponseSetHeader (response : OwnedResponse) (name value : Option CString) :
    Op (TenErrorCode × OwnedResponse) := do
  let (code, headers) ← tenHttpSetHeader response.self response.headers name value
  return (code, { response with headers })

/-- `ten_http_request_header` of a request. -/
def tenHttpRequestHeader (request : OwnedRequest) (name : Option CString) :
    Op (Option CString) :=
  match name with
  | some name => do
      tenSetError .ok
      tenHttpHeadersGet request.self request.headers name
  | none => do
      tenSetError .nullArgument
      return none

/-- The buffer that a new body is written to: a new one, or the old one
emptied. -/
def tenHttpFreshBody : Option OwnedBuffer → Op (Option OwnedBuffer)
  | none => tenBufferCreate
  | some body => do
      let body ← tenBufferClear body
      return some body

/-- What `ten_http_request_set_body` and `ten_http_response_set_body` do to the
body of the message in the block `owner`. -/
def tenHttpSetBody (owner : Nat) (body : Option OwnedBuffer) (data : Option Bytes) (size : Nat) :
    Op (TenErrorCode × Option OwnedBuffer) := do
  if data = none ∧ size > 0 then
    tenSetError .nullArgument
    return (.nullArgument, body)
  else
    access owner
    let some fresh ← tenHttpFreshBody body
      | return (.outOfMemory, body)
    let (code, written) ← tenBufferWrite fresh data size
    return (code, some written)

/-- `ten_http_request_set_body` of a request. -/
def tenHttpRequestSetBody (request : OwnedRequest) (data : Option Bytes) (size : Nat) :
    Op (TenErrorCode × OwnedRequest) := do
  let (code, body) ← tenHttpSetBody request.self request.body data size
  return (code, { request with body })

/-- `ten_http_response_set_body` of a response. -/
def tenHttpResponseSetBody (response : OwnedResponse) (data : Option Bytes) (size : Nat) :
    Op (TenErrorCode × OwnedResponse) := do
  let (code, body) ← tenHttpSetBody response.self response.body data size
  return (code, { response with body })

/-- What `ten_http_request_body` and `ten_http_response_body` read of the body of
the message in the block `owner`. -/
def tenHttpBody (owner : Nat) (body : Option OwnedBuffer) : Op (Option Bytes × Nat) := do
  access owner
  tenSetError .ok
  match body with
  | none => return (none, 0)
  | some body =>
      let size ← tenBufferSize body
      let (pointer, data) ← tenBufferData body
      readBlock pointer size
      return (if body.buffer.capacity = 0 then none else some data, size)

/-- `ten_http_request_body` of a request. -/
def tenHttpRequestBody (request : OwnedRequest) : Op (Option Bytes × Nat) :=
  tenHttpBody request.self request.body

section Ownership

variable {grants : Schedule} {given : Multiset Nat}

/-- The end of destroying a message: the headers, the body and the struct. -/
theorem owns_destroyContent (headers : OwnedHeaders) (body : Option OwnedBuffer) (self : Nat) :
    Owns grants (contentBlocks headers body + {self})
      (do
        tenHttpHeadersFree headers
        tenBufferDestroy body
        tenFree (some self)) (fun _ => 0) fun _ => True := by
  refine Transfers.call (ownsOption OwnedBuffer.blocks body + {self})
    (owns_tenHttpHeadersFree headers) (add_assoc _ _ _) ?_
  rintro ⟨⟩ -
  rw [zero_add]
  refine Transfers.call {self} (owns_tenBufferDestroy body) rfl ?_
  rintro ⟨⟩ -
  rw [zero_add]
  exact owns_tenFree (some self)

theorem owns_tenHttpRequestDestroy (request : Option OwnedRequest) :
    Owns grants (ownsOption OwnedRequest.blocks request) (tenHttpRequestDestroy request)
      (fun _ => 0) fun _ => True := by
  cases request with
  | none => exact Transfers.pure rfl trivial
  | some request =>
      refine Transfers.bind (owns_access request.self_mem) ?_
      rintro ⟨⟩ -
      refine Transfers.call (contentBlocks request.headers request.body + {request.self})
        (owns_tenFree (request.path.map OwnedText.block)) ?_ ?_
      · have same : ofPointer (request.path.map OwnedText.block) =
            ownsOption OwnedText.blocks request.path := by
          cases request.path <;> rfl
        rw [ownsOption_some, OwnedRequest.blocks, same]
        abel
      rintro ⟨⟩ -
      rw [zero_add]
      exact owns_destroyContent _ _ _

theorem owns_tenHttpResponseDestroy (response : Option OwnedResponse) :
    Owns grants (ownsOption OwnedResponse.blocks response) (tenHttpResponseDestroy response)
      (fun _ => 0) fun _ => True := by
  cases response with
  | none => exact Transfers.pure rfl trivial
  | some response =>
      refine Transfers.bind (owns_access response.self_mem) ?_
      rintro ⟨⟩ -
      exact owns_destroyContent _ _ _

/-- A request that is returned has a path. -/
def Located (reply : Option OwnedRequest) : Prop :=
  ∀ request, reply = some request → request.path ≠ none

theorem located_none : Located none := by
  rintro request ⟨⟩

/-- A request that there was no memory for leaves no block behind. -/
theorem owns_tenHttpRequestCreate (method : TenHttpMethod) (path : Option CString) :
    Owns grants 0 (tenHttpRequestCreate method path) (ownsOption OwnedRequest.blocks)
      Located := by
  cases path with
  | none =>
      refine Transfers.bind (owns_tenSetError _) ?_
      rintro ⟨⟩ -
      exact Transfers.pure rfl located_none
  | some path =>
      refine Transfers.bind owns_tenMalloc ?_
      rintro (_ | self) -
      · exact Transfers.pure rfl located_none
      refine Transfers.bind (owns_tenHttpCopy (Multiset.zero_le _) path) ?_
      rintro (_ | pathCopy) -
      · refine Transfers.bind (owns_tenFree (some self)) ?_
        rintro ⟨⟩ -
        exact Transfers.pure rfl located_none
      · refine Transfers.bind (owns_tenSetError _) ?_
        rintro ⟨⟩ -
        refine Transfers.pure (by simp [OwnedRequest.blocks, contentBlocks]) ?_
        rintro request ⟨⟩
        exact Option.some_ne_none pathCopy

/-- A response that was just created. -/
def NewResponse (reply : Option OwnedResponse) : Prop :=
  ∀ response, reply = some response →
    ∃ self, response = { self, status := 200, headers := .none, body := none }

theorem owns_tenHttpResponseCreate :
    Owns grants 0 tenHttpResponseCreate (ownsOption OwnedResponse.blocks) NewResponse := by
  refine Transfers.bind owns_tenMalloc ?_
  rintro (_ | self) -
  · refine Transfers.pure rfl ?_
    rintro response ⟨⟩
  · refine Transfers.pure (by simp [OwnedResponse.blocks, contentBlocks]) ?_
    rintro response ⟨⟩
    exact ⟨self, rfl⟩

theorem owns_tenHttpSetHeader {owner : Nat} (held : owner ∈ given) (headers : OwnedHeaders)
    (name value : Option CString) :
    Owns grants (headers.blocks + given) (tenHttpSetHeader owner headers name value)
      (fun reply => reply.2.blocks + given) fun _ => True := by
  have refused : Owns grants (headers.blocks + given)
      (do
        tenSetError .nullArgument
        return (TenErrorCode.nullArgument, headers))
      (fun reply => reply.2.blocks + given) fun _ => True := by
    refine Transfers.bind (owns_tenSetError _) ?_
    rintro ⟨⟩ -
    exact Transfers.pure rfl trivial
  cases name with
  | none => exact refused
  | some name =>
      cases value with
      | none => exact refused
      | some value => exact owns_tenHttpHeadersSet held (Multiset.zero_le _) headers name value

theorem owns_tenHttpFreshBody (body : Option OwnedBuffer) :
    Owns grants (ownsOption OwnedBuffer.blocks body) (tenHttpFreshBody body)
      (fun fresh => ownsOption OwnedBuffer.blocks fresh)
      fun fresh => fresh = none → body = none := by
  cases body with
  | none => exact owns_tenBufferCreate.conseq rfl (fun _ _ => rfl) fun _ _ _ => rfl
  | some body =>
      refine Transfers.bind (owns_tenBufferClear body) ?_
      rintro cleared -
      refine Transfers.pure rfl ?_
      rintro ⟨⟩

/-- Setting the body writes to a new buffer, or to the buffer that is there. -/
theorem owns_tenHttpSetBody {owner : Nat} (held : owner ∈ given) (body : Option OwnedBuffer)
    (data : Option Bytes) (size : Nat) :
    Owns grants (ownsOption OwnedBuffer.blocks body + given) (tenHttpSetBody owner body data size)
      (fun reply => ownsOption OwnedBuffer.blocks reply.2 + given) fun _ => True := by
  refine Transfers.ite (fun _ => ?_) fun _ => ?_
  · refine Transfers.bind (owns_tenSetError _) ?_
    rintro ⟨⟩ -
    exact Transfers.pure rfl trivial
  refine Transfers.bind (owns_access (Multiset.mem_add.mpr (.inr held))) ?_
  rintro ⟨⟩ -
  refine Transfers.call given (owns_tenHttpFreshBody body) rfl ?_
  rintro (_ | fresh) kept
  · rw [kept rfl]
    exact Transfers.pure rfl trivial
  · refine Transfers.call given (owns_tenBufferWrite fresh data size) rfl ?_
    rintro ⟨code, written⟩ -
    exact Transfers.pure rfl trivial

/-- A setter of the headers, or of the body, keeps the rest of the message. -/
theorem owns_tenHttpRequestSetHeader (request : OwnedRequest) (name value : Option CString) :
    Owns grants request.blocks (tenHttpRequestSetHeader request name value)
      (fun reply => reply.2.blocks) fun reply => reply.2.path = request.path := by
  refine Transfers.call
    (ownsOption OwnedBuffer.blocks request.body + ownsOption OwnedText.blocks request.path)
    (owns_tenHttpSetHeader (Multiset.mem_singleton_self request.self) request.headers name value)
    ?_ ?_
  · rw [OwnedRequest.blocks, contentBlocks]
    abel
  rintro ⟨code, headers⟩ -
  refine Transfers.pure ?_ rfl
  dsimp only [OwnedRequest.blocks, contentBlocks]
  abel

theorem owns_tenHttpRequestSetBody (request : OwnedRequest) (data : Option Bytes) (size : Nat) :
    Owns grants request.blocks (tenHttpRequestSetBody request data size)
      (fun reply => reply.2.blocks) fun reply => reply.2.path = request.path := by
  refine Transfers.call (request.headers.blocks + ownsOption OwnedText.blocks request.path)
    (owns_tenHttpSetBody (Multiset.mem_singleton_self request.self) request.body data size) ?_ ?_
  · rw [OwnedRequest.blocks, contentBlocks]
    abel
  rintro ⟨code, body⟩ -
  refine Transfers.pure ?_ rfl
  dsimp only [OwnedRequest.blocks, contentBlocks]
  abel

theorem owns_tenHttpResponseSetStatus (response : OwnedResponse) (statusCode : Int) :
    Owns grants response.blocks (tenHttpResponseSetStatus response statusCode)
      (fun reply => reply.2.blocks) fun _ => True := by
  refine Transfers.bind (owns_access response.self_mem) ?_
  rintro ⟨⟩ -
  refine Transfers.bind (owns_tenSetError _) ?_
  rintro ⟨⟩ -
  exact Transfers.pure rfl trivial

theorem owns_tenHttpResponseSetHeader (response : OwnedResponse) (name value : Option CString) :
    Owns grants response.blocks (tenHttpResponseSetHeader response name value)
      (fun reply => reply.2.blocks) fun _ => True := by
  refine Transfers.call (ownsOption OwnedBuffer.blocks response.body)
    (owns_tenHttpSetHeader (Multiset.mem_singleton_self response.self) response.headers name value)
    ?_ ?_
  · rw [OwnedResponse.blocks, contentBlocks]
    abel
  rintro ⟨code, headers⟩ -
  refine Transfers.pure ?_ trivial
  dsimp only [OwnedResponse.blocks, contentBlocks]
  abel

theorem owns_tenHttpResponseSetBody (response : OwnedResponse) (data : Option Bytes) (size : Nat) :
    Owns grants response.blocks (tenHttpResponseSetBody response data size)
      (fun reply => reply.2.blocks) fun _ => True := by
  refine Transfers.call response.headers.blocks
    (owns_tenHttpSetBody (Multiset.mem_singleton_self response.self) response.body data size) ?_ ?_
  · rw [OwnedResponse.blocks, contentBlocks]
    abel
  rintro ⟨code, body⟩ -
  refine Transfers.pure ?_ trivial
  dsimp only [OwnedResponse.blocks, contentBlocks]
  abel

/-- The getters leave everything in place. -/
theorem owns_tenHttpRequestHeader {request : OwnedRequest} (held : request.blocks ≤ given)
    (name : Option CString) :
    Owns grants given (tenHttpRequestHeader request name) (fun _ => given) fun _ => True := by
  cases name with
  | none =>
      refine Transfers.bind (owns_tenSetError _) ?_
      rintro ⟨⟩ -
      exact Transfers.pure rfl trivial
  | some name =>
      refine Transfers.bind (owns_tenSetError _) ?_
      rintro ⟨⟩ -
      refine owns_tenHttpHeadersGet (Multiset.mem_of_le held request.self_mem) ?_ name
      exact ((Multiset.le_add_right _ _).trans (Multiset.le_add_right _ _)).trans held

theorem owns_tenHttpBody {owner : Nat} (ownerHeld : owner ∈ given) {body : Option OwnedBuffer}
    (held : ownsOption OwnedBuffer.blocks body ≤ given) :
    Owns grants given (tenHttpBody owner body) (fun _ => given) fun _ => True := by
  refine Transfers.bind (owns_access ownerHeld) ?_
  rintro ⟨⟩ -
  refine Transfers.bind (owns_tenSetError _) ?_
  rintro ⟨⟩ -
  cases body with
  | none => exact Transfers.pure rfl trivial
  | some body =>
      refine Transfers.bind (owns_tenBufferSize held) ?_
      rintro size rfl
      refine Transfers.bind (owns_tenBufferData held) ?_
      rintro ⟨pointer, data⟩ ⟨⟩
      refine Transfers.bind (owns_readBlock (fun none => (body.placed none).2)
        (body.block_le.trans held)) ?_
      rintro ⟨⟩ -
      exact Transfers.pure rfl trivial

theorem owns_tenHttpRequestBody {request : OwnedRequest} (held : request.blocks ≤ given) :
    Owns grants given (tenHttpRequestBody request) (fun _ => given) fun _ => True :=
  owns_tenHttpBody (Multiset.mem_of_le held request.self_mem)
    (((Multiset.le_add_left _ _).trans (Multiset.le_add_right _ _)).trans held)

end Ownership

section Forgetting

theorem keeps_tenHttpRequestCreate (method : TenHttpMethod) (path : Option CString) :
    Keeps (Option.map OwnedRequest.forget) (tenHttpRequestCreate method path)
      (Dotten.tenHttpRequestCreate method path) := by
  cases path with
  | none => exact Erases.bind (keeps_tenSetError _) fun _ => Simulates.pure rfl
  | some path =>
      refine Erases.bind keeps_tenMalloc ?_
      rintro (_ | self)
      · exact Simulates.pure rfl
      refine Erases.bind (keeps_tenHttpCopy _ _) ?_
      rintro (_ | pathCopy)
      · exact Simulates.skip (unseen_tenFree _) fun _ => Simulates.pure rfl
      · exact Erases.bind (keeps_tenSetError _) fun _ => Simulates.pure rfl

theorem keeps_tenHttpResponseCreate :
    Keeps (Option.map OwnedResponse.forget) tenHttpResponseCreate
      Dotten.tenHttpResponseCreate := by
  refine Erases.bind keeps_tenMalloc ?_
  rintro (_ | self)
  · exact Simulates.pure rfl
  · exact Simulates.pure rfl

theorem unseen_destroyContent (headers : OwnedHeaders) (body : Option OwnedBuffer) (self : Nat) :
    Unseen SameRequests
      (do
        tenHttpHeadersFree headers
        tenBufferDestroy body
        tenFree (some self)) :=
  Unseen.bind (unseen_tenHttpHeadersFree _) fun _ =>
    Unseen.bind (unseen_tenBufferDestroy _) fun _ => unseen_tenFree _

theorem unseen_tenHttpRequestDestroy (request : Option OwnedRequest) :
    Unseen SameRequests (tenHttpRequestDestroy request) := by
  cases request with
  | none => exact Unseen.pure ()
  | some request =>
      exact Unseen.bind (unseen_access _) fun _ => Unseen.bind (unseen_tenFree _) fun _ =>
        unseen_destroyContent _ _ _

theorem unseen_tenHttpResponseDestroy (response : Option OwnedResponse) :
    Unseen SameRequests (tenHttpResponseDestroy response) := by
  cases response with
  | none => exact Unseen.pure ()
  | some response =>
      exact Unseen.bind (unseen_access _) fun _ => unseen_destroyContent _ _ _

theorem keeps_tenHttpSetHeader (owner : Nat) (headers : OwnedHeaders)
    (name value : Option CString) :
    Keeps (Prod.map id OwnedHeaders.forget) (tenHttpSetHeader owner headers name value)
      (Dotten.tenHttpSetHeader headers.forget name value) := by
  have refused : Keeps (Prod.map id OwnedHeaders.forget)
      (do
        tenSetError .nullArgument
        return (TenErrorCode.nullArgument, headers))
      (do
        Dotten.tenSetError .nullArgument
        return (TenErrorCode.nullArgument, headers.forget)) :=
    Erases.bind (keeps_tenSetError _) fun _ => Simulates.pure rfl
  cases name with
  | none => exact refused
  | some name =>
      cases value with
      | none => exact refused
      | some value => exact keeps_tenHttpHeadersSet owner none headers name value

theorem keeps_tenHttpFreshBody (body : Option OwnedBuffer) :
    Keeps (Option.map OwnedBuffer.buffer) (tenHttpFreshBody body)
      (Dotten.tenHttpFreshBody (body.map OwnedBuffer.buffer)) := by
  cases body with
  | none => exact keeps_tenBufferCreate
  | some body =>
      change Keeps _ _ (pure (Dotten.tenBufferClear body.buffer) >>= fun fresh => pure (some fresh))
      exact Erases.bind (keeps_tenBufferClear body) fun _ => Simulates.pure rfl

theorem keeps_tenHttpSetBody (owner : Nat) (body : Option OwnedBuffer) (data : Option Bytes)
    (size : Nat) :
    Keeps (Prod.map id (Option.map OwnedBuffer.buffer)) (tenHttpSetBody owner body data size)
      (Dotten.tenHttpSetBody (body.map OwnedBuffer.buffer) data size) := by
  refine Simulates.ite (fun _ => ?_) fun _ => ?_
  · exact Erases.bind (keeps_tenSetError _) fun _ => Simulates.pure rfl
  refine Simulates.skip (unseen_access _) fun _ => Erases.bind (keeps_tenHttpFreshBody body) ?_
  rintro (_ | fresh)
  · exact Simulates.pure rfl
  · exact Erases.bind (keeps_tenBufferWrite fresh data size) fun _ => Simulates.pure rfl

theorem keeps_tenHttpRequestSetHeader (request : OwnedRequest) (name value : Option CString) :
    Keeps (Prod.map id OwnedRequest.forget) (tenHttpRequestSetHeader request name value)
      (Dotten.tenHttpRequestSetHeader request.forget name value) :=
  Erases.bind (keeps_tenHttpSetHeader _ _ _ _) fun _ => Simulates.pure rfl

theorem keeps_tenHttpRequestSetBody (request : OwnedRequest) (data : Option Bytes) (size : Nat) :
    Keeps (Prod.map id OwnedRequest.forget) (tenHttpRequestSetBody request data size)
      (Dotten.tenHttpRequestSetBody request.forget data size) :=
  Erases.bind (keeps_tenHttpSetBody _ _ _ _) fun _ => Simulates.pure rfl

theorem keeps_tenHttpResponseSetStatus (response : OwnedResponse) (statusCode : Int) :
    Keeps (Prod.map id OwnedResponse.forget) (tenHttpResponseSetStatus response statusCode)
      (Dotten.tenHttpResponseSetStatus response.forget statusCode) :=
  Simulates.skip (unseen_access _) fun _ =>
    Erases.bind (keeps_tenSetError _) fun _ => Simulates.pure rfl

theorem keeps_tenHttpResponseSetHeader (response : OwnedResponse) (name value : Option CString) :
    Keeps (Prod.map id OwnedResponse.forget) (tenHttpResponseSetHeader response name value)
      (Dotten.tenHttpResponseSetHeader response.forget name value) :=
  Erases.bind (keeps_tenHttpSetHeader _ _ _ _) fun _ => Simulates.pure rfl

theorem keeps_tenHttpResponseSetBody (response : OwnedResponse) (data : Option Bytes)
    (size : Nat) :
    Keeps (Prod.map id OwnedResponse.forget) (tenHttpResponseSetBody response data size)
      (Dotten.tenHttpResponseSetBody response.forget data size) :=
  Erases.bind (keeps_tenHttpSetBody _ _ _ _) fun _ => Simulates.pure rfl

theorem keeps_tenHttpRequestHeader (request : OwnedRequest) (name : Option CString) :
    Keeps id (tenHttpRequestHeader request name)
      (Dotten.tenHttpRequestHeader (some request.forget) name) := by
  cases name with
  | none => exact Erases.bind (keeps_tenSetError _) fun _ => Simulates.pure rfl
  | some name =>
      exact Erases.bind (keeps_tenSetError _) fun _ =>
        (yields_tenHttpHeadersGet _ _ _).erases

theorem keeps_tenHttpBody (owner : Nat) (body : Option OwnedBuffer) :
    Keeps id (tenHttpBody owner body) (Dotten.tenHttpBody (body.map OwnedBuffer.buffer)) := by
  refine Simulates.skip (unseen_access _) fun _ => Erases.bind (keeps_tenSetError _) fun _ => ?_
  cases body with
  | none => exact Simulates.pure rfl
  | some body =>
      refine Erases.bind (keeps_tenBufferSize body) fun size =>
        Erases.bind (keeps_tenBufferData body) fun data => ?_
      exact Simulates.skip (unseen_readBlock _ _) fun _ => Simulates.pure rfl

end Forgetting

end Heap

end Dotten
