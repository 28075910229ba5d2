/-
Module: Dotten.Memory.OwnedHttpSending
Layer: Memory
Purpose: Sending a message of http.c with its blocks.  The buffer that the
  message is gathered in is destroyed, and everything else is only read.
Imports: Dotten.Memory.OwnedHttpMessages
Main exports: OwnedSocket, Heap.tenSocketSend, Heap.tenHttpSendAll,
  Heap.tenHttpSendMessage, Heap.tenHttpSendRequest, Heap.tenHttpSendResponse,
  Heap.owns_tenHttpSendRequest, Heap.owns_tenHttpSendResponse
-/
import Dotten.Memory.OwnedHttpMessages

namespace Dotten

open Dotten.Library

/-- A `ten_socket_t *`: the block of the struct, and the connection. -/
structure OwnedSocket where
  self : Nat
  socket : TenSocket

def OwnedSocket.blocks (sock : OwnedSocket) : Multiset Nat := {sock.self}

namespace Heap

section Functions

variable (transport : Transport)

/-- `ten_socket_send` of the first `size` bytes behind a pointer. -/
def tenSocketSend (sock : OwnedSocket) (source : Option Nat) (data : Bytes) (size : Nat) :
    Op (Int × OwnedSocket) := do
  access sock.self
  readBlock source size
  let after := { sock.socket with sendCalls := sock.socket.sendCalls + 1 }
  match transport.sends sock.socket.sendCalls with
  | none =>
      tenSetError .network
      return (-1, { sock with socket := after })
  | some asked =>
      let n := min (max asked 1) size
      tenSetError .ok
      return (n,
        { sock with socket := { after with outgoing := sock.socket.outgoing ++ data.take n } })

/-- The loop of `ten__http_send_all`. -/
def tenHttpSendAllLoop (source : Option Nat) (data : Bytes) (size : Nat) :
    Nat → OwnedSocket → Nat → Op (TenErrorCode × OwnedSocket)
  | 0, _, _ => stuck
  | steps + 1, sock, sent => do
      if sent < size then
        let (n, sock) ← tenSocketSend transport sock source (data.drop sent) (size - sent)
        if n ≤ 0 then
          return (.network, sock)
        else
          tenHttpSendAllLoop source data size steps sock (sent + n.toNat)
      else
        return (.ok, sock)

/-- `ten__http_send_all`. -/
def tenHttpSendAll (sock : OwnedSocket) (source : Option Nat) (data : Bytes) (size : Nat) :
    Op (TenErrorCode × OwnedSocket) :=
  tenHttpSendAllLoop transport source data size (size + 1) sock 0

/-- A write whose return code is not looked at, of a string in the block `source`
or outside the heap. -/
def tenHttpPut (source : Option Nat) (out : OwnedBuffer) (text : Bytes) : Op OwnedBuffer := do
  source.forM access
  let (_, out) ← tenBufferWrite out (some text) text.length
  return out

/-- `ten__http_write_headers`. -/
def tenHttpWriteHeaders (block : Option Nat) (out : OwnedBuffer) :
    List OwnedHeader → Op OwnedBuffer
  | [] => pure out
  | pair :: rest => do
      readBlock block 1
      let out ← tenHttpPut (some pair.name.block) out pair.name.text.bytes
      let out ← tenHttpPut none out (literal ": ")
      let out ← tenHttpPut (some pair.value.block) out pair.value.text.bytes
      let out ← tenHttpPut none out crlf
      tenHttpWriteHeaders block out rest

/-- The size of a body, 0 when there is none. -/
def tenHttpBodySize : Option OwnedBuffer → Op Nat
  | some body => tenBufferSize body
  | none => pure 0

/-- The write of a body that is not empty. -/
def tenHttpPutBody (out : OwnedBuffer) (body : Option OwnedBuffer) (bodySize : Nat) :
    Op OwnedBuffer :=
  match body with
  | none => pure out
  | some body => do
      if bodySize > 0 then
        let (pointer, data) ← tenBufferData body
        readBlock pointer bodySize
        let (_, out) ← tenBufferWrite out (some data) bodySize
        return out
      else
        return out

/-- The end of `ten__http_send_request` and `ten__http_send_response`. -/
def tenHttpSendMessage (sock : OwnedSocket) (out : OwnedBuffer) (headers : OwnedHeaders)
    (body : Option OwnedBuffer) : Op (TenErrorCode × OwnedSocket) := do
  let out ← tenHttpWriteHeaders headers.block out headers.pairs
  let bodySize ← tenHttpBodySize body
  let line := snprintf tenHttpLineBuf
    (literal "Content-Length: " ++ formatUnsigned bodySize ++ crlf ++
      literal "Connection: close" ++ crlf ++ crlf)
  let out ← tenHttpPut none out line
  let out ← tenHttpPutBody out body bodySize
  let (pointer, data) ← tenBufferData out
  let size ← tenBufferSize out
  let reply ← tenHttpSendAll transport sock pointer data size
  tenBufferDestroy (some out)
  return reply

/-- `ten__http_send_request`. -/
def tenHttpSendRequest (sock : OwnedSocket) (request : OwnedRequest) (host : CString) :
    Op (TenErrorCode × OwnedSocket) := do
  let some out ← tenBufferCreate
    | return (.outOfMemory, sock)
  access request.self
  let some path := request.path
    | stuck
  access path.block
  let line := snprintf tenHttpLineBuf
    (tenHttpMethodName request.method ++ literal " " ++ path.text.bytes ++
      literal " HTTP/1.1" ++ crlf)
  let out ← tenHttpPut none out line
  let line := snprintf tenHttpLineBuf (literal "Host: " ++ host.bytes ++ crlf)
  let out ← tenHttpPut none out line
  tenHttpSendMessage transport sock out request.headers request.body

/-- `ten__http_send_response`. -/
def tenHttpSendResponse (sock : OwnedSocket) (response : OwnedResponse) :
    Op (TenErrorCode × OwnedSocket) := do
  let some out ← tenBufferCreate
    | return (.outOfMemory, sock)
  access response.self
  let line := snprintf tenHttpLineBuf
    (literal "HTTP/1.1 " ++ formatSigned response.status ++ literal " " ++
      tenHttpStatusText response.status ++ crlf)
  let out ← tenHttpPut none out line
  tenHttpSendMessage transport sock out response.headers response.body

end Functions

section Ownership

variable {transport : Transport} {grants : Schedule} {given : Multiset Nat}

/-- A socket is the same struct after a call. -/
abbrev SameStruct (sock after : OwnedSocket) : Prop := after.self = sock.self

theorem owns_tenSocketSend {sock : OwnedSocket} {source : Option Nat} (data : Bytes) {size : Nat}
    (sockHeld : sock.self ∈ given) (placed : source = none → size = 0)
    (held : ofPointer source ≤ given) :
    Owns grants given (tenSocketSend transport sock source data size) (fun _ => given)
      fun reply => SameStruct sock reply.2 := by
  refine Transfers.bind (owns_access sockHeld) ?_
  rintro ⟨⟩ -
  refine Transfers.bind (owns_readBlock placed held) ?_
  rintro ⟨⟩ -
  cases transport.sends sock.socket.sendCalls with
  | none =>
      refine Transfers.bind (owns_tenSetError _) ?_
      rintro ⟨⟩ -
      exact Transfers.pure rfl rfl
  | some asked =>
      refine Transfers.bind (owns_tenSetError _) ?_
      rintro ⟨⟩ -
      exact Transfers.pure rfl rfl

/-- Every call that does not end the loop accepts a byte. -/
theorem owns_tenHttpSendAllLoop {source : Option Nat} (data : Bytes) {size : Nat}
    (placed : source = none → size = 0) (held : ofPointer source ≤ given) (steps : Nat) :
    ∀ {sock : OwnedSocket} {sent : Nat}, sock.self ∈ given → size - sent < steps →
      Owns grants given (tenHttpSendAllLoop transport source data size steps sock sent)
        (fun _ => given) fun reply => SameStruct sock reply.2 := by
  induction steps with
  | zero =>
      intro sock sent sockHeld enough
      omega
  | succ steps inductionHypothesis =>
      intro sock sent sockHeld enough
      refine Transfers.ite (fun more => ?_) fun _ => Transfers.pure rfl rfl
      refine Transfers.bind (owns_tenSocketSend _ sockHeld (fun none => ?_) held) ?_
      · rw [placed none, Nat.zero_sub]
      rintro ⟨n, after⟩ (same : after.self = sock.self)
      refine Transfers.ite (fun _ => Transfers.pure rfl same) fun positive => ?_
      refine (inductionHypothesis (same ▸ sockHeld) (by omega)).conseq rfl (fun _ _ => rfl) ?_
      rintro ⟨code, last⟩ (lastSame : last.self = after.self)
      exact lastSame.trans same

/-- A write to the output reads its source, and may move the output. -/
theorem owns_tenHttpPut {source : Option Nat} (held : ofPointer source ≤ given) (out : OwnedBuffer)
    (text : Bytes) :
    Owns grants (out.blocks + given) (tenHttpPut source out text) (fun out => out.blocks + given)
      fun _ => True := by
  refine Transfers.bind (owns_forM_access (held.trans (Multiset.le_add_left _ _))) ?_
  rintro ⟨⟩ -
  refine Transfers.call given (owns_tenBufferWrite out _ _) rfl ?_
  rintro ⟨code, out⟩ -
  exact Transfers.pure rfl trivial

theorem owns_tenHttpWriteHeaders {block : Option Nat} {pairs : List OwnedHeader}
    (placed : block = none → pairs = []) (held : ofPointer block ≤ given)
    (pairsHeld : ∀ pair ∈ pairs, pair.blocks ≤ given) :
    ∀ out, Owns grants (out.blocks + given) (tenHttpWriteHeaders block out pairs)
      (fun out => out.blocks + given) fun _ => True := by
  induction pairs with
  | nil => exact fun out => Transfers.pure rfl trivial
  | cons pair rest inductionHypothesis =>
      intro out
      have pairHeld := pairsHeld pair List.mem_cons_self
      have nameHeld : ofPointer (some pair.name.block) ≤ given :=
        (Multiset.le_add_right _ _).trans pairHeld
      have valueHeld : ofPointer (some pair.value.block) ≤ given :=
        (Multiset.le_add_left _ _).trans pairHeld
      refine Transfers.bind (owns_readBlock (fun none => by cases placed none)
        (held.trans (Multiset.le_add_left _ _))) ?_
      rintro ⟨⟩ -
      refine Transfers.bind (owns_tenHttpPut nameHeld out _) ?_
      rintro out -
      refine Transfers.bind (owns_tenHttpPut (Multiset.zero_le _) out _) ?_
      rintro out -
      refine Transfers.bind (owns_tenHttpPut valueHeld out _) ?_
      rintro out -
      refine Transfers.bind (owns_tenHttpPut (Multiset.zero_le _) out _) ?_
      rintro out -
      exact inductionHypothesis (fun none => by cases placed none)
        (fun other member => pairsHeld other (List.mem_cons_of_mem _ member)) out

theorem owns_tenHttpBodySize {body : Option OwnedBuffer}
    (held : ownsOption OwnedBuffer.blocks body ≤ given) :
    Owns grants given (tenHttpBodySize body) (fun _ => given)
      fun size => ∀ buffer, body = some buffer → size = buffer.buffer.size := by
  cases body with
  | none => exact Transfers.pure rfl fun buffer there => by cases there
  | some body =>
      refine (owns_tenBufferSize held).conseq rfl (fun _ _ => rfl) ?_
      rintro size rfl buffer ⟨⟩
      rfl

theorem owns_tenHttpPutBody {body : Option OwnedBuffer} {bodySize : Nat}
    (held : ownsOption OwnedBuffer.blocks body ≤ given)
    (sized : ∀ buffer, body = some buffer → bodySize = buffer.buffer.size) (out : OwnedBuffer) :
    Owns grants (out.blocks + given) (tenHttpPutBody out body bodySize)
      (fun out => out.blocks + given) fun _ => True := by
  cases body with
  | none => exact Transfers.pure rfl trivial
  | some body =>
      have bodyHeld : body.blocks ≤ out.blocks + given := held.trans (Multiset.le_add_left _ _)
      refine Transfers.ite (fun _ => ?_) fun _ => Transfers.pure rfl trivial
      refine Transfers.bind (owns_tenBufferData bodyHeld) ?_
      rintro ⟨pointer, data⟩ ⟨⟩
      refine Transfers.bind (owns_readBlock (fun none => ?_) (body.block_le.trans bodyHeld)) ?_
      · rw [sized body rfl, (body.placed none).2]
      rintro ⟨⟩ -
      refine Transfers.call given (owns_tenBufferWrite out _ _) rfl ?_
      rintro ⟨code, out⟩ -
      exact Transfers.pure rfl trivial

/-- Sending a message gives up the output and nothing else. -/
theorem owns_tenHttpSendMessage {sock : OwnedSocket} {headers : OwnedHeaders}
    {body : Option OwnedBuffer} (sockHeld : sock.self ∈ given)
    (held : contentBlocks headers body ≤ given) (out : OwnedBuffer) :
    Owns grants (out.blocks + given) (tenHttpSendMessage transport sock out headers body)
      (fun _ => given) fun reply => SameStruct sock reply.2 := by
  have headersHeld : headers.blocks ≤ given := (Multiset.le_add_right _ _).trans held
  have bodyHeld : ownsOption OwnedBuffer.blocks body ≤ given :=
    (Multiset.le_add_left _ _).trans held
  refine Transfers.bind (owns_tenHttpWriteHeaders (fun none => (headers.placed none).1)
    (headers.block_le.trans headersHeld)
    (fun pair member => (OwnedHeaders.pair_le member).trans headersHeld) out) ?_
  rintro out -
  refine Transfers.bind (owns_tenHttpBodySize (bodyHeld.trans (Multiset.le_add_left _ _))) ?_
  rintro bodySize sized
  refine Transfers.bind (owns_tenHttpPut (Multiset.zero_le _) out _) ?_
  rintro out -
  refine Transfers.bind (owns_tenHttpPutBody bodyHeld sized out) ?_
  rintro out -
  have outHeld : out.blocks ≤ out.blocks + given := Multiset.le_add_right _ _
  refine Transfers.bind (owns_tenBufferData outHeld) ?_
  rintro ⟨pointer, data⟩ ⟨⟩
  refine Transfers.bind (owns_tenBufferSize outHeld) ?_
  rintro size rfl
  refine Transfers.bind (owns_tenHttpSendAllLoop _ (fun none => (out.placed none).2)
    (out.block_le.trans outHeld) _ (Multiset.mem_add.mpr (.inr sockHeld)) (by omega)) ?_
  rintro reply same
  refine Transfers.call given (owns_tenBufferDestroy (some out)) rfl ?_
  rintro ⟨⟩ -
  exact Transfers.pure (zero_add _) same

theorem owns_tenHttpSendResponse {sock : OwnedSocket} {response : OwnedResponse}
    (sockHeld : sock.self ∈ given) (held : response.blocks ≤ given) :
    Owns grants given (tenHttpSendResponse transport sock response) (fun _ => given)
      fun reply => SameStruct sock reply.2 := by
  refine Transfers.call given owns_tenBufferCreate (zero_add _).symm ?_
  rintro (_ | out) -
  · exact Transfers.pure (zero_add _) rfl
  refine Transfers.bind (owns_access (Multiset.mem_add.mpr
    (.inr (Multiset.mem_of_le held response.self_mem)))) ?_
  rintro ⟨⟩ -
  refine Transfers.bind (owns_tenHttpPut (Multiset.zero_le _) out _) ?_
  rintro out -
  exact owns_tenHttpSendMessage sockHeld ((Multiset.le_add_right _ _).trans held) out

/-- A request has a path, since none is created without one. -/
theorem owns_tenHttpSendRequest {sock : OwnedSocket} {request : OwnedRequest}
    (located : request.path ≠ none) (sockHeld : sock.self ∈ given)
    (held : request.blocks ≤ given) (host : CString) :
    Owns grants given (tenHttpSendRequest transport sock request host) (fun _ => given)
      fun reply => SameStruct sock reply.2 := by
  refine Transfers.call given owns_tenBufferCreate (zero_add _).symm ?_
  rintro (_ | out) -
  · exact Transfers.pure (zero_add _) rfl
  refine Transfers.bind (owns_access (Multiset.mem_add.mpr
    (.inr (Multiset.mem_of_le held request.self_mem)))) ?_
  rintro ⟨⟩ -
  cases there : request.path with
  | none => exact absurd there located
  | some path =>
      have pathHeld : path.block ∈ request.blocks := by
        simp [OwnedRequest.blocks, there, OwnedText.blocks]
      refine Transfers.bind (owns_access (Multiset.mem_add.mpr
        (.inr (Multiset.mem_of_le held pathHeld)))) ?_
      rintro ⟨⟩ -
      refine Transfers.bind (owns_tenHttpPut (Multiset.zero_le _) out _) ?_
      rintro out -
      refine Transfers.bind (owns_tenHttpPut (Multiset.zero_le _) out _) ?_
      rintro out -
      exact owns_tenHttpSendMessage sockHeld ((Multiset.le_add_right _ _).trans held) out

end Ownership

section Forgetting

variable {transport : Transport}

theorem keeps_tenSocketSend (sock : OwnedSocket) (source : Option Nat) (data : Bytes)
    (size : Nat) :
    Keeps (Prod.map id OwnedSocket.socket) (tenSocketSend transport sock source data size)
      (Dotten.tenSocketSend transport sock.socket data size) := by
  refine Simulates.skip (unseen_access _) fun _ => Simulates.skip (unseen_readBlock _ _) fun _ => ?_
  unfold Dotten.tenSocketSend
  cases transport.sends sock.socket.sendCalls with
  | none => exact Erases.bind (keeps_tenSetError _) fun _ => Simulates.pure rfl
  | some asked => exact Erases.bind (keeps_tenSetError _) fun _ => Simulates.pure rfl

theorem keeps_tenHttpSendAllLoop (source : Option Nat) (data : Bytes) (size steps : Nat) :
    ∀ (sock : OwnedSocket) (sent : Nat),
      Keeps (Prod.map id OwnedSocket.socket)
        (tenHttpSendAllLoop transport source data size steps sock sent)
        (Dotten.tenHttpSendAllLoop transport data size steps sock.socket sent) := by
  induction steps with
  | zero => exact fun sock sent => keeps_stuck _ _
  | succ steps inductionHypothesis =>
      intro sock sent
      refine Simulates.ite (fun _ => ?_) fun _ => Simulates.pure rfl
      refine Erases.bind (keeps_tenSocketSend sock _ _ _) ?_
      rintro ⟨n, after⟩
      exact Simulates.ite (fun _ => Simulates.pure rfl) fun _ => inductionHypothesis after _

theorem keeps_tenHttpPut (source : Option Nat) (out : OwnedBuffer) (text : Bytes) :
    Keeps OwnedBuffer.buffer (tenHttpPut source out text) (Dotten.tenHttpPut out.buffer text) :=
  Simulates.skip (unseen_forM_access _) fun _ =>
    Erases.bind (keeps_tenBufferWrite out _ _) fun _ => Simulates.pure rfl

theorem keeps_tenHttpWriteHeaders (block : Option Nat) (pairs : List OwnedHeader) :
    ∀ out : OwnedBuffer, Keeps OwnedBuffer.buffer (tenHttpWriteHeaders block out pairs)
      (Dotten.tenHttpWriteHeaders out.buffer (pairs.map OwnedHeader.forget)) := by
  induction pairs with
  | nil => exact fun out => Simulates.pure rfl
  | cons pair rest inductionHypothesis =>
      intro out
      refine Simulates.skip (unseen_readBlock _ _) fun _ =>
        Erases.bind (keeps_tenHttpPut _ out _) fun out => ?_
      refine Erases.bind (keeps_tenHttpPut _ out _) fun out =>
        Erases.bind (keeps_tenHttpPut _ out _) fun out => ?_
      exact Erases.bind (keeps_tenHttpPut _ out _) fun out => inductionHypothesis out

theorem keeps_tenHttpBodySize (body : Option OwnedBuffer) :
    Keeps id (tenHttpBodySize body)
      (Dotten.tenHttpBodySize (body.map OwnedBuffer.buffer)) := by
  cases body with
  | none => exact Simulates.pure rfl
  | some body => exact keeps_tenBufferSize body

theorem keeps_tenHttpPutBody (out : OwnedBuffer) (body : Option OwnedBuffer) (bodySize : Nat) :
    Keeps OwnedBuffer.buffer (tenHttpPutBody out body bodySize)
      (Dotten.tenHttpPutBody out.buffer (body.map OwnedBuffer.buffer) bodySize) := by
  cases body with
  | none => exact Simulates.pure rfl
  | some body =>
      refine Simulates.ite (fun _ => ?_) fun _ => Simulates.pure rfl
      refine Erases.bind (keeps_tenBufferData body) fun data =>
        Simulates.skip (unseen_readBlock _ _) fun _ => ?_
      exact Erases.bind (keeps_tenBufferWrite out _ _) fun _ => Simulates.pure rfl

theorem keeps_tenHttpSendMessage (sock : OwnedSocket) (out : OwnedBuffer) (headers : OwnedHeaders)
    (body : Option OwnedBuffer) :
    Keeps (Prod.map id OwnedSocket.socket) (tenHttpSendMessage transport sock out headers body)
      (Dotten.tenHttpSendMessage transport sock.socket out.buffer headers.forget
        (body.map OwnedBuffer.buffer)) := by
  refine Erases.bind (keeps_tenHttpWriteHeaders _ _ out) fun out =>
    Erases.bind (keeps_tenHttpBodySize body) fun bodySize => ?_
  refine Erases.bind (keeps_tenHttpPut _ out _) fun out =>
    Erases.bind (keeps_tenHttpPutBody out body bodySize) fun out => ?_
  refine Erases.bind (keeps_tenBufferData out) fun data =>
    Erases.bind (keeps_tenBufferSize out) fun size => ?_
  exact Simulates.cleanup (keeps_tenHttpSendAllLoop _ _ _ _ sock 0) fun _ =>
    unseen_tenBufferDestroy _

theorem keeps_tenHttpSendResponse (sock : OwnedSocket) (response : OwnedResponse) :
    Keeps (Prod.map id OwnedSocket.socket) (tenHttpSendResponse transport sock response)
      (Dotten.tenHttpSendResponse transport sock.socket response.forget) := by
  refine Erases.bind keeps_tenBufferCreate ?_
  rintro (_ | out)
  · exact Simulates.pure rfl
  refine Simulates.skip (unseen_access _) fun _ => Erases.bind (keeps_tenHttpPut _ out _) ?_
  exact fun out => keeps_tenHttpSendMessage sock out _ _

theorem keeps_tenHttpSendRequest (sock : OwnedSocket) (request : OwnedRequest) (host : CString) :
    Keeps (Prod.map id OwnedSocket.socket) (tenHttpSendRequest transport sock request host)
      (Dotten.tenHttpSendRequest transport sock.socket request.forget host) := by
  refine Erases.bind keeps_tenBufferCreate ?_
  rintro (_ | out)
  · exact Simulates.pure rfl
  obtain ⟨self, method, path, headers, body⟩ := request
  refine Simulates.skip (unseen_access _) fun _ => ?_
  cases path with
  | none => exact keeps_stuck _ _
  | some path =>
      refine Simulates.skip (unseen_access _) fun _ => ?_
      refine Erases.bind (keeps_tenHttpPut _ out _) fun out =>
        Erases.bind (keeps_tenHttpPut _ out _) fun out => ?_
      exact keeps_tenHttpSendMessage sock out _ _

end Forgetting

end Heap

end Dotten
