/-
Module: Dotten.Memory.HttpClient
Layer: Memory
Purpose: Programs that make requests and send them with the functions of http.c,
  as sequences of calls on the messages that they hold, in any order and with any
  answers of the network and of the allocator.
Imports: Dotten.Memory.OwnedHttpConnections
Main exports: HttpApi, HttpClient, HttpCall, HttpClient.step, HttpClient.run,
  HttpClient.destroyAll, heapHttpApi, plainHttpApi, http_run_blocks
-/
import Dotten.Memory.OwnedHttpConnections

namespace Dotten

open Dotten.Library

/-- The functions of http.h that a client uses, over a representation `Q` of
requests and `P` of responses. -/
structure HttpApi (σ Q P : Type) where
  requestCreate : TenHttpMethod → Option CString → Prog Schedule σ (Option Q)
  requestSetHeader : Q → Option CString → Option CString → Prog Schedule σ (TenErrorCode × Q)
  requestSetBody : Q → Option Bytes → Nat → Prog Schedule σ (TenErrorCode × Q)
  clientSend : Transport → Option TenSocket → Option CString → Option Q →
    Prog Schedule σ (Option P)
  requestDestroy : Option Q → Prog Schedule σ Unit
  responseDestroy : Option P → Prog Schedule σ Unit

/-- A call on messages that are held.  The number of a message that is not held
stands for NULL.  What is connected to, and how the connection behaves, is up to
the network at every send. -/
inductive HttpCall where
  | requestCreate (method : TenHttpMethod) (path : Option CString)
  | requestSetHeader (request : Nat) (name value : Option CString)
  | requestSetBody (request : Nat) (data : Option Bytes) (size : Nat)
  | clientSend (transport : Transport) (connected : Option TenSocket) (host : Option CString)
      (request : Nat)
  | requestDestroy (request : Nat)
  | responseDestroy (response : Nat)

/-- What a program holds, and the codes that its calls have returned, the last one
first. -/
structure HttpClient (Q P : Type) where
  requests : List Q
  responses : List P
  codes : List TenErrorCode

namespace HttpClient

/-- A program that has made no call. -/
def start {Q P : Type} : HttpClient Q P := { requests := [], responses := [], codes := [] }

section Functions

variable {σ Q P : Type}

/-- A call of a setter of a request. -/
def setWith (client : HttpClient Q P) (request : Nat)
    (set : Q → Prog Schedule σ (TenErrorCode × Q)) : Prog Schedule σ (HttpClient Q P) :=
  match pick client.requests request with
  | none => return client
  | some (request, others) => do
      let (code, request) ← set request
      return { client with requests := request :: others, codes := code :: client.codes }

/-- One call. -/
def step (api : HttpApi σ Q P) (client : HttpClient Q P) (call : HttpCall) :
    Prog Schedule σ (HttpClient Q P) :=
  match call with
  | .requestCreate method path => do
      let made ← api.requestCreate method path
      return { client with requests := made.toList ++ client.requests }
  | .requestSetHeader request name value =>
      client.setWith request fun request => api.requestSetHeader request name value
  | .requestSetBody request data size =>
      client.setWith request fun request => api.requestSetBody request data size
  | .clientSend transport connected host request => do
      let response ← api.clientSend transport connected host client.requests[request]?
      return { client with responses := response.toList ++ client.responses }
  | .requestDestroy request =>
      match pick client.requests request with
      | none => do
          api.requestDestroy none
          return client
      | some (request, others) => do
          api.requestDestroy (some request)
          return { client with requests := others }
  | .responseDestroy response =>
      match pick client.responses response with
      | none => do
          api.responseDestroy none
          return client
      | some (response, others) => do
          api.responseDestroy (some response)
          return { client with responses := others }

/-- A sequence of calls. -/
def run (api : HttpApi σ Q P) :
    List HttpCall → HttpClient Q P → Prog Schedule σ (HttpClient Q P)
  | [], client => return client
  | call :: calls, client => do
      let client ← client.step api call
      run api calls client

/-- Destroying everything that is held. -/
def destroyAll (api : HttpApi σ Q P) (client : HttpClient Q P) : Prog Schedule σ PUnit := do
  client.requests.forM fun request => api.requestDestroy (some request)
  client.responses.forM fun response => api.responseDestroy (some response)

end Functions

/-- What a program owns. -/
def blocks (client : HttpClient OwnedRequest OwnedResponse) : Multiset Nat :=
  (client.requests.map OwnedRequest.blocks).sum + (client.responses.map OwnedResponse.blocks).sum

/-- Every request that is held has a path. -/
def Located (client : HttpClient OwnedRequest OwnedResponse) : Prop :=
  ∀ request ∈ client.requests, request.path ≠ none

/-- What a program holds, without blocks. -/
def forget (client : HttpClient OwnedRequest OwnedResponse) :
    HttpClient TenHttpRequest TenHttpResponse where
  requests := client.requests.map OwnedRequest.forget
  responses := client.responses.map OwnedResponse.forget
  codes := client.codes

end HttpClient

/-- The functions of http.c with their blocks. -/
def heapHttpApi : HttpApi Heap OwnedRequest OwnedResponse where
  requestCreate := Heap.tenHttpRequestCreate
  requestSetHeader := Heap.tenHttpRequestSetHeader
  requestSetBody := Heap.tenHttpRequestSetBody
  clientSend := Heap.tenHttpClientSend
  requestDestroy := Heap.tenHttpRequestDestroy
  responseDestroy := Heap.tenHttpResponseDestroy

/-- The functions of http.c on messages without blocks, where nothing has to be
destroyed. -/
def plainHttpApi : HttpApi World TenHttpRequest TenHttpResponse where
  requestCreate := tenHttpRequestCreate
  requestSetHeader := tenHttpRequestSetHeader
  requestSetBody := tenHttpRequestSetBody
  clientSend := tenHttpClientExchange
  requestDestroy _ := return ()
  responseDestroy _ := return ()

section Ownership

variable {grants : Schedule}

/-- A setter of a request that is held. -/
theorem owns_setWith {client : HttpClient OwnedRequest OwnedResponse} (located : client.Located)
    (i : Nat) {set : OwnedRequest → Heap.Op (TenErrorCode × OwnedRequest)}
    (owns : ∀ request, Heap.Owns grants request.blocks (set request) (fun reply => reply.2.blocks)
      fun reply => reply.2.path = request.path) :
    Heap.Owns grants client.blocks (client.setWith i set) HttpClient.blocks
      HttpClient.Located := by
  unfold HttpClient.setWith
  cases picked : pick client.requests i with
  | none => exact Transfers.pure rfl located
  | some parts =>
      obtain ⟨request, others⟩ := parts
      have same := pick_perm picked
      have paths : ∀ message ∈ request :: others, message.path ≠ none :=
        fun message member => located message (same.mem_iff.mpr member)
      refine Transfers.call
        ((others.map OwnedRequest.blocks).sum + (client.responses.map OwnedResponse.blocks).sum)
        (owns request) ?_ ?_
      · rw [HttpClient.blocks, (same.map _).sum_eq, List.map_cons, List.sum_cons, add_assoc]
      rintro ⟨code, after⟩ kept
      refine Transfers.pure ?_ ?_
      · rw [HttpClient.blocks, List.map_cons, List.sum_cons, add_assoc]
      · refine List.forall_mem_cons.mpr
          ⟨?_, fun message member => paths message (List.mem_cons_of_mem _ member)⟩
        rw [kept]
        exact paths request List.mem_cons_self

/-- The requests that are left when one of them is taken out. -/
theorem located_of_pick {client : HttpClient OwnedRequest OwnedResponse} {i : Nat}
    {request : OwnedRequest} {others : List OwnedRequest} (located : client.Located)
    (picked : pick client.requests i = some (request, others)) :
    HttpClient.Located { client with requests := others } :=
  fun message member =>
    located message ((pick_perm picked).mem_iff.mpr (List.mem_cons_of_mem _ member))

/-- One call takes what the program owned before to what it owns after. -/
theorem owns_httpStep {client : HttpClient OwnedRequest OwnedResponse} (located : client.Located)
    (call : HttpCall) :
    Heap.Owns grants client.blocks (client.step heapHttpApi call) HttpClient.blocks
      HttpClient.Located := by
  cases call with
  | requestCreate method path =>
      refine Transfers.call client.blocks (Heap.owns_tenHttpRequestCreate method path)
        (zero_add _).symm ?_
      intro made hasPath
      refine Transfers.pure ?_ ?_
      · rw [HttpClient.blocks, HttpClient.blocks, List.map_append, List.sum_append, sum_toList,
          add_assoc]
      · intro request member
        rcases List.mem_append.mp member with new | old
        · exact hasPath request (Option.mem_toList.mp new)
        · exact located request old
  | requestSetHeader request name value =>
      exact owns_setWith located request fun request =>
        Heap.owns_tenHttpRequestSetHeader request name value
  | requestSetBody request data size =>
      exact owns_setWith located request fun request =>
        Heap.owns_tenHttpRequestSetBody request data size
  | clientSend transport connected host request =>
      have hasPath : Heap.Located client.requests[request]? := fun message found =>
        located message (List.mem_of_getElem? found)
      have held : ownsOption OwnedRequest.blocks client.requests[request]? ≤ client.blocks := by
        cases found : client.requests[request]? with
        | none => exact Multiset.zero_le _
        | some message =>
            exact (le_sum_of_mem OwnedRequest.blocks (List.mem_of_getElem? found)).trans
              (Multiset.le_add_right _ _)
      refine Transfers.bind (Heap.owns_tenHttpClientSend connected host hasPath held) ?_
      intro response _
      refine Transfers.pure ?_ located
      rw [HttpClient.blocks, HttpClient.blocks, List.map_append, List.sum_append, sum_toList]
      abel
  | requestDestroy request =>
      dsimp only [HttpClient.step]
      cases picked : pick client.requests request with
      | none =>
          refine Transfers.call client.blocks (Heap.owns_tenHttpRequestDestroy none)
            (zero_add _).symm ?_
          rintro ⟨⟩ -
          exact Transfers.pure (zero_add _) located
      | some parts =>
          obtain ⟨message, others⟩ := parts
          refine Transfers.call
            ((others.map OwnedRequest.blocks).sum +
              (client.responses.map OwnedResponse.blocks).sum)
            (Heap.owns_tenHttpRequestDestroy (some message)) ?_ ?_
          · rw [HttpClient.blocks, ((pick_perm picked).map _).sum_eq, List.map_cons, List.sum_cons,
              add_assoc, ownsOption_some]
          rintro ⟨⟩ -
          exact Transfers.pure (zero_add _) (located_of_pick located picked)
  | responseDestroy response =>
      dsimp only [HttpClient.step]
      cases picked : pick client.responses response with
      | none =>
          refine Transfers.call client.blocks (Heap.owns_tenHttpResponseDestroy none)
            (zero_add _).symm ?_
          rintro ⟨⟩ -
          exact Transfers.pure (zero_add _) located
      | some parts =>
          obtain ⟨message, others⟩ := parts
          refine Transfers.call
            ((client.requests.map OwnedRequest.blocks).sum + (others.map OwnedResponse.blocks).sum)
            (Heap.owns_tenHttpResponseDestroy (some message)) ?_ ?_
          · rw [HttpClient.blocks, ((pick_perm picked).map _).sum_eq, List.map_cons, List.sum_cons,
              ownsOption_some]
            abel
          rintro ⟨⟩ -
          exact Transfers.pure (zero_add _) located

theorem owns_httpRun (calls : List HttpCall) :
    ∀ {client : HttpClient OwnedRequest OwnedResponse}, client.Located →
      Heap.Owns grants client.blocks (HttpClient.run heapHttpApi calls client) HttpClient.blocks
        HttpClient.Located := by
  induction calls with
  | nil => exact fun located => Transfers.pure rfl located
  | cons call calls inductionHypothesis =>
      intro client located
      refine Transfers.bind (owns_httpStep located call) ?_
      exact fun client located => inductionHypothesis located

theorem owns_httpDestroyAll (client : HttpClient OwnedRequest OwnedResponse) :
    Heap.Owns grants client.blocks (client.destroyAll heapHttpApi) (fun _ => 0)
      fun _ => True := by
  refine Transfers.call (client.responses.map OwnedResponse.blocks).sum
    (Transfers.forM fun request _ => Heap.owns_tenHttpRequestDestroy (some request)) rfl ?_
  rintro ⟨⟩ -
  rw [zero_add]
  exact Transfers.forM fun response _ => Heap.owns_tenHttpResponseDestroy (some response)

end Ownership

section Forgetting

open Heap

theorem forget_pick {α β : Type} (view : α → β) (items : List α) (i : Nat) :
    pick (items.map view) i =
      (pick items i).map fun parts => (view parts.1, parts.2.map view) := by
  unfold pick
  rw [List.getElem?_map, List.eraseIdx_map]
  cases items[i]? with
  | none => rfl
  | some item => rfl

theorem keeps_setWith (client : HttpClient OwnedRequest OwnedResponse) (i : Nat)
    {set : OwnedRequest → Heap.Op (TenErrorCode × OwnedRequest)}
    {plainSet : TenHttpRequest → Ten (TenErrorCode × TenHttpRequest)}
    (keeps : ∀ request, Keeps (Prod.map id OwnedRequest.forget) (set request)
      (plainSet request.forget)) :
    Keeps HttpClient.forget (client.setWith i set) (client.forget.setWith i plainSet) := by
  unfold HttpClient.setWith HttpClient.forget
  rw [forget_pick]
  cases pick client.requests i with
  | none => exact Simulates.pure rfl
  | some parts => exact Erases.bind (keeps parts.1) fun _ => Simulates.pure rfl

theorem keeps_httpStep (client : HttpClient OwnedRequest OwnedResponse) (call : HttpCall) :
    Keeps HttpClient.forget (client.step heapHttpApi call)
      (client.forget.step plainHttpApi call) := by
  cases call with
  | requestCreate method path =>
      refine Erases.bind (keeps_tenHttpRequestCreate method path) fun made => ?_
      refine Simulates.pure ?_
      cases made with
      | none => rfl
      | some request => rfl
  | requestSetHeader request name value =>
      exact keeps_setWith client request fun request =>
        keeps_tenHttpRequestSetHeader request name value
  | requestSetBody request data size =>
      exact keeps_setWith client request fun request =>
        keeps_tenHttpRequestSetBody request data size
  | clientSend transport connected host request =>
      have same : client.forget.requests[request]? =
          client.requests[request]?.map OwnedRequest.forget := List.getElem?_map
      dsimp only [HttpClient.step]
      rw [same]
      refine Erases.bind (keeps_tenHttpClientSend connected host _) fun response => ?_
      refine Simulates.pure ?_
      cases response with
      | none => rfl
      | some response => rfl
  | requestDestroy request =>
      dsimp only [HttpClient.step, HttpClient.forget]
      rw [forget_pick]
      cases pick client.requests request with
      | none => exact Simulates.skip (unseen_tenHttpRequestDestroy none) fun _ => Simulates.pure rfl
      | some parts =>
          exact Simulates.skip (unseen_tenHttpRequestDestroy (some parts.1)) fun _ =>
            Simulates.pure rfl
  | responseDestroy response =>
      dsimp only [HttpClient.step, HttpClient.forget]
      rw [forget_pick]
      cases pick client.responses response with
      | none =>
          exact Simulates.skip (unseen_tenHttpResponseDestroy none) fun _ => Simulates.pure rfl
      | some parts =>
          exact Simulates.skip (unseen_tenHttpResponseDestroy (some parts.1)) fun _ =>
            Simulates.pure rfl

theorem keeps_httpRun (calls : List HttpCall) :
    ∀ client : HttpClient OwnedRequest OwnedResponse,
      Keeps HttpClient.forget (HttpClient.run heapHttpApi calls client)
        (HttpClient.run plainHttpApi calls client.forget) := by
  induction calls with
  | nil => exact fun client => Simulates.pure rfl
  | cons call calls inductionHypothesis =>
      intro client
      exact Erases.bind (keeps_httpStep client call) fun client => inductionHypothesis client

end Forgetting

section Runs

variable {grants : Schedule}

/-- A program that starts with nothing and uses the HTTP functions in any order,
whatever the network and the allocator answer, never touches a block that it does
not own, owns exactly the blocks in use, and leaves none when it has destroyed
what it holds; and it sees what it would see if nothing had to be destroyed. -/
theorem http_run_blocks (calls : List HttpCall) :
    Returns (HttpClient.run heapHttpApi calls .start) grants Heap.start (fun client heap =>
      heap.blocks = client.blocks ∧
        Returns (client.destroyAll heapHttpApi) grants heap (fun _ last => last.live = ∅) ∧
          ∃ world, HttpClient.run plainHttpApi calls .start grants default =
            some (client.forget, world)) := by
  have empty : HttpClient.Located .start := List.forall_mem_nil _
  obtain ⟨client, heap, run, held, -⟩ := owns_httpRun calls empty Heap.start 0 rfl
  rw [add_zero] at held
  refine ⟨client, heap, run, held, ?_, ?_⟩
  · apply (owns_httpDestroyAll client heap 0 (held.trans (add_zero _).symm)).mono
    rintro ⟨⟩ last ⟨nothing, -⟩
    exact Finset.val_eq_zero.mp nothing
  · obtain ⟨world, plainRun, -⟩ :=
      Erases.run (keeps_httpRun calls .start) (Eq.refl Heap.start.world.requests) run
    exact ⟨world, plainRun⟩

end Runs

end Dotten
