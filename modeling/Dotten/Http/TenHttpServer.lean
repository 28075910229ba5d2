/-
Module: Dotten.Http.TenHttpServer
Layer: Http
Purpose: The server of http.c as a transition system: one event for every
  statement of ten_http_server_run and ten_http_server_stop that touches the
  flag, the lock or a socket, in any interleaving, and the arrival of
  connections.
Imports: none
Main exports: RunPc, StopPc, ServerState, ServerEvent, ServerState.Enabled,
  ServerState.act, ServerStep, ServerReachable, ServerState.runEvents
-/
import Mathlib.Logic.Relation
import Mathlib.Logic.Function.Basic

namespace Dotten

/-- A connection.  Connections are numbered in the order in which they arrive
at the listener. -/
abbrev Connection := Nat

/-- Where the thread of the server stands in `ten_http_server_run`.  At `wrap`
it is inside `ten_tcp_accept`, between `accept` and `ten__socket_wrap`; at
`handle` it is in `ten__http_handle_connection`. -/
inductive RunPc where
  | idle
  | lock
  | read
  | unlock (stopping : Bool)
  | poll
  | accept
  | wrap (client : Connection)
  | handle (client : Connection)
  | close (client : Connection)
  | returned
deriving DecidableEq, Repr

/-- Where a thread stands in `ten_http_server_stop`. -/
inductive StopPc where
  | idle
  | lock
  | set
  | unlock
deriving DecidableEq, Repr

/-- Who holds `server->lock`. -/
inductive ServerHolder where
  | run
  | stopper (t : Nat)
deriving DecidableEq, Repr

/-- The server, its threads and the history. -/
structure ServerState where
  run : RunPc
  /-- The threads that may call stop.  A handler that stops the server is one
  of them. -/
  stops : Nat → StopPc
  /-- The holder of `server->lock`. -/
  owner : Option ServerHolder
  stopping : Bool
  /-- The number of connections that have arrived so far. -/
  arrivals : Nat
  /-- The connections that the listener holds for `accept`. -/
  backlog : List Connection
  /-- The connections whose descriptor is open. -/
  clients : List Connection
  /-- The connections that `accept` has returned, in this order. -/
  accepted : List Connection
  /-- The connections whose descriptor was closed, in this order. -/
  closed : List Connection
  /-- A call of stop has released the lock. -/
  released : Bool
  /-- Run has read the flag as set. -/
  readSet : Bool

/-- A server that `ten_http_server_create` returned. -/
def ServerState.created : ServerState where
  run := .idle
  stops _ := .idle
  owner := none
  stopping := false
  arrivals := 0
  backlog := []
  clients := []
  accepted := []
  closed := []
  released := false
  readSet := false

/-- One step of one thread, or of the network: a connection arrives, or its
peer gives it up before it is accepted. -/
inductive ServerEvent where
  | runCall
  | runLock
  | runRead
  | runUnlock (stopping : Bool)
  | runPollNothing
  | runPollReadable
  | runAcceptFails
  | runAccept (client : Connection)
  | runWrap (client : Connection)
  | runWrapNoMemory (client : Connection)
  | runHandle (client : Connection)
  | runClose (client : Connection)
  | stopCall (t : Nat)
  | stopLock (t : Nat)
  | stopSet (t : Nat)
  | stopUnlock (t : Nat)
  | arrive
  | giveUp (client : Connection)
deriving DecidableEq, Repr

namespace ServerState

/-- The event can happen: its thread stands there, the lock that it takes is
free, and the connection that it accepts is waiting.  `select` may report
anything and `accept` may always fail; run may be called again after it has
returned. -/
def Enabled (s : ServerState) : ServerEvent → Prop
  | .runCall => s.run = .idle ∨ s.run = .returned
  | .runLock => s.run = .lock ∧ s.owner = none
  | .runRead => s.run = .read
  | .runUnlock stopping => s.run = .unlock stopping
  | .runPollNothing => s.run = .poll
  | .runPollReadable => s.run = .poll
  | .runAcceptFails => s.run = .accept
  | .runAccept client => s.run = .accept ∧ client ∈ s.backlog
  | .runWrap client => s.run = .wrap client
  | .runWrapNoMemory client => s.run = .wrap client
  | .runHandle client => s.run = .handle client
  | .runClose client => s.run = .close client
  | .stopCall t => s.stops t = .idle
  | .stopLock t => s.stops t = .lock ∧ s.owner = none
  | .stopSet t => s.stops t = .set
  | .stopUnlock t => s.stops t = .unlock
  | .arrive => True
  | .giveUp client => client ∈ s.backlog

instance (s : ServerState) (event : ServerEvent) : Decidable (s.Enabled event) := by
  cases event <;> unfold Enabled <;> infer_instance

/-- The effect of the event. -/
def act (s : ServerState) : ServerEvent → ServerState
  | .runCall => { s with run := .lock }
  | .runLock => { s with owner := some .run, run := .read }
  | .runRead =>
      { s with run := .unlock s.stopping, readSet := s.readSet || s.stopping }
  | .runUnlock stopping =>
      { s with owner := none, run := if stopping then .returned else .poll }
  | .runPollNothing => { s with run := .lock }
  | .runPollReadable => { s with run := .accept }
  | .runAcceptFails => { s with run := .lock }
  | .runAccept client =>
      { s with
        run := .wrap client
        backlog := s.backlog.erase client
        clients := s.clients ++ [client]
        accepted := s.accepted ++ [client] }
  | .runWrap client => { s with run := .handle client }
  | .runWrapNoMemory client =>
      { s with
        run := .lock
        clients := s.clients.erase client
        closed := s.closed ++ [client] }
  | .runHandle client => { s with run := .close client }
  | .runClose client =>
      { s with
        run := .lock
        clients := s.clients.erase client
        closed := s.closed ++ [client] }
  | .stopCall t => { s with stops := Function.update s.stops t .lock }
  | .stopLock t =>
      { s with
        owner := some (.stopper t)
        stops := Function.update s.stops t .set }
  | .stopSet t =>
      { s with stopping := true, stops := Function.update s.stops t .unlock }
  | .stopUnlock t =>
      { s with
        owner := none
        stops := Function.update s.stops t .idle
        released := true }
  | .arrive =>
      { s with arrivals := s.arrivals + 1, backlog := s.backlog ++ [s.arrivals] }
  | .giveUp client => { s with backlog := s.backlog.erase client }

/-- The state after the given events, when each can happen. -/
def runEvents : ServerState → List ServerEvent → Option ServerState
  | s, [] => some s
  | s, event :: rest => if s.Enabled event then (s.act event).runEvents rest else none

end ServerState

/-- One step of the server. -/
inductive ServerStep (s : ServerState) : ServerState → Prop where
  | act (event : ServerEvent) (enabled : s.Enabled event) : ServerStep s (s.act event)

/-- The states of a run that starts with the creation of the server. -/
def ServerReachable : ServerState → Prop :=
  Relation.ReflTransGen ServerStep .created

theorem ServerState.run_of_runEvents {events : List ServerEvent} :
    ∀ {s s' : ServerState}, s.runEvents events = some s' →
      Relation.ReflTransGen ServerStep s s' := by
  induction events with
  | nil =>
      intro s s' run
      cases run
      exact .refl
  | cons event rest inductionHypothesis =>
      intro s s' run
      rw [ServerState.runEvents] at run
      split at run
      · rename_i enabled
        exact .head (.act event enabled) (inductionHypothesis run)
      · cases run

/-- The events of a call of stop that finds the lock free. -/
def stopEvents (t : Nat) : List ServerEvent :=
  [.stopCall t, .stopLock t, .stopSet t, .stopUnlock t]

end Dotten
