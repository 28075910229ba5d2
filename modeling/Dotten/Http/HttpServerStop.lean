/-
Module: Dotten.Http.HttpServerStop
Layer: Http
Purpose: What a call of stop brings about, and that every connection the server
  accepts is closed before the flag is read again.
Imports: Dotten.Http.TenHttpServer, Dotten.Library.Runs
Main exports: ServerExclusive, flag_not_raced, ServerInvariant,
  ServerInvariant.act, acceptBound_step, StopsInTime, httpServer_stops
-/
import Dotten.Http.TenHttpServer
import Dotten.Library.Runs

namespace Dotten

open Dotten.Library

/-- The thread of the server holds the lock. -/
def RunPc.inside : RunPc → Bool
  | .read | .unlock _ => true
  | _ => false

/-- The thread that stops the server holds the lock. -/
def StopPc.inside : StopPc → Bool
  | .set | .unlock => true
  | _ => false

/-- The number of connections that run may still accept before it reads the
flag again. -/
def RunPc.acceptsLeft : RunPc → Nat
  | .unlock false | .poll | .accept => 1
  | _ => 0

/-- The connections that run has open there. -/
def RunPc.clients : RunPc → List Connection
  | .wrap client | .handle client | .close client => [client]
  | _ => []

/-- Mutual exclusion: whoever is inside holds the lock. -/
structure ServerExclusive (s : ServerState) : Prop where
  run : s.run.inside = true → s.owner = some .run
  stops : ∀ t, (s.stops t).inside = true → s.owner = some (.stopper t)

/-- What holds of a server in every reachable state.  The flag is never reset,
and run goes from the flag it has read as unset to at most one `accept`. -/
structure ServerInvariant (s : ServerState) : Prop where
  flagged : ∀ t, s.stops t = .unlock → s.stopping = true
  released : s.released = true → s.stopping = true
  readSet : s.readSet = true → s.stopping = true ∧ s.run.acceptsLeft = 0
  clients : s.clients = s.run.clients
  closed : s.accepted = s.closed ++ s.clients

section Steps

variable {s s' t : ServerState} {event : ServerEvent}

theorem serverExclusive_created : ServerExclusive .created where
  run inside := by cases inside
  stops t inside := by cases inside

attribute [local grind =] Function.update_apply

attribute [local grind] RunPc.inside StopPc.inside

/-- Who acquires the lock finds it free, and who releases it was its holder. -/
theorem ServerExclusive.act (exclusive : ServerExclusive s) (enabled : s.Enabled event) :
    ServerExclusive (s.act event) := by
  obtain ⟨run, stops⟩ := exclusive
  constructor
  · intro inside
    cases event with
    | stopCall | arrive | giveUp => exact run inside
    | runLock => rfl
    | runRead => exact run (by rw [enabled]; rfl)
    | runUnlock | stopLock | stopSet | stopUnlock =>
        dsimp only [ServerState.Enabled, ServerState.act] at enabled inside ⊢
        grind -ring -linarith -order -ac
    | _ => cases inside
  · intro t inside
    cases event with
    | runLock | runUnlock | stopCall | stopLock | stopSet | stopUnlock =>
        dsimp only [ServerState.Enabled, ServerState.act] at enabled inside ⊢
        grind -ring -linarith -order -ac
    | _ => exact stops t inside

theorem serverExclusive_of_reachable (reachable : ServerReachable s) : ServerExclusive s := by
  apply holds_of_run reachable serverExclusive_created
  rintro s s' exclusive ⟨event, enabled⟩
  exact exclusive.act enabled

/-- No thread sets the flag while run reads it, and no two threads set it at
once. -/
theorem flag_not_raced (reachable : ServerReachable s) {t : Nat} (sets : s.stops t = .set) :
    s.run ≠ .read ∧ ∀ other, s.stops other = .set → other = t := by
  have exclusive := serverExclusive_of_reachable reachable
  have holder := exclusive.stops t (by rw [sets]; rfl)
  constructor
  · intro reads
    have holds := exclusive.run (by rw [reads]; rfl)
    rw [holder] at holds
    cases holds
  · intro other setsToo
    have holds := exclusive.stops other (by rw [setsToo]; rfl)
    rw [holder] at holds
    cases holds
    rfl

theorem serverInvariant_created : ServerInvariant .created where
  flagged t unlocks := by cases unlocks
  released released := by cases released
  readSet readSet := by cases readSet
  clients := rfl
  closed := rfl

/-- The flag is set before the lock is released, and stays set. -/
theorem ServerInvariant.act_released (invariant : ServerInvariant s) (enabled : s.Enabled event) :
    (∀ t, (s.act event).stops t = .unlock → (s.act event).stopping = true) ∧
      ((s.act event).released = true → (s.act event).stopping = true) := by
  have flagged := invariant.flagged
  have released := invariant.released
  cases event with
  | stopCall | stopLock | stopSet | stopUnlock =>
      dsimp only [ServerState.Enabled, ServerState.act] at enabled ⊢
      grind -ring -linarith -order -ac
  | _ => exact ⟨flagged, released⟩

attribute [local grind] RunPc.acceptsLeft

/-- Once run has read the flag as set it does not come to `accept` again. -/
theorem ServerInvariant.act_readSet (invariant : ServerInvariant s) (enabled : s.Enabled event)
    (readSet : (s.act event).readSet = true) :
    (s.act event).stopping = true ∧ (s.act event).run.acceptsLeft = 0 := by
  have before := invariant.readSet
  cases event with
  | stopCall | stopLock | stopUnlock | arrive | giveUp => exact before readSet
  | stopSet => exact ⟨rfl, (before readSet).2⟩
  | _ =>
      dsimp only [ServerState.Enabled, ServerState.act] at enabled readSet ⊢
      grind -ring -linarith -order -ac

/-- A connection is open from `accept` to the close that follows, and no other
one is. -/
theorem ServerInvariant.act_clients (invariant : ServerInvariant s) (enabled : s.Enabled event) :
    (s.act event).clients = (s.act event).run.clients ∧
      (s.act event).accepted = (s.act event).closed ++ (s.act event).clients := by
  obtain ⟨-, -, -, clients, closed⟩ := invariant
  cases event with
  | runAccept client =>
      have none : s.clients = [] := by rw [clients, enabled.1]; rfl
      have all : s.accepted = s.closed := by rw [closed, none, List.append_nil]
      exact ⟨congrArg (· ++ [client]) none, by dsimp only [ServerState.act]; rw [none, all]; rfl⟩
  | runWrapNoMemory client | runClose client =>
      have one : s.clients = [client] := by rw [clients, enabled]; rfl
      have none : s.clients.erase client = [] := by rw [one, List.erase_cons_head]
      dsimp only [ServerState.act]
      rw [none, closed, one, List.append_nil]
      exact ⟨rfl, rfl⟩
  | runCall =>
      refine ⟨?_, closed⟩
      rcases enabled with idle | returned
      · rw [idle] at clients
        exact clients
      · rw [returned] at clients
        exact clients
  | runUnlock stopping =>
      refine ⟨?_, closed⟩
      rw [enabled] at clients
      cases stopping <;> exact clients
  | runLock =>
      rw [enabled.1] at clients
      exact ⟨clients, closed⟩
  | runRead | runPollNothing | runPollReadable | runAcceptFails | runWrap | runHandle =>
      rw [enabled] at clients
      exact ⟨clients, closed⟩
  | _ => exact ⟨clients, closed⟩

theorem ServerInvariant.act (invariant : ServerInvariant s) (enabled : s.Enabled event) :
    ServerInvariant (s.act event) where
  flagged := (invariant.act_released enabled).1
  released := (invariant.act_released enabled).2
  readSet := invariant.act_readSet enabled
  clients := (invariant.act_clients enabled).1
  closed := (invariant.act_clients enabled).2

theorem ServerInvariant.step (invariant : ServerInvariant s) (step : ServerStep s s') :
    ServerInvariant s' := by
  obtain ⟨event, enabled⟩ := step
  exact invariant.act enabled

theorem serverInvariant_of_reachable (reachable : ServerReachable s) : ServerInvariant s :=
  holds_of_run reachable serverInvariant_created fun _ _ => ServerInvariant.step

/-- The flag is never reset. -/
theorem stopping_step (stopping : s.stopping = true) (step : ServerStep s s') :
    s'.stopping = true := by
  obtain ⟨event, enabled⟩ := step
  cases event with
  | stopSet => rfl
  | _ => exact stopping

/-- The most connections that a run can have accepted when it next reads the
flag. -/
def ServerState.acceptBound (s : ServerState) : Nat :=
  s.accepted.length + s.run.acceptsLeft

/-- While the flag is set, a step that accepts uses up the one accept that was
left, and none is won: run gets one only from a flag it reads as unset. -/
theorem acceptBound_step (stopping : s.stopping = true) (step : ServerStep s s') :
    s'.acceptBound ≤ s.acceptBound := by
  obtain ⟨event, enabled⟩ := step
  unfold ServerState.acceptBound
  cases event with
  | runAccept client =>
      have one : s.run.acceptsLeft = 1 := by rw [enabled.1]; rfl
      rw [one]
      exact Nat.le_of_eq List.length_append
  | stopCall | stopLock | stopSet | stopUnlock | arrive | giveUp => exact Nat.le_refl _
  | _ =>
      dsimp only [ServerState.Enabled, ServerState.act] at enabled ⊢
      grind -ring -linarith -order -ac

theorem accepted_step (step : ServerStep s s') : s.accepted <+: s'.accepted := by
  obtain ⟨event, enabled⟩ := step
  cases event with
  | runAccept client => exact List.prefix_append ..
  | _ => exact List.prefix_rfl

end Steps

section Runs

variable {s t : ServerState}

theorem acceptBound_of_run (stopping : s.stopping = true)
    (later : Relation.ReflTransGen ServerStep s t) : t.acceptBound ≤ s.acceptBound :=
  related_of_run (fun before after => after ≤ before) ServerState.acceptBound later stopping
    (fun _ _ => stopping_step) (fun _ _ => acceptBound_step) Nat.le_refl
    (fun one two => Nat.le_trans two one)

theorem accepted_of_run (later : Relation.ReflTransGen ServerStep s t) :
    s.accepted <+: t.accepted := by
  induction later with
  | refl => exact List.prefix_rfl
  | tail _ step inductionHypothesis => exact inductionHypothesis.trans (accepted_step step)

/-- What stop promises of a run that goes on from the state `s`. -/
structure StopsInTime (s : ServerState) : Prop where
  /-- After the first stop has released the lock, run accepts at most one
  further connection. -/
  afterRelease : s.released = true → ∀ t, Relation.ReflTransGen ServerStep s t →
    t.accepted.length ≤ s.accepted.length + 1
  /-- After run has read the flag as set, it accepts none. -/
  afterRead : s.readSet = true → ∀ t, Relation.ReflTransGen ServerStep s t →
    t.accepted = s.accepted
  /-- When run reads the flag, every connection that it accepted is closed. -/
  closedAtRead : s.run = .read → s.closed = s.accepted ∧ s.clients = []
  oneOpen : s.clients.length ≤ 1
  noneOpenAtReturn : s.run = .returned → s.closed = s.accepted ∧ s.clients = []

theorem RunPc.acceptsLeft_le (pc : RunPc) : pc.acceptsLeft ≤ 1 := by
  unfold RunPc.acceptsLeft
  split <;> decide

theorem RunPc.length_clients_le (pc : RunPc) : pc.clients.length ≤ 1 := by
  cases pc <;> exact Nat.le_of_ble_eq_true rfl

theorem ServerInvariant.closed_of_clients (invariant : ServerInvariant s)
    (none : s.run.clients = []) : s.closed = s.accepted ∧ s.clients = [] := by
  have nothing : s.clients = [] := by rw [invariant.clients, none]
  exact ⟨by rw [invariant.closed, nothing, List.append_nil], nothing⟩

/-- In every state of every run, for any number of threads that stop the server
and of calls of each, and any arrival of connections. -/
theorem httpServer_stops (reachable : ServerReachable s) : StopsInTime s := by
  have invariant := serverInvariant_of_reachable reachable
  constructor
  · intro released t later
    have bound := acceptBound_of_run (invariant.released released) later
    have left := s.run.acceptsLeft_le
    unfold ServerState.acceptBound at bound
    omega
  · intro readSet t later
    obtain ⟨stopping, noneLeft⟩ := invariant.readSet readSet
    have bound := acceptBound_of_run stopping later
    unfold ServerState.acceptBound at bound
    exact ((accepted_of_run later).eq_of_length_le (by omega)).symm
  · intro reads
    exact invariant.closed_of_clients (by rw [reads]; rfl)
  · rw [invariant.clients]
    exact s.run.length_clients_le
  · intro returned
    exact invariant.closed_of_clients (by rw [returned]; rfl)

end Runs

/-- The bound is met: the flag is set after run has read it and before run
accepts the connection that has arrived. -/
theorem httpServer_stops_lateStop :
    ∃ s t, ServerState.created.runEvents
        ([.arrive, .runCall, .runLock, .runRead, .runUnlock false] ++ stopEvents 0) = some s ∧
      s.runEvents [.runPollReadable, .runAccept 0] = some t ∧
      s.released = true ∧ s.accepted = [] ∧ t.accepted = [0] ∧ StopsInTime s := by
  have runs : ((ServerState.created.runEvents
      ([.arrive, .runCall, .runLock, .runRead, .runUnlock false] ++ stopEvents 0)).bind
        fun s => (s.runEvents [.runPollReadable, .runAccept 0]).map
          fun t => (s.released, s.accepted, t.accepted)) = some (true, [], [0]) := by
    decide
  obtain ⟨s, run, rest⟩ := Option.bind_eq_some_iff.mp runs
  obtain ⟨t, later, seen⟩ := Option.map_eq_some_iff.mp rest
  simp only [Prod.mk.injEq] at seen
  obtain ⟨released, before, after⟩ := seen
  exact ⟨s, t, run, later, released, before, after,
    httpServer_stops (ServerState.run_of_runEvents run)⟩

end Dotten
