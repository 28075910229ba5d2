/-
Module: Dotten.Http.TenSocket
Layer: Http
Purpose: A connected socket as socket_posix.c reads and writes it.  The
  transport decides how many bytes each call moves.
Imports: Dotten.Core.World
Main exports: Transport, Transport.Delivers, Transport.Segments, bytewise,
  TenSocket, tenSocketSend, tenSocketReceive, Transport.handsOver,
  tenSocketSend_spec, tenSocketReceive_handOver
-/
import Dotten.Core.World

namespace Dotten

open Dotten.Library

/-- The transport's answers to the calls on one socket: the `i`-th `send` and
the `i`-th `recv` fail when they are `none`, and ask for a number of bytes
otherwise.  Behind the last byte that the peer has sent, a `recv` fails when
the connection aborts, and reports that the peer has closed otherwise. -/
structure Transport where
  sends : Nat → Option Nat
  receives : Nat → Option Nat
  aborts : Bool

/-- No call fails.  A call may still move fewer bytes than it was given. -/
structure Transport.Delivers (transport : Transport) : Prop where
  sends : ∀ call, transport.sends call ≠ none
  receives : ∀ call, transport.receives call ≠ none
  closes : transport.aborts = false

/-- The transport that moves one byte a call. -/
def bytewise : Transport where
  sends _ := some 1
  receives _ := some 1
  aborts := false

theorem bytewise_delivers : bytewise.Delivers where
  sends := by simp [bytewise]
  receives := by simp [bytewise]
  closes := rfl

/-- One end of a connection: the bytes that have been accepted from this end,
the bytes that the peer has sent and this end has not received, and the
numbers of calls made. -/
structure TenSocket where
  outgoing : Bytes
  incoming : Bytes
  sendCalls : Nat
  receiveCalls : Nat
deriving DecidableEq, Repr, Inhabited

/-- A new connection to a peer that sends the given bytes. -/
def TenSocket.connected (incoming : Bytes) : TenSocket :=
  { outgoing := [], incoming, sendCalls := 0, receiveCalls := 0 }

/-- `ten_socket_send` of the first `size` bytes at `data`: the number of bytes
that were accepted, or -1. -/
def tenSocketSend (transport : Transport) (socket : TenSocket) (data : Bytes) (size : Nat) :
    Ten (Int × TenSocket) := do
  let after := { socket with sendCalls := socket.sendCalls + 1 }
  match transport.sends socket.sendCalls with
  | none =>
      tenSetError .network
      return (-1, after)
  | some asked =>
      let n := min (max asked 1) size
      tenSetError .ok
      return (n, { after with outgoing := socket.outgoing ++ data.take n })

/-- `ten_socket_receive` of at most `size` bytes: their number, 0 when the peer
has closed, or -1; and the bytes. -/
def tenSocketReceive (transport : Transport) (socket : TenSocket) (size : Nat) :
    Ten (Int × Bytes × TenSocket) := do
  let after := { socket with receiveCalls := socket.receiveCalls + 1 }
  match transport.receives socket.receiveCalls with
  | none =>
      tenSetError .network
      return (-1, [], after)
  | some asked =>
      if socket.incoming = [] ∧ transport.aborts = true then
        tenSetError .network
        return (-1, [], after)
      else
        let n := min (min (max asked 1) size) socket.incoming.length
        tenSetError .ok
        return (n, socket.incoming.take n, { after with incoming := socket.incoming.drop n })

/-- The number of bytes that a `recv` of at most `size` bytes hands over when
`left` bytes of the stream are left: none when it fails or the stream has
ended. -/
def Transport.handsOver (transport : Transport) (call size left : Nat) : Nat :=
  match transport.receives call with
  | none => 0
  | some asked => min (min (max asked 1) size) left

/-- The transport cuts every stream into chunks that are not empty, and loses
none of it. -/
def Transport.Segments (transport : Transport) : Prop :=
  ∀ call, transport.receives call ≠ none

theorem Transport.Delivers.segments {transport : Transport} (delivers : transport.Delivers) :
    transport.Segments :=
  delivers.receives

theorem Transport.handsOver_le (transport : Transport) (call size left : Nat) :
    transport.handsOver call size left ≤ size ∧ transport.handsOver call size left ≤ left := by
  rw [Transport.handsOver]
  split <;> omega

theorem Transport.Segments.handsOver_pos {transport : Transport} (segments : transport.Segments)
    {call size left : Nat} (wanted : 0 < size) (there : 0 < left) :
    0 < transport.handsOver call size left := by
  rw [Transport.handsOver]
  split
  · rename_i fails
    exact absurd fails (segments call)
  · omega

section Specifications

variable {grants : Schedule} {world : World} {transport : Transport}

/-- What a `send` of a block may do. -/
inductive SendOutcome (transport : Transport) (socket : TenSocket) (data : Bytes) (size : Nat) :
    Int → TenSocket → Prop where
  | failed {after : TenSocket} (broken : ¬ transport.Delivers)
      (kept : after.outgoing = socket.outgoing) : SendOutcome transport socket data size (-1) after
  | accepted {n : Nat} {after : TenSocket} (positive : 0 < n) (atMost : n ≤ size)
      (outgoing : after.outgoing = socket.outgoing ++ data.take n) :
      SendOutcome transport socket data size n after

theorem tenSocketSend_spec {socket : TenSocket} {data : Bytes} {size : Nat} (positive : 0 < size) :
    Returns (tenSocketSend transport socket data size) grants world (fun reply _ =>
      SendOutcome transport socket data size reply.1 reply.2) := by
  unfold tenSocketSend
  cases answer : transport.sends socket.sendCalls with
  | none =>
      simp only [returns_bind, returns_tenSetError, returns_pure]
      exact .failed (fun delivers => delivers.sends _ answer) rfl
  | some asked =>
      simp only [returns_bind, returns_tenSetError, returns_pure]
      exact .accepted (by omega) (Nat.min_le_right _ _) rfl

/-- What a `recv` leaves: the socket behind the bytes that were handed over, and
a count that is positive exactly when there are any. -/
structure HandOver (transport : Transport) (socket : TenSocket) (size : Nat) (reply : Int)
    (chunk : Bytes) (after : TenSocket) : Prop where
  incoming : after.incoming =
    socket.incoming.drop (transport.handsOver socket.receiveCalls size socket.incoming.length)
  calls : after.receiveCalls = socket.receiveCalls + 1
  ended : transport.handsOver socket.receiveCalls size socket.incoming.length = 0 → reply ≤ 0
  count : 0 < transport.handsOver socket.receiveCalls size socket.incoming.length →
    reply = transport.handsOver socket.receiveCalls size socket.incoming.length ∧
      chunk = socket.incoming.take
        (transport.handsOver socket.receiveCalls size socket.incoming.length)

/-- `ten_socket_receive` moves the bytes that the transport hands over. -/
theorem tenSocketReceive_handOver (socket : TenSocket) (size : Nat) :
    Returns (tenSocketReceive transport socket size) grants world (fun reply _ =>
      HandOver transport socket size reply.1 reply.2.1 reply.2.2) := by
  unfold tenSocketReceive
  cases answer : transport.receives socket.receiveCalls with
  | none =>
      have nothing : ∀ left, transport.handsOver socket.receiveCalls size left = 0 := by
        intro left
        rw [Transport.handsOver, answer]
      simp only [returns_bind, returns_tenSetError, returns_pure]
      constructor <;> simp [nothing]
  | some asked =>
      have handed : ∀ left, transport.handsOver socket.receiveCalls size left =
          min (min (max asked 1) size) left := by
        intro left
        rw [Transport.handsOver, answer]
      apply returns_ite
      · rintro ⟨empty, -⟩
        simp only [returns_bind, returns_tenSetError, returns_pure]
        constructor <;> simp [handed, empty]
      · intro _
        simp only [returns_bind, returns_tenSetError, returns_pure]
        constructor
        · rw [handed]
        · rfl
        · intro none
          rw [handed] at none
          omega
        · intro _
          rw [handed]
          exact ⟨rfl, rfl⟩

end Specifications

end Dotten
