/-
Module: Dotten.Http.HttpArrival
Layer: Http
Purpose: How much of a stream arrives: what the transport moves in the calls of
  `recv` before one of them fails, without regard to the reader that makes the
  calls.
Imports: Dotten.Http.HttpReception
Main exports: Transport.moves, Transport.Works, Arrives, BlockArrives,
  headersReceived_iff, le_bodyReceived_iff
-/
import Dotten.Http.HttpReception

namespace Dotten

open Dotten.Library

/-- The number of bytes that a `recv` of a whole chunk moves when there are as
many. -/
def Transport.moves (transport : Transport) (call : Nat) : Nat :=
  min (max ((transport.receives call).getD 0) 1) tenHttpChunkSize

/-- The number of bytes that `count` calls move, from a given call on. -/
def Transport.movesIn (transport : Transport) (call count : Nat) : Nat :=
  ∑ i ∈ Finset.range count, transport.moves (call + i)

/-- None of `count` calls fails, from a given call on. -/
def Transport.Works (transport : Transport) (call count : Nat) : Prop :=
  ∀ i < count, transport.receives (call + i) ≠ none

/-- The calls that do not fail move a number of bytes. -/
def Transport.Brings (transport : Transport) (call amount : Nat) : Prop :=
  ∃ count, transport.Works call count ∧ amount ≤ transport.movesIn call count

/-- The first bytes of the stream arrive: before the peer closes the connection,
and before a `recv` fails. -/
def Arrives (transport : Transport) (sock : TenSocket) (amount : Nat) : Prop :=
  amount ≤ sock.incoming.length ∧ transport.Brings sock.receiveCalls amount

/-- The header block in front of the blank line at `i` arrives, and no more than
the limit before the last chunk of it. -/
def BlockArrives (transport : Transport) (sock : TenSocket) (i : Nat) : Prop :=
  findSlice (crlf ++ crlf) sock.incoming = some i ∧
    ∃ count, transport.Works sock.receiveCalls count ∧
      i + 4 ≤ transport.movesIn sock.receiveCalls count ∧
      ∀ fewer < count, transport.movesIn sock.receiveCalls fewer ≤ tenHttpMaxHeaderSize

section Moves

variable {transport : Transport} {call count fewer more : Nat}

theorem Transport.moves_pos : 0 < transport.moves call := by
  rw [Transport.moves, tenHttpChunkSize]
  omega

theorem Transport.moves_le : transport.moves call ≤ tenHttpChunkSize := Nat.min_le_right _ _

/-- A call that does not fail hands over what it moves, as far as it is asked for
and there. -/
theorem Transport.handsOver_eq (works : transport.receives call ≠ none) (size left : Nat) :
    transport.handsOver call (min size tenHttpChunkSize) left =
      min (min (transport.moves call) size) left := by
  obtain ⟨asked, answer⟩ := Option.ne_none_iff_exists'.mp works
  rw [Transport.handsOver, Transport.moves, answer]
  dsimp only
  rw [Option.getD_some]
  omega

theorem Transport.handsOver_of_none (fails : transport.receives call = none) (size left : Nat) :
    transport.handsOver call size left = 0 := by
  rw [Transport.handsOver, fails]

@[simp] theorem Transport.movesIn_zero : transport.movesIn call 0 = 0 := rfl

theorem Transport.movesIn_succ :
    transport.movesIn call (count + 1) =
      transport.movesIn call count + transport.moves (call + count) :=
  Finset.sum_range_succ _ _

theorem Transport.movesIn_succ' :
    transport.movesIn call (count + 1) =
      transport.moves call + transport.movesIn (call + 1) count := by
  rw [Transport.movesIn, Finset.sum_range_succ', Nat.add_comm]
  congr 1
  apply Finset.sum_congr rfl
  intro i _
  congr 1
  omega

theorem Transport.movesIn_add :
    transport.movesIn call (count + more) =
      transport.movesIn call count + transport.movesIn (call + count) more := by
  rw [Transport.movesIn, Finset.sum_range_add]
  congr 1
  apply Finset.sum_congr rfl
  intro i _
  congr 1
  omega

theorem Transport.movesIn_mono (le : fewer ≤ count) :
    transport.movesIn call fewer ≤ transport.movesIn call count := by
  obtain ⟨more, rfl⟩ := Nat.exists_eq_add_of_le le
  rw [Transport.movesIn_add]
  exact Nat.le_add_right _ _

theorem Transport.le_movesIn : count ≤ transport.movesIn call count := by
  induction count with
  | zero => exact Nat.zero_le _
  | succ count inductionHypothesis =>
      have moved := @Transport.moves_pos transport (call + count)
      rw [Transport.movesIn_succ]
      omega

theorem Transport.Works.of_le (works : transport.Works call count) (le : fewer ≤ count) :
    transport.Works call fewer :=
  fun i below => works i (Nat.lt_of_lt_of_le below le)

theorem Transport.works_succ :
    transport.Works call (count + 1) ↔
      transport.receives call ≠ none ∧ transport.Works (call + 1) count := by
  constructor
  · intro works
    refine ⟨works 0 (Nat.succ_pos _), fun i below => ?_⟩
    have here := works (i + 1) (Nat.succ_lt_succ below)
    rwa [← Nat.add_assoc, Nat.add_right_comm] at here
  · rintro ⟨first, rest⟩ i below
    cases i with
    | zero => exact first
    | succ i =>
        have here := rest i (Nat.lt_of_succ_lt_succ below)
        rwa [Nat.add_right_comm, Nat.add_assoc] at here

theorem Transport.works_add :
    transport.Works call (count + more) ↔
      transport.Works call count ∧ transport.Works (call + count) more := by
  constructor
  · intro works
    refine ⟨works.of_le (Nat.le_add_right _ _), fun i below => ?_⟩
    rw [Nat.add_assoc]
    exact works _ (Nat.add_lt_add_left below _)
  · rintro ⟨first, rest⟩ i below
    by_cases early : i < count
    · exact first i early
    · have here := rest (i - count) (by omega)
      rwa [Nat.add_assoc, Nat.add_sub_cancel' (Nat.not_lt.mp early)] at here

theorem Transport.brings_zero : transport.Brings call 0 :=
  ⟨0, fun _ below => absurd below (Nat.not_lt_zero _), Nat.zero_le _⟩

/-- The first call works, and the others bring the rest. -/
theorem Transport.brings_iff {amount : Nat} (positive : 0 < amount) :
    transport.Brings call amount ↔ transport.receives call ≠ none ∧
      transport.Brings (call + 1) (amount - transport.moves call) := by
  constructor
  · rintro ⟨count, works, enough⟩
    cases count with
    | zero =>
        rw [Transport.movesIn_zero] at enough
        omega
    | succ count =>
        rw [Transport.movesIn_succ'] at enough
        have each := Transport.works_succ.mp works
        exact ⟨each.1, count, each.2, by omega⟩
  · rintro ⟨works, count, worksLater, enough⟩
    refine ⟨count + 1, Transport.works_succ.mpr ⟨works, worksLater⟩, ?_⟩
    rw [Transport.movesIn_succ']
    omega

/-- The calls that have been made bring their part. -/
theorem Transport.brings_behind (works : transport.Works call count) {amount : Nat} :
    transport.Brings call amount ↔
      transport.Brings (call + count) (amount - transport.movesIn call count) := by
  constructor
  · rintro ⟨all, worksAll, enough⟩
    obtain few | many := Nat.le_total all count
    · have mono : transport.movesIn call all ≤ transport.movesIn call count :=
        Transport.movesIn_mono few
      rw [Nat.sub_eq_zero_of_le (enough.trans mono)]
      exact Transport.brings_zero
    · obtain ⟨more, rfl⟩ := Nat.exists_eq_add_of_le many
      rw [Transport.movesIn_add] at enough
      exact ⟨more, (Transport.works_add.mp worksAll).2, by omega⟩
  · rintro ⟨more, worksLater, enough⟩
    refine ⟨count + more, Transport.works_add.mpr ⟨works, worksLater⟩, ?_⟩
    rw [Transport.movesIn_add]
    omega

end Moves

section Reading

variable {transport : Transport}

/-- A reader gets what is brought, as far as it wants it and it is there. -/
theorem le_bytesBrought_iff {steps : Nat} :
    ∀ {call left wanted amount : Nat}, left < steps →
      (amount ≤ bytesBrought transport steps call left wanted ↔
        amount ≤ wanted ∧ amount ≤ left ∧ transport.Brings call amount) := by
  induction steps with
  | zero =>
      intro call left wanted amount enough
      omega
  | succ steps inductionHypothesis =>
      intro call left wanted amount enough
      obtain rfl | positive := Nat.eq_zero_or_pos amount
      · simp [Transport.brings_zero]
      rw [bytesBrought, Transport.brings_iff positive]
      by_cases works : transport.receives call = none
      · rw [Transport.handsOver_of_none works, if_pos rfl]
        simp [works]
        omega
      rw [Transport.handsOver_eq works]
      have moved := @Transport.moves_pos transport call
      by_cases nothing : min (min (transport.moves call) wanted) left = 0
      · rw [if_pos nothing]
        omega
      rw [if_neg nothing]
      by_cases first : amount ≤ min (min (transport.moves call) wanted) left
      · have none : amount - transport.moves call = 0 := by omega
        rw [none]
        simp only [ne_eq, works, not_false_eq_true, Transport.brings_zero, and_true]
        omega
      · have rest := @inductionHypothesis (call + 1)
          (left - min (min (transport.moves call) wanted) left)
          (wanted - min (min (transport.moves call) wanted) left)
          (amount - min (min (transport.moves call) wanted) left) (by omega)
        simp only [ne_eq, works, not_false_eq_true, true_and]
        constructor
        · intro brought
          obtain ⟨inWanted, inLeft, brings⟩ := rest.mp (by omega)
          have all : min (min (transport.moves call) wanted) left = transport.moves call := by
            omega
          rw [all] at brings
          exact ⟨by omega, by omega, brings⟩
        · rintro ⟨inWanted, inLeft, brings⟩
          have all : min (min (transport.moves call) wanted) left = transport.moves call := by
            omega
          rw [all] at rest ⊢
          have later := rest.mpr ⟨by omega, by omega, brings⟩
          omega

variable {stream : Bytes} {i call count : Nat}

/-- One more call moves on to the bytes that one more call moves. -/
theorem received_step (works : transport.receives (call + count) ≠ none) :
    min stream.length (transport.movesIn call count) +
        transport.handsOver (call + count) tenHttpChunkSize
          (stream.length - min stream.length (transport.movesIn call count)) =
      min stream.length (transport.movesIn call (count + 1)) := by
  have moved := @Transport.moves_le transport (call + count)
  rw [← Nat.min_self tenHttpChunkSize, Transport.handsOver_eq works, Transport.movesIn_succ]
  omega

/-- What the header reader has read when it has the block. -/
theorem headersReceived_some {steps calls received : Nat} :
    ∀ {count : Nat}, transport.Works call count →
      (∀ fewer < count, transport.movesIn call fewer ≤ tenHttpMaxHeaderSize) →
      headersReceived transport stream steps (call + count)
        (min stream.length (transport.movesIn call count)) = some (i, calls, received) →
      ∃ all, calls = call + all ∧ received = min stream.length (transport.movesIn call all) ∧
        transport.Works call all ∧ i + 4 ≤ transport.movesIn call all ∧
        findSlice (crlf ++ crlf) stream = some i ∧
        ∀ fewer < all, transport.movesIn call fewer ≤ tenHttpMaxHeaderSize := by
  induction steps with
  | zero =>
      intro count _ _ read
      cases read
  | succ steps inductionHypothesis =>
      intro count works within read
      rw [headersReceived] at read
      cases blank : findSlice (crlf ++ crlf)
          (stream.take (min stream.length (transport.movesIn call count))) with
      | some j =>
          rw [blank] at read
          cases read
          have inside := blank_within blank
          rw [List.length_take] at inside
          exact ⟨count, rfl, rfl, works, by omega, findSlice_of_take (by simp) blank, within⟩
      | none =>
          rw [blank] at read
          dsimp only at read
          split at read
          · cases read
          · rename_i small
            split at read
            · cases read
            · rename_i something
              have next : transport.receives (call + count) ≠ none := by
                intro fails
                exact something (Transport.handsOver_of_none fails _ _)
              rw [received_step next, Nat.add_assoc] at read
              refine inductionHypothesis ?_ ?_ read
              · exact Transport.works_add.mpr ⟨works, Transport.works_succ.mpr
                  ⟨next, fun _ below => absurd below (Nat.not_lt_zero _)⟩⟩
              · intro fewer below
                rcases Nat.lt_succ_iff_lt_or_eq.mp below with earlier | same
                · exact within fewer earlier
                · rw [same]
                  -- a call that hands something over was not at the end of the stream
                  have bounds := transport.handsOver_le (call + count) tenHttpChunkSize
                    (stream.length - min stream.length (transport.movesIn call count))
                  omega

/-- The header reader gets a block that arrives. -/
theorem headersReceived_of_arrives (blank : findSlice (crlf ++ crlf) stream = some i)
    (works : transport.Works call count) (enough : i + 4 ≤ transport.movesIn call count)
    (within : ∀ fewer < count, transport.movesIn call fewer ≤ tenHttpMaxHeaderSize) {steps : Nat} :
    ∀ {made : Nat}, made ≤ count →
      stream.length - min stream.length (transport.movesIn call made) < steps →
      headersReceived transport stream steps (call + made)
        (min stream.length (transport.movesIn call made)) ≠ none := by
  have inside := blank_within blank
  induction steps with
  | zero =>
      intro made _ short
      omega
  | succ steps inductionHypothesis =>
      intro made notAll short
      rw [headersReceived, blank_received blank]
      by_cases arrived : i + 4 ≤ min stream.length (transport.movesIn call made)
      · rw [if_pos arrived]
        simp
      · have fewer : made < count := by
          by_contra all
          have same : made = count := by omega
          rw [same] at arrived
          omega
        have small := within made fewer
        have next := works made fewer
        have moved := @Transport.moves_pos transport (call + made)
        have step := @received_step transport stream call made next
        rw [Transport.movesIn_succ] at step
        rw [if_neg arrived]
        dsimp only
        rw [if_neg (by omega), if_neg (by omega), received_step next, Nat.add_assoc]
        refine inductionHypothesis fewer ?_
        rw [Transport.movesIn_succ]
        omega

/-- The header reader gets exactly the block that arrives. -/
theorem headersReceived_iff {sock : TenSocket} :
    (∃ calls received, headersReceived transport sock.incoming (sock.incoming.length + 1)
      sock.receiveCalls 0 = some (i, calls, received)) ↔ BlockArrives transport sock i := by
  have start : min sock.incoming.length (transport.movesIn sock.receiveCalls 0) = 0 := by simp
  constructor
  · rintro ⟨calls, received, read⟩
    rw [← start] at read
    obtain ⟨all, -, -, works, enough, blank, within⟩ := headersReceived_some
      (fun _ below => absurd below (Nat.not_lt_zero _))
      (fun _ below => absurd below (Nat.not_lt_zero _)) read
    exact ⟨blank, all, works, enough, within⟩
  · rintro ⟨blank, count, works, enough, within⟩
    have got : headersReceived transport sock.incoming (sock.incoming.length + 1)
        (sock.receiveCalls + 0) (min sock.incoming.length (transport.movesIn sock.receiveCalls 0)) ≠
          none :=
      headersReceived_of_arrives blank works enough within (Nat.zero_le _) (by omega)
    rw [start, Nat.add_zero] at got
    obtain ⟨⟨j, calls, received⟩, read⟩ := Option.ne_none_iff_exists'.mp got
    rw [← start] at read
    obtain ⟨all, -, -, -, -, again, -⟩ := headersReceived_some
      (fun _ below => absurd below (Nat.not_lt_zero _))
      (fun _ below => absurd below (Nat.not_lt_zero _)) read
    rw [blank] at again
    cases again
    rw [start] at read
    exact ⟨calls, received, read⟩

/-- The bytes of an announced body that a reader gets are those that arrive behind
the block. -/
theorem le_bodyReceived_iff {sock : TenSocket} {calls received : Nat} (announced amount : Nat)
    (read : headersReceived transport sock.incoming (sock.incoming.length + 1)
      sock.receiveCalls 0 = some (i, calls, received)) :
    amount ≤ bodyReceived transport calls (sock.incoming.length - received) (received - (i + 4))
        announced ↔
      amount ≤ announced ∧ Arrives transport sock (i + 4 + amount) := by
  have start : min sock.incoming.length (transport.movesIn sock.receiveCalls 0) = 0 := by simp
  rw [← start] at read
  obtain ⟨all, rfl, rfl, works, enough, blank, -⟩ := headersReceived_some
    (fun _ below => absurd below (Nat.not_lt_zero _))
    (fun _ below => absurd below (Nat.not_lt_zero _)) read
  have inside := blank_within blank
  unfold Arrives
  rw [bodyReceived, ← Nat.sub_le_iff_le_add', le_bytesBrought_iff (Nat.lt_succ_self _),
    Transport.brings_behind works]
  generalize transport.movesIn sock.receiveCalls all = moved at enough ⊢
  -- the calls of the header reader may have moved more than there was
  by_cases wanted : amount ≤ announced ∧ i + 4 + amount ≤ sock.incoming.length
  · have missing : amount - min (min sock.incoming.length moved - (i + 4)) announced =
        i + 4 + amount - moved := by
      omega
    rw [missing]
    constructor
    · rintro ⟨-, -, brings⟩
      exact ⟨wanted.1, wanted.2, brings⟩
    · rintro ⟨-, -, brings⟩
      exact ⟨by omega, by omega, brings⟩
  · constructor
    · rintro ⟨inWanted, inLeft, -⟩
      omega
    · rintro ⟨inWanted, inLeft, -⟩
      exact absurd ⟨inWanted, inLeft⟩ wanted

end Reading

end Dotten
