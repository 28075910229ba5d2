/-
Module: Dotten.Library.CursorMoves
Layer: Library
Purpose: Programs that read a text through a cursor.  The text may be read in
  front of its end only, and the cursor may move on only, and not beyond the
  end; everything else gets stuck.
Imports: Dotten.Library.Block, Dotten.Library.IndexLoop
Main exports: moveTo, matchAt, Onward, Onward.behind, onward_fail, seen
-/
import Dotten.Library.Block
import Dotten.Library.IndexLoop

namespace Dotten.Library

variable {ρ τ α β : Type}

/-- `cursor = target` in a text of which `limit` is the end. -/
def moveTo (limit cursor target : Nat) : Prog ρ τ Nat :=
  ofOption (if cursor ≤ target ∧ target ≤ limit then some target else none)

/-- `memcmp` of the text from `i` on with a word: whether they are the same. -/
def matchAt [DecidableEq α] (text : List α) (i : Nat) (word : List α) : Prog ρ τ Bool := do
  let found ← ofOption (readBlock text i word.length)
  return found = word

section Moves

variable {limit cursor target : Nat}

theorem moveTo_eq (onward : cursor ≤ target) (inside : target ≤ limit) :
    (moveTo limit cursor target : Prog ρ τ Nat) = pure target := by
  rw [moveTo, if_pos ⟨onward, inside⟩, ofOption_some]

theorem matchAt_eq [DecidableEq α] {text word : List α} {i : Nat}
    (within : i + word.length ≤ text.length) :
    (matchAt text i word : Prog ρ τ Bool) =
      pure (decide ((text.drop i).take word.length = word)) := by
  rw [matchAt, readBlock, if_pos within, ofOption_some, pure_bind]

/-- What is left behind the first of what is left. -/
theorem drop_succ_of_drop {text : List α} {i : Nat} {a : α} {tail : List α}
    (rest : text.drop i = a :: tail) : text.drop (i + 1) = tail := by
  rw [← List.drop_drop, rest, List.drop_one, List.tail_cons]

theorem length_of_drop {text : List α} {i : Nat} {a : α} {tail : List α}
    (rest : text.drop i = a :: tail) : text.length = i + 1 + tail.length := by
  have length := congrArg List.length rest
  rw [List.length_drop, List.length_cons] at length
  omega

end Moves

/-! ### Calls -/

/-- What a call comes to that starts with the cursor at some place, where a call
that fails has no result: the cursor has not moved back, it is inside the text,
and a call that succeeds has moved it. -/
structure Onward (limit cursor : Nat) (Good : α → Prop) (reply : Option α × Nat) : Prop where
  onward : cursor ≤ reply.2
  inside : reply.2 ≤ limit
  success : ∀ a, reply.1 = some a → cursor < reply.2 ∧ Good a

section Calls

variable {limit cursor start : Nat} {Good : α → Prop} {reply : Option α × Nat}

/-- A call that starts later, as seen from a place in front of it. -/
theorem Onward.behind (call : Onward limit cursor Good reply) (before : start ≤ cursor) :
    Onward limit start Good reply where
  onward := Nat.le_trans before call.onward
  inside := call.inside
  success a same :=
    ⟨Nat.lt_of_le_of_lt before (call.success a same).1, (call.success a same).2⟩

/-- A call that fails where its cursor stands. -/
theorem onward_fail (before : start ≤ cursor) (inside : cursor ≤ limit) :
    Onward limit start Good (none, cursor) where
  onward := before
  inside := inside
  success a impossible := by cases impossible

/-- A call that succeeds. -/
theorem onward_done {a : α} (before : start < cursor) (inside : cursor ≤ limit) (good : Good a) :
    Onward limit start Good (some a, cursor) where
  onward := Nat.le_of_lt before
  inside := inside
  success b same := by
    cases same
    exact ⟨before, good⟩

/-- A result, with the text that is left behind the cursor. -/
def seen (text : List β) (reply : Option α × Nat) : Option (α × List β) :=
  reply.1.map fun a => (a, text.drop reply.2)

@[simp] theorem seen_none (text : List β) (cursor : Nat) :
    seen text ((none : Option α), cursor) = none := rfl

@[simp] theorem seen_some (text : List β) (a : α) (cursor : Nat) :
    seen text (some a, cursor) = some (a, text.drop cursor) := rfl

end Calls

end Dotten.Library
