/-
Module: Dotten.Memory.JsonClientRuns
Layer: Memory
Purpose: Whatever a program does with the JSON functions, in whatever order, and
  whichever allocations are refused: no block is read or freed that is not in use,
  the blocks in use are those of the values and texts that are held, and the
  program sees what it would see if nothing had to be freed.
Imports: Dotten.Memory.JsonClient
Main exports: client_run_blocks, client_run_plain, parse_blocks
-/
import Dotten.Memory.JsonClient

namespace Dotten

open Dotten.Library

section Letters

variable {grants : Schedule} {keys : CString → Prop}

/-- The letters `k` and `m` as keys. -/
def isLetterKey (key : CString) : Prop :=
  key.bytes = asciiBytes ['k'] ∨ key.bytes = asciiBytes ['m']

theorem hashesApart_letters : HashesApart isLetterKey := by
  rintro left right (leftIs | leftIs) (rightIs | rightIs) same
  · exact CString.ext (leftIs.trans rightIs.symm)
  · rw [leftIs, rightIs] at same
    exact absurd same (by decide)
  · rw [leftIs, rightIs] at same
    exact absurd same (by decide)
  · exact CString.ext (leftIs.trans rightIs.symm)

/-- Nothing can be read as a string where there is no quotation mark. -/
theorem keysWithin_of_noQuote {text : Bytes} (noQuote : ascii '"' ∉ text) :
    KeysWithin grants text keys := by
  intro p suffix world string rest after run
  cases p with
  | nil => cases run
  | cons c p =>
      have different : c ≠ ascii '"' := by
        rintro rfl
        exact noQuote (suffix.subset List.mem_cons_self)
      rw [tenJsonParseString, if_pos different] at run
      cases run

/-- An object that is built from a string and a parsed array, with the eighth
request refused. -/
def letterCalls : List (Call Int) :=
  [.make .object, .make (.parse (some ⟨asciiBytes ['[', '1', ']'], by decide⟩)),
    .make (.string (some ⟨asciiBytes ['x'], by decide⟩)),
    .objectSet 2 (some ⟨asciiBytes ['k'], by decide⟩) 0,
    .objectSet 1 (some ⟨asciiBytes ['m'], by decide⟩) 0, .stringify 0]

theorem named_letterCalls (grants : Schedule) :
    ∀ call ∈ letterCalls, call.Named grants isLetterKey := by
  refine List.forall_mem_cons.mpr ⟨trivial, List.forall_mem_cons.mpr ⟨?_, List.forall_mem_cons.mpr
    ⟨trivial, List.forall_mem_cons.mpr ⟨?_, List.forall_mem_cons.mpr ⟨?_, List.forall_mem_cons.mpr
      ⟨trivial, List.forall_mem_nil _⟩⟩⟩⟩⟩⟩
  · rintro _ ⟨⟩
    exact keysWithin_of_noQuote (by decide)
  · rintro _ ⟨⟩
    exact .inl rfl
  · rintro _ ⟨⟩
    exact .inr rfl

/-- The text `{"k":0}`. -/
def letterText : CString :=
  ⟨asciiBytes ['{', '"', 'k', '"', ':', '0', '}'], by decide⟩

/-- The only string in the text is `k`. -/
theorem keysWithin_letterText : KeysWithin (fun _ => true) letterText.bytes isLetterKey := by
  intro p suffix world string rest after run
  have noNul : (0 : Byte) ∉ p := fun zero => letterText.noNul (suffix.subset zero)
  obtain ⟨-, text, split, -⟩ :=
    (tenJsonParseString_sound noNul).eq run string rest rfl
  have char : CharsText Dialect.accepted (asciiBytes ['k']) (asciiBytes ['k']) :=
    .cons (.raw (show ascii 'k' ≠ 0 by decide) (by decide) (by decide)) .nil
  have place := List.suffix_iff_eq_drop.mp suffix
  have short : p.length ≤ 7 := suffix.length_le
  interval_cases p.length
  · rw [place] at split
    cases split
  · rw [place] at split
    cases split
  · rw [place] at split
    cases split
  · rw [place] at split
    cases split
  · -- the closing quotation mark: there is no other behind it
    rw [place] at split
    have behind := (List.cons.inj split).2
    have inside : ascii '"' ∈ text ++ ascii '"' :: rest := by simp
    rw [← behind] at inside
    exact absurd inside (by decide)
  · rw [place] at split
    cases split
  · rw [place] at run
    have kept := Returns.eq (tenJsonParseString_kept char (asciiBytes [':', '0', '}'])) run
    obtain ⟨none, -⟩ | ⟨read, same, -, content⟩ := kept
    · cases none
    · cases same
      exact .inl (content (.inl ample_always))
  · rw [place] at split
    cases split

end Letters

section Runs

variable {D : Type} [CDouble D] {grants : Schedule} {keys : CString → Prop}

/-- A program that starts with nothing and uses the JSON functions in any order on
the values it holds, whichever allocations are refused, never touches a block that
it does not own: the blocks in use are always those of what it holds, and when it
has destroyed that, there are none. -/
theorem client_run_blocks (apart : HashesApart keys) (calls : List (Call D))
    (named : ∀ call ∈ calls, call.Named grants keys) :
    Returns (Client.run (heapApi D) calls .start) grants Heap.start (fun client heap =>
      heap.blocks = client.blocks ∧
        Returns (client.destroyAll (heapApi D)) grants heap (fun _ last => last.live = ∅)) := by
  have empty : Client.Sound keys (.start : Client (OwnedJson D) OwnedText) :=
    List.forall_mem_nil _
  apply (owns_run apart calls _ empty named Heap.start 0 rfl).mono
  rintro client heap ⟨held, sound⟩
  rw [add_zero] at held
  refine ⟨held, ?_⟩
  apply (owns_destroyAll apart sound heap 0 (held.trans (add_zero _).symm)).mono
  rintro ⟨⟩ last ⟨nothing, -⟩
  exact Finset.val_eq_zero.mp nothing

theorem client_run_blocks_letters :
    Returns (Client.run (heapApi Int) letterCalls .start) (fun request => request != 7)
      Heap.start (fun client heap => heap.blocks = client.blocks ∧
        Returns (client.destroyAll (heapApi Int)) (fun request => request != 7) heap
          (fun _ last => last.live = ∅)) :=
  client_run_blocks hashesApart_letters letterCalls (named_letterCalls _)

/-- Such a program sees the same values, texts and return codes as one that runs the
functions on values without blocks. -/
theorem client_run_plain (apart : HashesApart keys) (calls : List (Call D))
    (named : ∀ call ∈ calls, call.Named grants keys) :
    Returns (Client.run (heapApi D) calls .start) grants Heap.start (fun client heap =>
      ∃ world, Client.run (plainApi D) calls .start grants default =
          some (client.forget, world) ∧ heap.world.requests = world.requests) := by
  have empty : Client.Sound keys (.start : Client (OwnedJson D) OwnedText) :=
    List.forall_mem_nil _
  obtain ⟨client, heap, run, -⟩ := owns_run apart calls _ empty named Heap.start 0 rfl
  refine ⟨client, heap, run, ?_⟩
  exact Erases.run (keeps_run calls .start) (Eq.refl Heap.start.world.requests) run

theorem client_run_plain_letters :
    Returns (Client.run (heapApi Int) letterCalls .start) (fun request => request != 7)
      Heap.start (fun client heap => ∃ world,
        Client.run (plainApi Int) letterCalls .start (fun request => request != 7) default =
          some (client.forget, world) ∧ heap.world.requests = world.requests) :=
  client_run_plain hashesApart_letters letterCalls (named_letterCalls _)

/-- Parsing a text allocates exactly the blocks of the value that is returned,
frees every other block that it allocated, and touches no block of anything
else; and the value is that of the plain parser. -/
theorem parse_blocks (apart : HashesApart keys) (text : CString)
    (within : KeysWithin grants text.bytes keys) (heap : Heap) :
    Returns (Heap.tenJsonParse (D := D) (some text)) grants heap (fun reply after =>
      after.blocks = ownsOption OwnedJson.blocks reply + heap.blocks ∧
        ∃ world, tenJsonParse (some text) grants heap.world =
          some (reply.map OwnedJson.forget, world)) := by
  have owns : Heap.Owns grants 0 (Heap.tenJsonParse (D := D) (some text))
      (ownsOption OwnedJson.blocks) (Heap.NewValue keys) :=
    Heap.owns_tenJsonParse apart (by rintro _ ⟨⟩; exact within)
  obtain ⟨reply, after, run, held, -⟩ := owns heap heap.blocks (zero_add _).symm
  obtain ⟨world, plainRun, -⟩ :=
    Erases.run (Heap.keeps_tenJsonParse (some text)) (Eq.refl heap.world.requests) run
  exact ⟨reply, after, run, held, world, plainRun⟩

theorem parse_blocks_letterText :
    Returns (Heap.tenJsonParse (D := Int) (some letterText)) (fun _ => true) Heap.start
      (fun reply after => after.blocks = ownsOption OwnedJson.blocks reply + Heap.start.blocks ∧
        ∃ world, tenJsonParse (some letterText) (fun _ => true) Heap.start.world =
          some (reply.map OwnedJson.forget, world)) :=
  parse_blocks hashesApart_letters letterText keysWithin_letterText Heap.start

end Runs

end Dotten
