/-
Module: Dotten.Process.TenProcess
Layer: Process
Purpose: ten__build_command_line of process_windows.c, which writes the line to a
  block whose size it has added up before, and what it writes.
Imports: Dotten.Core.World, Dotten.Library.Block, Dotten.Process.CommandLine
Main exports: needsQuotes, LineWriter, writeArgument, tenBuildCommandLine, piece,
  tailLine, commandLine, lineSize, length_commandLine, tenBuildCommandLine_spec,
  tenBuildCommandLine_wraps
-/
import Dotten.Core.World
import Dotten.Library.Block
import Dotten.Process.CommandLine
import Mathlib.Algebra.Ring.Nat

namespace Dotten

open Dotten.Library

/-- `malloc`, which leaves the error state as it is: whether it returns a block. -/
def libcMalloc : Ten Bool := fun grants world =>
  some (grants world.requests, { world with requests := world.requests + 1 })

/-- Whether an argument is put into double quotes. -/
def needsQuotes (arg : CString) : Bool :=
  space ∈ arg.bytes ∨ arg.bytes[0]? = none

/-- The block at `result`, and where `cursor` points to in it. -/
structure LineWriter where
  block : Bytes
  cursor : Nat
deriving DecidableEq, Repr

/-- Bytes are written at `cursor`, which moves on behind them. -/
def LineWriter.put (values : Bytes) (writer : LineWriter) : Ten LineWriter :=
  match writeBlock writer.block writer.cursor values with
  | none => stuck
  | some block => return { block, cursor := writer.cursor + values.length }

/-- `if (condition) *cursor++ = c`. -/
def LineWriter.putIf (condition : Bool) (c : Byte) (writer : LineWriter) : Ten LineWriter :=
  if condition then writer.put [c] else return writer

/-- The body of the second loop. -/
def writeArgument (i : Nat) (arg : CString) (writer : LineWriter) : Ten LineWriter := do
  let writer ← writer.putIf (i > 0) space
  let writer ← writer.putIf (needsQuotes arg) doubleQuote
  let writer ← writer.put arg.bytes
  writer.putIf (needsQuotes arg) doubleQuote

/-- The second loop, from the argument number `i` on. -/
def writeArguments : Nat → List CString → LineWriter → Ten LineWriter
  | _, [], writer => return writer
  | i, arg :: rest, writer => do
      let writer ← writeArgument i arg writer
      writeArguments (i + 1) rest writer

/-- `ten__build_command_line` of the arguments before the NULL, where `size_t` has
`width` bits and new memory holds what it holds: the block, or NULL. -/
def tenBuildCommandLine (width : Nat) (stale : Nat → Byte) (argv : List CString) :
    Ten (Option Bytes) := do
  let total := argv.foldl (fun total arg => (total + (arg.length + 3)) % 2 ^ width) 0
  let granted ← libcMalloc
  if granted then
    let block := (List.range ((total + 1) % 2 ^ width)).map stale
    let writer ← writeArguments 0 argv { block, cursor := 0 }
    let writer ← writer.put [0]
    return some writer.block
  else
    return none

/-- What is written of an argument. -/
def piece (arg : CString) : Bytes :=
  if needsQuotes arg then doubleQuote :: (arg.bytes ++ [doubleQuote]) else arg.bytes

/-- What is written behind the first argument. -/
def tailLine (args : List CString) : Bytes :=
  args.flatMap fun arg => space :: piece arg

/-- The line of the arguments. -/
def commandLine : List CString → Bytes
  | [] => []
  | arg :: rest => piece arg ++ tailLine rest

/-- The size of the block, as an integer. -/
def lineSize (argv : List CString) : Nat :=
  (argv.map fun arg => arg.length + 3).sum + 1

section Writing

variable {done values more : Bytes}

/-- The block starts with what has been written, and the cursor stands behind
it. -/
structure Written (done : Bytes) (writer : LineWriter) : Prop where
  cursor : writer.cursor = done.length
  there : done <+: writer.block

/-- A program that writes the values, or gets stuck when they do not fit the
block. -/
def Appends (program : LineWriter → Ten LineWriter) (values : Bytes) : Prop :=
  ∀ (done : Bytes) (writer : LineWriter), Written done writer →
    ∀ (grants : Schedule) (world : World),
      (done.length + values.length ≤ writer.block.length →
        ∃ next, program writer grants world = some (next, world) ∧
          Written (done ++ values) next ∧ next.block.length = writer.block.length) ∧
      (writer.block.length < done.length + values.length → program writer grants world = none)

theorem appends_put (values : Bytes) : Appends (LineWriter.put values) values := by
  intro done writer written grants world
  obtain ⟨rest, block⟩ := written.there
  constructor
  · intro fits
    have length : done.length + rest.length = writer.block.length := by
      rw [← block, List.length_append]
    have split : rest = rest.take values.length ++ rest.drop values.length :=
      (List.take_append_drop _ _).symm
    have short : (rest.take values.length).length = values.length := by
      rw [List.length_take]
      omega
    have write := writeBlock_append short done (rest.drop values.length)
    rw [← split, block, ← written.cursor, ← List.append_assoc] at write
    have length_eq := length_of_writeBlock write
    refine ⟨⟨_, writer.cursor + values.length⟩, ?_, ⟨?_, ?_⟩, length_eq⟩
    · rw [LineWriter.put, write]
      rfl
    · rw [List.length_append, ← written.cursor]
    · exact List.prefix_append _ _
  · intro small
    rw [LineWriter.put, writeBlock, written.cursor, if_neg (Nat.not_le.mpr small)]
    rfl

theorem appends_pure : Appends (fun writer => pure writer) [] := by
  intro done writer written grants world
  constructor
  · intro _
    refine ⟨writer, rfl, ?_, rfl⟩
    rw [List.append_nil]
    exact written
  · intro small
    have within := written.there.length_le
    rw [List.length_nil, Nat.add_zero] at small
    exact absurd within (Nat.not_le.mpr small)

theorem Appends.bind {first second : LineWriter → Ten LineWriter} (one : Appends first values)
    (two : Appends second more) :
    Appends (fun writer => first writer >>= second) (values ++ more) := by
  intro done writer written grants world
  change (_ → ∃ next, (first writer grants world).bind (fun out => second out.1 grants out.2) =
    some (next, world) ∧ _) ∧ (_ → (first writer grants world).bind
      (fun out => second out.1 grants out.2) = none)
  rw [List.length_append, ← Nat.add_assoc]
  by_cases fits : done.length + values.length ≤ writer.block.length
  · obtain ⟨next, run, writtenNext, length⟩ := (one done writer written grants world).1 fits
    have rest := two (done ++ values) next writtenNext grants world
    rw [List.length_append, length, List.append_assoc] at rest
    rw [run]
    exact rest
  · have small := Nat.lt_of_not_le fits
    constructor
    · intro all
      omega
    · intro _
      rw [(one done writer written grants world).2 small]
      rfl

theorem appends_putIf (condition : Bool) (c : Byte) :
    Appends (LineWriter.putIf condition c) (if condition then [c] else []) := by
  cases condition with
  | true => exact appends_put [c]
  | false => exact appends_pure

theorem appends_writeArgument (i : Nat) (arg : CString) :
    Appends (writeArgument i arg) ((if i > 0 then [space] else []) ++ piece arg) := by
  have quote := appends_putIf (needsQuotes arg) doubleQuote
  have all := (appends_putIf (i > 0) space).bind
    (quote.bind ((appends_put arg.bytes).bind quote))
  have same : (if needsQuotes arg then [doubleQuote] else []) ++
      (arg.bytes ++ if needsQuotes arg then [doubleQuote] else []) = piece arg := by
    unfold piece
    split
    · rfl
    · rw [List.nil_append, List.append_nil]
  simp only [decide_eq_true_eq] at all
  rw [same] at all
  exact all

theorem appends_writeArguments (args : List CString) :
    ∀ i, Appends (writeArguments (i + 1) args) (tailLine args) := by
  induction args with
  | nil =>
      intro i
      exact appends_pure
  | cons arg rest inductionHypothesis =>
      intro i
      have first := appends_writeArgument (i + 1) arg
      rw [if_pos (Nat.succ_pos i)] at first
      exact first.bind (inductionHypothesis (i + 1))

theorem appends_commandLine (argv : List CString) :
    Appends (writeArguments 0 argv) (commandLine argv) := by
  cases argv with
  | nil => exact appends_pure
  | cons arg rest =>
      have first := appends_writeArgument 0 arg
      rw [if_neg (Nat.lt_irrefl 0), List.nil_append] at first
      exact first.bind (appends_writeArguments rest 0)

end Writing

section Sizes

variable {width : Nat} {argv : List CString}

theorem length_piece (arg : CString) :
    arg.length ≤ (piece arg).length ∧ (piece arg).length ≤ arg.length + 2 := by
  unfold piece CString.length
  split
  · simp only [List.length_cons, List.length_append, List.length_nil]
    omega
  · omega

theorem length_tailLine (args : List CString) :
    (tailLine args).length + 2 * args.length + 1 ≥ lineSize args ∧
      (tailLine args).length + 1 ≤ lineSize args := by
  unfold tailLine lineSize
  induction args with
  | nil => exact ⟨Nat.le_refl _, Nat.le_refl _⟩
  | cons arg rest inductionHypothesis =>
      have one := length_piece arg
      simp only [List.flatMap_cons, List.length_append, List.length_cons, List.map_cons,
        List.sum_cons] at inductionHypothesis ⊢
      omega

/-- The line with its NUL fits the block, and fills all of it but a few bytes for
each argument. -/
theorem length_commandLine (argv : List CString) :
    (commandLine argv).length + 1 ≤ lineSize argv ∧
      lineSize argv ≤ (commandLine argv).length + 2 * argv.length + 2 := by
  cases argv with
  | nil => exact ⟨Nat.le_refl _, Nat.le_succ _⟩
  | cons arg rest =>
      have one := length_piece arg
      have others := length_tailLine rest
      have total : lineSize (arg :: rest) = arg.length + 3 + lineSize rest := by
        unfold lineSize
        rw [List.map_cons, List.sum_cons, Nat.add_assoc]
      rw [total, commandLine, List.length_append, List.length_cons]
      omega

theorem foldl_size (argv : List CString) :
    ∀ total < 2 ^ width, argv.foldl (fun total arg => (total + (arg.length + 3)) % 2 ^ width) total =
      (total + (argv.map fun arg => arg.length + 3).sum) % 2 ^ width := by
  induction argv with
  | nil =>
      intro total small
      exact (Nat.mod_eq_of_lt small).symm
  | cons arg rest inductionHypothesis =>
      intro total small
      rw [List.foldl_cons, inductionHypothesis _ (Nat.mod_lt _ (Nat.two_pow_pos width)),
        Nat.mod_add_mod, List.map_cons, List.sum_cons, Nat.add_assoc]

/-- The size that is asked for. -/
theorem asked_size (width : Nat) (argv : List CString) :
    (argv.foldl (fun total arg => (total + (arg.length + 3)) % 2 ^ width) 0 + 1) % 2 ^ width =
      lineSize argv % 2 ^ width := by
  rw [foldl_size argv 0 (Nat.two_pow_pos width), Nat.zero_add, Nat.mod_add_mod]
  rfl

end Sizes

section Building

variable {width : Nat} {stale : Nat → Byte} {argv : List CString} {grants : Schedule}
  {world : World}

theorem piece_noNul (arg : CString) : (0 : Byte) ∉ piece arg := by
  unfold piece
  have quote : (0 : Byte) ≠ doubleQuote := by decide
  split
  · simp [quote, arg.noNul]
  · exact arg.noNul

theorem tailLine_noNul (args : List CString) : (0 : Byte) ∉ tailLine args := by
  intro member
  obtain ⟨arg, -, here⟩ := List.mem_flatMap.mp member
  rcases List.mem_cons.mp here with impossible | inPiece
  · cases impossible
  · exact piece_noNul arg inPiece

theorem commandLine_noNul (argv : List CString) : (0 : Byte) ∉ commandLine argv := by
  cases argv with
  | nil => exact List.not_mem_nil
  | cons arg rest =>
      rw [commandLine, List.mem_append, not_or]
      exact ⟨piece_noNul arg, tailLine_noNul rest⟩

theorem appends_all (argv : List CString) :
    Appends (fun writer => writeArguments 0 argv writer >>= LineWriter.put [0])
      (commandLine argv ++ [0]) :=
  (appends_commandLine argv).bind (appends_put [0])

/-- When the sizes add up without wrapping, the builder stays inside the block and
leaves the line there. -/
theorem tenBuildCommandLine_spec (fits : lineSize argv < 2 ^ width) :
    Returns (tenBuildCommandLine width stale argv) grants world (fun result _ =>
      (grants world.requests = true → ∃ block, result = some block) ∧
        ∀ block, result = some block → block.length = lineSize argv ∧
          (CString.ofMemory block).bytes = commandLine argv) := by
  unfold tenBuildCommandLine
  dsimp only
  rw [asked_size, Nat.mod_eq_of_lt fits]
  let fresh : LineWriter := { block := (List.range (lineSize argv)).map stale, cursor := 0 }
  have sized : fresh.block.length = lineSize argv := by
    rw [List.length_map, List.length_range]
  have start : Written [] fresh := ⟨rfl, List.nil_prefix⟩
  have room := (length_commandLine argv).1
  obtain ⟨last, run, written, length⟩ := (appends_all argv [] fresh start grants
    { world with requests := world.requests + 1 }).1 (by
      rw [List.length_append, List.length_nil, List.length_singleton, sized]
      omega)
  rw [returns_bind]
  refine ⟨grants world.requests, _, rfl, ?_⟩
  cases grants world.requests with
  | false =>
      rw [if_neg Bool.false_ne_true, returns_pure]
      refine ⟨fun impossible => absurd impossible Bool.false_ne_true, ?_⟩
      intro block impossible
      cases impossible
  | true =>
      rw [if_pos rfl]
      have program : (do
          let writer ← writeArguments 0 argv fresh
          let writer ← writer.put [0]
          return some writer.block) = (fun writer : LineWriter => some writer.block) <$>
            (writeArguments 0 argv fresh >>= LineWriter.put [0]) := by
        simp only [map_eq_pure_bind, bind_assoc]
      change Returns (do
          let writer ← writeArguments 0 argv fresh
          let writer ← writer.put [0]
          return some writer.block) _ _ _
      rw [program, returns_map, returns_iff_of_run run]
      refine ⟨fun _ => ⟨_, rfl⟩, ?_⟩
      intro block same
      cases same
      obtain ⟨rest, there⟩ := written.there
      refine ⟨length.trans sized, ?_⟩
      have content := CString.ofMemory_append_nul ⟨commandLine argv, commandLine_noNul argv⟩ rest
      rw [← there, List.nil_append, List.append_assoc, List.singleton_append, content]

/-- When they wrap, the block is too small, whatever the allocator gives. -/
theorem tenBuildCommandLine_wraps (wraps : 2 ^ width ≤ lineSize argv)
    (addressable : argv.length < 2 ^ (width - 1)) (wide : 0 < width)
    (granted : grants world.requests = true) :
    tenBuildCommandLine width stale argv grants world = none := by
  have twice : 2 ^ width = 2 ^ (width - 1) * 2 := by
    rw [← Nat.pow_succ]
    congr 1
    omega
  have less : lineSize argv % 2 ^ width ≤ lineSize argv - 2 ^ width := by
    rw [Nat.mod_eq_sub_mod wraps]
    exact Nat.mod_le _ _
  have most := (length_commandLine argv).2
  let fresh : LineWriter :=
    { block := (List.range (lineSize argv % 2 ^ width)).map stale, cursor := 0 }
  have sized : fresh.block.length = lineSize argv % 2 ^ width := by
    rw [List.length_map, List.length_range]
  have start : Written [] fresh := ⟨rfl, List.nil_prefix⟩
  have run := (appends_all argv [] fresh start grants
    { world with requests := world.requests + 1 }).2 (by
      rw [List.length_append, List.length_nil, List.length_singleton, sized]
      omega)
  have program : tenBuildCommandLine width stale argv = (do
      let granted ← libcMalloc
      if granted then
        (fun writer : LineWriter => some writer.block) <$>
          (writeArguments 0 argv fresh >>= LineWriter.put [0])
      else
        return none) := by
    unfold tenBuildCommandLine
    dsimp only
    rw [asked_size]
    simp only [map_eq_pure_bind, bind_assoc]
    rfl
  rw [program]
  change (if grants world.requests = true then _ else _ : Ten (Option Bytes)) grants _ = none
  rw [if_pos granted, map_eq_pure_bind]
  change (writeArguments 0 argv fresh >>= LineWriter.put [0]) grants _ = none at run
  change Option.bind _ _ = none
  rw [run]
  rfl

end Building

end Dotten
