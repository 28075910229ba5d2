/-
Module: Dotten.Library.IndexLoop
Layer: Library
Purpose: Loops that read an array through an index and fill a block from the
  front through another.  A read outside the array and a write outside the block
  get stuck.  A loop whose passes read the words of a code takes the same course
  as the loop over the text itself.
Imports: Dotten.Library.Returns, Dotten.Library.PrefixCode
Main exports: readAt, Output, Output.after, Output.putAll_after,
  Output.close_after, Pass, indexLoop, indexLoop_eq_scanWords,
  Reads.indexLoop_counts, Reads.indexLoop_writes
-/
import Dotten.Library.Returns
import Dotten.Library.PrefixCode

namespace Dotten.Library

variable {ρ τ α β σ γ : Type}

/-- The value of an option, where there is one. -/
def ofOption (value : Option α) : Prog ρ τ α := fun _ t => value.map (·, t)

@[simp] theorem ofOption_some (a : α) : (ofOption (some a) : Prog ρ τ α) = pure a := rfl

/-- `input[i]`. -/
def readAt (input : List α) (i : Nat) : Prog ρ τ α := ofOption input[i]?

theorem readAt_of_lt {input : List α} {i : Nat} (below : i < input.length) :
    (readAt input i : Prog ρ τ α) = pure input[i] := by
  rw [readAt, List.getElem?_eq_getElem below, ofOption_some]

/-- A read behind the index, as a read of what is left from there on. -/
theorem readAt_add (input : List α) (i offset : Nat) :
    (readAt input (i + offset) : Prog ρ τ α) = ofOption (input.drop i)[offset]? := by
  rw [readAt, List.getElem?_drop]

/-- A read of the first of what is left. -/
theorem readAt_of_drop {input : List α} {i : Nat} {a : α} {tail : List α}
    (rest : input.drop i = a :: tail) : (readAt input i : Prog ρ τ α) = pure a := by
  have first : input[i]? = some a := by
    rw [← Nat.add_zero i, ← List.getElem?_drop, rest, List.getElem?_cons_zero]
  rw [readAt, first, ofOption_some]

/-! ### Blocks that are filled -/

/-- A block, with `none` where nothing has been written, and the index of the
next write. -/
structure Output (α : Type) where
  block : List (Option α)
  pos : Nat
deriving DecidableEq, Repr

namespace Output

/-- A new block. -/
def fresh (size : Nat) : Output α where
  block := List.replicate size none
  pos := 0

/-- `out[pos] = value`. -/
def close (value : α) (out : Output α) : Prog ρ τ (List (Option α)) :=
  ofOption (if out.pos < out.block.length then some (out.block.set out.pos (some value)) else none)

/-- `out[pos++] = value`. -/
def put (value : α) (out : Output α) : Prog ρ τ (Output α) := do
  let block ← out.close value
  return { block, pos := out.pos + 1 }

/-- The writes of some values, one after another. -/
def putAll : List α → Output α → Prog ρ τ (Output α)
  | [], out => return out
  | value :: rest, out => do
      let out ← out.put value
      putAll rest out

/-- A block that holds the values that have been written, with room for more. -/
def after (done : List α) (room : Nat) : Output α where
  block := done.map some ++ List.replicate room none
  pos := done.length

theorem close_after (value : α) (done : List α) (room : Nat) :
    ((after done (room + 1)).close value : Prog ρ τ (List (Option α))) =
      pure ((done ++ [value]).map some ++ List.replicate room none) := by
  have within : done.length < (done.map some ++ List.replicate (room + 1) none).length := by
    rw [List.length_append, List.length_map, List.length_replicate]
    omega
  have behind : ¬ done.length < (done.map some).length := by
    rw [List.length_map]
    exact Nat.lt_irrefl _
  rw [close, after, if_pos within, List.set_append, if_neg behind, List.length_map, Nat.sub_self,
    List.replicate_succ, List.set_cons_zero, ofOption_some, List.map_append, List.append_assoc]
  rfl

theorem put_after (value : α) (done : List α) (room : Nat) :
    ((after done (room + 1)).put value : Prog ρ τ (Output α)) =
      pure (after (done ++ [value]) room) := by
  rw [put, close_after, pure_bind, after, after, List.length_append]
  rfl

/-- Values that the block has room for. -/
theorem putAll_after (values done : List α) (room : Nat) :
    ((after done (values.length + room)).putAll values : Prog ρ τ (Output α)) =
      pure (after (done ++ values) room) := by
  induction values generalizing done with
  | nil =>
      rw [List.length_nil, Nat.zero_add, List.append_nil]
      rfl
  | cons value rest inductionHypothesis =>
      have room_eq : (value :: rest).length + room = rest.length + room + 1 := by
        rw [List.length_cons]
        omega
      rw [putAll, room_eq, put_after, pure_bind, inductionHypothesis, List.append_assoc]
      rfl

end Output

/-! ### Loops -/

/-- What a pass of a loop comes to: the index and the state of the next pass, or
the result with which the function is left. -/
inductive Pass (σ γ : Type) where
  | on (i : Nat) (s : σ)
  | leave (result : γ)

/-- A loop that runs while the index is below `limit`, with a bound on its
passes. -/
def indexLoop (limit : Nat) (body : Nat → σ → Prog ρ τ (Pass σ γ)) (done : σ → Prog ρ τ γ) :
    Nat → Nat → σ → Prog ρ τ γ
  | bound, i, s =>
      if i < limit then
        match bound with
        | 0 => ofOption none
        | bound + 1 => do
            match ← body i s with
            | .on i s => indexLoop limit body done bound i s
            | .leave result => return result
      else
        done s

section Simulation

variable {text : List β} {next : List β → Option (α × Nat)} {body : Nat → σ → Prog ρ τ (Pass σ γ)}
  {done : σ → Prog ρ τ γ} {ω : Type} {late fail : Prog ρ τ γ} {finish : ω → Prog ρ τ γ}
  {step : ω → α → ω} {R : Nat → σ → ω → Prop}

/-- The passes read one word after the other, and `R` relates the states of the
two loops before each of them. -/
theorem indexLoop_eq_scanWords
    (rejected : ∀ i s w, i < text.length → R i s w → next (text.drop i) = none →
      body i s = (fun result => .leave result) <$> fail)
    (accepted : ∀ i s w a n, i < text.length → R i s w → next (text.drop i) = some (a, n) →
      0 < n ∧ ∃ s', body i s = pure (.on (i + n) s') ∧ R (i + n) s' (step w a))
    (last : ∀ i s w, text.length ≤ i → R i s w → done s = finish w) :
    ∀ (bound i : Nat) (s : σ) (w : ω), text.length ≤ i + bound → R i s w →
      indexLoop text.length body done bound i s =
        scanWords next late fail finish step bound (text.drop i) w := by
  intro bound
  induction bound with
  | zero =>
      intro i s w enough related
      have beyond : text.length ≤ i := enough
      rw [indexLoop, if_neg (Nat.not_lt.mpr beyond), List.drop_eq_nil_of_le beyond, scanWords,
        last i s w beyond related]
  | succ bound inductionHypothesis =>
      intro i s w enough related
      by_cases below : i < text.length
      · obtain ⟨head, tail, rest⟩ := List.exists_cons_of_length_pos (l := text.drop i) (by
          rw [List.length_drop]
          omega)
        rw [indexLoop, if_pos below, rest, scanWords, ← rest]
        cases found : next (text.drop i) with
        | none =>
            rw [rejected i s w below related found, map_eq_pure_bind, bind_assoc]
            simp only [pure_bind, bind_pure]
        | some hit =>
            obtain ⟨a, n⟩ := hit
            obtain ⟨positive, s', run, relatedNext⟩ := accepted i s w a n below related found
            rw [run, pure_bind]
            dsimp only
            rw [inductionHypothesis (i + n) s' (step w a) (by omega) relatedNext, List.drop_drop]
      · have beyond := Nat.le_of_not_lt below
        rw [indexLoop, if_neg below, List.drop_eq_nil_of_le beyond, scanWords,
          last i s w beyond related]

end Simulation

section Passes

variable {δ : Type} {valid : α → Prop} {word : α → List β} {next : List β → Option (α × Nat)}
  (reads : Reads valid word next) {text : List β} {letters : List α}

include reads

/-- A loop that adds up what the letters come to, where the sums stay below a
multiple of the index. -/
theorem Reads.indexLoop_counts {body : Nat → Nat → Prog ρ τ (Pass Nat (Option Nat))} {size : α → Nat}
    (most : Nat) {late fail : Prog ρ τ (Option Nat)}
    (rejected : ∀ i n, i < text.length → n ≤ most * i → next (text.drop i) = none →
      body i n = (fun result => .leave result) <$> fail)
    (accepted : ∀ i n a k, i < text.length → n ≤ most * i → next (text.drop i) = some (a, k) →
      body i n = pure (.on (i + k) (n + size a)))
    (sizes : ∀ a, valid a → size a ≤ most * (word a).length) :
    indexLoop text.length body (fun n => return some n) text.length 0 0 =
      scanWords next late fail (fun n => return some n) (fun n a => n + size a) text.length text
        0 := by
  refine indexLoop_eq_scanWords (R := fun i n m => n = m ∧ n ≤ most * i) ?_ ?_ ?_ text.length 0 0 0
    (by omega) ⟨rfl, Nat.zero_le _⟩
  · rintro i n m below ⟨-, bounded⟩ found
    exact rejected i n below bounded found
  · rintro i n m a k below ⟨rfl, bounded⟩ found
    obtain ⟨here, -, rfl⟩ := reads.next_iff.mp found
    have more := sizes a here
    refine ⟨List.length_pos_of_ne_nil (reads.nonempty here), _, accepted i n a _ below bounded found,
      rfl, ?_⟩
    rw [Nat.mul_add]
    exact Nat.add_le_add bounded more
  · rintro i n m - ⟨rfl, -⟩
    rfl

/-- A loop that writes the letters of a text that is spelled fills a block that
has been sized for them. -/
theorem Reads.indexLoop_writes {body : Nat → Output δ → Prog ρ τ (Pass (Output δ) (List (Option δ)))}
    {write : α → List δ} {zero : δ}
    (accepted : ∀ i out a k, i < text.length → next (text.drop i) = some (a, k) →
      body i out = (do
        let out ← out.putAll (write a)
        return .on (i + k) out))
    (spells : Spells valid word letters text) :
    indexLoop text.length body (Output.close zero) text.length 0
        (Output.fresh ((letters.flatMap write).length + 1)) =
      pure ((letters.flatMap write ++ [zero]).map some) := by
  have filled : ∀ (bound i : Nat) (out : Output δ) (done : List δ), text.length ≤ i + bound →
      (∃ rest, Spells valid word rest (text.drop i) ∧
        out = Output.after done ((rest.flatMap write).length + 1)) →
      indexLoop text.length body (Output.close zero) bound i out =
        scanWords next (ofOption none) (ofOption none)
          (fun done => pure ((done ++ [zero]).map some)) (fun done a => done ++ write a) bound
          (text.drop i) done := by
    refine indexLoop_eq_scanWords ?_ ?_ ?_
    · rintro i out done below ⟨rest, spellsRest, -⟩ found
      have remains : text.drop i ≠ [] := fun empty => by
        rw [List.drop_eq_nil_iff] at empty
        omega
      obtain ⟨_, _, -, read, -⟩ := reads.next_of_spells spellsRest remains
      rw [read] at found
      cases found
    · rintro i out done a k below ⟨rest, spellsRest, rfl⟩ found
      have remains : text.drop i ≠ [] := fun empty => by
        rw [List.drop_eq_nil_iff] at empty
        omega
      obtain ⟨b, rest, rfl, read, later⟩ := reads.next_of_spells spellsRest remains
      obtain ⟨here, -, -⟩ := reads.next_iff.mp read
      rw [read] at found
      cases found
      rw [List.drop_drop] at later
      refine ⟨List.length_pos_of_ne_nil (reads.nonempty here),
        Output.after (done ++ write a) ((rest.flatMap write).length + 1), ?_, rest, later, rfl⟩
      rw [accepted i _ a _ below read, List.flatMap_cons, List.length_append, Nat.add_assoc,
        Output.putAll_after, pure_bind]
    · rintro i out done beyond ⟨rest, spellsRest, rfl⟩
      rw [List.drop_eq_nil_of_le beyond, reads.spells_empty_iff] at spellsRest
      subst spellsRest
      rw [List.flatMap_nil, List.length_nil, Output.close_after]
      exact congrArg pure (List.append_nil _)
  have start := filled text.length 0 _ [] (by omega) ⟨letters, spells, rfl⟩
  rw [List.drop_zero, reads.scanWords_of_spells id (Nat.le_refl _) spells,
    foldl_append_word (fun _ _ => rfl), List.nil_append] at start
  exact start

end Passes

end Dotten.Library
