/-
Module: Dotten.Library.PrefixCode
Layer: Library
Purpose: Codes whose words are read off a text from the left: a function that
  reads the first word, and what reading word by word then gives.  Nothing here
  is specific to one alphabet.
Main exports: Spells, Reads, readWords, scanWords,
  length_flatMap_le, Reads.next_of_spells, Reads.readWords_eq_some_iff,
  Reads.spells_unique, Reads.scanWords_of_spells, Reads.scanWords_of_not_spells
-/
import Mathlib.Data.List.Basic
import Mathlib.Data.List.Infix

namespace Dotten.Library

variable {α β : Type}

/-- A text is the words of valid letters, one after another. -/
structure Spells (valid : α → Prop) (word : α → List β) (letters : List α) (text : List β) :
    Prop where
  valid : ∀ letter ∈ letters, valid letter
  text : letters.flatMap word = text

/-- `next` reads the first word of a text: the letter, and the length of its
word. -/
structure Reads (valid : α → Prop) (word : α → List β) (next : List β → Option (α × Nat)) :
    Prop where
  nonempty : ∀ {letter}, valid letter → word letter ≠ []
  next_iff : ∀ {text letter n}, next text = some (letter, n) ↔
    valid letter ∧ word letter <+: text ∧ n = (word letter).length

/-- The letters of a text, as many as a bound allows. -/
def readWords (next : List β → Option (α × Nat)) : Nat → List β → Option (List α)
  | _, [] => some []
  | 0, _ :: _ => none
  | bound + 1, text@(_ :: _) =>
      match next text with
      | none => none
      | some (letter, n) => (readWords next bound (text.drop n)).map (letter :: ·)

/-- A loop over the words of a text: `step` takes account of a letter, `done`
closes the loop, `fail` leaves it where no word can be read, and `late` is what
becomes of a loop that outruns its bound. -/
def scanWords {σ γ : Type} (next : List β → Option (α × Nat)) (late fail : γ) (done : σ → γ)
    (step : σ → α → σ) : Nat → List β → σ → γ
  | _, [], s => done s
  | 0, _ :: _, _ => late
  | bound + 1, text@(_ :: _), s =>
      match next text with
      | none => fail
      | some (letter, n) => scanWords next late fail done step bound (text.drop n) (step s letter)

section Spelling

variable {valid : α → Prop} {word : α → List β} {letter : α} {letters : List α} {text : List β}

theorem spells_nil : Spells valid word [] [] where
  valid := by simp
  text := rfl

theorem Spells.cons (here : valid letter) (rest : Spells valid word letters text) :
    Spells valid word (letter :: letters) (word letter ++ text) where
  valid := List.forall_mem_cons.mpr ⟨here, rest.valid⟩
  text := by rw [List.flatMap_cons, rest.text]

/-- A spelling that starts with a letter starts with its word. -/
theorem spells_cons_iff :
    Spells valid word (letter :: letters) text ↔
      valid letter ∧ word letter <+: text ∧
        Spells valid word letters (text.drop (word letter).length) := by
  constructor
  · rintro ⟨all, rfl⟩
    obtain ⟨here, later⟩ := List.forall_mem_cons.mp all
    rw [List.flatMap_cons, List.drop_left]
    exact ⟨here, List.prefix_append _ _, later, rfl⟩
  · rintro ⟨here, ⟨rest, rfl⟩, spells⟩
    rw [List.drop_left] at spells
    exact spells.cons here

theorem Spells.append {more : List α} {texts : List β} (first : Spells valid word letters text)
    (second : Spells valid word more texts) :
    Spells valid word (letters ++ more) (text ++ texts) where
  valid := List.forall_mem_append.mpr ⟨first.valid, second.valid⟩
  text := by rw [List.flatMap_append, first.text, second.text]

/-- The text of valid letters. -/
theorem spells_flatMap (all : ∀ letter ∈ letters, valid letter) :
    Spells valid word letters (letters.flatMap word) where
  valid := all
  text := rfl

/-- Counting the symbols of the words. -/
theorem foldl_length_word {size : α → Nat} (sizes : ∀ letter ∈ letters, size letter =
    (word letter).length) (start : Nat) :
    letters.foldl (fun count letter => count + size letter) start =
      start + (letters.flatMap word).length := by
  induction letters generalizing start with
  | nil => rfl
  | cons letter letters inductionHypothesis =>
      obtain ⟨here, later⟩ := List.forall_mem_cons.mp sizes
      rw [List.foldl_cons, inductionHypothesis later, here, List.flatMap_cons, List.length_append,
        Nat.add_assoc]

/-- Writing the words one after another. -/
theorem foldl_append_word {write : α → List β} (words : ∀ letter ∈ letters, write letter =
    word letter) (start : List β) :
    letters.foldl (fun out letter => out ++ write letter) start =
      start ++ letters.flatMap word := by
  induction letters generalizing start with
  | nil => rw [List.foldl_nil, List.flatMap_nil, List.append_nil]
  | cons letter letters inductionHypothesis =>
      obtain ⟨here, later⟩ := List.forall_mem_cons.mp words
      rw [List.foldl_cons, inductionHypothesis later, here, List.flatMap_cons, List.append_assoc]

/-- Where no word of the one code is longer than a multiple of the other's, no
text is. -/
theorem length_flatMap_le {γ : Type} {word : α → List β} {other : α → List γ} {most : Nat}
    (words : ∀ letter, (word letter).length ≤ most * (other letter).length) (letters : List α) :
    (letters.flatMap word).length ≤ most * (letters.flatMap other).length := by
  induction letters with
  | nil => exact Nat.zero_le _
  | cons letter letters inductionHypothesis =>
      rw [List.flatMap_cons, List.flatMap_cons, List.length_append, List.length_append, Nat.mul_add]
      exact Nat.add_le_add (words letter) inductionHypothesis

end Spelling

namespace Reads

variable {valid : α → Prop} {word : α → List β} {next : List β → Option (α × Nat)}
  (reads : Reads valid word next) {letters more : List α} {text : List β}

include reads

/-- Only the empty sequence spells the empty text. -/
theorem spells_empty_iff : Spells valid word letters [] ↔ letters = [] := by
  constructor
  · intro spells
    cases letters with
    | nil => rfl
    | cons letter letters =>
        obtain ⟨here, starts, -⟩ := spells_cons_iff.mp spells
        exact absurd (List.prefix_nil.mp starts) (reads.nonempty here)
  · rintro rfl
    exact spells_nil

/-- In a text that is spelled, the word that is read is that of the first letter. -/
theorem next_of_spells (spells : Spells valid word letters text) (nonempty : text ≠ []) :
    ∃ letter rest, letters = letter :: rest ∧ next text = some (letter, (word letter).length) ∧
      Spells valid word rest (text.drop (word letter).length) := by
  cases letters with
  | nil => exact absurd spells.text.symm nonempty
  | cons letter rest =>
      obtain ⟨here, starts, later⟩ := spells_cons_iff.mp spells
      exact ⟨letter, rest, rfl, reads.next_iff.mpr ⟨here, starts, rfl⟩, later⟩

/-- Reading word by word finds the letters that a text spells, and fails when it
spells none. -/
theorem readWords_eq_some_iff {bound : Nat} (enough : text.length ≤ bound) :
    readWords next bound text = some letters ↔ Spells valid word letters text := by
  induction bound generalizing letters text with
  | zero =>
      obtain rfl := List.eq_nil_of_length_eq_zero (Nat.le_zero.mp enough)
      rw [reads.spells_empty_iff, readWords, Option.some.injEq]
      exact eq_comm
  | succ bound inductionHypothesis =>
      cases text with
      | nil =>
          rw [reads.spells_empty_iff, readWords, Option.some.injEq]
          exact eq_comm
      | cons head tail =>
          rw [readWords]
          cases found : next (head :: tail) with
          | none =>
              constructor
              · intro impossible
                cases impossible
              · intro spells
                obtain ⟨_, _, -, read, -⟩ := reads.next_of_spells spells (List.cons_ne_nil _ _)
                rw [read] at found
                cases found
          | some hit =>
              obtain ⟨letter, n⟩ := hit
              obtain ⟨here, starts, rfl⟩ := reads.next_iff.mp found
              have positive := List.length_pos_of_ne_nil (reads.nonempty here)
              have shorter : ((head :: tail).drop (word letter).length).length ≤ bound := by
                rw [List.length_drop]
                omega
              simp only [Option.map_eq_some_iff, inductionHypothesis shorter]
              constructor
              · rintro ⟨rest, spells, rfl⟩
                exact spells_cons_iff.mpr ⟨here, starts, spells⟩
              · intro spells
                obtain ⟨_, rest, rfl, read, later⟩ :=
                  reads.next_of_spells spells (List.cons_ne_nil _ _)
                rw [read] at found
                cases found
                exact ⟨rest, later, rfl⟩

/-- A text spells one sequence of letters at most. -/
theorem spells_unique (first : Spells valid word letters text)
    (second : Spells valid word more text) : letters = more := by
  rw [← reads.readWords_eq_some_iff (Nat.le_refl _)] at first second
  exact Option.some.inj (first.symm.trans second)

/-- A loop over a text that is spelled takes account of its letters from left to
right.  It may look less closely than `next` does, as long as it reads the same
where `next` reads something. -/
theorem scanWords_of_spells {σ γ : Type} {look : List β → Option (α × Nat)} {late fail : γ}
    {done : σ → γ} {step : σ → α → σ}
    (agrees : ∀ {text hit}, next text = some hit → look text = some hit) {bound : Nat}
    (enough : text.length ≤ bound) (spells : Spells valid word letters text) (s : σ) :
    scanWords look late fail done step bound text s = done (letters.foldl step s) := by
  induction letters generalizing bound text s with
  | nil =>
      obtain rfl : text = [] := spells.text.symm
      cases bound <;> rfl
  | cons letter letters inductionHypothesis =>
      obtain ⟨here, starts, rest⟩ := spells_cons_iff.mp spells
      have positive := List.length_pos_of_ne_nil (reads.nonempty here)
      have fits := starts.length_le
      have found : look text = some (letter, (word letter).length) :=
        agrees (reads.next_iff.mpr ⟨here, starts, rfl⟩)
      have shorter : (text.drop (word letter).length).length ≤ bound - 1 := by
        rw [List.length_drop]
        omega
      obtain ⟨bound, rfl⟩ := Nat.exists_eq_succ_of_ne_zero (n := bound) (by omega)
      obtain ⟨head, tail, rfl⟩ := List.exists_cons_of_length_pos (l := text) (by omega)
      rw [scanWords, found, List.foldl_cons]
      exact inductionHypothesis shorter rest (step s letter)

/-- A loop over a text that nothing spells is left where no word can be read. -/
theorem scanWords_of_not_spells {σ γ : Type} {late fail : γ} {done : σ → γ} {step : σ → α → σ}
    {bound : Nat} (enough : text.length ≤ bound)
    (unspelled : ∀ letters, ¬ Spells valid word letters text) (s : σ) :
    scanWords next late fail done step bound text s = fail := by
  induction bound generalizing text s with
  | zero =>
      obtain rfl := List.eq_nil_of_length_eq_zero (Nat.le_zero.mp enough)
      exact absurd spells_nil (unspelled [])
  | succ bound inductionHypothesis =>
      cases text with
      | nil => exact absurd spells_nil (unspelled [])
      | cons head tail =>
          rw [scanWords]
          cases found : next (head :: tail) with
          | none => rfl
          | some hit =>
              obtain ⟨letter, n⟩ := hit
              obtain ⟨here, starts, rfl⟩ := reads.next_iff.mp found
              have positive := List.length_pos_of_ne_nil (reads.nonempty here)
              have shorter : ((head :: tail).drop (word letter).length).length ≤ bound := by
                rw [List.length_drop]
                omega
              refine inductionHypothesis shorter ?_ (step s letter)
              intro letters spells
              exact unspelled (letter :: letters) (spells_cons_iff.mpr ⟨here, starts, spells⟩)

end Reads

end Dotten.Library
