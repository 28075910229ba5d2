/-
Module: Dotten.Process.CommandLine
Layer: Process
Purpose: How a program on Windows splits its command line into arguments: they are
  separated by spaces and tabs, double quotes group, and backslashes before a
  double quote escape it.
Imports: Dotten.Core.CString
Main exports: ArgState, ArgState.feed, splitFrom, splitCommandLine,
  text_foldl_feed, slashes_foldl_feed, splitFrom_content, exists_head_splitFrom
-/
import Dotten.Core.CString

namespace Dotten

/-- The characters that the rules name. -/
def doubleQuote : Byte := 34

def backslash : Byte := 92

def space : Byte := 32

def tab : Byte := 9

/-- An argument that is being read: whether a double quote is open, the backslashes
that have just been read, and what has been read before them. -/
structure ArgState where
  quoted : Bool
  slashes : Nat
  token : Bytes
deriving DecidableEq, Repr

namespace ArgState

/-- Nothing has been read of the argument. -/
def start : ArgState := { quoted := false, slashes := 0, token := [] }

/-- The argument if it ends here. -/
def text (arg : ArgState) : Bytes := arg.token ++ List.replicate arg.slashes backslash

/-- One more character of the argument.  Two backslashes before a double quote
stand for one, and one that is left over makes the quote a character. -/
def feed (escapes : Bool) (arg : ArgState) (c : Byte) : ArgState :=
  if c = backslash ∧ escapes then
    { arg with slashes := arg.slashes + 1 }
  else if c = doubleQuote then
    let token := arg.token ++ List.replicate (arg.slashes / 2) backslash
    if arg.slashes % 2 = 0 then
      { quoted := !arg.quoted, slashes := 0, token }
    else
      { arg with slashes := 0, token := token ++ [doubleQuote] }
  else
    { arg with slashes := 0, token := arg.text ++ [c] }

end ArgState

/-- A separator. -/
def IsBlank (c : Byte) : Prop := c = space ∨ c = tab

instance (c : Byte) : Decidable (IsBlank c) := inferInstanceAs (Decidable (_ ∨ _))

/-- The arguments in what is left of the line, inside an argument or between two.
The escapes apply to every argument but perhaps the one that is read first. -/
def splitFrom (escapes : Bool) : Option ArgState → Bytes → List Bytes
  | none, [] => []
  | some arg, [] => [arg.text]
  | none, c :: rest =>
      if IsBlank c then splitFrom escapes none rest
      else splitFrom escapes (some (ArgState.start.feed escapes c)) rest
  | some arg, c :: rest =>
      if IsBlank c ∧ arg.quoted = false then arg.text :: splitFrom true none rest
      else splitFrom escapes (some (arg.feed escapes c)) rest

/-- The arguments of a command line.  The runtime reads the program's name by rules
of its own: it starts with the line, and backslashes in it escape nothing. -/
def splitCommandLine (nameApart : Bool) (line : Bytes) : List Bytes :=
  splitFrom (!nameApart) (if nameApart then some .start else none) line

section Feeding

variable {escapes : Bool} {arg : ArgState} {content : Bytes}

/-- What is not a quote is a character of the argument. -/
theorem feed_of_ne_quote {c : Byte} (plain : c ≠ doubleQuote) :
    (arg.feed escapes c).text = arg.text ++ [c] ∧ (arg.feed escapes c).quoted = arg.quoted := by
  unfold ArgState.feed
  split
  · rename_i slash
    rw [ArgState.text, ArgState.text, slash.1, List.replicate_succ', List.append_assoc]
    exact ⟨rfl, rfl⟩
  · refine ⟨?_, rfl⟩
    change arg.text ++ [c] ++ List.replicate 0 backslash = _
    rw [List.replicate_zero, List.append_nil]

/-- The argument after characters that are not quotes. -/
theorem text_foldl_feed (plain : doubleQuote ∉ content) :
    (content.foldl (ArgState.feed escapes) arg).text = arg.text ++ content ∧
      (content.foldl (ArgState.feed escapes) arg).quoted = arg.quoted := by
  induction content generalizing arg with
  | nil => exact ⟨(List.append_nil _).symm, rfl⟩
  | cons c rest inductionHypothesis =>
      rw [List.mem_cons, not_or] at plain
      obtain ⟨text, quoted⟩ := @feed_of_ne_quote escapes arg c (Ne.symm plain.1)
      obtain ⟨textRest, quotedRest⟩ := @inductionHypothesis (arg.feed escapes c) plain.2
      rw [List.foldl_cons, textRest, quotedRest, text, quoted, List.append_assoc]
      exact ⟨rfl, rfl⟩

/-- Backslashes are left over exactly when they escape and are the last
characters. -/
theorem slashes_foldl_feed (none : arg.slashes = 0) (plain : doubleQuote ∉ content) :
    (content.foldl (ArgState.feed escapes) arg).slashes = 0 ↔
      ¬ (escapes = true ∧ content.getLast? = some backslash) := by
  rcases List.eq_nil_or_concat content with rfl | ⟨before, last, rfl⟩
  · simpa using none
  · have notQuote : last ≠ doubleQuote := by
      rintro rfl
      exact plain (by simp)
    rw [List.concat_eq_append, List.foldl_append, List.getLast?_concat]
    change (ArgState.feed escapes _ last).slashes = 0 ↔ _
    unfold ArgState.feed
    by_cases slash : last = backslash ∧ escapes
    · rw [if_pos slash]
      simp [slash.1, slash.2]
    · rw [if_neg slash, if_neg notQuote, Option.some.injEq, and_comm]
      exact iff_of_true rfl slash

/-- Nothing that has been read is taken back. -/
theorem token_prefix_feed (c : Byte) : arg.token <+: (arg.feed escapes c).token := by
  unfold ArgState.feed
  split
  · exact List.prefix_refl _
  · split
    · dsimp only
      split
      · exact List.prefix_append _ _
      · exact (List.prefix_append _ _).trans (List.prefix_append _ _)
    · exact (List.prefix_append _ _).trans (List.prefix_append _ _)

end Feeding

section Splitting

variable {escapes : Bool} {arg : ArgState} {content rest : Bytes}

/-- Characters that neither end the argument nor are quotes. -/
theorem splitFrom_content (plain : doubleQuote ∉ content)
    (inside : ∀ c ∈ content, arg.quoted = true ∨ ¬ IsBlank c) :
    splitFrom escapes (some arg) (content ++ rest) =
      splitFrom escapes (some (content.foldl (ArgState.feed escapes) arg)) rest := by
  induction content generalizing arg with
  | nil => rfl
  | cons c content inductionHypothesis =>
      rw [List.mem_cons, not_or] at plain
      have stays : ¬ (IsBlank c ∧ arg.quoted = false) := by
        rintro ⟨blank, unquoted⟩
        rcases inside c List.mem_cons_self with quoted | other
        · rw [unquoted] at quoted
          cases quoted
        · exact other blank
      obtain ⟨-, quoted⟩ := @feed_of_ne_quote escapes arg c (Ne.symm plain.1)
      rw [List.cons_append, splitFrom, if_neg stays, List.foldl_cons]
      apply inductionHypothesis plain.2
      intro other member
      rw [quoted]
      exact inside other (List.mem_cons_of_mem c member)

/-- An argument that is being read is the first one of the rest, and starts with
what has been read. -/
theorem exists_head_splitFrom :
    ∃ first others, splitFrom escapes (some arg) rest = first :: others ∧
      arg.token <+: first := by
  induction rest generalizing arg with
  | nil => exact ⟨arg.text, [], rfl, List.prefix_append _ _⟩
  | cons c rest inductionHypothesis =>
      rw [splitFrom]
      split
      · exact ⟨arg.text, _, rfl, List.prefix_append _ _⟩
      · obtain ⟨first, others, split, starts⟩ := @inductionHypothesis (arg.feed escapes c)
        exact ⟨first, others, split, (token_prefix_feed c).trans starts⟩

/-- A character that is no separator starts an argument, as it goes on with one
that has been started. -/
theorem splitFrom_start {c : Byte} (char : ¬ IsBlank c) :
    splitFrom escapes (some .start) (c :: rest) = splitFrom escapes none (c :: rest) := by
  rw [splitFrom, splitFrom, if_neg char, if_neg fun both => char both.1]

end Splitting

end Dotten
