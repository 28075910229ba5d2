/-
Module: Dotten.Library.Lines
Layer: Library
Purpose: Searching a text for a slice, and texts made of lines that end in a
  pair of different symbols, as CR and LF.  Nothing here is specific to one
  alphabet.
Main exports: findSlice, findSlice_eq_some_iff, isSome_findSlice, findSlice_take,
  pieces, intercalate_pieces, endLines, Unbroken, findSlice_line,
  findSlice_blankLine, pieces_intercalate
-/
import Mathlib.Data.List.Basic
import Mathlib.Data.List.Infix

namespace Dotten.Library

section Search

variable {α : Type} [DecidableEq α] {needle text : List α}

/-- The position of the first occurrence of `needle` in a text. -/
def findSlice (needle : List α) : List α → Option Nat
  | [] => if needle = [] then some 0 else none
  | head :: rest =>
      if needle <+: head :: rest then some 0 else (findSlice needle rest).map (· + 1)

theorem findSlice_of_prefix (starts : needle <+: text) : findSlice needle text = some 0 := by
  cases text with
  | nil => rw [findSlice, if_pos (List.prefix_nil.mp starts)]
  | cons head rest => rw [findSlice, if_pos starts]

theorem findSlice_cons_of_not_prefix {head : α} {rest : List α}
    (misses : ¬ needle <+: head :: rest) :
    findSlice needle (head :: rest) = (findSlice needle rest).map (· + 1) := by
  rw [findSlice, if_neg misses]

/-- The hit is an occurrence, and nothing before it is one. -/
theorem findSlice_eq_some_iff (nonempty : needle ≠ []) {i : Nat} :
    findSlice needle text = some i ↔
      needle <+: text.drop i ∧ ∀ j < i, ¬ needle <+: text.drop j := by
  induction text generalizing i with
  | nil => simp [findSlice, nonempty]
  | cons head rest inductionHypothesis =>
      rw [findSlice]
      by_cases starts : needle <+: head :: rest
      · rw [if_pos starts, Option.some.injEq]
        constructor
        · rintro rfl
          exact ⟨starts, by simp⟩
        · rintro ⟨-, earliest⟩
          by_contra later
          exact earliest 0 (by omega) starts
      · rw [if_neg starts, Option.map_eq_some_iff]
        constructor
        · rintro ⟨k, found, rfl⟩
          obtain ⟨hit, earliest⟩ := inductionHypothesis.mp found
          refine ⟨hit, ?_⟩
          intro j below
          cases j with
          | zero => exact starts
          | succ j => exact earliest j (by omega)
        · rintro ⟨hit, earliest⟩
          cases i with
          | zero => exact absurd hit starts
          | succ i =>
              refine ⟨i, inductionHypothesis.mpr ⟨hit, ?_⟩, rfl⟩
              intro j below
              exact earliest (j + 1) (by omega)

theorem findSlice_eq_none_iff (nonempty : needle ≠ []) :
    findSlice needle text = none ↔ ∀ j, ¬ needle <+: text.drop j := by
  induction text with
  | nil => simp [findSlice, nonempty]
  | cons head rest inductionHypothesis =>
      rw [findSlice]
      by_cases starts : needle <+: head :: rest
      · rw [if_pos starts]
        constructor
        · intro impossible
          cases impossible
        · intro misses
          exact absurd starts (misses 0)
      · rw [if_neg starts, Option.map_eq_none_iff, inductionHypothesis]
        constructor
        · intro misses j
          cases j with
          | zero => exact starts
          | succ j => exact misses j
        · intro misses j
          exact misses (j + 1)

omit [DecidableEq α] in
theorem infix_iff_prefix_drop : needle <:+: text ↔ ∃ j, needle <+: text.drop j := by
  constructor
  · rintro ⟨before, behind, rfl⟩
    refine ⟨before.length, ?_⟩
    rw [List.append_assoc, List.drop_left]
    exact List.prefix_append needle behind
  · rintro ⟨j, starts⟩
    exact starts.isInfix.trans (List.drop_suffix j text).isInfix

/-- Nothing is found in a text that the slice is not a part of. -/
theorem findSlice_eq_none_iff_absent (nonempty : needle ≠ []) :
    findSlice needle text = none ↔ ¬ needle <:+: text := by
  rw [findSlice_eq_none_iff nonempty, infix_iff_prefix_drop, not_exists]

/-- The search finds something exactly in the texts that the slice is a part of. -/
theorem isSome_findSlice : (findSlice needle text).isSome ↔ needle <:+: text := by
  by_cases nonempty : needle = []
  · subst nonempty
    have found : findSlice [] text = some 0 := findSlice_of_prefix ⟨text, rfl⟩
    rw [found]
    simp
  · rw [← Option.ne_none_iff_isSome, Ne, findSlice_eq_none_iff_absent nonempty, not_not]

omit [DecidableEq α] in
theorem prefix_drop_take {n j : Nat} :
    needle <+: (text.take n).drop j ↔ needle <+: text.drop j ∧ needle.length ≤ n - j := by
  rw [List.drop_take, List.prefix_take_iff]

/-- What has been received of a text holds the first occurrence, or none. -/
theorem findSlice_take (nonempty : needle ≠ []) {i : Nat} (found : findSlice needle text = some i)
    (n : Nat) :
    findSlice needle (text.take n) = if i + needle.length ≤ n then some i else none := by
  obtain ⟨hit, earliest⟩ := (findSlice_eq_some_iff nonempty).mp found
  have positive : 0 < needle.length := List.length_pos_of_ne_nil nonempty
  split
  · rename_i arrived
    refine (findSlice_eq_some_iff nonempty).mpr ⟨prefix_drop_take.mpr ⟨hit, by omega⟩, ?_⟩
    intro j below occurs
    exact earliest j below (prefix_drop_take.mp occurs).1
  · rename_i missing
    refine (findSlice_eq_none_iff nonempty).mpr ?_
    intro j occurs
    obtain ⟨here, room⟩ := prefix_drop_take.mp occurs
    rcases Nat.lt_or_ge j i with before | after
    · exact earliest j before here
    · omega

/-- What is found in the start of a text is found in the text. -/
theorem findSlice_of_take (nonempty : needle ≠ []) {i n : Nat}
    (found : findSlice needle (text.take n) = some i) : findSlice needle text = some i := by
  obtain ⟨hit, earliest⟩ := (findSlice_eq_some_iff nonempty).mp found
  obtain ⟨occurs, arrived⟩ := prefix_drop_take.mp hit
  refine (findSlice_eq_some_iff nonempty).mpr ⟨occurs, ?_⟩
  intro j below earlier
  exact earliest j below (prefix_drop_take.mpr ⟨earlier, by omega⟩)

/-- The pieces of a text before, between and behind the occurrences of a slice,
found from the left; a piece bound that is larger than the text's length cuts
nothing off. -/
def piecesWithin (needle : List α) : Nat → List α → List (List α)
  | 0, _ => []
  | bound + 1, text =>
      match findSlice needle text with
      | none => [text]
      | some i => text.take i :: piecesWithin needle bound (text.drop (i + needle.length))

/-- All pieces of a text. -/
def pieces (needle text : List α) : List (List α) := piecesWithin needle (text.length + 1) text

/-- A text has pieces. -/
theorem pieces_ne_nil : pieces needle text ≠ [] := by
  rw [pieces, piecesWithin]
  split <;> simp

/-- The pieces make up the text. -/
theorem intercalate_pieces (nonempty : needle ≠ []) (text : List α) :
    needle.intercalate (pieces needle text) = text := by
  have positive : 0 < needle.length := List.length_pos_of_ne_nil nonempty
  suffices within : ∀ bound text, text.length < bound →
      needle.intercalate (piecesWithin needle bound text) = text from
    within _ text (Nat.lt_succ_self _)
  intro bound
  induction bound with
  | zero => exact fun text impossible => absurd impossible (Nat.not_lt_zero _)
  | succ bound inductionHypothesis =>
      intro text enough
      rw [piecesWithin]
      cases found : findSlice needle text with
      | none => exact List.intercalate_singleton
      | some i =>
          obtain ⟨⟨behind, hit⟩, -⟩ := (findSlice_eq_some_iff nonempty).mp found
          have length := congrArg List.length hit
          rw [List.length_append, List.length_drop] at length
          have later := inductionHypothesis (text.drop (i + needle.length))
            (by rw [List.length_drop]; omega)
          have others : piecesWithin needle bound (text.drop (i + needle.length)) ≠ [] := by
            obtain ⟨smaller, rfl⟩ : ∃ smaller, bound = smaller + 1 :=
              ⟨bound - 1, by omega⟩
            rw [piecesWithin]
            split <;> simp
          have hitHere : needle ++ text.drop (i + needle.length) = text.drop i := by
            rw [← List.drop_drop, ← hit, List.drop_left]
          dsimp only
          rw [List.intercalate_cons_of_ne_nil others, later, List.append_assoc, hitHere,
            List.take_append_drop]

/-- What stands before the first occurrence holds no occurrence. -/
theorem not_infix_take (nonempty : needle ≠ []) {i : Nat}
    (found : findSlice needle text = some i) : ¬ needle <:+: text.take i := by
  have positive : 0 < needle.length := List.length_pos_of_ne_nil nonempty
  rw [← findSlice_eq_none_iff_absent nonempty, findSlice_take nonempty found,
    if_neg (by omega)]

/-- The slice is part of no piece. -/
theorem not_infix_of_mem_pieces (nonempty : needle ≠ []) {piece : List α}
    (member : piece ∈ pieces needle text) : ¬ needle <:+: piece := by
  unfold pieces at member
  generalize text.length + 1 = bound at member
  induction bound generalizing text with
  | zero => cases member
  | succ bound inductionHypothesis =>
      rw [piecesWithin] at member
      split at member
      · rename_i missing
        rw [List.mem_singleton] at member
        rw [member]
        exact (findSlice_eq_none_iff_absent nonempty).mp missing
      · rename_i i found
        rcases List.mem_cons.mp member with rfl | later
        · exact not_infix_take nonempty found
        · exact inductionHypothesis later

end Search

section Lines

variable {α : Type} [DecidableEq α] {cr lf : α}

/-- Lines, each with its end. -/
def endLines (cr lf : α) (lines : List (List α)) : List α :=
  lines.flatMap fun line => line ++ [cr, lf]

omit [DecidableEq α] in
@[simp] theorem endLines_nil : endLines cr lf [] = [] := rfl

omit [DecidableEq α] in
@[simp] theorem endLines_cons (line : List α) (lines : List (List α)) :
    endLines cr lf (line :: lines) = line ++ cr :: lf :: endLines cr lf lines := by
  simp [endLines]

omit [DecidableEq α] in
theorem endLines_append (left right : List (List α)) :
    endLines cr lf (left ++ right) = endLines cr lf left ++ endLines cr lf right := by
  simp [endLines]

omit [DecidableEq α] in
/-- The end of the last line is the one that a separator between lines lacks. -/
theorem endLines_eq_intercalate {lines : List (List α)} (nonempty : lines ≠ []) :
    endLines cr lf lines = [cr, lf].intercalate lines ++ [cr, lf] := by
  induction lines with
  | nil => exact absurd rfl nonempty
  | cons line rest inductionHypothesis =>
      cases rest with
      | nil => simp
      | cons next more =>
          rw [endLines_cons, inductionHypothesis (by simp), List.intercalate_cons_cons]
          simp

omit [DecidableEq α] in
/-- Lines and the start of another one. -/
theorem endLines_append_eq_intercalate (lines : List (List α)) (last : List α) :
    endLines cr lf lines ++ last = [cr, lf].intercalate (lines ++ [last]) := by
  induction lines with
  | nil => simp
  | cons line rest inductionHypothesis =>
      rw [endLines_cons, List.cons_append, List.intercalate_cons_of_ne_nil (by simp),
        ← inductionHypothesis]
      simp

omit [DecidableEq α] in
/-- A text has at least as many symbols as it has lines that are not blank. -/
theorem length_le_length_intercalate (separator : List α) {lines : List (List α)}
    (noBlank : ∀ line ∈ lines, line ≠ []) :
    lines.length ≤ (separator.intercalate lines).length := by
  induction lines with
  | nil => exact Nat.zero_le _
  | cons line rest inductionHypothesis =>
      have positive := List.length_pos_of_ne_nil (noBlank line List.mem_cons_self)
      have later := inductionHypothesis
        (fun other member => noBlank other (List.mem_cons_of_mem line member))
      cases rest with
      | nil =>
          rw [List.intercalate_singleton]
          exact positive
      | cons next more =>
          rw [List.intercalate_cons_cons, List.length_append, List.length_append,
            List.length_cons]
          omega

/-- A text that no line end is part of. -/
def Unbroken (cr lf : α) (line : List α) : Prop := ¬ [cr, lf] <:+: line

instance (line : List α) : Decidable (Unbroken cr lf line) :=
  inferInstanceAs (Decidable (¬ [cr, lf] <:+: line))

omit [DecidableEq α] in
theorem unbroken_of_notMem {line : List α} (noEnd : lf ∉ line) : Unbroken cr lf line :=
  fun occurs => noEnd (occurs.subset (by simp))

omit [DecidableEq α] in
theorem Unbroken.of_infix {line part : List α} (unbroken : Unbroken cr lf line)
    (inside : part <:+: line) : Unbroken cr lf part :=
  fun occurs => unbroken (occurs.trans inside)

omit [DecidableEq α] in
theorem Unbroken.tail {head : α} {line : List α} (unbroken : Unbroken cr lf (head :: line)) :
    Unbroken cr lf line :=
  unbroken.of_infix (List.suffix_cons head line).isInfix

omit [DecidableEq α] in
theorem pair_infix_iff_getElem? {text : List α} :
    [cr, lf] <:+: text ↔ ∃ j, text[j]? = some cr ∧ text[j + 1]? = some lf := by
  rw [infix_iff_prefix_drop]
  refine exists_congr fun j => ?_
  rw [List.prefix_iff_getElem?]
  constructor
  · intro starts
    have first := starts 0 (by simp)
    have second := starts 1 (by simp)
    rw [List.getElem?_drop] at first second
    exact ⟨first, second⟩
  · rintro ⟨first, second⟩ k below
    rw [List.getElem?_drop]
    match k, below with
    | 0, _ => exact first
    | 1, _ => exact second

omit [DecidableEq α] in
/-- A symbol that is no part of a line end keeps two texts apart. -/
theorem Unbroken.append {left right : List α} {middle : α} (unbrokenLeft : Unbroken cr lf left)
    (unbrokenRight : Unbroken cr lf right) (notCr : middle ≠ cr) (notLf : middle ≠ lf) :
    Unbroken cr lf (left ++ middle :: right) := by
  intro occurs
  obtain ⟨j, first, second⟩ := pair_infix_iff_getElem?.mp occurs
  rw [List.getElem?_append] at first second
  rcases Nat.lt_trichotomy (j + 1) left.length with inLeft | atMiddle | inRight
  · rw [if_pos (by omega)] at first second
    exact unbrokenLeft (pair_infix_iff_getElem?.mpr ⟨j, first, second⟩)
  · rw [if_neg (by omega), atMiddle, Nat.sub_self] at second
    exact notLf (Option.some.inj second)
  · rw [if_neg (by omega)] at first second
    rcases Nat.eq_or_lt_of_le (Nat.le_of_lt_succ inRight) with same | behind
    · rw [← same, Nat.sub_self] at first
      exact notCr (Option.some.inj first)
    · obtain ⟨k, rfl⟩ := Nat.exists_eq_add_of_lt behind
      rw [show left.length + k + 1 - left.length = k + 1 by omega] at first
      rw [show left.length + k + 1 + 1 - left.length = k + 1 + 1 by omega] at second
      exact unbrokenRight (pair_infix_iff_getElem?.mpr ⟨k, first, second⟩)

omit [DecidableEq α] in
theorem not_prefix_pair (apart : cr ≠ lf) {head : α} {line rest : List α}
    (unbroken : Unbroken cr lf (head :: line)) :
    ¬ [cr, lf] <+: head :: (line ++ cr :: rest) := by
  intro starts
  cases line with
  | nil => simp [List.cons_prefix_cons, apart.symm] at starts
  | cons next more =>
      rw [List.cons_append, List.cons_prefix_cons, List.cons_prefix_cons] at starts
      obtain ⟨rfl, rfl, -⟩ := starts
      exact unbroken (List.prefix_append [cr, lf] more).isInfix

/-- The first line ends at its own end. -/
theorem findSlice_line (apart : cr ≠ lf) {line : List α} (unbroken : Unbroken cr lf line)
    (rest : List α) : findSlice [cr, lf] (line ++ cr :: lf :: rest) = some line.length := by
  induction line with
  | nil => exact findSlice_of_prefix (by simp [List.cons_prefix_cons])
  | cons head line inductionHypothesis =>
      rw [List.cons_append, findSlice_cons_of_not_prefix (not_prefix_pair apart unbroken),
        inductionHypothesis unbroken.tail]
      rfl

/-- An unfinished line has no end. -/
theorem findSlice_openLine {line : List α} (unbroken : Unbroken cr lf line) :
    findSlice [cr, lf] line = none :=
  (findSlice_eq_none_iff_absent (by simp)).mpr unbroken

/-- A blank line after a line, or after a later one. -/
theorem findSlice_blank_of_line (apart : cr ≠ lf) {line : List α}
    (unbroken : Unbroken cr lf line) (rest : List α) :
    findSlice [cr, lf, cr, lf] (line ++ cr :: lf :: rest) =
      if [cr, lf] <+: rest then some line.length
      else (findSlice [cr, lf, cr, lf] rest).map (· + (line.length + 2)) := by
  induction line with
  | nil =>
      by_cases blank : [cr, lf] <+: rest
      · rw [if_pos blank]
        exact findSlice_of_prefix (by simpa [List.cons_prefix_cons] using blank)
      · have misses : ¬ [cr, lf, cr, lf] <+: cr :: lf :: rest := by
          simpa [List.cons_prefix_cons] using blank
        have missesNext : ¬ [cr, lf, cr, lf] <+: lf :: rest := by
          simp [List.cons_prefix_cons, apart]
        rw [if_neg blank, List.nil_append, findSlice_cons_of_not_prefix misses,
          findSlice_cons_of_not_prefix missesNext, Option.map_map]
        rfl
  | cons head line inductionHypothesis =>
      have misses : ¬ [cr, lf, cr, lf] <+: head :: (line ++ cr :: lf :: rest) := by
        intro starts
        exact not_prefix_pair apart unbroken ((List.prefix_append [cr, lf] [cr, lf]).trans starts)
      rw [List.cons_append, findSlice_cons_of_not_prefix misses, inductionHypothesis unbroken.tail]
      split
      · rfl
      · rw [Option.map_map]
        congr 1

/-- Lines that are not blank are followed by the first blank line. -/
theorem findSlice_blankLine (apart : cr ≠ lf) {lines : List (List α)} (nonempty : lines ≠ [])
    (unbroken : ∀ line ∈ lines, Unbroken cr lf line) (noBlank : ∀ line ∈ lines, line ≠ [])
    (rest : List α) :
    findSlice [cr, lf, cr, lf] (endLines cr lf lines ++ cr :: lf :: rest) =
      some ([cr, lf].intercalate lines).length := by
  induction lines with
  | nil => exact absurd rfl nonempty
  | cons line lines inductionHypothesis =>
      rw [endLines_cons, List.append_assoc, List.cons_append, List.cons_append,
        findSlice_blank_of_line apart (unbroken line List.mem_cons_self)]
      cases lines with
      | nil => simp [List.cons_prefix_cons]
      | cons next more =>
          have nextUnbroken := unbroken next (by simp)
          have nextLine : ¬ [cr, lf] <+: endLines cr lf (next :: more) ++ cr :: lf :: rest := by
            cases next with
            | nil => exact absurd rfl (noBlank [] (by simp))
            | cons head tail =>
                rw [endLines_cons, List.append_assoc, List.cons_append]
                exact not_prefix_pair apart nextUnbroken
          rw [if_neg nextLine, inductionHypothesis (by simp)
            (fun other member => unbroken other (List.mem_cons_of_mem line member))
            (fun other member => noBlank other (List.mem_cons_of_mem line member))]
          rw [List.intercalate_cons_cons]
          simp only [Option.map_some, List.length_append, List.length_cons, List.length_nil]
          congr 1
          omega

/-- Lines that are put together with line ends between them come apart into the
same lines. -/
theorem pieces_intercalate (apart : cr ≠ lf) {lines : List (List α)} (nonempty : lines ≠ [])
    (unbroken : ∀ line ∈ lines, Unbroken cr lf line) :
    pieces [cr, lf] ([cr, lf].intercalate lines) = lines := by
  suffices within : ∀ bound, ([cr, lf].intercalate lines).length < bound →
      piecesWithin [cr, lf] bound ([cr, lf].intercalate lines) = lines from
    within _ (Nat.lt_succ_self _)
  induction lines with
  | nil => exact absurd rfl nonempty
  | cons line lines inductionHypothesis =>
      intro bound enough
      obtain ⟨bound, rfl⟩ := Nat.exists_eq_succ_of_ne_zero (Nat.ne_zero_of_lt enough)
      have lineUnbroken := unbroken line List.mem_cons_self
      cases lines with
      | nil =>
          rw [List.intercalate_singleton, piecesWithin, findSlice_openLine lineUnbroken]
      | cons next more =>
          have later := inductionHypothesis (by simp)
            (fun other member => unbroken other (List.mem_cons_of_mem line member))
          rw [List.intercalate_cons_cons] at enough ⊢
          generalize [cr, lf].intercalate (next :: more) = rest at enough later ⊢
          have found : findSlice [cr, lf] (line ++ [cr, lf] ++ rest) = some line.length := by
            rw [List.append_assoc]
            exact findSlice_line apart lineUnbroken rest
          have behind : (line ++ [cr, lf] ++ rest).drop (line.length + [cr, lf].length) = rest := by
            rw [← List.length_append, List.drop_left]
          rw [piecesWithin, found]
          dsimp only
          rw [behind, List.append_assoc, List.take_left, later]
          simp only [List.length_append, List.length_cons, List.length_nil] at enough
          omega

end Lines

end Dotten.Library
