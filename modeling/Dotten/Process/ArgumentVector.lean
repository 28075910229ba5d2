/-
Module: Dotten.Process.ArgumentVector
Layer: Process
Purpose: Which argument vectors come back from the command line that is built of
  them.
Imports: Dotten.Process.TenProcess
Main exports: Separable, splitFrom_piece, head_ne_of_not_separable,
  splitFrom_commandLine_iff, KeepsArguments, keepsArguments_iff,
  keepsArguments_not_directory
-/
import Dotten.Process.TenProcess

namespace Dotten

open Dotten.Library

/-- An argument that is quoted when it has to be, and whose quote is not escaped by
its own last character. -/
def Separable (escapes : Bool) (arg : CString) : Prop :=
  if needsQuotes arg then ¬ (escapes = true ∧ arg.bytes.getLast? = some backslash)
  else tab ∉ arg.bytes

instance (escapes : Bool) (arg : CString) : Decidable (Separable escapes arg) := by
  unfold Separable
  infer_instance

/-- No argument has a double quote. -/
def NoQuotes (args : List CString) : Prop :=
  ∀ arg ∈ args, doubleQuote ∉ arg.bytes

instance (args : List CString) : Decidable (NoQuotes args) := by
  unfold NoQuotes
  infer_instance

section Quoting

variable {escapes : Bool} {arg : CString} {rest : List CString}

theorem needsQuotes_eq_false (unquoted : needsQuotes arg = false) :
    space ∉ arg.bytes ∧ arg.bytes ≠ [] := by
  unfold needsQuotes at unquoted
  rw [decide_eq_false_iff_not, not_or] at unquoted
  refine ⟨unquoted.1, ?_⟩
  intro empty
  rw [empty] at unquoted
  exact unquoted.2 rfl

theorem needsQuotes_eq_true (quoted : needsQuotes arg = true) :
    space ∈ arg.bytes ∨ arg.bytes = [] := by
  unfold needsQuotes at quoted
  rw [decide_eq_true_eq] at quoted
  rcases quoted with blank | empty
  · exact .inl blank
  · rw [List.getElem?_eq_none_iff, Nat.le_zero, List.length_eq_zero_iff] at empty
    exact .inr empty

/-- Behind the argument the line goes on with a separator, or ends. -/
theorem splitFrom_tailLine {state : ArgState} (closed : state.quoted = false) :
    splitFrom escapes (some state) (tailLine rest) =
      state.text :: splitFrom true none (tailLine rest) := by
  cases rest with
  | nil => rfl
  | cons next others =>
      have blank : IsBlank space := .inl rfl
      change splitFrom escapes (some state) (space :: (piece next ++ tailLine others)) =
        _ :: splitFrom true none (space :: (piece next ++ tailLine others))
      have ends : IsBlank space ∧ state.quoted = false := ⟨blank, closed⟩
      rw [splitFrom, splitFrom, if_pos ends, if_pos blank]

/-- The state in which the first character of an argument finds the splitter. -/
def AtStart (state : Option ArgState) : Prop :=
  state = none ∨ state = some .start

theorem splitFrom_atStart {state : Option ArgState} (start : AtStart state) {c : Byte}
    (char : ¬ IsBlank c) (line : Bytes) :
    splitFrom escapes state (c :: line) =
      splitFrom escapes (some (ArgState.start.feed escapes c)) line := by
  rcases start with rfl | rfl
  · rw [splitFrom, if_neg char]
  · rw [splitFrom_start char, splitFrom, if_neg char]

/-- The state behind the characters of a quoted argument. -/
def quotedState (escapes : Bool) (content : Bytes) : ArgState :=
  content.foldl (ArgState.feed escapes) { quoted := true, slashes := 0, token := [] }

/-- Characters that are no quotes are read as they are, inside the quotes. -/
theorem text_quotedState {content : Bytes} (plain : doubleQuote ∉ content) :
    (quotedState escapes content).text = content ∧ (quotedState escapes content).quoted = true :=
  text_foldl_feed plain

/-- Only a backslash escapes. -/
theorem quote_not_slash : ¬ (doubleQuote = backslash ∧ escapes = true) := by
  rintro ⟨same, -⟩
  revert same
  decide

theorem splitFrom_quoted {state : Option ArgState} (start : AtStart state)
    (plain : doubleQuote ∉ arg.bytes) (quoted : needsQuotes arg = true) (line : Bytes) :
    splitFrom escapes state (piece arg ++ line) =
      splitFrom escapes (some ((quotedState escapes arg.bytes).feed escapes doubleQuote)) line := by
  have char : ¬ IsBlank doubleQuote := by decide
  have opened : ArgState.start.feed escapes doubleQuote =
      { quoted := true, slashes := 0, token := [] } := by
    cases escapes <;> rfl
  rw [piece, if_pos quoted, List.cons_append, splitFrom_atStart start char, opened,
    List.append_assoc, splitFrom_content plain (fun _ _ => .inl rfl), List.singleton_append,
    splitFrom, if_neg]
  · rfl
  · rintro ⟨blank, -⟩
    exact char blank

/-- A double quote behind characters that leave no backslash over. -/
theorem feed_quote {state : ArgState} (noSlash : state.slashes = 0) :
    state.feed escapes doubleQuote =
      { quoted := !state.quoted, slashes := 0, token := state.text } := by
  rw [ArgState.feed, if_neg quote_not_slash, if_pos rfl, ArgState.text, noSlash]
  rfl

/-- An argument that is separable comes back, and the rest is split as before. -/
theorem splitFrom_piece {state : Option ArgState} (start : AtStart state)
    (plain : doubleQuote ∉ arg.bytes) (separable : Separable escapes arg) :
    splitFrom escapes state (piece arg ++ tailLine rest) =
      arg.bytes :: splitFrom true none (tailLine rest) := by
  unfold Separable at separable
  cases quoting : needsQuotes arg with
  | true =>
      rw [quoting, if_pos rfl] at separable
      obtain ⟨text, quoted⟩ := @text_quotedState escapes arg.bytes plain
      have noSlash : (quotedState escapes arg.bytes).slashes = 0 :=
        (slashes_foldl_feed rfl plain).mpr separable
      rw [splitFrom_quoted start plain quoting, feed_quote noSlash, splitFrom_tailLine]
      · change ((quotedState escapes arg.bytes).text ++ List.replicate 0 backslash) :: _ = _
        rw [List.replicate_zero, List.append_nil, text]
      · change (!(quotedState escapes arg.bytes).quoted) = false
        rw [quoted]
        rfl
  | false =>
      rw [quoting, if_neg Bool.false_ne_true] at separable
      obtain ⟨noSpace, nonempty⟩ := needsQuotes_eq_false quoting
      have chars : ∀ c ∈ arg.bytes, ¬ IsBlank c := by
        rintro c member (rfl | rfl)
        · exact noSpace member
        · exact separable member
      obtain ⟨first, others, bytes⟩ := List.exists_cons_of_ne_nil nonempty
      obtain ⟨text, quoted⟩ := @text_foldl_feed escapes .start arg.bytes plain
      rw [piece, quoting, if_neg Bool.false_ne_true]
      rw [bytes] at plain chars text quoted ⊢
      rw [List.mem_cons, not_or] at plain
      rw [List.cons_append, splitFrom_atStart start (chars first List.mem_cons_self),
        splitFrom_content plain.2
          (fun c member => .inr (chars c (List.mem_cons_of_mem first member))),
        ← List.foldl_cons, splitFrom_tailLine quoted, text]
      rfl

end Quoting

section Losses

variable {escapes : Bool} {arg : CString} {rest : List CString}

/-- An argument that has been started outside quotes ends at a tab at the
latest. -/
theorem tab_not_mem_head {content : Bytes} (plain : doubleQuote ∉ content)
    (joined : space ∉ content) :
    ∀ {state : ArgState}, state.quoted = false → tab ∉ state.text → ∃ first others,
      splitFrom escapes (some state) (content ++ tailLine rest) = first :: others ∧
        tab ∉ first := by
  induction content with
  | nil =>
      intro state closed clean
      exact ⟨_, _, splitFrom_tailLine closed, clean⟩
  | cons c content inductionHypothesis =>
      intro state closed clean
      rw [List.mem_cons, not_or] at plain joined
      rw [List.cons_append, splitFrom]
      split
      · exact ⟨_, _, rfl, clean⟩
      · rename_i stays
        have notTab : tab ≠ c := by
          rintro rfl
          exact stays ⟨.inr rfl, closed⟩
        obtain ⟨text, quoted⟩ := @feed_of_ne_quote escapes state c (Ne.symm plain.1)
        apply inductionHypothesis plain.2 joined.2
        · rw [quoted]
          exact closed
        · rw [text, List.mem_append, List.mem_singleton, not_or]
          exact ⟨clean, notTab⟩

/-- What the first argument behind any separators is like: a character that is not
in quotes and no separator starts one, and there is no tab in it. -/
theorem head_of_content {content : Bytes} (plain : doubleQuote ∉ content)
    (joined : space ∉ content)
    (behind : ∀ first, (splitFrom escapes none (tailLine rest)).head? = some first →
      tab ∈ first → space ∈ first) {first : Bytes}
    (head : (splitFrom escapes none (content ++ tailLine rest)).head? = some first)
    (tabbed : tab ∈ first) : space ∈ first := by
  induction content with
  | nil => exact behind first head tabbed
  | cons c content inductionHypothesis =>
      rw [List.mem_cons, not_or] at plain joined
      rw [List.cons_append, splitFrom] at head
      split at head
      · exact inductionHypothesis plain.2 joined.2 head
      · rename_i char
        have notTab : tab ≠ c := fun same => char (.inr same.symm)
        obtain ⟨text, quoted⟩ := @feed_of_ne_quote escapes .start c (Ne.symm plain.1)
        have clean : tab ∉ (ArgState.start.feed escapes c).text := by
          rw [text, List.mem_append, List.mem_singleton, not_or]
          exact ⟨List.not_mem_nil, notTab⟩
        obtain ⟨one, others, split, tabless⟩ :=
          @tab_not_mem_head escapes rest content plain.2 joined.2 _ quoted clean
        rw [split] at head
        cases head
        exact absurd tabbed tabless

/-- The first argument behind any separators has a tab only if it has a space: only
quotes let a tab in, and they are put around arguments with a space. -/
theorem space_mem_head (plainRest : NoQuotes rest) :
    ∀ {content first : Bytes}, doubleQuote ∉ content → space ∉ content →
      (splitFrom escapes none (content ++ tailLine rest)).head? = some first →
      tab ∈ first → space ∈ first := by
  induction rest with
  | nil =>
      intro content first plain joined head tabbed
      refine head_of_content plain joined ?_ head tabbed
      intro first impossible
      cases impossible
  | cons next others inductionHypothesis =>
      intro content first plain joined head tabbed
      refine head_of_content plain joined ?_ head tabbed
      intro first head tabbed
      have plainNext := plainRest next List.mem_cons_self
      have plainOthers : NoQuotes others := fun arg member =>
        plainRest arg (List.mem_cons_of_mem next member)
      have blank : IsBlank space := .inl rfl
      change (splitFrom escapes none (space :: (piece next ++ tailLine others))).head? = _ at head
      rw [splitFrom, if_pos blank] at head
      cases quoting : needsQuotes next with
      | false =>
          obtain ⟨noSpace, -⟩ := needsQuotes_eq_false quoting
          rw [piece, quoting, if_neg Bool.false_ne_true] at head
          exact inductionHypothesis plainOthers plainNext noSpace head tabbed
      | true =>
          rw [splitFrom_quoted (.inl rfl) plainNext quoting] at head
          rcases needsQuotes_eq_true quoting with spaced | empty
          · have inText : space ∈ (quotedState escapes next.bytes).text := by
              rw [(text_quotedState plainNext).1]
              exact spaced
            have inToken : space ∈ (quotedState escapes next.bytes).token := by
              rcases List.mem_append.mp inText with token | slash
              · exact token
              · exact absurd (List.eq_of_mem_replicate slash) (by decide)
            obtain ⟨one, _, split, starts⟩ := @exists_head_splitFrom escapes
              ((quotedState escapes next.bytes).feed escapes doubleQuote) (tailLine others)
            rw [split] at head
            cases head
            exact starts.subset ((token_prefix_feed doubleQuote).subset inToken)
          · have nothing : (quotedState escapes next.bytes).feed escapes doubleQuote = .start := by
              rw [empty]
              cases escapes <;> rfl
            have closed : ArgState.start.quoted = false := rfl
            rw [nothing, splitFrom_tailLine closed] at head
            cases head
            cases tabbed

/-- A quoted argument that leaves backslashes in front of its closing quote does not
come back. -/
theorem head_ne_of_slashes {state : Option ArgState} (start : AtStart state)
    (plain : doubleQuote ∉ arg.bytes) (quoting : needsQuotes arg = true)
    (slashes : (quotedState escapes arg.bytes).slashes ≠ 0) :
    (splitFrom escapes state (piece arg ++ tailLine rest)).head? ≠ some arg.bytes := by
  obtain ⟨text, quoted⟩ := @text_quotedState escapes arg.bytes plain
  rw [splitFrom_quoted start plain quoting]
  generalize quotedState escapes arg.bytes = inside at text quoted slashes ⊢
  rw [ArgState.feed, if_neg quote_not_slash, if_pos rfl]
  dsimp only
  split
  · -- half of the backslashes are left, and the quote closes
    rw [quoted, splitFrom_tailLine (show (!true) = false from rfl)]
    intro same
    have length := congrArg List.length ((Option.some.inj same).trans text.symm)
    simp only [ArgState.text, List.length_append, List.length_replicate] at length
    omega
  · -- the quote is a character of the argument
    intro same
    obtain ⟨first, _, split, starts⟩ := @exists_head_splitFrom escapes
      { inside with
        slashes := 0
        token := inside.token ++ List.replicate (inside.slashes / 2) backslash ++ [doubleQuote] }
      (tailLine rest)
    rw [split] at same
    cases same
    exact plain (starts.subset (List.mem_append_right _ List.mem_cons_self))

/-- An argument with a tab and no quotes around it does not come back. -/
theorem head_ne_of_tab {state : Option ArgState} (start : AtStart state)
    (plain : doubleQuote ∉ arg.bytes) (plainRest : NoQuotes rest)
    (quoting : needsQuotes arg = false) (tabbed : tab ∈ arg.bytes) :
    (splitFrom escapes state (piece arg ++ tailLine rest)).head? ≠ some arg.bytes := by
  obtain ⟨noSpace, nonempty⟩ := needsQuotes_eq_false quoting
  rw [piece, quoting, if_neg Bool.false_ne_true]
  have skipping : (splitFrom escapes none (arg.bytes ++ tailLine rest)).head? ≠
      some arg.bytes := by
    intro same
    exact noSpace (space_mem_head plainRest plain noSpace same tabbed)
  rcases start with rfl | rfl
  · exact skipping
  · obtain ⟨c, others, bytes⟩ := List.exists_cons_of_ne_nil nonempty
    rw [bytes, List.cons_append] at skipping ⊢
    by_cases blank : IsBlank c
    · have ends : IsBlank c ∧ ArgState.start.quoted = false := ⟨blank, rfl⟩
      rw [splitFrom, if_pos ends]
      intro same
      cases same
    · rw [splitFrom_start blank]
      exact skipping

/-- An argument that is not separable does not come back. -/
theorem head_ne_of_not_separable {state : Option ArgState} (start : AtStart state)
    (plain : doubleQuote ∉ arg.bytes) (plainRest : NoQuotes rest)
    (lost : ¬ Separable escapes arg) :
    (splitFrom escapes state (piece arg ++ tailLine rest)).head? ≠ some arg.bytes := by
  unfold Separable at lost
  cases quoting : needsQuotes arg with
  | true =>
      rw [quoting, if_pos rfl] at lost
      exact head_ne_of_slashes start plain quoting fun none =>
        lost ((slashes_foldl_feed rfl plain).mp none)
  | false =>
      rw [quoting, if_neg Bool.false_ne_true, not_not] at lost
      exact head_ne_of_tab start plain plainRest quoting lost

end Losses

section Vectors

/-- Arguments come back from their line exactly when each of them is separable. -/
theorem splitFrom_commandLine_iff (rest : List CString) :
    ∀ {escapes : Bool} {state : Option ArgState} {arg : CString}, AtStart state →
      NoQuotes (arg :: rest) →
      (splitFrom escapes state (commandLine (arg :: rest)) = (arg :: rest).map CString.bytes ↔
        Separable escapes arg ∧ ∀ other ∈ rest, Separable true other) := by
  induction rest with
  | nil =>
      intro escapes state arg start plain
      have plainArg := plain arg List.mem_cons_self
      rw [commandLine]
      by_cases separable : Separable escapes arg
      · rw [splitFrom_piece start plainArg separable]
        exact iff_of_true rfl ⟨separable, by simp⟩
      · refine iff_of_false ?_ fun both => separable both.1
        intro same
        have plainNone : NoQuotes [] := by simp [NoQuotes]
        refine head_ne_of_not_separable start plainArg plainNone separable ?_
        rw [same]
        rfl
  | cons next others inductionHypothesis =>
      intro escapes state arg start plain
      have plainArg := plain arg List.mem_cons_self
      have plainRest : NoQuotes (next :: others) := fun other member =>
        plain other (List.mem_cons_of_mem arg member)
      rw [commandLine]
      by_cases separable : Separable escapes arg
      · have blank : IsBlank space := .inl rfl
        have behind : splitFrom true none (tailLine (next :: others)) =
            splitFrom true none (commandLine (next :: others)) := by
          change splitFrom true none (space :: (piece next ++ tailLine others)) = _
          rw [splitFrom, if_pos blank]
          rfl
        rw [splitFrom_piece start plainArg separable, behind, List.map_cons, List.cons.injEq,
          inductionHypothesis (.inl rfl) plainRest, List.forall_mem_cons]
        simp [separable]
      · refine iff_of_false ?_ fun both => separable both.1
        intro same
        refine head_ne_of_not_separable start plainArg plainRest separable ?_
        rw [same]
        rfl

end Vectors

/-- What the builder owes: it stays inside the block that it allocates, and the line
there splits into the arguments. -/
def KeepsArguments (width : Nat) (nameApart : Bool) (argv : List CString) : Prop :=
  ∀ (stale : Nat → Byte) (grants : Schedule) (world : World),
    Returns (tenBuildCommandLine width stale argv) grants world (fun result _ =>
      ∀ block, result = some block →
        splitCommandLine nameApart (CString.ofMemory block).bytes = argv.map CString.bytes)

/-- Where the sizes do not wrap, this is a matter of the line. -/
theorem keepsArguments_iff_splits {width : Nat} {argv : List CString}
    (fits : lineSize argv < 2 ^ width) (nameApart : Bool) :
    KeepsArguments width nameApart argv ↔
      splitCommandLine nameApart (commandLine argv) = argv.map CString.bytes := by
  constructor
  · intro keeps
    obtain ⟨result, after, run, holds⟩ := keeps (fun _ => 0) (fun _ => true) default
    obtain ⟨granted, written⟩ := (tenBuildCommandLine_spec fits).eq run
    obtain ⟨block, same⟩ := granted rfl
    obtain ⟨-, line⟩ := written block same
    rw [← line]
    exact holds block same
  · intro splits stale grants world
    apply (tenBuildCommandLine_spec fits).mono
    rintro result after ⟨-, written⟩ block same
    obtain ⟨-, line⟩ := written block same
    rw [line]
    exact splits

/-- An argument vector without double quotes comes back exactly when its sizes add
up without wrapping, every argument with a tab is quoted for a space in it, and no
argument that is quoted ends in a backslash that escapes the quote. -/
theorem keepsArguments_iff {width : Nat} {program : CString} {args : List CString}
    (plain : NoQuotes (program :: args))
    (addressable : (program :: args).length < 2 ^ (width - 1)) (nameApart : Bool) :
    KeepsArguments width nameApart (program :: args) ↔
      lineSize (program :: args) < 2 ^ width ∧ Separable (!nameApart) program ∧
        ∀ arg ∈ args, Separable true arg := by
  have start : AtStart (if nameApart then some .start else none) := by
    cases nameApart
    · exact .inl rfl
    · exact .inr rfl
  have splits := @splitFrom_commandLine_iff args (!nameApart) _ program start plain
  by_cases fits : lineSize (program :: args) < 2 ^ width
  · rw [keepsArguments_iff_splits fits]
    exact splits.trans (and_iff_right fits).symm
  · refine iff_of_false ?_ fun both => fits both.1
    intro keeps
    have wide : 0 < width := by
      by_contra narrow
      obtain rfl : width = 0 := Nat.eq_zero_of_not_pos narrow
      simp at addressable
    obtain ⟨result, after, run, -⟩ := keeps (fun _ => 0) (fun _ => true) default
    rw [tenBuildCommandLine_wraps (Nat.not_lt.mp fits) addressable wide rfl] at run
    cases run

/-- An argument with a space, a directory and an empty argument behind the name. -/
def plainArguments : List CString :=
  [⟨asciiBytes ['a', ' ', 'b'], by decide⟩,
    ⟨asciiBytes ['C', ':'] ++ [backslash], by decide⟩, default]

/-- The name of a program. -/
def programName : CString := ⟨asciiBytes ['d', 'i', 'r'], by decide⟩

theorem keepsArguments_iff_plainArguments :
    KeepsArguments 64 true (programName :: plainArguments) ↔
      lineSize (programName :: plainArguments) < 2 ^ 64 ∧ Separable false programName ∧
        ∀ arg ∈ plainArguments, Separable true arg :=
  keepsArguments_iff (by decide) (by decide) true

/-- A directory with a space, and a backslash at its end. -/
def directory : CString :=
  ⟨asciiBytes ['C', ':'] ++ [backslash] ++ asciiBytes ['a', ' ', 'b'] ++ [backslash], by decide⟩

/-- What stands behind such a directory is taken for a part of it, whether or not the
name is read apart. -/
theorem keepsArguments_not_directory :
    NoQuotes [programName, directory, programName] ∧
      ∀ nameApart, splitCommandLine nameApart (commandLine [programName, directory, programName]) =
          [programName.bytes, asciiBytes ['C', ':'] ++ [backslash] ++ asciiBytes ['a', ' ', 'b'] ++
            [doubleQuote, space] ++ programName.bytes] ∧
        ¬ KeepsArguments 64 nameApart [programName, directory, programName] := by
  refine ⟨by decide, fun nameApart => ?_⟩
  have split : splitCommandLine nameApart (commandLine [programName, directory, programName]) =
      [programName.bytes, asciiBytes ['C', ':'] ++ [backslash] ++ asciiBytes ['a', ' ', 'b'] ++
        [doubleQuote, space] ++ programName.bytes] := by
    cases nameApart <;> decide
  refine ⟨split, ?_⟩
  rw [keepsArguments_iff_splits (by decide), split]
  decide

end Dotten
