/-
Module: Dotten.Json.JsonPrinterShortage
Layer: Json
Purpose: Printing when allocations are refused: the whole text or NULL, except
  when the output cannot grow and printing goes on without looking.
Imports: Dotten.Json.JsonPieces
Main exports: PrintsAllOrNothing, LosesPiece, tenJsonStringify_allOrNothing_iff,
  tenJsonStringify_allOrNothing_iff_short
-/
import Dotten.Json.JsonPieces

namespace Dotten

open Dotten.Library

section Printing

variable {D : Type} [CDouble D]

/-- All-or-nothing printing: NULL, or what is printed of the same value from the
same state when no request is refused. -/
def PrintsAllOrNothing (json : JsonNode D) (grants : Schedule) (world : World) : Prop :=
  Returns (tenJsonStringify (some json)) grants world (fun reply _ =>
    Returns (tenJsonStringify (some json)) (fun _ => true) world (fun whole _ =>
      whole ≠ none ∧ (reply = none ∨ reply = whole)))

/-- The output string is made and copied, but between the two requests for it and
the one for the copy, an append finds the block too small and is refused a larger
one. -/
def LosesPiece (grants : Schedule) (requests : Nat) (pieces : List Bytes) : Prop :=
  (grants requests = true ∧ grants (requests + 1) = true) ∧
    GrowthRefused grants (requests + 2, emptyString (requests + 1)) pieces ∧
    grants (pieces.foldl (putPiece grants) (requests + 2, emptyString (requests + 1))).1 = true

/-- What is printed is the whole text, or nothing, or a shorter text. -/
theorem printedUnder_cases (grants : Schedule) (requests : Nat) {pieces : List Bytes}
    (noNul : ∀ piece ∈ pieces, (0 : Byte) ∉ piece) :
    (¬ LosesPiece grants requests pieces ∧ (printedUnder grants requests pieces = none ∨
      ∃ text, printedUnder grants requests pieces = some text ∧ text.bytes = pieces.flatten)) ∨
    (LosesPiece grants requests pieces ∧ ∃ text, printedUnder grants requests pieces = some text ∧
      text.bytes.length < pieces.flatten.length) := by
  have valid := emptyString_valid (requests + 1)
  unfold printedUnder LosesPiece
  dsimp only
  by_cases made : grants requests = true ∧ grants (requests + 1) = true
  · rw [if_pos made]
    by_cases copied :
        grants (pieces.foldl (putPiece grants) (requests + 2, emptyString (requests + 1))).1 = true
    · rw [if_pos copied]
      by_cases refused : GrowthRefused grants (requests + 2, emptyString (requests + 1)) pieces
      · right
        have shorter := length_putPieces_lt noNul valid refused
        have start : (emptyString (requests + 1)).cstr.bytes.length = 0 := rfl
        rw [start, Nat.zero_add] at shorter
        exact ⟨⟨made, refused, copied⟩, _, rfl, shorter⟩
      · left
        have whole := (putPieces_of_granted noNul valid refused).2
        exact ⟨fun lost => refused lost.2.1, .inr ⟨_, rfl, whole⟩⟩
    · left
      rw [if_neg copied]
      exact ⟨fun lost => copied lost.2.2, .inl rfl⟩
  · left
    rw [if_neg made]
    exact ⟨fun lost => made lost.1, .inl rfl⟩

/-- The whole text is printed, or nothing, exactly when no piece is lost. -/
theorem printedUnder_whole_iff (grants : Schedule) (requests : Nat) {pieces : List Bytes}
    (noNul : ∀ piece ∈ pieces, (0 : Byte) ∉ piece) :
    (printedUnder grants requests pieces = none ∨
      ∃ text, printedUnder grants requests pieces = some text ∧ text.bytes = pieces.flatten) ↔
        ¬ LosesPiece grants requests pieces := by
  obtain ⟨kept, whole⟩ | ⟨lost, cut, partly, shorter⟩ := printedUnder_cases grants requests noNul
  · exact iff_of_true whole kept
  · rw [partly]
    refine iff_of_false ?_ (not_not_intro lost)
    rintro (none | ⟨text, same, bytes⟩)
    · cases none
    · cases same
      rw [bytes] at shorter
      exact Nat.lt_irrefl _ shorter

/-- Printing without refusals gives the whole text. -/
theorem printsAllOrNothing_iff_printed {json : JsonNode D} (valid : json.Valid)
    (grants : Schedule) (world : World) :
    PrintsAllOrNothing json grants world ↔
      (printedUnder grants world.requests json.tree.pieces = none ∨
        ∃ text, printedUnder grants world.requests json.tree.pieces = some text ∧
          text.bytes = json.tree.pieces.flatten) := by
  obtain ⟨reply, after, run, printed⟩ := @tenJsonStringify_eq D _ grants _ _ valid world
  obtain ⟨whole, last, runWhole, text, rfl, bytes⟩ :=
    tenJsonStringify_render ample_always valid world
  rw [PrintsAllOrNothing, returns_iff_of_run run, returns_iff_of_run runWhole, printed]
  constructor
  · rintro ⟨-, none | all⟩
    · exact .inl none
    · exact .inr ⟨text, all, bytes⟩
  · rintro (none | ⟨same, all, content⟩)
    · exact ⟨by simp, .inl none⟩
    · have equal : same = text := CString.ext (content.trans bytes.symm)
      rw [all, equal]
      exact ⟨by simp, .inr rfl⟩

/-- Printing is all-or-nothing exactly when no piece is lost on the way. -/
theorem tenJsonStringify_allOrNothing_iff {json : JsonNode D} (valid : json.Valid)
    (grants : Schedule) (world : World) :
    PrintsAllOrNothing json grants world ↔
      ¬ LosesPiece grants world.requests json.tree.pieces :=
  (printsAllOrNothing_iff_printed valid grants world).trans
    (printedUnder_whole_iff grants world.requests valid.proper.noNul_pieces)

/-- The values that are printed as a whole or not at all, whichever requests are
refused, are those whose text fits the block that a string starts with. -/
theorem tenJsonStringify_allOrNothing_iff_short {json : JsonNode D} (valid : json.Valid) :
    (∀ grants world, PrintsAllOrNothing json grants world) ↔
      json.tree.render.length < tenStringInitialCapacity := by
  have noNul := valid.proper.noNul_pieces
  simp only [printsAllOrNothing_iff_printed valid, printedUnder_whole_iff _ _ noNul]
  constructor
  · intro never
    by_contra long
    -- all but the first growth is granted
    let grants : Schedule := fun request => request ≠ 2
    apply never grants ⟨0, .ok, 0⟩
    obtain ⟨refused, requests⟩ := @growthRefused_of_full grants _ noNul (2, emptyString 1)
      (show 0 < tenStringInitialCapacity by decide)
      (show tenStringInitialCapacity ≤ 0 + json.tree.render.length by omega) rfl
    refine ⟨⟨rfl, rfl⟩, refused, ?_⟩
    exact decide_eq_true (Nat.ne_of_gt requests)
  · rintro short grants world ⟨-, refused, -⟩
    refine not_growthRefused_of_room noNul ?_ refused
    change 0 + json.tree.render.length < tenStringInitialCapacity
    omega

end Printing

section Examples

/-- A string of fifteen letters. -/
def fifteenLetters : TenString where
  addr := 1
  data := List.replicate 15 (ascii 'a') ++ [0]
  length := 15
  capacity := 16

theorem fifteenLetters_valid : (JsonNode.string (D := Int) fifteenLetters).Valid :=
  .string (TenString.valid_of_data
    (c := ⟨List.replicate 15 (ascii 'a'), by decide⟩) rfl rfl (by decide))

/-- Without a block for the output, nothing is printed. -/
theorem tenJsonStringify_allOrNothing_iff_letters :
    PrintsAllOrNothing (D := Int) (.string fifteenLetters) (fun request => request ≠ 3)
      ⟨2, .ok, 0⟩ := by
  apply (tenJsonStringify_allOrNothing_iff fifteenLetters_valid _ _).mpr
  rintro ⟨⟨-, block⟩, -⟩
  cases block

/-- One refused request, and a letter is missing in a well-formed text. -/
theorem not_printsAllOrNothing_letters :
    ¬ PrintsAllOrNothing (D := Int) (.string fifteenLetters) (fun request => request ≠ 4)
      ⟨2, .ok, 0⟩ := by
  have short : tenJsonStringify (some (JsonNode.string (D := Int) fifteenLetters))
      (fun request => request ≠ 4) ⟨2, .ok, 0⟩ = some (some ⟨ascii '"' :: (List.replicate 14 (ascii 'a')
        ++ [ascii '"']), by decide⟩, ⟨7, .ok, 0⟩) := rfl
  have long : tenJsonStringify (some (JsonNode.string (D := Int) fifteenLetters))
      (fun _ => true) ⟨2, .ok, 0⟩ = some (some ⟨ascii '"' :: (List.replicate 15 (ascii 'a')
        ++ [ascii '"']), by decide⟩, ⟨6, .ok, 0⟩) := rfl
  rw [PrintsAllOrNothing, returns_iff_of_run short, returns_iff_of_run long]
  rintro ⟨-, none | equal⟩
  · cases none
  · have lengths := congrArg (Option.map CString.length) equal
    cases lengths

end Examples

end Dotten
