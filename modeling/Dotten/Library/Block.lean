/-
Module: Dotten.Library.Block
Layer: Library
Purpose: Blocks of memory that are read, overwritten and moved within by offset
  and size, and arrays of cells of one size at the start of a block: what a
  move and a write do to the cells.  What a place of a block holds is arbitrary.
Main exports: readBlock, writeBlock, moveBlock, Cells, Cells.read, Cells.take,
  Cells.resize, Gap, Cells.gap_end,
  doubledAt, getElem?_doubledAt, Cells.gap_move, Cells.insert_gap, Cells.erase_move
-/
import Mathlib.Data.List.InsertIdx

namespace Dotten.Library

variable {α : Type}

/-- What the block holds in the `size` places from `offset` on, if it has
them. -/
def readBlock (block : List α) (offset size : Nat) : Option (List α) :=
  if offset + size ≤ block.length then some ((block.drop offset).take size) else none

/-- The block with the values from `offset` on, if it has these places. -/
def writeBlock (block : List α) (offset : Nat) (values : List α) : Option (List α) :=
  if offset + values.length ≤ block.length then
    some (block.take offset ++ values ++ block.drop (offset + values.length))
  else none

/-- `size` places are read and then written elsewhere in the block, where the
two ranges may overlap. -/
def moveBlock (block : List α) (target source size : Nat) : Option (List α) :=
  (readBlock block source size).bind (writeBlock block target)

section Accesses

variable {block after : List α} {offset target source size : Nat}

theorem readBlock_append (left middle right : List α) :
    readBlock (left ++ (middle ++ right)) left.length middle.length = some middle := by
  rw [readBlock, if_pos (by simp only [List.length_append]; omega), List.drop_left,
    List.take_left]

theorem writeBlock_append {old values : List α} (same : old.length = values.length)
    (left right : List α) :
    writeBlock (left ++ (old ++ right)) left.length values = some (left ++ (values ++ right)) := by
  have behind : (left ++ (old ++ right)).drop (left.length + values.length) = right := by
    rw [List.drop_length_add_append, ← same, List.drop_left]
  rw [writeBlock, if_pos (by simp only [List.length_append]; omega), List.take_left, behind,
    List.append_assoc]

theorem length_of_writeBlock {values : List α} (write : writeBlock block offset values = some after) :
    after.length = block.length := by
  rw [writeBlock] at write
  split at write
  · cases write
    simp only [List.length_append, List.length_take, List.length_drop]
    omega
  · cases write

theorem length_of_readBlock {values : List α} (read : readBlock block offset size = some values) :
    values.length = size := by
  rw [readBlock] at read
  split at read
  · cases read
    simp only [List.length_take, List.length_drop]
    omega
  · cases read

theorem length_of_moveBlock (move : moveBlock block target source size = some after) :
    after.length = block.length := by
  obtain ⟨values, read, write⟩ := Option.bind_eq_some_iff.mp move
  exact length_of_writeBlock write

/-- A write does not go beyond the block. -/
theorem within_of_writeBlock {values : List α} (write : writeBlock block offset values = some after) :
    offset + values.length ≤ block.length := by
  rw [writeBlock] at write
  split at write
  · assumption
  · cases write

theorem within_of_moveBlock (move : moveBlock block target source size = some after) :
    target + size ≤ block.length := by
  obtain ⟨values, read, write⟩ := Option.bind_eq_some_iff.mp move
  rw [← length_of_readBlock read]
  exact within_of_writeBlock write

theorem exists_readBlock (within : offset + size ≤ block.length) :
    ∃ values, readBlock block offset size = some values :=
  ⟨_, if_pos within⟩

/-- A move away from the start of the block by as much as is free behind.  What
is left in front of the moved values is the start of what stood there. -/
theorem moveBlock_up {gap : List α} (left middle rest : List α) :
    ∃ old, old.length = gap.length ∧ old <+: middle ++ gap ∧
      moveBlock (left ++ (middle ++ (gap ++ rest))) (left.length + gap.length) left.length
        middle.length = some (left ++ (old ++ (middle ++ rest))) := by
  have read := readBlock_append left middle (gap ++ rest)
  -- the block cut where the middle goes to
  obtain ⟨old, new, cut, short, long⟩ : ∃ old new, middle ++ gap = old ++ new ∧
      old.length = gap.length ∧ new.length = middle.length :=
    ⟨_, _, (List.take_append_drop gap.length _).symm, by simp, by simp⟩
  have write := writeBlock_append long (left ++ old) rest
  rw [List.length_append, short, List.append_assoc, List.append_assoc,
    ← List.append_assoc old, ← cut, List.append_assoc middle] at write
  refine ⟨old, short, ⟨new, cut.symm⟩, ?_⟩
  rw [moveBlock, read]
  exact write

/-- A move towards the start of the block over what stood in between. -/
theorem moveBlock_down {gap : List α} (left middle rest : List α) :
    ∃ old, old.length = gap.length ∧
      moveBlock (left ++ (gap ++ (middle ++ rest))) left.length (left.length + gap.length)
        middle.length = some (left ++ (middle ++ (old ++ rest))) := by
  have read := readBlock_append (left ++ gap) middle rest
  rw [List.length_append, List.append_assoc] at read
  obtain ⟨new, old, cut, long, short⟩ : ∃ new old, gap ++ middle = new ++ old ∧
      new.length = middle.length ∧ old.length = gap.length :=
    ⟨_, _, (List.take_append_drop middle.length _).symm, by simp, by simp⟩
  have write := writeBlock_append long left (old ++ rest)
  rw [← List.append_assoc new, ← cut, List.append_assoc gap] at write
  refine ⟨old, short, ?_⟩
  rw [moveBlock, read]
  exact write

end Accesses

/-- The block starts with the cells, which all have one size. -/
structure Cells (size : Nat) (items : List (List α)) (block : List α) : Prop where
  uniform : ∀ item ∈ items, item.length = size
  there : items.flatten <+: block

section CellArrays

variable {size index : Nat} {items : List (List α)} {block : List α}

theorem length_flatten_of_uniform :
    ∀ {items : List (List α)}, (∀ item ∈ items, item.length = size) →
      items.flatten.length = items.length * size
  | [], _ => by simp
  | item :: rest, uniform => by
      rw [List.flatten_cons, List.length_append, uniform item List.mem_cons_self,
        length_flatten_of_uniform fun other member => uniform other (List.mem_cons_of_mem _ member),
        List.length_cons, Nat.succ_mul, Nat.add_comm]

theorem cells_nil (block : List α) : Cells size [] block :=
  ⟨by simp, List.nil_prefix⟩

theorem Cells.length_le (cells : Cells size items block) : items.length * size ≤ block.length := by
  rw [← length_flatten_of_uniform cells.uniform]
  exact cells.there.length_le

/-- The block around one of the places between the cells. -/
theorem Cells.split (cells : Cells size items block) (index : Nat) (within : index ≤ items.length) :
    ∃ stale, block = (items.take index).flatten ++ ((items.drop index).flatten ++ stale) ∧
      (items.take index).flatten.length = index * size ∧
      (items.drop index).flatten.length = (items.length - index) * size := by
  obtain ⟨stale, block_eq⟩ := cells.there
  refine ⟨stale, ?_, ?_, ?_⟩
  · rw [← block_eq, ← List.append_assoc, ← List.flatten_append, List.take_append_drop]
  · rw [length_flatten_of_uniform fun item member => cells.uniform item (List.mem_of_mem_take member),
      List.length_take, Nat.min_eq_left within]
  · rw [length_flatten_of_uniform fun item member => cells.uniform item (List.mem_of_mem_drop member),
      List.length_drop]

theorem Cells.read (cells : Cells size items block) {item : List α}
    (here : items[index]? = some item) : readBlock block (index * size) size = some item := by
  obtain ⟨within, rfl⟩ := List.getElem?_eq_some_iff.mp here
  obtain ⟨stale, rfl, before, -⟩ := cells.split index (Nat.le_of_lt within)
  have sized := cells.uniform items[index] (List.getElem_mem within)
  have read := readBlock_append (items.take index).flatten items[index]
    ((items.drop (index + 1)).flatten ++ stale)
  rw [before, sized, ← List.append_assoc items[index], ← List.flatten_cons,
    ← List.drop_eq_getElem_cons within] at read
  exact read

/-- The first cells of the array. -/
theorem Cells.take (cells : Cells size items block) (count : Nat) :
    Cells size (items.take count) block where
  uniform item member := cells.uniform item (List.mem_of_mem_take member)
  there := by
    refine List.IsPrefix.trans ?_ cells.there
    exact ⟨(items.drop count).flatten, by rw [← List.flatten_append, List.take_append_drop]⟩

/-- The block is cut off behind the cells, or continued. -/
theorem Cells.resize (cells : Cells size items block) {kept : Nat}
    (enough : items.length * size ≤ kept) (fresh : List α) :
    Cells size items (block.take kept ++ fresh) where
  uniform := cells.uniform
  there := by
    refine List.IsPrefix.trans ?_ (List.prefix_append _ fresh)
    rw [List.prefix_take_iff, length_flatten_of_uniform cells.uniform]
    exact ⟨cells.there, enough⟩

/-- The block has the place of one cell between the cells before the index and
those from it on. -/
def Gap (size : Nat) (items : List (List α)) (index : Nat) (block : List α) : Prop :=
  ∃ gap stale, gap.length = size ∧
    block = (items.take index).flatten ++ (gap ++ ((items.drop index).flatten ++ stale))

/-- Behind the last cell there is a gap already. -/
theorem Cells.gap_end (cells : Cells size items block)
    (room : (items.length + 1) * size ≤ block.length) : Gap size items items.length block := by
  obtain ⟨stale, rfl, before, behind⟩ := cells.split items.length (Nat.le_refl _)
  rw [List.drop_length, List.flatten_nil, List.nil_append] at room ⊢
  rw [List.length_append, before, Nat.succ_mul] at room
  refine ⟨stale.take size, stale.drop size, ?_, ?_⟩
  · rw [List.length_take]
    omega
  · rw [List.drop_length, List.flatten_nil, List.nil_append, List.take_append_drop]

/-- The cells when those from the index on have been moved by one and nothing has
been written to the gap: the one at the index is there twice. -/
def doubledAt (items : List (List α)) (index : Nat) : List (List α) :=
  items.take index ++ ((items[index]?).toList ++ items.drop index)

theorem getElem?_doubledAt {k : Nat} (below : k < items.length) :
    (doubledAt items index)[k]? = items[if k ≤ index then k else k - 1]? := by
  unfold doubledAt
  rcases Nat.lt_or_ge index items.length with here | last
  · have split : (items[index]?).toList ++ items.drop index =
        items[index] :: items.drop index := by
      rw [List.getElem?_eq_getElem here]
      rfl
    have before : (items.take index).length = index := by
      rw [List.length_take]
      omega
    rw [split, List.getElem?_append, before]
    rcases Nat.lt_trichotomy k index with left | rfl | right
    · rw [if_pos left, if_pos (by omega), List.getElem?_take_of_lt left]
    · rw [if_neg (by omega), if_pos (by omega), Nat.sub_self, List.getElem?_cons_zero,
        List.getElem?_eq_getElem here]
    · have behind : k - index = k - 1 - index + 1 := by omega
      rw [if_neg (by omega), if_neg (by omega), behind, List.getElem?_cons_succ,
        List.getElem?_drop, Nat.add_sub_cancel' (by omega)]
  · rw [List.getElem?_eq_none last, List.take_of_length_le last, List.drop_eq_nil_of_le last,
      if_pos (by omega)]
    simp

/-- Moving the cells from the index on by one makes a gap. -/
theorem Cells.gap_move (cells : Cells size items block) (within : index ≤ items.length)
    (room : (items.length + 1) * size ≤ block.length) :
    ∃ moved, moveBlock block (index * size + size) (index * size) ((items.length - index) * size) =
        some moved ∧ Gap size items index moved ∧
      (index < items.length → Cells size (doubledAt items index) moved) := by
  obtain ⟨stale, rfl, before, behind⟩ := cells.split index within
  have all : index * size + (items.length - index) * size = items.length * size := by
    rw [← Nat.add_mul, Nat.add_sub_cancel' within]
  rw [List.length_append, List.length_append, before, behind, Nat.succ_mul] at room
  have short : (stale.take size).length = size := by
    rw [List.length_take]
    omega
  obtain ⟨gap, sized, starts, move⟩ : ∃ gap : List α, gap.length = (stale.take size).length ∧ _ :=
    moveBlock_up (items.take index).flatten (items.drop index).flatten (stale.drop size)
  rw [List.take_append_drop, before, behind, short] at move
  refine ⟨_, move, ⟨gap, stale.drop size, sized.trans short, rfl⟩, ?_⟩
  intro below
  have member := List.getElem_mem below
  have itemSized := cells.uniform items[index] member
  rw [List.drop_eq_getElem_cons below, List.flatten_cons, List.append_assoc] at starts
  have same := List.prefix_iff_eq_take.mp starts
  rw [sized, short, ← itemSized, List.take_left] at same
  subst same
  have doubled : doubledAt items index =
      items.take index ++ (items[index] :: items.drop index) := by
    rw [doubledAt, List.getElem?_eq_getElem below]
    rfl
  constructor
  · intro item there
    rw [doubled, List.mem_append, List.mem_cons] at there
    rcases there with left | rfl | right
    · exact cells.uniform item (List.mem_of_mem_take left)
    · exact itemSized
    · exact cells.uniform item (List.mem_of_mem_drop right)
  · rw [doubled, List.flatten_append, List.flatten_cons]
    exact ⟨stale.drop size, by simp only [List.append_assoc]⟩

theorem insertIdx_eq_take_drop {β : Type} {value : β} :
    ∀ {list : List β} {index : Nat}, index ≤ list.length →
      list.insertIdx index value = list.take index ++ value :: list.drop index
  | list, 0, _ => by simp
  | first :: rest, index + 1, within => by
      rw [List.insertIdx_succ_cons, insertIdx_eq_take_drop (Nat.le_of_succ_le_succ within),
        List.take_succ_cons, List.drop_succ_cons, List.cons_append]

/-- A value is written into the gap. -/
theorem Cells.insert_gap (cells : Cells size items block) {moved value : List α}
    (within : index ≤ items.length) (sized : value.length = size)
    (gapped : Gap size items index moved) :
    ∃ after, writeBlock moved (index * size) value = some after ∧
      Cells size (items.insertIdx index value) after := by
  obtain ⟨gap, stale, gapSized, rfl⟩ := gapped
  have before : (items.take index).flatten.length = index * size := by
    obtain ⟨_, _, before, _⟩ := cells.split index within
    exact before
  have write := writeBlock_append (gapSized.trans sized.symm) (items.take index).flatten
    ((items.drop index).flatten ++ stale)
  rw [before] at write
  refine ⟨_, write, ?_, ?_⟩
  · intro item member
    rcases List.eq_or_mem_of_mem_insertIdx member with rfl | old
    · exact sized
    · exact cells.uniform item old
  · rw [insertIdx_eq_take_drop within, List.flatten_append, List.flatten_cons]
    exact ⟨stale, by simp only [List.append_assoc]⟩

/-- Moving the cells behind the index over the one at the index takes it out. -/
theorem Cells.erase_move (cells : Cells size items block) (within : index < items.length) :
    ∃ after, moveBlock block (index * size) (index * size + size)
        ((items.length - index - 1) * size) = some after ∧
      Cells size (items.eraseIdx index) after := by
  obtain ⟨stale, rfl, before, -⟩ := cells.split index (Nat.le_of_lt within)
  have sized := cells.uniform items[index] (List.getElem_mem within)
  have behind : (items.drop (index + 1)).flatten.length = (items.length - index - 1) * size := by
    obtain ⟨_, _, _, behind⟩ := cells.split (index + 1) within
    exact behind
  obtain ⟨old, -, move⟩ : ∃ old : List α, old.length = items[index].length ∧ _ :=
    moveBlock_down (items.take index).flatten (items.drop (index + 1)).flatten stale
  rw [before, behind, sized, ← List.append_assoc items[index], ← List.flatten_cons,
    ← List.drop_eq_getElem_cons within] at move
  refine ⟨_, move, ?_, ?_⟩
  · intro item member
    exact cells.uniform item (List.mem_of_mem_eraseIdx member)
  · rw [List.eraseIdx_eq_take_drop_succ, List.flatten_append]
    exact ⟨old ++ stale, by simp only [List.append_assoc]⟩

end CellArrays

end Dotten.Library
