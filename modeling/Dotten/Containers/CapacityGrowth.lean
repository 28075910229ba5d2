/-
Module: Dotten.Containers.CapacityGrowth
Layer: Containers
Purpose: Growth of buffers and strings in `size_t` arithmetic of any width: when
  the loops that double the capacity end.
Imports: Dotten.Containers.TenBuffer, Dotten.Containers.StringCalls,
  Dotten.Library.DoublingLoop
Main exports: SizeT.tenBufferWrite, SizeT.tenStringAppend, ReachableBuffer,
  ReachableString, WriteEnds, AppendEnds, tenBufferWrite_sizeT,
  tenStringAppend_sizeT, growth_ends_iff, tenBufferWrite_never_ends
-/
import Dotten.Containers.TenBuffer
import Dotten.Containers.StringCalls
import Dotten.Library.DoublingLoop

namespace Dotten

open Dotten.Library

namespace SizeT

/-- The `memcpy` behind the bytes that count, which have to fit the block, and
what comes after it. -/
def store (buffer : TenBuffer) (data : Bytes) (size newSize : Nat) :
    Ten (TenErrorCode × TenBuffer) :=
  if buffer.size + size ≤ buffer.capacity ∧ size ≤ data.length then do
    tenSetError .ok
    return (.ok, { buffer.put (data.take size) with size := newSize })
  else
    stuck

/-- `ten_buffer_write` where `size_t` has `width` bits, with a bound on the
rounds of its loop. -/
def tenBufferWrite (width rounds : Nat) (buffer : TenBuffer) (data : Option Bytes) (size : Nat) :
    Ten (TenErrorCode × TenBuffer) :=
  match data with
  | none => do
      if size > 0 then
        tenSetError .nullArgument
        return (.nullArgument, buffer)
      else
        tenSetError .ok
        return (.ok, buffer)
  | some data => do
      if size = 0 then
        tenSetError .ok
        return (.ok, buffer)
      else
        let newSize := (buffer.size + size) % 2 ^ width
        if newSize > buffer.capacity then
          let first :=
            if buffer.capacity = 0 then tenBufferInitialCapacity
            else buffer.capacity * 2 % 2 ^ width
          let some newCapacity := doublingLoop width newSize rounds first
            | stuck
          let some _ ← tenRealloc
            | return (.outOfMemory, buffer)
          store { buffer with capacity := newCapacity } data size newSize
        else
          store buffer data size newSize

/-- The `memcpy` of the text with its NUL behind the bytes that count, and what
comes after it. -/
def storeText (string : TenString) (text : CString) (newLen : Nat) :
    Ten (TenErrorCode × TenString) :=
  if string.length + (text.length + 1) ≤ string.capacity then do
    tenSetError .ok
    return (.ok,
      { string with
        data := string.data.take string.length ++ text.bytes ++ [0]
        length := newLen })
  else
    stuck

/-- `ten_string_append` where `size_t` has `width` bits, with a bound on the
rounds of its loop. -/
def tenStringAppend (width rounds : Nat) (string : TenString) (text : CString) :
    Ten (TenErrorCode × TenString) := do
  let newLen := (string.length + text.length) % 2 ^ width
  let needed := (newLen + 1) % 2 ^ width
  if needed > string.capacity then
    let first :=
      if string.capacity = 0 then tenStringInitialCapacity
      else string.capacity * 2 % 2 ^ width
    let some newCapacity := doublingLoop width needed rounds first
      | stuck
    let some addr ← tenRealloc
      | return (.outOfMemory, string)
    storeText { string with addr, capacity := newCapacity } text newLen
  else
    storeText string text newLen

end SizeT

/-- The buffers that a program can get to. -/
inductive ReachableBuffer (width : Nat) : TenBuffer → Prop where
  | created {grants : Schedule} {world after : World} {buffer : TenBuffer}
      (run : tenBufferCreate grants world = some (some buffer, after)) :
      ReachableBuffer width buffer
  | written {buffer next : TenBuffer} (reachable : ReachableBuffer width buffer)
      {rounds size : Nat} {data : Option Bytes} {rc : TenErrorCode} {grants : Schedule}
      {world after : World}
      (run : SizeT.tenBufferWrite width rounds buffer data size grants world =
        some ((rc, next), after)) :
      ReachableBuffer width next
  | cleared {buffer : TenBuffer} (reachable : ReachableBuffer width buffer) :
      ReachableBuffer width (tenBufferClear buffer)

/-- The strings that a program can get to.  A text that a program has in memory
is shorter than the address space. -/
inductive ReachableString (width : Nat) : TenString → Prop where
  | created {text : CString} (addressable : text.length + 1 < 2 ^ width) {grants : Schedule}
      {world after : World} {string : TenString}
      (run : tenStringCreate (some text) grants world = some (some string, after)) :
      ReachableString width string
  | empty {grants : Schedule} {world after : World} {string : TenString}
      (run : tenStringEmpty grants world = some (some string, after)) :
      ReachableString width string
  | appended {string next : TenString} (reachable : ReachableString width string)
      {rounds : Nat} {text : CString} {rc : TenErrorCode} {grants : Schedule}
      {world after : World}
      (run : SizeT.tenStringAppend width rounds string text grants world =
        some ((rc, next), after)) :
      ReachableString width next
  | sliced {string next : TenString} (reachable : ReachableString width string)
      {start length : Nat} {grants : Schedule} {world after : World}
      (run : tenStringSubstring (some string) start length grants world =
        some (some next, after)) :
      ReachableString width next

/-- A write returns after some rounds of its loop, and when it has not been
refused there is room for what it asks for. -/
def WriteEnds (width : Nat) (buffer : TenBuffer) (source : Bytes) : Prop :=
  ∀ (grants : Schedule) (world : World), ∃ rounds,
    Returns (SizeT.tenBufferWrite width rounds buffer (some source) source.length) grants world
      (fun reply _ =>
        (reply.1 = .ok ∧ buffer.size + source.length ≤ reply.2.capacity) ∨
          (reply.1 = .outOfMemory ∧ reply.2 = buffer ∧ grants world.requests = false))

/-- The same of an append, which also needs room for the NUL. -/
def AppendEnds (width : Nat) (string : TenString) (text : CString) : Prop :=
  ∀ (grants : Schedule) (world : World), ∃ rounds,
    Returns (SizeT.tenStringAppend width rounds string text) grants world (fun reply _ =>
      (reply.1 = .ok ∧ string.length + text.length + 1 ≤ reply.2.capacity) ∨
        (reply.1 = .outOfMemory ∧ reply.2 = string ∧ grants world.requests = false))

section Loop

variable {width needed : Nat}

/-- As long as the highest bit is enough, no doubling loses a bit. -/
theorem doublingLoop_eq_doubleUntil (half : needed ≤ 2 ^ (width - 1)) (wide : 0 < width) :
    ∀ {rounds value : Nat}, 0 < value → needed ≤ value + rounds →
      doublingLoop width needed rounds value = some (doubleUntil needed rounds value) := by
  have twice := half_double wide
  intro rounds
  induction rounds with
  | zero =>
      intro value _ enough
      exact if_neg (Nat.not_lt.mpr enough)
  | succ rounds inductionHypothesis =>
      intro value positive enough
      rw [doublingLoop, doubleUntil]
      split
      · rw [Nat.mod_eq_of_lt (by omega)]
        exact inductionHypothesis (by omega) (by omega)
      · rfl

end Loop

section Buffers

variable {width : Nat} {buffer : TenBuffer} {grants : Schedule} {world : World}

/-- The invariant of the buffers that a program can get to: the block has no
bytes yet, or a power of two. -/
structure BufferGrown (width : Nat) (buffer : TenBuffer) : Prop where
  within : buffer.size ≤ buffer.capacity
  capacity : buffer.capacity = 0 ∨ ∃ j < width, buffer.capacity = 2 ^ j

theorem BufferGrown.capacity_le (grown : BufferGrown width buffer) :
    buffer.capacity ≤ 2 ^ (width - 1) := by
  obtain zero | ⟨j, below, power⟩ := grown.capacity
  · rw [zero]
    exact Nat.zero_le _
  · rw [power]
    exact Nat.pow_le_pow_right (by decide) (by omega)

/-- Where the loop of a write starts. -/
def bufferStart (width : Nat) (buffer : TenBuffer) : Nat :=
  if buffer.capacity = 0 then tenBufferInitialCapacity else buffer.capacity * 2 % 2 ^ width

theorem BufferGrown.start_shift (grown : BufferGrown width buffer) (wide : 8 ≤ width) :
    ∃ j k, bufferStart width buffer = shifted width (2 ^ j) k := by
  unfold bufferStart
  obtain zero | ⟨j, -, power⟩ := grown.capacity
  · rw [if_pos zero]
    have small : 2 ^ 4 < 2 ^ width := Nat.pow_lt_pow_right (by decide) (by omega)
    exact ⟨4, 0, (shifted_zero small).symm⟩
  · have nonzero : buffer.capacity ≠ 0 := by
      rw [power]
      exact Nat.ne_of_gt (Nat.two_pow_pos j)
    rw [if_neg nonzero, power]
    exact ⟨j, 1, double_eq_shifted⟩

/-- Below the highest bit, doubling the capacity loses nothing. -/
theorem bufferStart_pos (below : buffer.capacity < 2 ^ (width - 1)) (wide : 8 ≤ width) :
    0 < bufferStart width buffer := by
  have twice := half_double (show 0 < width by omega)
  unfold bufferStart
  split
  · decide
  · rw [Nat.mod_eq_of_lt (by omega)]
    omega

/-- The loop of a write to a full block ends exactly when the highest bit is
enough. -/
theorem BufferGrown.loop_ends_iff (grown : BufferGrown width buffer) (wide : 8 ≤ width)
    {needed : Nat} (full : buffer.capacity < needed) :
    (∃ rounds result, doublingLoop width needed rounds (bufferStart width buffer) = some result) ↔
      needed ≤ 2 ^ (width - 1) := by
  obtain ⟨j, k, start⟩ := grown.start_shift wide
  have small : bufferStart width buffer < 2 ^ width := by
    rw [start]
    exact shifted_lt k
  rw [doublingLoop_ends_iff small]
  constructor
  · rintro ⟨i, enough⟩
    rw [start, shifted_shifted] at enough
    exact Nat.le_trans enough (shift_of_power_le j (k + i))
  · intro half
    obtain ⟨i, -, top⟩ := exists_shift_of_half (bufferStart_pos (by omega) wide) small
    exact ⟨i, Nat.le_trans half top⟩

/-- The loop ends with a power of two. -/
theorem BufferGrown.loop_power (grown : BufferGrown width buffer) (wide : 8 ≤ width)
    {needed rounds result : Nat} (positive : 0 < needed)
    (ends : doublingLoop width needed rounds (bufferStart width buffer) = some result) :
    ∃ j < width, result = 2 ^ j := by
  obtain ⟨j, k, start⟩ := grown.start_shift wide
  have enough := doublingLoop_ge ends
  rw [start] at ends
  obtain ⟨i, rfl⟩ := doublingLoop_shift (shifted_lt k) ends
  rw [shifted_shifted] at enough ⊢
  exact shift_of_power (by omega)

theorem returns_store {data : Bytes} {size newSize : Nat}
    (fits : buffer.size + size ≤ buffer.capacity) (readable : size ≤ data.length)
    (post : TenErrorCode × TenBuffer → World → Prop) :
    Returns (SizeT.store buffer data size newSize) grants world post ↔
      post (.ok, { buffer.put (data.take size) with size := newSize })
        { world with lastError := .ok } := by
  rw [SizeT.store, if_pos ⟨fits, readable⟩]
  simp only [returns_bind, returns_tenSetError, returns_pure]

/-- A store that returns was within the block. -/
theorem fits_of_store {data : Bytes} {size newSize : Nat}
    {post : TenErrorCode × TenBuffer → World → Prop}
    (returns : Returns (SizeT.store buffer data size newSize) grants world post) :
    buffer.size + size ≤ buffer.capacity ∧
      post (.ok, { buffer.put (data.take size) with size := newSize })
        { world with lastError := .ok } := by
  unfold SizeT.store at returns
  split at returns
  · rename_i fits
    simp only [returns_bind, returns_tenSetError, returns_pure] at returns
    exact ⟨fits.1, returns⟩
  · cases not_returns_stuck returns

/-- What is kept by a write that returns. -/
theorem BufferGrown.write (grown : BufferGrown width buffer) (wide : 8 ≤ width) {rounds size : Nat}
    {data : Option Bytes} {post : TenErrorCode × TenBuffer → World → Prop}
    (returns : Returns (SizeT.tenBufferWrite width rounds buffer data size) grants world post) :
    ∃ rc next after, post (rc, next) after ∧ BufferGrown width next := by
  cases data with
  | none =>
      simp only [SizeT.tenBufferWrite] at returns
      split at returns
      · simp only [returns_bind, returns_tenSetError, returns_pure] at returns
        exact ⟨_, _, _, returns, grown⟩
      · simp only [returns_bind, returns_tenSetError, returns_pure] at returns
        exact ⟨_, _, _, returns, grown⟩
  | some data =>
      have stored : ∀ {capacity newSize : Nat} {between : World},
          newSize = (buffer.size + size) % 2 ^ width →
          (capacity = 0 ∨ ∃ j < width, capacity = 2 ^ j) →
          Returns (SizeT.store { buffer with capacity := capacity } data size newSize) grants
            between post →
          ∃ rc next after, post (rc, next) after ∧ BufferGrown width next := by
        intro capacity newSize between wraps power store
        obtain ⟨fits, holds⟩ := fits_of_store store
        refine ⟨_, _, _, holds, ?_, power⟩
        have less := Nat.mod_le (buffer.size + size) (2 ^ width)
        change newSize ≤ capacity
        change buffer.size + size ≤ capacity at fits
        omega
      simp only [SizeT.tenBufferWrite] at returns
      split at returns
      · simp only [returns_bind, returns_tenSetError, returns_pure] at returns
        exact ⟨_, _, _, returns, grown⟩
      · split at returns
        · rename_i full
          split at returns
          · rename_i newCapacity ends
            have positive : 0 < (buffer.size + size) % 2 ^ width := by omega
            have power := grown.loop_power wide positive ends
            rw [returns_bind, returns_tenRealloc, returns_tenMalloc] at returns
            cases granted : grants world.requests with
            | true => exact stored rfl (.inr power) (returns.1 granted)
            | false =>
                have refused := returns.2 granted
                rw [returns_pure] at refused
                exact ⟨_, _, _, refused, grown⟩
          · cases not_returns_stuck returns
        · exact stored rfl grown.capacity returns

theorem ReachableBuffer.grown (wide : 8 ≤ width) (reachable : ReachableBuffer width buffer) :
    BufferGrown width buffer := by
  induction reachable with
  | @created grants world after buffer run =>
      have empty : Returns tenBufferCreate grants world
          (fun made _ => ∀ buffer, made = some buffer → BufferGrown width buffer) := by
        simp only [tenBufferCreate, returns_bind, returns_tenMalloc, returns_tenSetError,
          returns_pure]
        refine ⟨fun _ buffer made => ?_, fun _ buffer made => by cases made⟩
        cases made
        exact ⟨Nat.le_refl 0, .inl rfl⟩
      exact empty.eq run buffer rfl
  | @written buffer next _ rounds size data rc grants world after run inductionHypothesis =>
      have returned : Returns (SizeT.tenBufferWrite width rounds buffer data size) grants world
          (fun reply _ => reply = (rc, next)) := ⟨_, _, run, rfl⟩
      obtain ⟨rc, next, _, same, grown⟩ := inductionHypothesis.write wide returned
      cases same
      exact grown
  | cleared _ inductionHypothesis => exact ⟨Nat.zero_le _, inductionHypothesis.capacity⟩

/-- A write that fits `size_t` ends exactly when it does not go beyond the
highest bit. -/
theorem BufferGrown.writeEnds_iff (grown : BufferGrown width buffer) (wide : 8 ≤ width)
    {source : Bytes} (required : buffer.size + source.length ≤ 2 ^ width - 1) :
    WriteEnds width buffer source ↔ buffer.size + source.length ≤ 2 ^ (width - 1) := by
  have whole := Nat.two_pow_pos width
  have unwrapped : (buffer.size + source.length) % 2 ^ width = buffer.size + source.length :=
    Nat.mod_eq_of_lt (by omega)
  have most := grown.capacity_le
  have within := grown.within
  constructor
  · intro ends
    obtain ⟨rounds, returns⟩ := ends (fun _ => true) default
    simp only [SizeT.tenBufferWrite, unwrapped] at returns
    split at returns
    · omega
    · split at returns
      · rename_i full
        split at returns
        · rename_i newCapacity loop
          exact (grown.loop_ends_iff wide full).mp ⟨rounds, newCapacity, loop⟩
        · cases not_returns_stuck returns
      · omega
  · intro half grants world
    by_cases full : buffer.size + source.length > buffer.capacity
    · obtain ⟨rounds, newCapacity, loop⟩ := (grown.loop_ends_iff wide full).mpr half
      have room := doublingLoop_ge loop
      have nonempty : source.length ≠ 0 := by omega
      unfold bufferStart at loop
      refine ⟨rounds, ?_⟩
      simp only [SizeT.tenBufferWrite, unwrapped, if_neg nonempty, if_pos full, loop, returns_bind,
        returns_tenRealloc, returns_tenMalloc]
      constructor
      · intro granted
        rw [returns_store room (Nat.le_refl _)]
        exact .inl ⟨rfl, room⟩
      · intro refused
        rw [returns_pure]
        exact .inr ⟨rfl, rfl, refused⟩
    · refine ⟨0, ?_⟩
      simp only [SizeT.tenBufferWrite, unwrapped, if_neg full]
      apply returns_ite
      · intro _
        simp only [returns_bind, returns_tenSetError, returns_pure]
        exact .inl ⟨trivial, by omega⟩
      · intro _
        rw [returns_store (by omega) (Nat.le_refl _)]
        exact .inl ⟨rfl, show buffer.size + source.length ≤ buffer.capacity by omega⟩

end Buffers

section Strings

variable {width : Nat} {string : TenString} {grants : Schedule} {world : World}

/-- The invariant of the strings that a program can get to. -/
structure StringGrown (width : Nat) (string : TenString) : Prop where
  valid : string.Valid
  addressable : string.capacity < 2 ^ width

/-- Where the loop of an append starts. -/
def stringStart (width : Nat) (string : TenString) : Nat :=
  if string.capacity = 0 then tenStringInitialCapacity else string.capacity * 2 % 2 ^ width

/-- The loop of an append to a full block starts from the capacity, shifted. -/
theorem StringGrown.start_shift (grown : StringGrown width string) :
    stringStart width string = shifted width string.capacity 1 := by
  have fits := grown.valid.fits
  rw [stringStart, if_neg (by omega), double_eq_shifted]

theorem StringGrown.loop_ends_iff (grown : StringGrown width string) {needed : Nat}
    (full : string.capacity < needed) :
    (∃ rounds result, doublingLoop width needed rounds (stringStart width string) = some result) ↔
      ∃ k < width, needed ≤ shifted width string.capacity k := by
  rw [grown.start_shift, doublingLoop_ends_iff (shifted_lt 1)]
  constructor
  · rintro ⟨k, enough⟩
    rw [shifted_shifted] at enough
    exact ⟨1 + k, shift_lt_width (by omega) enough, enough⟩
  · rintro ⟨k, -, enough⟩
    cases k with
    | zero =>
        rw [shifted_zero grown.addressable] at enough
        exact absurd full (Nat.not_lt.mpr enough)
    | succ k =>
        refine ⟨k, ?_⟩
        rw [shifted_shifted, Nat.add_comm]
        exact enough

/-- What a store within the block leaves. -/
theorem StringGrown.stored (valid : string.Valid) {text : CString} {addr capacity : Nat}
    (fits : string.length + (text.length + 1) ≤ capacity) (addressable : capacity < 2 ^ width) :
    StringGrown width
      { addr, capacity, data := string.data.take string.length ++ text.bytes ++ [0]
        length := string.length + text.length } := by
  refine ⟨(TenString.valid_of_contents rfl ?_ ?_ ?_).1, addressable⟩
  · rw [List.length_append]
    change _ = string.contents.length + _
    rw [valid.length_contents]
    rfl
  · rw [List.mem_append, not_or]
    exact ⟨valid.terminated.noNul, text.noNul⟩
  · change string.length + text.length < capacity
    omega

theorem returns_storeText {text : CString} {newLen : Nat}
    (fits : string.length + (text.length + 1) ≤ string.capacity)
    (post : TenErrorCode × TenString → World → Prop) :
    Returns (SizeT.storeText string text newLen) grants world post ↔
      post (.ok, { string with
        data := string.data.take string.length ++ text.bytes ++ [0], length := newLen })
        { world with lastError := .ok } := by
  rw [SizeT.storeText, if_pos fits]
  simp only [returns_bind, returns_tenSetError, returns_pure]

/-- A store that returns was within the block. -/
theorem fits_of_storeText {text : CString} {newLen : Nat}
    {post : TenErrorCode × TenString → World → Prop}
    (returns : Returns (SizeT.storeText string text newLen) grants world post) :
    string.length + (text.length + 1) ≤ string.capacity ∧
      post (.ok, { string with
        data := string.data.take string.length ++ text.bytes ++ [0], length := newLen })
        { world with lastError := .ok } := by
  by_cases fits : string.length + (text.length + 1) ≤ string.capacity
  · exact ⟨fits, (returns_storeText fits post).mp returns⟩
  · rw [SizeT.storeText, if_neg fits] at returns
    cases not_returns_stuck returns

/-- What is kept by an append that returns. -/
theorem StringGrown.append (grown : StringGrown width string) {rounds : Nat} {text : CString}
    {post : TenErrorCode × TenString → World → Prop}
    (returns : Returns (SizeT.tenStringAppend width rounds string text) grants world post) :
    ∃ rc next after, post (rc, next) after ∧ StringGrown width next := by
  have stored : ∀ {addr capacity newLen : Nat} {between : World},
      newLen = (string.length + text.length) % 2 ^ width → capacity < 2 ^ width →
      Returns (SizeT.storeText { string with addr := addr, capacity := capacity } text newLen)
        grants between post →
      ∃ rc next after, post (rc, next) after ∧ StringGrown width next := by
    intro addr capacity newLen between wraps addressable store
    obtain ⟨fits, holds⟩ := fits_of_storeText store
    dsimp only at fits
    rw [Nat.mod_eq_of_lt (by omega)] at wraps
    subst wraps
    exact ⟨_, _, _, holds, .stored grown.valid fits addressable⟩
  simp only [SizeT.tenStringAppend] at returns
  split at returns
  · split at returns
    · rename_i newCapacity ends
      change doublingLoop width _ rounds (stringStart width string) = _ at ends
      have start := grown.start_shift
      obtain ⟨k, rfl⟩ := doublingLoop_shift (by rw [start]; exact shifted_lt 1) ends
      rw [returns_bind, returns_tenRealloc, returns_tenMalloc] at returns
      cases granted : grants world.requests with
      | true => exact stored rfl (shifted_lt k) (returns.1 granted)
      | false =>
          have refused := returns.2 granted
          rw [returns_pure] at refused
          exact ⟨_, _, _, refused, grown⟩
    · cases not_returns_stuck returns
  · exact stored rfl grown.addressable returns

/-- A string that has been made for the content. -/
theorem grown_of_makes {content : Bytes} {after : World} (wide : 8 ≤ width)
    (addressable : content.length + 1 < 2 ^ width)
    (makes : MakesString grants world content (some string) after) : StringGrown width string := by
  obtain ⟨-, impossible, -⟩ | ⟨-, other, same, valid, -, capacity⟩ := makes
  · cases impossible
  · cases same
    have initial : tenStringInitialCapacity < 2 ^ width :=
      Nat.pow_lt_pow_right (a := 2) (m := 4) (by decide) (by omega)
    refine ⟨valid, ?_⟩
    omega

theorem ReachableString.grown (wide : 8 ≤ width) (reachable : ReachableString width string) :
    StringGrown width string := by
  induction reachable with
  | created addressable run =>
      exact grown_of_makes wide addressable ((tenStringCreate_makes _).eq run)
  | empty run =>
      have small : ([] : Bytes).length + 1 < 2 ^ width := Nat.one_lt_two_pow (by omega)
      exact grown_of_makes wide small (tenStringEmpty_makes.eq run)
  | @appended string next _ rounds text rc grants world after run inductionHypothesis =>
      have returned : Returns (SizeT.tenStringAppend width rounds string text) grants world
          (fun reply _ => reply = (rc, next)) := ⟨_, _, run, rfl⟩
      obtain ⟨rc, next, _, same, grown⟩ := inductionHypothesis.append returned
      cases same
      exact grown
  | @sliced string next _ start length grants world after run inductionHypothesis =>
      have valid := inductionHypothesis.valid
      have size := valid.length_contents
      by_cases within : start + length ≤ string.contents.length
      · have fits := valid.fits
        have addressable := inductionHypothesis.addressable
        refine grown_of_makes wide ?_ ((tenStringSubstring_makes valid within).eq run)
        rw [List.length_take]
        omega
      · have beyond : start > string.length ∨ length > string.length - start := by omega
        rw [tenStringSubstring, if_pos beyond] at run
        cases run

/-- An append that fits `size_t` ends exactly when some shift of the capacity is
as large as it needs. -/
theorem StringGrown.appendEnds_iff (grown : StringGrown width string) {text : CString}
    (required : string.length + text.length + 1 ≤ 2 ^ width - 1) :
    AppendEnds width string text ↔
      ∃ k < width, string.length + text.length + 1 ≤ shifted width string.capacity k := by
  have whole := Nat.two_pow_pos width
  have unwrapped : (string.length + text.length) % 2 ^ width = string.length + text.length :=
    Nat.mod_eq_of_lt (by omega)
  have unwrappedNul : (string.length + text.length + 1) % 2 ^ width =
      string.length + text.length + 1 := Nat.mod_eq_of_lt (by omega)
  by_cases full : string.length + text.length + 1 > string.capacity
  · rw [← grown.loop_ends_iff full]
    constructor
    · intro ends
      obtain ⟨rounds, returns⟩ := ends (fun _ => true) default
      simp only [SizeT.tenStringAppend, unwrapped, unwrappedNul, if_pos full] at returns
      split at returns
      · rename_i newCapacity loop
        exact ⟨rounds, newCapacity, loop⟩
      · cases not_returns_stuck returns
    · rintro ⟨rounds, newCapacity, loop⟩ grants world
      have room := doublingLoop_ge loop
      unfold stringStart at loop
      refine ⟨rounds, ?_⟩
      simp only [SizeT.tenStringAppend, unwrapped, unwrappedNul, if_pos full, loop, returns_bind,
        returns_tenRealloc, returns_tenMalloc]
      constructor
      · intro granted
        rw [returns_storeText room]
        exact .inl ⟨rfl, room⟩
      · intro refused
        rw [returns_pure]
        exact .inr ⟨rfl, rfl, refused⟩
  · have fits : string.length + text.length + 1 ≤ string.capacity := by omega
    constructor
    · intro _
      have positive : 0 < width := by
        by_contra none
        have narrow : width = 0 := by omega
        rw [narrow] at required
        simp at required
      refine ⟨0, positive, ?_⟩
      rw [shifted_zero grown.addressable]
      exact fits
    · intro _ grants world
      refine ⟨0, ?_⟩
      simp only [SizeT.tenStringAppend, unwrapped, unwrappedNul, if_neg full]
      rw [returns_storeText fits]
      exact .inl ⟨rfl, fits⟩

end Strings

section Layers

variable {width : Nat}

/-- Below the highest bit a write is the one without a width. -/
theorem tenBufferWrite_sizeT {buffer : TenBuffer} {data : Bytes} {size : Nat} (wide : 8 ≤ width)
    (half : buffer.size + size ≤ 2 ^ (width - 1)) (readable : size ≤ data.length) :
    SizeT.tenBufferWrite width (buffer.size + size) buffer (some data) size =
      tenBufferWrite buffer (some data) size := by
  have twice := half_double (show 0 < width by omega)
  have whole := Nat.two_pow_pos (width - 1)
  have unwrapped : (buffer.size + size) % 2 ^ width = buffer.size + size :=
    Nat.mod_eq_of_lt (by omega)
  have taken : (data.take size).length = size := by
    rw [List.length_take]
    omega
  have stored : ∀ {capacity : Nat}, buffer.size + size ≤ capacity →
      SizeT.store { buffer with capacity := capacity } data size (buffer.size + size) = (do
        tenSetError .ok
        return (.ok, { buffer with capacity := capacity }.put (data.take size))) := by
    intro capacity fits
    rw [SizeT.store, if_pos ⟨fits, readable⟩]
    simp only [TenBuffer.put, taken]
  simp only [SizeT.tenBufferWrite, tenBufferWrite, unwrapped]
  split
  · rfl
  · split
    · rename_i full
      have start : (if buffer.capacity = 0 then tenBufferInitialCapacity
          else buffer.capacity * 2 % 2 ^ width) =
          if buffer.capacity = 0 then tenBufferInitialCapacity else buffer.capacity * 2 := by
        rw [Nat.mod_eq_of_lt (by omega)]
      have positive : 0 < if buffer.capacity = 0 then tenBufferInitialCapacity
          else buffer.capacity * 2 := by
        split
        · decide
        · omega
      rw [start, doublingLoop_eq_doubleUntil half (by omega) positive (by omega)]
      dsimp only
      congr 1
      funext answer
      cases answer with
      | none => rfl
      | some _ => exact stored (doubleUntil_ge _ _ _ positive (by omega))
    · exact stored (by omega)

/-- Below the highest bit an append is the one without a width. -/
theorem tenStringAppend_sizeT {string : TenString} {text : CString} (wide : 8 ≤ width)
    (half : string.length + text.length + 1 ≤ 2 ^ (width - 1)) :
    SizeT.tenStringAppend width (string.length + text.length + 1) string text =
      tenStringAppend string text := by
  have twice := half_double (show 0 < width by omega)
  have unwrapped : (string.length + text.length) % 2 ^ width = string.length + text.length :=
    Nat.mod_eq_of_lt (by omega)
  have unwrappedNul : (string.length + text.length + 1) % 2 ^ width =
      string.length + text.length + 1 := Nat.mod_eq_of_lt (by omega)
  simp only [SizeT.tenStringAppend, tenStringAppend, unwrapped, unwrappedNul]
  split
  · have start : (if string.capacity = 0 then tenStringInitialCapacity
        else string.capacity * 2 % 2 ^ width) =
        if string.capacity = 0 then tenStringInitialCapacity else string.capacity * 2 := by
      rw [Nat.mod_eq_of_lt (by omega)]
    have positive : 0 < if string.capacity = 0 then tenStringInitialCapacity
        else string.capacity * 2 := by
      split
      · decide
      · omega
    rw [start, doublingLoop_eq_doubleUntil half (by omega) positive (by omega)]
    dsimp only
    congr 1
    funext answer
    cases answer with
    | none => rfl
    | some addr =>
        have room := doubleUntil_ge (string.length + text.length + 1)
          (string.length + text.length + 1) _ positive (by omega)
        exact if_pos room
  · rename_i roomy
    exact if_pos (Nat.not_lt.mp roomy)

/-- Below the highest bit every append ends. -/
theorem appendEnds_of_half {string : TenString} {text : CString} (wide : 8 ≤ width)
    (reachable : ReachableString width string)
    (half : string.length + text.length + 1 ≤ 2 ^ (width - 1)) : AppendEnds width string text := by
  have grown := reachable.grown wide
  have fits := grown.valid.fits
  have twice := half_double (show 0 < width by omega)
  obtain ⟨k, below, top⟩ := exists_shift_of_half (by omega) grown.addressable
  exact (grown.appendEnds_iff (by omega)).mpr ⟨k, below, Nat.le_trans half top⟩

end Layers

/-- For every width, the loop of a write to a buffer ends exactly when the size
that it asks for is at most the highest bit, and the loop of an append exactly
when the capacity, shifted, gets as large as it needs. -/
theorem growth_ends_iff {width : Nat} (wide : 8 ≤ width) {buffer : TenBuffer}
    (reachableBuffer : ReachableBuffer width buffer) {source : Bytes}
    (requiredBytes : buffer.size + source.length ≤ 2 ^ width - 1) {string : TenString}
    (reachableString : ReachableString width string) {text : CString}
    (requiredText : string.length + text.length + 1 ≤ 2 ^ width - 1) :
    (WriteEnds width buffer source ↔ buffer.size + source.length ≤ 2 ^ (width - 1)) ∧
      (AppendEnds width string text ↔
        ∃ k < width, string.length + text.length + 1 ≤ string.capacity * 2 ^ k % 2 ^ width) :=
  ⟨(reachableBuffer.grown wide).writeEnds_iff wide requiredBytes,
    (reachableString.grown wide).appendEnds_iff requiredText⟩

section Examples

/-- The world before anything has been called. -/
def firstWorld : World := { requests := 0, lastError := .ok }

theorem reachable_emptyBuffer (width : Nat) : ReachableBuffer width emptyBuffer :=
  @ReachableBuffer.created width (fun _ => true) firstWorld _ _ rfl

theorem reachable_emptyString (width : Nat) : ReachableString width (emptyString 1) :=
  @ReachableString.empty width (fun _ => true) firstWorld _ _ rfl

/-- Three bytes in the first block of a buffer. -/
def threeBytes : TenBuffer := { data := [1, 2, 3], size := 3, capacity := 16 }

theorem reachable_threeBytes : ReachableBuffer 32 threeBytes :=
  @ReachableBuffer.written 32 emptyBuffer _ (reachable_emptyBuffer 32) 0 3 (some [1, 2, 3]) .ok
    (fun _ => true) firstWorld _ rfl

/-- A text of seventy letters. -/
def seventyLetters : CString := ⟨List.replicate 70 'a'.toNat.toUInt8, by decide⟩

/-- Behind three bytes in a block of sixteen a write of seventy takes the loop from
32 to 64 and to 128, and so does an append of seventy letters to a string that has
just been made. -/
theorem growth_ends_iff_doubling :
    (WriteEnds 32 threeBytes seventyLetters.bytes ↔ 3 + 70 ≤ 2 ^ 31) ∧
      (AppendEnds 32 (emptyString 1) seventyLetters ↔
        ∃ k < 32, 0 + 70 + 1 ≤ 16 * 2 ^ k % 2 ^ 32) :=
  @growth_ends_iff 32 (by decide) threeBytes reachable_threeBytes seventyLetters.bytes (by decide)
    (emptyString 1) (reachable_emptyString 32) seventyLetters (by decide)

example : doublingLoop 32 73 2 32 = some 128 := by decide

/-- A program can fill a buffer up to the highest bit. -/
theorem exists_filled {width : Nat} (wide : 8 ≤ width) {source : Bytes}
    (half : source.length ≤ 2 ^ (width - 1)) :
    ∃ buffer, ReachableBuffer width buffer ∧ buffer.contents = source ∧
      buffer.size = source.length := by
  have empty : emptyBuffer.size + source.length ≤ 2 ^ (width - 1) := by
    change 0 + source.length ≤ _
    omega
  have ample : Ample fun _ => true := ample_always
  obtain ⟨⟨rc, buffer⟩, after, run, -, outcome⟩ :=
    @tenBufferWrite_spec (fun _ => true) firstWorld emptyBuffer emptyBuffer_valid source
      source.length
  obtain ⟨-, valid, contents⟩ := outcome.of_ample ample
  rw [← tenBufferWrite_sizeT wide empty (Nat.le_refl _)] at run
  have filled : buffer.contents = source := by
    rw [contents, List.take_length]
    rfl
  refine ⟨buffer, .written (reachable_emptyBuffer width) run, filled, ?_⟩
  rw [← valid.length_contents, filled]

/-- Where `size_t` has 32 bits, the loop of a write to a buffer with 2^30 bytes
never ends when it asks for one byte more than that. -/
theorem tenBufferWrite_never_ends :
    ∃ buffer, ReachableBuffer 32 buffer ∧ buffer.contents = List.replicate (2 ^ 30) 0 ∧
      buffer.size + (List.replicate (2 ^ 30 + 1) (0 : Byte)).length ≤ 2 ^ 32 - 1 ∧
      ¬ WriteEnds 32 buffer (List.replicate (2 ^ 30 + 1) 0) := by
  have half : (List.replicate (2 ^ 30) (0 : Byte)).length ≤ 2 ^ (32 - 1) := by
    rw [List.length_replicate]
    omega
  obtain ⟨buffer, reachable, filled, size⟩ := exists_filled (show 8 ≤ 32 by decide) half
  rw [List.length_replicate] at size
  have required : buffer.size + (List.replicate (2 ^ 30 + 1) (0 : Byte)).length ≤ 2 ^ 32 - 1 := by
    rw [List.length_replicate]
    omega
  refine ⟨buffer, reachable, filled, required, ?_⟩
  rw [(reachable.grown (by decide)).writeEnds_iff (by decide) required, List.length_replicate]
  omega

end Examples

end Dotten
