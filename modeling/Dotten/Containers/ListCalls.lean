/-
Module: Dotten.Containers.ListCalls
Layer: Containers
Purpose: What each call does to a list over its bytes and to the sequence of
  elements that the list represents, when the sizes that the call computes do
  not wrap.
Imports: Dotten.Containers.ListStorage
Main exports: TenListBytes.InsertFits, TenListBytes.Readable, ListCall.Fits,
  ListCall.Readable, ListRefusal, SequenceStep, CallOutcome, insertValue_spec,
  perform_spec
-/
import Dotten.Containers.ListStorage

namespace Dotten

open Dotten.Library

namespace TenListBytes

/-- An insert counts on without wrapping, and its growth fits. -/
def InsertFits (machine : Machine) (grants : Schedule) (world : World) (list : TenListBytes) :
    Prop :=
  list.count + 1 < 2 ^ machine.width ∧ list.GrowthFits machine grants world (list.count + 1)

/-- There is an element at `value` when the call reads it: a place in the block
does not survive growth. -/
def Readable (list : TenListBytes) : ListValue → Prop
  | .outside memory => list.elementSize ≤ memory.length
  | .inside address offset =>
      list.data = some address ∧ offset + list.elementSize ≤ list.storage.length ∧
        list.count < list.capacity

/-- What `ten_list_insert` may do to a list of these elements. -/
inductive InsertOutcome (machine : Machine) (grants : Schedule) (world : World)
    (list : TenListBytes) (items : List Bytes) (index : Nat) (value : ListValue) :
    TenErrorCode → TenListBytes → Prop where
  | outOfRange (beyond : list.count < index) :
      InsertOutcome machine grants world list items index value .outOfRange list
  | refused {after : TenListBytes} (within : index ≤ list.count)
      (refusal : grants world.requests = false) (represents : Represents machine after items) :
      InsertOutcome machine grants world list items index value .outOfMemory after
  | inserted {after : TenListBytes} {item : Bytes} (within : index ≤ list.count)
      (copied : ∀ memory, value = .outside memory → item = memory.take list.elementSize)
      (represents : Represents machine after (items.insertIdx index item)) :
      InsertOutcome machine grants world list items index value .ok after

section Inserting

variable {machine : Machine} {grants : Schedule} {world : World} {list after : TenListBytes}
  {items : List Bytes} {index : Nat} {value : ListValue}

/-- The value is still there after a growth that leaves the block, and after a
move in it. -/
theorem Readable.exists_readValue (readable : list.Readable value)
    (sized : after.elementSize = list.elementSize)
    (same : list.count < list.capacity → after.data = list.data ∧
      after.storage.length = list.storage.length) :
    ∃ item, after.readValue value = some item ∧ item.length = list.elementSize ∧
      ∀ memory, value = .outside memory → item = memory.take list.elementSize := by
  cases value with
  | outside memory =>
      have read : readBlock memory 0 list.elementSize = some (memory.take list.elementSize) := by
        exact if_pos (by rw [Nat.zero_add]; exact readable)
      refine ⟨memory.take list.elementSize, ?_, length_of_readBlock read, ?_⟩
      · rw [readValue, sized]
        exact read
      · intro other equal
        cases equal
        rfl
  | inside address offset =>
      obtain ⟨here, within, spare⟩ := readable
      obtain ⟨data, length⟩ := same spare
      obtain ⟨item, read⟩ : ∃ item, readBlock after.storage offset list.elementSize = some item :=
        exists_readBlock (by rw [length]; exact within)
      refine ⟨item, ?_, length_of_readBlock read, ?_⟩
      · rw [readValue, data, if_pos here, sized]
        exact read
      · intro memory equal
        cases equal

theorem memcpy_run {offset : Nat} {item storage : Bytes} (read : list.readValue value = some item)
    (write : writeBlock list.storage offset item = some storage) :
    list.memcpy offset value grants world = some ({ list with storage }, world) := by
  unfold memcpy
  rw [read, Option.bind_some, write]
  rfl

theorem GrowOutcome.same {minCapacity : Nat} {rc : TenErrorCode}
    (outcome : GrowOutcome machine grants world list minCapacity rc after)
    (there : minCapacity ≤ list.capacity) : rc = .ok ∧ after = list := by
  cases outcome with
  | enough => exact ⟨rfl, rfl⟩
  | grown full | refused full | freed full => omega

/-- What comes behind the growth in `ten_list_insert`: the item that `memcpy` reads
in the block that has been moved is inserted. -/
theorem Represents.insert_run (represents : Represents machine list items)
    (within : index ≤ list.count) (spare : list.count < list.capacity) :
    ∃ moved : Bytes, moved.length = list.storage.length ∧
      Cells list.elementSize (doubledAt items index) moved ∧
      ∀ item, ({ list with storage := moved } : TenListBytes).readValue value = some item →
        item.length = list.elementSize →
        ∃ after : TenListBytes, Represents machine after (items.insertIdx index item) ∧
          after.elementSize = list.elementSize ∧ after.capacity = list.capacity ∧
          ∀ grants world, (do
            let list ← list.moveUp machine index
            let list ← list.memcpy (list.slot machine index) value
            tenSetError .ok
            return (.ok, { list with count := machine.wrap (list.count + 1) }) :
              Ten (TenErrorCode × TenListBytes)) grants world =
            some ((.ok, after), { world with lastError := .ok }) := by
  obtain ⟨moved, gap, length, doubled, move⟩ := represents.moveUp within spare
  refine ⟨moved, length, doubled, ?_⟩
  intro item read itemSized
  have here : index ≤ items.length := by
    rw [represents.length]
    exact within
  obtain ⟨storage, write, cells⟩ := represents.cells.insert_gap here itemSized gap
  rw [← represents.slot_eq (by omega)] at write
  have counted : machine.wrap (list.count + 1) = list.count + 1 := represents.wrap_count spare
  have stays : storage.length = list.storage.length := (length_of_writeBlock write).trans length
  refine ⟨{ list with storage := storage, count := list.count + 1 }, ?_, rfl, rfl, ?_⟩
  · refine ⟨⟨⟨?_, spare⟩, represents.sized, ?_⟩, ?_, cells⟩
    · rw [stays]
      exact represents.room
    · rw [stays]
      exact represents.addressable
    · rw [List.length_insertIdx_of_le_length here, represents.length]
  · intro grants world
    have returns : Returns (do
        let list ← list.moveUp machine index
        let list ← list.memcpy (list.slot machine index) value
        tenSetError .ok
        return (.ok, { list with count := machine.wrap (list.count + 1) }) :
          Ten (TenErrorCode × TenListBytes)) grants world (fun reply world' =>
        (reply, world') = ((.ok, { list with storage := storage, count := list.count + 1 }),
          { world with lastError := .ok })) := by
      rw [returns_bind, returns_iff_of_run (move _ _), returns_bind]
      apply (returns_iff_of_run (memcpy_run read write)).mpr
      simp only [returns_bind, returns_tenSetError, returns_pure, counted]
    obtain ⟨reply, world', run, same⟩ := returns
    rw [run, same]

/-- `ten_list_insert` whose sizes do not wrap stays inside the storage, and
inserts the value or changes nothing. -/
theorem insertValue_spec (represents : Represents machine list items)
    (fits : index ≤ list.count → list.InsertFits machine grants world)
    (readable : index ≤ list.count → list.Readable value) :
    Returns (insertValue machine list index value) grants world (fun reply after =>
      after.lastError = reply.1 ∧ reply.2.elementSize = list.elementSize ∧
        (index ≤ list.count →
          CapacityOutcome machine grants world list (list.count + 1) reply.1 reply.2.capacity) ∧
        InsertOutcome machine grants world list items index value reply.1 reply.2) := by
  unfold insertValue
  apply returns_ite
  · intro beyond
    simp only [returns_bind, returns_tenSetError, returns_pure]
    exact ⟨trivial, trivial, fun within => absurd beyond (Nat.not_lt.mpr within),
      .outOfRange beyond⟩
  · intro inRange
    have within : index ≤ list.count := Nat.le_of_not_lt inRange
    obtain ⟨next, fits⟩ := fits within
    rw [Machine.wrap, Nat.mod_eq_of_lt next, returns_bind]
    apply (tenListGrow_spec list (list.count + 1)).mono
    rintro ⟨rc, grown⟩ world' outcome
    dsimp only at outcome ⊢
    obtain ⟨represented, sized, ⟨rfl, room⟩ | ⟨rfl, refusal⟩⟩ := outcome.represents represents fits
    · have counts : grown.count = list.count := represented.length.symm.trans represents.length
      obtain ⟨moved, length, -, insert⟩ : ∃ moved : Bytes,
          moved.length = grown.storage.length ∧ _ ∧ _ :=
        represented.insert_run (within.trans counts.ge) (by omega)
      obtain ⟨item, read, itemSized, copied⟩ : ∃ item,
          ({ grown with storage := moved } : TenListBytes).readValue value = some item ∧ _ :=
        (readable within).exists_readValue sized fun spare => by
          rw [(outcome.same spare).2] at length ⊢
          exact ⟨rfl, length⟩
      obtain ⟨after, inserted, sizedAfter, capacity, run⟩ :=
        insert item read (itemSized.trans sized.symm)
      simp only [ne_eq, not_true_eq_false, if_false]
      rw [returns_iff_of_run (run _ _)]
      refine ⟨rfl, sizedAfter.trans sized, fun _ => ?_, .inserted within copied inserted⟩
      rw [capacity]
      exact outcome.capacity
    · simp only [ne_eq, reduceCtorEq, not_false_eq_true, if_true, returns_bind,
        returns_tenSetError, returns_pure]
      exact ⟨trivial, sized, fun _ => outcome.capacity, .refused within refusal represented⟩

end Inserting

end TenListBytes

/-- The sizes that the call computes do not wrap, or the allocator refuses what
they would have led to. -/
def ListCall.Fits (machine : Machine) (grants : Schedule) (world : World) (list : TenListBytes) :
    ListCall → Prop
  | ⟨false, .add (some _)⟩ => list.InsertFits machine grants world
  | ⟨false, .insert index (some _)⟩ =>
      index ≤ list.count → list.InsertFits machine grants world
  | ⟨false, .reserve capacity⟩ => list.GrowthFits machine grants world capacity
  | _ => True

instance (machine : Machine) (grants : Schedule) (world : World) (list : TenListBytes) :
    Decidable (list.InsertFits machine grants world) := by
  unfold TenListBytes.InsertFits
  infer_instance

instance (machine : Machine) (grants : Schedule) (world : World) (list : TenListBytes)
    (call : ListCall) : Decidable (call.Fits machine grants world list) := by
  unfold ListCall.Fits
  split <;> infer_instance

/-- The element that the call copies can be read. -/
def ListCall.Readable (list : TenListBytes) : ListCall → Prop
  | ⟨false, .add (some value)⟩ => list.Readable value
  | ⟨false, .insert index (some value)⟩ => index ≤ list.count → list.Readable value
  | _ => True

instance (list : TenListBytes) (value : ListValue) : Decidable (list.Readable value) := by
  unfold TenListBytes.Readable
  split <;> infer_instance

instance (list : TenListBytes) (call : ListCall) : Decidable (call.Readable list) := by
  unfold ListCall.Readable
  split <;> infer_instance

/-- The value is an element in memory of the caller. -/
def ListValue.FromOutside (size : Nat) : ListValue → Prop
  | .outside memory => size ≤ memory.length
  | .inside _ _ => False

/-- No value that the call passes points into the list. -/
def ListCall.FromOutside (size : Nat) (call : ListCall) : Prop :=
  match call.request with
  | .add (some value) | .insert _ (some value) => value.FromOutside size
  | _ => True

instance (size : Nat) (value : ListValue) : Decidable (value.FromOutside size) := by
  unfold ListValue.FromOutside
  split <;> infer_instance

instance (size : Nat) (call : ListCall) : Decidable (call.FromOutside size) := by
  unfold ListCall.FromOutside
  split <;> infer_instance

/-- The ways in which a call on a sequence fails; `shortage` says that the
allocator may refuse a request. -/
inductive ListRefusal (shortage : Prop) (items : List Bytes) :
    ListCall → TenErrorCode → Prop where
  | nullList (request : ListRequest) : ListRefusal shortage items ⟨true, request⟩ .nullArgument
  | addNull : ListRefusal shortage items ⟨false, .add none⟩ .nullArgument
  | insertNull (index : Nat) : ListRefusal shortage items ⟨false, .insert index none⟩ .nullArgument
  | insertBeyond {index : Nat} (value : ListValue) (beyond : items.length < index) :
      ListRefusal shortage items ⟨false, .insert index (some value)⟩ .outOfRange
  | removeBeyond {index : Nat} (beyond : items.length ≤ index) :
      ListRefusal shortage items ⟨false, .removeAt index⟩ .outOfRange
  | getBeyond {index : Nat} (beyond : items.length ≤ index) :
      ListRefusal shortage items ⟨false, .get index⟩ .outOfRange
  | addNoMemory (value : ListValue) (short : shortage) :
      ListRefusal shortage items ⟨false, .add (some value)⟩ .outOfMemory
  | insertNoMemory {index : Nat} (value : ListValue) (within : index ≤ items.length)
      (short : shortage) : ListRefusal shortage items ⟨false, .insert index (some value)⟩ .outOfMemory
  | reserveNoMemory (capacity : Nat) (short : shortage) :
      ListRefusal shortage items ⟨false, .reserve capacity⟩ .outOfMemory

/-- What a sequence of elements of one size replies to a call, and becomes by
it. -/
inductive SequenceStep (size : Nat) (shortage : Prop) (items : List Bytes) :
    ListCall → ListReply → List Bytes → Prop where
  | added (memory : Bytes) :
      SequenceStep size shortage items ⟨false, .add (some (.outside memory))⟩ (.code .ok)
        (items ++ [memory.take size])
  | inserted {index : Nat} (memory : Bytes) (within : index ≤ items.length) :
      SequenceStep size shortage items ⟨false, .insert index (some (.outside memory))⟩ (.code .ok)
        (items.insertIdx index (memory.take size))
  | removed {index : Nat} (within : index < items.length) :
      SequenceStep size shortage items ⟨false, .removeAt index⟩ (.code .ok) (items.eraseIdx index)
  | got {index : Nat} {item : Bytes} (here : items[index]? = some item) :
      SequenceStep size shortage items ⟨false, .get index⟩ (.element item) items
  | reserved (capacity : Nat) :
      SequenceStep size shortage items ⟨false, .reserve capacity⟩ (.code .ok) items
  | refused {call : ListCall} {rc : TenErrorCode} (refusal : ListRefusal shortage items call rc) :
      SequenceStep size shortage items call (.code rc) items

theorem ListValue.FromOutside.readable {list : TenListBytes} {value : ListValue}
    (outside : value.FromOutside list.elementSize) : list.Readable value := by
  cases value with
  | outside memory => exact outside
  | inside address offset => cases outside

theorem ListCall.FromOutside.readable {list : TenListBytes} {call : ListCall}
    (outside : call.FromOutside list.elementSize) : call.Readable list := by
  unfold ListCall.Readable
  split
  · exact ListValue.FromOutside.readable outside
  · exact fun _ => ListValue.FromOutside.readable outside
  · trivial

section Calls

open TenListBytes

variable {machine : Machine} {grants : Schedule} {world : World} {list : TenListBytes}
  {items : List Bytes} {index : Nat}

/-- What a call leaves: the list represents a sequence again, which is what
became of the one before when the values came from outside. -/
def CallOutcome (machine : Machine) (grants : Schedule) (list : TenListBytes) (items : List Bytes)
    (call : ListCall) (reply : ListReply) (after : TenListBytes) : Prop :=
  ∃ items', Represents machine after items' ∧ after.elementSize = list.elementSize ∧
    (call.FromOutside list.elementSize →
      SequenceStep list.elementSize (¬ Ample grants) items call reply items')

theorem reserve_outcome (represents : Represents machine list items) {capacity : Nat}
    (fits : list.GrowthFits machine grants world capacity) :
    Returns (ListCall.perform machine list ⟨false, .reserve capacity⟩) grants world
      (fun out _ => CallOutcome machine grants list items ⟨false, .reserve capacity⟩ out.1 out.2) := by
  rw [perform_reserve]
  simp only [answer, tenListReserve, returns_bind]
  apply (tenListGrow_spec list capacity).mono
  rintro ⟨rc, grown⟩ world' outcome
  simp only [returns_tenSetError, returns_pure]
  obtain ⟨represented, sized, ⟨rfl, room⟩ | ⟨rfl, refusal⟩⟩ := outcome.represents represents fits
  · exact ⟨items, represented, sized, fun _ => .reserved capacity⟩
  · exact ⟨items, represented, sized,
      fun _ => .refused (.reserveNoMemory capacity (not_ample_of_refused refusal))⟩

theorem insert_outcome (represents : Represents machine list items) {value : ListValue}
    (fits : index ≤ list.count → list.InsertFits machine grants world)
    (readable : index ≤ list.count → list.Readable value) :
    Returns (ListCall.perform machine list ⟨false, .insert index (some value)⟩) grants world
      (fun out _ =>
        CallOutcome machine grants list items ⟨false, .insert index (some value)⟩ out.1 out.2) := by
  rw [perform_insert]
  simp only [answer, tenListInsert_some, returns_bind]
  apply (insertValue_spec represents fits readable).mono
  rintro ⟨rc, inserted⟩ world' ⟨-, sized, -, outcome⟩
  simp only [returns_pure]
  have length := represents.length
  cases outcome with
  | outOfRange beyond =>
      exact ⟨items, represents, rfl, fun _ => .refused (.insertBeyond value (by omega))⟩
  | refused within refusal represented =>
      exact ⟨items, represented, sized,
        fun _ => .refused (.insertNoMemory value (by omega) (not_ample_of_refused refusal))⟩
  | inserted within copied represented =>
      refine ⟨_, represented, sized, fun outside => ?_⟩
      cases value with
      | outside memory =>
          rw [copied memory rfl]
          exact .inserted memory (by omega)
      | inside address offset => cases outside

/-- An append is an insert behind the last element. -/
theorem SequenceStep.add_of_insert {size : Nat} {shortage : Prop} {value : ListValue}
    {reply : ListReply} {items' : List Bytes}
    (step : SequenceStep size shortage items ⟨false, .insert items.length (some value)⟩ reply items') :
    SequenceStep size shortage items ⟨false, .add (some value)⟩ reply items' := by
  cases step with
  | inserted memory within =>
      rw [List.insertIdx_length_self]
      exact .added memory
  | refused refusal =>
      cases refusal with
      | insertBeyond _ beyond => omega
      | insertNoMemory _ within short => exact .refused (.addNoMemory value short)

theorem removeAt_outcome (represents : Represents machine list items) :
    Returns (ListCall.perform machine list ⟨false, .removeAt index⟩) grants world (fun out _ =>
      CallOutcome machine grants list items ⟨false, .removeAt index⟩ out.1 out.2) := by
  have length := represents.length
  rw [perform_removeAt]
  simp only [answer, tenListRemoveAt, returns_bind]
  apply returns_ite
  · intro beyond
    simp only [returns_bind, returns_tenSetError, returns_pure]
    exact ⟨items, represents, rfl, fun _ => .refused (.removeBeyond (by omega))⟩
  · intro inRange
    have within : index < list.count := Nat.lt_of_not_le inRange
    obtain ⟨moved, cells, stays, move⟩ := represents.moveDown within
    rw [returns_bind, returns_iff_of_run (move _ _)]
    simp only [returns_bind, returns_tenSetError, returns_pure, Option.getD_some]
    refine ⟨_, ⟨⟨⟨?_, ?_⟩, represents.sized, ?_⟩, ?_, cells⟩, rfl, fun _ => .removed (by omega)⟩
    · rw [stays]
      exact represents.room
    · exact (Nat.sub_le _ _).trans represents.counted
    · rw [stays]
      exact represents.addressable
    · rw [List.length_eraseIdx_of_lt (by omega), length]

theorem get_outcome (represents : Represents machine list items) :
    Returns (ListCall.perform machine list ⟨false, .get index⟩) grants world (fun out _ =>
      CallOutcome machine grants list items ⟨false, .get index⟩ out.1 out.2) := by
  have length := represents.length
  rw [perform_get, tenListGet_some, returns_bind]
  apply returns_ite
  · intro beyond
    simp only [readElement, returns_bind, returns_tenSetError, returns_tenLastError, returns_pure]
    exact ⟨items, represents, rfl, fun _ => .refused (.getBeyond (by omega))⟩
  · intro inRange
    have within : index < list.count := Nat.lt_of_not_le inRange
    obtain ⟨item, here⟩ : ∃ item, items[index]? = some item :=
      ⟨_, List.getElem?_eq_getElem (by omega)⟩
    have read := represents.cells.read here
    rw [← represents.slot_eq (within.le.trans represents.counted)] at read
    simp only [readElement, read, returns_bind, returns_tenSetError, returns_pure]
    exact ⟨items, represents, rfl, fun _ => .got here⟩

/-- Every call whose sizes do not wrap stays inside the storage. -/
theorem perform_spec (represents : Represents machine list items) {call : ListCall}
    (fits : call.Fits machine grants world list) (readable : call.Readable list) :
    Returns (call.perform machine list) grants world (fun out _ =>
      CallOutcome machine grants list items call out.1 out.2) := by
  obtain ⟨onNull, request⟩ := call
  cases onNull with
  | true =>
      rw [perform_null]
      simp only [returns_bind, returns_tenSetError, returns_pure]
      exact ⟨items, represents, rfl, fun _ => .refused (.nullList request)⟩
  | false =>
      cases request with
      | add value =>
          rw [perform_add]
          cases value with
          | none =>
              rw [perform_insert, tenListInsert_nullValue]
              simp only [answer, returns_bind, returns_tenSetError, returns_pure]
              exact ⟨items, represents, rfl, fun _ => .refused .addNull⟩
          | some value =>
              apply (insert_outcome represents (fun _ => fits) (fun _ => readable)).mono
              rintro out _ ⟨items', represented, sized, step⟩
              refine ⟨items', represented, sized, fun outside => ?_⟩
              have step := step outside
              rw [← represents.length] at step
              exact step.add_of_insert
      | insert index value =>
          cases value with
          | none =>
              rw [perform_insert, tenListInsert_nullValue]
              simp only [answer, returns_bind, returns_tenSetError, returns_pure]
              exact ⟨items, represents, rfl, fun _ => .refused (.insertNull index)⟩
          | some value => exact insert_outcome represents fits readable
      | removeAt index => exact removeAt_outcome represents
      | get index => exact get_outcome represents
      | reserve capacity => exact reserve_outcome represents fits

end Calls

end Dotten
