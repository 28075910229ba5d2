/-
Module: Dotten.File.FileCopy
Layer: File
Purpose: When ten_file_copy copies: unless the names are those of one file that
  is not empty, which opening the destination empties.
Imports: Dotten.File.TenFile
Main exports: Copying, Copied, tenFileCopyLoop_spec, Separate,
  tenFileCopy_copies_iff
-/
import Dotten.File.TenFile

namespace Dotten

open Dotten.Library

section Calls

variable {grants : Schedule} {world : World} {system : SystemSchedule} {disk : Disk}

/-- `ten_file_open` with a mode it knows: the file that `open` opens, unless the
last error says why there is none. -/
theorem tenFileOpen_spec (path : CString) {mode : CString}
    (known : (tenParseFileMode mode).read = true ∨ (tenParseFileMode mode).write = true) :
    Returns (tenFileOpen system disk (some path) (some mode)) grants world
      (fun (reply, after) last => (reply = none ∧ last.lastError ≠ .ok) ∨
        ∃ file, posixOpen system disk path (tenParseFileMode mode) = (.ok file, after) ∧
          reply = some file) := by
  unfold tenFileOpen
  dsimp only
  apply returns_ite
  · rintro ⟨notRead, notWrite⟩
    exact absurd known (not_or.mpr ⟨notRead, notWrite⟩)
  · intro _
    rcases opened : posixOpen system disk path (tenParseFileMode mode) with ⟨noEntry | file, after⟩
    · simp only [returns_bind, returns_tenSetError, returns_pure]
      refine .inl ⟨trivial, ?_⟩
      split_ifs <;> decide
    · simp only [returns_bind, returns_tenMalloc, returns_tenSetError, returns_pure]
      constructor
      · intro granted
        exact .inr ⟨file, rfl, rfl⟩
      · intro refused
        exact .inl ⟨trivial, by simp⟩

theorem parse_modeRb : tenParseFileMode modeRb = ⟨true, false, false, false, false⟩ := by decide

theorem parse_modeWb : tenParseFileMode modeWb = ⟨false, true, false, true, true⟩ := by decide

/-- What `open` does to the files when it opens one. -/
inductive OpenOutcome (files : FileStore CString) (path : CString) (m : TenFileMode) :
    Nat → FileStore CString → Prop where
  | there {number : Nat} (bound : files.file path = some number) (keep : m.truncate = false) :
      OpenOutcome files path m number files
  | truncated {number : Nat} (bound : files.file path = some number) (empty : m.truncate = true) :
      OpenOutcome files path m number (files.put number [])
  | created (absent : files.file path = none) (wanted : m.create = true) :
      OpenOutcome files path m files.fresh (files.create path)

theorem posixOpen_ok {path : CString} {m : TenFileMode} {file : TenFile} {after : Disk}
    (opened : posixOpen system disk path m = (.ok file, after)) :
    file.mode = m ∧ file.offset = 0 ∧ OpenOutcome disk.files path m file.number after.files := by
  unfold posixOpen at opened
  dsimp only at opened
  split at opened
  · cases opened
  split at opened
  · rename_i number bound
    cases opened
    refine ⟨rfl, rfl, ?_⟩
    cases truncate : m.truncate with
    | false => exact .there bound truncate
    | true => exact .truncated bound truncate
  · rename_i absent
    split at opened
    · rename_i create
      cases opened
      exact ⟨rfl, rfl, .created absent create⟩
    · cases opened

/-- What a `read` of some bytes does: it reads none at the end of the file
only. -/
inductive ReadOutcome (disk : Disk) (file : TenFile) :
    Bytes × TenFile × Disk → TenErrorCode → Prop where
  | failed {after : Disk} {error : TenErrorCode} (bad : error ≠ .ok) :
      ReadOutcome disk file ([], file, after) error
  | moved {after : Disk} {error : TenErrorCode} {chunk : Bytes} (good : error = .ok)
      (kept : after.files = disk.files)
      (starts : chunk <+: (disk.files.bytes file.number).drop file.offset)
      (atEnd : chunk = [] → (disk.files.bytes file.number).drop file.offset = []) :
      ReadOutcome disk file (chunk, { file with offset := file.offset + chunk.length }, after) error

theorem tenFileRead_spec (file : TenFile) {size : Nat} (positive : 0 < size) :
    Returns (tenFileRead system disk file size) grants world
      (fun reply last => ReadOutcome disk file reply last.lastError) := by
  rw [tenFileRead]
  apply returns_ite
  · intro zero
    omega
  · intro _
    dsimp only
    split
    · simp only [returns_bind, returns_tenSetError, returns_pure]
      refine .moved rfl rfl (List.take_prefix _ _) ?_
      intro none
      rcases List.take_eq_nil_iff.mp none with zero | empty
      · omega
      · exact empty
    · simp only [returns_bind, returns_tenSetError, returns_pure]
      exact .failed (by decide)

/-- A `write` that moves all its bytes. -/
theorem tenFileWrite_spec {file : TenFile} (plain : file.mode.append = false) {buffer : Bytes}
    (nonempty : buffer.length ≠ 0) :
    Returns (tenFileWrite system disk file buffer buffer.length) grants world
      (fun (n, file', after) _ => n = buffer.length →
        after.files = disk.files.put file.number
            (writeAt (disk.files.bytes file.number) file.offset buffer) ∧
          file' = { file with offset := file.offset + buffer.length }) := by
  rw [tenFileWrite]
  apply returns_ite
  · intro zero
    exact absurd zero nonempty
  · intro _
    dsimp only
    split
    · simp only [returns_bind, returns_tenSetError, returns_pure]
      intro all
      rw [all, List.take_length, plain]
      exact ⟨rfl, rfl⟩
    · simp only [returns_bind, returns_tenSetError, returns_pure]
      intro none
      exact absurd none.symm nonempty

end Calls

section Loop

variable {grants : Schedule} {system : SystemSchedule} {source destination : CString}
  {whole : Bytes}

/-- The state between two passes of the loop: the source still holds its bytes,
and the destination those that have been read.  While there are more, the two
are different files. -/
structure Copying (source destination : CString) (whole : Bytes) (disk : Disk)
    (src dst : TenFile) : Prop where
  plain : dst.mode.append = false
  sourceFile : disk.files.file source = some src.number
  destinationFile : disk.files.file destination = some dst.number
  sourceBytes : disk.files.bytes src.number = whole
  destinationBytes : disk.files.bytes dst.number = whole.take src.offset
  within : src.offset ≤ whole.length
  offset : dst.offset = src.offset
  apart : src.offset < whole.length → src.number ≠ dst.number

/-- The files after a call that succeeded. -/
def Copied (source destination : CString) (whole : Bytes) (disk : Disk) : Prop :=
  disk.files.lookup destination = some whole ∧ disk.files.lookup source = some whole

/-- One pass moves the bytes it has read. -/
theorem Copying.pass {disk after : Disk} {src dst : TenFile} {chunk : Bytes}
    (copying : Copying source destination whole disk src dst)
    (starts : chunk <+: whole.drop src.offset) (nonempty : chunk ≠ [])
    (written : after.files = disk.files.put dst.number
      (writeAt (disk.files.bytes dst.number) dst.offset chunk)) :
    Copying source destination whole after { src with offset := src.offset + chunk.length }
      { dst with offset := dst.offset + chunk.length } := by
  obtain ⟨rest, split⟩ := starts
  have remaining := congrArg List.length split
  rw [List.length_append, List.length_drop] at remaining
  have positive := List.length_pos_iff.mpr nonempty
  have apart := copying.apart (by omega)
  have bytes : writeAt (disk.files.bytes dst.number) dst.offset chunk =
      whole.take (src.offset + chunk.length) := by
    have length : (whole.take src.offset).length = src.offset :=
      List.length_take_of_le copying.within
    have appended := writeAt_end (whole.take src.offset) chunk
    rw [length] at appended
    rw [copying.destinationBytes, copying.offset, appended, List.take_add, ← split,
      List.take_left]
  constructor
  · exact copying.plain
  · rw [written]
    exact copying.sourceFile
  · rw [written]
    exact copying.destinationFile
  · rw [written, FileStore.put_bytes_of_ne apart]
    exact copying.sourceBytes
  · rw [written, FileStore.put_bytes_self, bytes]
  · have within := copying.within
    dsimp only
    omega
  · rw [copying.offset]
  · exact fun _ => apart

/-- The loop ends, and copies when it succeeds. -/
theorem tenFileCopyLoop_spec (passes : Nat) :
    ∀ {disk : Disk} {src dst : TenFile} {world : World},
      Copying source destination whole disk src dst → whole.length - src.offset < passes →
      Returns (tenFileCopyLoop system passes disk src dst) grants world
        (fun (rc, after) _ => rc = .ok → Copied source destination whole after) := by
  induction passes with
  | zero =>
      intro disk src dst world _ enough
      omega
  | succ passes inductionHypothesis =>
      intro disk src dst world copying enough
      rw [tenFileCopyLoop, returns_bind]
      apply (tenFileRead_spec src (by decide)).mono
      rintro reply between outcome
      cases outcome with
      | failed bad =>
          simp only [List.length_nil, if_true, returns_bind, returns_tenLastError, returns_pure,
            if_pos bad]
          intro impossible
          cases impossible
      | moved good kept starts atEnd =>
          rename_i after chunk
          rw [copying.sourceBytes] at starts atEnd
          apply returns_ite
          · intro none
            simp only [returns_bind, returns_tenLastError, returns_pure, good, ne_eq,
              not_true_eq_false, if_false]
            intro _
            have finished := List.drop_eq_nil_iff.mp (atEnd (List.length_eq_zero_iff.mp none))
            have copied := copying.destinationBytes
            rw [List.take_of_length_le finished] at copied
            rw [Copied, kept, FileStore.lookup_of_file copying.sourceFile,
              FileStore.lookup_of_file copying.destinationFile, copying.sourceBytes, copied]
            exact ⟨rfl, rfl⟩
          · intro some
            simp only [returns_bind]
            apply (tenFileWrite_spec copying.plain some).mono
            rintro ⟨n, dst', last⟩ _ written
            apply returns_ite
            · intro _
              rw [returns_pure]
              intro impossible
              cases impossible
            · intro all
              obtain ⟨files, rfl⟩ := written (not_not.mp all)
              rw [kept] at files
              have nonempty : chunk ≠ [] := fun none => some (List.length_eq_zero_iff.mpr none)
              have shorter := starts.length_le
              have positive := List.length_pos_iff.mpr nonempty
              rw [List.length_drop] at shorter
              apply inductionHypothesis (copying.pass starts nonempty files)
              dsimp only
              omega

end Loop

section Copy

variable {grants : Schedule} {system : SystemSchedule} {disk : Disk}
  {source destination : CString}

/-- The destination is not a second name of a source that has bytes. -/
def Separate (files : FileStore CString) (source destination : CString) : Prop :=
  ∀ number, files.file source = some number → files.file destination = some number →
    files.bytes number = []

/-- Opening the source finds it, and changes no file. -/
theorem OpenOutcome.found {files after : FileStore CString} {path : CString} {number : Nat}
    (opened : OpenOutcome files path (tenParseFileMode modeRb) number after) :
    files.file path = some number ∧ after = files := by
  rw [parse_modeRb] at opened
  cases opened with
  | there bound keep => exact ⟨bound, rfl⟩
  | truncated bound empty => cases empty
  | created absent wanted => cases wanted

/-- Opening the destination empties it, and changes no other file. -/
theorem OpenOutcome.emptied {files after : FileStore CString} {path other : CString}
    {number : Nat} (opened : OpenOutcome files path (tenParseFileMode modeWb) number after) :
    after.file path = some number ∧ after.bytes number = [] ∧
      ∀ another, files.file other = some another → after.file other = some another ∧
        (another = number ∧ files.file path = some another ∨
          another ≠ number ∧ after.bytes another = files.bytes another) := by
  rw [parse_modeWb] at opened
  cases opened with
  | there bound keep => cases keep
  | truncated bound empty =>
      refine ⟨bound, FileStore.put_bytes_self, ?_⟩
      intro another otherBound
      refine ⟨otherBound, ?_⟩
      by_cases same : another = number
      · exact .inl ⟨same, by rw [same]; exact bound⟩
      · exact .inr ⟨same, FileStore.put_bytes_of_ne same⟩
  | created absent wanted =>
      refine ⟨FileStore.create_file_self, FileStore.create_bytes_fresh, ?_⟩
      intro another otherBound
      have different : other ≠ path := by
        rintro rfl
        rw [otherBound] at absent
        cases absent
      refine ⟨(FileStore.create_file_of_ne different).trans otherBound, .inr ⟨?_, ?_⟩⟩
      · exact Nat.ne_of_lt (files.unused other another otherBound)
      · exact FileStore.create_bytes_of_file otherBound

/-- The loop starts with the destination empty, and the source as it was. -/
theorem copying_start {files : FileStore CString} {after : Disk} {src dst : TenFile}
    (separate : Separate files source destination)
    (bound : files.file source = some src.number) (start : src.offset = 0)
    (mode : dst.mode = tenParseFileMode modeWb) (offset : dst.offset = 0)
    (opened : OpenOutcome files destination (tenParseFileMode modeWb) dst.number after.files) :
    Copying source destination (files.bytes src.number) after src dst := by
  obtain ⟨target, empty, others⟩ := opened.emptied
  obtain ⟨kept, outcome⟩ := others src.number bound
  have apart : 0 < (files.bytes src.number).length → src.number ≠ dst.number := by
    intro positive same
    rcases outcome with ⟨-, twice⟩ | ⟨differ, -⟩
    · rw [separate _ bound twice] at positive
      exact absurd positive (Nat.lt_irrefl 0)
    · exact differ same
  constructor
  · rw [mode, parse_modeWb]
  · exact kept
  · exact target
  · rcases outcome with ⟨same, twice⟩ | ⟨-, bytes⟩
    · rw [separate _ bound twice, same, empty]
    · exact bytes
  · rw [empty, start, List.take_zero]
  · rw [start]
    exact Nat.zero_le _
  · rw [offset, start]
  · rw [start]
    exact apart

/-- `ten_file_copy` on separate files copies when it succeeds. -/
theorem tenFileCopy_spec {world : World} (separate : Separate disk.files source destination) :
    Returns (tenFileCopy system disk (some source) (some destination)) grants world
      (fun (rc, after) _ => rc = .ok → ∃ whole, disk.files.lookup source = some whole ∧
        Copied source destination whole after) := by
  rw [tenFileCopy]
  apply returns_ite
  · rintro (impossible | impossible)
    · cases impossible
    · cases impossible
  intro _
  rw [returns_bind]
  apply (tenFileOpen_spec source (by decide)).mono
  rintro ⟨reply, opened⟩ between (⟨rfl, bad⟩ | ⟨src, openedSource, rfl⟩)
  · simp only [returns_bind, returns_tenLastError, returns_pure]
    intro ok
    exact absurd ok bad
  obtain ⟨-, start, outcome⟩ := posixOpen_ok openedSource
  obtain ⟨bound, files⟩ := outcome.found
  simp only [returns_bind]
  apply (tenFileOpen_spec destination (by decide)).mono
  rintro ⟨reply, ready⟩ middle (⟨rfl, bad⟩ | ⟨dst, openedDestination, rfl⟩)
  · simp only [returns_bind, returns_tenLastError, returns_pure]
    intro ok
    exact absurd ok bad
  obtain ⟨mode, offset, outcome⟩ := posixOpen_ok openedDestination
  rw [files] at outcome
  have copying := copying_start separate bound start mode offset outcome
  have enough : (disk.files.bytes src.number).length - src.offset <
      (ready.files.bytes src.number).length + 1 := by
    rw [copying.sourceBytes]
    omega
  simp only [returns_bind, returns_tenSetError, returns_pure]
  apply (tenFileCopyLoop_spec _ copying enough).mono
  rintro ⟨rc, after⟩ _ copied ok
  exact ⟨_, FileStore.lookup_of_file bound, copied ok⟩

/-- Where nothing fails, copying a file onto itself succeeds and empties it. -/
theorem tenFileCopy_self {disk : Disk} {number : Nat}
    (bound : disk.files.file source = some number)
    (same : disk.files.file destination = some number) :
    Returns (tenFileCopy (fun _ => .moves 1) disk (some source) (some destination))
      (fun _ => true) default (fun (rc, after) _ =>
        rc = .ok ∧ after.files.lookup destination = some []) := by
  have opensSource : posixOpen (fun _ => .moves 1) disk source ⟨true, false, false, false, false⟩ =
      (.ok ⟨number, ⟨true, false, false, false, false⟩, 0⟩,
        { files := disk.files, calls := disk.calls + 1 }) := by
    simp [posixOpen, bound]
  have empties : posixOpen (fun _ => .moves 1) { files := disk.files, calls := disk.calls + 1 }
      destination ⟨false, true, false, true, true⟩ =
      (.ok ⟨number, ⟨false, true, false, true, true⟩, 0⟩,
        { files := disk.files.put number [], calls := disk.calls + 2 }) := by
    simp [posixOpen, same]
  have outcome : (disk.files.put number []).lookup destination = some [] := by
    have bound : (disk.files.put number []).file destination = some number := same
    rw [FileStore.lookup_of_file bound, FileStore.put_bytes_self]
  simp [tenFileCopy, tenFileOpen, parse_modeRb, parse_modeWb, opensSource, empties,
    tenFileCopyLoop, tenFileRead, outcome]

/-- `ten_file_copy` copies, whatever the system does, exactly for separate
files. -/
theorem tenFileCopy_copies_iff (disk : Disk) (source destination : CString) :
    (∀ (system : SystemSchedule) (grants : Schedule) (world : World),
        Returns (tenFileCopy system disk (some source) (some destination)) grants world
          (fun (rc, after) _ => rc = .ok → ∃ whole, disk.files.lookup source = some whole ∧
            Copied source destination whole after)) ↔
      Separate disk.files source destination := by
  constructor
  · intro copies number bound same
    obtain ⟨⟨rc, after⟩, last, run, ok, emptied⟩ := tenFileCopy_self bound same
    obtain ⟨whole, before, copied, -⟩ := (copies _ _ _).eq run ok
    rw [FileStore.lookup_of_file bound, Option.some.injEq] at before
    rw [emptied, Option.some.injEq] at copied
    rw [before, ← copied]
  · intro separate system grants world
    exact tenFileCopy_spec separate

end Copy

def nameA : CString := ⟨asciiBytes ['a'], by decide⟩

/-- One name, bound to a file of one byte. -/
def oneFile : Disk where
  files :=
    { file := fun name => if name = nameA then some 0 else none
      bytes := fun _ => [0x41]
      fresh := 1
      unused := by
        intro name number bound
        split_ifs at bound
        cases bound
        decide }
  calls := 0

theorem tenFileCopy_not_copies_self :
    ¬ ∀ (system : SystemSchedule) (grants : Schedule) (world : World),
      Returns (tenFileCopy system oneFile (some nameA) (some nameA)) grants world
        (fun (rc, after) _ => rc = .ok → ∃ whole,
          oneFile.files.lookup nameA = some whole ∧ Copied nameA nameA whole after) := by
  intro copies
  have bound : oneFile.files.file nameA = some 0 := by decide
  obtain ⟨⟨rc, after⟩, last, run, ok, emptied⟩ := tenFileCopy_self bound bound
  obtain ⟨whole, before, copied, -⟩ := (copies _ _ _).eq run ok
  rw [FileStore.lookup_of_file bound, Option.some.injEq] at before
  rw [emptied, Option.some.injEq, ← before] at copied
  cases copied

end Dotten
