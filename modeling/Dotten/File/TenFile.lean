/-
Module: Dotten.File.TenFile
Layer: File
Purpose: The files of file_posix.c that ten_file_copy uses.  The system decides
  which calls fail, and how many bytes a call moves.
Imports: Dotten.Core.World, Dotten.Library.FileStore
Main exports: SystemAnswer, Disk, TenFileMode, TenFile, tenFileOpen,
  tenFileRead, tenFileWrite, tenFileCopy
-/
import Dotten.Core.World
import Dotten.Library.FileStore

namespace Dotten

open Dotten.Library

/-- What the system does with a call: it fails it, with `ENOENT` or with another
error, or lets it through.  A `read` or `write` that goes through moves at most
so many bytes. -/
inductive SystemAnswer where
  | fails (noEntry : Bool)
  | moves (atMost : Nat)

/-- The answers to the calls of a run. -/
abbrev SystemSchedule := Nat → SystemAnswer

/-- The files, and the number of system calls made so far. -/
structure Disk where
  files : FileStore CString
  calls : Nat

/-- `ten__file_mode_t`. -/
structure TenFileMode where
  read : Bool
  write : Bool
  append : Bool
  truncate : Bool
  create : Bool
deriving DecidableEq, Repr

/-- `ten__parse_file_mode`. -/
def tenParseFileMode (mode : CString) : TenFileMode :=
  let len := mode.length
  let hasPlus : Bool := len > 0 ∧ (mode.bytes[len - 1]? = some (ascii '+') ∨
    (len > 1 ∧ mode.bytes[1]? = some (ascii '+')))
  let m : TenFileMode := ⟨false, false, false, false, false⟩
  match mode.bytes[0]? with
  | none => m
  | some first =>
      if first = ascii 'r' then { m with read := true, write := hasPlus }
      else if first = ascii 'w' then
        { m with write := true, create := true, truncate := true, read := hasPlus }
      else if first = ascii 'a' then
        { m with write := true, create := true, append := true, read := hasPlus }
      else m

/-- `ten_file_t`, with what the system keeps of an open file. -/
structure TenFile where
  number : Nat
  mode : TenFileMode
  offset : Nat
deriving DecidableEq, Repr

/-- `open` with the flags of a mode: the error is whether `errno` is `ENOENT`. -/
def posixOpen (system : SystemSchedule) (disk : Disk) (path : CString) (m : TenFileMode) :
    Except Bool TenFile × Disk :=
  let calls := disk.calls + 1
  match system disk.calls with
  | .fails noEntry => (.error noEntry, { disk with calls })
  | .moves _ =>
      match disk.files.file path with
      | some number =>
          let files := if m.truncate then disk.files.put number [] else disk.files
          (.ok { number, mode := m, offset := 0 }, { files, calls })
      | none =>
          if m.create then
            (.ok { number := disk.files.fresh, mode := m, offset := 0 },
              { files := disk.files.create path, calls })
          else (.error true, { disk with calls })

/-- `ten_file_open`. -/
def tenFileOpen (system : SystemSchedule) (disk : Disk) (path mode : Option CString) :
    Ten (Option TenFile × Disk) :=
  match path, mode with
  | some path, some mode => do
      let m := tenParseFileMode mode
      if ¬ m.read ∧ ¬ m.write then
        tenSetError .invalidArgument
        return (none, disk)
      match posixOpen system disk path m with
      | (.error noEntry, disk) =>
          tenSetError (if noEntry then .notFound else .io)
          return (none, disk)
      | (.ok file, disk) =>
          let some _ ← tenMalloc
            | return (none, disk)
          tenSetError .ok
          return (some file, disk)
  | _, _ => do
      tenSetError .nullArgument
      return (none, disk)

/-- `ten_file_read` of at most `size` bytes: the bytes, whose number it
returns. -/
def tenFileRead (system : SystemSchedule) (disk : Disk) (file : TenFile) (size : Nat) :
    Ten (Bytes × TenFile × Disk) := do
  if size = 0 then
    tenSetError .ok
    return ([], file, disk)
  let after := { disk with calls := disk.calls + 1 }
  match file.mode.read, system disk.calls with
  | true, .moves atMost =>
      let left := (disk.files.bytes file.number).drop file.offset
      -- zero bytes are read at the end of the file only
      let buffer := left.take (min (max atMost 1) size)
      tenSetError .ok
      return (buffer, { file with offset := file.offset + buffer.length }, after)
  | _, _ =>
      tenSetError .io
      return ([], file, after)

/-- `ten_file_write` of the first `size` bytes of a buffer: how many were
written. -/
def tenFileWrite (system : SystemSchedule) (disk : Disk) (file : TenFile) (buffer : Bytes)
    (size : Nat) : Ten (Nat × TenFile × Disk) := do
  if size = 0 then
    tenSetError .ok
    return (0, file, disk)
  let after := { disk with calls := disk.calls + 1 }
  match file.mode.write, system disk.calls with
  | true, .moves atMost =>
      let n := min atMost size
      let bytes := disk.files.bytes file.number
      let offset := if file.mode.append then bytes.length else file.offset
      let files := disk.files.put file.number (writeAt bytes offset (buffer.take n))
      tenSetError .ok
      return (n, { file with offset := offset + n }, { after with files })
  | _, _ =>
      tenSetError .io
      return (0, file, after)

/-- The loop of `ten_file_copy`, with a bound on its passes: the code that is
returned. -/
def tenFileCopyLoop (system : SystemSchedule) :
    Nat → Disk → TenFile → TenFile → Ten (TenErrorCode × Disk)
  | 0, _, _, _ => stuck
  | passes + 1, disk, src, dst => do
      let (buf, src, disk) ← tenFileRead system disk src 8192
      if buf.length = 0 then
        let error ← tenLastError
        return (if error ≠ .ok then .io else .ok, disk)
      let (n, dst, disk) ← tenFileWrite system disk dst buf buf.length
      if n ≠ buf.length then
        return (.io, disk)
      tenFileCopyLoop system passes disk src dst

/-- The modes of `ten_file_copy`. -/
def modeRb : CString := ⟨asciiBytes ['r', 'b'], by decide⟩

def modeWb : CString := ⟨asciiBytes ['w', 'b'], by decide⟩

/-- `ten_file_copy`.  Every pass but the last reads a byte at least. -/
def tenFileCopy (system : SystemSchedule) (disk : Disk) (source destination : Option CString) :
    Ten (TenErrorCode × Disk) := do
  if source = none ∨ destination = none then
    tenSetError .nullArgument
    return (.nullArgument, disk)
  let (some src, disk) ← tenFileOpen system disk source (some modeRb)
    | return (← tenLastError, disk)
  let (some dst, disk) ← tenFileOpen system disk destination (some modeWb)
    | return (← tenLastError, disk)
  let passes := (disk.files.bytes src.number).length + 1
  let (rc, disk) ← tenFileCopyLoop system passes disk src dst
  tenSetError rc
  return (rc, disk)

end Dotten
