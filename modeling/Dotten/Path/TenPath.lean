/-
Module: Dotten.Path.TenPath
Layer: Path
Purpose: ten_path_join and ten_path_is_absolute of path.c, on either platform.
  Joining is associative; on POSIX a joined path may lose the separator that
  made it absolute.
Imports: Dotten.Core.World, Dotten.Library.Trim
Main exports: Platform, tenIsSep, tenPathJoin, tenPathIsAbsolute,
  joinLeft, joinRight, tenPathJoin_assoc, tenPathJoin_keepsAbsolute_iff
-/
import Dotten.Core.World
import Dotten.Library.Trim

namespace Dotten

open Dotten.Library

/-- What `_WIN32` decides. -/
inductive Platform where
  | posix
  | windows
deriving DecidableEq, Repr

/-- `TEN_PATH_SEPARATOR`. -/
def tenPathSeparator : Platform → Byte
  | .posix => ascii '/'
  | .windows => ascii '\\'

/-- `ten__is_sep`. -/
def tenIsSep (c : Byte) : Bool := c = ascii '/' || c = ascii '\\'

/-- `ten_path_join`.  The two loops trim `a` at its end and `b` at its start. -/
def tenPathJoin (platform : Platform) (a b : Option CString) : Ten (Option CString) :=
  match a, b with
  | some a, some b => do
      let a := a.bytes.rdropWhile tenIsSep
      let b := b.bytes.dropWhile tenIsSep
      let needSep : Bool := a.length > 0 ∧ b.length > 0
      let some _ ← tenMalloc
        | return none
      let result := a ++ (if needSep then [tenPathSeparator platform] else []) ++ b
      tenSetError .ok
      return some (CString.ofMemory (result ++ [0]))
  | _, _ => do
      tenSetError .nullArgument
      return none

/-- `ten_path_is_absolute`. -/
def tenPathIsAbsolute (platform : Platform) (path : Option CString) : Ten Bool :=
  match path with
  | none => do
      tenSetError .nullArgument
      return false
  | some path => do
      tenSetError .ok
      let at? := fun i => path.bytes.getD i 0
      match platform with
      | .windows =>
          if tenIsSep (at? 0) then return true
          if ((at? 0 ≥ ascii 'A' ∧ at? 0 ≤ ascii 'Z') ∨ (at? 0 ≥ ascii 'a' ∧ at? 0 ≤ ascii 'z')) ∧
              at? 1 = ascii ':' ∧ tenIsSep (at? 2) then
            return true
          return false
      | .posix => return at? 0 = ascii '/'

section Joining

variable {grants : Schedule} {world : World} {platform : Platform}

/-- The separator as the code decides on it. -/
theorem glue_of_length (separator : Byte) (left right : Bytes) :
    left ++ (if decide (left.length > 0 ∧ right.length > 0) = true then [separator] else []) ++
      right = glue separator left right := by
  cases left with
  | nil => simp
  | cons c left =>
      cases right with
      | nil => simp
      | cons d right => simp [glue]

/-- The path that joins two paths. -/
def joined (platform : Platform) (a b : CString) : CString where
  bytes := joinTrimmed tenIsSep (tenPathSeparator platform) a.bytes b.bytes
  noNul := by
    have separator : (0 : Byte) ≠ tenPathSeparator platform := by
      cases platform <;> decide
    intro zero
    rw [joinTrimmed, glue, List.mem_append, List.mem_append] at zero
    rcases zero with (left | middle) | right
    · exact a.noNul ((List.rdropWhile_prefix _ _).subset left)
    · split_ifs at middle
      · cases middle
      · exact separator (List.mem_singleton.mp middle)
    · exact b.noNul ((List.dropWhile_sublist _).subset right)

/-- `ten_path_join` returns the joined path, unless the block is refused. -/
theorem tenPathJoin_spec (a b : CString) :
    Returns (tenPathJoin platform (some a) (some b)) grants world (fun reply _ =>
      (reply = none ∧ ¬ Ample grants) ∨ reply = some (joined platform a b)) := by
  have result : CString.ofMemory (glue (tenPathSeparator platform) (a.bytes.rdropWhile tenIsSep)
      (b.bytes.dropWhile tenIsSep) ++ [0]) = joined platform a b :=
    CString.ofMemory_append_nul (joined platform a b) []
  simp only [tenPathJoin, returns_bind, returns_tenMalloc, returns_tenSetError, returns_pure,
    glue_of_length, result]
  constructor
  · intro granted
    exact .inr trivial
  · intro refused
    exact .inl ⟨trivial, not_ample_of_refused refused⟩

/-- `ten_path_join(ten_path_join(a, b), c)`. -/
def joinLeft (platform : Platform) (a b c : CString) : Ten (Option CString) := do
  let ab ← tenPathJoin platform (some a) (some b)
  tenPathJoin platform ab (some c)

/-- `ten_path_join(a, ten_path_join(b, c))`. -/
def joinRight (platform : Platform) (a b c : CString) : Ten (Option CString) := do
  let bc ← tenPathJoin platform (some b) (some c)
  tenPathJoin platform (some a) bc

theorem joined_assoc (a b c : CString) :
    joined platform (joined platform a b) c = joined platform a (joined platform b c) :=
  CString.ext (joinTrimmed_assoc a.bytes b.bytes c.bytes)

theorem joinLeft_spec (a b c : CString) :
    Returns (joinLeft platform a b c) grants world (fun reply _ =>
      (reply = none ∧ ¬ Ample grants) ∨
        reply = some (joined platform (joined platform a b) c)) := by
  rw [joinLeft, returns_bind]
  apply (tenPathJoin_spec a b).mono
  rintro reply between (⟨rfl, shortage⟩ | rfl)
  · simp only [tenPathJoin, returns_bind, returns_tenSetError, returns_pure]
    exact .inl ⟨trivial, shortage⟩
  · exact tenPathJoin_spec _ c

theorem joinRight_spec (a b c : CString) :
    Returns (joinRight platform a b c) grants world (fun reply _ =>
      (reply = none ∧ ¬ Ample grants) ∨
        reply = some (joined platform a (joined platform b c))) := by
  rw [joinRight, returns_bind]
  apply (tenPathJoin_spec b c).mono
  rintro reply between (⟨rfl, shortage⟩ | rfl)
  · simp only [tenPathJoin, returns_bind, returns_tenSetError, returns_pure]
    exact .inl ⟨trivial, shortage⟩
  · exact tenPathJoin_spec a _

/-- Joining three paths gives one path in both ways; no way gives one where an
allocation is refused. -/
theorem tenPathJoin_assoc (platform : Platform) (a b c : CString) (grants : Schedule)
    (world : World) :
    Returns (do
        let left ← joinLeft platform a b c
        let right ← joinRight platform a b c
        return (left, right)) grants world (fun (left, right) _ =>
      (Ample grants → left = right ∧ left.isSome = true) ∧
        ∀ path path', left = some path → right = some path' → path = path') := by
  simp only [returns_bind, returns_pure]
  apply (joinLeft_spec a b c).mono
  rintro left between leftOutcome
  apply (joinRight_spec a b c).mono
  rintro right after rightOutcome
  rw [← joined_assoc] at rightOutcome
  rcases leftOutcome with ⟨rfl, shortage⟩ | rfl
  · exact ⟨fun ample => absurd ample shortage, fun path path' impossible => by cases impossible⟩
  rcases rightOutcome with ⟨rfl, shortage⟩ | rfl
  · exact ⟨fun ample => absurd ample shortage, fun path path' _ impossible => by cases impossible⟩
  refine ⟨fun _ => ⟨rfl, rfl⟩, ?_⟩
  rintro _ _ ⟨⟩ ⟨⟩
  rfl

end Joining

section Absolute

variable {grants : Schedule} (ample : Ample grants) {world : World}

/-- Whether a path is absolute, and whether it is after another one has been
joined to it. -/
def absoluteBeforeAndAfter (platform : Platform) (a b : CString) : Ten (Bool × Bool) := do
  let before ← tenPathIsAbsolute platform (some a)
  let path ← tenPathJoin platform (some a) (some b)
  let after ← tenPathIsAbsolute platform path
  return (before, after)

/-- A path that starts with a slash and holds nothing but separators. -/
def IsRoot (path : CString) : Prop :=
  path.bytes.head? = some (ascii '/') ∧ ∀ c ∈ path.bytes, tenIsSep c = true

theorem tenPathIsAbsolute_posix (path : CString) :
    Returns (tenPathIsAbsolute .posix (some path)) grants world (fun reply _ =>
      reply = true ↔ path.bytes.head? = some (ascii '/')) := by
  simp only [tenPathIsAbsolute, returns_bind, returns_tenSetError, returns_pure]
  cases path.bytes with
  | nil => decide
  | cons c rest => simp

include ample

/-- On POSIX, joining keeps an absolute path absolute exactly when it is not the
root. -/
theorem tenPathJoin_keepsAbsolute_iff (a b : CString) :
    Returns (absoluteBeforeAndAfter .posix a b) grants world (fun (before, after) _ =>
        before = true → after = true) ↔ ¬ IsRoot a := by
  obtain ⟨before, world₁, runBefore, isBefore⟩ :
      Returns (tenPathIsAbsolute .posix (some a)) grants world (fun reply _ =>
        reply = true ↔ a.bytes.head? = some (ascii '/')) := tenPathIsAbsolute_posix a
  obtain ⟨reply, world₂, runJoin, outcome⟩ :
      Returns (tenPathJoin .posix (some a) (some b)) grants world₁ (fun reply _ =>
        (reply = none ∧ ¬ Ample grants) ∨ reply = some (joined .posix a b)) := tenPathJoin_spec a b
  obtain rfl := outcome.resolve_left fun shortage => shortage.2 ample
  obtain ⟨after, world₃, runAfter, isAfter⟩ :
      Returns (tenPathIsAbsolute .posix (some (joined .posix a b))) grants world₂ (fun reply _ =>
        reply = true ↔ (joined .posix a b).bytes.head? = some (ascii '/')) :=
    tenPathIsAbsolute_posix _
  rw [absoluteBeforeAndAfter, returns_bind, returns_iff_of_run runBefore, returns_bind,
    returns_iff_of_run runJoin, returns_bind, returns_iff_of_run runAfter, returns_pure]
  dsimp only
  rw [isBefore, isAfter]
  by_cases plain : ∃ c ∈ a.bytes, ¬ tenIsSep c = true
  · have kept : (joined .posix a b).bytes.head? = a.bytes.head? := head?_joinTrimmed plain
    rw [kept]
    refine iff_of_true id ?_
    rintro ⟨-, all⟩
    obtain ⟨c, member, notSep⟩ := plain
    exact notSep (all c member)
  · have all : ∀ c ∈ a.bytes, tenIsSep c = true := by
      intro c member
      by_contra notSep
      exact plain ⟨c, member, notSep⟩
    have relative : ¬ (joined .posix a b).bytes.head? = some (ascii '/') := by
      intro absolute
      have bytes : (joined .posix a b).bytes = b.bytes.dropWhile tenIsSep := joinTrimmed_of_all all
      have first := List.head?_dropWhile_not tenIsSep b.bytes
      rw [bytes] at absolute
      rw [absolute] at first
      exact absurd first (by decide)
    constructor
    · rintro keeps ⟨absolute, -⟩
      exact relative (keeps absolute)
    · intro notRoot absolute
      exact absurd ⟨absolute, all⟩ notRoot

end Absolute

/-- The paths `/usr` and `bin`. -/
theorem tenPathJoin_keepsAbsolute_usr :
    Returns (absoluteBeforeAndAfter .posix ⟨asciiBytes ['/', 'u', 's', 'r'], by decide⟩
      ⟨asciiBytes ['b', 'i', 'n'], by decide⟩) (fun _ => true) default (fun (before, after) _ =>
        before = true → after = true) := by
  apply (tenPathJoin_keepsAbsolute_iff ample_always _ _).mpr
  rintro ⟨-, all⟩
  exact absurd (all (ascii 'u') (by decide)) (by decide)

/-- The paths `/` and `b`. -/
theorem tenPathJoin_not_keepsAbsolute_root :
    ¬ Returns (absoluteBeforeAndAfter .posix ⟨asciiBytes ['/'], by decide⟩
      ⟨asciiBytes ['b'], by decide⟩) (fun _ => true) default (fun (before, after) _ =>
        before = true → after = true) := by
  have run : absoluteBeforeAndAfter .posix ⟨asciiBytes ['/'], by decide⟩
      ⟨asciiBytes ['b'], by decide⟩ (fun _ => true) default =
        some ((true, false), { requests := 1, lastError := .ok }) := by decide
  rw [returns_iff_of_run run]
  decide

end Dotten
