/-
Module: Dotten.Path.PathSplitting
Layer: Path
Purpose: ten_path_directory, ten_path_filename and ten_path_extension of path.c.
  They split what ten_path_join has joined, and a file name into its stem and
  its extension.
Imports: Dotten.Path.TenPath, Dotten.Library.LastIndex
Main exports: tenFindLastSep, tenDupRange, tenPathDirectory, tenPathFilename,
  tenPathExtension, Yields, directoryOf, filenameOf, extensionOf,
  tenPathDirectory_spec, tenPath_splitting
-/
import Dotten.Path.TenPath
import Dotten.Library.LastIndex

namespace Dotten

open Dotten.Library

/-- `ten__find_last_sep`: the offset of the last separator, or NULL. -/
def tenFindLastSep (path : Bytes) : Option Nat := lastIdx? tenIsSep path

/-- `strrchr`: the offset of the last `c`, or NULL. -/
def strrchr (text : Bytes) (c : Byte) : Option Nat := lastIdx? (· = c) text

/-- `ten__dup_range`. -/
def tenDupRange (start : Bytes) (len : Nat) : Ten (Option CString) := do
  let some _ ← tenMalloc
    | return none
  return some (CString.ofMemory (start.take len ++ [0]))

/-- `ten_path_directory`. -/
def tenPathDirectory (path : Option CString) : Ten (Option CString) :=
  match path with
  | none => do
      tenSetError .nullArgument
      return none
  | some path => do
      tenSetError .ok
      match tenFindLastSep path.bytes with
      | none => tenDupRange (asciiBytes ['.']) 1
      | some sep =>
          if sep = 0 then tenDupRange path.bytes 1
          else tenDupRange path.bytes sep

/-- `ten_path_filename`. -/
def tenPathFilename (path : Option CString) : Ten (Option CString) :=
  match path with
  | none => do
      tenSetError .nullArgument
      return none
  | some path => do
      tenSetError .ok
      match tenFindLastSep path.bytes with
      | none => tenDupRange path.bytes path.length
      | some sep =>
          let behind := path.bytes.drop (sep + 1)
          tenDupRange behind behind.length

/-- `ten_path_extension`. -/
def tenPathExtension (path : Option CString) : Ten (Option CString) :=
  match path with
  | none => do
      tenSetError .nullArgument
      return none
  | some path => do
      let some filename ← tenPathFilename (some path)
        | return none
      -- a name that starts with a dot has no extension there
      let start := filename.bytes.drop (if filename.bytes.getD 0 0 = ascii '.' then 1 else 0)
      match strrchr start (ascii '.') with
      | none => do
          tenSetError .ok
          tenDupRange [] 0
      | some dot => do
          let result ← tenDupRange (start.drop dot) (start.drop dot).length
          tenSetError .ok
          return result

/-- The string that a function returns, unless it is refused memory. -/
def Yields (grants : Schedule) (bytes : Bytes) (reply : Option CString) : Prop :=
  (reply = none ∧ ¬ Ample grants) ∨ ∃ path, reply = some path ∧ path.bytes = bytes

/-- What stands before the last separator: the dot when there is none, and the
separator when nothing stands before it. -/
def directoryOf (path : Bytes) : Bytes :=
  match lastIdx? tenIsSep path with
  | none => [ascii '.']
  | some sep => if sep = 0 then path.take 1 else path.take sep

/-- What stands behind the last separator. -/
def filenameOf (path : Bytes) : Bytes :=
  match lastIdx? tenIsSep path with
  | none => path
  | some sep => path.drop (sep + 1)

/-- The end of a name from its last dot on, unless it is the first byte. -/
def extensionOf (name : Bytes) : Bytes :=
  let start := name.drop (if name.getD 0 0 = ascii '.' then 1 else 0)
  match lastIdx? (· = ascii '.') start with
  | none => []
  | some dot => start.drop dot

section Splitting

variable {before after : Bytes} {sep : Byte}

theorem filenameOf_sublist (path : Bytes) : (filenameOf path).Sublist path := by
  unfold filenameOf
  split
  · exact List.Sublist.refl path
  · exact List.drop_sublist _ path

theorem filenameOf_append (isSep : tenIsSep sep = true) (plain : ∀ c ∈ after, ¬ tenIsSep c = true) :
    filenameOf (before ++ sep :: after) = after := by
  rw [filenameOf, lastIdx?_append_cons before isSep plain]
  simp

theorem directoryOf_append (isSep : tenIsSep sep = true) (plain : ∀ c ∈ after, ¬ tenIsSep c = true)
    (nonempty : before ≠ []) : directoryOf (before ++ sep :: after) = before := by
  rw [directoryOf, lastIdx?_append_cons before isSep plain]
  dsimp only
  rw [if_neg (fun zero => nonempty (List.eq_nil_of_length_eq_zero zero)), List.take_left]

/-- A file name has no separator. -/
theorem not_isSep_of_mem_filenameOf {path : Bytes} : ∀ c ∈ filenameOf path, ¬ tenIsSep c = true := by
  rcases lastIdx?_cases tenIsSep path with ⟨plain, none⟩ | ⟨before, sep, after, rfl, isSep, plain, -⟩
  · rw [filenameOf, none]
    exact plain
  · rw [filenameOf_append isSep plain]
    exact plain

/-- A name is a stem and an extension. -/
theorem exists_stem (name : Bytes) :
    ∃ stem, name = stem ++ extensionOf name ∧ (extensionOf name = [] ∨ (stem ≠ [] ∧
      ∃ rest, extensionOf name = ascii '.' :: rest ∧ ascii '.' ∉ rest)) := by
  unfold extensionOf
  dsimp only
  generalize hidden : (if name.getD 0 0 = ascii '.' then 1 else 0) = skipped
  rcases lastIdx?_cases (fun c => decide (c = ascii '.')) (name.drop skipped) with
    ⟨-, none⟩ | ⟨before, dot, rest, split, isDot, plain, found⟩
  · rw [none]
    exact ⟨name, (List.append_nil name).symm, .inl rfl⟩
  · obtain rfl : dot = ascii '.' := of_decide_eq_true isDot
    have extension : (name.drop skipped).drop before.length = ascii '.' :: rest := by
      rw [split, List.drop_left]
    rw [found]
    dsimp only
    rw [extension]
    refine ⟨name.take skipped ++ before, ?_, .inr ⟨?_, rest, rfl, ?_⟩⟩
    · rw [List.append_assoc, ← split, List.take_append_drop]
    · -- the dot is not the first byte of the name
      intro empty
      obtain ⟨start, rfl⟩ := List.append_eq_nil_iff.mp empty
      cases name with
      | nil => simp at split
      | cons c name =>
          split_ifs at hidden with first
          · rw [← hidden] at start
            cases start
          · rw [← hidden] at split
            cases split
            exact first rfl
    · intro member
      exact plain _ member (decide_eq_true rfl)

/-- A joined path is split where it was joined. -/
theorem joined_bytes (platform : Platform) {a b : CString} (word : ∃ c ∈ a.bytes, ¬ tenIsSep c = true)
    (nonempty : b.bytes ≠ []) (plain : ∀ c ∈ b.bytes, ¬ tenIsSep c = true) :
    (joined platform a b).bytes =
      a.bytes.rdropWhile tenIsSep ++ tenPathSeparator platform :: b.bytes ∧
      a.bytes.rdropWhile tenIsSep ≠ [] := by
  obtain ⟨c, member, notSep⟩ := word
  have left : a.bytes.rdropWhile tenIsSep ≠ [] := by
    rw [ne_eq, List.rdropWhile_eq_nil_iff]
    exact fun all => notSep (all c member)
  have right : b.bytes.dropWhile tenIsSep = b.bytes := by
    obtain ⟨d, rest, same⟩ := List.exists_cons_of_ne_nil nonempty
    rw [same] at plain ⊢
    rw [List.dropWhile_cons_of_neg (plain d List.mem_cons_self)]
  refine ⟨?_, left⟩
  change glue _ (a.bytes.rdropWhile tenIsSep) (b.bytes.dropWhile tenIsSep) = _
  rw [right, glue_of_ne left nonempty]

end Splitting

section Specifications

variable {grants : Schedule} {world : World}

theorem tenDupRange_spec {start bytes : Bytes} {len : Nat} (range : start.take len = bytes)
    (noNul : (0 : Byte) ∉ bytes) :
    Returns (tenDupRange start len) grants world (fun reply _ => Yields grants bytes reply) := by
  simp only [tenDupRange, returns_bind, returns_tenMalloc, returns_pure, range]
  constructor
  · intro granted
    exact .inr ⟨_, rfl, CString.takeWhile_append_nul noNul []⟩
  · intro refused
    exact .inl ⟨rfl, not_ample_of_refused refused⟩

theorem tenPathDirectory_spec (path : CString) :
    Returns (tenPathDirectory (some path)) grants world (fun reply _ =>
      Yields grants (directoryOf path.bytes) reply) := by
  have inside : ∀ n, (0 : Byte) ∉ path.bytes.take n :=
    fun n member => path.noNul (List.mem_of_mem_take member)
  simp only [tenPathDirectory, returns_bind, returns_tenSetError]
  unfold directoryOf tenFindLastSep
  cases lastIdx? tenIsSep path.bytes with
  | none =>
      have noNul : (0 : Byte) ∉ [ascii '.'] := by decide
      exact tenDupRange_spec rfl noNul
  | some sep =>
      dsimp only
      split_ifs
      · exact tenDupRange_spec rfl (inside 1)
      · exact tenDupRange_spec rfl (inside sep)

theorem tenPathFilename_spec (path : CString) :
    Returns (tenPathFilename (some path)) grants world (fun reply _ =>
      Yields grants (filenameOf path.bytes) reply) := by
  have noNul : (0 : Byte) ∉ filenameOf path.bytes :=
    fun member => path.noNul ((filenameOf_sublist _).subset member)
  simp only [tenPathFilename, returns_bind, returns_tenSetError]
  unfold filenameOf at noNul ⊢
  unfold tenFindLastSep
  cases found : lastIdx? tenIsSep path.bytes with
  | none =>
      rw [found] at noNul
      exact tenDupRange_spec List.take_length noNul
  | some sep =>
      rw [found] at noNul
      exact tenDupRange_spec List.take_length noNul

theorem tenPathExtension_spec (path : CString) :
    Returns (tenPathExtension (some path)) grants world (fun reply _ =>
      Yields grants (extensionOf (filenameOf path.bytes)) reply) := by
  simp only [tenPathExtension, returns_bind]
  apply (tenPathFilename_spec path).mono
  rintro reply _ (⟨rfl, shortage⟩ | ⟨filename, rfl, bytes⟩)
  · simp only [returns_pure]
    exact .inl ⟨rfl, shortage⟩
  rw [← bytes]
  have noNul : (0 : Byte) ∉ extensionOf filename.bytes := by
    obtain ⟨stem, split, -⟩ := exists_stem filename.bytes
    intro member
    apply filename.noNul
    rw [split]
    exact List.mem_append_right stem member
  unfold extensionOf at noNul ⊢
  unfold strrchr
  dsimp only at noNul ⊢
  generalize filename.bytes.drop _ = start at noNul ⊢
  cases found : lastIdx? (fun c => decide (c = ascii '.')) start with
  | none =>
      simp only [returns_bind, returns_tenSetError]
      exact tenDupRange_spec rfl List.not_mem_nil
  | some dot =>
      rw [found] at noNul
      simp only [returns_bind]
      apply (tenDupRange_spec List.take_length noNul).mono
      intro result _ yields
      simp only [returns_tenSetError, returns_pure]
      exact yields

/-- The file name and the directory of a joined path. -/
def joinAndSplit (platform : Platform) (a b : CString) :
    Ten (Option CString × Option CString) := do
  let path ← tenPathJoin platform (some a) (some b)
  let filename ← tenPathFilename path
  let directory ← tenPathDirectory path
  return (filename, directory)

/-- The file name and the extension of a path. -/
def nameAndExtension (path : CString) : Ten (Option CString × Option CString) := do
  let filename ← tenPathFilename (some path)
  let extension ← tenPathExtension (some path)
  return (filename, extension)

/-- Splitting undoes joining, and every file name is a stem and an extension. -/
theorem tenPath_splitting (platform : Platform) (a b path : CString) (grants : Schedule)
    (world : World) :
    ((∃ c ∈ a.bytes, ¬ tenIsSep c = true) → b.bytes ≠ [] → (∀ c ∈ b.bytes, ¬ tenIsSep c = true) →
      Returns (joinAndSplit platform a b) grants world (fun (filename, directory) _ =>
        Yields grants b.bytes filename ∧
          Yields grants (a.bytes.rdropWhile tenIsSep) directory)) ∧
    ∃ stem extension : Bytes,
      Returns (nameAndExtension path) grants world (fun (filename, reply) _ =>
        Yields grants (stem ++ extension) filename ∧ Yields grants extension reply) ∧
      (∀ c ∈ stem ++ extension, ¬ tenIsSep c = true) ∧
      (extension = [] ∨ (stem ≠ [] ∧
        ∃ rest, extension = ascii '.' :: rest ∧ ascii '.' ∉ rest)) := by
  constructor
  · intro word nonempty plain
    rw [joinAndSplit, returns_bind]
    apply (tenPathJoin_spec a b).mono
    rintro reply _ (⟨rfl, shortage⟩ | rfl)
    · simp only [tenPathFilename, tenPathDirectory, returns_bind, returns_tenSetError, returns_pure]
      exact ⟨.inl ⟨rfl, shortage⟩, .inl ⟨rfl, shortage⟩⟩
    obtain ⟨bytes, left⟩ := joined_bytes platform word nonempty plain
    have separator : tenIsSep (tenPathSeparator platform) = true := by
      cases platform <;> decide
    rw [returns_bind]
    apply (tenPathFilename_spec _).mono
    intro filename _ named
    rw [returns_bind]
    apply (tenPathDirectory_spec _).mono
    intro directory _ located
    rw [bytes, filenameOf_append separator plain] at named
    rw [bytes, directoryOf_append separator plain left] at located
    rw [returns_pure]
    exact ⟨named, located⟩
  · obtain ⟨stem, split, shape⟩ := exists_stem (filenameOf path.bytes)
    refine ⟨stem, extensionOf (filenameOf path.bytes), ?_, ?_, shape⟩
    · rw [nameAndExtension, returns_bind]
      apply (tenPathFilename_spec path).mono
      intro filename _ named
      rw [returns_bind]
      apply (tenPathExtension_spec path).mono
      intro extension _ extended
      rw [returns_pure, ← split]
      exact ⟨named, extended⟩
    · rw [← split]
      exact not_isSep_of_mem_filenameOf

/-- The paths `/a/` and `b`, and the path `x/.b.c`. -/
theorem tenPath_splitting_dots :
    Returns (joinAndSplit .windows ⟨asciiBytes ['/', 'a', '/'], by decide⟩
        ⟨asciiBytes ['b'], by decide⟩) (fun _ => true) default (fun (filename, directory) _ =>
      Yields (fun _ => true) (asciiBytes ['b']) filename ∧
        Yields (fun _ => true) ((asciiBytes ['/', 'a', '/']).rdropWhile tenIsSep) directory) ∧
    ∃ stem extension : Bytes,
      Returns (nameAndExtension ⟨asciiBytes ['x', '/', '.', 'b', '.', 'c'], by decide⟩)
        (fun _ => true) default (fun (filename, reply) _ =>
          Yields (fun _ => true) (stem ++ extension) filename ∧
            Yields (fun _ => true) extension reply) ∧
      (∀ c ∈ stem ++ extension, ¬ tenIsSep c = true) ∧
      (extension = [] ∨ (stem ≠ [] ∧
        ∃ rest, extension = ascii '.' :: rest ∧ ascii '.' ∉ rest)) :=
  ⟨(tenPath_splitting .windows _ _ default (fun _ => true) default).1
      ⟨ascii 'a', by decide⟩ (by decide) (List.forall_mem_singleton.mpr (by decide)),
    (tenPath_splitting .windows default default _ (fun _ => true) default).2⟩

end Specifications

end Dotten
