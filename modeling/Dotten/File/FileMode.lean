/-
Module: Dotten.File.FileMode
Layer: File
Purpose: Which mode strings ten__parse_file_mode accepts, against those that fopen
  documents, and the flags of a file that is opened.
Imports: Dotten.File.TenFile
Main exports: IsFopenMode, documentedMode, StartsLikeMode, parse_ne_noMode_iff,
  tenFileOpen_invalid_iff, ModeExact, modeExact_iff, modeExact_not_rw
-/
import Dotten.File.TenFile

namespace Dotten

open Dotten.Library

/-- The letters that a mode may start with. -/
def modeLetters : Bytes := asciiBytes ['r', 'w', 'a']

/-- At most one plus and at most one b, in either order. -/
def modeSuffixes : List Bytes :=
  [[], ['+'], ['b'], ['+', 'b'], ['b', '+']].map asciiBytes

/-- The modes of `fopen`. -/
inductive IsFopenMode : Bytes → Prop where
  | mode {letter : Byte} {suffix : Bytes} (opens : letter ∈ modeLetters)
      (known : suffix ∈ modeSuffixes) : IsFopenMode (letter :: suffix)

/-- What `fopen` documents for a letter, with or without a plus. -/
def documentedMode (letter : Byte) (plus : Bool) : TenFileMode :=
  if letter = ascii 'r' then
    { read := true, write := plus, append := false, truncate := false, create := false }
  else if letter = ascii 'w' then
    { read := plus, write := true, append := false, truncate := true, create := true }
  else
    { read := plus, write := true, append := true, truncate := false, create := true }

/-- The mode with all fields zero. -/
def noMode : TenFileMode := ⟨false, false, false, false, false⟩

/-- The string starts with one of the letters. -/
def StartsLikeMode (mode : CString) : Prop :=
  ∃ letter ∈ modeLetters, mode.bytes[0]? = some letter

/-- How a mode string is to be parsed: what is accepted, as the parser and as
`ten_file_open` show it, and the flags. -/
structure ModeExact (mode : CString) : Prop where
  parsed : tenParseFileMode mode ≠ noMode ↔ IsFopenMode mode.bytes
  opened : ∀ (system : SystemSchedule) (disk : Disk) (path : CString) (grants : Schedule)
    (world : World), Returns (tenFileOpen system disk (some path) (some mode)) grants world
      (fun _ after => after.lastError ≠ .invalidArgument ↔ IsFopenMode mode.bytes)
  flags : ∀ letter suffix, mode.bytes = letter :: suffix → IsFopenMode mode.bytes →
    tenParseFileMode mode = documentedMode letter (ascii '+' ∈ suffix)

section Parsing

variable {mode : CString}

theorem mem_modeLetters {letter : Byte} :
    letter ∈ modeLetters ↔ letter = ascii 'r' ∨ letter = ascii 'w' ∨ letter = ascii 'a' := by
  simp [modeLetters, asciiBytes]

/-- The parser looks at the first letter only when it decides whether there is a
mode. -/
theorem parse_cases (mode : CString) :
    (StartsLikeMode mode ∧
        ((tenParseFileMode mode).read = true ∨ (tenParseFileMode mode).write = true)) ∨
      (¬ StartsLikeMode mode ∧ tenParseFileMode mode = noMode) := by
  unfold tenParseFileMode StartsLikeMode
  simp only [mem_modeLetters]
  split
  · rename_i empty
    refine .inr ⟨?_, rfl⟩
    rintro ⟨letter, -, here⟩
    rw [empty] at here
    cases here
  · rename_i first here
    rw [here]
    split
    · rename_i letter
      exact .inl ⟨⟨first, .inl letter, rfl⟩, .inl rfl⟩
    · split
      · rename_i letter
        exact .inl ⟨⟨first, .inr (.inl letter), rfl⟩, .inr rfl⟩
      · split
        · rename_i letter
          exact .inl ⟨⟨first, .inr (.inr letter), rfl⟩, .inr rfl⟩
        · rename_i notR notW notA
          refine .inr ⟨?_, rfl⟩
          rintro ⟨letter, letters, same⟩
          cases same
          rcases letters with r | w | a
          · exact notR r
          · exact notW w
          · exact notA a

theorem parse_ne_noMode_iff : tenParseFileMode mode ≠ noMode ↔ StartsLikeMode mode := by
  rcases parse_cases mode with ⟨starts, opens⟩ | ⟨other, none⟩
  · refine iff_of_true ?_ starts
    intro same
    rw [same] at opens
    rcases opens with impossible | impossible
    · cases impossible
    · cases impossible
  · exact iff_of_false (not_not.mpr none) other

/-- `ten_file_open` complains about the mode exactly when the parser does. -/
theorem tenFileOpen_invalid_iff (system : SystemSchedule) (disk : Disk) (path : CString)
    (grants : Schedule) (world : World) :
    Returns (tenFileOpen system disk (some path) (some mode)) grants world
      (fun _ after => after.lastError ≠ .invalidArgument ↔ StartsLikeMode mode) := by
  unfold tenFileOpen
  dsimp only
  rcases parse_cases mode with ⟨starts, opens⟩ | ⟨other, none⟩
  · have usable : ¬ (¬ (tenParseFileMode mode).read = true ∧
        ¬ (tenParseFileMode mode).write = true) := by
      rintro ⟨notRead, notWrite⟩
      exact opens.elim notRead notWrite
    rw [if_neg usable]
    split
    · rename_i noEntry after failed
      simp only [returns_bind, returns_tenSetError, returns_pure]
      refine iff_of_true ?_ starts
      cases noEntry
      · decide
      · decide
    · rename_i file after opened
      simp only [returns_bind, returns_tenMalloc, returns_tenSetError, returns_pure]
      have refused : world.refused.lastError ≠ .invalidArgument := by
        rw [World.refused_lastError]
        decide
      exact ⟨fun _ => iff_of_true (by decide) starts, fun _ => iff_of_true refused starts⟩
  · rw [none, if_pos (by decide)]
    simp only [returns_bind, returns_tenSetError, returns_pure]
    exact iff_of_false (fun differs => differs rfl) other

/-- The modes of `fopen` get the flags that it documents. -/
theorem parse_documented {letter : Byte} {suffix : Bytes} (bytes : mode.bytes = letter :: suffix)
    (documented : IsFopenMode mode.bytes) :
    tenParseFileMode mode = documentedMode letter (ascii '+' ∈ suffix) := by
  obtain ⟨content, noNul⟩ := mode
  dsimp only at bytes documented
  subst bytes
  obtain ⟨opens, known⟩ := documented
  rw [mem_modeLetters] at opens
  simp only [modeSuffixes, List.map_cons, List.map_nil, List.mem_cons, List.not_mem_nil,
    or_false] at known
  rcases opens with rfl | rfl | rfl <;> rcases known with rfl | rfl | rfl | rfl | rfl <;> rfl

theorem IsFopenMode.startsLikeMode (documented : IsFopenMode mode.bytes) :
    StartsLikeMode mode := by
  generalize bytes : mode.bytes = content at documented
  obtain ⟨opens, -⟩ := documented
  refine ⟨_, opens, ?_⟩
  rw [bytes]
  rfl

end Parsing

/-- A mode string is parsed as it is to be exactly when it is one of the modes of
`fopen`, or does not even start like one: what follows the letter is not looked
at. -/
theorem modeExact_iff (mode : CString) :
    ModeExact mode ↔ IsFopenMode mode.bytes ∨ ¬ StartsLikeMode mode := by
  have same : (StartsLikeMode mode ↔ IsFopenMode mode.bytes) ↔
      IsFopenMode mode.bytes ∨ ¬ StartsLikeMode mode := by
    have starts : IsFopenMode mode.bytes → StartsLikeMode mode := IsFopenMode.startsLikeMode
    tauto
  constructor
  · intro exact
    have parsed := exact.parsed
    rw [parse_ne_noMode_iff] at parsed
    exact same.mp parsed
  · intro condition
    have agree := same.mpr condition
    refine ⟨?_, ?_, fun letter suffix bytes documented => parse_documented bytes documented⟩
    · rw [parse_ne_noMode_iff]
      exact agree
    · intro system disk path grants world
      rw [← agree]
      exact tenFileOpen_invalid_iff system disk path grants world

/-- The mode `rw`. -/
def modeRw : CString := ⟨asciiBytes ['r', 'w'], by decide⟩

/-- A mode that is none of `fopen` opens a file for reading. -/
theorem modeExact_not_rw :
    tenParseFileMode modeRw = documentedMode (ascii 'r') false ∧ ¬ IsFopenMode modeRw.bytes ∧
      ¬ ModeExact modeRw := by
  have unknown : ¬ IsFopenMode modeRw.bytes := by
    rintro ⟨-, known⟩
    revert known
    decide
  refine ⟨rfl, unknown, ?_⟩
  intro exact
  refine unknown (exact.parsed.mp ?_)
  decide

end Dotten
