import OpenExec.PatchSections
import Mathlib.Tactic.ByContra

/-!
# Lines that do not look like headers

A line of a hunk may begin like a file header.  The parser then reads it as one,
so no line of a hunk it returns begins in this way.
-/

namespace OpenExec.PatchParser

open Option List

variable {c : Char} {header content : Text} {file : PatchFile} {hunk : PatchHunk} {type : LineType}
  {next : ParseState}

theorem after?_append (literal : String) (rest : Text) :
    after? literal (literal.toList ++ rest) = some rest := by
  simp [after?]

def isDiffMark (c : Char) : Bool := c == '-' || c == '+' || c == ' ' || c == '@'

theorem gitDiffHeaderRe_diffMark (mark : isDiffMark c) (rest : Text) :
    gitDiffHeaderRe (c :: rest) = false := by
  have differs : 'd' ≠ c := by
    rintro rfl
    exact absurd mark (by decide)
  simp [gitDiffHeaderRe, after?, differs]

theorem binaryFileRe_diffMark (mark : isDiffMark c) (rest : Text) :
    binaryFileRe (c :: rest) = false := by
  have differs : 'B' ≠ c := by
    rintro rfl
    exact absurd mark (by decide)
  simp [binaryFileRe, after?, differs]

theorem gitHeader_diffMark (mark : isDiffMark c) (file : PatchFile) (rest : Text) :
    file.gitHeader (c :: rest) = none := by
  have differs : ∀ other, isDiffMark other = false → other ≠ c := by
    rintro other unmarked rfl
    simp [unmarked] at mark
  have d := differs 'd' rfl
  have i := differs 'i' rfl
  have n := differs 'n' rfl
  have o := differs 'o' rfl
  have r := differs 'r' rfl
  have s := differs 's' rfl
  simp [PatchFile.gitHeader, newFileModeRe, deletedFileModeRe, renameFromRe, renameToRe, isMode,
    after?, d, i, n, o, r, s]

namespace ParseState

variable {state : ParseState}

theorem gitHeader_diffMark_none (mark : isDiffMark c) (rest : Text) :
    state.gitHeader (c :: rest) = none := by
  unfold gitHeader
  split
  · simp [PatchParser.gitHeader_diffMark mark]
  · rfl

theorem processLine_diffMark (mark : isDiffMark c) (rest : Text)
    (visible : state.currentFile.isSome ∨ GoStrings.isSpace c = false) :
    state.processLine (c :: rest) = state.processDiffLine (c :: rest) := by
  have notBlank : ¬ (state.currentFile.isNone ∧ (c :: rest).all GoStrings.isSpace) := by
    rintro ⟨missing, blank⟩
    rcases visible with present | printed
    · simp [isNone_iff_eq_none.mp missing] at present
    · simp [printed] at blank
  rw [processLine, if_neg notBlank, gitDiffHeaderRe_diffMark mark, if_neg (by simp),
    gitHeader_diffMark_none mark]
  simp [binaryFileRe_diffMark mark]

end ParseState

theorem oldFileRe_header (nonempty : header ≠ []) :
    oldFileRe ("--- ".toList ++ header) = some (dropMark "a/" header) := by
  rw [oldFileRe, after?_append]
  simp [headerName, nonempty]

theorem newFileRe_header (nonempty : header ≠ []) :
    newFileRe ("+++ ".toList ++ header) = some (dropMark "b/" header) := by
  rw [newFileRe, after?_append]
  simp [headerName, nonempty]

theorem oldFileRe_of_ne (differs : '-' ≠ c) (rest : Text) : oldFileRe (c :: rest) = none := by
  simp [oldFileRe, after?, differs]

theorem newFileRe_of_ne (differs : '+' ≠ c) (rest : Text) : newFileRe (c :: rest) = none := by
  simp [newFileRe, after?, differs]

theorem hunkHeaderRe_of_ne (differs : '@' ≠ c) (rest : Text) : hunkHeaderRe (c :: rest) = none := by
  simp [hunkHeaderRe, after?, differs]

def PatchLine.LooksLikeHeader (line : PatchLine) : Prop :=
  (line.type = .remove ∧ ∃ first rest, line.content = "-- ".toList ++ first :: rest) ∨
    (line.type = .add ∧ ∃ first rest, line.content = "++ ".toList ++ first :: rest)

/-- A header has a name after its mark. -/
theorem headerRe_eq_none_iff {literal strip : String} {c : Char} {mark : Text}
    (isLiteral : literal.toList = c :: mark) (content : Text) :
    (after? literal (c :: content)).bind (headerName strip) = none ↔
      ¬ ∃ first rest, content = mark ++ first :: rest := by
  constructor
  · rintro none ⟨first, rest, rfl⟩
    rw [← cons_append, ← isLiteral, after?_append] at none
    simp [headerName] at none
  · intro plain
    by_contra found
    apply plain
    unfold after? at found
    split at found
    · next begins =>
      rw [isLiteral] at begins found
      obtain ⟨text, split⟩ := isPrefixOf_iff_prefix.mp begins
      obtain rfl : mark ++ text = content := by simpa using split
      cases text with
      | nil => simp [headerName] at found
      | cons first rest => exact ⟨first, rest, rfl⟩
    · exact absurd rfl found

theorem oldFileRe_eq_none_iff (content : Text) : oldFileRe ('-' :: content) = none ↔
      ¬ ∃ first rest, content = "-- ".toList ++ first :: rest :=
  headerRe_eq_none_iff rfl content

theorem newFileRe_eq_none_iff (content : Text) : newFileRe ('+' :: content) = none ↔
      ¬ ∃ first rest, content = "++ ".toList ++ first :: rest :=
  headerRe_eq_none_iff rfl content

def PatchHunk.Plain (hunk : PatchHunk) : Prop := ∀ line ∈ hunk.lines, ¬ line.LooksLikeHeader

def PatchFile.Plain (file : PatchFile) : Prop := ∀ hunk ∈ file.hunks, hunk.Plain

theorem PatchFile.Plain.addHunk {hunk : Option PatchHunk} (plain : file.Plain)
    (hunkPlain : ∀ open_ ∈ hunk, PatchHunk.Plain open_) : (file.addHunk hunk).Plain := by
  intro member isMember
  rcases mem_append.mp isMember with earlier | isOpen
  · exact plain member earlier
  · exact hunkPlain member (mem_toList.mp isOpen)

theorem PatchHunk.Plain.addLine (plain : hunk.Plain)
    (linePlain : ¬ PatchLine.LooksLikeHeader ⟨type, content⟩) :
    (hunk.addLine type content).Plain := by
  intro line isMember
  rcases mem_append.mp isMember with earlier | isLast
  · exact plain line earlier
  · obtain rfl := mem_singleton.mp isLast
    exact linePlain

namespace ParseState

structure Plain (state : ParseState) : Prop where
  files : ∀ file ∈ state.files, file.Plain
  current : ∀ file ∈ state.currentFile, file.Plain
  hunk : ∀ hunk ∈ state.currentHunk, hunk.Plain

end ParseState

def Outcome.Plain : Outcome → Prop
  | .next state => state.Plain
  | .again state => state.Plain
  | .error _ => True

namespace ParseState

variable {state : ParseState} {line : Text}

theorem Plain.flush (plain : state.Plain) : ∀ file ∈ state.flush, file.Plain := by
  intro file isMember
  rcases mem_append.mp isMember with earlier | isCurrent
  · exact plain.files file earlier
  · obtain ⟨current, isFile, rfl⟩ := map_eq_some_iff.mp (mem_toList.mp isCurrent)
    exact (plain.current current isFile).addHunk plain.hunk

theorem Plain.openGitFile (plain : state.Plain) : (state.openGitFile line).Plain := by
  refine ⟨plain.flush, ?_, ?_⟩
  · rintro file isFile
    cases isFile
    nofun
  · intro hunk isHunk
    unfold ParseState.openGitFile at isHunk
    split at isHunk
    · cases isHunk
    · exact plain.hunk hunk isHunk

theorem gitHeader_hunks {next : PatchFile} (header : file.gitHeader line = some next) :
    next.hunks = file.hunks := by
  unfold PatchFile.gitHeader at header
  iterate 4
    split at header
    · cases header
      rfl
  · cases header

section

variable (plain : state.Plain)
include plain

theorem Plain.gitHeader (header : state.gitHeader line = some next) : next.Plain := by
  unfold ParseState.gitHeader at header
  split at header
  · next file isFile noHunk =>
    obtain ⟨changed, isChanged, rfl⟩ := map_eq_some_iff.mp header
    refine ⟨plain.files, ?_, plain.hunk⟩
    rintro other isOther
    cases isOther
    intro hunk isMember
    rw [gitHeader_hunks isChanged] at isMember
    exact plain.current file isFile hunk isMember
  · cases header

theorem Plain.markBinary : state.markBinary.Plain := by
  refine ⟨plain.files, ?_, plain.hunk⟩
  intro file isFile
  obtain ⟨current, isCurrent, rfl⟩ := map_eq_some_iff.mp isFile
  exact plain.current current isCurrent

theorem Plain.openOldFile (name : Text) : (state.openOldFile name).Plain := by
  have fresh : PatchFile.Plain { oldName := name } := nofun
  unfold ParseState.openOldFile
  split
  · exact ⟨plain.files, fun file isFile => Option.some.inj isFile ▸ fresh, plain.hunk⟩
  next file isFile =>
  split
  · exact ⟨plain.flush, fun file isFile => Option.some.inj isFile ▸ fresh, nofun⟩
  refine ⟨plain.files, ?_, plain.hunk⟩
  rintro other isOther
  cases isOther
  exact plain.current file isFile

theorem Plain.setNewName (name : Text) : (state.setNewName name line).Plain := by
  unfold ParseState.setNewName
  split
  · trivial
  next file isFile =>
  refine ⟨plain.files, ?_, plain.hunk⟩
  rintro other isOther
  cases isOther
  exact plain.current file isFile

theorem Plain.openHunk (oldRange newRange : Text × Option Text) :
    (state.openHunk oldRange newRange line).Plain := by
  unfold ParseState.openHunk
  split
  · trivial
  refine ⟨plain.files, ?_, ?_⟩
  · intro file isFile
    obtain ⟨current, isCurrent, rfl⟩ := map_eq_some_iff.mp isFile
    exact (plain.current current isCurrent).addHunk plain.hunk
  · rintro hunk isHunk
    cases isHunk
    nofun

theorem Plain.addLine (isHunk : state.currentHunk = some hunk)
    (linePlain : ¬ PatchLine.LooksLikeHeader ⟨type, content⟩) :
    (state.addLine hunk type content).Plain := by
  refine ⟨plain.files, plain.current, ?_⟩
  rintro changed isChanged
  cases isChanged
  exact (plain.hunk hunk isHunk).addLine linePlain

end

theorem not_looksLikeHeader_context (content : Text) :
    ¬ PatchLine.LooksLikeHeader ⟨.context, content⟩ := by
  rintro (⟨isRemove, _⟩ | ⟨isAdd, _⟩)
  · cases isRemove
  · cases isAdd

variable (plain : state.Plain)
include plain

theorem Plain.hunkLine (notOld : oldFileRe line = none)
    (notNew : newFileRe line = none) : (state.hunkLine line).Plain := by
  unfold ParseState.hunkLine
  split
  · exact plain
  next hunk isHunk =>
  split
  · split
    · exact plain.addLine isHunk (not_looksLikeHeader_context _)
    · exact plain
  · exact plain.addLine isHunk (not_looksLikeHeader_context _)
  · next content =>
    apply plain.addLine isHunk
    rintro (⟨isRemove, _⟩ | ⟨_, looks⟩)
    · cases isRemove
    · exact (newFileRe_eq_none_iff content).mp notNew looks
  · next content =>
    apply plain.addLine isHunk
    rintro (⟨_, looks⟩ | ⟨isAdd, _⟩)
    · exact (oldFileRe_eq_none_iff content).mp notOld looks
    · cases isAdd
  · exact plain
  · refine ⟨plain.files, ?_, nofun⟩
    intro file isFile
    obtain ⟨current, isCurrent, rfl⟩ := map_eq_some_iff.mp isFile
    apply (plain.current current isCurrent).addHunk
    intro open_ isOpen
    exact plain.hunk open_ (isHunk.trans isOpen)

theorem Plain.processLine (line : Text) : (state.processLine line).Plain := by
  unfold ParseState.processLine
  split
  · exact plain
  split
  · exact plain.openGitFile
  split
  · next header => exact plain.gitHeader header
  split
  · exact plain.markBinary
  unfold ParseState.processDiffLine
  split
  · exact plain.openOldFile _
  next notOld =>
  split
  · exact plain.setNewName _
  next notNew =>
  split
  · exact plain.openHunk _ _
  · exact plain.hunkLine notOld notNew

theorem Plain.readLine (read : state.readLine line = .ok next) : next.Plain := by
  have counted : ParseState.Plain { state with lineNum := state.lineNum + 1 } :=
    { plain with }
  have first := counted.processLine line
  unfold ParseState.readLine at read
  split at read
  · cases read
  · next processed =>
    cases read
    rw [processed] at first
    exact first
  · next middle processed =>
    rw [processed] at first
    have second := Plain.processLine first line
    split at read
    · cases read
    all_goals
      next again =>
      cases read
      rw [again] at second
      exact second

theorem Plain.readLines {lines : List Text}
    (read : state.readLines lines = .ok next) : next.Plain := by
  induction lines generalizing state with
  | nil =>
    cases read
    exact plain
  | cons line rest ih =>
    rw [ParseState.readLines] at read
    cases first : state.readLine line with
    | error error =>
      rw [first] at read
      simp [Except.bind] at read
    | ok middle =>
      rw [first] at read
      exact ih (plain.readLine first) read

end ParseState

theorem plain_of_parsePatch {patch : Patch} (parsed : parsePatch content = .ok patch) :
    ∀ file ∈ patch.files, file.Plain := by
  have start : ParseState.Plain {} := ⟨nofun, nofun, nofun⟩
  unfold parsePatch at parsed
  split at parsed
  · cases parsed
  next state read =>
  split at parsed
  · cases parsed
  · cases parsed
    exact (start.readLines read).flush

end OpenExec.PatchParser
