import OpenExec.PatchPlainLines

/-!
# Reading well-formed patches back

The parser returns the sections of a well-formed patch exactly when no line of a
hunk looks like a file header.
-/

namespace OpenExec.PatchParser

open List PatchSection

variable {state : ParseState} {files : List PatchFile} {file : PatchFile} {number : Nat}
  {sections : List PatchSection}

variable {next : ParseState} {line name : Text} {hunk : PatchHunk} {pending : Option PatchHunk}
  {entry : PatchSection}

theorem digits?_append (number : Digits) {c : Char} (ends : c.isDigit = false) (rest : Text) :
    digits? (number.chars ++ c :: rest) = some (number.chars, c :: rest) := by
  have taken : (number.chars ++ c :: rest).takeWhile Char.isDigit = number.chars := by
    rw [takeWhile_append_of_pos number.digits]
    simp [ends]
  have dropped : (number.chars ++ c :: rest).dropWhile Char.isDigit = c :: rest := by
    rw [dropWhile_append_of_pos number.digits]
    simp [ends]
  rw [digits?, taken, dropped, if_neg number.nonempty]

theorem range?_append (start : Digits) (count : Option Digits) (rest : Text) :
    range? (start.chars ++ (Digits.countText count ++ ' ' :: rest)) =
      some ((start.chars, count.map Digits.chars), ' ' :: rest) := by
  unfold range?
  cases count with
  | none =>
    rw [Digits.countText, nil_append, digits?_append start rfl]
    simp [after?]
  | some number =>
    rw [Digits.countText, cons_append, digits?_append start rfl]
    have comma : after? "," (',' :: (number.chars ++ ' ' :: rest)) =
        some (number.chars ++ ' ' :: rest) := after?_append "," _
    have counted : digits? (number.chars ++ ' ' :: rest) = some (number.chars, ' ' :: rest) :=
      digits?_append number rfl rest
    simp [comma, counted]

theorem hunkHeaderRe_header (hunk : SectionHunk) : hunkHeaderRe hunk.header =
      some ((hunk.oldStart.chars, hunk.oldCount.map Digits.chars),
        (hunk.newStart.chars, hunk.newCount.map Digits.chars)) := by
  unfold hunkHeaderRe SectionHunk.header
  rw [after?_append]
  have oldRange := range?_append hunk.oldStart hunk.oldCount
    ('+' :: (hunk.newStart.chars ++ (Digits.countText hunk.newCount ++
      (" @@".toList ++ hunk.heading))))
  have newRange := range?_append hunk.newStart hunk.newCount ("@@".toList ++ hunk.heading)
  have plus := after?_append " +" (hunk.newStart.chars ++ (Digits.countText hunk.newCount ++
    (" @@".toList ++ hunk.heading)))
  have closing := after?_append " @@" hunk.heading
  simp only [String.reduceToList, cons_append, nil_append] at oldRange newRange plus closing ⊢
  simp [oldRange, newRange, plus, closing]

theorem atoi_chars (number : Digits) : atoi number.chars = number.value :=
  Nat.min_eq_left number.fits

theorem countOr_chars (count : Option Digits) :
    countOr (count.map Digits.chars) = Digits.countValue count := by
  cases count with
  | none => rfl
  | some number => exact atoi_chars number

theorem ofHeader_header (hunk : SectionHunk) :
    PatchHunk.ofHeader (hunk.oldStart.chars, hunk.oldCount.map Digits.chars)
        (hunk.newStart.chars, hunk.newCount.map Digits.chars) hunk.header =
      { hunk.toHunk with lines := [] } := by
  simp [PatchHunk.ofHeader, SectionHunk.toHunk, atoi_chars, countOr_chars]

namespace ParseState

theorem readLine_of_next
    (processed : { state with lineNum := state.lineNum + 1 }.processLine line = .next next) :
    state.readLine line = .ok next := by
  rw [readLine, processed]

theorem readLines_append (state : ParseState) (first second : List Text) :
    state.readLines (first ++ second) =
      (state.readLines first).bind fun next => next.readLines second := by
  induction first generalizing state with
  | nil => rfl
  | cons line rest ih =>
    rw [cons_append, readLines, readLines]
    cases state.readLine line with
    | error error => rfl
    | ok next => exact ih next

theorem readLines_cons {rest : List Text} (read : state.readLine line = .ok next) :
    state.readLines (line :: rest) = next.readLines rest := by
  rw [readLines, read]
  rfl

theorem readLine_hunkLine {line : PatchLine} (plain : ¬ line.LooksLikeHeader) :
    readLine ⟨files, some file, some hunk, number⟩ line.text =
      .ok ⟨files, some file, some { hunk with lines := hunk.lines ++ [line] }, number + 1⟩ := by
  obtain ⟨type, content⟩ := line
  apply readLine_of_next
  cases type with
  | context =>
    rfl
  | add =>
    have unmatched : newFileRe ('+' :: content) = none :=
      (newFileRe_eq_none_iff content).mpr fun looks => plain (.inr ⟨rfl, looks⟩)
    rw [PatchLine.text, processLine_diffMark (by decide) _ (.inl rfl), processDiffLine,
      oldFileRe_of_ne (by decide), unmatched, hunkHeaderRe_of_ne (by decide)]
    rfl
  | remove =>
    have unmatched : oldFileRe ('-' :: content) = none :=
      (oldFileRe_eq_none_iff content).mpr fun looks => plain (.inl ⟨rfl, looks⟩)
    rw [PatchLine.text, processLine_diffMark (by decide) _ (.inl rfl), processDiffLine,
      unmatched, newFileRe_of_ne (by decide), hunkHeaderRe_of_ne (by decide)]
    rfl

theorem readLines_hunkLines {lines : List PatchLine}
    (plain : ∀ line ∈ lines, ¬ line.LooksLikeHeader) :
    readLines ⟨files, some file, some hunk, number⟩ (lines.map PatchLine.text) =
      .ok ⟨files, some file, some { hunk with lines := hunk.lines ++ lines },
        number + lines.length⟩ := by
  induction lines generalizing hunk number with
  | nil => simp [readLines]
  | cons line rest ih =>
    rw [map_cons, readLines_cons (readLine_hunkLine (plain line mem_cons_self)),
      ih fun other isMember => plain other (mem_cons_of_mem _ isMember)]
    simp only [length_cons, append_assoc, singleton_append]
    congr 2
    omega

theorem readLine_hunkHeader (hunk : SectionHunk) :
    readLine ⟨files, some file, pending, number⟩ hunk.header = .ok
      ⟨files, some (file.addHunk pending), some { hunk.toHunk with lines := [] }, number + 1⟩ := by
  apply readLine_of_next
  have marked : hunk.header = '@' :: hunk.header.tail := rfl
  rw [marked, processLine_diffMark (by decide) _ (.inl rfl), processDiffLine,
    oldFileRe_of_ne (by decide), newFileRe_of_ne (by decide), ← marked, hunkHeaderRe_header]
  simp [openHunk, ofHeader_header]

theorem readLines_hunk {hunk : SectionHunk} (plain : ∀ line ∈ hunk.lines, ¬ line.LooksLikeHeader) :
    readLines ⟨files, some file, pending, number⟩ hunk.textLines = .ok
      ⟨files, some (file.addHunk pending), some hunk.toHunk, number + 1 + hunk.lines.length⟩ := by
  rw [SectionHunk.textLines, readLines_cons (readLine_hunkHeader hunk), readLines_hunkLines plain]
  rfl

/-- Between two sections: nothing is read yet, or the last section is still open
with its last hunk complete. -/
inductive Between (state : ParseState) (files : List PatchFile) : Prop
  | start (flushed : state.flush = files) (noFile : state.currentFile = none)
      (noHunk : state.currentHunk = none)
  | after (flushed : state.flush = files) {file : PatchFile} {hunk : PatchHunk}
      (isFile : state.currentFile = some file) (isHunk : state.currentHunk = some hunk)
      (complete : hunk.Complete)

theorem readLines_hunks {files : List PatchFile} {file : PatchFile} {pending : Option PatchHunk}
    {number : Nat} (hunk : SectionHunk) (rest : List SectionHunk)
    (plain : ∀ member ∈ hunk :: rest, ∀ line ∈ member.lines, ¬ line.LooksLikeHeader) :
    ∃ next : ParseState, readLines ⟨files, some file, pending, number⟩
        ((hunk :: rest).flatMap SectionHunk.textLines) = .ok next ∧
      next.Between (files ++ [{ file with
        hunks := file.hunks ++ pending.toList ++ (hunk :: rest).map SectionHunk.toHunk }]) := by
  induction rest generalizing file pending number hunk with
  | nil =>
    refine ⟨⟨files, some (file.addHunk pending), some hunk.toHunk,
      number + 1 + hunk.lines.length⟩, ?_, ?_⟩
    · rw [flatMap_cons, flatMap_nil, append_nil]
      exact readLines_hunk (plain hunk mem_cons_self)
    · exact .after (by simp [flush, PatchFile.addHunk]) rfl rfl hunk.toHunk_complete
  | cons second rest ih =>
    obtain ⟨next, reads, between⟩ := @ih (file.addHunk pending) (some hunk.toHunk)
      (number + 1 + hunk.lines.length) second
      fun member isMember => plain member (mem_cons_of_mem _ isMember)
    refine ⟨next, ?_, ?_⟩
    · rw [flatMap_cons, readLines_append, readLines_hunk (plain hunk mem_cons_self)]
      exact reads
    · simpa [PatchFile.addHunk] using between

theorem gitDiffHeaderRe_gitLine (line : GitLine) : gitDiffHeaderRe line.text := by
  unfold gitDiffHeaderRe GitLine.text
  rw [after?_append]
  have oldPositive : 0 < line.oldName.chars.length :=
    length_pos_iff.mpr line.oldName.nonempty
  have newPositive : 0 < line.newName.chars.length :=
    length_pos_iff.mpr line.newName.nonempty
  simp only [Option.map_some, Option.getD_some, isSplitBy, any_eq_true, mem_range]
  refine ⟨line.oldName.chars.length, ?_, ?_⟩
  · simp
  · simp
    omega

theorem readLine_gitLine (between : state.Between files) (line : GitLine) :
    state.readLine line.text =
      .ok ⟨files, some { gitHeaders := [line.text] }, none, state.lineNum + 1⟩ := by
  apply readLine_of_next
  have printed : GoStrings.isSpace 'd' = false := by decide +kernel
  have notBlank : ¬ (state.currentFile.isNone ∧ line.text.all GoStrings.isSpace) := by
    rintro ⟨_, blank⟩
    exact absurd blank Bool.false_ne_true
  have matched := gitDiffHeaderRe_gitLine line
  generalize line.text = text at notBlank matched
  rw [processLine, if_neg notBlank, if_pos matched]
  cases between with
  | start flushed isFile isHunk | after flushed isFile isHunk complete =>
    subst flushed
    simp [openGitFile, flush, isFile, isHunk]

variable (header : HeaderText)

theorem processLine_oldHeader : state.processLine ("--- ".toList ++ header.chars) =
      .next (state.openOldFile (dropMark "a/" header.chars)) := by
  rw [show "--- ".toList ++ header.chars = '-' :: ("-- ".toList ++ header.chars) from rfl,
    processLine_diffMark (by decide) _ (.inr (by decide)), processDiffLine,
    show '-' :: ("-- ".toList ++ header.chars) = "--- ".toList ++ header.chars from rfl,
    oldFileRe_header header.nonempty]

theorem readLine_oldHeader_fresh {headers : List Text} :
    readLine ⟨files, some { gitHeaders := headers }, none, number⟩ ("--- ".toList ++ header.chars) =
      .ok ⟨files, some { oldName := dropMark "a/" header.chars, gitHeaders := headers }, none,
        number + 1⟩ := by
  apply readLine_of_next
  rw [processLine_oldHeader]
  simp [openOldFile]

theorem readLine_oldHeader (between : state.Between files) (header : HeaderText) :
    state.readLine ("--- ".toList ++ header.chars) =
      .ok ⟨files, some { oldName := dropMark "a/" header.chars }, none, state.lineNum + 1⟩ := by
  apply readLine_of_next
  rw [processLine_oldHeader]
  cases between with
  | start flushed isFile isHunk | after flushed isFile isHunk complete =>
    subst flushed
    simp [openOldFile, flush, isFile, isHunk]

theorem readLine_newHeader :
    readLine ⟨files, some file, none, number⟩ ("+++ ".toList ++ header.chars) =
      .ok ⟨files, some (file.withNewName (dropMark "b/" header.chars)), none, number + 1⟩ := by
  apply readLine_of_next
  rw [show "+++ ".toList ++ header.chars = '+' :: ("++ ".toList ++ header.chars) from rfl,
    processLine_diffMark (by decide) _ (.inr (by decide)), processDiffLine,
    oldFileRe_of_ne (by decide),
    show '+' :: ("++ ".toList ++ header.chars) = "+++ ".toList ++ header.chars from rfl,
    newFileRe_header header.nonempty]
  rfl

variable (between : state.Between files)
include between

theorem readLines_headers (entry : PatchSection) (rest : List Text) :
    ∃ number, state.readLines ((entry.gitLine.map GitLine.text).toList ++
        (("--- ".toList ++ entry.oldHeader.chars) :: ("+++ ".toList ++ entry.newHeader.chars) ::
          rest)) =
      readLines ⟨files, some { entry.toFile with hunks := [] }, none, number⟩ rest := by
  cases isGit : entry.gitLine with
  | none =>
    refine ⟨state.lineNum + 1 + 1, ?_⟩
    rw [Option.map_none, Option.toList_none, nil_append,
      readLines_cons (readLine_oldHeader between _), readLines_cons (readLine_newHeader _)]
    simp [PatchFile.withNewName, toFile, oldName, newName, isGit]
  | some line =>
    refine ⟨state.lineNum + 1 + 1 + 1, ?_⟩
    rw [Option.map_some, Option.toList_some, singleton_append,
      readLines_cons (readLine_gitLine between _), readLines_cons (readLine_oldHeader_fresh _),
      readLines_cons (readLine_newHeader _)]
    simp [PatchFile.withNewName, toFile, oldName, newName, isGit]

theorem readLines_section
    (plain : ∀ hunk ∈ entry.hunks, ∀ line ∈ hunk.lines, ¬ line.LooksLikeHeader) :
    ∃ next,
      state.readLines entry.textLines = .ok next ∧ next.Between (files ++ [entry.toFile]) := by
  obtain ⟨number, opened⟩ := readLines_headers between entry
    (entry.hunks.flatMap SectionHunk.textLines)
  cases isHunks : entry.hunks with
  | nil => exact absurd isHunks entry.hunked
  | cons hunk rest =>
    rw [isHunks] at plain
    obtain ⟨next, reads, after⟩ := @readLines_hunks files { entry.toFile with hunks := [] } none
      number hunk rest plain
    refine ⟨next, ?_, ?_⟩
    · rw [textLines, opened, isHunks]
      exact reads
    · simpa [toFile, isHunks] using after

theorem Between.readLines_sections
    (plain : ∀ entry ∈ sections, ∀ hunk ∈ entry.hunks, ∀ line ∈ hunk.lines,
      ¬ line.LooksLikeHeader) :
    ∃ next, state.readLines (sections.flatMap PatchSection.textLines) = .ok next ∧
      next.Between (files ++ sections.map PatchSection.toFile) := by
  induction sections generalizing state files with
  | nil => exact ⟨state, rfl, by simpa using between⟩
  | cons entry rest ih =>
    obtain ⟨middle, readsFirst, betweenFirst⟩ :=
      readLines_section between (plain entry mem_cons_self)
    obtain ⟨next, readsRest, betweenRest⟩ := ih betweenFirst fun other isMember =>
      plain other (mem_cons_of_mem _ isMember)
    refine ⟨next, ?_, by simpa using betweenRest⟩
    rw [flatMap_cons, readLines_append, readsFirst]
    exact readsRest

theorem Between.readLine_empty : ∃ next, state.readLine [] = .ok next ∧ next.flush = files := by
  cases between with
  | start flushed noFile noHunk =>
    refine ⟨{ state with lineNum := state.lineNum + 1 }, ?_, flushed⟩
    apply readLine_of_next
    simp [processLine, noFile]
  | @after flushed file hunk isFile isHunk complete =>
    refine ⟨{ state with lineNum := state.lineNum + 1 }, ?_, flushed⟩
    apply readLine_of_next
    have ended : ¬ (PatchHunk.oldLines hunk.lines < hunk.oldCount ∨
        PatchHunk.newLines hunk.lines < hunk.newCount) := by
      rw [complete.1, complete.2]
      simp
    have unmarked : processDiffLine { state with lineNum := state.lineNum + 1 } [] =
        .next { state with lineNum := state.lineNum + 1 } := by
      simp [processDiffLine, oldFileRe, newFileRe, hunkHeaderRe, after?, hunkLine, isHunk, ended]
    rw [processLine, if_neg (by simp [isFile]), if_neg (by decide)]
    simp only [gitHeader, isFile, isHunk, show binaryFileRe [] = false from rfl]
    simpa [isFile, isHunk] using unmarked

end ParseState

def PatchSection.Plain (entry : PatchSection) : Prop :=
  ∀ hunk ∈ entry.hunks, ∀ line ∈ hunk.lines, ¬ line.LooksLikeHeader

theorem parsePatch_patchText (nonempty : sections ≠ []) (plain : ∀ entry ∈ sections, entry.Plain) :
    parsePatch (patchText sections) =
      .ok ⟨sections.map PatchSection.toFile, patchText sections⟩ := by
  have start : ParseState.Between {} [] := .start rfl rfl rfl
  obtain ⟨state, reads, between⟩ := start.readLines_sections plain
  obtain ⟨last, readsLast, flushed⟩ := between.readLine_empty
  have readsAll : ParseState.readLines {} ((patchText sections).splitOn '\n') = .ok last := by
    rw [splitOn_patchText, ParseState.readLines_append, reads]
    show state.readLines [[]] = .ok last
    rw [ParseState.readLines_cons readsLast]
    rfl
  rw [parsePatch, readsAll]
  simp [flushed, nonempty]

theorem plain_of_parsePatch_patchText {content : Text}
    (parsed : parsePatch content = .ok ⟨sections.map PatchSection.toFile, content⟩) :
    ∀ entry ∈ sections, entry.Plain := by
  intro entry isEntry hunk isHunk line isLine
  have filePlain := plain_of_parsePatch parsed entry.toFile (mem_map_of_mem isEntry)
  exact filePlain hunk.toHunk (mem_map_of_mem isHunk) line isLine

theorem dropMark_of_gitName {mark : String} (isMark : mark = "a/" ∨ mark = "b/") {header : Text}
    (conventional : Conventional mark header) (named : gitName header = some name) :
    dropMark mark header = name ∧ name ≠ [] ∧ name ≠ "/dev/null".toList := by
  rcases conventional with missing | ⟨first, rest, relative, rfl⟩
  · simp [gitName, missing] at named
  have dropped : dropMark mark (mark.toList ++ first :: rest) = first :: rest := by
    rw [dropMark, after?_append]
  have stripped : gitName (mark.toList ++ first :: rest) = some (first :: rest) := by
    rcases isMark with rfl | rfl <;> simp [gitName, withoutFirstDirectory]
  obtain rfl := Option.mem_unique stripped named
  refine ⟨dropped, by simp, ?_⟩
  intro isMissing
  exact relative (cons.inj isMissing).1

theorem mem_pathsToCheck_iff : name ∈ pathsToCheck entry.toFile ↔ entry.Names name := by
  unfold pathsToCheck
  constructor
  · intro isChecked
    rcases mem_append.mp isChecked with isOld | isNew
    · split at isOld
      · next checked =>
        obtain rfl := mem_singleton.mp isOld
        exact ⟨checked.1, checked.2, .inl rfl⟩
      · cases isOld
    · split at isNew
      · next checked =>
        obtain rfl := mem_singleton.mp isNew
        exact ⟨checked.1, checked.2.1, .inr rfl⟩
      · cases isNew
  · rintro ⟨nonempty, present, isName⟩
    by_cases isOld : name = entry.oldName
    · subst isOld
      apply mem_append_left
      rw [show entry.toFile.oldName = entry.oldName from rfl, if_pos ⟨nonempty, present⟩]
      exact mem_singleton_self _
    · obtain rfl := isName.resolve_left isOld
      apply mem_append_right
      rw [show entry.toFile.newName = entry.newName from rfl, if_pos ⟨nonempty, present, isOld⟩]
      exact mem_singleton_self _

theorem names_of_conventional (conventional : entry.Conventional)
    (touched : name ∈ entry.touched gitName) : entry.Names name := by
  rcases mem_append.mp touched with isOld | isNew
  · obtain ⟨dropped, nonempty, present⟩ := dropMark_of_gitName (.inl rfl) conventional.1
      (Option.mem_toList.mp isOld)
    exact ⟨nonempty, present, .inl dropped.symm⟩
  · obtain ⟨dropped, nonempty, present⟩ := dropMark_of_gitName (.inr rfl) conventional.2
      (Option.mem_toList.mp isNew)
    exact ⟨nonempty, present, .inr dropped.symm⟩

/-- `ParsePatch` returns the sections of a well-formed patch, and every file that git acts on
is among the checked names, exactly when no line of a hunk looks like a file header and git
finds no other names in the headers than those without the marks.  It finds no others in
headers as git writes them. -/
theorem parsePatch_checks_touched_iff (git : Text → Option Text) (sections : List PatchSection)
    (nonempty : sections ≠ []) :
    ((∃ patch, parsePatch (patchText sections) = .ok patch ∧
        patch = ⟨sections.map PatchSection.toFile, patchText sections⟩ ∧
        ∀ entry ∈ sections, ∀ name ∈ entry.touched git,
          name ∈ patch.files.flatMap pathsToCheck) ↔
      (∀ entry ∈ sections, entry.Plain) ∧
        ∀ entry ∈ sections, ∀ name ∈ entry.touched git, ∃ other ∈ sections, other.Names name) ∧
    (parsePatch (patchText sections) =
        .ok ⟨sections.map PatchSection.toFile, patchText sections⟩ ↔
      ∀ entry ∈ sections, entry.Plain) ∧
    ∀ entry ∈ sections, entry.Conventional → ∀ name ∈ entry.touched gitName,
      entry.Names name := by
  have checked : ∀ name, name ∈ (sections.map PatchSection.toFile).flatMap pathsToCheck ↔
      ∃ other ∈ sections, other.Names name := by
    intro name
    rw [flatMap_map, mem_flatMap]
    exact exists_congr fun other => and_congr_right fun _ => mem_pathsToCheck_iff
  have returned : parsePatch (patchText sections) =
      .ok ⟨sections.map PatchSection.toFile, patchText sections⟩ ↔
        ∀ entry ∈ sections, entry.Plain :=
    ⟨plain_of_parsePatch_patchText, parsePatch_patchText nonempty⟩
  refine ⟨⟨?_, ?_⟩, returned, fun entry _ conventional name => names_of_conventional conventional⟩
  · rintro ⟨patch, parsed, rfl, within⟩
    refine ⟨returned.mp parsed, ?_⟩
    intro entry isEntry name touched
    exact (checked name).mp (within entry isEntry name touched)
  · rintro ⟨plain, named⟩
    refine ⟨_, returned.mpr plain, rfl, ?_⟩
    intro entry isEntry name touched
    exact (checked name).mpr (named entry isEntry name touched)

def newFileSection (name : HeaderText) (content : Text) (contentLine : '\n' ∉ content) :
    PatchSection where
  gitLine := none
  oldHeader := ⟨"/dev/null".toList, by simp, by simp⟩
  newHeader := name
  hunks :=
    [{ oldStart := ⟨['0'], by simp, by simp, by decide⟩
       oldCount := some ⟨['0'], by simp, by simp, by decide⟩
       newStart := ⟨['1'], by simp, by simp, by decide⟩
       newCount := none
       heading := []
       lines := [⟨.add, content⟩]
       oldMatches := rfl
       newMatches := rfl
       headingLine := by decide
       contentLines := by simpa using contentLine }]
  hunked := by simp

def notesHeader : HeaderText := ⟨"b/notes.txt".toList, by simp, by simp⟩

def notesSection : PatchSection :=
  newFileSection notesHeader "first line".toList (by decide)

theorem parsePatch_checks_touched_iff_notes : ∃ patch,
    parsePatch (patchText [notesSection]) = .ok patch ∧
      patch = ⟨[notesSection.toFile], patchText [notesSection]⟩ ∧
      ∀ entry ∈ [notesSection], ∀ name ∈ entry.touched gitName,
        name ∈ patch.files.flatMap pathsToCheck := by
  obtain ⟨exactly, _, conventional⟩ :=
    parsePatch_checks_touched_iff gitName [notesSection] (by simp)
  refine exactly.mpr ⟨?_, ?_⟩
  · intro entry isEntry hunk isHunk line isLine
    obtain rfl := mem_singleton.mp isEntry
    obtain rfl := mem_singleton.mp isHunk
    obtain rfl := mem_singleton.mp isLine
    rintro (⟨isRemove, _⟩ | ⟨_, first, rest, looks⟩)
    · cases isRemove
    · cases looks
  · intro entry isEntry name touched
    refine ⟨entry, isEntry, conventional entry isEntry ?_ name touched⟩
    obtain rfl := mem_singleton.mp isEntry
    exact ⟨.inl rfl, .inr ⟨'n', "otes.txt".toList, by decide, rfl⟩⟩

/-- A new file whose only line is `++ b/safe.txt`. -/
def hiddenSection : PatchSection :=
  newFileSection ⟨"b/evil.txt".toList, by simp, by simp⟩ "++ b/safe.txt".toList (by decide)

/-- Git creates `evil.txt`, and the checked name is that of the line. -/
theorem added_line_replaces_checked_name :
    hiddenSection.Conventional ∧ "evil.txt".toList ∈ hiddenSection.touched gitName ∧
    ∃ patch, parsePatch (patchText [hiddenSection]) = .ok patch ∧
      patch.files ≠ [hiddenSection].map PatchSection.toFile ∧
      patch.files.flatMap pathsToCheck = ["safe.txt".toList] := by
  refine ⟨⟨.inl rfl, .inr ⟨'e', "vil.txt".toList, by decide, rfl⟩⟩, by decide, ?_⟩
  have parsed : (match parsePatch (patchText [hiddenSection]) with
      | .ok patch => decide (patch.files ≠ [hiddenSection].map toFile ∧
          patch.files.flatMap pathsToCheck = ["safe.txt".toList])
      | .error _ => false) = true := by
    decide +kernel
  split at parsed
  · next patch isParsed => exact ⟨patch, isParsed, of_decide_eq_true parsed⟩
  · cases parsed

end OpenExec.PatchParser
