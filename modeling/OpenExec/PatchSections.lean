import OpenExec.PatchParser

/-!
# Well-formed patches

A patch is written as a sequence of file sections, each with its header lines and its
hunks.
-/

namespace OpenExec.PatchParser

open List

structure Digits where
  chars : Text
  nonempty : chars ≠ []
  digits : ∀ c ∈ chars, c.isDigit
  fits : decimal chars ≤ maxInt

namespace Digits

def value (number : Digits) : Nat := decimal number.chars

def countText (count : Option Digits) : Text :=
  match count with
  | none => []
  | some number => ',' :: number.chars

/-- A count that is left out is one. -/
def countValue (count : Option Digits) : Nat := (count.map value).getD 1

end Digits

def PatchLine.text (line : PatchLine) : Text :=
  match line.type with
  | .context => ' ' :: line.content
  | .add => '+' :: line.content
  | .remove => '-' :: line.content

structure SectionHunk where
  oldStart : Digits
  oldCount : Option Digits
  newStart : Digits
  newCount : Option Digits
  heading : Text
  lines : List PatchLine
  oldMatches : Digits.countValue oldCount = PatchHunk.oldLines lines
  newMatches : Digits.countValue newCount = PatchHunk.newLines lines
  headingLine : '\n' ∉ heading
  contentLines : ∀ line ∈ lines, '\n' ∉ line.content

def PatchHunk.Complete (hunk : PatchHunk) : Prop :=
  PatchHunk.oldLines hunk.lines = hunk.oldCount ∧ PatchHunk.newLines hunk.lines = hunk.newCount

namespace SectionHunk

variable (hunk : SectionHunk)

def header : Text :=
  "@@ -".toList ++ (hunk.oldStart.chars ++ (Digits.countText hunk.oldCount ++
    (" +".toList ++ (hunk.newStart.chars ++ (Digits.countText hunk.newCount ++
      (" @@".toList ++ hunk.heading))))))

def textLines : List Text :=
  hunk.header :: hunk.lines.map PatchLine.text

def toHunk : PatchHunk where
  oldStart := hunk.oldStart.value
  oldCount := Digits.countValue hunk.oldCount
  newStart := hunk.newStart.value
  newCount := Digits.countValue hunk.newCount
  header := hunk.header
  lines := hunk.lines

theorem toHunk_complete : hunk.toHunk.Complete :=
  ⟨hunk.oldMatches.symm, hunk.newMatches.symm⟩

end SectionHunk

structure HeaderText where
  chars : Text
  nonempty : chars ≠ []
  plain : ∀ c ∈ chars, c ≠ '\n' ∧ c ≠ '\t' ∧ c ≠ '"'

structure GitLine where
  oldName : HeaderText
  newName : HeaderText

def GitLine.text (line : GitLine) : Text :=
  "diff --git a/".toList ++ (line.oldName.chars ++ (" b/".toList ++ line.newName.chars))

structure PatchSection where
  gitLine : Option GitLine
  oldHeader : HeaderText
  newHeader : HeaderText
  hunks : List SectionHunk
  hunked : hunks ≠ []

namespace PatchSection

variable (entry : PatchSection)

def textLines : List Text :=
  (entry.gitLine.map GitLine.text).toList ++
    (("--- ".toList ++ entry.oldHeader.chars) :: ("+++ ".toList ++ entry.newHeader.chars) ::
      entry.hunks.flatMap SectionHunk.textLines)

def oldName : Text := dropMark "a/" entry.oldHeader.chars

def newName : Text := dropMark "b/" entry.newHeader.chars

def toFile : PatchFile where
  oldName := entry.oldName
  newName := entry.newName
  hunks := entry.hunks.map SectionHunk.toHunk
  isNew := entry.oldName == "/dev/null".toList
  isDeleted := entry.newName == "/dev/null".toList
  gitHeaders := (entry.gitLine.map GitLine.text).toList

end PatchSection

def patchText (sections : List PatchSection) : Text :=
  ['\n'].intercalate (sections.flatMap PatchSection.textLines ++ [[]])

/-- The name after its first directory, which `git apply` leaves out. -/
def withoutFirstDirectory (name : Text) : Text :=
  if '/' ∈ name then (name.dropWhile (· ≠ '/')).tail else name

/-- How git names the file of a header unless it is told otherwise. -/
def gitName (header : Text) : Option Text :=
  if header = "/dev/null".toList then none else some (withoutFirstDirectory header)

variable (entry : PatchSection)

/-- The files `git apply` creates, changes or deletes for a section, by the names that git
finds in the headers. -/
def PatchSection.touched (git : Text → Option Text) : List Text :=
  (git entry.oldHeader.chars).toList ++ (git entry.newHeader.chars).toList

/-- The name is one of the section's, without its mark. -/
structure PatchSection.Names (name : Text) : Prop where
  nonempty : name ≠ []
  present : name ≠ "/dev/null".toList
  isName : name = entry.oldName ∨ name = entry.newName

/-- A header as git writes it: the missing file, or a relative name under the mark. -/
def Conventional (mark : String) (header : Text) : Prop :=
  header = "/dev/null".toList ∨ ∃ first rest, first ≠ '/' ∧ header = mark.toList ++ first :: rest

def PatchSection.Conventional : Prop :=
  PatchParser.Conventional "a/" entry.oldHeader.chars ∧
    PatchParser.Conventional "b/" entry.newHeader.chars

theorem newline_notMem_countText (count : Option Digits) : '\n' ∉ Digits.countText count := by
  cases count with
  | none => simp [Digits.countText]
  | some number =>
    intro isMember
    rcases mem_cons.mp isMember with isComma | isDigit
    · exact absurd isComma (by decide)
    · exact absurd (number.digits _ isDigit) (by decide)

theorem newline_notMem_digits (number : Digits) : '\n' ∉ number.chars := fun isMember =>
  absurd (number.digits _ isMember) (by decide)

theorem newline_notMem_header (hunk : SectionHunk) : '\n' ∉ hunk.header := by
  unfold SectionHunk.header
  simp only [mem_append, not_or]
  exact ⟨by decide, newline_notMem_digits _, newline_notMem_countText _, by decide,
    newline_notMem_digits _, newline_notMem_countText _, by decide, hunk.headingLine⟩

theorem newline_notMem_lineText {line : PatchLine} (contentLine : '\n' ∉ line.content) :
    '\n' ∉ line.text := by
  unfold PatchLine.text
  split <;> simpa using contentLine

theorem newline_notMem_headerText (header : HeaderText) : '\n' ∉ header.chars := fun isMember =>
  (header.plain _ isMember).1 rfl

theorem newline_notMem_textLines : ∀ line ∈ entry.textLines, '\n' ∉ line := by
  intro line isMember
  rcases mem_append.mp isMember with isGit | isHeader
  · obtain ⟨gitLine, _, rfl⟩ : ∃ gitLine, entry.gitLine = some gitLine ∧ gitLine.text = line := by
      simpa [Option.mem_toList] using isGit
    unfold GitLine.text
    simp only [mem_append, not_or]
    exact ⟨by decide, newline_notMem_headerText _, by decide, newline_notMem_headerText _⟩
  rcases mem_cons.mp isHeader with rfl | isLater
  · simp only [mem_append, not_or]
    exact ⟨by decide, newline_notMem_headerText _⟩
  rcases mem_cons.mp isLater with rfl | isHunk
  · simp only [mem_append, not_or]
    exact ⟨by decide, newline_notMem_headerText _⟩
  obtain ⟨hunk, _, isLine⟩ := mem_flatMap.mp isHunk
  rcases mem_cons.mp isLine with rfl | isContent
  · exact newline_notMem_header hunk
  · obtain ⟨content, contentMember, rfl⟩ := mem_map.mp isContent
    exact newline_notMem_lineText (hunk.contentLines content contentMember)

theorem splitOn_patchText (sections : List PatchSection) :
    (patchText sections).splitOn '\n' = sections.flatMap PatchSection.textLines ++ [[]] := by
  apply splitOn_intercalate
  · intro line isMember
    rcases mem_append.mp isMember with isText | isLast
    · obtain ⟨entry, _, isLine⟩ := mem_flatMap.mp isText
      exact newline_notMem_textLines entry line isLine
    · simp [mem_singleton.mp isLast]
  · simp

end OpenExec.PatchParser
