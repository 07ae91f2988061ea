import OpenExec.FiniteRenaming
import OpenExec.FirstFree
import Mathlib.Data.String.Basic

/-!
# Planner identifiers

Goals, stories and tasks of a plan are named by strings such as `G-001`,
`US-001` and `T-US-001-002`.  This file holds the string functions of
`internal/planner/remap.go`: numbering, the search for a free number, and the
rewriting of whole identifier tokens in prose.
-/

namespace OpenExec.Planner

open FiniteRenaming FirstFree List

/-- A table of identifier changes, the `refs` map of the planner. -/
abbrev Refs := List (String × String)

/-- The verb `%03d` of a natural number. -/
def threeDigits (number : Nat) : String :=
  let digits := Nat.toDigits 10 number
  String.ofList (List.replicate (3 - digits.length) '0' ++ digits)

variable (base : String) (number : Nat)

/-- The verb sequence `%s-%03d`. -/
def numbered : String :=
  base ++ "-" ++ threeDigits number

theorem threeDigits_injective : Function.Injective threeDigits := by
  have valueOf (number : Nat) :
      Nat.ofDigitChars 10 (threeDigits number).toList 0 = number := by
    simp only [threeDigits, String.toList_ofList, Nat.ofDigitChars_append,
      Nat.ofDigitChars_replicate_zero, Nat.mul_zero, Nat.ofDigitChars_ten_toDigits]
  intro first second same
  rw [← valueOf first, ← valueOf second, same]

theorem numbered_injective : Function.Injective (numbered base) := by
  intro first second same
  exact threeDigits_injective ((String.append_right_inj (base ++ "-")).mp same)

theorem numbered_ne_empty : numbered base number ≠ "" := by
  intro empty
  have lengths := congrArg (fun text => text.toList.length) empty
  simp [numbered] at lengths

/-- The identifier `T-<story>-NNN` of the task at a position, counted from one. -/
def taskNumbered (story : String) (position : Nat) : String :=
  numbered ("T-" ++ story) position

theorem append_cons_inj_of_not_mem {separator : Char} {front front' back back' : List Char}
    (absent : separator ∉ back) (absent' : separator ∉ back')
    (same : front ++ separator :: back = front' ++ separator :: back') :
    front = front' ∧ back = back' := by
  rcases append_eq_append_iff.mp same with ⟨middle, rfl, cut⟩ | ⟨middle, rfl, cut⟩
  · cases middle with
    | nil => simpa using (cons.inj cut).2
    | cons head tail => exact absurd ((cons.inj cut).2 ▸ by simp) absent
  · cases middle with
    | nil => simpa using (cons.inj cut).2.symm
    | cons head tail => exact absurd ((cons.inj cut).2 ▸ by simp) absent'

theorem hyphen_not_mem_threeDigits : '-' ∉ (threeDigits number).toList := by
  simp only [threeDigits, String.toList_ofList, mem_append, not_or]
  constructor
  · simp [mem_replicate]
  · intro member
    have digit := Nat.isDigit_of_mem_toDigits (by decide) (by decide) member
    exact absurd digit (by decide)

theorem taskNumbered_inj {story story' : String} {position position' : Nat}
    (same : taskNumbered story position = taskNumbered story' position') :
    story = story' ∧ position = position' := by
  have texts := congrArg String.toList same
  simp only [taskNumbered, numbered, String.toList_append] at texts
  obtain ⟨bases, digits⟩ := append_cons_inj_of_not_mem (hyphen_not_mem_threeDigits position)
    (hyphen_not_mem_threeDigits position') (by simpa using texts)
  refine ⟨?_, threeDigits_injective (String.toList_inj.mp digits)⟩
  exact String.toList_inj.mp (by simpa using bases)

theorem taskNumbered_ne_numbered (story : String) (position number : Nat) :
    taskNumbered story position ≠ numbered "US" number := by
  intro same
  have heads := congrArg (fun text => text.toList.head?) same
  simp [taskNumbered, numbered] at heads

variable (pre : String) (taken : List String)

/-- `nextFreeID`: the first `<prefix>-NNN` nobody holds. -/
def nextFreeID : String :=
  firstFree (numbered pre) taken

variable (text : List Char)

/-- `strconv.Atoi` accepts the text after the last hyphen, which holds no
minus sign: an optional plus sign and decimal digits within 64 bits. -/
def atoiAccepts : Bool :=
  let digits := match text with
    | '+' :: rest => rest
    | other => other
  !digits.isEmpty && digits.all Char.isDigit && decide (Nat.ofDigitChars 10 digits 0 < 2 ^ 63)

variable (id : String)

/-- The base whose number `nextFreeTaskID` bumps: the identifier without its
trailing `-<number>`, or all of it when it does not end in one. -/
def taskBase : String :=
  let reversed := id.toList.reverse
  let suffix := (reversed.takeWhile (· ≠ '-')).reverse
  let before := ((reversed.dropWhile (· ≠ '-')).drop 1).reverse
  -- No hyphen and a leading hyphen (`idx > 0` fails) both leave `before` empty.
  if !before.isEmpty && atoiAccepts suffix then String.ofList before else id

/-- `nextFreeTaskID`: the first free number of the identifier's base. -/
def nextFreeTaskID (taken : List String) : String :=
  firstFree (numbered (taskBase id)) taken

theorem nextFreeID_not_mem : nextFreeID pre taken ∉ taken :=
  firstFree_not_mem (numbered_injective pre) taken

theorem nextFreeTaskID_not_mem (taken : List String) : nextFreeTaskID id taken ∉ taken :=
  firstFree_not_mem (numbered_injective (taskBase id)) taken

theorem nextFreeID_eq_numbered : ∃ number, nextFreeID pre taken = numbered pre number :=
  firstFree_eq_candidate _ _

theorem nextFreeID_congr {pre : String} {taken other : List String}
    (same : ∀ number, numbered pre number ∈ taken ↔ numbered pre number ∈ other) :
    nextFreeID pre taken = nextFreeID pre other :=
  firstFree_congr (numbered_injective pre) same

def digitRun : Nat :=
  (text.takeWhile Char.isDigit).length

/-- The match of `<prefix>[0-9]+` at the start of a text, as a length; zero
means no match. -/
def numberedTokenLength (pre text : List Char) : Nat :=
  if pre.isPrefixOf text then
    match digitRun (text.drop pre.length) with
    | 0 => 0
    | digits + 1 => pre.length + (digits + 1)
  else 0

/-- The match of `T-US-[0-9]+-[0-9]+` at the start of a text. -/
def taskTokenLength : Nat :=
  match numberedTokenLength "T-US-".toList text with
  | 0 => 0
  | stem + 1 =>
    match numberedTokenLength ['-'] (text.drop (stem + 1)) with
    | 0 => 0
    | tail + 1 => (stem + 1) + (tail + 1)

/-- The match of `idRefTokenRe` at the start of a text: its alternatives are
tried in order and every digit run is greedy. -/
def idRefTokenLength : Nat :=
  match taskTokenLength text with
  | 0 =>
    match numberedTokenLength "US-".toList text with
    | 0 => numberedTokenLength "G-".toList text
    | length + 1 => length + 1
  | length + 1 => length + 1

/-- `ReplaceAllStringFunc` over the leftmost non-overlapping matches.  `skip`
counts the characters of the current match still to be passed over. -/
def rewriteTokens (refs : Refs) : Nat → List Char → List Char
  | _, [] => []
  | skip + 1, _ :: rest => rewriteTokens refs skip rest
  | 0, head :: rest =>
    match idRefTokenLength (head :: rest) with
    | 0 => head :: rewriteTokens refs 0 rest
    | length + 1 =>
      (rename refs (String.ofList ((head :: rest).take (length + 1)))).toList ++
        rewriteTokens refs length rest

/-- `rewriteIDRefs`: replace whole identifier tokens of a text. -/
def rewriteIDRefs (text : String) (refs : Refs) : String :=
  String.ofList (rewriteTokens refs 0 text.toList)

theorem rewriteTokens_nil (skip : Nat) (text : List Char) :
    rewriteTokens [] skip text = text.drop skip := by
  induction text generalizing skip with
  | nil => simp [rewriteTokens]
  | cons head rest ih =>
    cases skip with
    | succ skip => simp [rewriteTokens, ih]
    | zero =>
      cases length : idRefTokenLength (head :: rest) with
      | zero => simp [rewriteTokens, length, ih]
      | succ length' =>
        simp only [rewriteTokens, length, ih, rename_nil, String.toList_ofList,
          take_succ_cons, cons_append, take_append_drop, drop_zero]

@[simp]
theorem rewriteIDRefs_nil (text : String) : rewriteIDRefs text [] = text := by
  simp [rewriteIDRefs, rewriteTokens_nil]

end OpenExec.Planner
