import Mathlib.Data.List.Infix
import Mathlib.Data.String.Basic

/-!
# Go string functions

The functions of Go's `strings` and `unicode` packages that the modelled code
calls, on the characters of a string.
-/

namespace OpenExec.GoStrings

open List

/-- `unicode.IsSpace`. -/
def isSpace (c : Char) : Bool :=
  c.toNat ∈ [9, 10, 11, 12, 13, 32, 0x85, 0xa0, 0x1680, 0x2028, 0x2029, 0x202f, 0x205f, 0x3000] ||
    (0x2000 ≤ c.toNat && c.toNat ≤ 0x200a)

/-- `strings.TrimSpace`. -/
def trimSpace (text : String) : String :=
  String.ofList ((text.toList.dropWhile isSpace).reverse.dropWhile isSpace).reverse

/-- `strings.HasPrefix`. -/
def hasPrefix (text pre : String) : Bool :=
  pre.toList.isPrefixOf text.toList

/-- `strconv.Quote` of a text without characters to escape. -/
def quoteName (name : String) : String := "\"" ++ name ++ "\""

/-- `strings.TrimPrefix`. -/
def trimPrefix (text pre : String) : String :=
  if hasPrefix text pre then String.ofList (text.toList.drop pre.toList.length) else text

/-- `strings.Cut`: the texts before and after the first occurrence of the
separator. -/
def cutList (separator : List Char) : List Char → Option (List Char × List Char)
  | [] => if separator.isEmpty then some ([], []) else none
  | c :: rest =>
    if separator.isPrefixOf (c :: rest) then
      some ([], (c :: rest).drop separator.length)
    else (cutList separator rest).map fun parts => (c :: parts.1, parts.2)

def cut (text separator : String) : Option (String × String) :=
  (cutList separator.toList text.toList).map fun parts =>
    (String.ofList parts.1, String.ofList parts.2)

/-- `strings.Contains`. -/
def contains (text : List Char) (pattern : String) : Bool :=
  text.tails.any fun tail => pattern.toList.isPrefixOf tail

def hasSuffix (text : List Char) (suffix : String) : Bool :=
  suffix.toList.isSuffixOf text

/-- `unicode.ToLower` where it matters for ASCII patterns: the Kelvin sign and the
dotted capital I are the other characters with an ASCII lower case. -/
def toLower (c : Char) : Char :=
  if c = Char.ofNat 0x212a then 'k' else if c = Char.ofNat 0x130 then 'i' else c.toLower

variable {text : List Char}

theorem contains_iff {pattern : String} :
    contains text pattern = true ↔ pattern.toList <:+: text := by
  rw [contains, any_eq_true]
  constructor
  · rintro ⟨tail, isTail, starts⟩
    exact (List.isPrefixOf_iff_prefix.mp starts).isInfix.trans
      ((mem_tails _ _).mp isTail).isInfix
  · intro found
    obtain ⟨tail, starts, isTail⟩ := infix_iff_prefix_suffix.mp found
    exact ⟨tail, (mem_tails _ _).mpr isTail, List.isPrefixOf_iff_prefix.mpr starts⟩

theorem hasSuffix_iff {suffix : String} : hasSuffix text suffix = true ↔ suffix.toList <:+ text :=
  isSuffixOf_iff_suffix

theorem trimSpace_of_plain {text : String} (plain : ∀ c ∈ text.toList, isSpace c = false) :
    trimSpace text = text := by
  have unchanged {chars : List Char} (none : ∀ c ∈ chars, isSpace c = false) :
      chars.dropWhile isSpace = chars := by
    cases chars with
    | nil => rfl
    | cons c chars => simp [none c mem_cons_self]
  have reversed : ∀ c ∈ text.toList.reverse, isSpace c = false := fun c member =>
    plain c (mem_reverse.mp member)
  rw [trimSpace, unchanged plain, unchanged reversed, reverse_reverse]
  exact String.ofList_toList

theorem trimSpace_of_visible {text : String} {c : Char} {rest : List Char}
    (starts : text.toList = c :: rest) (visible : isSpace c = false) :
    ∃ kept, (trimSpace text).toList = c :: kept := by
  have whole : text.toList.dropWhile isSpace = c :: rest := by simp [starts, visible]
  rw [trimSpace, whole, String.toList_ofList, reverse_cons, dropWhile_append]
  split
  · exact ⟨[], by simp [visible]⟩
  · exact ⟨(rest.reverse.dropWhile isSpace).reverse, by simp⟩

end OpenExec.GoStrings
