import OpenExec.PlanIdentifiers

/-!
# Whole identifier tokens

`rewriteIDRefs` of `internal/planner/remap.go` replaces every match of its pattern, also one
that is part of a longer word.
-/

namespace OpenExec.Planner

open FiniteRenaming List

section

variable (word : Char → Bool)

/-- What stands next to a token, read away from it, belongs to the same word: a letter or
digit, or a hyphen with one behind it. -/
def joins : List Char → Bool
  | [] => false
  | [c] => word c
  | c :: d :: _ => word c || (c = '-' && word d)

/-- The identifier at the start of a text if it is whole; `before` is read backwards. -/
def wholeTokenLength (before text : List Char) : Nat :=
  if joins word before || joins word (text.drop (idRefTokenLength text)) then 0
  else idRefTokenLength text

/-- The rewriting that is meant: whole identifiers are replaced wherever they stand. -/
def rewriteWholeTokens (refs : Refs) : List Char → Nat → List Char → List Char
  | _, _, [] => []
  | before, skip + 1, c :: rest => rewriteWholeTokens refs (c :: before) skip rest
  | before, 0, c :: rest =>
    match wholeTokenLength word before (c :: rest) with
    | 0 => c :: rewriteWholeTokens refs (c :: before) 0 rest
    | length + 1 =>
      (rename refs (String.ofList ((c :: rest).take (length + 1)))).toList ++
        rewriteWholeTokens refs (c :: before) length rest

/-- Every match of the pattern is a whole identifier. -/
def TokensStandAlone : List Char → Nat → List Char → Prop
  | _, _, [] => True
  | before, skip + 1, c :: rest => TokensStandAlone (c :: before) skip rest
  | before, 0, c :: rest =>
    wholeTokenLength word before (c :: rest) = idRefTokenLength (c :: rest) ∧
      TokensStandAlone (c :: before) (idRefTokenLength (c :: rest) - 1) rest

/-- Every character of a text is joined to what stands before it. -/
def Linked : List Char → List Char → Prop
  | _, [] => True
  | before, c :: rest => joins word before = true ∧ Linked (c :: before) rest

variable {word} {before text rest : List Char} {c : Char} {refs : Refs} {skip length : Nat}

theorem rewriteWholeTokens_of_standAlone (alone : TokensStandAlone word before skip text) :
    rewriteWholeTokens word refs before skip text = rewriteTokens refs skip text := by
  induction text generalizing before skip with
  | nil => simp [rewriteWholeTokens, rewriteTokens]
  | cons c rest ih =>
    cases skip with
    | succ skip => exact ih alone
    | zero =>
      obtain ⟨whole, later⟩ := alone
      rw [rewriteWholeTokens, rewriteTokens, whole]
      cases isLength : idRefTokenLength (c :: rest) <;> rw [isLength] at later
      · simp only [ih later]
      · exact congrArg _ (ih later)

theorem joins_cons (isWord : word c = true) : joins word (c :: before) = true := by
  cases before <;> simp [joins, isWord]

theorem joins_hyphen (isWord : word c = true) : joins word ('-' :: c :: before) = true := by
  simp [joins, isWord]

theorem linked_append {first second : List Char} (firstLinked : Linked word before first)
    (secondLinked : Linked word (first.reverse ++ before) second) :
    Linked word before (first ++ second) := by
  induction first generalizing before with
  | nil => exact secondLinked
  | cons c first ih =>
    refine ⟨firstLinked.1, ih firstLinked.2 ?_⟩
    simpa using secondLinked

theorem linked_digits {digits : List Char}
    (covers : ∀ c : Char, c.isAlphanum = true → word c = true) (joined : joins word before = true)
    (areDigits : ∀ d ∈ digits, d.isDigit = true) : Linked word before digits := by
  induction digits generalizing before with
  | nil => trivial
  | cons d digits ih =>
    have isWord : word d = true := covers d (by simp [Char.isAlphanum, areDigits d mem_cons_self])
    exact ⟨joined, ih (joins_cons isWord) fun e member => areDigits e (mem_cons_of_mem _ member)⟩

theorem numberedTokenLength_eq_succ {pre : List Char}
    (isLength : numberedTokenLength pre text = length + 1) :
    ∃ digits after, text = pre ++ (digits ++ after) ∧ digits ≠ [] ∧
      (∀ d ∈ digits, d.isDigit = true) ∧ length + 1 = pre.length + digits.length := by
  unfold numberedTokenLength at isLength
  split at isLength
  · next starts =>
    obtain ⟨rest, rfl⟩ := isPrefixOf_iff_prefix.mp starts
    rw [drop_left] at isLength
    split at isLength
    · cases isLength
    · next count isCount =>
      have size : (rest.takeWhile Char.isDigit).length = count + 1 := isCount
      refine ⟨rest.takeWhile Char.isDigit, rest.dropWhile Char.isDigit, ?_, ?_, ?_, ?_⟩
      · rw [takeWhile_append_dropWhile]
      · intro none
        simp [none] at size
      · exact fun d member => all_eq_true.mp all_takeWhile d member
      · rw [size, ← isLength]
  · cases isLength

theorem wholeTokenLength_cases (word : Char → Bool) (before text : List Char) :
    wholeTokenLength word before text = idRefTokenLength text ∨
      wholeTokenLength word before text = 0 := by
  unfold wholeTokenLength
  split
  · exact .inr rfl
  · exact .inl rfl

def growing (token : String) : Refs := [(token, token ++ "+")]

theorem length_rename_growing (token : String) (chars : List Char) :
    (rename (growing token) (String.ofList chars)).toList.length =
      chars.length + if String.ofList chars = token then 1 else 0 := by
  by_cases same : String.ofList chars = token
  · simp [rename, FiniteRenaming.find?, growing, ← same]
  · simp [rename, FiniteRenaming.find?, growing, same, Ne.symm same]

variable (covers : ∀ c : Char, c.isAlphanum = true → word c = true)
include covers

theorem linked_taskToken (before : List Char)
    (isLength : taskTokenLength (c :: rest) = length + 1) : ∃ inner after, rest = inner ++ after ∧
    inner.length = length ∧ Linked word (c :: before) inner := by
  unfold taskTokenLength at isLength
  split at isLength
  · cases isLength
  next stem isStem =>
  obtain ⟨first, after, isText, nonempty, firstDigits, stemLength⟩ :=
    numberedTokenLength_eq_succ isStem
  obtain ⟨d, earlier, isLast⟩ := exists_cons_of_ne_nil (reverse_ne_nil_iff.mpr nonempty)
  have isWord : word d = true := by
    refine covers d ?_
    simp [Char.isAlphanum, firstDigits d (mem_reverse.mp (isLast ▸ mem_cons_self))]
  have passed : (c :: rest).drop (stem + 1) = after := by
    rw [isText, ← append_assoc, stemLength, ← length_append, drop_left]
  rw [passed] at isLength
  split at isLength
  · cases isLength
  next tail isTail =>
  obtain ⟨second, later, rfl, _, secondDigits, tailLength⟩ := numberedTokenLength_eq_succ isTail
  obtain ⟨rfl, rfl⟩ := cons.inj (isText.trans
    (show _ = 'T' :: ['-', 'U', 'S', '-'] ++ (first ++ '-' :: (second ++ later)) from rfl))
  have isT : word 'T' = true := covers 'T' (by decide)
  have isS : word 'S' = true := covers 'S' (by decide)
  refine ⟨'-' :: 'U' :: 'S' :: '-' :: (first ++ '-' :: second), later, by simp, ?_,
    joins_cons isT, joins_hyphen isT, joins_cons (covers 'U' (by decide)), joins_cons isS,
    linked_append (linked_digits covers (joins_hyphen isS) firstDigits) ?_⟩
  · simp at stemLength tailLength ⊢
    omega
  · rw [isLast]
    exact ⟨joins_cons isWord, linked_digits covers (joins_hyphen isWord) secondDigits⟩

theorem linked_token (before : List Char) (isLength : idRefTokenLength (c :: rest) = length + 1) :
    ∃ inner after,
      rest = inner ++ after ∧ inner.length = length ∧ Linked word (c :: before) inner := by
  unfold idRefTokenLength at isLength
  split at isLength
  · split at isLength
    · obtain ⟨digits, after, isText, _, areDigits, size⟩ := numberedTokenLength_eq_succ isLength
      obtain ⟨rfl, rfl⟩ := cons.inj isText
      have isWord : word 'G' = true := covers 'G' (by decide)
      refine ⟨'-' :: digits, after, rfl, ?_, joins_cons isWord,
        linked_digits covers (joins_hyphen isWord) areDigits⟩
      simp at size ⊢
      omega
    · next isStory =>
      obtain ⟨digits, after, isText, _, areDigits, size⟩ := numberedTokenLength_eq_succ isStory
      obtain ⟨rfl, rfl⟩ := cons.inj isText
      have isWord : word 'S' = true := covers 'S' (by decide)
      refine ⟨'S' :: '-' :: digits, after, rfl, ?_, joins_cons (covers 'U' (by decide)),
        joins_cons isWord, linked_digits covers (joins_hyphen isWord) areDigits⟩
      simp at size ⊢
      omega
  · next isTask => exact linked_taskToken covers before (isTask.trans isLength)

theorem length_rewriteWholeTokens_le (token : String) :
    (∀ skip, (rewriteWholeTokens word (growing token) before skip text).length ≤
      (rewriteTokens (growing token) skip text).length) ∧
    ∀ count, Linked word before (text.take count) →
      (rewriteWholeTokens word (growing token) before 0 text).length ≤
        (text.take count).length + (rewriteTokens (growing token) count text).length := by
  induction text generalizing before with
  | nil => simp [rewriteWholeTokens]
  | cons c rest ih =>
    obtain ⟨inStep, copied⟩ := @ih (c :: before)
    have here : (rewriteWholeTokens word (growing token) before 0 (c :: rest)).length ≤
        (rewriteTokens (growing token) 0 (c :: rest)).length := by
      rw [rewriteWholeTokens, rewriteTokens]
      cases isLength : idRefTokenLength (c :: rest) with
      | zero => simpa [wholeTokenLength, isLength] using inStep 0
      | succ length =>
        rcases wholeTokenLength_cases word before (c :: rest) with whole | joined
        · simpa [whole, isLength] using inStep length
        · obtain ⟨inner, after, rfl, rfl, linked⟩ := linked_token covers before isLength
          have later := copied inner.length (by rwa [take_left])
          rw [take_left] at later
          simp only [joined, length_cons, length_append, take_succ_cons, take_left,
            length_rename_growing]
          omega
    refine ⟨?_, ?_⟩
    · rintro (_ | skip)
      · exact here
      · exact inStep skip
    · rintro (_ | count) linked
      · simpa using here
      · have later := copied count linked.2
        simp [rewriteWholeTokens, wholeTokenLength, linked.1, rewriteTokens] at later ⊢
        omega

theorem standAlone_of_length (fits : ∀ token, (rewriteTokens (growing token) skip text).length ≤
      (rewriteWholeTokens word (growing token) before skip text).length) :
    TokensStandAlone word before skip text := by
  induction text generalizing before skip with
  | nil => trivial
  | cons c rest ih =>
    cases skip with
    | succ skip => exact ih fits
    | zero =>
      by_cases whole : wholeTokenLength word before (c :: rest) = idRefTokenLength (c :: rest)
      · refine ⟨whole, ih fun token => ?_⟩
        have fits := fits token
        rw [rewriteWholeTokens, rewriteTokens, whole] at fits
        cases isLength : idRefTokenLength (c :: rest) <;> simpa [isLength] using fits
      · exfalso
        have joined := (wholeTokenLength_cases word before (c :: rest)).resolve_left whole
        obtain ⟨length, isLength⟩ := Nat.exists_eq_succ_of_ne_zero (joined ▸ Ne.symm whole)
        obtain ⟨inner, after, rfl, rfl, linked⟩ := linked_token covers before isLength
        obtain ⟨token, isToken⟩ : ∃ token, String.ofList (c :: inner) = token := ⟨_, rfl⟩
        have fits := fits token
        have later := (length_rewriteWholeTokens_le covers token).2 inner.length
          (show Linked word (c :: before) ((inner ++ after).take inner.length) by rwa [take_left])
        have grown := length_rename_growing token (c :: inner)
        rw [if_pos isToken] at grown
        rw [take_left] at later
        rw [rewriteWholeTokens, rewriteTokens, joined, isLength] at fits
        simp only [length_cons, length_append, take_succ_cons, take_left, grown] at fits
        omega

end

/-- The meant `rewriteIDRefs`; `word` are the letters and digits. -/
def rewriteWholeIDRefs (word : Char → Bool) (text : String) (refs : Refs) : String :=
  String.ofList (rewriteWholeTokens word refs [] 0 text.toList)

theorem rewriteIDRefs_whole_iff (word : Char → Bool)
    (covers : ∀ c : Char, c.isAlphanum = true → word c = true) (text : String) :
    (∀ refs, rewriteIDRefs text refs = rewriteWholeIDRefs word text refs) ↔
      TokensStandAlone word [] 0 text.toList := by
  constructor
  · intro same
    refine standAlone_of_length covers fun token => ?_
    rw [String.ofList_injective (same (growing token))]
  · intro alone refs
    rw [rewriteIDRefs, rewriteWholeIDRefs, rewriteWholeTokens_of_standAlone alone]

theorem rewriteIDRefs_whole_iff_story :
    TokensStandAlone Char.isAlphanum [] 0 "see US-001".toList ∧
      ∀ refs, rewriteIDRefs "see US-001" refs =
        rewriteWholeIDRefs Char.isAlphanum "see US-001" refs := by
  have alone : TokensStandAlone Char.isAlphanum [] 0 "see US-001".toList :=
    ⟨by decide, by decide, by decide, by decide, by decide, trivial⟩
  exact ⟨alone,
    (rewriteIDRefs_whole_iff Char.isAlphanum (fun _ isLetter => isLetter) "see US-001").mpr alone⟩

theorem rewriteIDRefs_rewrites_words :
    rewriteIDRefs "STATUS-001 of BUG-001" [("US-001", "US-002"), ("G-001", "G-002")] =
        "STATUS-002 of BUG-002" ∧
      rewriteWholeIDRefs Char.isAlphanum "STATUS-001 of BUG-001"
          [("US-001", "US-002"), ("G-001", "G-002")] = "STATUS-001 of BUG-001" := by
  decide +kernel

end OpenExec.Planner
