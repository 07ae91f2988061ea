import Mathlib.Data.List.DropRight

/-!
# Evidence buffers

A buffer drains a whole stream and keeps its first and last halves on overflow.
-/

namespace OpenExec.Evidence

open List

abbrev Bytes := List UInt8

def streamLimit : Nat := 4096

def half : Nat := streamLimit / 2

structure Buffer where
  data : Bytes := []
  truncated : Bool := false

/-- The part of a write that does not fit.  `copy` moves the end of the suffix to the front
of it, and the rest of the old bytes is cut off. -/
def overflow (data chunk : Bytes) : Bytes :=
  if half ≤ chunk.length then data.take half ++ chunk.rtake half
  else
    let moved := data.rtake (half - chunk.length)
    (data.take half ++ moved ++ data.drop (half + moved.length)).take
      (streamLimit - chunk.length) ++ chunk

def Buffer.write (buffer : Buffer) (chunk : Bytes) : Buffer :=
  if buffer.data.length + chunk.length ≤ streamLimit then
    { buffer with data := buffer.data ++ chunk }
  else if buffer.data.length < half then
    let taken := half - buffer.data.length
    ⟨overflow (buffer.data ++ chunk.take taken) (chunk.drop taken), true⟩
  else ⟨overflow buffer.data chunk, true⟩

/-- What is kept of a stream, however it was written. -/
def retained (stream : Bytes) : Buffer :=
  if stream.length ≤ streamLimit then ⟨stream, false⟩
  else ⟨stream.take half ++ stream.rtake half, true⟩

theorem overflow_eq {data stream chunk : Bytes} (first : data.take half = stream.take half)
    (last : ∀ count ≤ half, data.rtake count = stream.rtake count) (within : half ≤ stream.length) :
    overflow data chunk = (stream ++ chunk).take half ++ (stream ++ chunk).rtake half := by
  have limit : streamLimit = 2 * half := rfl
  rw [overflow, take_append_of_le_length within, first]
  split
  · next big =>
    rw [rtake, rtake, length_append, Nat.add_sub_assoc big, drop_length_add_append]
  · next small =>
    have skipped : stream.length + chunk.length - half = stream.length - (half - chunk.length) := by
      omega
    simp only [last (half - chunk.length) (Nat.sub_le _ _)]
    simp only [rtake, length_append, skipped]
    rw [take_left', drop_append_of_le_length (Nat.sub_le _ _), append_assoc]
    simp only [length_append, length_take, length_drop]
    omega

theorem write_retained (stream chunk : Bytes) :
    (retained stream).write chunk = retained (stream ++ chunk) := by
  have limit : streamLimit = 2 * half := rfl
  by_cases fits : stream.length ≤ streamLimit
  · rw [retained, if_pos fits, Buffer.write, retained, length_append]
    dsimp only
    split
    · rfl
    split
    · next short =>
      have filled : half ≤ (stream ++ chunk.take (half - stream.length)).length := by
        rw [length_append, length_take]
        omega
      rw [overflow_eq rfl (fun _ _ => rfl) filled, append_assoc, take_append_drop]
    · next long => rw [overflow_eq rfl (fun _ _ => rfl) (Nat.not_lt.mp long)]
  · have full : (stream.take half ++ stream.rtake half).length = streamLimit := by
      rw [rtake, length_append, length_take, length_drop]
      omega
    have spills : ¬ (stream ++ chunk).length ≤ streamLimit := by
      rw [length_append]
      omega
    simp only [retained, fits, spills, if_false, Buffer.write, full]
    split
    · next empty =>
      obtain rfl := eq_nil_of_length_eq_zero (by omega : chunk.length = 0)
      rw [append_nil, append_nil]
    rw [if_neg (by omega), @overflow_eq _ stream _ ?_ ?_ (by omega)]
    · rw [take_left' (by rw [length_take]; omega)]
    · intro count few
      rw [rtake, full, rtake, drop_append, drop_eq_nil_of_le (by rw [length_take]; omega),
        nil_append, drop_drop, length_take, rtake]
      congr 1
      omega

theorem foldl_write (chunks : List Bytes) (stream : Bytes) :
    chunks.foldl Buffer.write (retained stream) = retained (stream ++ chunks.flatten) := by
  induction chunks generalizing stream with
  | nil => rw [foldl_nil, flatten_nil, append_nil]
  | cons chunk rest ih => rw [foldl_cons, write_retained, ih, flatten_cons, append_assoc]

def newline : UInt8 := 10

def mark : Bytes := "[truncated]".toUTF8.toList

def redacted : Bytes := "[REDACTED]".toUTF8.toList

/-- Each match, from left to right, gives way to its replacement; `skip` counts the bytes of a
match that are still to come. -/
def replaceMatches (matchAt : Bytes → Option (Bytes × Nat)) : Nat → Bytes → Bytes
  | _, [] => []
  | skip + 1, _ :: rest => replaceMatches matchAt skip rest
  | 0, byte :: rest =>
    match matchAt (byte :: rest) with
    | none => byte :: replaceMatches matchAt 0 rest
    | some (replacement, length) => replacement ++ replaceMatches matchAt (length - 1) rest

def replaceAll (secret text : Bytes) : Bytes :=
  replaceMatches (fun rest => if secret.isPrefixOf rest then
    some (redacted, secret.length) else none)
    0 text

def isSpace (byte : UInt8) : Bool :=
  byte ∈ [9, 10, 12, 13, 32]

def endsValue (byte : UInt8) : Bool :=
  isSpace byte || byte = 44 || byte = 59

/-- Without regard to case, a long s and the kelvin sign are letters too. -/
def folds (letter : UInt8) : List Bytes :=
  [letter] :: (if 97 ≤ letter ∧ letter ≤ 122 then [[letter - 32]] else []) ++
    (if letter = 115 then [[0xC5, 0xBF]] else if letter = 107 then [[0xE2, 0x84, 0xAA]] else [])

def stripWord : Bytes → Bytes → Option Bytes
  | [], text => some text
  | letter :: word, text =>
    ((folds letter).findSome? fun spelled =>
      if spelled.isPrefixOf text then some (text.drop spelled.length) else none).bind
        (stripWord word)

def credentialWords : List Bytes :=
  ["password", "passwd", "token", "secret", "apikey", "api_key", "api-key", "authorization"].map
    (·.toUTF8.toList)

/-- What follows a quoted value, which has no line end inside. -/
def stripQuoted : Bytes → Option Bytes
  | quote :: rest =>
    match rest.dropWhile fun byte => byte ≠ quote ∧ byte ≠ newline with
    | close :: after => if (quote = 34 ∨ quote = 39) ∧ close = quote then some after else none
    | [] => none
  | [] => none

def stripValue (text : Bytes) : Option Bytes :=
  stripQuoted text <|>
    if text.head?.any (!endsValue ·) then some (text.dropWhile (!endsValue ·)) else none

/-- The expression `credential` at the start of a text: a word, a sign and a value, of which the
value is replaced. -/
def credentialAt (text : Bytes) : Option (Bytes × Nat) := do
  let named ← credentialWords.findSome? (stripWord · text)
  let signed := named.dropWhile isSpace
  let value := signed.tail.dropWhile isSpace
  let after ← if signed.head? = some 61 ∨ signed.head? = some 58 then stripValue value else none
  return (text.take (text.length - value.length) ++ redacted, text.length - after.length)

def bounded (text : Bytes) : Bytes :=
  text.take streamLimit

/-- `Public` of a text. -/
def publicText (secrets : List Bytes) (text : Bytes) : Bytes :=
  bounded (replaceMatches credentialAt 0
    (secrets.foldl (fun text secret => if secret = [] then text else replaceAll secret text) text))

/-- The lines that the omitted middle cuts are dropped before the text is redacted. -/
def publicStream (buffer : Buffer) (secrets : List Bytes) : Bytes :=
  if buffer.truncated then
    let head := buffer.data.take (half - mark.length)
    let tail := buffer.data.drop half
    publicText secrets (head.rdropWhile (· ≠ newline) ++ mark ++
      (tail.dropWhile (· ≠ newline)).tail.rdropWhile (· ≠ newline))
  else publicText secrets buffer.data

/-- A text ends where a line does. -/
def EndsLine (text : Bytes) : Prop :=
  text = [] ∨ text.getLast? = some newline

/-- Complete lines from the start and from the end of a stream. -/
structure Excerpt (stream head gap tail : Bytes) : Prop where
  within : head ++ gap ++ tail <+: stream
  headLines : EndsLine head
  tailLines : EndsLine tail
  tailStarts : tail = [] ∨ EndsLine (head ++ gap)

/-- A piece of a stream that has bytes in the omitted middle. -/
structure CutPiece (stream before piece : Bytes) : Prop where
  occurs : before ++ piece <+: stream
  begins : before.length < stream.length - half
  ends : half - mark.length < before.length + piece.length

theorem endsLine_rdropWhile (text : Bytes) : EndsLine (text.rdropWhile (· ≠ newline)) := by
  by_cases empty : text.rdropWhile (· ≠ newline) = []
  · exact .inl empty
  · have last := rdropWhile_last_not (· ≠ newline) text empty
    rw [EndsLine, getLast?_eq_some_getLast empty]
    exact .inr (congrArg some (by simpa using last))

/-- A line that ends inside a piece ends before it, if the piece has no line end. -/
theorem length_le_of_endsLine {stream front before piece : Bytes} (ends : EndsLine front)
    (isFront : front <+: stream) (occurs : before ++ piece <+: stream) (unbroken : newline ∉ piece)
    (inside : front.length < before.length + piece.length) : front.length ≤ before.length := by
  by_contra longer
  rcases ends with rfl | last
  · simp at longer
  have within : front <+: before ++ piece :=
    prefix_of_prefix_length_le isFront occurs (by rw [length_append]; omega)
  obtain ⟨part, rfl⟩ : before <+: front :=
    prefix_of_prefix_length_le (prefix_append _ _) within (by omega)
  have nonempty : part ≠ [] := by
    rintro rfl
    simp at longer
  rw [getLast?_append_of_ne_nil _ nonempty] at last
  have inPiece := ((prefix_append_right_inj before).mp within).subset (mem_of_mem_getLast? last)
  exact unbroken inPiece

/-- The lines left of a text start after its first line end, if there is one. -/
theorem exists_front (start rest : Bytes) : ∃ front, start <+: front ∧
    front ++ (rest.dropWhile (· ≠ newline)).tail.rdropWhile (· ≠ newline) <+: start ++ rest ∧
      (front = start ++ rest ∨ start.length < front.length ∧ EndsLine front) := by
  have joined := takeWhile_append_dropWhile (p := (· ≠ newline)) (l := rest)
  cases isRest : rest.dropWhile (· ≠ newline) with
  | nil => exact ⟨start ++ rest, prefix_append _ _, by simp, .inl rfl⟩
  | cons byte after =>
    have isEnd : byte = newline := by
      have stops := head?_dropWhile_not (· ≠ newline) rest
      rw [isRest] at stops
      simpa using stops
    refine ⟨start ++ rest.takeWhile (· ≠ newline) ++ [byte], ?_, ?_, .inr ⟨?_, .inr ?_⟩⟩
    · rw [append_assoc]
      exact prefix_append _ _
    · have kept : rest.takeWhile (· ≠ newline) ++ byte :: after.rdropWhile (· ≠ newline) <+:
          rest.takeWhile (· ≠ newline) ++ byte :: after := by
        rw [prefix_append_right_inj, cons_prefix_cons]
        exact ⟨rfl, rdropWhile_prefix _ _⟩
      rw [← isRest, joined] at kept
      rw [tail_cons, append_assoc, append_assoc, prefix_append_right_inj, singleton_append]
      exact kept
    · simp
    · rw [getLast?_concat, isEnd]

/-- What is redacted of a truncated stream are complete lines, and no piece of one line that the
omitted middle cuts has a byte in them. -/
theorem publicStream_truncated {stream : Bytes} (spills : streamLimit < stream.length)
    (secrets : List Bytes) : ∃ head gap tail, Excerpt stream head gap tail ∧
      publicStream (retained stream) secrets = publicText secrets (head ++ mark ++ tail) ∧
      ∀ before piece, CutPiece stream before piece → newline ∉ piece →
        head.length ≤ before.length ∧
          before.length + piece.length ≤ head.length + gap.length := by
  have limit : streamLimit = 2 * half := rfl
  have first : (stream.take half).length = half := length_take_of_le (by omega)
  let head := (stream.take (half - mark.length)).rdropWhile (· ≠ newline)
  let last := stream.drop (stream.length - half)
  let tail := (last.dropWhile (· ≠ newline)).tail.rdropWhile (· ≠ newline)
  have published : publicStream (retained stream) secrets =
      publicText secrets (head ++ mark ++ tail) := by
    rw [retained, if_neg (Nat.not_le.mpr spills), publicStream, if_pos rfl]
    dsimp only
    rw [take_append_of_le_length (by rw [first]; exact Nat.sub_le _ _), take_take, drop_left' first,
      Nat.min_eq_left (Nat.sub_le _ _)]
    rfl
  have headPrefix : head <+: stream.take (half - mark.length) := rdropWhile_prefix _ _
  have headShort : head.length ≤ half - mark.length :=
    headPrefix.length_le.trans (length_take_le _ _)
  have headFirst : head <+: stream := headPrefix.trans ( take_prefix _ _)
  obtain ⟨front, reaches, within, ends⟩ := exists_front (stream.take (stream.length - half)) last
  rw [take_append_drop] at within ends
  have startLength : (stream.take (stream.length - half)).length = stream.length - half :=
    length_take_of_le (Nat.sub_le _ _)
  rw [startLength] at ends
  have frontPrefix : front <+: stream := (prefix_append _ _).trans within
  have frontLong := reaches.length_le
  rw [startLength] at frontLong
  obtain ⟨gap, rfl⟩ : head <+: front :=
    prefix_of_prefix_length_le headFirst frontPrefix (by omega)
  refine ⟨head, gap, tail, ⟨within, endsLine_rdropWhile _, endsLine_rdropWhile _, ?_⟩,
    published, ?_⟩
  · rcases ends with whole | ⟨_, isEnd⟩
    · have short : (head ++ gap ++ tail).length ≤ stream.length := within.length_le
      rw [whole, length_append] at short
      exact .inl (length_eq_zero_iff.mp (by omega))
    · exact .inr isEnd
  · intro before piece cut unbroken
    have fits := cut.occurs.length_le
    rw [length_append] at fits
    have begins := cut.begins
    have reached := cut.ends
    refine ⟨length_le_of_endsLine (endsLine_rdropWhile _) headFirst cut.occurs unbroken
      (by omega), ?_⟩
    rcases ends with whole | ⟨longer, isEnd⟩
    · have isWhole := congrArg length whole
      rw [length_append] at isWhole
      omega
    · by_contra shorter
      rw [length_append] at longer
      have early := length_le_of_endsLine isEnd frontPrefix cut.occurs unbroken
        (by rw [length_append]; omega)
      rw [length_append] at early
      omega

/-- A key of two lines in the middle of a long output. -/
def keyedStream : Bytes :=
  replicate 2100 120 ++ "KEY\nAAAA\n".toUTF8.toList ++ replicate 2041 121

end OpenExec.Evidence
