/-!
# Words and replacements

Flag strings, tool names and target environments are split and trimmed at the characters with
the Unicode property `White_Space`:

- `isBlank` is that property;
- `words` are the maximal runs of other characters, `trim` drops blanks at both ends.

`replace needle value` goes through a text from the left and puts `value` for every occurrence
of `needle` that does not overlap one already replaced. What it puts in is not searched again.
The result is built in front of an accumulator, since the texts are as long as a tool's output;
`replaceOnto_eq` takes the accumulator away again.
-/

namespace ShaderChain

/-! ## Blanks and words -/

/-- The Unicode property `White_Space`. -/
def isBlank (c : Char) : Bool :=
  let n := c.toNat
  (9 ≤ n && n ≤ 0xD) || n == 0x20 || n == 0x85 || n == 0xA0 || n == 0x1680 ||
    (0x2000 ≤ n && n ≤ 0x200A) || n == 0x2028 || n == 0x2029 || n == 0x202F || n == 0x205F ||
    n == 0x3000

theorem isBlank_of_isWhitespace {c : Char} (h : c.isWhitespace) : isBlank c := by
  simp only [Char.isWhitespace, Bool.or_eq_true, decide_eq_true_eq] at h
  rcases h with ((h | h) | h) | h <;> subst h <;> decide

namespace Words

/-- A split in progress, from the right: the word that is open on the left, the words that
are complete. -/
abbrev Split := List Char × List (List Char)

/-- Puts one more character in front. A blank completes the open word. -/
def extend (c : Char) : Split → Split
  | (word, done) =>
    if isBlank c then ([], if word.isEmpty then done else word :: done) else (c :: word, done)

/-- All words of a split. -/
def Split.all : Split → List (List Char)
  | (word, done) => if word.isEmpty then done else word :: done

end Words

/-- The words of `cs`: its maximal runs of characters that are not blank, in order. -/
def wordsOf (cs : List Char) : List (List Char) :=
  Words.Split.all (cs.foldr Words.extend ([], []))

/-- The words of a text. -/
def words (s : String) : List String :=
  (wordsOf s.toList).map String.ofList

/-- Drops the blanks at both ends. -/
def trimOf (cs : List Char) : List Char :=
  ((cs.dropWhile isBlank).reverse.dropWhile isBlank).reverse

/-- The text without the blanks at both ends. -/
def trim (s : String) : String :=
  String.ofList (trimOf s.toList)

/-- A text of blanks alone, or no text at all. -/
def isBlankText (s : String) : Bool :=
  s.toList.all isBlank

/-! ## Replacing one text by another -/

/-- Replaces in `text`, of which the first `skip` characters belong to an occurrence already
replaced, and puts the result after the reversed `acc`. -/
def replaceOnto (needle value acc : List Char) : (skip : Nat) → (text : List Char) → List Char
  | _, [] => acc.reverse
  | skip + 1, _ :: rest => replaceOnto needle value acc skip rest
  | 0, c :: rest =>
    if needle.isPrefixOf (c :: rest) then
      replaceOnto needle value (value.reverse ++ acc) (needle.length - 1) rest
    else replaceOnto needle value (c :: acc) 0 rest

/-- Every leftmost occurrence of `needle` replaced by `value`; an empty needle occurs nowhere. -/
def replaceIn (needle value text : List Char) : List Char :=
  if needle.isEmpty then text else replaceOnto needle value [] 0 text

/-- Every leftmost occurrence of `needle` replaced by `value`. -/
def replace (needle value text : String) : String :=
  String.ofList (replaceIn needle.toList value.toList text.toList)

theorem replaceOnto_eq (needle value : List Char) (text : List Char) :
    ∀ (acc : List Char) (skip : Nat), replaceOnto needle value acc skip text =
      acc.reverse ++ replaceOnto needle value [] skip text := by
  induction text with
  | nil => intro acc skip; cases skip <;> simp [replaceOnto]
  | cons c rest ih =>
    intro acc skip
    cases skip with
    | succ skip => simpa [replaceOnto] using ih acc skip
    | zero =>
      simp only [replaceOnto]
      split
      · rw [ih (value.reverse ++ acc), ih (value.reverse ++ [])]
        simp
      · rw [ih (c :: acc), ih [c]]
        simp

end ShaderChain
