import ShaderChain.Command

/-!
# A shell reads back what was rendered

`Command.render` shows a command as it would be typed into a POSIX shell. Here is how a shell takes
such a line apart: `Shell.pieces` tells of each character whether it stands outside quotes, after a
backslash or inside single quotes, `Shell.fields` puts the pieces between blanks together and
removes the quotes, and `Shell.split` is both. The other characters that mean something to a shell
outside quotes are not interpreted: no piece of a rendered command is one of them (`Piece.Safe`).

`Shell.pieces_quoteOf` is about one word, `Shell.pieces_line` the induction over the words of a
line, and `Command.split_render` the main statement.
-/

namespace ShaderChain

namespace Shell

/-! ## How a shell splits a line -/

/-- A character of a line, with what quoting makes of it. -/
inductive Piece where
  /-- A blank between words. -/
  | separator (c : Char)
  /-- The single quote with which a quoted part begins; it makes a word even if nothing follows. -/
  | opening
  /-- A character that stands outside quotes. -/
  | bare (c : Char)
  /-- The character after a backslash outside quotes. -/
  | escaped (c : Char)
  /-- A character inside single quotes. -/
  | quoted (c : Char)
  deriving Repr, DecidableEq

/-- Where in a line the next character stands. -/
inductive Place where
  | outside
  | afterBackslash
  | inQuotes
  deriving Repr, DecidableEq

/-- A blank of the shell's grammar. -/
def isSeparator (c : Char) : Bool :=
  c = ' ' || c = '\t'

/-- The pieces of a line from this place on. A line that ends inside quotes or after a backslash is
not finished. -/
def pieces : Place → List Char → Option (List Piece)
  | .outside, [] => some []
  | .afterBackslash, [] | .inQuotes, [] => none
  | .outside, c :: rest =>
    if c = '\'' then (pieces .inQuotes rest).map (.opening :: ·)
    else if c = '\\' then pieces .afterBackslash rest
    else if isSeparator c then (pieces .outside rest).map (.separator c :: ·)
    else (pieces .outside rest).map (.bare c :: ·)
  | .afterBackslash, c :: rest => (pieces .outside rest).map (.escaped c :: ·)
  | .inQuotes, c :: rest =>
    if c = '\'' then pieces .outside rest else (pieces .inQuotes rest).map (.quoted c :: ·)

/-- What a piece contributes to its word when the quotes are removed. -/
def Piece.char? : Piece → Option Char
  | .separator _ | .opening => none
  | .bare c | .escaped c | .quoted c => some c

/-- Puts one more piece in front of the word that is open on the left, if there is one, and the
words that are complete. -/
def Piece.extend (p : Piece) : Option (List Char) × List (List Char) →
    Option (List Char) × List (List Char)
  | (word, done) =>
    match p with
    | .separator _ => (none, word.toList ++ done)
    | p => (some (p.char?.toList ++ word.getD []), done)

/-- The words that pieces make, without the quotes. -/
def fields (ps : List Piece) : List (List Char) :=
  let (word, done) := ps.foldr Piece.extend (none, [])
  word.toList ++ done

/-- The words of a line, if the line is finished. -/
def split (line : String) : Option (List String) :=
  (pieces .outside line.toList).map fun ps => (fields ps).map String.ofList

/-- A piece with which a shell does nothing but to build words: outside quotes stand only blanks
between words, letters, digits and the characters `-_=./,:+@`, and only a quote is escaped. -/
def Piece.Safe : Piece → Prop
  | .separator c => c = ' '
  | .bare c => c.isAlphanum = true ∨ c ∈ "-_=./,:+@".toList
  | .escaped c => c = '\''
  | .opening | .quoted _ => True

/-! ## The pieces of one word -/

/-- Safe pieces of a single word. -/
structure Spells (ps : List Piece) (word : List Char) : Prop where
  text : ps.filterMap Piece.char? = word
  whole : ∀ c, .separator c ∉ ps
  safe : ∀ p ∈ ps, p.Safe

variable {ps qs : List Piece} {word rest : List Char} {c : Char} {p : Piece}

theorem Spells.nil : Spells [] [] where
  text := rfl
  whole _ := List.not_mem_nil
  safe _ h := nomatch h

/-- One more piece in front, which is no blank between words. -/
theorem Spells.cons (hp : p.Safe) (hsep : ∀ c, p ≠ .separator c) (h : Spells ps word) :
    Spells (p :: ps) (p.char?.toList ++ word) where
  text := by
    rw [List.filterMap_cons, h.text]
    cases p.char? <;> rfl
  whole c hmem := by
    rcases List.mem_cons.mp hmem with heq | hmem
    · exact hsep c heq.symm
    · exact h.whole c hmem
  safe q hq := by
    rcases List.mem_cons.mp hq with rfl | hq
    · exact hp
    · exact h.safe q hq

theorem safe_of_isPlain (h : isPlain c = true) : (Piece.bare c).Safe := by
  rw [isPlain, Bool.or_eq_true] at h
  rcases h with halnum | hmark
  · exact .inl halnum
  · exact .inr (List.contains_iff_mem.mp hmark)

/-- A plain character is read as it stands. -/
theorem pieces_plain (h : isPlain c = true) (rest : List Char) :
    pieces .outside (c :: rest) = (pieces .outside rest).map (.bare c :: ·) := by
  have hne : ∀ d, isPlain d = false → c ≠ d := by
    rintro d hd rfl
    rw [h] at hd
    cases hd
  have hquote : c ≠ '\'' := hne _ (by decide)
  have hslash : c ≠ '\\' := hne _ (by decide)
  have hblank : isSeparator c = false := by
    rw [isSeparator, Bool.or_eq_false_iff]
    exact ⟨decide_eq_false (hne _ (by decide)), decide_eq_false (hne _ (by decide))⟩
  rw [pieces, if_neg hquote, if_neg hslash, hblank]
  rfl

theorem Spells.plain (h : ∀ c ∈ word, isPlain c = true) : Spells (word.map .bare) word := by
  induction word with
  | nil => exact .nil
  | cons c word ih =>
    have htail := ih fun d hd => h d (List.mem_cons_of_mem c hd)
    exact htail.cons (safe_of_isPlain (h c List.mem_cons_self)) (by simp)

/-- A word of plain characters is read as it stands. -/
theorem pieces_allPlain (h : ∀ c ∈ word, isPlain c = true) (rest : List Char) :
    pieces .outside (word ++ rest) = (pieces .outside rest).map (word.map .bare ++ ·) := by
  induction word with
  | nil => simp
  | cons c word ih =>
    rw [List.cons_append, pieces_plain (h c List.mem_cons_self),
      ih fun d hd => h d (List.mem_cons_of_mem c hd), Option.map_map]
    rfl

/-- The inside of quotes is read as it was before it was escaped. A quote in it leaves the quotes,
stands behind a backslash, and enters them again. -/
theorem pieces_escape (word rest : List Char) :
    ∃ ps, Spells ps word ∧
      pieces .inQuotes (word.flatMap escape ++ '\'' :: rest) =
        (pieces .outside rest).map (ps ++ ·) := by
  induction word with
  | nil => exact ⟨[], .nil, by simp [pieces]⟩
  | cons c word ih =>
    obtain ⟨ps, hspells, hps⟩ := ih
    rw [List.flatMap_cons, List.append_assoc, escape]
    by_cases hc : c = '\''
    · subst hc
      refine ⟨.escaped '\'' :: .opening :: ps, ?_, ?_⟩
      · have hopened : Spells (.opening :: ps) word := hspells.cons trivial (by simp)
        exact hopened.cons rfl (by simp)
      · rw [if_pos rfl]
        simp only [List.cons_append, List.nil_append, pieces, if_pos, hps, Option.map_map,
          Char.reduceEq, if_false]
        rfl
    · refine ⟨.quoted c :: ps, hspells.cons trivial (by simp), ?_⟩
      rw [if_neg hc, List.cons_append, List.nil_append, pieces, if_neg hc, hps, Option.map_map]
      rfl

/-- The quoted spelling of a word is read as the word. It has a piece even if the word is empty. -/
theorem pieces_quoteOf (word rest : List Char) :
    ∃ ps, ps ≠ [] ∧ Spells ps word ∧
      pieces .outside (quoteOf word ++ rest) = (pieces .outside rest).map (ps ++ ·) := by
  rw [quoteOf]
  by_cases hplain : (!word.isEmpty && word.all isPlain) = true
  · rw [if_pos hplain]
    rw [Bool.and_eq_true, List.all_eq_true] at hplain
    refine ⟨word.map .bare, fun hnil => ?_, .plain hplain.2, pieces_allPlain hplain.2 rest⟩
    have hword : word = [] := List.map_eq_nil_iff.mp hnil
    rw [hword] at hplain
    exact absurd hplain.1 (by decide)
  · rw [if_neg hplain]
    obtain ⟨ps, hspells, hps⟩ := pieces_escape word rest
    refine ⟨.opening :: ps, List.cons_ne_nil _ _, hspells.cons trivial (by simp), ?_⟩
    -- the closing quote belongs to the rest, at which the inside of the quotes ends
    have hline : '\'' :: word.flatMap escape ++ ['\''] ++ rest =
        '\'' :: (word.flatMap escape ++ '\'' :: rest) := by
      rw [List.cons_append, List.cons_append, List.append_assoc, List.singleton_append]
    rw [hline, pieces, if_pos rfl, hps, Option.map_map]
    rfl

/-! ## The words of a line -/

/-- Pieces of one word are put in front of the word that is open. -/
theorem Spells.foldr_extend (h : Spells ps word) (hne : ps ≠ [])
    (open? : Option (List Char)) (done : List (List Char)) :
    ps.foldr Piece.extend (open?, done) = (some (word ++ open?.getD []), done) := by
  induction ps generalizing word with
  | nil => exact absurd rfl hne
  | cons p ps ih =>
    have hextend : ∀ word', p.extend (word', done) =
        (some (p.char?.toList ++ word'.getD []), done) := by
      intro word'
      cases p with
      | separator c => exact absurd List.mem_cons_self (h.whole c)
      | opening | bare | escaped | quoted => rfl
    have htail : Spells ps (ps.filterMap Piece.char?) :=
      ⟨rfl, fun c hc => h.whole c (List.mem_cons_of_mem p hc),
        fun q hq => h.safe q (List.mem_cons_of_mem p hq)⟩
    have hword : word = p.char?.toList ++ ps.filterMap Piece.char? := by
      rw [← h.text, List.filterMap_cons]
      cases p.char? <;> rfl
    rw [List.foldr_cons, hword]
    by_cases hps : ps = []
    · subst hps
      rw [List.foldr_nil, hextend, List.filterMap_nil, List.append_nil]
    · rw [ih htail hps, hextend, List.append_assoc]
      rfl

theorem Spells.fields_eq (h : Spells ps word) (hne : ps ≠ []) : fields ps = [word] := by
  rw [fields, h.foldr_extend hne]
  simp

/-- A blank ends a word. -/
theorem Spells.fields_append (h : Spells ps word) (hne : ps ≠ []) (c : Char) :
    fields (ps ++ .separator c :: qs) = word :: fields qs := by
  rw [fields, List.foldr_append, List.foldr_cons]
  show (match ps.foldr Piece.extend (none, fields qs) with
    | (word, done) => word.toList ++ done) = _
  rw [h.foldr_extend hne]
  simp

/-- A line of quoted words is read as these words, and is safe. -/
theorem pieces_line (words : List (List Char)) :
    ∃ ps, pieces .outside ([' '].intercalate (words.map quoteOf)) = some ps ∧
      fields ps = words ∧ ∀ p ∈ ps, p.Safe := by
  induction words with
  | nil => exact ⟨[], rfl, rfl, fun _ h => nomatch h⟩
  | cons word words ih =>
    cases words with
    | nil =>
      obtain ⟨ps, hne, hspells, hps⟩ := pieces_quoteOf word []
      refine ⟨ps, ?_, hspells.fields_eq hne, hspells.safe⟩
      rw [List.append_nil] at hps
      show pieces .outside ([' '].intercalate [quoteOf word]) = _
      rw [List.intercalate_singleton, hps]
      simp [pieces]
    | cons next words =>
      obtain ⟨qs, hqs, hfields, hsafe⟩ := ih
      obtain ⟨ps, hne, hspells, hps⟩ := pieces_quoteOf word
        (' ' :: [' '].intercalate ((next :: words).map quoteOf))
      -- the blank between two words stands outside quotes
      have hblank : pieces .outside (' ' :: [' '].intercalate ((next :: words).map quoteOf)) =
          some (.separator ' ' :: qs) := by
        rw [pieces, if_neg (by decide), if_neg (by decide), if_pos (by decide), hqs]
        rfl
      refine ⟨ps ++ .separator ' ' :: qs, ?_, ?_, ?_⟩
      · rw [List.map_cons, List.map_cons, List.intercalate_cons_cons, List.append_assoc,
          List.singleton_append, ← List.map_cons, hps, hblank]
        rfl
      · rw [hspells.fields_append hne, hfields]
      · intro p hp
        rcases List.mem_append.mp hp with hp | hp
        · exact hspells.safe p hp
        · rcases List.mem_cons.mp hp with rfl | hp
          · rfl
          · exact hsafe p hp

end Shell

/-! ## Rendered commands -/

namespace Command

/-- The words of a command: its program as text, and its arguments. -/
def lineWords (cmd : Command) : List String :=
  Utf8.lossy cmd.program :: cmd.args

theorem toList_render (cmd : Command) :
    cmd.render.toList =
      [' '].intercalate ((cmd.lineWords.map String.toList).map Shell.quoteOf) := by
  rw [render, String.toList_intercalate]
  simp only [lineWords, Shell.quote, List.map_map, Function.comp_def, String.toList_ofList]
  rfl

theorem split_render_eq (cmd : Command) : Shell.split cmd.render = some cmd.lineWords := by
  obtain ⟨ps, hps, hfields, -⟩ := Shell.pieces_line (cmd.lineWords.map String.toList)
  rw [Shell.split, toList_render, hps, Option.map_some, hfields, List.map_map]
  simp [Function.comp_def]

/-- **A shell reads back what was rendered.** Split as a POSIX shell splits it, the rendered command
gives the program and the arguments, word by word. Nothing in it means anything else to a shell:
outside quotes stand only blanks between words, plain characters and escaped quotes. So commands
with different words are rendered differently. -/
theorem split_render (cmd : Command) :
    Shell.split cmd.render = some (Utf8.lossy cmd.program :: cmd.args) ∧
    (∃ ps, Shell.pieces .outside cmd.render.toList = some ps ∧ ∀ p ∈ ps, p.Safe) ∧
    ∀ other : Command, other.render = cmd.render →
      Utf8.lossy other.program :: other.args = Utf8.lossy cmd.program :: cmd.args := by
  refine ⟨cmd.split_render_eq, ?_, fun other hother => ?_⟩
  · obtain ⟨ps, hps, -, hsafe⟩ := Shell.pieces_line (cmd.lineWords.map String.toList)
    rw [toList_render]
    exact ⟨ps, hps, hsafe⟩
  · have hsplit := other.split_render_eq
    rw [hother, cmd.split_render_eq] at hsplit
    exact (Option.some.inj hsplit).symm

example : Shell.split "dxc 'it'\\''s' ''" = some ["dxc", "it's", ""] := by decide

end Command

end ShaderChain
