import ShaderChain.Text.Words

/-!
# What the words of a text are

`wordsOf` takes a text apart from its right end. Read from the left, it is this: blanks are passed
over, and a run of other characters is a word if a blank or the end of the text follows
(`Words.Splits`). The two say the same (`wordsOf_eq_iff`), so the words of a text that is written
down as words and blanks are known without a computation.
-/

namespace ShaderChain

namespace Words

/-- A run of characters that are not blank. -/
structure IsWord (w : List Char) : Prop where
  ne_nil : w ≠ []
  unbroken : ∀ c ∈ w, isBlank c = false

/-- The words of a text, from the left. -/
inductive Splits : List Char → List (List Char) → Prop
  | nil : Splits [] []
  | blank {b : Char} {cs : List Char} {ws : List (List Char)} (hb : isBlank b = true)
    (h : Splits cs ws) : Splits (b :: cs) ws
  | last {w : List Char} (hw : IsWord w) : Splits w [w]
  | word {w cs : List Char} {b : Char} {ws : List (List Char)} (hw : IsWord w)
    (hb : isBlank b = true) (h : Splits cs ws) : Splits (w ++ b :: cs) (w :: ws)

variable {w cs : List Char} {ws : List (List Char)}

/-- A text splits into words only. -/
theorem Splits.isWord (h : Splits cs ws) : ∀ w ∈ ws, IsWord w := by
  induction h with
  | nil => exact fun _ hmem => nomatch hmem
  | blank _ _ ih => exact ih
  | last hw => exact List.forall_mem_singleton.mpr hw
  | word hw _ _ ih => exact List.forall_mem_cons.mpr ⟨hw, ih⟩

/-- Characters that are not blank are put in front of the word that is open. -/
theorem foldr_extend (hw : ∀ c ∈ w, isBlank c = false) (word : List Char)
    (done : List (List Char)) : w.foldr extend (word, done) = (w ++ word, done) := by
  induction w with
  | nil => rfl
  | cons c w ih =>
    obtain ⟨hc, hw⟩ := List.forall_mem_cons.mp hw
    rw [List.foldr_cons, ih hw, extend, hc]
    rfl

theorem all_of_ne_nil (hw : w ≠ []) (done : List (List Char)) :
    Split.all (w, done) = w :: done := by
  cases w with
  | nil => exact absurd rfl hw
  | cons c w => rfl

/-- A blank completes the word that is open. -/
theorem extend_blank {b : Char} (hb : isBlank b = true) (split : Split) :
    extend b split = ([], split.all) := by
  obtain ⟨word, done⟩ := split
  rw [extend, hb]
  rfl

/-- The text in front of a blank is the word that is open, and then come the words behind it. -/
theorem splits_foldr (cs : List Char) :
    let split := cs.foldr extend ([], [])
    ∃ rest, cs = split.1 ++ rest ∧ (∀ c ∈ split.1, isBlank c = false) ∧
      (rest = [] ∧ split.2 = [] ∨
        ∃ b tail, rest = b :: tail ∧ isBlank b = true ∧ Splits tail split.2) ∧
      Splits cs split.all := by
  induction cs with
  | nil => exact ⟨[], rfl, fun _ h => (nomatch h), .inl ⟨rfl, rfl⟩, .nil⟩
  | cons c cs ih =>
    obtain ⟨rest, hcs, hword, hrest, hall⟩ := ih
    rw [List.foldr_cons]
    generalize cs.foldr extend ([], []) = split at *
    cases hc : isBlank c with
    | true =>
      rw [extend_blank hc]
      exact ⟨c :: cs, rfl, fun _ h => (nomatch h), .inr ⟨c, cs, rfl, hc, hall⟩, .blank hc hall⟩
    | false =>
      obtain ⟨word, done⟩ := split
      have hextend : extend c (word, done) = (c :: word, done) := by
        rw [extend, hc]
        rfl
      have hword' : ∀ d ∈ c :: word, isBlank d = false := List.forall_mem_cons.mpr ⟨hc, hword⟩
      -- the open word reaches up to the next blank, or to the end, so it is complete
      have hisWord : IsWord (c :: word) := ⟨List.cons_ne_nil c word, hword'⟩
      rw [hextend]
      refine ⟨rest, congrArg (c :: ·) hcs, hword', hrest, ?_⟩
      rw [hcs, all_of_ne_nil hisWord.ne_nil]
      rcases hrest with ⟨rfl, rfl⟩ | ⟨b, tail, rfl, hb, htail⟩
      · rw [List.append_nil]
        exact .last hisWord
      · exact .word hisWord hb htail

end Words

variable {cs : List Char} {ws : List (List Char)}

/-- A text is taken apart into the words that it splits into. -/
theorem wordsOf_eq_of_splits (h : Words.Splits cs ws) : wordsOf cs = ws := by
  unfold wordsOf
  induction h with
  | nil => rfl
  | blank hb _ ih =>
    rw [List.foldr_cons, Words.extend_blank hb]
    exact ih
  | @last w hw =>
    rw [Words.foldr_extend hw.unbroken, List.append_nil, Words.all_of_ne_nil hw.ne_nil]
  | @word w cs b ws hw hb _ ih =>
    rw [List.foldr_append, List.foldr_cons, Words.extend_blank hb, ih,
      Words.foldr_extend hw.unbroken, List.append_nil, Words.all_of_ne_nil hw.ne_nil]

/-- The words of a text are these exactly if it splits into them. -/
theorem wordsOf_eq_iff : wordsOf cs = ws ↔ Words.Splits cs ws := by
  constructor
  · rintro rfl
    obtain ⟨rest, -, -, -, hall⟩ := Words.splits_foldr cs
    exact hall
  · exact wordsOf_eq_of_splits

/-- A text splits into its words. -/
theorem splits_words (s : String) : Words.Splits s.toList ((words s).map String.toList) := by
  have hwords : (words s).map String.toList = wordsOf s.toList := by
    simp [words, Function.comp_def]
  rw [hwords]
  exact wordsOf_eq_iff.mp rfl

theorem isWord_of_mem_words {s w : String} (h : w ∈ words s) : Words.IsWord w.toList :=
  (splits_words s).isWord w.toList (List.mem_map_of_mem h)

theorem words_eq_of_splits {s : String} {ws : List String}
    (h : Words.Splits s.toList (ws.map String.toList)) : words s = ws := by
  rw [words, wordsOf_eq_of_splits h, List.map_map]
  simp [Function.comp_def]

/-- Words with single blanks between them are read back. -/
theorem words_intercalate {ws : List String} (h : ∀ w ∈ ws, Words.IsWord w.toList) :
    words (" ".intercalate ws) = ws := by
  refine words_eq_of_splits ?_
  rw [String.toList_intercalate]
  induction ws with
  | nil => exact .nil
  | cons w ws ih =>
    obtain ⟨hw, hws⟩ := List.forall_mem_cons.mp h
    cases ws with
    | nil =>
      rw [List.map_singleton, List.intercalate_singleton]
      exact .last hw
    | cons next rest =>
      rw [List.map_cons, List.map_cons, List.intercalate_cons_cons, List.append_assoc]
      exact .word hw (by decide) (ih hws)

end ShaderChain
