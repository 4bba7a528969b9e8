import ShaderChain.Text.Words

/-!
# What a replacement leaves

`replaceIn needle value` cuts a text at the occurrences of the needle and puts the value between
the pieces. `Replacement` is this relation, without the counting of the loop. The question is
which needles can occur in the result: one could come about where a piece and the value meet.
`Unlinked needle value` excludes that, and then a needle that is in none of the pieces is not in
the result (`Replacement.infix_of_unlinked`, `Replacement.absent`).

Where a needle was put into a text, it is replaced if it does not begin earlier (`replaceIn_first`).
An `Unbordered` needle can be put between any texts in which it does not occur
(`replaceIn_intercalate`).
-/

namespace ShaderChain

/-- A text, and what it is after the replacement: the needle does not occur in it, or its first
occurrence is replaced and what comes after is a replacement again. -/
inductive Replacement (needle value : List Char) : List Char → List Char → Prop
  | untouched {text} (h : ¬ needle <:+: text) : Replacement needle value text text
  | first {before after result} (h : ¬ needle <:+: before)
    (hafter : Replacement needle value after result) :
    Replacement needle value (before ++ needle ++ after) (before ++ value ++ result)

variable {needle key value text result before after : List Char}

namespace Replacement

/-- A character at which no occurrence of the needle starts goes into the first piece. -/
theorem cons {c : Char} (h : Replacement needle value text result)
    (hc : ¬ needle <+: c :: text) : Replacement needle value (c :: text) (c :: result) := by
  cases h with
  | untouched h =>
    refine .untouched fun hin => ?_
    rcases List.infix_cons_iff.mp hin with hstart | hinfix
    · exact hc hstart
    · exact h hinfix
  | @first before after result h hafter =>
    show Replacement needle value ((c :: before) ++ needle ++ after)
      ((c :: before) ++ value ++ result)
    refine .first (fun hin => ?_) hafter
    rcases List.infix_cons_iff.mp hin with hstart | hinfix
    · refine hc (hstart.trans ⟨needle ++ after, ?_⟩)
      rw [List.cons_append, List.append_assoc]
    · exact h hinfix

end Replacement

/-- The loop replaces in what is left of the text when the characters to skip are gone. -/
theorem replacement_replaceOnto (hne : needle ≠ []) (value text : List Char) :
    ∀ skip ≤ text.length,
      Replacement needle value (text.drop skip) (replaceOnto needle value [] skip text) := by
  induction text with
  | nil =>
    intro skip hskip
    obtain rfl : skip = 0 := Nat.le_zero.mp hskip
    exact .untouched fun hin => hne (List.eq_nil_of_infix_nil hin)
  | cons c rest ih =>
    intro skip hskip
    cases skip with
    | succ skip => exact ih skip (Nat.le_of_succ_le_succ hskip)
    | zero =>
      -- either an occurrence starts here, and is skipped after the value, or the character stays
      by_cases hstart : needle <+: c :: rest
      · obtain ⟨after, hafter⟩ := hstart
        have hlen : needle.length + after.length = rest.length + 1 := by
          rw [← List.length_append, hafter, List.length_cons]
        have hpos : 0 < needle.length := List.length_pos_iff.mpr hne
        have hrest : rest.drop (needle.length - 1) = after := by
          have hdrop : (c :: rest).drop needle.length = after := by
            rw [← hafter, List.drop_left]
          rwa [← Nat.succ_pred_eq_of_pos hpos] at hdrop
        have htail := ih (needle.length - 1) (by omega)
        rw [hrest] at htail
        have hmatch : needle.isPrefixOf (c :: rest) = true :=
          List.isPrefixOf_iff_prefix.mpr ⟨after, hafter⟩
        simp only [replaceOnto, hmatch, if_true, List.drop_zero, List.append_nil]
        rw [replaceOnto_eq, List.reverse_reverse, ← hafter]
        show Replacement needle value ([] ++ needle ++ after) ([] ++ value ++ _)
        exact .first (fun hin => hne (List.eq_nil_of_infix_nil hin)) htail
      · have hmatch : ¬ needle.isPrefixOf (c :: rest) = true := fun h =>
          hstart (List.isPrefixOf_iff_prefix.mp h)
        simp only [replaceOnto, hmatch, if_false, List.drop_zero, Bool.false_eq_true]
        rw [replaceOnto_eq]
        exact (ih 0 (Nat.zero_le _)).cons hstart

theorem replacement_replaceIn (hne : needle ≠ []) (value text : List Char) :
    Replacement needle value text (replaceIn needle value text) := by
  have h := replacement_replaceOnto hne value text 0 (Nat.zero_le _)
  rwa [replaceIn, if_neg (by simpa using hne)]

/-! ## Needles in the result -/

/-- No occurrence of the key can begin before an inserted value and end inside it or behind it, or
begin inside it. -/
structure Unlinked (key value : List Char) : Prop where
  apart : ¬ value <:+: key
  starts : ∃ c rest, key = c :: rest ∧ c ∉ value
  ends : ∀ part, part <+: value → part <:+ key → part = []

theorem unlinked_singleton {c : Char} (hne : key ≠ []) (hc : c ∉ key) : Unlinked key [c] where
  apart hin := hc (hin.subset List.mem_cons_self)
  starts := by
    obtain ⟨d, rest, rfl⟩ := List.exists_cons_of_ne_nil hne
    exact ⟨d, rest, rfl, fun hd => hc (List.mem_singleton.mp hd ▸ List.mem_cons_self)⟩
  ends part hvalue hkey := by
    rcases List.prefix_cons_iff.mp hvalue with h | ⟨rest, rfl, -⟩
    · exact h
    · exact absurd (hkey.subset List.mem_cons_self) hc

namespace Unlinked

theorem ne_nil (h : Unlinked key value) : key ≠ [] := by
  obtain ⟨c, rest, rfl, -⟩ := h.starts
  exact List.cons_ne_nil c rest

/-- A part of the value that is not empty is no beginning of the key. -/
theorem eq_nil_of_prefix (h : Unlinked key value) {part : List Char} (hkey : part <+: key)
    (hvalue : part <:+: value) : part = [] := by
  obtain ⟨c, rest, rfl, hc⟩ := h.starts
  cases part with
  | nil => rfl
  | cons d tail =>
    obtain ⟨rfl, -⟩ := List.cons_prefix_cons.mp hkey
    exact absurd (hvalue.subset List.mem_cons_self) hc

/-- Where a value is inserted, the key is on one side of it. -/
theorem infix_side (h : Unlinked key value) (hin : key <:+: before ++ value ++ after) :
    key <:+: before ∨ key <:+: after := by
  rcases List.infix_append_iff_ne_nil.mp hin with hleft | hright | ⟨front, back, hfront, -, hkey,
    hsuffix, -⟩
  · rcases List.infix_append_iff_ne_nil.mp hleft with hbefore | hvalue | ⟨front, back, -, hback,
      hkey, -, hstart⟩
    · exact .inl hbefore
    · exact absurd (h.eq_nil_of_prefix List.prefix_rfl hvalue) h.ne_nil
    · exact absurd (h.ends back hstart ⟨front, hkey.symm⟩) hback
  · exact .inr hright
  · -- the key begins before or in the value, and goes on behind it
    exfalso
    rcases List.suffix_or_suffix_of_suffix hsuffix (List.suffix_append before value) with
      hinside | houtside
    · exact hfront (h.eq_nil_of_prefix ⟨back, hkey.symm⟩ hinside.isInfix)
    · refine h.apart (houtside.isInfix.trans ?_)
      exact hkey ▸ (List.prefix_append front back).isInfix

end Unlinked

namespace Replacement

/-- What occurs in the result and cannot come about at a value occurs in the text. -/
theorem infix_of_unlinked (hu : Unlinked key value) (h : Replacement needle value text result)
    (hin : key <:+: result) : key <:+: text := by
  induction h with
  | untouched h => exact hin
  | @first before after result h hafter ih =>
    rcases hu.infix_side hin with hbefore | hresult
    · rw [List.append_assoc]
      exact List.infix_append_of_infix_left hbefore
    · exact List.infix_append_of_infix_right (ih hresult)

/-- The needle itself does not occur in the result. -/
theorem absent (hu : Unlinked needle value) (h : Replacement needle value text result) :
    ¬ needle <:+: result := by
  induction h with
  | untouched h => exact h
  | first h hafter ih => exact fun hin => (hu.infix_side hin).elim h ih

/-- Where the needle does not occur, nothing is replaced. -/
theorem eq_of_absent (h : Replacement needle value text result) (hin : ¬ needle <:+: text) :
    result = text := by
  cases h with
  | untouched h => rfl
  | @first before after result h hafter =>
    exact absurd (List.infix_append before needle after) hin

end Replacement

/-! ## Needles at known places -/

theorem replaceIn_nil (needle value : List Char) : replaceIn needle value [] = [] := by
  unfold replaceIn
  split
  · rfl
  · rfl

theorem replaceOnto_skip (needle value acc skipped after : List Char) :
    replaceOnto needle value acc skipped.length (skipped ++ after) =
      replaceOnto needle value acc 0 after := by
  induction skipped with
  | nil => rfl
  | cons c skipped ih => exact ih

theorem replaceIn_cons {c : Char} (h : ¬ needle <+: c :: text) (value : List Char) :
    replaceIn needle value (c :: text) = c :: replaceIn needle value text := by
  have hne : ¬ needle.isEmpty = true := fun hnil =>
    h (List.isEmpty_iff.mp hnil ▸ List.nil_prefix)
  have hmatch : ¬ needle.isPrefixOf (c :: text) = true := fun hm =>
    h (List.isPrefixOf_iff_prefix.mp hm)
  rw [replaceIn, replaceIn, if_neg hne, if_neg hne, replaceOnto, if_neg hmatch, replaceOnto_eq]
  rfl

theorem replaceIn_append_left (hne : needle ≠ []) (value after : List Char) :
    replaceIn needle value (needle ++ after) = value ++ replaceIn needle value after := by
  cases needle with
  | nil => exact absurd rfl hne
  | cons c rest =>
    have hmatch : (c :: rest).isPrefixOf (c :: (rest ++ after)) = true :=
      List.isPrefixOf_iff_prefix.mpr ⟨after, rfl⟩
    show replaceOnto (c :: rest) value [] 0 (c :: (rest ++ after)) =
      value ++ replaceOnto (c :: rest) value [] 0 after
    rw [replaceOnto, if_pos hmatch, List.append_nil, List.length_cons, Nat.add_one_sub_one,
      replaceOnto_skip, replaceOnto_eq, List.reverse_reverse]

/-- Where the needle does not begin before its end is reached, this occurrence is replaced. -/
theorem replaceIn_first (hne : needle ≠ []) (hfirst : ¬ needle <:+: before ++ needle.dropLast)
    (value after : List Char) :
    replaceIn needle value (before ++ needle ++ after) =
      before ++ value ++ replaceIn needle value after := by
  induction before with
  | nil => exact replaceIn_append_left hne value after
  | cons c before ih =>
    have hstart : ¬ needle <+: c :: (before ++ needle ++ after) := by
      intro hmatch
      -- it is not longer than what ends one character short of the next occurrence
      have hshort : c :: before ++ needle.dropLast <+: c :: (before ++ needle ++ after) := by
        rw [List.append_assoc, List.cons_append, List.cons_prefix_cons]
        exact ⟨rfl, (List.prefix_append_right_inj before).mpr
          ((List.dropLast_prefix needle).trans (List.prefix_append needle after))⟩
      have hlen : needle.length ≤ (c :: before ++ needle.dropLast).length := by
        simp only [List.length_append, List.length_cons, List.length_dropLast]
        omega
      exact hfirst (List.prefix_of_prefix_length_le hmatch hshort hlen).isInfix
    show replaceIn needle value (c :: (before ++ needle ++ after)) = _
    rw [replaceIn_cons hstart, ih fun hin => hfirst (List.infix_cons hin)]
    rfl

theorem not_infix_dropLast_self (hne : needle ≠ []) : ¬ needle <:+: needle.dropLast := by
  intro hin
  have hlen := hin.length_le
  have hpos := List.length_pos_iff.mpr hne
  rw [List.length_dropLast] at hlen
  omega

/-- Nothing but the whole text, and nothing at all, is both a beginning and an end of it. -/
def Unbordered (needle : List Char) : Prop :=
  ∀ part, part <+: needle → part <:+ needle → part = [] ∨ part = needle

theorem Unbordered.not_infix_dropLast (h : Unbordered needle) (hne : needle ≠ [])
    (hin : ¬ needle <:+: before) : ¬ needle <:+: before ++ needle.dropLast := by
  intro hinfix
  rcases List.infix_append_iff_ne_nil.mp hinfix with hbefore | hshort | ⟨front, back, hfront, hback,
    hneedle, -, hstart⟩
  · exact hin hbefore
  · exact not_infix_dropLast_self hne hshort
  · rcases h back (hstart.trans (List.dropLast_prefix needle)) ⟨front, hneedle.symm⟩ with h | h
    · exact hback h
    · exact hfront (List.append_left_eq_self.mp (hneedle.symm.trans h.symm))

/-- Between texts in which the needle does not occur, every needle is replaced and nothing else. -/
theorem replaceIn_intercalate (h : Unbordered needle) (hne : needle ≠ []) (value : List Char)
    {ls : List (List Char)} (hls : ∀ l ∈ ls, ¬ needle <:+: l) :
    replaceIn needle value (needle.intercalate ls) = value.intercalate ls := by
  induction ls with
  | nil => exact replaceIn_nil needle value
  | cons l ls ih =>
    have hl : ¬ needle <:+: l := hls l List.mem_cons_self
    cases ls with
    | nil =>
      rw [List.intercalate_singleton, List.intercalate_singleton]
      exact (replacement_replaceIn hne value l).eq_of_absent hl
    | cons l' ls =>
      rw [List.intercalate_cons_cons, List.intercalate_cons_cons,
        replaceIn_first hne (h.not_infix_dropLast hne hl),
        ih fun x hx => hls x (List.mem_cons_of_mem l hx)]

/-- A replacement leaves nothing only where there was nothing. -/
theorem replaceIn_eq_nil_iff (needle text : List Char) (hvalue : value ≠ []) :
    replaceIn needle value text = [] ↔ text = [] := by
  by_cases hne : needle = []
  · simp [replaceIn, hne]
  · have h := replacement_replaceIn hne value text
    generalize replaceIn needle value text = result at h
    cases h with
    | untouched h => exact Iff.rfl
    | first h hafter => simp [hne, hvalue]

end ShaderChain
