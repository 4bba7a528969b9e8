import ShaderChain.Chain.Report
import ShaderChain.Proofs.Decoding
import ShaderChain.Proofs.Replacement

/-!
# What a scrubbed text shows

A `ScratchPath` is a path as the service gets it for a scratch file. Neither of its two spellings
can come about around a placeholder (`ScratchPath.unlinked`, `ScratchPath.unlinked_quote`): both
begin with a character that is not in the placeholder, and end in characters with which no
beginning of the placeholder ends. So a scrubbed text shows the path in neither spelling
(`scrub_hides`), whatever text it was, and scrubbing it again changes nothing
(`scrub_of_hidden`).
-/

namespace ShaderChain

/-- A path of a scratch file: it starts at the root, and its last component is the fixed name and
random letters and digits. -/
structure ScratchPath where
  /-- The directory, without a slash at its end. -/
  dir : Path
  random : Bytes
  absolute : Path.isAbsolute (dir ++ [Path.slash]) = true
  alphanumeric : random.all (fun b => (Utf8.asciiChar b).isAlphanum) = true

/-- The path as the operating system takes it. -/
def ScratchPath.path (r : ScratchPath) : Path :=
  r.dir ++ Path.slash :: (scratchName ++ r.random)

/-- The name of a scratch file is written in letters, digits and hyphens. -/
theorem ascii_of_mem_name {random : Bytes}
    (hrandom : random.all (fun b => (Utf8.asciiChar b).isAlphanum) = true) {b : UInt8}
    (hb : b ∈ scratchName ++ random) :
    b < 0x80 ∧ ((Utf8.asciiChar b).isAlphanum = true ∨ Utf8.asciiChar b = '-') := by
  rcases List.mem_append.mp hb with hfixed | hrand
  · have hall : ∀ b ∈ scratchName,
        b < 0x80 ∧ ((Utf8.asciiChar b).isAlphanum = true ∨ Utf8.asciiChar b = '-') := by
      decide +kernel
    exact hall b hfixed
  · have halnum := List.all_eq_true.mp hrandom b hrand
    exact ⟨Utf8.ascii_of_isAlphanum halnum, .inl halnum⟩

/-- A text that shows a path in neither of its spellings. -/
structure Path.HiddenIn (path : Path) (text : String) : Prop where
  plain : ¬ (Utf8.lossy path).toList <:+: text.toList
  quoted : ¬ (Shell.quote (Utf8.lossy path)).toList <:+: text.toList

/-! ## The spellings of a path with a slash -/

theorem Path.mem_lossyChars {path : Path} (h : slash ∈ path) : '/' ∈ Utf8.lossyChars path := by
  obtain ⟨before, after, rfl⟩ := List.append_of_mem h
  rw [Utf8.lossyChars_ascii before after (by decide)]
  exact List.mem_append_right _ List.mem_cons_self

theorem Path.exists_head {path : Path} (h : path.isAbsolute = true) :
    ∃ rest, Utf8.lossyChars path = '/' :: rest := by
  cases path with
  | nil => exact absurd h (by decide)
  | cons b rest =>
    obtain rfl : b = slash := by simpa [isAbsolute] using h
    exact ⟨_, Utf8.lossyChars_cons_ascii (by decide) rest⟩

theorem Shell.mem_quoteOf {c : Char} {word : List Char} (h : c ∈ word) : c ∈ quoteOf word := by
  unfold quoteOf
  split
  · exact h
  · refine List.mem_cons_of_mem _ (List.mem_append_left _ (List.mem_flatMap.mpr ⟨c, h, ?_⟩))
    unfold escape
    split
    · exact List.mem_cons.mpr (.inl ‹_›)
    · exact List.mem_singleton.mpr rfl

/-- A text without a slash shows no path that has one. -/
theorem Path.hiddenIn_of_not_mem {path : Path} (hpath : slash ∈ path) {text : String}
    (htext : '/' ∉ text.toList) : path.HiddenIn text := by
  have hmem : '/' ∈ Utf8.lossyChars path := mem_lossyChars hpath
  refine ⟨fun hin => htext (hin.subset ?_), fun hin => htext (hin.subset ?_)⟩
  · rwa [Utf8.lossy, String.toList_ofList]
  · rw [Shell.quote, Utf8.lossy, String.toList_ofList, String.toList_ofList]
    exact Shell.mem_quoteOf hmem

/-! ## Quoted spellings -/

namespace Shell

variable {c : Char} {part rest word : List Char}

/-- What occurs behind a character that it does not contain. -/
theorem infix_of_not_mem (hne : part ≠ []) (hc : c ∉ part) (hin : part <:+: c :: rest) :
    part <:+: rest := by
  rcases List.infix_cons_iff.mp hin with hprefix | hinfix
  · cases part with
    | nil => exact absurd rfl hne
    | cons d tail =>
      obtain ⟨rfl, -⟩ := List.cons_prefix_cons.mp hprefix
      exact absurd List.mem_cons_self hc
  · exact hinfix

/-- What a text in quotes begins with is what the text begins with, up to the first character that
only quoting puts in. -/
theorem prefix_of_escaped (hquote : '\'' ∉ part)
    (hin : part <+: word.flatMap escape ++ ['\'']) : part <+: word := by
  induction word generalizing part with
  | nil =>
    cases part with
    | nil => exact List.nil_prefix
    | cons d tail =>
      obtain ⟨rfl, -⟩ := List.cons_prefix_cons.mp hin
      exact absurd List.mem_cons_self hquote
  | cons c word ih =>
    cases part with
    | nil => exact List.nil_prefix
    | cons d tail =>
      by_cases hc : c = '\''
      · subst hc
        obtain ⟨rfl, -⟩ := List.cons_prefix_cons.mp hin
        exact absurd List.mem_cons_self hquote
      · rw [List.flatMap_cons, escape, if_neg hc] at hin
        obtain ⟨rfl, htail⟩ := List.cons_prefix_cons.mp hin
        exact List.cons_prefix_cons.mpr
          ⟨rfl, ih (fun h => hquote (List.mem_cons_of_mem _ h)) htail⟩

theorem infix_of_escaped (hne : part ≠ []) (hquote : '\'' ∉ part) (hslash : '\\' ∉ part)
    (hin : part <:+: word.flatMap escape ++ ['\'']) : part <:+: word := by
  induction word with
  | nil => exact infix_of_not_mem hne hquote hin
  | cons c word ih =>
    by_cases hc : c = '\''
    · subst hc
      have hrest := infix_of_not_mem hne hquote (infix_of_not_mem hne hquote
        (infix_of_not_mem hne hslash (infix_of_not_mem hne hquote hin)))
      exact List.infix_cons (ih hrest)
    · have hescape : (c :: word).flatMap escape ++ ['\''] =
          c :: (word.flatMap escape ++ ['\'']) := by
        rw [List.flatMap_cons, escape, if_neg hc]
        rfl
      rw [hescape] at hin
      rcases List.infix_cons_iff.mp hin with hprefix | hinfix
      · rw [← hescape] at hprefix
        exact (prefix_of_escaped hquote hprefix).isInfix
      · exact List.infix_cons (ih hinfix)

/-- Quoting puts in nothing but quotes and backslashes. -/
theorem infix_of_quoteOf (hne : part ≠ []) (hquote : '\'' ∉ part) (hslash : '\\' ∉ part)
    (hin : part <:+: quoteOf word) : part <:+: word := by
  unfold quoteOf at hin
  split at hin
  · exact hin
  · exact infix_of_escaped hne hquote hslash (infix_of_not_mem hne hquote hin)

end Shell

/-! ## The path of a scratch file -/

namespace ScratchPath

variable (r : ScratchPath)

theorem slash_mem : Path.slash ∈ r.path :=
  List.mem_append_right _ List.mem_cons_self

theorem not_mem_name {b : UInt8} (hb : b ∈ scratchName ++ r.random) :
    b < 0x80 ∧ Utf8.asciiChar b ≠ '<' := by
  obtain ⟨hascii, hchar⟩ := ascii_of_mem_name r.alphanumeric hb
  refine ⟨hascii, fun heq => ?_⟩
  rw [heq] at hchar
  exact absurd hchar (by decide)

/-- The text of the path ends in a piece without `<` that is as long as the placeholder. -/
theorem exists_tail : ∃ front tail, Utf8.lossyChars r.path = front ++ tail ∧
    placeholder.toList.length ≤ tail.length ∧ '<' ∉ tail := by
  refine ⟨Utf8.lossyChars r.dir, '/' :: (scratchName ++ r.random).map Utf8.asciiChar, ?_, ?_, ?_⟩
  · rw [path, Utf8.lossyChars_ascii _ _ (by decide),
      Utf8.lossyChars_of_ascii fun b hb => (r.not_mem_name hb).1]
    rfl
  · have hlen : placeholder.toList.length ≤ scratchName.length := by decide
    simp only [List.length_cons, List.length_map, List.length_append]
    omega
  · intro hmem
    rcases List.mem_cons.mp hmem with h | h
    · exact absurd h (by decide)
    · obtain ⟨b, hb, heq⟩ := List.mem_map.mp h
      exact (r.not_mem_name hb).2 heq

theorem exists_head : ∃ rest, Utf8.lossyChars r.path = '/' :: rest := by
  refine Path.exists_head ?_
  have habsolute := r.absolute
  unfold path
  cases hdir : r.dir with
  | nil => rfl
  | cons b rest => rwa [hdir] at habsolute

variable {r} (hmark : ¬ placeholder.toList <:+: Utf8.lossyChars r.path)
include hmark

/-- The path cannot come about around a placeholder. -/
theorem unlinked : Unlinked (Utf8.lossyChars r.path) placeholder.toList where
  apart := hmark
  starts := by
    obtain ⟨rest, hrest⟩ := r.exists_head
    exact ⟨'/', rest, hrest, by decide⟩
  ends part hvalue hkey := by
    obtain ⟨front, tail, hpath, hlen, htail⟩ := r.exists_tail
    rw [hpath] at hkey
    have hsuffix : part <:+ tail :=
      List.suffix_of_suffix_length_le hkey (List.suffix_append front tail)
        (Nat.le_trans hvalue.length_le hlen)
    -- a beginning of the placeholder that is not empty contains its first character
    cases part with
    | nil => rfl
    | cons c rest =>
      obtain ⟨rfl, -⟩ := List.cons_prefix_cons.mp hvalue
      exact absurd (hsuffix.subset List.mem_cons_self) htail

/-- Nor can its quoted spelling. -/
theorem unlinked_quote :
    Unlinked (Shell.quoteOf (Utf8.lossyChars r.path)) placeholder.toList := by
  have hquote : '\'' ∉ placeholder.toList := by decide
  have hapart : ¬ placeholder.toList <:+: Shell.quoteOf (Utf8.lossyChars r.path) := fun hin =>
    hmark (Shell.infix_of_quoteOf (by decide) hquote (by decide) hin)
  by_cases hplain : Shell.quoteOf (Utf8.lossyChars r.path) = Utf8.lossyChars r.path
  · rw [hplain]
    exact unlinked hmark
  · have hquoted : Shell.quoteOf (Utf8.lossyChars r.path) =
        '\'' :: (Utf8.lossyChars r.path).flatMap Shell.escape ++ ['\''] := by
      unfold Shell.quoteOf at hplain ⊢
      split
      · rw [if_pos ‹_›] at hplain
        exact absurd rfl hplain
      · rfl
    refine ⟨hapart, ⟨'\'', _, hquoted, hquote⟩, fun part hvalue hkey => ?_⟩
    -- an end of the quoted spelling that is not empty contains its last character
    rw [hquoted] at hkey
    rcases List.eq_nil_or_concat part with rfl | ⟨init, c, rfl⟩
    · rfl
    · obtain ⟨front, hfront⟩ := hkey
      rw [List.concat_eq_append, ← List.append_assoc] at hfront
      obtain rfl := (List.append_inj_right' hfront rfl |> List.singleton_inj.mp)
      exact absurd (hvalue.subset (by simp)) hquote

end ScratchPath

/-! ## Scrubbed texts -/

theorem toList_replace (needle value text : String) :
    (replace needle value text).toList =
      replaceIn needle.toList value.toList text.toList :=
  String.toList_ofList

theorem replace_of_absent {needle text : String} (h : ¬ needle.toList <:+: text.toList)
    (value : String) : replace needle value text = text := by
  have hne : needle.toList ≠ [] := by
    intro hnil
    rw [hnil] at h
    exact h List.nil_infix
  rw [← String.toList_inj, toList_replace]
  exact (replacement_replaceIn hne _ _).eq_of_absent h

theorem replace_eq_empty_iff (needle text : String) {value : String} (hvalue : value ≠ "") :
    replace needle value text = "" ↔ text = "" := by
  rw [← String.toList_inj, toList_replace, ← String.toList_inj]
  exact replaceIn_eq_nil_iff _ _ fun h => hvalue (String.toList_inj.mp h)

namespace Scrubber

/-- Scrubbing neither empties a text nor fills an empty one. -/
theorem scrub_eq_empty_iff (s : Scrubber) (text : String) : s.scrub text = "" ↔ text = "" := by
  unfold scrub
  induction s.needles generalizing text with
  | nil => exact Iff.rfl
  | cons needle rest ih =>
    rw [List.foldl_cons, ih, replace_eq_empty_iff needle text (by decide)]

theorem scrubReport_eq_empty_iff (s : Scrubber) (r : Report) : s.scrubReport r = {} ↔ r = {} := by
  cases r
  simp only [scrubReport, Report.mk.injEq, scrub_eq_empty_iff]

theorem scrub_of_absent {s : Scrubber} {text : String}
    (h : ∀ needle ∈ s.needles, ¬ needle.toList <:+: text.toList) : s.scrub text = text := by
  unfold scrub
  generalize s.needles = needles at h
  induction needles with
  | nil => rfl
  | cons needle rest ih =>
    rw [List.foldl_cons, replace_of_absent (h needle List.mem_cons_self)]
    exact ih fun n hn => h n (List.mem_cons_of_mem needle hn)

theorem mem_needles {path : Path} {needle : String} (h : needle ∈ (ofPath path).needles) :
    needle = Utf8.lossy path ∨ needle = Shell.quote (Utf8.lossy path) := by
  simp only [ofPath] at h
  split at h
  · cases h
  · split at h
    · exact .inl (List.mem_singleton.mp h)
    · rcases List.mem_cons.mp h with h | h
      · exact .inr h
      · exact .inl (List.mem_singleton.mp h)

/-- Where a path is not shown, there is nothing to scrub. -/
theorem scrub_of_hidden {path : Path} {text : String} (h : path.HiddenIn text) :
    (ofPath path).scrub text = text := by
  refine scrub_of_absent fun needle hneedle => ?_
  rcases mem_needles hneedle with rfl | rfl
  · exact h.plain
  · exact h.quoted

section

variable {path : Path} (hpath : Utf8.lossyChars path ≠ [])
include hpath

/-- A path with nothing to quote is replaced in its one spelling. -/
theorem scrub_of_plain (h : Shell.quote (Utf8.lossy path) = Utf8.lossy path) (text : String) :
    (ofPath path).scrub text = replace (Utf8.lossy path) placeholder text := by
  have hne : Utf8.lossy path ≠ "" := by simpa [Utf8.lossy, ← String.toList_inj] using hpath
  simp [scrub, ofPath, hne, h]

/-- Any other path is replaced in its quoted spelling first. -/
theorem scrub_of_quoted (h : Shell.quote (Utf8.lossy path) ≠ Utf8.lossy path) (text : String) :
    (ofPath path).scrub text = replace (Utf8.lossy path) placeholder
      (replace (Shell.quote (Utf8.lossy path)) placeholder text) := by
  have hne : Utf8.lossy path ≠ "" := by simpa [Utf8.lossy, ← String.toList_inj] using hpath
  simp [scrub, ofPath, hne, h]

end

/-- **Scrubbing hides the path.** Whatever text it was, and whatever came together around the
placeholders that were put in, the scrubbed text shows the path in neither spelling. -/
theorem scrub_hides {r : ScratchPath} (hmark : ¬ placeholder.toList <:+: Utf8.lossyChars r.path)
    (text : String) : r.path.HiddenIn ((ofPath r.path).scrub text) := by
  have hplain : Unlinked (Utf8.lossy r.path).toList placeholder.toList := by
    rw [Utf8.lossy, String.toList_ofList]
    exact r.unlinked hmark
  have hquote : Unlinked (Shell.quote (Utf8.lossy r.path)).toList placeholder.toList := by
    rw [Shell.quote, Utf8.lossy, String.toList_ofList, String.toList_ofList]
    exact r.unlinked_quote hmark
  have hpath : Utf8.lossyChars r.path ≠ [] := (r.unlinked hmark).ne_nil
  have replaced {needle : String} (hneedle : Unlinked needle.toList placeholder.toList)
      (text : String) : Replacement needle.toList placeholder.toList text.toList
        (replace needle placeholder text).toList := by
    rw [toList_replace]
    exact replacement_replaceIn hneedle.ne_nil _ _
  by_cases heq : Shell.quote (Utf8.lossy r.path) = Utf8.lossy r.path
  · have hgone := (replaced hplain text).absent hplain
    rw [scrub_of_plain hpath heq]
    exact ⟨hgone, heq.symm ▸ hgone⟩
  · have hgone := (replaced hquote text).absent hquote
    rw [scrub_of_quoted hpath heq]
    -- the second replacement does not bring back what the first one took away
    refine ⟨(replaced hplain _).absent hplain, fun hin => hgone ?_⟩
    exact (replaced hplain _).infix_of_unlinked hquote hin

end Scrubber

end ShaderChain
