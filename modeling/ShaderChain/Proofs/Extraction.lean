import ShaderChain.Proofs.Words
import ShaderChain.Command
import Mathlib.Data.List.Basic

/-!
# Which target environment flags name

A word that is neither the flag nor sets a value behind `--target-env=` is silent
(`TargetEnv.Silent`). The first word that is not silent decides: the flag names the word after it,
whatever that is, and the other spelling the rest of the word. `valueIn_cons` says so for one word,
and `valueIn_eq_some_iff` and `valueIn_eq_none_iff` follow by induction on the words.

What is extracted is the value in the two-word spelling, and its words are the flag and the value
again (`words_spaced`). So nothing is lost by extracting, and nothing but the value is kept
(`TargetEnv.extract_keeps_value`).
-/

namespace ShaderChain.TargetEnv

variable {t v w : String} {ts : List String}

/-- A word that says nothing of the target environment. -/
def Silent (t : String) : Prop :=
  t ≠ flag ∧ ∀ v, v ≠ "" → t ≠ joined v

/-! ## One word -/

theorem toList_joined (v : String) : (joined v).toList = flag.toList ++ '=' :: v.toList := by
  simp [joined, String.toList_append]

theorem joined_inj : joined v = joined w ↔ v = w := by
  rw [← String.toList_inj, toList_joined, toList_joined, List.append_cancel_left_eq,
    List.cons.injEq, String.toList_inj]
  exact and_iff_right rfl

theorem joined_ne_flag : joined v ≠ flag := by
  intro h
  have hlength := congrArg (List.length ∘ String.toList) h
  simp [toList_joined] at hlength

theorem joinedValue?_eq_some_iff : joinedValue? t = some v ↔ v ≠ "" ∧ t = joined v := by
  have hrest : ∀ cs, (joined "").toList.isPrefixOf? t.toList = some cs ↔
      t = joined (String.ofList cs) := by
    intro cs
    rw [List.isPrefixOf?_eq_some_iff_append_eq, ← String.toList_inj]
    simp [toList_joined, eq_comm]
  unfold joinedValue?
  cases h : (joined "").toList.isPrefixOf? t.toList with
  | none =>
    refine ⟨(nomatch ·), ?_⟩
    rintro ⟨-, rfl⟩
    rw [(hrest v.toList).mpr (by rw [String.ofList_toList])] at h
    cases h
  | some cs =>
    obtain rfl := (hrest cs).mp h
    rw [joined_inj]
    cases cs with
    | nil =>
      refine ⟨(nomatch ·), ?_⟩
      rintro ⟨hne, rfl⟩
      exact absurd rfl hne
    | cons c cs =>
      refine ⟨fun hv => ?_, fun hv => congrArg some hv.2⟩
      obtain rfl := Option.some.inj hv
      refine ⟨fun hempty => ?_, rfl⟩
      have hnil := congrArg String.toList hempty
      rw [String.toList_ofList] at hnil
      cases hnil

theorem silent_iff : Silent t ↔ t ≠ flag ∧ joinedValue? t = none := by
  rw [Option.eq_none_iff_forall_ne_some]
  refine and_congr_right fun _ => forall_congr' fun v => ?_
  rw [ne_eq (joinedValue? t), joinedValue?_eq_some_iff, not_and]

/-! ## The first word that is not silent -/

theorem valueIn_cons (t : String) (ts : List String) :
    valueIn (t :: ts) = if t = flag then ts.head? else (joinedValue? t).or (valueIn ts) := by
  cases ts with
  | nil =>
    rw [valueIn, valueIn, Option.or_none]
    rfl
  | cons next rest =>
    rw [valueIn]
    cases joinedValue? t <;> rfl

/-- The ways in which a value can be named by words of which `t` is the first. -/
theorem valueIn_cons_eq_some_iff : valueIn (t :: ts) = some v ↔
    t = flag ∧ ts.head? = some v ∨ v ≠ "" ∧ t = joined v ∨ Silent t ∧ valueIn ts = some v := by
  rw [valueIn_cons, silent_iff]
  by_cases hflag : t = flag
  · subst hflag
    have hne : flag ≠ joined v := fun h => joined_ne_flag h.symm
    simp [hne]
  · rw [← joinedValue?_eq_some_iff]
    cases joinedValue? t <;> simp [hflag]

/-- The ways in which no value is named by words of which `t` is the first. -/
theorem valueIn_cons_eq_none_iff : valueIn (t :: ts) = none ↔
    t = flag ∧ ts = [] ∨ Silent t ∧ valueIn ts = none := by
  rw [valueIn_cons, silent_iff]
  by_cases hflag : t = flag
  · simp [hflag]
  · simp [hflag, Option.or_eq_none_iff]

/-- The first word that is not silent names the value. -/
theorem valueIn_eq_some_iff : valueIn ts = some v ↔
    ∃ pre post, (∀ t ∈ pre, Silent t) ∧
      (ts = pre ++ [flag, v] ++ post ∨ v ≠ "" ∧ ts = pre ++ [joined v] ++ post) := by
  induction ts with
  | nil =>
    refine ⟨(nomatch ·), ?_⟩
    rintro ⟨pre, post, -, h | ⟨-, h⟩⟩ <;> simp at h
  | cons t ts ih =>
    rw [valueIn_cons_eq_some_iff, ih]
    constructor
    · rintro (⟨rfl, hhead⟩ | ⟨hne, rfl⟩ | ⟨hsilent, pre, post, hpre, hts⟩)
      · obtain ⟨post, rfl⟩ := List.head?_eq_some_iff.mp hhead
        exact ⟨[], post, fun _ h => (nomatch h), .inl rfl⟩
      · exact ⟨[], ts, fun _ h => (nomatch h), .inr ⟨hne, rfl⟩⟩
      · refine ⟨t :: pre, post, List.forall_mem_cons.mpr ⟨hsilent, hpre⟩, ?_⟩
        exact hts.imp (congrArg (t :: ·)) (And.imp_right (congrArg (t :: ·)))
    · rintro ⟨pre, post, hpre, hts⟩
      cases pre with
      | nil =>
        rcases hts with hts | ⟨hne, hts⟩
        · obtain ⟨rfl, rfl⟩ := List.cons.inj hts
          exact .inl ⟨rfl, rfl⟩
        · obtain ⟨rfl, rfl⟩ := List.cons.inj hts
          exact .inr (.inl ⟨hne, rfl⟩)
      | cons s pre =>
        obtain ⟨hsilent, hsilents⟩ := List.forall_mem_cons.mp hpre
        simp only [List.cons_append, List.cons.injEq] at hts
        -- in both spellings the first of the words before is `t`
        rcases hts with ⟨rfl, hts⟩ | ⟨hne, rfl, hts⟩
        · exact .inr (.inr ⟨hsilent, pre, post, hsilents, .inl hts⟩)
        · exact .inr (.inr ⟨hsilent, pre, post, hsilents, .inr ⟨hne, hts⟩⟩)

/-- No value is named exactly if no word sets one and the flag stands nowhere but at the end. -/
theorem valueIn_eq_none_iff :
    valueIn ts = none ↔ flag ∉ ts.dropLast ∧ ∀ v, v ≠ "" → joined v ∉ ts := by
  induction ts with
  | nil => simp [valueIn]
  | cons t ts ih =>
    rw [valueIn_cons_eq_none_iff, ih]
    constructor
    · rintro (⟨rfl, rfl⟩ | ⟨⟨hflag, hjoined⟩, hlast, hrest⟩)
      · refine ⟨List.not_mem_nil, fun v _ hmem => ?_⟩
        exact joined_ne_flag (List.mem_singleton.mp hmem)
      · refine ⟨fun hmem => ?_, fun v hne hmem => ?_⟩
        · cases ts with
          | nil => cases hmem
          | cons next rest =>
            rcases List.mem_cons.mp hmem with rfl | hmem
            · exact hflag rfl
            · exact hlast hmem
        · rcases List.mem_cons.mp hmem with rfl | hmem
          · exact hjoined v hne rfl
          · exact hrest v hne hmem
    · rintro ⟨hlast, hjoined⟩
      have hrest : ∀ v, v ≠ "" → joined v ∉ ts := fun v hne hmem =>
        hjoined v hne (List.mem_cons_of_mem t hmem)
      cases ts with
      | nil =>
        by_cases hflag : t = flag
        · exact .inl ⟨hflag, rfl⟩
        · refine .inr ⟨⟨hflag, fun v hne hsame => ?_⟩, List.not_mem_nil, hrest⟩
          exact hjoined v hne (hsame ▸ List.mem_cons_self)
      | cons next rest =>
        rw [List.dropLast_cons_cons, List.mem_cons, not_or] at hlast
        refine .inr ⟨⟨fun hflag => hlast.1 hflag.symm, fun v hne hsame => ?_⟩, hlast.2, hrest⟩
        exact hjoined v hne (hsame ▸ List.mem_cons_self)

/-! ## Extracting -/

/-- A value that is named in a flag string is a word. -/
theorem isWord_of_value? {flags : String} (h : value? flags = some v) :
    Words.IsWord v.toList := by
  obtain ⟨pre, post, -, hspaced | ⟨hne, hjoined⟩⟩ := valueIn_eq_some_iff.mp h
  · have hmem : v ∈ words flags := by
      rw [hspaced]
      simp
    exact isWord_of_mem_words hmem
  · have hmem : joined v ∈ words flags := by
      rw [hjoined]
      simp
    have hunbroken := (isWord_of_mem_words hmem).unbroken
    rw [toList_joined] at hunbroken
    refine ⟨fun hnil => hne (String.toList_inj.mp hnil), fun c hc => hunbroken c ?_⟩
    exact List.mem_append_right _ (List.mem_cons_of_mem _ hc)

theorem isWord_flag : Words.IsWord flag.toList where
  ne_nil := by decide
  unbroken c hc := by
    have hall : flag.toList.all (!isBlank ·) = true := by decide
    simpa using List.all_eq_true.mp hall c hc

/-- The words of the two-word spelling are the two words. -/
theorem words_spaced (hv : Words.IsWord v.toList) : words (spaced (some v)) = [flag, v] := by
  refine words_eq_of_splits ?_
  have hspaced : (spaced (some v)).toList = flag.toList ++ ' ' :: v.toList := by
    simp [spaced, String.toList_append]
  rw [hspaced]
  exact .word isWord_flag (by decide) (.last hv)

/-- A value that is a word is found again where it is written down. -/
theorem value?_spaced {env : Option String} (henv : ∀ v ∈ env, Words.IsWord v.toList) :
    value? (spaced env) = env := by
  cases env with
  | none => rfl
  | some v => rw [value?, words_spaced (henv v rfl), valueIn, if_pos rfl]

theorem value?_extract (flags : String) : value? (extract flags) = value? flags :=
  value?_spaced fun _ hv => isWord_of_value? hv

/-- **Which target environment flags name.** Take the words of a flag string, which are its runs of
characters that are not blank. The value they name is that of the first word that is not silent: the
word after the flag, or what is behind `--target-env=`. None is named exactly if no word sets a value
and the flag stands nowhere but at the end. A value is a word. What is extracted is the flag and the
value with a blank between them, or else nothing; the same value is found in it again, and to extract
once more changes nothing. -/
theorem extract_keeps_value (flags : String) :
    let ts := words flags
    Words.Splits flags.toList (ts.map String.toList) ∧
    (∀ v, value? flags = some v ↔ ∃ pre post, (∀ t ∈ pre, Silent t) ∧
      (ts = pre ++ ["--target-env", v] ++ post ∨ v ≠ "" ∧ ts = pre ++ [joined v] ++ post)) ∧
    (value? flags = none ↔
      "--target-env" ∉ ts.dropLast ∧ ∀ v, v ≠ "" → joined v ∉ ts) ∧
    (∀ v, value? flags = some v → v ≠ "" ∧ ∀ c ∈ v.toList, isBlank c = false) ∧
    (extract flags = "" ∧ value? flags = none ∨
      ∃ v, extract flags = "--target-env " ++ v ∧ value? flags = some v) ∧
    value? (extract flags) = value? flags ∧ extract (extract flags) = extract flags := by
  intro ts
  refine ⟨splits_words flags, fun v => valueIn_eq_some_iff, valueIn_eq_none_iff, fun v hv => ?_,
    ?_, value?_extract flags, congrArg spaced (value?_extract flags)⟩
  · have hword := isWord_of_value? hv
    exact ⟨fun hempty => hword.ne_nil (congrArg String.toList hempty), hword.unbroken⟩
  · unfold extract
    cases value? flags with
    | none => exact .inl ⟨rfl, rfl⟩
    | some v => exact .inr ⟨v, rfl, rfl⟩

example : extract "-O --target-env=\u2003--target-env\t--target-env=vulkan1.2" =
    "--target-env --target-env=vulkan1.2" := by decide

end ShaderChain.TargetEnv
