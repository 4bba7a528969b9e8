import ShaderChain.Proofs.Extraction
import ShaderChain.Chain.Run

/-!
# The two spellings of the target environment say the same

`TargetEnv.join` takes the words of a flag string apart from the left: into pairs of the flag and
the word after it, and words that are kept (`TargetEnv.Part`). The flag itself is kept only where no
word follows. `join_eq_iff` says that this is all: whoever takes the words apart in this way gets
what `join` gives. So joining again finds no pair (`join_join`), and what the flags name is named
after joining as well, also where a value looks like the flag (`valueIn_join`).

A tool that wants the joined spelling is therefore given the same command for both
(`TargetEnv.spellings_interchangeable`).
-/

namespace ShaderChain.TargetEnv

variable {t v : String} {ts us : List String}

/-- A part of a list of words, as it is found from the left. -/
inductive Part where
  | kept (word : String)
  /-- The flag, and the word after it. -/
  | pair (value : String)
  deriving Repr, DecidableEq

namespace Part

/-- The words of a part. -/
def words : Part → List String
  | kept t => [t]
  | pair v => [flag, v]

/-- The one word that a part becomes. -/
def word : Part → String
  | kept t => t
  | pair v => joined v

end Part

/-! ## Taking words apart -/

theorem join_pair (v : String) (ts : List String) : join (flag :: v :: ts) = joined v :: join ts :=
  if_pos rfl

theorem join_kept (h : t ≠ flag ∨ ts = []) : join (t :: ts) = t :: join ts := by
  cases ts with
  | nil => rfl
  | cons next rest =>
    have hne : t ≠ flag := h.resolve_right (List.cons_ne_nil next rest)
    exact if_neg hne

theorem not_mem_dropLast_cons {p q : Part} {ps : List Part} :
    q ∉ (p :: ps).dropLast ↔ ps = [] ∨ q ≠ p ∧ q ∉ ps.dropLast := by
  cases ps <;> simp

/-- Parts in which the flag is kept at most at the end are joined one by one. -/
theorem join_parts {ps : List Part} (h : .kept flag ∉ ps.dropLast) :
    join (ps.flatMap Part.words) = ps.map Part.word := by
  induction ps with
  | nil => rfl
  | cons p ps ih =>
    rw [not_mem_dropLast_cons] at h
    have hrest : join (ps.flatMap Part.words) = ps.map Part.word := by
      rcases h with rfl | ⟨-, hkept⟩
      · rfl
      · exact ih hkept
    rw [List.flatMap_cons, List.map_cons, ← hrest]
    cases p with
    | pair v => exact join_pair v _
    | kept t =>
      -- the flag is kept only if no part follows, and then no word does
      refine join_kept ?_
      rcases h with rfl | ⟨hne, -⟩
      · exact .inr rfl
      · exact .inl fun hflag => hne (congrArg Part.kept hflag.symm)

/-- All words can be taken apart so. -/
theorem exists_parts (ts : List String) :
    ∃ ps : List Part, ts = ps.flatMap Part.words ∧ .kept flag ∉ ps.dropLast := by
  fun_induction join ts with
  | case1 => exact ⟨[], rfl, List.not_mem_nil⟩
  | case2 t => exact ⟨[.kept t], rfl, List.not_mem_nil⟩
  | case3 next rest ih =>
    obtain ⟨ps, hts, hkept⟩ := ih
    refine ⟨.pair next :: ps, congrArg (flag :: next :: ·) hts, ?_⟩
    exact not_mem_dropLast_cons.mpr (.inr ⟨Part.noConfusion, hkept⟩)
  | case4 t next rest hne ih =>
    obtain ⟨ps, hts, hkept⟩ := ih
    refine ⟨.kept t :: ps, congrArg (t :: ·) hts, ?_⟩
    exact not_mem_dropLast_cons.mpr (.inr ⟨fun hsame => hne (Part.kept.inj hsame).symm, hkept⟩)

/-- Joining is to take the words apart from the left, and to join what belongs together. -/
theorem join_eq_iff : join ts = us ↔ ∃ ps : List Part,
    ts = ps.flatMap Part.words ∧ us = ps.map Part.word ∧ .kept flag ∉ ps.dropLast := by
  constructor
  · rintro rfl
    obtain ⟨ps, rfl, hkept⟩ := exists_parts ts
    exact ⟨ps, rfl, join_parts hkept, hkept⟩
  · rintro ⟨ps, rfl, rfl, hkept⟩
    exact join_parts hkept

/-! ## What is joined stays joined -/

theorem flag_not_mem_join (ts : List String) : flag ∉ (join ts).dropLast := by
  obtain ⟨ps, -, hjoin, hkept⟩ := join_eq_iff.mp (Eq.refl (join ts))
  rw [hjoin, ← List.map_dropLast]
  intro hmem
  obtain ⟨p, hp, hword⟩ := List.mem_map.mp hmem
  cases p with
  | kept t =>
    obtain rfl : t = flag := hword
    exact hkept hp
  | pair v => exact joined_ne_flag hword

/-- Where the flag stands at most at the end, there is nothing to join. -/
theorem join_of_not_mem (h : flag ∉ ts.dropLast) : join ts = ts := by
  refine join_eq_iff.mpr ⟨ts.map .kept, ?_, ?_, fun hmem => h ?_⟩
  · rw [List.flatMap_map]
    exact (List.flatMap_singleton' ts).symm
  · rw [List.map_map]
    exact (List.map_id ts).symm
  · rw [← List.map_dropLast] at hmem
    obtain ⟨t, ht, hsame⟩ := List.mem_map.mp hmem
    exact Part.kept.inj hsame ▸ ht

theorem join_join (ts : List String) : join (join ts) = join ts :=
  join_of_not_mem (flag_not_mem_join ts)

/-! ## What is named stays named -/

/-- Joining does not change what words name, if none of them is empty. -/
theorem valueIn_join (h : ∀ t ∈ ts, t ≠ "") : valueIn (join ts) = valueIn ts := by
  fun_induction join ts with
  | case1 | case2 => rfl
  | case3 next rest ih =>
    have hnext : next ≠ "" := h next (by simp)
    have hvalue : joinedValue? (joined next) = some next :=
      joinedValue?_eq_some_iff.mpr ⟨hnext, rfl⟩
    rw [valueIn_cons, valueIn_cons, if_neg joined_ne_flag, if_pos rfl, hvalue]
    rfl
  | case4 t next rest hne ih =>
    rw [valueIn_cons, valueIn_cons, if_neg hne, if_neg hne,
      ih fun s hs => h s (List.mem_cons_of_mem t hs)]

theorem isWord_joined (hv : Words.IsWord v.toList) : Words.IsWord (joined v).toList where
  ne_nil := by
    rw [toList_joined]
    exact List.append_ne_nil_of_right_ne_nil _ (List.cons_ne_nil _ _)
  unbroken c hc := by
    rw [toList_joined] at hc
    rcases List.mem_append.mp hc with hflag | hvalue
    · exact isWord_flag.unbroken c hflag
    · rcases List.mem_cons.mp hvalue with rfl | hvalue
      · rfl
      · exact hv.unbroken c hvalue

/-- Words joined are words. -/
theorem isWord_of_mem_join (h : ∀ t ∈ ts, Words.IsWord t.toList) :
    ∀ u ∈ join ts, Words.IsWord u.toList := by
  obtain ⟨ps, rfl, hjoin, -⟩ := join_eq_iff.mp (Eq.refl (join ts))
  rw [hjoin]
  intro u hu
  obtain ⟨p, hp, rfl⟩ := List.mem_map.mp hu
  have hwords : ∀ t ∈ p.words, Words.IsWord t.toList := fun t ht =>
    h t (List.mem_flatMap.mpr ⟨p, hp, ht⟩)
  cases p with
  | kept t => exact hwords t (List.mem_singleton.mpr rfl)
  | pair v => exact isWord_joined (hwords v (by simp [Part.words]))

/-! ## Respelled flag strings -/

/-- The words of a flag string in the joined spelling, with single blanks between them. -/
def respelled (flags : String) : String :=
  " ".intercalate (join (words flags))

theorem words_respelled (flags : String) : words (respelled flags) = join (words flags) :=
  words_intercalate (isWord_of_mem_join fun _ ht => isWord_of_mem_words ht)

theorem value?_respelled (flags : String) : value? (respelled flags) = value? flags := by
  have hne : ∀ t ∈ words flags, t ≠ "" := fun t ht hempty =>
    (isWord_of_mem_words ht).ne_nil (congrArg String.toList hempty)
  rw [value?, words_respelled, valueIn_join hne, value?]

theorem flagArgs_respelled (flags : String) :
    Command.flagArgs .joinedTargetEnv (respelled flags) =
      Command.flagArgs .joinedTargetEnv flags := by
  show join (words (respelled flags)) = join (words flags)
  rw [words_respelled, join_join]

/-- The command of a tool depends on a flag string only through its own flags. -/
theorem build_congr {tool : Descriptor} {flags flags' : String}
    (h : Command.flagArgs tool.spec.flagStyle flags = Command.flagArgs tool.spec.flagStyle flags')
    (path : Path) : Command.build tool flags path = Command.build tool flags' path := by
  unfold Command.build
  rw [h]

/-- **The two spellings are interchangeable for a tool that wants them joined.** To join words is to
take them apart from the left into pairs of the flag and the word after it, and other words, and to
write each pair as one word; the flag is left over only where no word follows. To join once more
changes nothing. And a flag string with its words joined names the same target environment, so that
a tool that wants the joined spelling is given the same command, and so is the assembler that runs
before it. -/
theorem spellings_interchangeable (ts : List String) (flags : String) :
    (∀ us, join ts = us ↔ ∃ ps : List Part,
      ts = ps.flatMap Part.words ∧ us = ps.map Part.word ∧ .kept "--target-env" ∉ ps.dropLast) ∧
    "--target-env" ∉ (join ts).dropLast ∧
    join (join ts) = join ts ∧
    value? (respelled flags) = value? flags ∧
    ∀ path : Path,
      (∀ tool : Descriptor, tool.spec.flagStyle = .joinedTargetEnv →
        Command.build tool (respelled flags) path = Command.build tool flags path) ∧
      (∀ assembler : Descriptor, Command.build assembler (extract (respelled flags)) path =
        Command.build assembler (extract flags) path) ∧
      ∀ c : Chain, c.assemble path (respelled flags) = c.assemble path flags := by
  have hextract : extract (respelled flags) = extract flags :=
    congrArg spaced (value?_respelled flags)
  refine ⟨fun us => join_eq_iff, flag_not_mem_join ts, join_join ts, value?_respelled flags,
    fun path => ⟨fun tool hstyle => ?_, fun assembler => ?_, fun c => ?_⟩⟩
  · refine build_congr ?_ path
    rw [hstyle]
    exact flagArgs_respelled flags
  · rw [hextract]
  · rw [Chain.assemble, Chain.assemble, hextract]

/-- The optimizer, for a value that looks like the flag and with the flag left over at the end. -/
theorem optimizer_told_either_way :
    let tool := Descriptor.of .optimizer (some (Utf8.ofText "spirv-opt"))
    let flags := "--target-env\t--target-env -O --target-env"
    let path := Utf8.ofText "/tmp/spirv-playground-Ab3"
    respelled flags = "--target-env=--target-env -O --target-env" ∧
      tool.spec.flagStyle = .joinedTargetEnv ∧
      Command.build tool (respelled flags) path = Command.build tool flags path := by
  intro tool flags path
  have hstyle : tool.spec.flagStyle = .joinedTargetEnv := rfl
  obtain ⟨-, -, -, -, hcommands⟩ := spellings_interchangeable (words flags) flags
  exact ⟨by decide, hstyle, (hcommands path).1 tool hstyle⟩

end ShaderChain.TargetEnv
