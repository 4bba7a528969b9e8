import ShaderChain.Proofs.Pointing
import ShaderChain.Proofs.Scrubbing

/-!
# Nothing but the path is scrubbed

Scrubbing finds the path from the left, wherever it happens to occur. Where the path was put in, one
has to see that it is not found earlier, in a piece of itself at the end of what is before it. There
are two reasons for this:

- a path in one spelling is not found across its own beginning if no end of it is a beginning of it
  (`PlainPath.unbordered`); then it may stand between any texts that do not show it
  (`Scrubber.scrub_intercalate`);
- in a command line the path is quoted, and may begin and end in quotes. There it is known by the
  name of the file, which is in no other word and has no blank (`Marked.not_infix_dropLast`); so the
  words of the file are replaced and nothing else (`Scrubber.scrub_render`).
-/

namespace ShaderChain

/-! ## Paths that are shown as they are -/

/-- A path that needs no quotes, of a file in a directory in whose name the file's does not
occur. -/
structure PlainPath where
  dir : Path
  base : Bytes
  absolute : Path.isAbsolute (dir ++ Path.slash :: base) = true
  no_slash : Path.slash ∉ base
  fresh : ¬ base <:+: dir
  plain : ∀ c ∈ Utf8.lossyChars (dir ++ Path.slash :: base), Shell.isPlain c = true

namespace PlainPath

/-- The path as the operating system takes it. -/
def path (r : PlainPath) : Path :=
  r.dir ++ Path.slash :: r.base

variable (r : PlainPath)

/-- The slash before the name of the file divides the text of the path. -/
theorem lossyChars_path :
    Utf8.lossyChars r.path = Utf8.lossyChars r.dir ++ '/' :: Utf8.lossyChars r.base :=
  Utf8.lossyChars_ascii r.dir r.base (by decide)

theorem lossyChars_ne_nil : Utf8.lossyChars r.path ≠ [] := by
  rw [r.lossyChars_path]
  simp

theorem base_ne_nil : r.base ≠ [] := fun h =>
  r.fresh (h ▸ List.nil_infix)

/-- The directory is seen as it is: a sign for damaged text would have to be quoted. -/
theorem encode_dir : Utf8.encode (Utf8.lossyChars r.dir) = r.dir := by
  refine Utf8.encode_lossyChars fun h => absurd (r.plain Utf8.replacement ?_) (by decide)
  exact r.lossyChars_path ▸ List.mem_append_left _ h

/-- So is the name of the file. -/
theorem encode_base : Utf8.encode (Utf8.lossyChars r.base) = r.base := by
  refine Utf8.encode_lossyChars fun h => absurd (r.plain Utf8.replacement ?_) (by decide)
  exact r.lossyChars_path ▸ List.mem_append_right _ (List.mem_cons_of_mem _ h)

/-- What is fresh in the bytes is fresh in the text. -/
theorem not_infix_dir : ¬ Utf8.lossyChars r.base <:+: Utf8.lossyChars r.dir := fun h =>
  r.fresh (r.encode_base ▸ r.encode_dir ▸ Utf8.infix_encode h)

theorem slash_not_mem_base : '/' ∉ Utf8.lossyChars r.base := by
  intro h
  obtain ⟨before, after, hbase⟩ := List.append_of_mem h
  have hin : Utf8.encode ['/'] <:+: Utf8.encode (Utf8.lossyChars r.base) :=
    Utf8.infix_encode ⟨before, after, by simp [hbase]⟩
  rw [r.encode_base] at hin
  exact r.no_slash (hin.subset (by decide))

/-- Nothing but the whole path is both a beginning and an end of it: a beginning starts with a
slash, so as an end it reaches back before the file's name; and the name occurs only at the end. -/
theorem unbordered : Unbordered (Utf8.lossyChars r.path) := by
  intro part hbegin hend
  have hne : Utf8.lossyChars r.base ≠ [] := fun hnil =>
    r.base_ne_nil (by rw [← r.encode_base, hnil]; rfl)
  by_cases hpart : part = []
  · exact .inl hpart
  have hslash : '/' ∈ part := by
    obtain ⟨rest, hrest⟩ := Path.exists_head r.absolute
    obtain ⟨c, tail, rfl⟩ := List.exists_cons_of_ne_nil hpart
    rw [path, hrest] at hbegin
    exact (List.cons_prefix_cons.mp hbegin).1 ▸ List.mem_cons_self
  rw [r.lossyChars_path] at hend hbegin ⊢
  -- an end of the path that has a slash in it reaches back to the last one
  have hlong : '/' :: Utf8.lossyChars r.base <:+ part := by
    rcases List.suffix_or_suffix_of_suffix hend (List.suffix_append _ _) with hshort | hlong
    · rcases List.suffix_cons_iff.mp hshort with rfl | hinside
      · exact List.suffix_rfl
      · exact absurd (hinside.subset hslash) r.slash_not_mem_base
    · exact hlong
  obtain ⟨front, rfl⟩ := hlong
  obtain ⟨after, hafter⟩ := hbegin
  by_cases hall : after = []
  · rw [hall, List.append_nil] at hafter
    exact .inr hafter
  -- otherwise the name would occur before the last character of the path
  exfalso
  have hin : Utf8.lossyChars r.base <:+:
      Utf8.lossyChars r.dir ++ ['/'] ++ (Utf8.lossyChars r.base).dropLast := by
    have hdrop := congrArg List.dropLast hafter
    rw [List.dropLast_append_of_ne_nil hall, List.dropLast_append_of_ne_nil (List.cons_ne_nil _ _),
      List.dropLast_cons_of_ne_nil hne] at hdrop
    refine ⟨front ++ ['/'], after.dropLast, ?_⟩
    simpa using hdrop
  rcases (unlinked_singleton hne r.slash_not_mem_base).infix_side hin with hdir | hbase
  · exact r.not_infix_dir hdir
  · exact not_infix_dropLast_self hne hbase

end PlainPath

namespace Scrubber

/-- A path that needs no quotes is replaced in its one spelling. -/
theorem scrub_plain (r : PlainPath) (text : String) :
    (ofPath r.path).scrub text = replace (Utf8.lossy r.path) placeholder text := by
  refine scrub_of_plain r.lossyChars_ne_nil ?_ text
  have hplain : (Utf8.lossyChars r.path).all Shell.isPlain = true := List.all_eq_true.mpr r.plain
  simp [Shell.quote, Shell.quoteOf, Utf8.lossy, hplain, r.lossyChars_ne_nil]

/-- **Scrubbing is exact.** Between texts that do not show the path, whatever pieces of it they
begin or end with, every path is replaced and nothing else. So two such paths lead to the same
text. -/
theorem scrub_intercalate (r : PlainPath) {ls : List String}
    (hls : ∀ l ∈ ls, ¬ (Utf8.lossy r.path).toList <:+: l.toList) :
    (ofPath r.path).scrub ((Utf8.lossy r.path).intercalate ls) = placeholder.intercalate ls ∧
    ∀ r' : PlainPath, (∀ l ∈ ls, ¬ (Utf8.lossy r'.path).toList <:+: l.toList) →
      (ofPath r'.path).scrub ((Utf8.lossy r'.path).intercalate ls) =
        (ofPath r.path).scrub ((Utf8.lossy r.path).intercalate ls) := by
  have hexact (r : PlainPath) (hls : ∀ l ∈ ls, ¬ (Utf8.lossy r.path).toList <:+: l.toList) :
      (ofPath r.path).scrub ((Utf8.lossy r.path).intercalate ls) = placeholder.intercalate ls := by
    rw [Utf8.lossy, String.toList_ofList] at hls
    rw [scrub_plain, ← String.toList_inj, toList_replace, String.toList_intercalate,
      String.toList_intercalate, Utf8.lossy, String.toList_ofList]
    refine replaceIn_intercalate r.unbordered r.lossyChars_ne_nil _ fun l hl => ?_
    obtain ⟨text, htext, rfl⟩ := List.mem_map.mp hl
    exact hls text htext
  exact ⟨hexact r hls, fun r' hls' => (hexact r' hls').trans (hexact r hls).symm⟩

/-- Pieces of both paths stay as they are next to the paths themselves. -/
theorem scrub_next_to_pieces :
    let r : PlainPath := ⟨Utf8.ofText "/tmp", Utf8.ofText "spirv-playground-Ab3", by decide +kernel,
      by decide +kernel, by decide +kernel, List.all_eq_true.mp (by decide +kernel)⟩
    let r' : PlainPath := ⟨Utf8.ofText "/var/tmp", Utf8.ofText "spirv-playground-zZ9",
      by decide +kernel, by decide +kernel, by decide +kernel,
      List.all_eq_true.mp (by decide +kernel)⟩
    let ls := ["in /tmp", "/tmp/spirv-playground-Ab", ": error"]
    (ofPath r.path).scrub ((Utf8.lossy r.path).intercalate ls) =
        "in /tmp<source>/tmp/spirv-playground-Ab<source>: error" ∧
      (ofPath r'.path).scrub ((Utf8.lossy r'.path).intercalate ls) =
        (ofPath r.path).scrub ((Utf8.lossy r.path).intercalate ls) := by
  intro r r' ls
  have hls : ∀ l ∈ ls, ¬ (Utf8.lossy r.path).toList <:+: l.toList := by decide +kernel
  have hls' : ∀ l ∈ ls, ¬ (Utf8.lossy r'.path).toList <:+: l.toList := by decide +kernel
  have hexact := scrub_intercalate r hls
  exact ⟨hexact.1.trans (by decide +kernel), hexact.2 r' hls'⟩

end Scrubber

/-! ## Command lines -/

variable {key needle value before : List Char} {words : List (Option (List Char))}

/-- A text that ends, up to a rest, in a key behind a slash, and has the key nowhere else. -/
structure Marked (key needle : List Char) : Prop where
  key_ne_nil : key ≠ []
  split : ∃ front rest, needle = front ++ ['/'] ++ (key ++ rest) ∧ ¬ key <:+: front ∧
    '/' ∉ key ++ rest ∧ ' ' ∉ key ++ rest

namespace Marked

/-- It shows its key. -/
theorem key_occurs (h : Marked key needle) : key <:+: needle := by
  obtain ⟨front, rest, rfl, -⟩ := h.split
  exact ⟨front ++ ['/'], rest, by simp⟩

/-- It is not found in a text that does not show its key. -/
theorem absent (h : Marked key needle) (hbefore : ¬ key <:+: before) : ¬ needle <:+: before :=
  fun hin => hbefore (h.key_occurs.trans hin)

/-- A blank before it, it cannot begin earlier. -/
theorem not_infix_dropLast (h : Marked key needle) (hbefore : ¬ key <:+: before) :
    ¬ needle <:+: before ++ [' '] ++ needle.dropLast := by
  obtain ⟨front, rest, rfl, hfront, hslash, hblank⟩ := h.split
  have hne : key ++ rest ≠ [] := by simp [h.key_ne_nil]
  intro hin
  have hend : key ++ rest <:+: before ++ [' '] ++ (front ++ ['/'] ++ (key ++ rest).dropLast) := by
    rw [← List.dropLast_append_of_ne_nil hne]
    exact (List.suffix_append _ _).isInfix.trans hin
  have hpart {text : List Char} (htext : ¬ key <:+: text) : ¬ key ++ rest <:+: text :=
    fun hin => htext ((List.prefix_append key rest).isInfix.trans hin)
  -- an occurrence of its end would be on one side of the blank, and of the slash
  rcases (unlinked_singleton hne hblank).infix_side hend with hleft | hright
  · exact hpart hbefore hleft
  rcases (unlinked_singleton hne hslash).infix_side hright with hleft | hright
  · exact hpart hfront hleft
  · exact not_infix_dropLast_self hne hright

/-- In a line of words it is replaced where it is one of them, if its key is in no other. -/
theorem replaceIn_line (h : Marked key needle) (value : List Char) (hbefore : ¬ key <:+: before)
    (hwords : ∀ word, some word ∈ words → ¬ key <:+: word) :
    replaceIn needle value (before ++ words.flatMap fun word => ' ' :: word.getD needle) =
      before ++ words.flatMap fun word => ' ' :: word.getD value := by
  have hne : needle ≠ [] := fun hnil =>
    h.key_ne_nil (List.eq_nil_of_infix_nil (hnil ▸ h.key_occurs))
  induction words generalizing before with
  | nil =>
    simp only [List.flatMap_nil, List.append_nil]
    exact (replacement_replaceIn hne value before).eq_of_absent (h.absent hbefore)
  | cons word words ih =>
    have hrest : ∀ word, some word ∈ words → ¬ key <:+: word := fun w hw =>
      hwords w (List.mem_cons_of_mem word hw)
    cases word with
    | none =>
      -- behind an occurrence the rest of the line is scanned as if it stood alone
      have htail := ih (fun hin => h.key_ne_nil (List.eq_nil_of_infix_nil hin)) hrest
      simp only [List.nil_append] at htail
      have hfirst := replaceIn_first hne (h.not_infix_dropLast hbefore) value
        (words.flatMap fun word => ' ' :: word.getD needle)
      rw [htail] at hfirst
      simpa using hfirst
    | some word =>
      have hword : ¬ key <:+: before ++ [' '] ++ word := by
        have hblank : ' ' ∉ key := by
          obtain ⟨front, rest, -, -, -, hblank⟩ := h.split
          exact fun hmem => hblank (List.mem_append_left rest hmem)
        intro hin
        rcases (unlinked_singleton h.key_ne_nil hblank).infix_side hin with hleft | hright
        · exact hbefore hleft
        · exact hwords word List.mem_cons_self hright
      simpa using ih hword hrest

end Marked

/-- A key without a blank is in a line of words only if it is in one of them. -/
theorem absent_line (hne : key ≠ []) (hblank : ' ' ∉ key) (hbefore : ¬ key <:+: before)
    (hvalue : ¬ key <:+: value) (hwords : ∀ word, some word ∈ words → ¬ key <:+: word) :
    ¬ key <:+: before ++ words.flatMap fun word => ' ' :: word.getD value := by
  induction words generalizing before with
  | nil => simpa using hbefore
  | cons word words ih =>
    have hword : ¬ key <:+: word.getD value := by
      cases word with
      | none => exact hvalue
      | some word => exact hwords word List.mem_cons_self
    have hnext : ¬ key <:+: before ++ [' '] ++ word.getD value := fun hin =>
      ((unlinked_singleton hne hblank).infix_side hin).elim hbefore hword
    simpa using ih hnext fun w hw => hwords w (List.mem_cons_of_mem word hw)

/-! ## The path of a scratch file in a command line -/

section

variable {dir random bs : Bytes} {word : List Char}
  (hrandom : random.all (fun b => (Utf8.asciiChar b).isAlphanum) = true)

include hrandom

/-- The name of a scratch file is ASCII, so that it is seen byte for byte. -/
theorem lossyChars_name : Utf8.lossyChars (scratchName ++ random) =
    (scratchName ++ random).map Utf8.asciiChar :=
  Utf8.lossyChars_of_ascii fun _ hb => (ascii_of_mem_name hrandom hb).1

/-- It has no characters but letters, digits and hyphens. -/
theorem not_mem_name {c : Char} (hc : c.isAlphanum = false ∧ c ≠ '-') :
    c ∉ Utf8.lossyChars (scratchName ++ random) := by
  intro hmem
  rw [lossyChars_name hrandom] at hmem
  obtain ⟨b, hb, rfl⟩ := List.mem_map.mp hmem
  rcases (ascii_of_mem_name hrandom hb).2 with h | h
  · rw [hc.1] at h
    cases h
  · exact hc.2 h

theorem length_le_name :
    scratchName.length ≤ (Utf8.lossyChars (scratchName ++ random)).length := by
  simp [lossyChars_name hrandom]

theorem name_ne_nil : Utf8.lossyChars (scratchName ++ random) ≠ [] := by
  have hlen := length_le_name hrandom
  exact List.ne_nil_of_length_pos (Nat.lt_of_lt_of_le (by decide) hlen)

theorem name_absent_of_length (h : word.length < scratchName.length) :
    ¬ Utf8.lossyChars (scratchName ++ random) <:+: word := fun hin =>
  Nat.not_lt.mpr (Nat.le_trans (length_le_name hrandom) hin.length_le) h

/-- If the name does not stand in some bytes, it is not seen in their text. -/
theorem name_absent (h : ¬ scratchName ++ random <:+: bs) :
    ¬ Utf8.lossyChars (scratchName ++ random) <:+: Utf8.lossyChars bs := by
  intro hin
  rw [lossyChars_name hrandom] at hin
  exact h (Utf8.infix_of_infix_lossyChars (fun b hb => (ascii_of_mem_name hrandom hb).1) hin)

/-- To quote a word does not make the name appear in it. -/
theorem name_absent_quoteOf (h : ¬ Utf8.lossyChars (scratchName ++ random) <:+: word) :
    ¬ Utf8.lossyChars (scratchName ++ random) <:+: Shell.quoteOf word := fun hin =>
  h (Shell.infix_of_quoteOf (name_ne_nil hrandom) (not_mem_name hrandom (by decide))
    (not_mem_name hrandom (by decide)) hin)

/-- The quoted spelling of a path has the name of the file at its end and nowhere else. -/
theorem marked_quoteOf (hdir : ¬ scratchName ++ random <:+: dir) :
    Marked (Utf8.lossyChars (scratchName ++ random))
      (Shell.quoteOf (Utf8.lossyChars (dir ++ Path.slash :: (scratchName ++ random)))) where
  key_ne_nil := name_ne_nil hrandom
  split := by
    have hfree := name_absent hrandom hdir
    have hquote := not_mem_name hrandom (c := '\'') (by decide)
    have hslash := not_mem_name hrandom (c := '/') (by decide)
    have hblank := not_mem_name hrandom (c := ' ') (by decide)
    have hroot : Utf8.asciiChar Path.slash = '/' := rfl
    rw [Utf8.lossyChars_ascii dir _ (by decide), hroot]
    have hname := name_ne_nil hrandom
    have hback := not_mem_name hrandom (c := '\\') (by decide)
    generalize Utf8.lossyChars (scratchName ++ random) = name at *
    unfold Shell.quoteOf
    split
    · exact ⟨Utf8.lossyChars dir, [], by simp, hfree, by simpa using hslash, by simpa using hblank⟩
    · have hescape : name.flatMap Shell.escape = name := by
        have hplain : ∀ c ∈ name, Shell.escape c = [c] := by
          intro c hc
          refine if_neg ?_
          rintro rfl
          exact hquote hc
        -- nothing in the name has to be escaped, so the quotes leave it in one piece
        rw [List.flatMap_congr hplain, List.flatMap_singleton']
      refine ⟨'\'' :: (Utf8.lossyChars dir).flatMap Shell.escape, ['\''], ?_, fun hin => ?_, ?_, ?_⟩
      · simp [hescape, Shell.escape]
      · have hinside := Shell.infix_of_not_mem hname hquote hin
        exact hfree (Shell.infix_of_escaped hname hquote hback
          (hinside.trans (List.prefix_append _ _).isInfix))
      · simpa using hslash
      · simpa using hblank

end

/-- A line is its first word, and every other word behind a blank. -/
theorem toList_line (first : String) (rest : List String) :
    (" ".intercalate (first :: rest)).toList =
      first.toList ++ rest.flatMap fun word => ' ' :: word.toList := by
  induction rest generalizing first with
  | nil => simp
  | cons word rest ih =>
    rw [String.intercalate_cons_cons, String.toList_append, String.toList_append, ih]
    simp

/-- The command line of a program, with this spelling of the scratch file. -/
def commandLine (program : String) (arguments : List (Option String)) (file : String) : String :=
  " ".intercalate (Shell.quote program :: arguments.map (·.elim file Shell.quote))

/-- The words of a command line as they are spelled, without the scratch file. -/
def spelledWords (arguments : List (Option String)) : List (Option (List Char)) :=
  arguments.map (·.map fun word => Shell.quoteOf word.toList)

theorem toList_commandLine (program : String) (arguments : List (Option String)) (file : String) :
    (commandLine program arguments file).toList =
      Shell.quoteOf program.toList ++
        (spelledWords arguments).flatMap fun word => ' ' :: word.getD file.toList := by
  rw [commandLine, toList_line, Shell.quote, String.toList_ofList, spelledWords, List.flatMap_map,
    List.flatMap_map]
  refine congrArg _ (List.flatMap_congr fun argument _ => ?_)
  cases argument <;> simp [Shell.quote]

/-- A command is shown as the command line of its arguments. -/
theorem Command.render_eq {cmd : Command} {arguments : List (Option String)} {file : String}
    (h : cmd.args = arguments.map (·.getD file)) :
    cmd.render = commandLine (Utf8.lossy cmd.program) arguments (Shell.quote file) := by
  rw [render, commandLine, h, List.map_cons, List.map_map]
  refine congrArg (fun words => " ".intercalate (_ :: words)) ?_
  refine List.map_congr_left fun argument _ => ?_
  cases argument <;> rfl

/-- A word of the arguments is one of the flags, or names the output. -/
theorem Command.of_mem_arguments {tool : Descriptor} {flags word : String}
    (h : some word ∈ arguments tool flags) :
    word ∈ flagArgs tool.spec.flagStyle flags ∨ word = "-o" := by
  unfold arguments at h
  cases hlayout : tool.spec.layout <;> cases hemission : tool.spec.emission <;>
    simp [hlayout, hemission] at h <;> tauto

namespace Scrubber

variable {path : Path} {text : String}

/-- Where the quoted spelling takes all that shows the path, only the quoted one is replaced. -/
theorem scrub_quoted (hpath : Utf8.lossyChars path ≠ [])
    (habsent : ¬ (Utf8.lossy path).toList <:+:
      (replace (Shell.quote (Utf8.lossy path)) placeholder text).toList) :
    (ofPath path).scrub text = replace (Shell.quote (Utf8.lossy path)) placeholder text := by
  by_cases heq : Shell.quote (Utf8.lossy path) = Utf8.lossy path
  · rw [scrub_of_plain hpath heq, heq]
  · rw [scrub_of_quoted hpath heq, replace_of_absent habsent]

/-- **A reported command line is exact.** Scrubbing the command line of a tool puts the bare
placeholder in the places of the scratch file, and nothing else changes: however the directory has
to be quoted, what is replaced is the file in its own places, if the name of the file is in none of
the other words nor in the name of the directory. -/
theorem scrub_render {tool : Descriptor} {program : Path} (hfound : tool.executable = some program)
    (flags : String) {dir random : Bytes}
    (hrandom : random.all (fun b => (Utf8.asciiChar b).isAlphanum) = true)
    (hdir : ¬ scratchName ++ random <:+: dir) (hprogram : ¬ scratchName ++ random <:+: program)
    (hflags : ∀ flag ∈ Command.flagArgs tool.spec.flagStyle flags,
      ¬ scratchName ++ random <:+: Utf8.ofText flag) :
    let path := dir ++ Path.slash :: (scratchName ++ random)
    ∃ cmd, Command.build tool flags path = .ok cmd ∧
      cmd.args = (Command.arguments tool flags).map (·.getD (Utf8.lossy path)) ∧
      (ofPath path).scrub cmd.render =
        " ".intercalate (Shell.quote (Utf8.lossy program) ::
          (Command.arguments tool flags).map (·.elim placeholder Shell.quote)) := by
  intro path
  refine ⟨_, Command.build_eq hfound flags path, rfl, ?_⟩
  rw [Command.render_eq rfl]
  have hmarked := marked_quoteOf hrandom hdir
  have hfirst : ¬ Utf8.lossyChars (scratchName ++ random) <:+:
      Shell.quoteOf (Utf8.lossy program).toList := by
    rw [Utf8.lossy, String.toList_ofList]
    exact name_absent_quoteOf hrandom (name_absent hrandom hprogram)
  have hwords : ∀ word, some word ∈ spelledWords (Command.arguments tool flags) →
      ¬ Utf8.lossyChars (scratchName ++ random) <:+: word := by
    intro word hword
    obtain ⟨argument, hargument, hspelled⟩ := List.mem_map.mp hword
    obtain ⟨text, rfl, rfl⟩ := Option.map_eq_some_iff.mp hspelled
    refine name_absent_quoteOf hrandom ?_
    rcases Command.of_mem_arguments hargument with hflag | rfl
    · have hfree := name_absent hrandom (hflags text hflag)
      rwa [Utf8.lossyChars_ofText] at hfree
    · exact name_absent_of_length hrandom (by decide)
  have hreplace : replace (Shell.quote (Utf8.lossy path)) placeholder
      (commandLine (Utf8.lossy program) (Command.arguments tool flags)
        (Shell.quote (Utf8.lossy path))) =
      commandLine (Utf8.lossy program) (Command.arguments tool flags) placeholder := by
    have hspelled : (Shell.quote (Utf8.lossy path)).toList =
        Shell.quoteOf (Utf8.lossyChars path) := by
      rw [Shell.quote, Utf8.lossy, String.toList_ofList, String.toList_ofList]
    rw [← String.toList_inj, toList_replace, toList_commandLine, toList_commandLine, hspelled]
    exact hmarked.replaceIn_line _ hfirst hwords
  have hpath : Utf8.lossyChars path =
      Utf8.lossyChars dir ++ ['/'] ++ Utf8.lossyChars (scratchName ++ random) := by
    rw [Utf8.lossyChars_ascii dir _ (by decide), List.append_assoc]
    rfl
  refine (scrub_quoted (by simp [hpath]) fun hin => ?_).trans hreplace
  -- the name of the file, which ends the path, is in none of the words that are left
  rw [hreplace, toList_commandLine, Utf8.lossy, String.toList_ofList, hpath] at hin
  exact absent_line (name_ne_nil hrandom) (not_mem_name hrandom (by decide)) hfirst
    (name_absent_of_length hrandom (by decide)) hwords
    ((List.suffix_append _ _).isInfix.trans hin)

/-- The optimizer in a directory that has to be quoted. -/
theorem scrub_render_of_optimizer :
    let dir := Utf8.ofText "/tmp/it's here"
    let random := Utf8.ofText "Ab3"
    let path := dir ++ Path.slash :: (scratchName ++ random)
    ∃ cmd, Command.build (.of .optimizer (some (Utf8.ofText "/opt/my tools/spirv-opt")))
        "-O --target-env vulkan1.1" path = .ok cmd ∧
      cmd.render = "'/opt/my tools/spirv-opt' -O --target-env=vulkan1.1 " ++
        "'/tmp/it'\\''s here/spirv-playground-Ab3' -o '/tmp/it'\\''s here/spirv-playground-Ab3'" ∧
      (ofPath path).scrub cmd.render =
        "'/opt/my tools/spirv-opt' -O --target-env=vulkan1.1 <source> -o <source>" := by
  intro dir random path
  have hfound : (Descriptor.of .optimizer
      (some (Utf8.ofText "/opt/my tools/spirv-opt"))).executable =
        some (Utf8.ofText "/opt/my tools/spirv-opt") := by
    decide +kernel
  have hrandom : random.all (fun b => (Utf8.asciiChar b).isAlphanum) = true := by decide +kernel
  have hdir : ¬ scratchName ++ random <:+: dir := by decide +kernel
  obtain ⟨cmd, hbuild, -, hscrub⟩ := scrub_render hfound "-O --target-env vulkan1.1" hrandom hdir
    (by decide +kernel) (by decide +kernel)
  refine ⟨cmd, hbuild, ?_, hscrub.trans (by decide +kernel)⟩
  obtain rfl := Except.ok.inj ((Command.build_eq hfound "-O --target-env vulkan1.1" path).symm.trans
    hbuild)
  decide +kernel

end Scrubber

end ShaderChain
