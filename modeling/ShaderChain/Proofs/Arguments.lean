import ShaderChain.Proofs.Joining

/-!
# A command carries its flag string and nothing else

The arguments of a tool are the flags of the flag string and the arguments that name the scratch file,
in the order of the tool's layout (`Command.Assembled`). The flags are the words of the flag string,
so that the flags one after another are the flag string without its blanks; for a tool that wants the
target environment in one word, a `=` stands between the two words of each pair, and nothing else is
different (`Command.Carries`). What separates the words is not seen in the command.
-/

namespace ShaderChain

/-- A text without its blanks. -/
def unblanked (s : String) : String :=
  String.ofList (s.toList.filter fun c => !isBlank c)

namespace Words

variable {cs w : List Char} {ws : List (List Char)}

theorem IsWord.filter_eq (hw : IsWord w) : (w.filter fun c => !isBlank c) = w :=
  List.filter_eq_self.mpr fun c hc => by rw [hw.unbroken c hc]; rfl

/-- Splitting drops the blanks and keeps all other characters in their order. -/
theorem Splits.flatten (h : Splits cs ws) : ws.flatten = cs.filter fun c => !isBlank c := by
  induction h with
  | nil => rfl
  | blank hb _ ih =>
    rw [ih, List.filter_cons, hb]
    rfl
  | last hw => rw [List.flatten_singleton, hw.filter_eq]
  | word hw hb _ ih =>
    rw [List.flatten_cons, ih, List.filter_append, hw.filter_eq, List.filter_cons, hb]
    rfl

/-- The words of a text one after another are the text without its blanks. -/
theorem Splits.join {s : String} {ts : List String}
    (h : Splits s.toList (ts.map String.toList)) : String.join ts = unblanked s := by
  rw [← String.toList_inj, String.toList_join, unblanked, String.toList_ofList, ← h.flatten,
    List.flatMap_def]

end Words

namespace TargetEnv.Part

/-- The text of a part. What stands `between` the two words of a pair is given. -/
def spelled (between : String) : Part → String
  | kept t => t
  | pair v => flag ++ between ++ v

/-- A part that is written as one word has a `=` between the two words of its pair. -/
theorem word_eq (p : Part) : p.word = p.spelled "=" := by
  cases p <;> rfl

/-- The words of a part one after another are the part without a sign between them. -/
theorem join_words (p : Part) : String.join p.words = p.spelled "" := by
  cases p <;> simp [words, spelled]

theorem join_flatMap_words (ps : List Part) :
    String.join (ps.flatMap words) = String.join (ps.map (spelled "")) := by
  induction ps with
  | nil => rfl
  | cons p ps ih =>
    rw [List.flatMap_cons, String.join_append, ih, join_words, List.map_cons, String.join_cons]

end TargetEnv.Part

namespace Command

open TargetEnv (Part)

variable {tool : Descriptor} {flags : String} {path : Path} {cmd : Command}

/-- The flags of a tool carry a flag string. -/
inductive Carries (flags : String) : FlagStyle → List String → Prop
  /-- They are its words. -/
  | verbatim {own : List String} (hwords : Words.Splits flags.toList (own.map String.toList))
    (htext : String.join own = unblanked flags) : Carries flags .verbatim own
  /-- They are its words, but for the `=` in each pair of the flag and the word after it. -/
  | joined {parts : List Part}
    (hwords : Words.Splits flags.toList ((parts.flatMap Part.words).map String.toList))
    (hlast : .kept "--target-env" ∉ parts.dropLast)
    (htext : String.join (parts.map (Part.spelled "")) = unblanked flags) :
    Carries flags .joinedTargetEnv (parts.map (Part.spelled "="))

/-- The flags that a tool is given carry the flag string, in either style. -/
theorem carries_flagArgs (style : FlagStyle) (flags : String) :
    Carries flags style (flagArgs style flags) := by
  have hwords := splits_words flags
  cases style with
  | verbatim => exact .verbatim hwords hwords.join
  | joinedTargetEnv =>
    -- the flag as the last word of all has no value, so it stays a word of its own
    obtain ⟨parts, hparts, hlast⟩ := TargetEnv.exists_parts (words flags)
    have hown : flagArgs .joinedTargetEnv flags = parts.map (Part.spelled "=") := by
      rw [flagArgs, hparts, TargetEnv.join_parts hlast]
      exact List.map_congr_left fun p _ => p.word_eq
    rw [hparts] at hwords
    rw [hown]
    refine .joined hwords hlast ?_
    rw [← Part.join_flatMap_words, hwords.join]

theorem isWord_of_mem_flagArgs {style : FlagStyle} {w : String} (h : w ∈ flagArgs style flags) :
    Words.IsWord w.toList := by
  cases style with
  | verbatim => exact isWord_of_mem_words h
  | joinedTargetEnv => exact TargetEnv.isWord_of_mem_join (fun _ ht => isWord_of_mem_words ht) w h

/-- The arguments that name the scratch file by its text: as the input, and as the output if it is
written. -/
def pathArgs (cmd : Command) (path : Path) : List String :=
  if cmd.writesFile then [Utf8.lossy path, "-o", Utf8.lossy path] else [Utf8.lossy path]

/-- How a command is put together from the flags of its own and the path of the scratch file. -/
structure Assembled (tool : Descriptor) (flags : String) (path : Path) (own : List String)
    (cmd : Command) : Prop where
  tool_eq : cmd.tool = tool.spec.name
  program : tool.executable = some cmd.program
  carries : Carries flags tool.spec.flagStyle own
  isWord : ∀ w ∈ own, w ≠ "" ∧ ∀ c ∈ w.toList, isBlank c = false
  writesFile : cmd.writesFile = true ↔ tool.spec.emission = .scratchFile
  args : cmd.args = match tool.spec.layout with
    | .standard => own ++ cmd.pathArgs path
    | .scratchFirst => cmd.pathArgs path ++ own

/-- A command that is built is put together so. -/
theorem assembled_of_build (h : build tool flags path = .ok cmd) :
    Assembled tool flags path (flagArgs tool.spec.flagStyle flags) cmd := by
  unfold build at h
  cases hexe : tool.executable with
  | none =>
    rw [hexe] at h
    cases h
  | some program =>
    rw [hexe] at h
    obtain rfl := Except.ok.inj h
    refine ⟨rfl, hexe, carries_flagArgs tool.spec.flagStyle flags, fun w hw => ?_, ?_, ?_⟩
    · have hword := isWord_of_mem_flagArgs hw
      exact ⟨fun hempty => hword.ne_nil (congrArg String.toList hempty), hword.unbroken⟩
    · unfold writesFile targetOf
      cases tool.spec.emission <;> simp
    · unfold pathArgs fileArgs writesFile targetOf
      cases tool.spec.layout <;> cases tool.spec.emission <;> rfl

/-- There is no command only for a tool that was not found. -/
theorem build_eq_error_iff {e : LookupError} :
    build tool flags path = .error e ↔ tool.executable = none ∧ e = .unavailable := by
  unfold build
  cases tool.executable with
  | none => simp [eq_comm]
  | some program => simp

/-- **A command loses, adds and reorders nothing.** A tool has no command exactly if it was not found.
Otherwise the arguments are the flags that carry the flag string, and the scratch file as input and, if
the command writes it, as output; the layout of the tool says which of the two come first. Every flag
is a word. Flag strings with the same words give the same command. -/
theorem build_keeps_flags (tool : Descriptor) (flags : String) (path : Path) :
    (∀ e, build tool flags path = .error e ↔ tool.executable = none ∧ e = .unavailable) ∧
      (tool.executable ≠ none →
        ∃ own cmd, build tool flags path = .ok cmd ∧ Assembled tool flags path own cmd) ∧
      ∀ flags' ts, Words.Splits flags.toList ts → Words.Splits flags'.toList ts →
        build tool flags' path = build tool flags path := by
  refine ⟨fun e => build_eq_error_iff, fun hfound => ?_, fun flags' ts hflags hflags' => ?_⟩
  · cases hbuild : build tool flags path with
    | error e => exact absurd (build_eq_error_iff.mp hbuild).1 hfound
    | ok cmd => exact ⟨_, cmd, rfl, assembled_of_build hbuild⟩
  · have hwords : words flags' = words flags := by
      rw [words, words, wordsOf_eq_of_splits hflags, wordsOf_eq_of_splits hflags']
    refine TargetEnv.build_congr ?_ path
    unfold flagArgs
    rw [hwords]

/-- The optimizer, whose flags stand in front: a pair with two blanks in it, and the flag without a
value. -/
theorem optimizer_keeps_flags :
    let tool : Descriptor := .of .optimizer (some (Utf8.ofText "opt"))
    let path := Utf8.ofText "/tmp/a"
    let flags := "-O --target-env \u2003spv1.6\t--target-env"
    ∃ own cmd, build tool flags path = .ok cmd ∧ Assembled tool flags path own cmd ∧
      cmd.args = ["-O", "--target-env=spv1.6", "--target-env", "/tmp/a", "-o", "/tmp/a"] ∧
      build tool "-O --target-env spv1.6 --target-env" path = .ok cmd := by
  intro tool path flags
  have hfound : tool.executable ≠ none := nofun
  obtain ⟨-, hbuilt, hsame⟩ := build_keeps_flags tool flags path
  obtain ⟨own, cmd, hbuild, hassembled⟩ := hbuilt hfound
  have hargs : cmd.args =
      ["-O", "--target-env=spv1.6", "--target-env", "/tmp/a", "-o", "/tmp/a"] := by
    rw [← Except.ok.inj hbuild]
    decide +kernel
  have hsplits := splits_words flags
  refine ⟨own, cmd, hbuild, hassembled, hargs, ?_⟩
  rw [hsame "-O --target-env spv1.6 --target-env" _ hsplits, hbuild]
  -- the blanks between the words are all that is different
  have hwords : words "-O --target-env spv1.6 --target-env" = words flags := by
    decide +kernel
  rw [← hwords]
  exact splits_words _

end Command

end ShaderChain
