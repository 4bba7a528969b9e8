import ShaderChain.Proofs.Composition
import ShaderChain.Proofs.Damage

/-!
# Text on its way from tool to tool

A tool prints bytes, a run makes a text of them (`Command.Shows`), and the next tool finds the bytes
of that text, which are staged for it (`Chain.run_runStages_cons`). What is damaged on this way is
damaged once: the bytes of a text are read as that text, so stages that only pass on what they are
given give back their text (`Chain.outcome_of_echoes`), and what is read of well-formed bytes does
not depend on what comes after them. `Chain.restaging_keeps_text` says what becomes of any bytes
that a tool prints.
-/

namespace ShaderChain

/-- What a run of the command makes of the bytes that its process prints: its result, if the process
succeeds, and what it reports of either stream, if not. -/
structure Command.Shows (cmd : Command) (printed : Bytes) (text : String) : Prop where
  result : ∀ stderr, (Ending.exited true printed stderr).result cmd = .ok text
  stdout : ∀ stderr, ∃ f, (Ending.exited false printed stderr).result cmd = .error f ∧
    f.stdout = text
  stderr : ∀ stdout, ∃ f, (Ending.exited false stdout printed).result cmd = .error f ∧
    f.stderr = text

/-- The text of printed bytes is the same in a result and in both streams of a report. -/
theorem Command.shows_lossy (cmd : Command) (printed : Bytes) :
    cmd.Shows printed (Utf8.lossy printed) where
  result _ := rfl
  stdout _ := ⟨_, rfl, rfl⟩
  stderr _ := ⟨_, rfl, rfl⟩

/-! ## Stages that echo -/

/-- Commands of which the last one prints the file that it finds. Those before it succeed, and leave
the file as it is. -/
inductive Echoing (tools : Tools) (limit : Option Span) :
    List (Except ChainError Command) → Prop where
  | last {cmd : Command}
      (prints : ∀ contents, ∃ stderr after,
        tools cmd.program cmd.args limit (some (.file contents)) =
          (.exited true contents stderr, after)) :
      Echoing tools limit [.ok cmd]
  | before {cmd : Command} {rest : List (Except ChainError Command)}
      (keeps : ∀ contents, ∃ stdout stderr,
        tools cmd.program cmd.args limit (some (.file contents)) =
          (.exited true stdout stderr, some (.file contents)))
      (next : Echoing tools limit rest) : Echoing tools limit (.ok cmd :: rest)

namespace Chain

variable {c : Chain} {tools : Tools} {path : Path} {text : String} {s : Store}

/-- A stage that results in a text of its processes, and whose processes print what was staged. -/
structure Echoes (c : Chain) (tools : Tools) (path : Path) (stage : PlannedStage) : Prop where
  commands : Echoing tools c.limit (c.commands path stage)
  output : stage.tool.spec.output ≠ .status

/-- Commands that echo give back what was staged. -/
theorem run_launchAll_of_echoing {commands : List (Except ChainError Command)}
    (h : Echoing tools c.limit commands) (last : String)
    (hs : s path = some (.file (Utf8.ofText text))) :
    ((c.launchAll path last commands).run.run (Store.machine tools (.ok path)) s).1 =
      .ok text := by
  induction h generalizing last s with
  | @last cmd prints =>
    obtain ⟨stderr, after, hprints⟩ := prints (Utf8.ofText text)
    rw [run_launchAll_cons, Job.run_andThen, run_launch, hs, hprints, (cmd.shows_lossy _).result,
      Utf8.lossy_ofText]
    rfl
  | @before cmd rest keeps next ih =>
    obtain ⟨stdout, stderr, hkeeps⟩ := keeps (Utf8.ofText text)
    -- the file is as it was before, so the next command finds it in place
    rw [run_launchAll_cons, Job.run_andThen, run_launch, hs, hkeeps, (cmd.shows_lossy _).result,
      ← hs, Function.update_eq_self]
    exact ih _ hs

theorem Echoes.textOf_eq {stage : PlannedStage} (h : c.Echoes tools path stage) (text : String) :
    c.textOf tools path text stage = .ok text := by
  have hfile : Store.single path (Utf8.ofText text) path = some (.file (Utf8.ofText text)) :=
    Function.update_self ..
  rw [textOf, Attempt.over, runStage_eq, ExceptT.run_map, Job.run_map,
    run_launchAll_of_echoing h.commands "" hfile]
  show Except.ok (outputOf stage text) = _
  rw [outputOf, if_neg h.output]

/-- Stages that echo give back their text. -/
theorem outcome_of_echoes {plan : List PlannedStage}
    (h : ∀ stage ∈ plan, c.Echoes tools path stage) (text : String) :
    c.outcome tools path text plan = .ok text := by
  induction plan with
  | nil => rfl
  | cons stage rest ih =>
    obtain ⟨hstage, hrest⟩ := List.forall_mem_cons.mp h
    rw [outcome, List.foldlM_cons, hstage.textOf_eq]
    exact ih hrest

/-- **Text survives decoding and restaging.** A run makes a text of the bytes that a tool prints.
What is staged of the text are these bytes, exactly if they are well-formed. Every run makes the same
text again of what is staged, so stages that echo, behind any stages that result in the text, result
in it too, as long as nothing gets in the way of the scratch file. Well-formed bytes in front of the
printed ones are read as they are, and change nothing of what follows them. The printed bytes read
in one way only; their text has a sign for each maximal invalid subpart, and the characters that
are there for the rest. -/
theorem restaging_keeps_text (cmd : Command) (printed : Bytes) :
    ∃ text, cmd.Shows printed text ∧
      (Utf8.ofText text = printed ↔ Utf8.WellFormed printed) ∧
      (∀ next : Command, next.Shows (Utf8.ofText text) text) ∧
      (∀ (c : Chain) (tools : Tools) (path : Path) (s : Store) (source : String)
        (done echoes : List PlannedStage), tools.Tidy → s.Writable path →
        (∀ stage ∈ echoes, c.Echoes tools path stage) →
        ((c.runStages path source done).run.run (Store.machine tools (.ok path)) s).1 =
          .ok text →
        ((c.runStages path source (done ++ echoes)).run.run
          (Store.machine tools (.ok path)) s).1 = .ok text) ∧
      (∀ before, Utf8.WellFormed before →
        ∃ intact, Utf8.ofText intact = before ∧ cmd.Shows (before ++ printed) (intact ++ text)) ∧
      ∃ reading, (∀ cs, Utf8.Reads printed cs ↔ cs = reading) ∧
        text.toList = reading.map (·.getD Utf8.replacement) := by
  refine ⟨Utf8.lossy printed, cmd.shows_lossy printed, ?_, fun next => ?_, ?_, ?_, ?_⟩
  · rw [Utf8.ofText_lossy_eq_iff, Utf8.isSome_text?_iff]
  · have hshows := next.shows_lossy (Utf8.ofText (Utf8.lossy printed))
    rwa [Utf8.lossy_ofText] at hshows
  · intro c tools path s source done echoes htidy hs hechoes hdone
    rw [run_runStages htidy c done source hs] at hdone
    rw [run_runStages htidy c (done ++ echoes) source hs, outcome_append, hdone]
    exact outcome_of_echoes hechoes (Utf8.lossy printed)
  · intro before hbefore
    -- well-formed bytes are a text, and this is what is read of them
    obtain ⟨intact, hintact⟩ := Option.isSome_iff_exists.mp (Utf8.isSome_text?_iff.mpr hbefore)
    obtain rfl := Utf8.text?_eq_some_iff.mp hintact
    refine ⟨intact, rfl, ?_⟩
    rw [← Utf8.lossy_ofText_append]
    exact cmd.shows_lossy _
  · refine ⟨Utf8.decode printed, fun cs => Utf8.reads_iff.trans eq_comm, ?_⟩
    rw [Utf8.lossy, String.toList_ofList, Utf8.lossyChars]

/-- A compiler that breaks off within a character, and an optimizer that echoes, twice. One sign for
damaged text is seen from the first stage to the last. -/
theorem broken_character_restaged :
    let printed : Bytes := [0x61, 0xE2, 0x82]
    let tools : Tools := fun program args limit entry =>
      if program = Utf8.ofText "/bin/dxc" then (.exited true printed [], entry)
      else Tools.echo program args limit entry
    let path : Path := Utf8.ofText "/tmp/a"
    let compiler : PlannedStage := ⟨.of .dxc (some (Utf8.ofText "/bin/dxc")), "-spirv"⟩
    let optimizer : PlannedStage := ⟨.of .optimizer (some (Utf8.ofText "/bin/spirv-opt")), "-O"⟩
    ¬ Utf8.WellFormed printed ∧
      ((Chain.complete.runStages path "text" ([compiler] ++ [optimizer, optimizer])).run.run
        (Store.machine tools (.ok path)) fun _ => none).1 = .ok "a\uFFFD" := by
  intro printed tools path compiler optimizer
  let cmd : Command := { tool := "dxc", program := path, args := [], output := .stdout }
  have htidy : tools.Tidy := by
    intro program args limit entry hentry
    show (if _ then _ else _ : Ending × Option Entry).2 ≠ _
    split
    · exact hentry
    · rcases entry with _ | contents | _ <;> exact hentry
  have hwritable : Store.Writable path fun _ => none := fun h => nomatch h
  have hkeeps (program : Path) (args : List String) (contents : Bytes)
      (hprogram : program ≠ Utf8.ofText "/bin/dxc") :
      tools program args none (some (.file contents)) =
        (.exited true contents [], some (.file contents)) :=
    if_neg hprogram
  have hechoes : Chain.complete.Echoes tools path optimizer := by
    refine ⟨?_, by decide⟩
    refine .before (fun contents => ⟨_, _, hkeeps _ _ contents ?_⟩) (.before
      (fun contents => ⟨_, _, hkeeps _ _ contents ?_⟩) (.last
      fun contents => ⟨_, _, hkeeps _ _ contents ?_⟩))
    all_goals decide +kernel
  obtain ⟨text, hshows, hsame, -, hrun, -⟩ := restaging_keeps_text cmd printed
  have htext : text = "a\uFFFD" := by
    rw [← Except.ok.inj (hshows.result [])]
    decide +kernel
  subst htext
  refine ⟨fun hwell => absurd (hsame.mpr hwell) (by decide +kernel), ?_⟩
  exact hrun Chain.complete tools path _ "text" [compiler] [optimizer, optimizer] htidy hwritable
    (by simpa using hechoes) (by decide +kernel)

end Chain

end ShaderChain
