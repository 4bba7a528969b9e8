import ShaderChain.Proofs.Arguments
import ShaderChain.Proofs.Listing
import ShaderChain.Proofs.Planning
import ShaderChain.Proofs.Pointing
import ShaderChain.Proofs.Progress

/-!
# What reaches the tools that the service runs itself

Besides the tools that a client asks for, the service runs tools of its own choice: the assembler and
the disassembler around the stages of a chain, and all four tools of a validation. What these are told
is fixed but for a target environment, which is one word (`Chain.Told`). It is taken out of the text of
a client, written down as a flag string, and taken apart into words again for each of the tools, in
the tool's own spelling; that it arrives as it was is `TargetEnv.value?_spaced`, and the rest of
the text is gone.

`invokes_commandNamed` says so of one command. The commands of a run are lists of them, and whatever a
run launches are the first of these (`Played.keepsTo`).
-/

namespace ShaderChain

variable {σ α : Type}

/-! ## Invocations -/

/-- The name of a tool and the arguments that it is given. -/
abbrev Invocation := String × List String

/-- The invocation of a command. -/
def Command.invocation (cmd : Command) : Invocation :=
  (cmd.tool, cmd.args)

/-- The invocations of the processes of a record, in the order of their launches. -/
def invocations (record : List (Event σ)) : List Invocation :=
  (launches record).map fun l => l.cmd.invocation

/-- A command is this invocation, if it can be built. -/
def Invokes (command : Except ChainError Command) (told : Invocation) : Prop :=
  ∀ cmd, command = .ok cmd → cmd.invocation = told

/-- Whether a job did what it was asked for. -/
def Payload.succeeded : Payload → Bool
  | .compilation r => r.success
  | .disassembly r => r.success
  | .validation r => r.success

/-- The processes of a run are the first of these invocations, in order and each once, and all of
them if the run succeeds. -/
def KeepsTo (told : List Invocation) (record : List (Event σ)) (success : Bool) : Prop :=
  invocations record <+: told ∧ (success = true → invocations record = told)

/-- Of a record only its processes matter. -/
theorem KeepsTo.of_launches {told : List Invocation} {record record' : List (Event σ)}
    {success : Bool} (h : KeepsTo told record success)
    (hlaunches : launches record' = launches record) : KeepsTo told record' success := by
  unfold KeepsTo invocations at h ⊢
  rwa [hlaunches]

/-- Processes that were launched for the first of some commands have the first of their invocations.
-/
theorem invocations_initial {processes : List (Launch σ)}
    {commands : List (Except ChainError Command)} {told : List Invocation}
    (htold : List.Forall₂ Invokes commands told)
    (hlaunched : processes.map Launch.command <+: commands) :
    (processes.map fun l => l.cmd.invocation) <+: told := by
  induction processes generalizing commands told with
  | nil => exact List.nil_prefix
  | cons l processes ih =>
    cases htold with
    | nil => cases List.prefix_nil.mp hlaunched
    | cons hfirst hrest =>
      obtain ⟨hl, hlaunched⟩ := List.cons_prefix_cons.mp hlaunched
      exact List.cons_prefix_cons.mpr ⟨hfirst l.cmd hl.symm, ih hrest hlaunched⟩

/-- A run of commands keeps to what the commands are. -/
theorem Played.keepsTo {commands : List (Except ChainError Command)} {told : List Invocation}
    {record : List (Event σ)} {outcome : Except ChainError α}
    (h : Played commands record outcome) (htold : List.Forall₂ Invokes commands told) :
    KeepsTo told record outcome.isOk := by
  have hinitial := invocations_initial htold h.launched_initial
  refine ⟨hinitial, fun hok => ?_⟩
  cases outcome with
  | error e => cases hok
  | ok a =>
    -- a prefix of the same length is the whole list
    refine hinitial.eq_of_length ?_
    have hlaunched : launchedCommands record = commands := Completed.launched h
    rw [← htold.length_eq, ← hlaunched, launchedCommands, List.length_map, List.length_map]

/-! ## Commands of the service's own choice -/

/-- The arguments of the assembler, for a target environment or for none. -/
def assembling (file : String) : Option String → List String
  | none => [file, "-o", file]
  | some env => [file, "-o", file, "--target-env", env]

/-- The arguments of the validator. -/
def validating (file : String) : Option String → List String
  | none => [file]
  | some env => ["--target-env", env, file]

/-- The arguments of the optimizer. -/
def optimizing (file : String) : Option String → List String
  | none => [file, "-o", file]
  | some env => ["--target-env=" ++ env, file, "-o", file]

/-- The arguments of a tool on the file at `path`. -/
def argumentsAt (path : Path) (tool : Descriptor) (flags : String) : List String :=
  (Command.arguments tool flags).map fun argument => argument.getD (Utf8.lossy path)

/-- A command that is built is the invocation of its tool, with the text of the path for the file.
-/
theorem invocation_of_build {tool : Descriptor} {flags : String} {path : Path} {cmd : Command}
    (h : Command.build tool flags path = .ok cmd) :
    cmd.invocation = (tool.name, argumentsAt path tool flags) := by
  rw [Command.build_eq (Command.executable_of_build h)] at h
  rw [← Except.ok.inj h]
  rfl

/-- The flags of a tool, for a target environment that is one word. -/
theorem flagArgs_spaced {env : Option String} (henv : ∀ v ∈ env, Words.IsWord v.toList)
    (style : FlagStyle) : Command.flagArgs style (TargetEnv.spaced env) =
      match style, env with
      | _, none => []
      | .verbatim, some v => ["--target-env", v]
      | .joinedTargetEnv, some v => ["--target-env=" ++ v] := by
  cases env with
  | none => cases style <;> rfl
  | some v =>
    have hwords := TargetEnv.words_spaced (henv v rfl)
    cases style with
    | verbatim => exact hwords
    | joinedTargetEnv =>
      rw [Command.flagArgs, hwords]
      rfl

namespace Chain

variable {c : Chain} {path : Path}

/-- The invocations of a stage on the file at `path`. -/
def stageInvocations (path : Path) (stage : PlannedStage) : List Invocation :=
  (if stage.tool.spec.input = .spirv then
    [("spirv-as", assembling (Utf8.lossy path) (TargetEnv.value? stage.flags))] else []) ++
  [(stage.tool.name, argumentsAt path stage.tool stage.flags)] ++
  (if stage.tool.spec.emission = .scratchFile then [("spirv-dis", [Utf8.lossy path])] else [])

/-- The invocations of a validation on the file at `path`. -/
def validationInvocations (path : Path) (env : Option String) : List Invocation :=
  [ ("spirv-as", assembling (Utf8.lossy path) env),
    ("spirv-val", validating (Utf8.lossy path) env),
    ("spirv-opt", optimizing (Utf8.lossy path) env),
    ("spirv-dis", [Utf8.lossy path]) ]

/-- The first word of what was asked for. -/
def firstWord (asked : Option String) : Option String :=
  asked.bind fun e => (words e).head?

/-- The first word of what was asked for is a word. -/
theorem isWord_of_firstWord (asked : Option String) :
    ∀ v ∈ firstWord asked, Words.IsWord v.toList := by
  intro v hv
  obtain ⟨e, -, hhead⟩ := Option.bind_eq_some_iff.mp hv
  exact isWord_of_mem_words (List.mem_of_head? hhead)

/-- Which target environment is asked for: none, or the first word. -/
inductive Asks : Option String → Option String → Prop
  | absent : Asks none none
  | blank {e : String} (h : ∀ c ∈ e.toList, isBlank c = true) : Asks (some e) none
  | first {e v : String} {rest : List (List Char)} (h : Words.Splits e.toList (v.toList :: rest)) :
    Asks (some e) (some v)

/-- What is asked for is the first word, if there is one. -/
theorem asks_firstWord (asked : Option String) : Asks asked (firstWord asked) := by
  cases asked with
  | none => exact .absent
  | some e =>
    have hsplits := splits_words e
    show Asks (some e) (words e).head?
    cases hwords : words e with
    | nil =>
      rw [hwords] at hsplits
      have hnone := List.filter_eq_nil_iff.mp hsplits.flatten.symm
      exact .blank fun c hc => by simpa using hnone c hc
    | cons v rest =>
      rw [hwords] at hsplits
      exact .first hsplits

/-- What the tools of a job are told, on the scratch file at `path`. -/
inductive Told (c : Chain) (path : Path) : Inquiry → List Invocation → Prop
  /-- Each stage of the plan has the flags of the request. None of its tools is the assembler or the
  disassembler, and the target environment that its flags name is one word. -/
  | compile {request : Request} {plan : List PlannedStage}
    (hplan : c.registry.plan request = .ok plan)
    (hflags : request.stages.Forall₂ c.registry.Plans plan)
    (hown : ∀ stage ∈ plan, stage.tool.name ≠ "spirv-as" ∧ stage.tool.name ≠ "spirv-dis")
    (hvalue : ∀ stage ∈ plan, ∀ v, TargetEnv.value? stage.flags = some v →
      v ≠ "" ∧ ∀ c ∈ v.toList, isBlank c = false) :
    Told c path (.compile request) (plan.flatMap (stageInvocations path))
  | disassemble {binary : Bytes} :
    Told c path (.disassemble binary) [("spirv-dis", [Utf8.lossy path])]
  | validate {spirv : String} {asked env : Option String} (h : Asks asked env) :
    Told c path (.validate spirv asked) (validationInvocations path env)

theorem success_compilationOf (path : Path) (outcome : Except ChainError String) :
    (compilationOf path outcome).success = outcome.isOk := by
  cases outcome <;> rfl

theorem success_disassemblyOf (path : Path) (outcome : Except ChainError String) :
    (disassemblyOf path outcome).success = outcome.isOk := by
  cases outcome <;> rfl

theorem success_validationOf (path : Path) (completed : Nat)
    (outcome : Except ChainError String) :
    (validationOf path completed outcome).success = outcome.isOk := by
  cases outcome <;> rfl

/-- The command of a tool is its invocation on the file. -/
theorem invokes_commandOf (path : Path) (tool : Descriptor) (flags : String) :
    Invokes (commandOf path tool flags) (tool.name, argumentsAt path tool flags) := by
  intro cmd hcmd
  unfold commandOf at hcmd
  cases hbuild : Command.build tool flags path with
  | error e =>
    rw [hbuild] at hcmd
    cases hcmd
  | ok built =>
    rw [hbuild] at hcmd
    obtain rfl := Except.ok.inj hcmd
    exact invocation_of_build hbuild

/-- A known name stands for the tool that the catalogue has under it, whatever the registry. -/
theorem invokes_commandNamed (hknown : ∀ tool ∈ c.registry.tools, tool.spec ∈ catalog)
    {spec : Spec} (hspec : spec ∈ catalog) {flags : String} {args : List String}
    (hargs : ∀ tool : Descriptor, tool.spec = spec → argumentsAt path tool flags = args) :
    Invokes (c.commandNamed path spec.name flags) (spec.name, args) := by
  intro cmd hcmd
  unfold commandNamed at hcmd
  cases htool : c.registry.runnable spec.name with
  | error e =>
    rw [htool] at hcmd
    cases hcmd
  | ok tool =>
    rw [htool] at hcmd
    have hsame := Registry.spec_of_runnable hknown hspec htool
    rw [invokes_commandOf path tool flags cmd hcmd, hargs tool hsame, Descriptor.name, hsame]

section Known

variable (hknown : ∀ tool ∈ c.registry.tools, tool.spec ∈ catalog) {env : Option String}
include hknown

theorem invokes_assembler (henv : ∀ v ∈ env, Words.IsWord v.toList) :
    Invokes (c.commandNamed path Spec.assemblerName (TargetEnv.spaced env))
      ("spirv-as", assembling (Utf8.lossy path) env) := by
  have hspec : Spec.assembler ∈ catalog := by decide
  refine invokes_commandNamed hknown hspec fun tool htool => ?_
  rw [argumentsAt, Command.arguments, htool, flagArgs_spaced henv]
  cases env <;> rfl

theorem invokes_validator (henv : ∀ v ∈ env, Words.IsWord v.toList) :
    Invokes (c.commandNamed path Spec.validatorName (TargetEnv.spaced env))
      ("spirv-val", validating (Utf8.lossy path) env) := by
  have hspec : Spec.validator ∈ catalog := by decide
  refine invokes_commandNamed hknown hspec fun tool htool => ?_
  rw [argumentsAt, Command.arguments, htool, flagArgs_spaced henv]
  cases env <;> rfl

theorem invokes_optimizer (henv : ∀ v ∈ env, Words.IsWord v.toList) :
    Invokes (c.commandNamed path Spec.optimizerName (TargetEnv.spaced env))
      ("spirv-opt", optimizing (Utf8.lossy path) env) := by
  have hspec : Spec.optimizer ∈ catalog := by decide
  refine invokes_commandNamed hknown hspec fun tool htool => ?_
  rw [argumentsAt, Command.arguments, htool, flagArgs_spaced henv]
  cases env <;> rfl

theorem invokes_disassembler :
    Invokes (c.commandNamed path Spec.disassemblerName "") ("spirv-dis", [Utf8.lossy path]) := by
  have hspec : Spec.disassembler ∈ catalog := by decide
  refine invokes_commandNamed hknown hspec fun tool htool => ?_
  rw [argumentsAt, Command.arguments, htool]
  rfl

/-! ## What each job tells its tools -/

/-- The commands of a stage, on the file at `path`. -/
theorem invokes_stage (path : Path) (stage : PlannedStage) :
    List.Forall₂ Invokes (c.commands path stage) (stageInvocations path stage) := by
  have hassembler : Invokes
      (c.commandNamed path Spec.assemblerName (TargetEnv.extract stage.flags))
      ("spirv-as", assembling (Utf8.lossy path) (TargetEnv.value? stage.flags)) :=
    invokes_assembler hknown fun v hv => TargetEnv.isWord_of_value? hv
  have hdisassembler : Invokes (c.commandNamed path Spec.disassemblerName "")
      ("spirv-dis", [Utf8.lossy path]) := invokes_disassembler hknown
  unfold commands stageInvocations
  refine List.rel_append (List.rel_append ?_ ?_) ?_
  · by_cases hin : stage.tool.spec.input = .spirv
    · rw [if_pos hin, if_pos hin]
      exact .cons hassembler .nil
    · rw [if_neg hin, if_neg hin]
      exact .nil
  · exact .cons (invokes_commandOf path stage.tool stage.flags) .nil
  · by_cases hout : stage.tool.spec.emission = .scratchFile
    · rw [if_pos hout, if_pos hout]
      exact .cons hdisassembler .nil
    · rw [if_neg hout, if_neg hout]
      exact .nil

/-- The commands of a plan are those of its stages, one stage after another. -/
theorem invokes_plan (path : Path) (plan : List PlannedStage) :
    List.Forall₂ Invokes (c.expected path plan) (plan.flatMap (stageInvocations path)) := by
  induction plan with
  | nil => exact .nil
  | cons stage rest ih => exact List.rel_append (invokes_stage hknown path stage) ih

/-- All four tools of a validation are told the same first word. -/
theorem invokes_validation (path : Path) (asked : Option String) :
    List.Forall₂ Invokes (c.validationCommands path (targetFlags asked))
      (validationInvocations path (firstWord asked)) := by
  have henv := isWord_of_firstWord asked
  -- the word is written as a flag string and taken out of it again, and is still the same
  have hextract : TargetEnv.extract (targetFlags asked) = TargetEnv.spaced (firstWord asked) :=
    congrArg TargetEnv.spaced (TargetEnv.value?_spaced henv)
  unfold validationCommands
  rw [hextract]
  exact .cons (invokes_assembler hknown henv) (.cons (invokes_validator hknown henv)
    (.cons (invokes_optimizer hknown henv) (.cons (invokes_disassembler hknown) .nil)))

/-- No stage of a plan is one of the tools that only the service runs. -/
theorem own_tools {request : Request} {plan : List PlannedStage}
    (hplan : c.registry.plan request = .ok plan) : ∀ stage ∈ plan,
      stage.tool.name ≠ "spirv-as" ∧ stage.tool.name ≠ "spirv-dis" := by
  -- only tools that are offered are planned, and these two are not
  have hnames : ∀ spec ∈ catalog, spec.offered = true →
      spec.name ≠ "spirv-as" ∧ spec.name ≠ "spirv-dis" := by decide
  intro stage hstage
  obtain ⟨hlookup, hoffered, -⟩ :=
    Registry.selectable_eq_ok_iff.mp (Registry.planAfter_selectable hplan stage hstage)
  exact hnames _ (hknown _ (List.mem_of_find?_eq_some hlookup)) hoffered

/-! ## The three jobs -/

/-- A chain keeps to the invocations of its plan. -/
theorem compile_keepsTo {request : Request} {m : Machine σ} {s : σ}
    (h : scratchOf ((c.compile request).record m s) = some path) :
    ∃ told, c.Told path (.compile request) told ∧
      KeepsTo told ((c.compile request).record m s) ((c.compile request).run m s).1.success := by
  cases hplan : c.registry.plan request with
  | error e =>
    rw [compile_rejected hplan] at h
    cases h
  | ok plan =>
    have hpath := create_of_scratchOf_compile hplan h
    have hplayed := c.runStages_plays path plan request.source m (m.create c.scratchDir s).2
    have hkeeps := hplayed.keepsTo (invokes_plan hknown path plan)
    refine ⟨_, .compile hplan (Registry.planAfter_plans hplan) (own_tools hknown hplan) ?_, ?_⟩
    · intro stage _ v hv
      have hword := TargetEnv.isWord_of_value? hv
      exact ⟨fun hempty => hword.ne_nil (congrArg String.toList hempty), hword.unbroken⟩
    · rw [run_compile hplan hpath, success_compilationOf]
      exact hkeeps.of_launches (launches_compile hplan hpath)

/-- To disassemble a module is to invoke the disassembler on it. -/
theorem disassemble_keepsTo {binary : Bytes} {m : Machine σ} {s : σ}
    (h : scratchOf ((c.disassemble binary).record m s) = some path) :
    KeepsTo [("spirv-dis", [Utf8.lossy path])] ((c.disassemble binary).record m s)
      ((c.disassemble binary).run m s).1.success := by
  let work : Attempt String := do put path binary; c.disassembleScratch path
  have hplays : work.Plays [c.commandNamed path Spec.disassemblerName ""] := by
    refine Attempt.plays_bind (put_plays path binary) fun _ => ?_
    rw [disassembleScratch, runNamed_eq]
    exact c.launch_plays path _
  have hpath := create_of_scratchOf h
  have hkeeps := (hplays m (m.create c.scratchDir s).2).keepsTo
    (.cons (invokes_disassembler hknown) .nil)
  have hrecord : (c.disassemble binary).record m s = _ := record_withScratch_ok hpath
  have hrun : ((c.disassemble binary).run m s).1 = _ := run_withScratch_ok hpath
  rw [hrun, hrecord, Job.bind_eq, Job.run_andThen, Job.record_andThen]
  show KeepsTo _ _ (disassemblyOf path (work.run.run m _).1).success
  rw [success_disassemblyOf]
  refine hkeeps.of_launches ?_
  simp [Job.record, work]

/-- A validation keeps to its four invocations, as far as it comes. -/
theorem validate_keepsTo {spirv : String} {asked : Option String} {m : Machine σ} {s : σ}
    (h : scratchOf ((c.validate spirv asked).record m s) = some path) :
    KeepsTo (validationInvocations path (firstWord asked)) ((c.validate spirv asked).record m s)
      ((c.validate spirv asked).run m s).1.success := by
  rcases c.validate_cases spirv asked m s with ⟨cause, hrecord, hresult⟩ |
    ⟨p, cause, hrecord, hresult⟩ | ⟨p, k, outcome, steps, hrecord, hresult, hreached⟩
  · rw [hrecord] at h
    cases h
  · rw [hrecord, hresult]
    exact ⟨List.nil_prefix, nofun⟩
  · rw [hrecord] at h
    obtain rfl : p = path := Option.some.inj h
    have hkeeps := hreached.played.keepsTo (invokes_validation hknown p asked)
    rw [hrecord, hresult, success_validationOf]
    refine hkeeps.of_launches ?_
    simp

end Known

/-- Without a scratch file there are no processes. -/
theorem launches_of_scratchOf (c : Chain) (inquiry : Inquiry) (m : Machine σ) (s : σ)
    (h : scratchOf ((c.perform inquiry).record m s) = none) :
    launches ((c.perform inquiry).record m s) = [] := by
  rcases c.perform_serves inquiry with ⟨a, hjob⟩ | ⟨failed, body, hjob, -⟩
  · rw [hjob]
    rfl
  · rw [hjob] at h ⊢
    cases hcreate : (m.create c.scratchDir s).1 with
    | error e =>
      rw [record_withScratch_error hcreate]
      rfl
    | ok path =>
      rw [record_withScratch_ok hcreate] at h
      cases h

/-- **What reaches the tools that the service runs itself.** In a registry of known tools, whatever a
client asks for, the processes of a run are the first of the invocations that `Chain.Told` lists, in
order and each once, and all of them if the run succeeds. Of the text of a client, the assembler before
a stage is given at most the target environment, a disassembler nothing, and the tools of a validation
the first word of what was asked for, the same to all. Without a scratch file there are no processes. -/
theorem perform_told (c : Chain) (hknown : ∀ tool ∈ c.registry.tools, tool.spec ∈ catalog)
    (inquiry : Inquiry) (m : Machine σ) (s : σ) :
    let record := (c.perform inquiry).record m s
    let result := ((c.perform inquiry).run m s).1
    (scratchOf record = none → launches record = []) ∧
      ∀ path, scratchOf record = some path →
        ∃ told, c.Told path inquiry told ∧ KeepsTo told record result.succeeded := by
  intro record result
  refine ⟨c.launches_of_scratchOf inquiry m s, fun path hscratch => ?_⟩
  simp only [record, result] at hscratch ⊢
  cases inquiry with
  | compile request =>
    rw [perform, Job.record_map] at hscratch ⊢
    rw [Job.run_map]
    exact compile_keepsTo hknown hscratch
  | disassemble binary =>
    rw [perform, Job.record_map] at hscratch ⊢
    rw [Job.run_map]
    exact ⟨_, .disassemble, disassemble_keepsTo hknown hscratch⟩
  | validate spirv asked =>
    rw [perform, Job.record_map] at hscratch ⊢
    rw [Job.run_map]
    exact ⟨_, .validate (asks_firstWord asked), validate_keepsTo hknown hscratch⟩

/-- A validation for which more was asked than a target environment, the first word of it looking like
the flag of another one. -/
theorem validation_told_first_word :
    let path := Utf8.ofText "/tmp/a"
    let machine := Store.machine .echo (.ok path)
    let inquiry := .validate "text" (some "\u2003--target-env=x -o\t/etc/motd")
    let record := (Chain.complete.perform inquiry).record machine fun _ => none
    let told := [("spirv-as", ["/tmp/a", "-o", "/tmp/a", "--target-env", "--target-env=x"]),
      ("spirv-val", ["--target-env", "--target-env=x", "/tmp/a"]),
      ("spirv-opt", ["--target-env=--target-env=x", "/tmp/a", "-o", "/tmp/a"]),
      ("spirv-dis", ["/tmp/a"])]
    invocations record = told ∧ Chain.complete.Told path inquiry told := by
  intro path machine inquiry record told
  have hknown : ∀ tool ∈ Chain.complete.registry.tools, tool.spec ∈ catalog := by decide
  have hscratch : scratchOf record = some path := by decide +kernel
  have hsuccess :
      ((Chain.complete.perform inquiry).run machine fun _ => none).1.succeeded = true := by
    decide +kernel
  have hinvocations : invocations record = told := by decide +kernel
  obtain ⟨-, htold⟩ := perform_told Chain.complete hknown inquiry machine fun _ => none
  obtain ⟨listed, hlisted, -, hall⟩ := htold path hscratch
  refine ⟨hinvocations, ?_⟩
  rw [← hinvocations, show invocations record = listed from hall hsuccess]
  exact hlisted

end Chain

end ShaderChain
