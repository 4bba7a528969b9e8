import ShaderChain.Proofs.Composition
import ShaderChain.Proofs.Noise
import Mathlib.Data.List.Nodup

/-!
# A validation is two chains at once

A validation runs four tools on one file: assembler, validator, optimizer, disassembler. A client
could ask for the same in two requests, a chain of the validator alone and a chain of the optimizer
alone, each with the target environment in its flags. `Chain.validate_eq_compile` says that a
validation succeeds exactly if both do, and which of their texts it reports.

The validator stands between the assembler and the optimizer like a check that leaves the file as
it is. `Chain.launchAll_check` is the law behind the main statement: launching commands with a check
among them fails as the commands up to the check do, and else gives what they give without it.
-/

namespace ShaderChain

variable {σ : Type} {tools : Tools} {path : Path} {s : Store}

/-! ## Tools that have been found -/

namespace Registry

variable {r : Registry} {tool : Descriptor} {name : String}

/-- A client may ask for what the service can run, if it is offered. -/
theorem selectable_of_runnable (h : r.runnable name = .ok tool)
    (hoffered : tool.spec.offered = true) : r.selectable name = .ok tool := by
  obtain ⟨hlookup, hfound⟩ := runnable_eq_ok_iff.mp h
  exact selectable_eq_ok_iff.mpr ⟨hlookup, hoffered, hfound⟩

/-- A known name stands for the tool that the catalogue has under it. -/
theorem spec_of_runnable (hknown : ∀ tool ∈ r.tools, tool.spec ∈ catalog) {spec : Spec}
    (hspec : spec ∈ catalog) (h : r.runnable spec.name = .ok tool) : tool.spec = spec := by
  have hlookup : r.lookup spec.name = some tool := (runnable_eq_ok_iff.mp h).1
  have hname : tool.name = spec.name := name_of_lookup hlookup
  exact List.inj_on_of_nodup_map catalog_names_nodup
    (hknown tool (List.mem_of_find?_eq_some hlookup)) hspec hname

end Registry

namespace Chain

/-! ## Commands with a check among them -/

/-- What the commands after a check give does not depend on what the check printed. So a check that
leaves the machine as it was can only add its own failure. -/
theorem launchAll_check (c : Chain) (m : Machine σ) (s : σ) (check : Except ChainError Command)
    (before : List (Except ChainError Command)) {after : List (Except ChainError Command)}
    (hafter : after ≠ []) (hkeeps : ∀ s, ((c.launch path check).run.run m s).2 = s)
    (last : String) :
    ((c.launchAll path last (before ++ check :: after)).run.run m s).1 =
      match ((c.launchAll path last (before ++ [check])).run.run m s).1 with
      | .error e => .error e
      | .ok _ => ((c.launchAll path last (before ++ after)).run.run m s).1 := by
  simp only [launchAll_append, Attempt.run_bind, Job.run_andThen]
  cases ((c.launchAll path last before).run.run m s).1 with
  | error e => rfl
  | ok text =>
    generalize ((c.launchAll path last before).run.run m s).2 = s
    simp only [Attempt.resume, run_launchAll_cons, Job.run_andThen]
    rw [hkeeps]
    cases ((c.launch path check).run.run m s).1 with
    | error e => rfl
    | ok printed =>
      show ((c.launchAll path printed after).run.run m s).1 = _
      rw [c.launchAll_congr path hafter printed text]
      rfl

/-- Steps that are launches give what the launches give. -/
theorem runSteps_launches (c : Chain) (path : Path) (completed : Nat) (last : String)
    (commands : List (Except ChainError Command)) :
    Prod.snd <$> runSteps completed last (commands.map (c.launch path)) =
      (c.launchAll path last commands).run := by
  induction commands generalizing completed last with
  | nil => rfl
  | cons command rest ih =>
    rw [run_launchAll_cons, List.map_cons, runSteps, Job.map_eq, Job.bind_eq, Job.andThen_assoc]
    refine congrArg (fun f => Job.andThen f (c.launch path command).run) (funext fun x => ?_)
    cases x with
    | error e => rfl
    | ok text => exact ih (completed + 1) text

/-! ## Both jobs as launches over the text -/

/-- The commands of a validation. -/
def validationCommands (c : Chain) (path : Path) (flags : String) :
    List (Except ChainError Command) :=
  [ c.commandNamed path Spec.assemblerName (TargetEnv.extract flags),
    c.commandNamed path Spec.validatorName flags,
    c.commandNamed path Spec.optimizerName flags,
    c.commandNamed path Spec.disassemblerName "" ]

theorem validationSteps_eq (c : Chain) (path : Path) (flags : String) :
    c.validationSteps path flags = (c.validationCommands path flags).map (c.launch path) := by
  simp only [validationSteps, validationCommands, disassembleScratch, runNamed_eq, List.map_cons,
    List.map_nil]

/-- The result of a validation without a scratch file. -/
def validationWithout (e : ChainError) : Validation where
  success := false
  spirv := ""
  commands := .first 0
  error := e.report

/-- What is left of a validation once its text has been staged, or could not be. -/
def afterStaging (c : Chain) (flags : String) (path : Path) :
    Except ChainError Unit → Job Validation
  | .error e => .done (validationOf path 0 (.error e))
  | .ok () => (runSteps 0 "" (c.validationSteps path flags)).andThen fun reached =>
      .done (validationOf path reached.1 reached.2)

theorem validate_eq (c : Chain) (spirv : String) (env : Option String) :
    c.validate spirv env =
      c.withScratch validationWithout fun path =>
        (put path (Utf8.ofText spirv)).run.andThen (c.afterStaging (targetFlags env) path) := by
  unfold validate
  refine congrArg (c.withScratch _) (funext fun path => ?_)
  refine congrArg (fun f => Job.andThen f (put path (Utf8.ofText spirv)).run) (funext fun x => ?_)
  cases x <;> rfl

/-- The result of a validation whose scratch file is at `path`. -/
def validationAt (c : Chain) (tools : Tools) (path : Path) (s : Store) (spirv : String)
    (env : Option String) : Validation :=
  ((c.validate spirv env).run (Store.machine tools (.ok path)) s).1

/-- A validation reports what its commands give. -/
theorem validationAt_eq (c : Chain) (tools : Tools) (spirv : String) (env : Option String)
    (hfree : s path = none) :
    ∃ completed, c.validationAt tools path s spirv env = validationOf path completed
      ((c.launchAll path "" (c.validationCommands path (targetFlags env))).over tools path
        spirv) := by
  rw [validationAt, validate_eq]
  obtain ⟨start, hstart, hrun⟩ := run_withScratch_at tools c validationWithout
    (fun path => (put path (Utf8.ofText spirv)).run.andThen
      (c.afterStaging (targetFlags env) path)) hfree
  have hwork : (c.afterStaging (targetFlags env) path (.ok ())).WorksAt path :=
    (runSteps_serves (c.validationSteps_serve path _) 0 "").worksAt.andThen fun _ => trivial
  have hsteps := c.runSteps_launches path 0 "" (c.validationCommands path (targetFlags env))
  rw [← validationSteps_eq] at hsteps
  rw [hrun, run_put _ (hwork.staysWithin rfl) hstart, Attempt.over, ← hsteps, Job.run_map]
  exact ⟨_, congrArg Prod.fst (Job.run_andThen _ _ _ _)⟩

/-- A chain of one stage reports what the commands of the stage give. -/
theorem resultAt_singleton (tools : Tools) {c : Chain} {request : Request} {stage : PlannedStage}
    (hplan : c.registry.plan request = .ok [stage]) (hfree : s path = none) :
    c.resultAt tools path s request = compilationOf path
      (((c.launchAll path "" (c.commands path stage)).over tools path request.source).map
        (outputOf stage)) := by
  obtain ⟨start, hstart, hresult⟩ := resultAt_eq tools hplan hfree
  have hrun : (c.runStages path request.source [stage]).run =
      (put path (Utf8.ofText request.source)).run.andThen
        (Attempt.resume fun _ => c.runStage path stage) := by
    rw [runStages]
    simp only [runStages, bind_pure]
    exact Attempt.run_bind _ _
  rw [hresult, hrun, run_put _ ((c.runStage_worksAt path stage).staysWithin rfl) hstart, Attempt.resume,
    runStage_eq, ExceptT.run_map, Job.run_map]
  rfl

/-! ## The two chains -/

/-- The validator leaves what is at the path of the scratch file as it is. -/
def ValidatorKeeps (c : Chain) (tools : Tools) (path : Path) : Prop :=
  ∀ flags cmd, c.commandNamed path Spec.validatorName flags = .ok cmd →
    ∀ limit entry, (tools cmd.program cmd.args limit entry).2 = entry

/-- A launch of the validator leaves every store as it is. -/
theorem ValidatorKeeps.run_launch {c : Chain} (h : c.ValidatorKeeps tools path) (flags : String)
    (s : Store) :
    ((c.launch path (c.commandNamed path Spec.validatorName flags)).run.run
      (Store.machine tools (.ok path)) s).2 = s := by
  cases hcmd : c.commandNamed path Spec.validatorName flags with
  | error e => rfl
  | ok cmd =>
    rw [Chain.run_launch, h flags cmd hcmd]
    exact Function.update_eq_self path s

/-- The commands of a stage, if the tool under the name of `spec` is the one that the catalogue has
there. -/
def commandsFor (c : Chain) (path : Path) (spec : Spec) (flags : String) :
    List (Except ChainError Command) :=
  (if spec.input = .spirv then
    [c.commandNamed path Spec.assemblerName (TargetEnv.extract flags)] else []) ++
  [c.commandNamed path spec.name flags] ++
  (if spec.emission = .scratchFile then [c.commandNamed path Spec.disassemblerName ""] else [])

/-- A chain of one tool that was found reports what its commands give. -/
theorem resultAt_known {c : Chain} (hknown : ∀ tool ∈ c.registry.tools, tool.spec ∈ catalog)
    {spec : Spec} (hspec : spec ∈ catalog) (hoffered : spec.offered = true)
    (hfound : (c.registry.runnable spec.name).isOk) (tools : Tools) {request : Request}
    {flags : String} (hstages : request.stages = [⟨spec.name, flags⟩]) (hfree : s path = none) :
    c.resultAt tools path s request = compilationOf path
      (((c.launchAll path "" (c.commandsFor path spec flags)).over tools path
        request.source).map fun text => if spec.output = .status then validOutput else text) := by
  cases htool : c.registry.runnable spec.name with
  | error e =>
    rw [htool] at hfound
    cases hfound
  | ok tool =>
    obtain rfl := Registry.spec_of_runnable hknown hspec htool
    have hplan := Registry.plan_singleton hstages (Registry.selectable_of_runnable htool hoffered)
    have hcommands : c.commands path ⟨tool, flags⟩ = c.commandsFor path tool.spec flags := by
      simp only [commands, commandsFor, commandNamed, htool]
    rw [resultAt_singleton tools hplan hfree, hcommands]
    rfl

/-- What is reported of a check and of what follows it, together and apart. -/
theorem reports_of_check (path : Path) (completed : Nat) (checked rest : Except ChainError String)
    (verdict : String) :
    let v := validationOf path completed
      (match checked with
      | .error e => .error e
      | .ok _ => rest)
    let a := compilationOf path (checked.map fun _ => verdict)
    let b := compilationOf path rest
    (v.success = true ↔ a.success = true ∧ b.success = true) ∧
      (v.success = true → v.spirv = b.output) ∧
      (v.success = false → v.error = if a.success then b.error else a.error) := by
  intro v a b
  cases checked with
  | error e => exact ⟨⟨(nomatch ·), (nomatch ·.1)⟩, (nomatch ·), fun _ => rfl⟩
  | ok text =>
    cases rest with
    | error e => exact ⟨⟨(nomatch ·), (nomatch ·.2)⟩, (nomatch ·), fun _ => rfl⟩
    | ok text => exact ⟨⟨fun _ => ⟨rfl, rfl⟩, fun _ => rfl⟩, fun _ => rfl, (nomatch ·)⟩

/-- **A validation is two chains at once.** In a registry of known tools let the validator and the
optimizer be found, and let processes be functions of their command and of the scratch file, which
the validator leaves as it is. A validation succeeds exactly if the chain of the validator and the
chain of the optimizer do, both with the target environment as their flags. It then gives the
optimized text, and else reports what the first chain reports, or the second one if only that fails.
The runs may start from any stores in which the path is free. -/
theorem validate_eq_compile (c : Chain) (hknown : ∀ tool ∈ c.registry.tools, tool.spec ∈ catalog)
    (hval : (c.registry.runnable Spec.validatorName).isOk)
    (hopt : (c.registry.runnable Spec.optimizerName).isOk) (hkeeps : c.ValidatorKeeps tools path)
    (spirv : String) (env : Option String) {s s₁ s₂ : Store} (hs : s path = none)
    (hs₁ : s₁ path = none) (hs₂ : s₂ path = none) :
    let flags := match env.bind fun e => (words e).head? with
      | some v => "--target-env " ++ v
      | none => ""
    ∃ check optimize, Request.ofStages spirv [⟨Spec.validatorName, flags⟩] = .ok check ∧
      Request.ofStages spirv [⟨Spec.optimizerName, flags⟩] = .ok optimize ∧
      let v := c.validationAt tools path s spirv env
      let a := c.resultAt tools path s₁ check
      let b := c.resultAt tools path s₂ optimize
      (v.success = true ↔ a.success = true ∧ b.success = true) ∧
        (v.success = true → v.spirv = b.output) ∧
        (v.success = false → v.error = if a.success then b.error else a.error) := by
  intro flags
  have hflags : targetFlags env = flags := by
    unfold flags targetFlags TargetEnv.spaced
    cases env.bind fun e => (words e).head? <;> rfl
  have hrequest : ∀ name, ∃ request, Request.ofStages spirv [⟨name, flags⟩] = .ok request :=
    fun name => Request.exists_ofStages spirv (List.cons_ne_nil _ _) (show 1 ≤ maxStages by decide)
  obtain ⟨check, hcheck⟩ := hrequest Spec.validatorName
  obtain ⟨optimize, hoptimize⟩ := hrequest Spec.optimizerName
  refine ⟨check, optimize, hcheck, hoptimize, ?_⟩
  intro v a b
  obtain ⟨hsource₁, hstages₁⟩ := Request.of_ofStages hcheck
  obtain ⟨hsource₂, hstages₂⟩ := Request.of_ofStages hoptimize
  -- all three results are about three lists of commands over the same text
  let assembling := c.commandNamed path Spec.assemblerName (TargetEnv.extract flags)
  let checking := c.commandNamed path Spec.validatorName flags
  let optimizing := [c.commandNamed path Spec.optimizerName flags,
    c.commandNamed path Spec.disassemblerName ""]
  let given := fun commands => (c.launchAll path "" commands).over tools path spirv
  have ha : a = compilationOf path ((given [assembling, checking]).map fun _ => validOutput) := by
    have hspec : Spec.validator ∈ catalog := by decide
    have h := resultAt_known hknown hspec rfl hval tools hstages₁ hs₁
    rwa [hsource₁] at h
  have hb : b = compilationOf path (given (assembling :: optimizing)) := by
    have hspec : Spec.optimizer ∈ catalog := by decide
    have h := resultAt_known hknown hspec rfl hopt tools hstages₂ hs₂
    rw [hsource₂] at h
    exact h.trans (congrArg _ (id_map (f := Except ChainError) _))
  obtain ⟨completed, hv⟩ := c.validationAt_eq tools spirv env hs
  rw [hflags] at hv
  have hchecked := c.launchAll_check (Store.machine tools (.ok path))
    (Store.single path (Utf8.ofText spirv)) checking [assembling]
    (show optimizing ≠ [] from List.cons_ne_nil _ _) (hkeeps.run_launch flags) ""
  have hv : v = validationOf path completed
      (match given [assembling, checking] with
      | .error e => .error e
      | .ok _ => given (assembling :: optimizing)) :=
    hv.trans (congrArg _ hchecked)
  rw [hv, ha, hb]
  exact reports_of_check path completed _ _ validOutput

/-- A validation for an environment. The processes print the file, and all but the validator leave
their first argument behind it: the assembler its path, the optimizer the environment. -/
theorem validation_for_environment :
    let tools : Tools := fun program args _ entry =>
      match entry with
      | some (.file contents) =>
        let left := if program = Utf8.ofText "/bin/spirv-val" then contents
          else contents ++ Utf8.ofText (args.headD "")
        (.exited true contents [], some (.file left))
      | entry => (.exited false [] [], entry)
    let path : Path := Utf8.ofText "/tmp/a"
    let store : Store := fun _ => none
    let env := some " vulkan1.2 --strict"
    ∃ optimize,
      Request.ofStages "text" [⟨"spirv-opt", "--target-env vulkan1.2"⟩] = .ok optimize ∧
      (Chain.complete.validationAt tools path store "text" env).spirv =
        (Chain.complete.resultAt tools path store optimize).output ∧
      (Chain.complete.validationAt tools path store "text" env).spirv =
        "text<source>--target-env=vulkan1.2" := by
  intro tools path store env
  have hknown : ∀ tool ∈ Chain.complete.registry.tools, tool.spec ∈ catalog := by decide
  have hval : (Chain.complete.registry.runnable Spec.validatorName).isOk := by decide
  have hopt : (Chain.complete.registry.runnable Spec.optimizerName).isOk := by decide
  have hkeeps : Chain.complete.ValidatorKeeps tools path := by
    intro flags cmd hcmd limit entry
    obtain rfl := Except.ok.inj hcmd
    rcases entry with _ | contents | _ <;> rfl
  have hfree : store path = none := rfl
  obtain ⟨check, optimize, -, hoptimize, -, hspirv, -⟩ := validate_eq_compile Chain.complete hknown
    hval hopt hkeeps "text" env hfree hfree hfree
  have hv : Chain.complete.validationAt tools path store "text" env =
      { success := true, spirv := "text<source>--target-env=vulkan1.2", commands := .first 4,
        error := {} } := by decide +kernel
  refine ⟨optimize, hoptimize, hspirv ?_, ?_⟩
  · rw [hv]
  · rw [hv]

end Chain

end ShaderChain
