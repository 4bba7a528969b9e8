import ShaderChain.Chain.Job
import ShaderChain.Chain.Request
import ShaderChain.Chain.Report

/-!
# Running chains

The three jobs of the service, all of them over one scratch file of their own:

- `Chain.compile` sends a text through the stages of a plan. A stage takes its text from the
  scratch file, where SPIR-V is first assembled in place; what it leaves there is disassembled
  again; the text that results is staged for the next stage;
- `Chain.disassemble` turns a binary module into text;
- `Chain.validate` assembles, validates, optimizes and disassembles.

The first failure ends a job, the scratch file is removed however it ends, and its path is
scrubbed from all that is reported.
-/

namespace ShaderChain

/-- A part of a job that can fail. -/
abbrev Attempt (α : Type) := ExceptT ChainError Job α

/-- The tools and the settings with which jobs are run. -/
structure Chain where
  registry : Registry
  /-- How long one tool may run. -/
  limit : Option Span := none
  /-- Where scratch files are created. -/
  scratchDir : Option Path := none

/-- The output of a chain whose last tool only passes or fails. -/
def validOutput : String := "VALID SPIR-V"

/-- What is reported of a failed disassembly that gave no reason. -/
def disassemblyFailed : String := "could not disassemble SPIR-V"

namespace Chain

/-! ## The parts -/

/-- Stages contents in the scratch file. -/
def put (path : Path) (contents : Bytes) : Attempt Unit :=
  ExceptT.mk (.stage path contents fun x => .done (x.mapError .scratch))

/-- Runs a tool on the scratch file, and gives what it prints. -/
def runTool (c : Chain) (path : Path) (tool : Descriptor) (flags : String) : Attempt String :=
  match Command.build tool flags path with
  | .error e => throw (.ofLookup tool.name e)
  | .ok cmd =>
    ExceptT.mk (.launch path cmd c.limit fun ending =>
      .done ((ending.result cmd).mapError .command))

/-- Runs a tool of the service's own choice. -/
def runNamed (c : Chain) (path : Path) (name flags : String) : Attempt String :=
  match c.registry.runnable name with
  | .error e => throw (.ofLookup name e)
  | .ok tool => c.runTool path tool flags

/-- Assembles the text in the scratch file in place, for the target environment that the flags
of the stage name. -/
def assemble (c : Chain) (path : Path) (flags : String) : Attempt Unit := do
  let _ ← c.runNamed path Spec.assemblerName (TargetEnv.extract flags)

/-- Disassembles the module in the scratch file. -/
def disassembleScratch (c : Chain) (path : Path) : Attempt String :=
  c.runNamed path Spec.disassemblerName ""

/-- Runs one stage on the text in the scratch file, and gives the text that it results in. -/
def runStage (c : Chain) (path : Path) (stage : PlannedStage) : Attempt String := do
  let spec := stage.tool.spec
  if spec.input = .spirv then c.assemble path stage.flags
  let stdout ← c.runTool path stage.tool stage.flags
  let text ← if spec.emission = .scratchFile then c.disassembleScratch path else pure stdout
  return if spec.output = .status then validOutput else text

/-- Runs stages on a text, each on what the one before it results in. -/
def runStages (c : Chain) (path : Path) (text : String) : List PlannedStage → Attempt String
  | [] => return text
  | stage :: rest => do
    put path (Utf8.ofText text)
    let output ← c.runStage path stage
    c.runStages path output rest

/-- Runs steps in order up to the first that fails. Gives the number of completed steps and what
the last one gave. -/
def runSteps (completed : Nat) (last : String) :
    List (Attempt String) → Job (Nat × Except ChainError String)
  | [] => return (completed, .ok last)
  | step :: rest => do
    match ← step.run with
    | .ok text => runSteps (completed + 1) text rest
    | .error e => return (completed, .error e)

/-- Runs a job over a scratch file of its own, which is removed in the end. -/
def withScratch (c : Chain) (failed : ChainError → α) (job : Path → Job α) : Job α :=
  .create c.scratchDir fun
    | .error e => .done (failed (.scratch e))
    | .ok path => do
      let a ← job path
      .remove path (.done a)

/-! ## The jobs -/

/-- The result of a chain over the scratch file at `path`. -/
def compilationOf (path : Path) (outcome : Except ChainError String) : Compilation :=
  let result := match outcome with
    | .ok output => Compilation.succeeded output
    | .error e => .failed e.report
  result.scrubbed (.ofPath path)

/-- Runs the chain of a request. A request without a plan asks nothing of the machine. -/
def compile (c : Chain) (request : Request) : Job Compilation :=
  match c.registry.plan request with
  | .error e => .done (.failed e.report)
  | .ok plan =>
    c.withScratch (fun e => .failed e.report) fun path => do
      return compilationOf path (← (c.runStages path request.source plan).run)

/-- The result of a disassembly over the scratch file at `path`. -/
def disassemblyOf (path : Path) (outcome : Except ChainError String) : Disassembly :=
  match outcome with
  | .ok text => { success := true, data := (Scrubber.ofPath path).scrub text }
  | .error e =>
    let reason := e.report.stderr
    { success := false
      data := if reason.isEmpty then disassemblyFailed else (Scrubber.ofPath path).scrub reason }

/-- Turns a binary module into text. -/
def disassemble (c : Chain) (binary : Bytes) : Job Disassembly :=
  c.withScratch (fun e => { success := false, data := e.message }) fun path => do
    let outcome ← (do put path binary; c.disassembleScratch path : Attempt String).run
    return disassemblyOf path outcome

/-- The flags for a target environment: the first word of what was asked for. -/
def targetFlags (env : Option String) : String :=
  TargetEnv.spaced (env.bind fun e => (words e).head?)

/-- The four steps of a validation. -/
def validationSteps (c : Chain) (path : Path) (flags : String) : List (Attempt String) :=
  [ c.runNamed path Spec.assemblerName (TargetEnv.extract flags),
    c.runNamed path Spec.validatorName flags,
    c.runNamed path Spec.optimizerName flags,
    c.disassembleScratch path ]

/-- The result of a validation over the scratch file at `path`. -/
def validationOf (path : Path) (completed : Nat) (outcome : Except ChainError String) :
    Validation :=
  let scrubber := Scrubber.ofPath path
  match outcome with
  | .ok text =>
    { success := true, spirv := scrubber.scrub text, commands := .first completed, error := {} }
  | .error e =>
    { success := false
      spirv := ""
      commands := .first completed
      error := scrubber.scrubReport e.report }

/-- Assembles, validates, optimizes and disassembles SPIR-V text. -/
def validate (c : Chain) (spirv : String) (env : Option String) : Job Validation :=
  let failed (e : ChainError) : Validation :=
    { success := false, spirv := "", commands := .first 0, error := e.report }
  c.withScratch failed fun path => do
    match ← (put path (Utf8.ofText spirv)).run with
    | .error e => return validationOf path 0 (.error e)
    | .ok () =>
      let (completed, outcome) ← runSteps 0 "" (c.validationSteps path (targetFlags env))
      return validationOf path completed outcome

end Chain

end ShaderChain
