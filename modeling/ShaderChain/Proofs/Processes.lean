import ShaderChain.Service.Handling

/-!
# Jobs and their processes

A client can ask for three kinds of jobs. `Inquiry` is what it asks for, and `Chain.perform` the
job as the handlers perform it, so that a law about jobs can be stated once for all of them.
`Payload.texts` are the texts that the client gets to see. The jobs are written in `Attempt`, where a
failure skips what follows; `Attempt.run_bind` shows this as a case split, in which form the laws about
jobs are proved.

A stage runs up to three processes on the scratch file: the assembler if its tool takes SPIR-V, the
tool, and the disassembler if the tool leaves a binary module. `Chain.commands` lists them, and
`Chain.runStage_eq` shows that running a stage is launching these commands one after another, where
only what the last one prints matters. A command that cannot be built stands in the list as the
reason for that. How a list of stages or commands is run from its first one on is told by
`Chain.run_runStages_cons` and `Chain.run_launchAll_cons`.
-/

namespace ShaderChain

variable {α β : Type}

/-- What a client can ask for. -/
inductive Inquiry where
  | compile (request : Request)
  | disassemble (binary : Bytes)
  | validate (spirv : String) (env : Option String)

/-- The job of an inquiry. -/
def Chain.perform (c : Chain) : Inquiry → Job Payload
  | .compile request => Payload.compilation <$> c.compile request
  | .disassemble binary => Payload.disassembly <$> c.disassemble binary
  | .validate spirv env => Payload.validation <$> c.validate spirv env

/-- A chain of which every known tool has been found. -/
def Chain.complete : Chain where
  registry := ⟨catalog.map fun spec => .of spec (some (Utf8.ofText ("/bin/" ++ spec.name)))⟩

/-- The texts of a report. -/
def Report.texts (r : Report) : List String :=
  [r.cmd, r.stdout, r.stderr]

/-- The texts of a result. -/
def Payload.texts : Payload → List String
  | .compilation r => r.output :: r.error.texts
  | .disassembly r => [r.data]
  | .validation r => r.spirv :: r.error.texts

/-! ## Parts that can fail -/

namespace Attempt

/-- How a job goes on after an attempt: with `f`, or not at all after a failure. -/
def resume (f : α → Attempt β) : Except ChainError α → Job (Except ChainError β)
  | .ok a => (f a).run
  | .error e => .done (.error e)

theorem run_bind (a : Attempt α) (f : α → Attempt β) :
    (a >>= f).run = a.run.andThen (resume f) := by
  refine congrArg a.run.andThen (funext fun x => ?_)
  cases x with
  | ok a => rfl
  | error e => rfl

end Attempt

theorem Job.map_eq (f : α → β) (job : Job α) : f <$> job = job.andThen (.done ∘ f) := rfl

/-! ## The processes of a stage -/

namespace Chain

/-- The command of a tool on the scratch file at `path`. -/
def commandOf (path : Path) (tool : Descriptor) (flags : String) : Except ChainError Command :=
  (Command.build tool flags path).mapError (.ofLookup tool.name)

/-- The command of a tool of the service's own choice. -/
def commandNamed (c : Chain) (path : Path) (name flags : String) : Except ChainError Command :=
  match c.registry.runnable name with
  | .error e => .error (.ofLookup name e)
  | .ok tool => commandOf path tool flags

/-- The commands of a stage, in the order of their launches. -/
def commands (c : Chain) (path : Path) (stage : PlannedStage) : List (Except ChainError Command) :=
  (if stage.tool.spec.input = .spirv then
    [c.commandNamed path Spec.assemblerName (TargetEnv.extract stage.flags)] else []) ++
  [commandOf path stage.tool stage.flags] ++
  (if stage.tool.spec.emission = .scratchFile then
    [c.commandNamed path Spec.disassemblerName ""] else [])

/-- Launches a command, if there is one. -/
def launch (c : Chain) (path : Path) : Except ChainError Command → Attempt String
  | .error e => throw e
  | .ok cmd =>
    ExceptT.mk (.launch path cmd c.limit fun ending =>
      .done ((ending.result cmd).mapError .command))

/-- Launches commands one after another up to the first that fails, and gives what the last one
prints; `last` was printed before. -/
def launchAll (c : Chain) (path : Path) (last : String) :
    List (Except ChainError Command) → Attempt String
  | [] => return last
  | command :: rest => do
    let text ← c.launch path command
    c.launchAll path text rest

/-- What a stage results in, if its last process prints this. -/
def outputOf (stage : PlannedStage) (text : String) : String :=
  if stage.tool.spec.output = .status then validOutput else text

/-- To run a tool is to launch its command. -/
theorem runTool_eq (c : Chain) (path : Path) (tool : Descriptor) (flags : String) :
    c.runTool path tool flags = c.launch path (commandOf path tool flags) := by
  unfold runTool commandOf
  cases Command.build tool flags path <;> rfl

/-- To run a tool of the service's own choice is to launch the command of this name. -/
theorem runNamed_eq (c : Chain) (path : Path) (name flags : String) :
    c.runNamed path name flags = c.launch path (c.commandNamed path name flags) := by
  unfold runNamed commandNamed
  cases c.registry.runnable name with
  | error e => rfl
  | ok tool => exact c.runTool_eq path tool flags

theorem run_launchAll_cons (c : Chain) (path : Path) (last : String)
    (command : Except ChainError Command) (rest : List (Except ChainError Command)) :
    (c.launchAll path last (command :: rest)).run =
      (c.launch path command).run.andThen
        (Attempt.resume fun text => c.launchAll path text rest) :=
  Attempt.run_bind _ _

/-- Commands in two lists, one after the other, are launched as one list. -/
theorem launchAll_append (c : Chain) (path : Path) (last : String)
    (first second : List (Except ChainError Command)) :
    c.launchAll path last (first ++ second) =
      c.launchAll path last first >>= fun text => c.launchAll path text second := by
  induction first generalizing last with
  | nil => exact (pure_bind _ _).symm
  | cons command first ih =>
    show (c.launch path command >>= fun text => c.launchAll path text (first ++ second)) =
      (c.launch path command >>= fun text => c.launchAll path text first) >>= _
    rw [bind_assoc]
    exact congrArg _ (funext ih)

/-- The first of some stages is run on its text, which is staged for it, and the others on what it
results in. -/
theorem run_runStages_cons (c : Chain) (path : Path) (text : String) (stage : PlannedStage)
    (rest : List PlannedStage) :
    (c.runStages path text (stage :: rest)).run =
      (put path (Utf8.ofText text)).run.andThen (Attempt.resume fun _ => do
        let output ← c.runStage path stage
        c.runStages path output rest) :=
  Attempt.run_bind _ _

/-- Running a stage is launching its commands. -/
theorem runStage_eq (c : Chain) (path : Path) (stage : PlannedStage) :
    c.runStage path stage = outputOf stage <$> c.launchAll path "" (c.commands path stage) := by
  unfold runStage commands assemble disassembleScratch
  simp only [runTool_eq, runNamed_eq]
  -- with or without an assembler before, and with or without a disassembler after
  by_cases hin : stage.tool.spec.input = .spirv <;>
    by_cases hout : stage.tool.spec.emission = .scratchFile <;>
    simp [hin, hout, launchAll] <;> rfl

end Chain

end ShaderChain
