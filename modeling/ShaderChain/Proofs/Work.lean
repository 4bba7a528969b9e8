import ShaderChain.Proofs.Processes
import ShaderChain.Proofs.Record

/-!
# Work on a scratch file

Every job of the service that asks anything of the machine is of one form: it creates a scratch
file, works on it, and removes it (`Chain.perform_tidies`). To work on a file is to stage contents in
it and to launch commands on it, at its path and at no other (`Job.WorksAt`); there is no other step
between the creation and the removal, wherever the work ends. The commands are not any commands:
each is the command of a tool, built on the path of the file, and may run for as long as the service
allows (`Job.Serves`, `Chain.perform_serves`).

Both predicates are closed under doing one thing after another, so there is one lemma for each part of
a job, in the order in which the parts are put together. What such work takes down in its record is
read off it once, by induction on the steps (`Job.Serves.record`).
-/

namespace ShaderChain

variable {α β σ : Type} {path : Path} {limit : Option Span}

/-- Every step is to stage contents at `path`, or to launch a command on the file there. -/
def Job.WorksAt (path : Path) : Job α → Prop
  | .done _ => True
  | .create _ _ | .remove _ _ => False
  | .stage p _ next => p = path ∧ ∀ x, (next x).WorksAt path
  | .launch p _ _ next => p = path ∧ ∀ x, (next x).WorksAt path

/-- Work at a path, followed by more work there whatever came of it, is work at the path. -/
theorem Job.WorksAt.andThen {job : Job α} {f : α → Job β} (hjob : job.WorksAt path)
    (hf : ∀ a, (f a).WorksAt path) : (job.andThen f).WorksAt path := by
  induction job with
  | done a => exact hf a
  | create | remove => exact hjob.elim
  | stage p contents next ih => exact ⟨hjob.1, fun x => ih x (hjob.2 x)⟩
  | launch p cmd limit next ih => exact ⟨hjob.1, fun x => ih x (hjob.2 x)⟩

/-- Attempts at a path can be put one after another: a failure leaves out the second one. -/
theorem Attempt.worksAt_bind {a : Attempt α} {f : α → Attempt β} (ha : a.run.WorksAt path)
    (hf : ∀ x, (f x).run.WorksAt path) : (a >>= f).run.WorksAt path := by
  rw [run_bind]
  refine ha.andThen fun x => ?_
  cases x with
  | ok x => exact hf x
  | error e => trivial

/-! ## Work with the tools -/

/-- A process that is launched on the file at `path`, with a command that is built on this path, for
no longer than `limit`. -/
structure ServedBy (path : Path) (limit : Option Span) (p : Path) (cmd : Command)
    (most : Option Span) : Prop where
  place : p = path
  time : most = limit
  built : ∃ tool flags, Command.build tool flags path = .ok cmd

/-- Every step is to stage contents at `path`, or to launch a tool there. -/
def Job.Serves (path : Path) (limit : Option Span) : Job α → Prop
  | .done _ => True
  | .create _ _ | .remove _ _ => False
  | .stage p _ next => p = path ∧ ∀ x, (next x).Serves path limit
  | .launch p cmd most next =>
    ServedBy path limit p cmd most ∧ ∀ x, (next x).Serves path limit

/-- Work with the tools, followed by more of it whatever came of it, is work with the tools. -/
theorem Job.Serves.andThen {job : Job α} {f : α → Job β} (hjob : job.Serves path limit)
    (hf : ∀ a, (f a).Serves path limit) : (job.andThen f).Serves path limit := by
  induction job with
  | done a => exact hf a
  | create | remove => exact hjob.elim
  | stage p contents next ih => exact ⟨hjob.1, fun x => ih x (hjob.2 x)⟩
  | launch p cmd most next ih => exact ⟨hjob.1, fun x => ih x (hjob.2 x)⟩

/-- Which commands are launched does not matter for where the work is done. -/
theorem Job.Serves.worksAt {job : Job α} (h : job.Serves path limit) : job.WorksAt path := by
  induction job with
  | done a => trivial
  | create | remove => exact h.elim
  | stage p contents next ih => exact ⟨h.1, fun x => ih x (h.2 x)⟩
  | launch p cmd most next ih => exact ⟨h.1.place, fun x => ih x (h.2 x)⟩

/-- What a step is that serves the file at `path`. -/
def Event.Serves (path : Path) (limit : Option Span) : Event σ → Prop
  | .created _ _ | .removed _ => False
  | .staged p _ _ => p = path
  | .launched l => ServedBy path limit l.path l.cmd l.limit

/-- Work with the tools takes no other steps than these, on any machine. -/
theorem Job.Serves.record {job : Job α} (h : job.Serves path limit) (m : Machine σ) (s : σ) :
    ∀ event ∈ job.record m s, event.Serves path limit := by
  induction job generalizing s with
  | done a => simp [Job.record]
  | create | remove => exact h.elim
  | stage p contents next ih =>
    intro event hevent
    rcases List.mem_cons.mp hevent with rfl | hrest
    · exact h.1
    · exact ih _ (h.2 _) _ event hrest
  | launch p cmd most next ih =>
    intro event hevent
    rcases List.mem_cons.mp hevent with rfl | hrest
    · exact h.1
    · exact ih _ (h.2 _) _ event hrest

/-- All processes of work with the tools are launched like this. -/
theorem Job.Serves.launched {job : Job α} (h : job.Serves path limit) (m : Machine σ) (s : σ) :
    ∀ l ∈ launches (job.record m s), ServedBy path limit l.path l.cmd l.limit :=
  fun l hl => h.record m s (.launched l) (mem_launches.mp hl)

/-- Attempts with the tools can be put one after another: a failure leaves out the second one. -/
theorem Attempt.serves_bind {a : Attempt α} {f : α → Attempt β} (ha : a.run.Serves path limit)
    (hf : ∀ x, (f x).run.Serves path limit) : (a >>= f).run.Serves path limit := by
  rw [run_bind]
  refine ha.andThen fun x => ?_
  cases x with
  | ok x => exact hf x
  | error e => trivial

namespace Chain

/-! ## The parts of the jobs -/

/-- The command, if there is one, is built on `path`. -/
def Built (path : Path) (command : Except ChainError Command) : Prop :=
  ∀ cmd, command = .ok cmd → ∃ tool flags, Command.build tool flags path = .ok cmd

/-- The command of a tool that was found is built; for any other tool there is none. -/
theorem commandOf_built (path : Path) (tool : Descriptor) (flags : String) :
    Built path (commandOf path tool flags) := by
  intro cmd hcmd
  refine ⟨tool, flags, ?_⟩
  unfold commandOf at hcmd
  cases hbuild : Command.build tool flags path with
  | ok built =>
    rw [hbuild] at hcmd
    rw [Except.ok.inj hcmd]
  | error e =>
    rw [hbuild] at hcmd
    cases hcmd

/-- A tool of the service's own choice is looked up first, and then used like any other. -/
theorem commandNamed_built (c : Chain) (path : Path) (name flags : String) :
    Built path (c.commandNamed path name flags) := by
  unfold commandNamed
  cases c.registry.runnable name with
  | ok tool => exact commandOf_built path tool flags
  | error e => exact fun _ h => nomatch h

/-- The commands of a stage are built on its file: that of its tool, and those that the service puts
before and after it. -/
theorem commands_built (c : Chain) (path : Path) (stage : PlannedStage) :
    ∀ command ∈ c.commands path stage, Built path command := by
  intro command hcommand
  simp only [commands, List.mem_append, List.mem_singleton] at hcommand
  rcases hcommand with (hbefore | rfl) | hafter
  · split at hbefore
    · rw [List.mem_singleton.mp hbefore]
      exact c.commandNamed_built path _ _
    · cases hbefore
  · exact commandOf_built path _ _
  · split at hafter
    · rw [List.mem_singleton.mp hafter]
      exact c.commandNamed_built path _ _
    · cases hafter

/-- To stage contents launches nothing. -/
theorem put_serves (path : Path) (contents : Bytes) :
    (put path contents).run.Serves path limit :=
  ⟨rfl, fun _ => trivial⟩

/-- A command is launched with the limit of the service. One that is missing is not launched. -/
theorem launch_serves (c : Chain) {command : Except ChainError Command}
    (h : Built path command) : (c.launch path command).run.Serves path c.limit := by
  cases command with
  | ok cmd => exact ⟨⟨rfl, rfl, h cmd rfl⟩, fun _ => trivial⟩
  | error e => trivial

/-- Commands that are all built on the file serve it one after another. -/
theorem launchAll_serves (c : Chain) {commands : List (Except ChainError Command)}
    (h : ∀ command ∈ commands, Built path command) (last : String) :
    (c.launchAll path last commands).run.Serves path c.limit := by
  -- on the commands; whatever the first one printed, the others are built as before
  induction commands generalizing last with
  | nil => trivial
  | cons command rest ih =>
    refine Attempt.serves_bind (c.launch_serves (h command List.mem_cons_self)) fun text => ?_
    exact ih (fun cmd hcmd => h cmd (List.mem_cons_of_mem command hcmd)) text

/-- A stage is its commands, and what is made of its output takes no step. -/
theorem runStage_serves (c : Chain) (path : Path) (stage : PlannedStage) :
    (c.runStage path stage).run.Serves path c.limit := by
  rw [runStage_eq, map_eq_pure_bind]
  exact Attempt.serves_bind (c.launchAll_serves (c.commands_built path stage) "") fun _ => trivial

/-- All stages serve one file, whatever text they are run on. -/
theorem runStages_serves (c : Chain) (path : Path) (plan : List PlannedStage) (text : String) :
    (c.runStages path text plan).run.Serves path c.limit := by
  -- on the stages; the text is general, since each stage hands another one on
  induction plan generalizing text with
  | nil => trivial
  | cons stage rest ih =>
    refine Attempt.serves_bind (put_serves path _) fun _ => ?_
    exact Attempt.serves_bind (c.runStage_serves path stage) ih

/-- To run a tool of the service's own choice is to launch its command. -/
theorem runNamed_serves (c : Chain) (path : Path) (name flags : String) :
    (c.runNamed path name flags).run.Serves path c.limit := by
  rw [runNamed_eq]
  exact c.launch_serves (c.commandNamed_built path name flags)

/-- Steps that each serve the file serve it together, however far they come. -/
theorem runSteps_serves {steps : List (Attempt String)}
    (h : ∀ step ∈ steps, step.run.Serves path limit) (completed : Nat) (last : String) :
    (runSteps completed last steps).Serves path limit := by
  -- on the steps; the first failure is where a run of them is done
  induction steps generalizing completed last with
  | nil => trivial
  | cons step rest ih =>
    refine (h step List.mem_cons_self).andThen fun x => ?_
    cases x with
    | ok text => exact ih (fun s hs => h s (List.mem_cons_of_mem _ hs)) _ _
    | error e => trivial

/-- The four steps of a validation run tools of the service's own choice. -/
theorem validationSteps_serve (c : Chain) (path : Path) (flags : String) :
    ∀ step ∈ c.validationSteps path flags, step.run.Serves path c.limit := by
  intro step hstep
  simp only [validationSteps, disassembleScratch, List.mem_cons, List.not_mem_nil,
    or_false] at hstep
  rcases hstep with rfl | rfl | rfl | rfl <;> exact c.runNamed_serves path _ _

/-- A stage works on its file and nowhere else. -/
theorem runStage_worksAt (c : Chain) (path : Path) (stage : PlannedStage) :
    (c.runStage path stage).run.WorksAt path :=
  (c.runStage_serves path stage).worksAt

/-- So do all stages of a plan. -/
theorem runStages_worksAt (c : Chain) (path : Path) (plan : List PlannedStage) (text : String) :
    (c.runStages path text plan).run.WorksAt path :=
  (c.runStages_serves path plan text).worksAt

/-! ## The jobs -/

/-- What is made of the result of a job over a scratch file can be made of it before the file is
removed. -/
theorem map_withScratch (c : Chain) (f : α → β) (failed : ChainError → α) (body : Path → Job α) :
    f <$> c.withScratch failed body = c.withScratch (f ∘ failed) fun path => f <$> body path := by
  refine congrArg (Job.create c.scratchDir) (funext fun x => ?_)
  cases x with
  | error e => rfl
  | ok path =>
    show ((body path).andThen fun a => .remove path (.done a)).andThen (.done ∘ f) =
      ((body path).andThen (.done ∘ f)).andThen fun b => .remove path (.done b)
    rw [Job.andThen_assoc, Job.andThen_assoc]
    rfl

/-- A job that asks nothing of the machine, or serves a scratch file between the creation of the
file and its removal. -/
def Serves (c : Chain) (job : Job α) : Prop :=
  (∃ a, job = .done a) ∨
    ∃ failed body, job = c.withScratch failed body ∧ ∀ path, (body path).Serves path c.limit

/-- What is made of the result of a job takes no step. -/
theorem Serves.map {c : Chain} {job : Job α} (h : c.Serves job) (f : α → β) :
    c.Serves (f <$> job) := by
  rcases h with ⟨a, rfl⟩ | ⟨failed, body, rfl, hbody⟩
  · exact .inl ⟨f a, rfl⟩
  · refine .inr ⟨_, _, c.map_withScratch f failed body, fun path => ?_⟩
    exact (hbody path).andThen fun _ => trivial

/-- A chain serves one scratch file, which exists only if its plan is accepted. -/
theorem compile_serves (c : Chain) (request : Request) : c.Serves (c.compile request) := by
  unfold compile
  cases c.registry.plan request with
  | error e => exact .inl ⟨_, rfl⟩
  | ok plan =>
    refine .inr ⟨_, _, rfl, fun path => ?_⟩
    exact (c.runStages_serves path plan request.source).andThen fun _ => trivial

/-- A disassembly stages its module and runs the disassembler on it. -/
theorem disassemble_serves (c : Chain) (binary : Bytes) : c.Serves (c.disassemble binary) := by
  refine .inr ⟨_, _, rfl, fun path => ?_⟩
  have hserves : ((put path binary >>= fun _ => c.disassembleScratch path).run).Serves path c.limit :=
    Attempt.serves_bind (put_serves path binary) fun _ => c.runNamed_serves path _ _
  exact hserves.andThen fun _ => trivial

/-- A validation stages its text, and takes its four steps if that went well. -/
theorem validate_serves (c : Chain) (spirv : String) (env : Option String) :
    c.Serves (c.validate spirv env) := by
  unfold validate
  dsimp only
  refine .inr ⟨_, _, rfl, fun path => ?_⟩
  refine (put_serves path (Utf8.ofText spirv)).andThen fun x => ?_
  -- without its text there is nothing to take the steps on
  cases x with
  | error e => trivial
  | ok u => exact (runSteps_serves (c.validationSteps_serve path _) _ _).andThen fun _ => trivial

/-- Every job of the service serves one scratch file, or needs none. -/
theorem perform_serves (c : Chain) (inquiry : Inquiry) : c.Serves (c.perform inquiry) := by
  cases inquiry with
  | compile request => exact (c.compile_serves request).map _
  | disassemble binary => exact (c.disassemble_serves binary).map _
  | validate spirv env => exact (c.validate_serves spirv env).map _

/-- A job that asks nothing of the machine, or works on a scratch file between the creation of the
file and its removal. -/
def Tidies (c : Chain) (job : Job α) : Prop :=
  (∃ a, job = .done a) ∨
    ∃ failed body, job = c.withScratch failed body ∧ ∀ path, (body path).WorksAt path

/-- Every job of the service creates and removes its scratch file, or needs none. -/
theorem perform_tidies (c : Chain) (inquiry : Inquiry) : c.Tidies (c.perform inquiry) := by
  rcases c.perform_serves inquiry with hdone | ⟨failed, body, hjob, hbody⟩
  · exact .inl hdone
  · exact .inr ⟨failed, body, hjob, fun path => (hbody path).worksAt⟩

end Chain

end ShaderChain
