import ShaderChain.Proofs.Processes

/-!
# Records of runs

`Job.record` lists the steps that a job takes when it runs alone on a machine, each with the
machine's answer. Of a process the record keeps all there is to know (`Launch`): the command, the
state of the machine when it is launched, how it ends, and the state that it leaves.
-/

namespace ShaderChain

variable {α β σ : Type}

/-- One process, from its launch to its end. A launch that fails counts as one. -/
structure Launch (σ : Type) where
  path : Path
  cmd : Command
  limit : Option Span
  before : σ
  ending : Ending
  after : σ

/-- The process of a command on a machine in this state. -/
def Machine.process (m : Machine σ) (path : Path) (cmd : Command) (limit : Option Span) (s : σ) :
    Launch σ where
  path
  cmd
  limit
  before := s
  ending := (m.launch path cmd limit s).1
  after := (m.launch path cmd limit s).2

/-- A step of a job, with its answer. -/
inductive Event (σ : Type) where
  | created (dir : Option Path) (answer : Except IoError Path)
  | staged (path : Path) (contents : Bytes) (answer : Except IoError Unit)
  | launched (process : Launch σ)
  | removed (path : Path)

/-- The steps of a job that runs alone, from the first on. -/
def Job.record (m : Machine σ) : Job α → σ → List (Event σ)
  | .done _, _ => []
  | .create dir next, s =>
    let (answer, s) := m.create dir s
    .created dir answer :: (next answer).record m s
  | .stage path contents next, s =>
    let (answer, s) := m.stage path contents s
    .staged path contents answer :: (next answer).record m s
  | .launch path cmd limit next, s =>
    let l := m.process path cmd limit s
    .launched l :: (next l.ending).record m l.after
  | .remove path next, s => .removed path :: next.record m (m.remove path s)

/-- The steps of two jobs, one after the other, are those of the first and then those of the second,
which starts where the first one ends. -/
theorem Job.record_andThen (m : Machine σ) (job : Job α) (f : α → Job β) (s : σ) :
    (job.andThen f).record m s =
      job.record m s ++ (f (job.run m s).1).record m (job.run m s).2 := by
  induction job generalizing s with
  | done a => rfl
  | create dir next ih => simp [andThen, record, run, ih]
  | stage path contents next ih => simp [andThen, record, run, ih]
  -- the state after a process is the one that its entry in the record keeps
  | launch path cmd limit next ih => simp [andThen, record, run, Machine.process, ih]
  | remove path next ih => simp [andThen, record, run, ih]

/-- What is made of a result is no step. -/
theorem Job.record_map (m : Machine σ) (f : α → β) (job : Job α) (s : σ) :
    (f <$> job).record m s = job.record m s := by
  rw [map_eq, record_andThen]
  exact List.append_nil _

theorem Job.run_map (m : Machine σ) (f : α → β) (job : Job α) (s : σ) :
    ((f <$> job).run m s).1 = f (job.run m s).1 := by
  rw [map_eq, run_andThen]
  rfl

/-! ## What a record tells -/

/-- The process of a step, if it is one. -/
def Event.process? : Event σ → Option (Launch σ)
  | .launched l => some l
  | _ => none

/-- The processes of a record, in the order of their launches. -/
def launches (record : List (Event σ)) : List (Launch σ) :=
  record.filterMap Event.process?

@[simp] theorem launches_nil : launches ([] : List (Event σ)) = [] := rfl

/-- The processes of one record and then another are those of the two. -/
@[simp] theorem launches_append (r r' : List (Event σ)) :
    launches (r ++ r') = launches r ++ launches r' :=
  List.filterMap_append

@[simp] theorem launches_cons_launched (l : Launch σ) (r : List (Event σ)) :
    launches (.launched l :: r) = l :: launches r := rfl

@[simp] theorem launches_cons_created (dir : Option Path) (x : Except IoError Path)
    (r : List (Event σ)) : launches (.created dir x :: r) = launches r := rfl

@[simp] theorem launches_cons_staged (path : Path) (contents : Bytes) (x : Except IoError Unit)
    (r : List (Event σ)) : launches (.staged path contents x :: r) = launches r := rfl

@[simp] theorem launches_cons_removed (path : Path) (r : List (Event σ)) :
    launches (.removed path :: r) = launches r := rfl

/-- The processes of a record are those of its steps. -/
theorem mem_launches {l : Launch σ} {record : List (Event σ)} :
    l ∈ launches record ↔ .launched l ∈ record := by
  unfold launches
  rw [List.mem_filterMap]
  constructor
  · rintro ⟨event, hevent, hl⟩
    cases event with
    | launched l' =>
      obtain rfl := Option.some.inj hl
      exact hevent
    -- no other step is taken for a process
    | created | staged | removed => cases hl
  · exact fun h => ⟨_, h, rfl⟩

/-- The command of a process, as it stands among the commands that a plan expects. -/
def Launch.command (l : Launch σ) : Except ChainError Command :=
  .ok l.cmd

/-- The commands of a record, in the order of their launches. -/
def launchedCommands (record : List (Event σ)) : List (Except ChainError Command) :=
  (launches record).map Launch.command

@[simp] theorem launchedCommands_nil : launchedCommands ([] : List (Event σ)) = [] := rfl

@[simp] theorem launchedCommands_append (r r' : List (Event σ)) :
    launchedCommands (r ++ r') = launchedCommands r ++ launchedCommands r' := by
  simp [launchedCommands]

/-- The first step of a record has a command if it is a process. -/
@[simp] theorem launchedCommands_cons (event : Event σ) (r : List (Event σ)) :
    launchedCommands (event :: r) =
      (event.process?.map Launch.command).toList ++ launchedCommands r := by
  cases event <;> rfl

/-- Whether a process ended in time and with status zero. -/
def Ending.succeeded : Ending → Bool
  | .exited success _ _ => success
  | .unlaunched _ | .timedOut _ => false

/-- Whether a step was carried out without a failure. -/
def Event.succeeded : Event σ → Bool
  | .created _ answer => answer.isOk
  | .staged _ _ answer => answer.isOk
  | .launched l => l.ending.succeeded
  | .removed _ => true

/-- What a process printed. -/
def Ending.printed : Ending → Bytes
  | .exited _ stdout _ => stdout
  | .unlaunched _ | .timedOut _ => []

/-- The path of the scratch file that a job creates. -/
def scratchOf (record : List (Event σ)) : Option Path :=
  record.findSome? fun
    | .created _ (.ok path) => some path
    | _ => none

/-! ## Jobs over a scratch file -/

namespace Chain

variable {c : Chain} {m : Machine σ} {s : σ} {failed : ChainError → α} {job : Path → Job α}

/-- A job whose scratch file cannot be created takes no other step. -/
theorem record_withScratch_error {e : IoError} (h : (m.create c.scratchDir s).1 = .error e) :
    (c.withScratch failed job).record m s = [.created c.scratchDir (.error e)] := by
  simp [withScratch, Job.record, h]

/-- It results in the failure of the creation. -/
theorem run_withScratch_error {e : IoError} (h : (m.create c.scratchDir s).1 = .error e) :
    ((c.withScratch failed job).run m s).1 = failed (.scratch e) := by
  simp [withScratch, Job.run, h]

/-- A job over a scratch file runs between the creation and the removal of the file. -/
theorem record_withScratch_ok {path : Path} (h : (m.create c.scratchDir s).1 = .ok path) :
    (c.withScratch failed job).record m s =
      .created c.scratchDir (.ok path) ::
        (job path).record m (m.create c.scratchDir s).2 ++ [.removed path] := by
  simp [withScratch, Job.record, Job.record_andThen, h]

/-- It results in what it made of the file: to remove the file does not change that. -/
theorem run_withScratch_ok {path : Path} (h : (m.create c.scratchDir s).1 = .ok path) :
    ((c.withScratch failed job).run m s).1 =
      ((job path).run m (m.create c.scratchDir s).2).1 := by
  simp [withScratch, Job.run, Job.run_andThen, h]

/-- The scratch file of a job is the one that its machine creates. -/
theorem create_of_scratchOf {path : Path}
    (h : scratchOf ((c.withScratch failed job).record m s) = some path) :
    (m.create c.scratchDir s).1 = .ok path := by
  -- the creation is the first step, so it is the one that is found
  cases hx : (m.create c.scratchDir s).1 with
  | error e =>
    rw [record_withScratch_error hx] at h
    cases h
  | ok p =>
    rw [record_withScratch_ok hx] at h
    exact congrArg Except.ok (Option.some.inj h)

/-! ## The job of a chain -/

section Compile

variable {request : Request} {plan : List PlannedStage} {path : Path}

/-- A request without a plan is answered at once, and not a single step is taken. -/
theorem compile_rejected {e : ChainError} (h : c.registry.plan request = .error e) :
    c.compile request = .done (.failed e.report) := by
  simp [compile, h]

/-- An accepted request is a job over a scratch file, in which the stages of its plan are run. -/
theorem compile_planned (h : c.registry.plan request = .ok plan) :
    c.compile request = c.withScratch (fun e => .failed e.report) fun path =>
      (c.runStages path request.source plan).run.andThen (.done ∘ compilationOf path) := by
  simp [compile, h]
  rfl

/-- The steps of an accepted request are those of its stages, between the creation and the removal
of the scratch file. -/
theorem record_compile (hplan : c.registry.plan request = .ok plan)
    (hpath : (m.create c.scratchDir s).1 = .ok path) :
    (c.compile request).record m s =
      .created c.scratchDir (.ok path) ::
        (c.runStages path request.source plan).run.record m (m.create c.scratchDir s).2 ++
          [.removed path] := by
  rw [compile_planned hplan, record_withScratch_ok hpath, Job.record_andThen]
  simp [Job.record]

/-- The processes of an accepted request are those of its stages. -/
theorem launches_compile (hplan : c.registry.plan request = .ok plan)
    (hpath : (m.create c.scratchDir s).1 = .ok path) :
    launches ((c.compile request).record m s) =
      launches ((c.runStages path request.source plan).run.record m
        (m.create c.scratchDir s).2) := by
  simp [record_compile hplan hpath]

/-- The scratch file of an accepted request is the one that its machine creates. -/
theorem create_of_scratchOf_compile (hplan : c.registry.plan request = .ok plan)
    (h : scratchOf ((c.compile request).record m s) = some path) :
    (m.create c.scratchDir s).1 = .ok path := by
  rw [compile_planned hplan] at h
  exact create_of_scratchOf h

/-- The result of an accepted request is that of its stages. -/
theorem run_compile (hplan : c.registry.plan request = .ok plan)
    (hpath : (m.create c.scratchDir s).1 = .ok path) :
    ((c.compile request).run m s).1 =
      compilationOf path
        ((c.runStages path request.source plan).run.run m (m.create c.scratchDir s).2).1 := by
  rw [compile_planned hplan, run_withScratch_ok hpath, Job.run_andThen]
  rfl

end Compile

end Chain

end ShaderChain
