import ShaderChain.Proofs.Plan
import ShaderChain.Proofs.Store
import ShaderChain.Proofs.Work

/-!
# Which processes a chain runs

An accepted plan expects certain commands in a certain order (`Chain.expected`). A run launches
them one after another and stages texts in between. Either it goes to the end (`Completed`), or it
is stopped by the first failure (`Stopped`): the next command cannot be built, the process that was
launched last failed, or a text could not be staged.

`Attempt.Plays` says of a part of a job that all its runs are of these two kinds. It composes with
the sequence of parts (`Attempt.plays_bind`), so the main statement `compile_trace` is assembled
from one lemma for each part.

What a client reads of a failure is written out for each cause (`Reports`), from the processes of the
run and without the functions that put a report together; `Stopped.reports` is where the two meet.
-/

namespace ShaderChain

variable {α β σ : Type}

/-! ## Runs that go to the end, and runs that are stopped -/

/-- All commands were launched, and no step failed. -/
structure Completed (expected : List (Except ChainError Command)) (record : List (Event σ)) :
    Prop where
  launched : launchedCommands record = expected
  succeeded : ∀ event ∈ record, event.succeeded = true

/-- The run was stopped by its first failure, with this cause. -/
inductive Stopped :
    List (Except ChainError Command) → List (Event σ) → ChainError → Prop
  /-- The next command cannot be built. -/
  | missing {done rest record e} (h : Completed done record) :
    Stopped (done ++ .error e :: rest) record e
  /-- The process that was launched last failed. -/
  | failed {done rest record l failure} (h : Completed done record)
    (hl : l.ending.result l.cmd = .error failure) :
    Stopped (done ++ .ok l.cmd :: rest) (record ++ [.launched l]) (.command failure)
  /-- A text could not be staged. -/
  | unstaged {done rest record path contents cause} (h : Completed done record) :
    Stopped (done ++ rest) (record ++ [.staged path contents (.error cause)]) (.scratch cause)

/-- How a run of these commands ends with such an outcome. -/
def Played (expected : List (Except ChainError Command)) (record : List (Event σ)) :
    Except ChainError α → Prop
  | .ok _ => Completed expected record
  | .error e => Stopped expected record e

theorem Completed.nil : Completed [] ([] : List (Event σ)) :=
  ⟨rfl, fun _ h => nomatch h⟩

theorem Completed.append {expected expected' : List (Except ChainError Command)}
    {record record' : List (Event σ)} (h : Completed expected record)
    (h' : Completed expected' record') :
    Completed (expected ++ expected') (record ++ record') where
  launched := by
    rw [← h.launched, ← h'.launched]
    simp [launchedCommands]
  succeeded event hmem :=
    (List.mem_append.mp hmem).elim (h.succeeded event) (h'.succeeded event)

/-- Every process of a run that went to its end succeeded. -/
theorem Completed.launch_succeeded {commands : List (Except ChainError Command)}
    {record : List (Event σ)} (h : Completed commands record) :
    ∀ l ∈ launches record, l.ending.succeeded = true := by
  intro l hl
  obtain ⟨event, hevent, hprocess⟩ := List.mem_filterMap.mp hl
  cases event with
  | launched process =>
    obtain rfl := Option.some.inj hprocess
    exact h.succeeded _ hevent
  | created | staged | removed => cases hprocess

/-- What comes before a stopped run, and went to its end, belongs to the stopped run. -/
theorem Stopped.after {expected expected' : List (Except ChainError Command)}
    {record record' : List (Event σ)} {e : ChainError} (h : Completed expected record)
    (hs : Stopped expected' record' e) :
    Stopped (expected ++ expected') (record ++ record') e := by
  cases hs with
  | missing h' =>
    rw [← List.append_assoc]
    exact .missing (h.append h')
  | failed h' hl =>
    rw [← List.append_assoc, ← List.append_assoc]
    exact .failed (h.append h') hl
  | unstaged h' =>
    rw [← List.append_assoc, ← List.append_assoc]
    exact .unstaged (h.append h')

/-- Nothing of what would have come after a stopped run is launched. -/
theorem Stopped.before {expected : List (Except ChainError Command)}
    {record : List (Event σ)} {e : ChainError} (hs : Stopped expected record e)
    (expected' : List (Except ChainError Command)) : Stopped (expected ++ expected') record e := by
  cases hs with
  | missing h =>
    rw [List.append_assoc, List.cons_append]
    exact .missing h
  | failed h hl =>
    rw [List.append_assoc, List.cons_append]
    exact .failed h hl
  | unstaged h =>
    rw [List.append_assoc]
    exact .unstaged h

/-- A stopped run launches the first of the expected commands, each once. -/
theorem Stopped.launched_initial {expected : List (Except ChainError Command)}
    {record : List (Event σ)} {e : ChainError} (hs : Stopped expected record e) :
    launchedCommands record <+: expected := by
  cases hs with
  | missing h =>
    rw [← h.launched]
    exact List.prefix_append _ _
  | @failed done rest record l failure h hl =>
    exact ⟨rest, by simp [h.launched, Event.process?, Launch.command]⟩
  | @unstaged done rest record path contents cause h =>
    exact ⟨rest, by simp [h.launched, Event.process?]⟩

/-- However a run ends, it launches the first of the expected commands, each once. -/
theorem Played.launched_initial {expected : List (Except ChainError Command)}
    {record : List (Event σ)} {outcome : Except ChainError α} (h : Played expected record outcome) :
    launchedCommands record <+: expected := by
  cases outcome with
  | ok a => exact (Completed.launched h) ▸ List.prefix_rfl
  | error e => exact Stopped.launched_initial h

/-- A process that fails has no text as its result. -/
theorem Ending.succeeded_of_result {cmd : Command} {ending : Ending} {text : String}
    (h : ending.result cmd = .ok text) :
    ending.succeeded = true ∧ text = Utf8.lossy ending.printed := by
  cases ending with
  | exited success stdout stderr =>
    cases success with
    | true => exact ⟨rfl, (Except.ok.inj h).symm⟩
    | false => cases h
  | unlaunched cause => cases h
  | timedOut limit => cases h

theorem Ending.not_succeeded_of_result {cmd : Command} {ending : Ending} {failure : Failure}
    (h : ending.result cmd = .error failure) : ending.succeeded = false := by
  cases ending with
  | exited success stdout stderr =>
    cases success with
    | true => cases h
    | false => rfl
  | unlaunched cause => rfl
  | timedOut limit => rfl

/-- A stopped run is not one that went to its end. -/
theorem Stopped.not_completed {expected : List (Except ChainError Command)}
    {record : List (Event σ)} {e : ChainError} (hs : Stopped expected record e) :
    ¬ Completed expected record := by
  intro hc
  -- a missing command is launched by no run; the two other causes are steps that failed
  cases hs with
  | missing h =>
    have hlaunched := hc.launched
    rw [h.launched] at hlaunched
    simp at hlaunched
  | @failed done rest record l failure h hl =>
    have hl' : l.ending.succeeded = true := hc.succeeded (.launched l) (by simp)
    rw [Ending.not_succeeded_of_result hl] at hl'
    cases hl'
  | @unstaged done rest record path contents cause h =>
    exact absurd (hc.succeeded (.staged path contents (.error cause)) (by simp)) Bool.noConfusion

/-! ## What is reported of a failure -/

/-- What is to be reported of the cause that stopped a run of these processes, as long as the path of
the scratch file still stands in it. Of a process, which is the last one, these are the command, and
what it printed on its two outputs, or else why it printed nothing; of all else it is the wording. -/
inductive Reports (ran : List (Launch σ)) : ChainError → Report → Prop
  /-- The process ended by itself, but not with status zero. -/
  | exited {l failure stdout stderr} (hlast : ran.getLast? = some l)
    (hending : l.ending = .exited false stdout stderr) :
    Reports ran (.command failure)
      { cmd := l.cmd.render, stdout := Utf8.lossy stdout, stderr := Utf8.lossy stderr }
  /-- The process could not be started. -/
  | unlaunched {l failure cause} (hlast : ran.getLast? = some l)
    (hending : l.ending = .unlaunched cause) :
    Reports ran (.command failure)
      { cmd := l.cmd.render
        stdout := ""
        stderr := "failed to launch " ++ l.cmd.tool ++ ": " ++ cause.message }
  /-- The process was stopped when its time was over. -/
  | timedOut {l failure limit} (hlast : ran.getLast? = some l)
    (hending : l.ending = .timedOut limit) :
    Reports ran (.command failure)
      { cmd := l.cmd.render, stdout := "", stderr := "timed out after " ++ limit.text }
  /-- The next tool is not in the registry. -/
  | unknown (name : String) :
    Reports ran (.unknownTool name)
      { cmd := "", stdout := "", stderr := "unknown tool: " ++ name }
  /-- The next tool was not found. -/
  | unavailable (name : String) :
    Reports ran (.unavailable name)
      { cmd := "", stdout := "", stderr := name ++ " is not available on this server" }
  /-- A text could not be staged. -/
  | unstaged (cause : IoError) :
    Reports ran (.scratch cause)
      { cmd := "", stdout := "", stderr := "scratch file error: " ++ cause.message }

namespace Reports

variable {ran : List (Launch σ)}

/-- A process that failed is reported by how it ended. -/
theorem of_result {l : Launch σ} {failure : Failure} (hlast : ran.getLast? = some l)
    (h : l.ending.result l.cmd = .error failure) :
    Reports ran (.command failure) (ChainError.command failure).report := by
  cases hending : l.ending with
  | exited success stdout stderr =>
    rw [hending] at h
    cases success with
    | true => cases h
    | false =>
      obtain rfl := Except.error.inj h
      exact .exited hlast hending
  | unlaunched cause =>
    rw [hending] at h
    obtain rfl := Except.error.inj h
    exact .unlaunched hlast hending
  | timedOut limit =>
    rw [hending] at h
    obtain rfl := Except.error.inj h
    exact .timedOut hlast hending

/-- A tool that cannot be used is reported by its name. -/
theorem of_lookup (name : String) (cause : LookupError) :
    Reports ran (.ofLookup name cause) (ChainError.ofLookup name cause).report := by
  cases cause with
  | notFound => exact .unknown name
  | unavailable => exact .unavailable name

end Reports

/-- The report of a run that was stopped is that of its cause, if what is missing is missing because
it cannot be looked up. -/
theorem Stopped.reports {expected : List (Except ChainError Command)} {record : List (Event σ)}
    {e : ChainError} (hs : Stopped expected record e)
    (hmissing : ∀ e, .error e ∈ expected → ∃ name cause, e = .ofLookup name cause) :
    Reports (launches record) e e.report := by
  cases hs with
  | missing h =>
    obtain ⟨name, cause, rfl⟩ := hmissing e (by simp)
    exact .of_lookup name cause
  | failed h hl => exact .of_result (by simp) hl
  | unstaged h => exact .unstaged _

/-! ## The parts of a chain -/

/-- All runs of this part of a job launch these commands, or are stopped. -/
def Attempt.Plays (a : Attempt α) (expected : List (Except ChainError Command)) : Prop :=
  ∀ ⦃σ : Type⦄ (m : Machine σ) (s : σ), Played expected (a.run.record m s) (a.run.run m s).1

theorem Attempt.plays_pure (a : α) : (pure a : Attempt α).Plays [] :=
  fun _ _ _ => Completed.nil

/-- One part after another expects the commands of both. -/
theorem Attempt.plays_bind {a : Attempt α} {f : α → Attempt β}
    {expected expected' : List (Except ChainError Command)} (ha : a.Plays expected)
    (hf : ∀ x, (f x).Plays expected') : (a >>= f).Plays (expected ++ expected') := by
  intro σ m s
  have hfirst := ha m s
  rw [run_bind, Job.record_andThen, Job.run_andThen]
  -- a failure of the first part ends the run before the commands of the second
  cases hx : (a.run.run m s).1 with
  | ok x =>
    rw [hx] at hfirst
    have hsecond := hf x m (a.run.run m s).2
    simp only [resume]
    cases hy : ((f x).run.run m (a.run.run m s).2).1 with
    | ok y =>
      rw [hy] at hsecond
      exact Completed.append hfirst hsecond
    | error e =>
      rw [hy] at hsecond
      exact Stopped.after hfirst hsecond
  | error e =>
    rw [hx] at hfirst
    simp only [resume, Job.record, Job.run, List.append_nil]
    exact Stopped.before hfirst expected'

namespace Chain

/-- The commands that a plan is expected to launch on the scratch file at `path`. -/
def expected (c : Chain) (path : Path) (plan : List PlannedStage) :
    List (Except ChainError Command) :=
  plan.flatMap (c.commands path)

theorem put_plays (path : Path) (contents : Bytes) : (put path contents).Plays [] := by
  intro σ m s
  simp only [put, ExceptT.run_mk, Job.record, Job.run]
  cases hx : (m.stage path contents s).1 with
  | ok u => exact ⟨rfl, by simp [Event.succeeded, Except.isOk, Except.toBool]⟩
  | error e =>
    show Stopped ([] ++ []) ([] ++ [Event.staged path contents (.error e)]) _
    exact .unstaged Completed.nil

theorem launch_plays (c : Chain) (path : Path) (command : Except ChainError Command) :
    (c.launch path command).Plays [command] := by
  intro σ m s
  cases command with
  | error e =>
    show Stopped ([] ++ .error e :: []) [] e
    exact .missing Completed.nil
  | ok cmd =>
    simp only [launch, ExceptT.run_mk, Job.record, Job.run]
    cases hx : (m.launch path cmd c.limit s).1.result cmd with
    | ok text =>
      refine ⟨rfl, fun event hevent => ?_⟩
      rw [List.mem_singleton.mp hevent]
      exact (Ending.succeeded_of_result hx).1
    | error failure =>
      let l := m.process path cmd c.limit s
      show Stopped ([] ++ .ok l.cmd :: []) ([] ++ [.launched l]) _
      exact .failed Completed.nil hx

theorem launchAll_plays (c : Chain) (path : Path) (commands : List (Except ChainError Command))
    (last : String) : (c.launchAll path last commands).Plays commands := by
  induction commands generalizing last with
  | nil => exact Attempt.plays_pure last
  | cons command rest ih =>
    show (c.launch path command >>= fun text => c.launchAll path text rest).Plays
      ([command] ++ rest)
    exact Attempt.plays_bind (c.launch_plays path command) ih

theorem runStage_plays (c : Chain) (path : Path) (stage : PlannedStage) :
    (c.runStage path stage).Plays (c.commands path stage) := by
  have h := Attempt.plays_bind (c.launchAll_plays path (c.commands path stage) "")
    fun text => Attempt.plays_pure (outputOf stage text)
  rw [runStage_eq, map_eq_pure_bind]
  rwa [List.append_nil] at h

theorem runStages_plays (c : Chain) (path : Path) (plan : List PlannedStage) (text : String) :
    (c.runStages path text plan).Plays (c.expected path plan) := by
  induction plan generalizing text with
  | nil => exact Attempt.plays_pure text
  | cons stage rest ih =>
    have h := Attempt.plays_bind (put_plays path (Utf8.ofText text))
      fun _ => Attempt.plays_bind (c.runStage_plays path stage) ih
    exact h

/-- A run that goes to its end is reported as a success, and no other run is. -/
theorem success_iff_completed {path : Path} {expected : List (Except ChainError Command)}
    {record : List (Event σ)} {outcome : Except ChainError String}
    (h : Played expected record outcome) :
    (compilationOf path outcome).success = true ↔ Completed expected record := by
  cases outcome with
  | ok output => exact iff_of_true rfl h
  | error e => exact iff_of_false Bool.noConfusion (Stopped.not_completed h)

/-- A run that is stopped reports what stopped it, with the path taken out of all three texts. -/
theorem stopped_of_failure {path : Path} {expected : List (Except ChainError Command)}
    {record : List (Event σ)} {outcome : Except ChainError String}
    (h : Played expected record outcome)
    (hmissing : ∀ e, .error e ∈ expected → ∃ name cause, e = .ofLookup name cause)
    (hfailed : (compilationOf path outcome).success = false) :
    ∃ e report, Stopped expected record e ∧ Reports (launches record) e report ∧
      (compilationOf path outcome).error =
        { cmd := (Scrubber.ofPath path).scrub report.cmd
          stdout := (Scrubber.ofPath path).scrub report.stdout
          stderr := (Scrubber.ofPath path).scrub report.stderr } := by
  cases outcome with
  | ok output => cases hfailed
  | error e => exact ⟨e, e.report, h, Stopped.reports h hmissing, rfl⟩

/-- **The processes of a chain.** A rejected request takes no step at all. Once the scratch file of
an accepted one exists, a run launches the first of the expected commands, in order and each once,
on this file and for no longer than the service allows. The request succeeds exactly if all of them
were launched and no step failed. Otherwise the run was stopped by its first failure, and its report
is what `Reports` says of this failure, without the path of the scratch file; a command that is
missing is the assembler's or the disassembler's, which cannot be looked up. -/
theorem compile_trace (c : Chain) (request : Request) (m : Machine σ) (s : σ) :
    let record := (c.compile request).record m s
    let result := ((c.compile request).run m s).1
    (∀ e, c.registry.plan request = .error e → record = [] ∧ result = .failed e.report) ∧
    ∀ plan path, c.registry.plan request = .ok plan → scratchOf record = some path →
      ∃ body, record = .created c.scratchDir (.ok path) :: body ++ [.removed path] ∧
        launchedCommands record <+: c.expected path plan ∧
        (∀ l ∈ launches record, l.path = path ∧ l.limit = c.limit) ∧
        (result.success = true ↔ Completed (c.expected path plan) body) ∧
        (result.success = false → ∃ e report, Stopped (c.expected path plan) body e ∧
          Reports (launches record) e report ∧
          result.error =
            { cmd := (Scrubber.ofPath path).scrub report.cmd
              stdout := (Scrubber.ofPath path).scrub report.stdout
              stderr := (Scrubber.ofPath path).scrub report.stderr }) ∧
        ∀ e, .error e ∈ c.expected path plan →
          ∃ name ∈ [Spec.assemblerName, Spec.disassemblerName], ∃ cause,
            c.registry.runnable name = .error cause ∧ e = .ofLookup name cause := by
  intro record result
  refine ⟨fun e hrejected => ?_, fun plan path hplan hscratch => ?_⟩
  · simp [record, result, compile_rejected hrejected, Job.record, Job.run]
  · have hpath := create_of_scratchOf_compile hplan hscratch
    have hplayed := c.runStages_plays path plan request.source m (m.create c.scratchDir s).2
    have hresult : result = _ := run_compile hplan hpath
    have hlaunches : launches record = _ := launches_compile hplan hpath
    have hmissing : ∀ e, .error e ∈ c.expected path plan →
        ∃ name ∈ [Spec.assemblerName, Spec.disassemblerName], ∃ cause,
          c.registry.runnable name = .error cause ∧ e = .ofLookup name cause := by
      intro e he
      obtain ⟨stage, hstage, he⟩ := List.mem_flatMap.mp he
      exact lookup_of_missing (Registry.planAfter_discovered hplan stage hstage) he
    refine ⟨_, record_compile hplan hpath, ?_, ?_, ?_, ?_, hmissing⟩
    · rw [launchedCommands, hlaunches]
      exact hplayed.launched_initial
    · rw [hlaunches]
      intro l hl
      have hserved := (c.runStages_serves path plan request.source).launched m _ l hl
      exact ⟨hserved.place, hserved.time⟩
    · rw [hresult]
      exact success_iff_completed hplayed
    · rw [hresult, hlaunches]
      refine stopped_of_failure hplayed fun e he => ?_
      obtain ⟨name, -, cause, -, heq⟩ := hmissing e he
      exact ⟨name, cause, heq⟩

/-- An optimizer over a store, where every program prints the file; and where the disassembler finds
an error in it, which is reported. -/
theorem trace_of_optimizer :
    let request : Request :=
      { source := "text", stages := [⟨"spirv-opt", "-O"⟩], stages_ne := by simp
        stages_le := by decide }
    let path := Utf8.ofText "/tmp/a"
    let failing : Tools := fun program args limit entry =>
      if program = Utf8.ofText "/bin/spirv-dis" then
        (.exited false [] (Utf8.ofText (args.headD "" ++ ": error")), entry)
      else Tools.echo program args limit entry
    let record := (Chain.complete.compile request).record (Store.machine .echo (.ok path))
      fun _ => none
    let stopped := Store.machine failing (.ok path)
    let result := ((Chain.complete.compile request).run stopped fun _ => none).1
    (launches record).map (·.cmd.tool) = ["spirv-as", "spirv-opt", "spirv-dis"] ∧
    (∃ plan body, Chain.complete.registry.plan request = .ok plan ∧
      record = .created none (.ok path) :: body ++ [.removed path] ∧
      Completed (Chain.complete.expected path plan) body) ∧
    result.error.stderr = "<source>: error" ∧
    ∃ e report,
      Reports (launches ((Chain.complete.compile request).record stopped fun _ => none)) e report ∧
      result.error.stderr = (Scrubber.ofPath path).scrub report.stderr := by
  intro request path failing record stopped result
  have hscratch : scratchOf record = some path := by decide +kernel
  have htrace := compile_trace Chain.complete request (Store.machine .echo (.ok path)) fun _ => none
  obtain ⟨body, hrecord, -, -, hsuccess, -⟩ := htrace.2 _ path rfl hscratch
  have hcompleted := hsuccess.mp (by decide +kernel)
  have hcreated :
      scratchOf ((Chain.complete.compile request).record stopped fun _ => none) = some path := by
    decide +kernel
  have hstopped := compile_trace Chain.complete request stopped fun _ => none
  obtain ⟨rest, -, -, -, -, hfailure, -⟩ := hstopped.2 _ path rfl hcreated
  obtain ⟨e, report, -, hreports, herror⟩ := hfailure (by decide +kernel)
  refine ⟨by decide +kernel, ⟨_, body, rfl, hrecord, hcompleted⟩, by decide +kernel, e, report,
    hreports, ?_⟩
  rw [herror]

end Chain

end ShaderChain
