import ShaderChain.Proofs.Trace
import ShaderChain.Proofs.Validation

/-!
# How far a validation came

A validation tells how many of its four steps it completed, and what stopped it. `Reached` relates
this to the record of its run: with `k` completed steps, the first `k` commands were launched and
succeeded, and the run went no further because there is no next command, because the next one cannot
be built, or because its process failed. `Chain.runSteps_reached` shows it by induction on the
commands, `Chain.validate_cases` lists the three ways in which a validation can go, and
`Chain.validate_progress` is what they mean for the result.
-/

namespace ShaderChain

variable {α σ : Type}

/-! ## Runs that reach a step -/

/-- The first `k` commands were launched and succeeded, and this is how the run ended then. -/
inductive Reached (commands : List (Except ChainError Command)) :
    Nat → Except ChainError α → List (Event σ) → Prop
  /-- There is no next command. -/
  | finished {record} (a : α) (h : Completed commands record) :
    Reached commands commands.length (.ok a) record
  /-- The next command cannot be built. -/
  | missing {k record e} (h : Completed (commands.take k) record)
    (hnext : commands[k]? = some (.error e)) : Reached commands k (.error e) record
  /-- The process of the next command failed. -/
  | failed {k record l failure} (h : Completed (commands.take k) record)
    (hnext : commands[k]? = some l.command) (hl : l.ending.result l.cmd = .error failure) :
    Reached commands k (.error (.command failure)) (record ++ [.launched l])

namespace Reached

variable {commands : List (Except ChainError Command)} {k : Nat}
  {outcome : Except ChainError α} {record : List (Event σ)}

/-- What stopped at a step stopped at its command. -/
theorem played (h : Reached commands k outcome record) : Played commands record outcome := by
  have hsplit {command : Except ChainError Command} (hnext : commands[k]? = some command) :
      commands = commands.take k ++ command :: commands.drop (k + 1) := by
    obtain ⟨hk, rfl⟩ := List.getElem?_eq_some_iff.mp hnext
    rw [List.getElem_cons_drop, List.take_append_drop]
  cases h with
  | finished a h => exact h
  | @missing k record e h hnext =>
    show Stopped commands record e
    rw [hsplit hnext]
    exact .missing h
  | @failed k record l failure h hnext hresult =>
    show Stopped commands (record ++ [.launched l]) (.command failure)
    rw [hsplit hnext]
    exact .failed h hresult

/-- A process that succeeded goes before, as the first of one more step. -/
theorem after {l : Launch σ} (hl : l.ending.succeeded = true)
    (h : Reached commands k outcome record) :
    Reached (l.command :: commands) (k + 1) outcome (.launched l :: record) := by
  have hfirst : Completed [l.command] [Event.launched l] := by
    refine ⟨rfl, fun event hevent => ?_⟩
    rw [List.mem_singleton.mp hevent]
    exact hl
  cases h with
  | finished a h => exact .finished a (hfirst.append h)
  | missing h hnext => exact .missing (hfirst.append h) hnext
  | @failed k record last failure h hnext hresult =>
    -- the process that failed is the same, only one step later
    have hdone : Completed ((l.command :: commands).take (k + 1)) (.launched l :: record) :=
      hfirst.append h
    exact .failed hdone hnext hresult

end Reached

namespace Chain

/-- The steps of a validation count the commands that they complete. -/
theorem runSteps_reached (c : Chain) (path : Path) (m : Machine σ)
    (commands : List (Except ChainError Command)) (completed : Nat) (last : String) (s : σ) :
    let job := runSteps completed last (commands.map (c.launch path))
    ∃ k, (job.run m s).1.1 = completed + k ∧
      Reached commands k (job.run m s).1.2 (job.record m s) := by
  induction commands generalizing completed last s with
  | nil => exact ⟨0, rfl, .finished last Completed.nil⟩
  | cons command rest ih =>
    cases command with
    | error e =>
      have hnone : Completed (List.take 0 (.error e :: rest)) ([] : List (Event σ)) :=
        Completed.nil
      exact ⟨0, rfl, .missing hnone rfl⟩
    | ok cmd =>
      let l := m.process path cmd c.limit s
      simp only [List.map_cons, runSteps, Job.bind_eq, Job.run_andThen, Job.record_andThen]
      simp only [launch, ExceptT.run_mk, Job.record, Job.run]
      cases hresult : l.ending.result cmd with
      | error failure =>
        have hending : (m.launch path cmd c.limit s).1.result cmd = .error failure := hresult
        rw [hending]
        have hnone : Completed (List.take 0 (.ok cmd :: rest)) ([] : List (Event σ)) :=
          Completed.nil
        refine ⟨0, rfl, ?_⟩
        exact Reached.failed (l := l) hnone rfl hresult
      | ok text =>
        have hending : (m.launch path cmd c.limit s).1.result cmd = .ok text := hresult
        rw [hending]
        -- the rest goes on from one completed step more
        obtain ⟨k, hk, hreached⟩ := ih (completed + 1) text (m.launch path cmd c.limit s).2
        refine ⟨k + 1, ?_, ?_⟩
        · show _ = completed + (k + 1)
          rw [← Nat.add_assoc, Nat.add_right_comm]
          exact hk
        · exact hreached.after (Ending.succeeded_of_result hresult).1

end Chain

/-! ## The steps of a validation -/

/-- The tools of a validation, in the order of its steps. -/
def validationTools : List String :=
  [Spec.assemblerName, Spec.validatorName, Spec.optimizerName, Spec.disassemblerName]

namespace Steps

/-- Whether each step was completed, in the order of the steps. -/
def flags (r : Steps) : List Bool :=
  [r.assemble, r.val, r.opt, r.dis]

theorem flags_first {k : Nat} (hk : k ≤ validationTools.length) :
    (first k).flags =
      List.replicate k true ++ List.replicate (validationTools.length - k) false := by
  have hcases : ∀ k ≤ 4, (first k).flags =
      List.replicate k true ++ List.replicate (4 - k) false := by decide
  exact hcases k hk

end Steps

namespace Chain

/-- A tool of the service's own choice has the name by which it was chosen. -/
theorem tool_of_commandNamed {c : Chain} {path : Path} {name flags : String} {cmd : Command}
    (h : c.commandNamed path name flags = .ok cmd) : cmd.tool = name := by
  unfold commandNamed at h
  cases hr : c.registry.runnable name with
  | error cause =>
    rw [hr] at h
    cases h
  | ok tool =>
    have hname : tool.name = name :=
      Registry.name_of_lookup (Registry.runnable_eq_ok_iff.mp hr).1
    rw [hr] at h
    simp only [commandOf, Command.build] at h
    cases hexe : tool.executable with
    | none =>
      rw [hexe] at h
      cases h
    | some program =>
      rw [hexe] at h
      obtain rfl := Except.ok.inj h
      exact hname

/-- Every command of a validation is one of a tool of its own choice. -/
theorem commandNamed_of_getElem? {c : Chain} {path : Path} {flags : String} {k : Nat}
    {command : Except ChainError Command}
    (h : (c.validationCommands path flags)[k]? = some command) :
    ∃ name given, validationTools[k]? = some name ∧ command = c.commandNamed path name given := by
  match k with
  | 0 | 1 | 2 | 3 => exact ⟨_, _, rfl, (Option.some.inj h).symm⟩
  | _ + 4 => cases h

/-- The commands that were launched are those of the first tools. -/
theorem tools_of_launched {c : Chain} {path : Path} {flags : String} {k : Nat}
    {completed : List (Launch σ)}
    (h : completed.map Launch.command = (c.validationCommands path flags).take k) :
    completed.map (·.cmd.tool) = validationTools.take k := by
  have hlength : completed.length = (validationTools.take k).length := by
    rw [← List.length_map Launch.command, h]
    simp only [List.length_take]
    rfl
  refine List.ext_getElem (by rwa [List.length_map]) fun i hi hi' => ?_
  rw [List.length_map] at hi
  have hk : i < k := Nat.lt_of_lt_of_le hi' (List.length_take_le _ _)
  have hcommand := congrArg (·[i]?) h
  simp only [List.getElem?_map, List.getElem?_eq_getElem hi, List.getElem?_take_of_lt hk,
    Option.map_some] at hcommand
  obtain ⟨name, given, hname, hnamed⟩ := commandNamed_of_getElem? hcommand.symm
  have htool := tool_of_commandNamed hnamed.symm
  rw [List.getElem_map, htool, List.getElem_take]
  exact (List.getElem?_eq_some_iff.mp hname).2.symm

/-- What ended a validation that did not go to its end: the processes beyond those that completed
`k` steps, and the cause. -/
inductive StoppedAfter (c : Chain) (path : Path) (flags : String) (record : List (Event σ)) :
    Nat → List (Launch σ) → ChainError → Prop
  /-- The text could not be staged. -/
  | unstaged {contents cause} (h : .staged path contents (.error cause) ∈ record) :
    StoppedAfter c path flags record 0 [] (.scratch cause)
  /-- The next tool cannot be looked up. -/
  | missing {k name cause} (hname : validationTools[k]? = some name)
    (h : c.registry.runnable name = .error cause) :
    StoppedAfter c path flags record k [] (.ofLookup name cause)
  /-- The process of the next tool failed. -/
  | failed {k l failure} (hname : validationTools[k]? = some l.cmd.tool)
    (hcommand : (c.validationCommands path flags)[k]? = some l.command)
    (h : l.ending.result l.cmd = .error failure) :
    StoppedAfter c path flags record k [l] (.command failure)

/-- A validation that stopped after `k` steps completed the first `k` commands. -/
theorem stoppedAfter_of_reached {c : Chain} {path : Path} {flags : String} {k : Nat}
    {e : ChainError} {steps : List (Event σ)} (record : List (Event σ))
    (h : Reached (c.validationCommands path flags) k (.error e : Except ChainError α) steps) :
    ∃ completed last, launches steps = completed ++ last ∧
      completed.map Launch.command = (c.validationCommands path flags).take k ∧
      (∀ l ∈ completed, l.ending.succeeded = true) ∧ k < validationTools.length ∧
      StoppedAfter c path flags record k last e := by
  cases h with
  | missing hcompleted hnext =>
    obtain ⟨name, given, hname, hnamed⟩ := commandNamed_of_getElem? hnext
    obtain ⟨cause, hlookup, rfl⟩ := lookup_of_commandNamed hnamed.symm
    exact ⟨_, [], (List.append_nil _).symm, hcompleted.launched, hcompleted.launch_succeeded,
      (List.getElem?_eq_some_iff.mp hname).1, .missing hname hlookup⟩
  | @failed k steps l failure hcompleted hnext hresult =>
    obtain ⟨name, given, hname, hnamed⟩ := commandNamed_of_getElem? hnext
    obtain rfl := tool_of_commandNamed hnamed.symm
    exact ⟨_, [l], launches_append _ _, hcompleted.launched, hcompleted.launch_succeeded,
      (List.getElem?_eq_some_iff.mp hname).1, .failed hname hnext hresult⟩

/-- What stopped a validation is reported from the process beyond the completed steps, if there is
one. -/
theorem StoppedAfter.reports {c : Chain} {path : Path} {flags : String} {record : List (Event σ)}
    {k : Nat} {last : List (Launch σ)} {e : ChainError}
    (h : StoppedAfter c path flags record k last e) (completed : List (Launch σ)) :
    Reports (completed ++ last) e e.report := by
  cases h with
  | unstaged h => exact .unstaged _
  | missing hname h => exact .of_lookup _ _
  | failed hname hcommand h => exact .of_result (by simp) h

/-- The three ways of a validation: its scratch file cannot be created, its text cannot be staged, or
its commands come as far as they can. -/
theorem validate_cases (c : Chain) (spirv : String) (env : Option String) (m : Machine σ) (s : σ) :
    let record := (c.validate spirv env).record m s
    let result := ((c.validate spirv env).run m s).1
    let contents := Utf8.ofText spirv
    (∃ cause, record = [.created c.scratchDir (.error cause)] ∧
      result = validationWithout (.scratch cause)) ∨
    (∃ path cause,
      record = [.created c.scratchDir (.ok path), .staged path contents (.error cause),
        .removed path] ∧
      result = validationOf path 0 (.error (.scratch cause))) ∨
    ∃ path k outcome steps,
      record = .created c.scratchDir (.ok path) :: .staged path contents (.ok ()) :: steps ++
        [.removed path] ∧
      result = validationOf path k outcome ∧
      Reached (c.validationCommands path (targetFlags env)) k outcome steps := by
  intro record result contents
  cases hx : (m.create c.scratchDir s).1 with
  | error cause =>
    refine .inl ⟨cause, ?_, ?_⟩
    · simp only [record, validate_eq, record_withScratch_error hx]
    · simp only [result, validate_eq, run_withScratch_error hx]
  | ok path =>
    let start := (m.create c.scratchDir s).2
    let job := (put path contents).run.andThen (c.afterStaging (targetFlags env) path)
    have hrecord : record = .created c.scratchDir (.ok path) :: job.record m start ++
        [.removed path] := by
      simp only [record, validate_eq, record_withScratch_ok hx]
      rfl
    have hresult : result = (job.run m start).1 := by
      simp only [result, validate_eq, run_withScratch_ok hx]
      rfl
    right
    rw [hrecord, hresult]
    simp only [job, put, ExceptT.run_mk, Job.andThen, Job.record, Job.run]
    cases hstaged : (m.stage path contents start).1 with
    | error cause => exact .inl ⟨path, cause, rfl, rfl⟩
    | ok u =>
      obtain ⟨k, hk, hreached⟩ := c.runSteps_reached path m
        (c.validationCommands path (targetFlags env)) 0 "" (m.stage path contents start).2
      rw [← validationSteps_eq, Nat.zero_add] at hk
      rw [← validationSteps_eq] at hreached
      refine .inr ⟨path, k, _, _, ?_, ?_, hreached⟩
      · simp [afterStaging, Except.mapError, Job.record_andThen, Job.record]
      · simp [afterStaging, Except.mapError, Job.run_andThen, Job.run, hk]

/-- **How far a validation came.** Its flags are `k` times true and else false, where exactly the
first `k` of its tools ran and succeeded, in order and each once. It succeeds exactly if these are
all four, and otherwise gives no text. What it then reports stopped it after `k` steps: its scratch
file could not be created, its text could not be staged, or the tool of the next step could not be
looked up or failed; only in the last case there is one more process. The texts that it reports are
those of `Reports`, without the path of the scratch file. -/
theorem validate_progress (c : Chain) (spirv : String) (env : Option String) (m : Machine σ)
    (s : σ) :
    let record := (c.validate spirv env).record m s
    let result := ((c.validate spirv env).run m s).1
    ∃ k completed last,
      result.commands.flags =
        List.replicate k true ++ List.replicate (validationTools.length - k) false ∧
      launches record = completed ++ last ∧
      completed.map (·.cmd.tool) = validationTools.take k ∧
      (∀ path, scratchOf record = some path →
        completed.map Launch.command = (c.validationCommands path (targetFlags env)).take k) ∧
      (∀ l ∈ completed, l.ending.succeeded = true) ∧
      (result.success = true ↔ k = validationTools.length) ∧
      (result.success = true → last = []) ∧
      (result.success = false → k < validationTools.length ∧ result.spirv = "" ∧
        ((∃ cause, k = 0 ∧ record = [.created c.scratchDir (.error cause)] ∧
            result.error =
              { cmd := "", stdout := "", stderr := "scratch file error: " ++ cause.message }) ∨
          ∃ path e report, scratchOf record = some path ∧
            StoppedAfter c path (targetFlags env) record k last e ∧
            Reports (launches record) e report ∧
            result.error =
              { cmd := (Scrubber.ofPath path).scrub report.cmd
                stdout := (Scrubber.ofPath path).scrub report.stdout
                stderr := (Scrubber.ofPath path).scrub report.stderr })) := by
  intro record result
  rcases c.validate_cases spirv env m s with ⟨cause, hrecord, hresult⟩ |
    ⟨path, cause, hrecord, hresult⟩ | ⟨path, k, outcome, steps, hrecord, hresult, hreached⟩
  · have hfailed : (validationWithout (.scratch cause)).success = true ↔ 0 = 4 :=
      iff_of_false Bool.noConfusion (by decide)
    rw [show record = _ from hrecord, show result = _ from hresult]
    exact ⟨0, [], [], rfl, rfl, rfl, nofun, nofun, hfailed, nofun,
      fun _ => ⟨by decide, rfl, .inl ⟨cause, rfl, rfl, rfl⟩⟩⟩
  · have hfailed : (validationOf path 0 (.error (.scratch cause))).success = true ↔ 0 = 4 :=
      iff_of_false Bool.noConfusion (by decide)
    have hstaged : .staged path (Utf8.ofText spirv) (.error cause) ∈ record := by
      simp [record, hrecord]
    have hscratch : scratchOf record = some path := by
      rw [show record = _ from hrecord]
      rfl
    have hlaunches : launches record = [] := by simp [record, hrecord]
    rw [show result = _ from hresult]
    exact ⟨0, [], [], rfl, hlaunches, rfl, fun _ _ => rfl, nofun, hfailed, nofun, fun _ =>
      ⟨by decide, rfl, .inr ⟨path, _, _, hscratch, .unstaged hstaged, .unstaged cause, rfl⟩⟩⟩
  · have hscratch : scratchOf record = some path := by
      rw [show record = _ from hrecord]
      rfl
    have hlaunches : launches record = launches steps := by simp [record, hrecord]
    rw [show result = _ from hresult, hlaunches, hscratch]
    cases outcome with
    | ok text =>
      cases hreached with
      | finished _ h =>
        -- all four were launched, and none is left over
        have hall : (launches steps).map Launch.command =
            (c.validationCommands path (targetFlags env)).take validationTools.length := h.launched
        refine ⟨_, launches steps, [], Steps.flags_first (Nat.le_refl _), (List.append_nil _).symm,
          tools_of_launched hall, ?_, h.launch_succeeded, iff_of_true rfl rfl, fun _ => rfl, nofun⟩
        rintro _ ⟨⟩
        exact hall
    | error e =>
      obtain ⟨completed, last, hparts, hcommands, hsucceeded, hk, hstopped⟩ :=
        stoppedAfter_of_reached record hreached
      refine ⟨k, completed, last, Steps.flags_first (Nat.le_of_lt hk), hparts,
        tools_of_launched hcommands, ?_, hsucceeded, ?_, nofun, fun _ => ?_⟩
      · rintro _ ⟨⟩
        exact hcommands
      · exact iff_of_false Bool.noConfusion (Nat.ne_of_lt hk)
      · have hreports := hparts ▸ hstopped.reports completed
        exact ⟨hk, rfl, .inr ⟨path, e, e.report, rfl, hstopped, hreports, rfl⟩⟩

/-- A validator that finds an error in the file that it is given. -/
theorem progress_up_to_validator :
    let tools : Tools := fun program args _ entry =>
      if program = Utf8.ofText "/bin/spirv-val" then
        (.exited false [] (Utf8.ofText (args.headD "" ++ ": error")), entry)
      else (.exited true [] [], entry)
    let path := Utf8.ofText "/tmp/a"
    let machine := Store.machine tools (.ok path)
    let job := Chain.complete.validate "text" none
    let record := job.record machine fun _ => none
    let result := (job.run machine fun _ => none).1
    result.error.stderr = "<source>: error" ∧
      result.commands.flags = [true, false, false, false] ∧
      ∃ assembling last e, launches record = assembling :: last ∧
        assembling.cmd.tool = "spirv-as" ∧ assembling.ending.succeeded = true ∧
        StoppedAfter Chain.complete path "" record 1 last e := by
  intro tools path machine job record result
  have hflags : result.commands.flags = [true, false, false, false] := by decide +kernel
  have hsuccess : result.success = false := by decide +kernel
  have hscratch : scratchOf record = some path := by decide +kernel
  refine ⟨by decide +kernel, hflags, ?_⟩
  obtain ⟨k, completed, last, hprefix, hlaunches, htools, -, hsucceeded, -, -, hfailure⟩ :=
    validate_progress Chain.complete "text" none machine fun _ => none
  -- one flag is set, so one step was completed
  have hk : k = 1 := by
    have hcount := congrArg (List.count true) (hflags.symm.trans hprefix)
    simpa [List.count_replicate] using hcount.symm
  subst hk
  have hlength : completed.length = 1 := by
    simpa [validationTools] using congrArg List.length htools
  obtain ⟨assembling, rfl⟩ := List.length_eq_one_iff.mp hlength
  obtain ⟨-, -, ⟨cause, hzero, -⟩ | ⟨_, e, -, hpath, hstopped, -⟩⟩ := hfailure hsuccess
  · cases hzero
  · obtain rfl := Option.some.inj (hscratch.symm.trans hpath)
    exact ⟨assembling, last, e, hlaunches, List.singleton_inj.mp htools,
      hsucceeded assembling List.mem_cons_self, hstopped⟩

end Chain

end ShaderChain
