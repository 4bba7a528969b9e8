import ShaderChain.Proofs.Progress
import ShaderChain.Proofs.Scrubbing
import ShaderChain.Proofs.ShellWords
import ShaderChain.Proofs.Slots

/-!
# What a client can tell from a result

A result says whether its job succeeded, gives a text and reports a failure. `Telling` is what a
client may conclude from these three: the report is empty exactly after a success, a failure gives
no text and a reason, and a command is reported exactly if one of the processes of the job failed,
which is the one that is shown. Results are made in many places, from requests that are malformed
to processes that print nothing; `Service.results_tell` says that all of them tell.

The reasons come in two kinds. A cause that is not a command is reported by its wording, which is
never empty. A command is reported by its spelling, which is never empty either, and a run that is
stopped reports one exactly if its last process failed (`Telling.of_stopped`).
-/

namespace ShaderChain

variable {α β σ : Type}

/-! ## Causes and their reports -/

/-- A command is never shown as an empty text: a shell finds its program in it. -/
theorem Command.render_ne_empty (cmd : Command) : cmd.render ≠ "" := by
  intro hempty
  have hsplit := cmd.split_render_eq
  rw [hempty] at hsplit
  cases hsplit

/-- A failure is reported under the spelling of its command. -/
theorem Ending.cmd_of_result {cmd : Command} {ending : Ending} {failure : Failure}
    (h : ending.result cmd = .error failure) : failure.cmd = cmd.render := by
  cases ending with
  | exited success stdout stderr =>
    cases success with
    | true => cases h
    | false => exact congrArg Failure.cmd (Except.error.inj h).symm
  | unlaunched cause => exact congrArg Failure.cmd (Except.error.inj h).symm
  | timedOut limit => exact congrArg Failure.cmd (Except.error.inj h).symm

namespace ChainError

/-- A cause that is not a failed command. -/
def Wordy (e : ChainError) : Prop :=
  ∀ failure, e ≠ .command failure

theorem Wordy.ofLookup (name : String) (cause : LookupError) :
    (ChainError.ofLookup name cause).Wordy := by
  cases cause <;> nofun

/-- The wording of a cause has a fixed part, so it is never empty. -/
theorem Wordy.message_ne_empty {e : ChainError} (h : e.Wordy) : e.message ≠ "" := by
  intro hempty
  have hparts {s t : String} (hst : s ++ t = "") : s = "" ∧ t = "" :=
    String.append_eq_empty_iff.mp hst
  cases e with
  | command failure => exact h failure rfl
  | noStages => exact absurd hempty (by decide)
  | missingStage => exact absurd (hparts (hparts hempty).1).2 (by decide)
  | tooManyStages => exact absurd (hparts hempty).2 (by decide)
  | unknownTool => exact absurd (hparts hempty).1 (by decide)
  | unavailable => exact absurd (hparts hempty).2 (by decide)
  | incompatible => exact absurd (hparts (hparts hempty).1).2 (by decide)
  | scratch => exact absurd (hparts hempty).1 (by decide)

/-- A cause that is not a command is reported by its wording alone. -/
theorem Wordy.report_eq {e : ChainError} (h : e.Wordy) : e.report = { stderr := e.message } := by
  cases e with
  | command failure => exact absurd rfl (h failure)
  | noStages | missingStage | tooManyStages | unknownTool | unavailable | incompatible | scratch =>
    rfl

end ChainError

theorem error_of_map {f : α → β} {x : Except ChainError α} {e : ChainError}
    (h : x.map f = .error e) : x = .error e := by
  cases x with
  | error e' => exact congrArg Except.error (Except.error.inj h)
  | ok a => cases h

/-- A request is malformed for a reason in words. -/
theorem ChainSubmission.wordy_of_request {submission : ChainSubmission} {e : ChainError}
    (h : submission.request = .error e) : e.Wordy := by
  rcases Request.error_of_ofSlots h with rfl | ⟨k, rfl⟩
  · nofun
  · nofun

/-- A request is rejected for a reason in words. -/
theorem Registry.wordy_of_planAfter {r : Registry} {previous : Option Descriptor}
    {stages : List Stage} {e : ChainError} (h : r.planAfter previous stages = .error e) :
    e.Wordy := by
  induction stages generalizing previous with
  | nil => cases h
  | cons stage rest ih =>
    unfold planAfter at h
    cases hsel : r.selectable stage.tool with
    | error cause =>
      rw [hsel] at h
      obtain rfl := Except.error.inj h
      exact .ofLookup stage.tool cause
    | ok tool =>
      simp only [hsel] at h
      cases hlink : checkLink previous tool with
      | error e' =>
        rw [hlink] at h
        obtain rfl := Except.error.inj h
        unfold checkLink at hlink
        split at hlink
        · cases hlink
        · split at hlink
          · cases hlink
          · obtain rfl := Except.error.inj hlink
            nofun
      | ok u =>
        rw [hlink] at h
        exact ih (error_of_map h)

/-! ## What a result tells -/

/-- What a client can tell from a result: whether its job succeeded, the text and the report of a
failure. `record` is what the job did, and commands are reported as `shown`. -/
structure Telling (shown : String → String) (record : List (Event σ)) (success : Bool)
    (text : String) (error : Report) : Prop where
  success_iff : success = true ↔ error = {}
  text_empty : success = false → text = ""
  reason : success = false → error.cmd ≠ "" ∨ error.stderr ≠ ""
  /-- A command is reported exactly if a process failed. -/
  cmd_iff : error.cmd ≠ "" ↔ ∃ l ∈ launches record, l.ending.succeeded = false
  cmd_eq : ∀ l ∈ launches record, l.ending.succeeded = false → error.cmd = shown l.cmd.render

namespace Telling

variable {shown : String → String} {record : List (Event σ)}
  {expected : List (Except ChainError Command)}

/-- Only what was launched counts. -/
theorem of_launches {record' : List (Event σ)} {success : Bool} {text : String} {error : Report}
    (h : Telling shown record' success text error) (heq : launches record = launches record') :
    Telling shown record success text error where
  success_iff := h.success_iff
  text_empty := h.text_empty
  reason := h.reason
  cmd_iff := heq ▸ h.cmd_iff
  cmd_eq := heq ▸ h.cmd_eq

/-- A success, where every process succeeded. -/
theorem of_completed (h : Completed expected record) (text : String) :
    Telling shown record true text {} where
  success_iff := iff_of_true rfl rfl
  text_empty := nofun
  reason := nofun
  cmd_iff := by
    refine iff_of_false (fun hne => hne rfl) ?_
    rintro ⟨l, hl, hfailed⟩
    rw [h.launch_succeeded l hl] at hfailed
    cases hfailed
  cmd_eq l hl hfailed := by
    rw [h.launch_succeeded l hl] at hfailed
    cases hfailed

/-- A failure that no process has to do with. -/
theorem of_wordy {e : ChainError} (he : e.Wordy)
    (h : ∀ l ∈ launches record, l.ending.succeeded = true) :
    Telling shown record false "" e.report where
  success_iff := by
    refine iff_of_false Bool.noConfusion fun hempty => he.message_ne_empty ?_
    rw [he.report_eq] at hempty
    exact congrArg Report.stderr hempty
  text_empty _ := rfl
  reason _ := by
    rw [he.report_eq]
    exact .inr he.message_ne_empty
  cmd_iff := by
    rw [he.report_eq]
    refine iff_of_false (fun hne => hne rfl) ?_
    rintro ⟨l, hl, hfailed⟩
    rw [h l hl] at hfailed
    cases hfailed
  cmd_eq l hl hfailed := by
    rw [h l hl] at hfailed
    cases hfailed

/-- The scratch file cannot be created. -/
theorem of_uncreated (dir : Option Path) (cause : IoError) :
    Telling shown ([.created dir (.error cause)] : List (Event σ)) false ""
      (ChainError.scratch cause).report := by
  have hwordy : (ChainError.scratch cause).Wordy := nofun
  exact of_wordy hwordy (fun l hl => nomatch hl)

/-- A failure of the process that was launched last. -/
theorem of_failed {l : Launch σ} {failure : Failure} (h : Completed expected record)
    (hl : l.ending.result l.cmd = .error failure) :
    Telling id (record ++ [.launched l]) false "" (ChainError.command failure).report := by
  have hcmd : (ChainError.command failure).report.cmd = l.cmd.render := Ending.cmd_of_result hl
  have hne : (ChainError.command failure).report.cmd ≠ "" := hcmd ▸ l.cmd.render_ne_empty
  have hlaunches : launches (record ++ [.launched l]) = launches record ++ [l] := by simp
  constructor
  · exact iff_of_false Bool.noConfusion fun hempty => hne (congrArg Report.cmd hempty)
  · exact fun _ => rfl
  · exact fun _ => .inl hne
  · refine iff_of_true hne ⟨l, ?_, Ending.not_succeeded_of_result hl⟩
    rw [hlaunches]
    exact List.mem_append_right _ List.mem_cons_self
  · -- the processes before the last one succeeded
    intro failed hfailed hnot
    rw [hlaunches] at hfailed
    rcases List.mem_append.mp hfailed with hbefore | hlast
    · rw [h.launch_succeeded failed hbefore] at hnot
      cases hnot
    · obtain rfl := List.mem_singleton.mp hlast
      exact hcmd

/-- A run that is stopped tells why, if the commands that are missing are so for a reason in
words. -/
theorem of_stopped {e : ChainError} (h : Stopped expected record e)
    (hmissing : ∀ e, .error e ∈ expected → e.Wordy) : Telling id record false "" e.report := by
  cases h with
  | missing h => exact of_wordy (hmissing e (by simp)) h.launch_succeeded
  | failed h hl => exact of_failed h hl
  | @unstaged done rest record path contents cause h =>
    refine of_wordy (fun _ => nofun) ?_
    simpa using h.launch_succeeded

/-- Scrubbing keeps what a result tells, and shows the command scrubbed. -/
theorem scrubbed {success : Bool} {text : String} {error : Report}
    (h : Telling shown record success text error) (s : Scrubber) :
    Telling (s.scrub ∘ shown) record success (s.scrub text) (s.scrubReport error) where
  success_iff := h.success_iff.trans (s.scrubReport_eq_empty_iff error).symm
  text_empty hfailed := (s.scrub_eq_empty_iff text).mpr (h.text_empty hfailed)
  reason hfailed := by
    rw [Scrubber.scrubReport, ne_eq, ne_eq, s.scrub_eq_empty_iff, s.scrub_eq_empty_iff]
    exact h.reason hfailed
  cmd_iff := by
    rw [← h.cmd_iff]
    exact not_congr (s.scrub_eq_empty_iff error.cmd)
  cmd_eq l hl hfailed := congrArg s.scrub (h.cmd_eq l hl hfailed)

end Telling

/-! ## The results of the service -/

/-- Replaces a path in all texts of a result. -/
def Payload.scrubbed (s : Scrubber) : Payload → Payload
  | .compilation r => .compilation (r.scrubbed s)
  | .disassembly r => .disassembly { r with data := s.scrub r.data }
  | .validation r =>
    .validation { r with spirv := s.scrub r.spirv, error := s.scrubReport r.error }

/-- What a client can tell from a result of each kind. A disassembly has no room for a report, so a
failed one gives its reason in place of the text. -/
def Payload.Tells (shown : String → String) (record : List (Event σ)) : Payload → Prop
  | .compilation r => Telling shown record r.success r.output r.error
  | .disassembly r => r.success = false → r.data ≠ ""
  | .validation r => Telling shown record r.success r.spirv r.error

theorem Payload.Tells.scrubbed {shown : String → String} {record : List (Event σ)} {p : Payload}
    (h : p.Tells shown record) (s : Scrubber) : (p.scrubbed s).Tells (s.scrub ∘ shown) record := by
  cases p with
  | compilation r => exact Telling.scrubbed h s
  | disassembly r => exact fun hfailed => (s.scrub_eq_empty_iff r.data).not.mpr (h hfailed)
  | validation r => exact Telling.scrubbed h s

/-- The scrubber of the scratch file that a job creates. -/
def scrubberOf (record : List (Event σ)) : Scrubber :=
  match scratchOf record with
  | some path => .ofPath path
  | none => ⟨[]⟩

namespace Chain

variable {c : Chain} {m : Machine σ} {s : σ} {path : Path}
  {expected : List (Except ChainError Command)} {record body : List (Event σ)}

/-- A chain over a scratch file tells how its run ended. -/
theorem compilationOf_telling {outcome : Except ChainError String}
    (h : Played expected record outcome) (hmissing : ∀ e, .error e ∈ expected → e.Wordy) :
    let r := compilationOf path outcome
    Telling (Scrubber.ofPath path).scrub record r.success r.output r.error := by
  intro r
  cases outcome with
  | ok output =>
    have htelling : Telling id record true output {} := Telling.of_completed h output
    exact htelling.scrubbed _
  | error e => exact (Telling.of_stopped h hmissing).scrubbed _

/-- So does a validation. -/
theorem validationOf_telling (completed : Nat) {outcome : Except ChainError String}
    (h : Played expected record outcome) (hmissing : ∀ e, .error e ∈ expected → e.Wordy) :
    let r := validationOf path completed outcome
    Telling (Scrubber.ofPath path).scrub record r.success r.spirv r.error := by
  intro r
  cases outcome with
  | ok text => exact Telling.of_completed h _
  | error e =>
    have htelling := (Telling.of_stopped h hmissing).scrubbed (Scrubber.ofPath path)
    -- a failed validation gives the empty text, not a scrubbed one
    rwa [(Scrubber.scrub_eq_empty_iff _ "").mpr rfl] at htelling

theorem compile_telling (c : Chain) (request : Request) (m : Machine σ) (s : σ) :
    let record := (c.compile request).record m s
    let r := ((c.compile request).run m s).1
    Telling (scrubberOf record).scrub record r.success r.output r.error := by
  intro record r
  cases hplan : c.registry.plan request with
  | error e =>
    have hrecord : record = [] := by simp [record, compile_rejected hplan, Job.record]
    have hresult : r = .failed e.report := by simp [r, compile_rejected hplan, Job.run]
    rw [hrecord, hresult]
    exact Telling.of_wordy (Registry.wordy_of_planAfter hplan)
      fun _ hl => absurd hl List.not_mem_nil
  | ok plan =>
    cases hx : (m.create c.scratchDir s).1 with
    | error cause =>
      have hrecord : record = [.created c.scratchDir (.error cause)] := by
        simp [record, compile_planned hplan, record_withScratch_error hx]
      have hresult : r = .failed (ChainError.scratch cause).report := by
        simp [r, compile_planned hplan, run_withScratch_error hx]
      rw [hrecord, hresult]
      exact Telling.of_uncreated c.scratchDir cause
    | ok path =>
      have hplayed := c.runStages_plays path plan request.source m (m.create c.scratchDir s).2
      -- of what a plan asks for, only a tool that was looked up in vain can be missing
      have hmissing : ∀ e, .error e ∈ c.expected path plan → e.Wordy := by
        intro e he
        obtain ⟨stage, hstage, he⟩ := List.mem_flatMap.mp he
        obtain ⟨name, -, cause, -, rfl⟩ :=
          lookup_of_missing (Registry.planAfter_discovered hplan stage hstage) he
        exact .ofLookup name cause
      have hscrubber : scrubberOf record = .ofPath path := by
        simp only [record, record_compile hplan hx]
        rfl
      have hresult : r = compilationOf path _ := run_compile hplan hx
      rw [hscrubber, hresult]
      exact (compilationOf_telling hplayed hmissing).of_launches (launches_compile hplan hx)

theorem validate_telling (c : Chain) (spirv : String) (env : Option String) (m : Machine σ)
    (s : σ) :
    let record := (c.validate spirv env).record m s
    let r := ((c.validate spirv env).run m s).1
    Telling (scrubberOf record).scrub record r.success r.spirv r.error := by
  intro record r
  rcases c.validate_cases spirv env m s with ⟨cause, hrecord, hresult⟩ |
    ⟨path, cause, hrecord, hresult⟩ | ⟨path, k, outcome, steps, hrecord, hresult, hreached⟩
  · rw [show record = _ from hrecord, show r = _ from hresult]
    exact Telling.of_uncreated c.scratchDir cause
  · let unstaged : Event σ := .staged path (Utf8.ofText spirv) (.error cause)
    -- no command was due yet when the text could not be staged
    have hunstaged : Stopped ([] ++ []) ([] ++ [unstaged]) (.scratch cause) :=
      .unstaged Completed.nil
    have hplayed : Played [] [unstaged] (.error (.scratch cause) : Except ChainError String) :=
      hunstaged
    rw [show record = _ from hrecord, show r = _ from hresult]
    exact (validationOf_telling 0 hplayed (fun e he => nomatch he)).of_launches rfl
  · have hmissing : ∀ e, .error e ∈ c.validationCommands path (targetFlags env) → e.Wordy := by
      intro e he
      obtain ⟨i, hi⟩ := List.mem_iff_getElem?.mp he
      obtain ⟨name, given, -, hnamed⟩ := commandNamed_of_getElem? hi
      obtain ⟨cause, -, rfl⟩ := lookup_of_commandNamed hnamed.symm
      exact .ofLookup name cause
    have hlaunches : launches record = launches steps := by simp [record, hrecord]
    have hscrubber : scrubberOf record = .ofPath path := by
      rw [show record = _ from hrecord]
      rfl
    rw [hscrubber, show r = _ from hresult]
    exact (validationOf_telling k hreached.played hmissing).of_launches hlaunches

/-- A failed disassembly never comes without a text, whether or not a tool gave a reason. -/
theorem disassemblyOf_data_ne_empty {path : Path} {outcome : Except ChainError String}
    (h : (disassemblyOf path outcome).success = false) : (disassemblyOf path outcome).data ≠ "" := by
  cases outcome with
  | ok text => cases h
  | error e =>
    unfold disassemblyOf
    dsimp only
    split
    · decide
    · next hreason =>
      rw [ne_eq, Scrubber.scrub_eq_empty_iff]
      simpa using hreason

theorem disassemble_data_ne_empty (c : Chain) (binary : Bytes) (m : Machine σ) (s : σ)
    (h : ((c.disassemble binary).run m s).1.success = false) :
    ((c.disassemble binary).run m s).1.data ≠ "" := by
  unfold disassemble at h ⊢
  cases hx : (m.create c.scratchDir s).1 with
  | error cause =>
    have hwordy : (ChainError.scratch cause).Wordy := nofun
    rw [run_withScratch_error hx]
    exact hwordy.message_ne_empty
  | ok path =>
    rw [run_withScratch_ok hx, Job.bind_eq, Job.run_andThen] at h ⊢
    exact disassemblyOf_data_ne_empty h

end Chain

namespace Service

/-- **Success and failure can be told apart.** A request to run a chain that is malformed, and every
job, whatever its processes do, has a result that tells (`Payload.Tells`), with commands shown as
they are scrubbed for the scratch file of the job; and scrubbing a result for any other path keeps
what it tells. -/
theorem results_tell (service : Service) (m : Machine σ) (s : σ) :
    (∀ submission e, submission.request = .error e →
      ∃ result : Compilation, result.success = false ∧
        (Payload.compilation result).Tells id ([] : List (Event σ)) ∧
        ∀ held desk,
          ((service.compile submission).run m held desk s).1 = .json 200 result.toJson) ∧
    (∀ inquiry,
      let record := (service.chain.perform inquiry).record m s
      ((service.chain.perform inquiry).run m s).1.Tells (scrubberOf record).scrub record) ∧
    ∀ (scrubber : Scrubber) (shown : String → String) (record : List (Event σ)) (p : Payload),
      p.Tells shown record → (p.scrubbed scrubber).Tells (scrubber.scrub ∘ shown) record := by
  refine ⟨fun submission e he => ?_, fun inquiry => ?_, fun scrubber shown record p h => ?_⟩
  · have hwordy : e.Wordy := ChainSubmission.wordy_of_request he
    refine ⟨.failed e.report, rfl, Telling.of_wordy hwordy (fun l hl => nomatch hl), ?_⟩
    intro held desk
    simp [compile, he, Handling.run]
  · intro record
    cases inquiry with
    | compile request =>
      simp only [record, Chain.perform, Job.record_map, Job.run_map]
      exact service.chain.compile_telling request m s
    | disassemble binary =>
      simp only [Chain.perform, Job.run_map]
      exact service.chain.disassemble_data_ne_empty binary m s
    | validate spirv env =>
      simp only [record, Chain.perform, Job.record_map, Job.run_map]
      exact service.chain.validate_telling spirv env m s
  · exact h.scrubbed scrubber

/-- Tools that fail without a word, on a scratch file whose name is quoted. -/
theorem results_of_silent_tools :
    let service : Service := ⟨Chain.complete, {}⟩
    let machine := Store.machine (fun _ _ _ entry => (.exited false [] [], entry))
      (.ok (Utf8.ofText "/tmp/a b"))
    let submission : ChainSubmission := ⟨"x", {}, { tool := some "dxc" }, {}⟩
    let disassembling := Inquiry.disassemble []
    let validating := Inquiry.validate "x" none
    let record := (service.chain.perform validating).record machine fun _ => none
    submission.request = .error (.missingStage 2) ∧
      ((service.chain.perform disassembling).run machine fun _ => none).1.texts =
        ["could not disassemble SPIR-V"] ∧
      ((service.chain.perform validating).run machine fun _ => none).1.texts =
        ["", "/bin/spirv-as <source> -o <source>", "", ""] ∧
      ∃ l ∈ launches record, l.ending.succeeded = false ∧
        (scrubberOf record).scrub l.cmd.render = "/bin/spirv-as <source> -o <source>" := by
  intro service machine submission disassembling validating record
  obtain ⟨-, htells, -⟩ := results_tell service machine fun _ => none
  have htexts : ((service.chain.perform validating).run machine fun _ => none).1.texts =
      ["", "/bin/spirv-as <source> -o <source>", "", ""] := by decide +kernel
  refine ⟨rfl, by decide +kernel, htexts, ?_⟩
  have htold := htells validating
  cases hresult : ((service.chain.perform validating).run machine fun _ => none).1 with
  | compilation | disassembly => cases hresult
  | validation r =>
    simp only [hresult, Payload.texts, Report.texts, List.cons.injEq] at htexts
    simp only [hresult, Payload.Tells] at htold
    obtain ⟨l, hl, hfailed⟩ := htold.cmd_iff.mp (by rw [htexts.2.1]; decide)
    exact ⟨l, hl, hfailed, (htold.cmd_eq l hl hfailed).symm.trans htexts.2.1⟩

end Service

end ShaderChain
