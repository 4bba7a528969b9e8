import ShaderChain.Proofs.Plan
import ShaderChain.Proofs.Rerun
import ShaderChain.Proofs.Scrubbing
import ShaderChain.Proofs.Slots

/-!
# A chain is the composition of its parts

Where processes are functions of their command and of the scratch file, a stage is a function of the
text that is staged for it: `Chain.textOf` is what it results in over a file of its own. A plan then
means these functions one after another (`Chain.outcome`), although a run uses one file that is full
of leftovers for all of them (`Chain.run_runStages`). So a plan can be cut between any two stages,
and a chain gives what its second part gives on the output of the first one
(`Chain.compile_append`), as long as there is nothing to scrub from that output.
-/

namespace ShaderChain

variable {tools : Tools} {path : Path} {text : String} {s : Store} {c : Chain}

/-! ## Plans in two parts -/

namespace Registry

variable {r : Registry} {previous : Option Descriptor} {plan : List PlannedStage}

/-- What can follow a tool can also come first. -/
theorem planAfter_none {stages : List Stage} (h : r.planAfter previous stages = .ok plan) :
    r.planAfter none stages = .ok plan := by
  cases stages with
  | nil => exact h
  | cons stage rest =>
    obtain ⟨tool, tail, hsel, -, htail, rfl⟩ := planAfter_cons h
    simp [planAfter, hsel, checkLink, htail, Except.map]

/-- The plan of two lists of stages consists of a plan of each. -/
theorem planAfter_append {ss ts : List Stage} (h : r.planAfter previous (ss ++ ts) = .ok plan) :
    ∃ first second, r.planAfter previous ss = .ok first ∧ r.planAfter none ts = .ok second ∧
      plan = first ++ second := by
  induction ss generalizing previous plan with
  | nil => exact ⟨[], plan, rfl, planAfter_none h, rfl⟩
  | cons stage ss ih =>
    rw [List.cons_append] at h
    obtain ⟨tool, tail, hsel, hlink, htail, rfl⟩ := planAfter_cons h
    obtain ⟨first, second, hfirst, hsecond, rfl⟩ := ih htail
    refine ⟨{ tool, flags := stage.flags } :: first, second, ?_, hsecond, rfl⟩
    simp [planAfter, hsel, hlink, hfirst, Except.map]

end Registry

/-! ## The meaning of a plan -/

namespace Chain

/-- What a stage results in, over a file that holds its text and was never used. -/
def textOf (c : Chain) (tools : Tools) (path : Path) (text : String) (stage : PlannedStage) :
    Except ChainError String :=
  (c.runStage path stage).over tools path text

/-- What stages result in, each on the text of the one before it. -/
def outcome (c : Chain) (tools : Tools) (path : Path) (text : String)
    (plan : List PlannedStage) : Except ChainError String :=
  plan.foldlM (c.textOf tools path) text

/-- The texts that stages result in, up to the first stage that fails. -/
def stageTexts (c : Chain) (tools : Tools) (path : Path) (text : String) :
    List PlannedStage → List String
  | [] => []
  | stage :: rest =>
    match c.textOf tools path text stage with
    | .error _ => []
    | .ok output => output :: c.stageTexts tools path output rest

theorem outcome_append (first second : List PlannedStage) :
    c.outcome tools path text (first ++ second) =
      c.outcome tools path text first >>= fun output => c.outcome tools path output second :=
  List.foldlM_append

/-- The outcome of a part of a plan is among the texts of the stages. -/
theorem outcome_mem_stageTexts {first second : List PlannedStage} {output : String}
    (hne : first ≠ []) (h : c.outcome tools path text first = .ok output) :
    output ∈ c.stageTexts tools path text (first ++ second) := by
  induction first generalizing text with
  | nil => exact absurd rfl hne
  | cons stage first ih =>
    rw [outcome, List.foldlM_cons] at h
    rw [List.cons_append, stageTexts]
    cases hstage : c.textOf tools path text stage with
    | error e =>
      rw [hstage] at h
      cases h
    | ok between =>
      rw [hstage] at h
      by_cases hfirst : first = []
      · subst hfirst
        obtain rfl : between = output := Except.ok.inj h
        exact List.mem_cons_self
      · exact List.mem_cons_of_mem _ (ih hfirst h)

/-- A run gives the outcome of its plan, whatever was in the file before and whatever the stages
leave there. -/
theorem run_runStages (htidy : tools.Tidy) (c : Chain) (plan : List PlannedStage) (text : String)
    (hs : s.Writable path) :
    ((c.runStages path text plan).run.run (Store.machine tools (.ok path)) s).1 =
      c.outcome tools path text plan := by
  -- the invariant is that the file can be overwritten, which is all that a stage asks for
  induction plan generalizing text s with
  | nil => rfl
  | cons stage rest ih =>
    have hstays : ∀ x : Except ChainError Unit, (Attempt.resume (fun _ => do
        let output ← c.runStage path stage
        c.runStages path output rest) x).StaysWithin (path = ·) := by
      intro x
      cases x with
      | error e => trivial
      | ok u =>
        have hwork := Attempt.worksAt_bind (c.runStage_worksAt path stage)
          (c.runStages_worksAt path rest)
        exact hwork.staysWithin rfl
    rw [run_runStages_cons, run_put _ (hstays _) hs, Attempt.resume, Attempt.run_bind,
      Job.run_andThen, outcome, List.foldlM_cons]
    show ((Attempt.resume _ (c.textOf tools path text stage)).run _ _).1 = _
    cases hstage : c.textOf tools path text stage with
    | error e => rfl
    | ok output =>
      have hafter : Store.Writable path ((c.runStage path stage).run.run
          (Store.machine tools (.ok path)) (Store.single path (Utf8.ofText text))).2 :=
        Job.run_writable htidy _ (Store.single_writable _ _)
      exact ih output hafter

/-- The result of an accepted request is the outcome of its plan, reported over the path. -/
theorem resultAt_outcome (htidy : tools.Tidy) {request : Request} {plan : List PlannedStage}
    (hplan : c.registry.plan request = .ok plan) (hfree : s path = none) :
    c.resultAt tools path s request =
      compilationOf path (c.outcome tools path request.source plan) := by
  obtain ⟨start, hstart, hresult⟩ := resultAt_eq tools hplan hfree
  rw [hresult, run_runStages htidy c plan request.source hstart]

/-- **A chain is the composition of its parts.** Let processes be functions of their command and of
the scratch file that put nothing in its way, and let no stage result in a text that shows the path.
If the stages `ss ++ ts` are accepted, so are `ss` and `ts`, and they give what `ts` gives on the
output of `ss`, or the result of `ss` if that is a failure. The runs may start from any stores in
which the path is free. -/
theorem compile_append (c : Chain) (htidy : tools.Tidy) {source : String} {ss ts : List Stage}
    (hss : ss ≠ []) (hts : ts ≠ []) {whole : Request} {plan : List PlannedStage}
    (hwhole : Request.ofStages source (ss ++ ts) = .ok whole)
    (hplan : c.registry.plan whole = .ok plan)
    (hhidden : ∀ text ∈ c.stageTexts tools path source plan, path.HiddenIn text)
    {s s₁ s₂ : Store} (hs : s path = none) (hs₁ : s₁ path = none) (hs₂ : s₂ path = none) :
    ∃ first plan₁, Request.ofStages source ss = .ok first ∧ c.registry.plan first = .ok plan₁ ∧
      let r := c.resultAt tools path s₁ first
      ∃ second plan₂, Request.ofStages r.output ts = .ok second ∧
        c.registry.plan second = .ok plan₂ ∧
        c.resultAt tools path s whole =
          if r.success then c.resultAt tools path s₂ second else r := by
  obtain ⟨hsource, hstages⟩ := Request.of_ofStages hwhole
  have hlen := whole.stages_le
  rw [hstages, List.length_append] at hlen
  -- both parts are requests of their own, and accepted
  obtain ⟨first, hfirst⟩ := Request.exists_ofStages source hss (by omega)
  obtain ⟨hsource₁, hstages₁⟩ := Request.of_ofStages hfirst
  have hsplit : c.registry.planAfter none (ss ++ ts) = .ok plan := hstages ▸ hplan
  obtain ⟨plan₁, plan₂, hplan₁, hplan₂, rfl⟩ := Registry.planAfter_append hsplit
  have haccepted₁ : c.registry.plan first = .ok plan₁ := by rwa [Registry.plan, hstages₁]
  refine ⟨first, plan₁, hfirst, haccepted₁, ?_⟩
  intro r
  obtain ⟨second, hsecond⟩ := Request.exists_ofStages r.output hts (by omega)
  obtain ⟨hsource₂, hstages₂⟩ := Request.of_ofStages hsecond
  have haccepted₂ : c.registry.plan second = .ok plan₂ := by rwa [Registry.plan, hstages₂]
  refine ⟨second, plan₂, hsecond, haccepted₂, ?_⟩
  -- what remains is about outcomes, and the scrubber between the two parts
  have hr : r = compilationOf path (c.outcome tools path source plan₁) := by
    rw [← hsource₁]
    exact resultAt_outcome htidy haccepted₁ hs₁
  rw [resultAt_outcome htidy hplan hs, resultAt_outcome htidy haccepted₂ hs₂, hsource, hsource₂,
    outcome_append]
  cases hout : c.outcome tools path source plan₁ with
  | error e =>
    rw [hout] at hr
    rw [hr]
    rfl
  | ok output =>
    have hmem : output ∈ c.stageTexts tools path source (plan₁ ++ plan₂) :=
      outcome_mem_stageTexts (Registry.planAfter_ne_nil hss hplan₁) hout
    have houtput : r.output = output := by
      rw [hr, hout]
      exact Scrubber.scrub_of_hidden (hhidden output hmem)
    have hsuccess : r.success = true := by
      rw [hr, hout]
      rfl
    rw [hsuccess, if_pos rfl, houtput]
    rfl

/-- A compiler, an optimizer and a cross compiler, cut after the compiler. Every process prints the
file with a mark behind it, and leaves another mark in the file. -/
theorem composition_of_compiler_and_rest :
    let tools : Tools := fun _ _ _ entry =>
      match entry with
      | some (.file contents) =>
        (.exited true (contents ++ Utf8.ofText "!") [], some (.file (Utf8.ofText "?" ++ contents)))
      | entry => (.exited false [] [], entry)
    let path : Path := Utf8.ofText "/tmp/a"
    let store : Store := fun _ => none
    let ts : List Stage := [⟨"spirv-opt", "-O"⟩, ⟨"spirv-cross", ""⟩]
    let whole : Request :=
      { source := "text", stages := ⟨"dxc", "-spirv"⟩ :: ts, stages_ne := by simp
        stages_le := by decide }
    ∃ second, Request.ofStages "text!" ts = .ok second ∧
      Chain.complete.resultAt tools path store whole =
        Chain.complete.resultAt tools path store second ∧
      Chain.complete.resultAt tools path store whole = .succeeded "???text!!!" := by
  intro tools path store ts whole
  let plan : List PlannedStage :=
    [⟨.of .dxc (some (Utf8.ofText "/bin/dxc")), "-spirv"⟩,
      ⟨.of .optimizer (some (Utf8.ofText "/bin/spirv-opt")), "-O"⟩,
      ⟨.of .cross (some (Utf8.ofText "/bin/spirv-cross")), ""⟩]
  have hwhole : Request.ofStages "text" ([⟨"dxc", "-spirv"⟩] ++ ts) = .ok whole := rfl
  have hplan : Chain.complete.registry.plan whole = .ok plan := rfl
  have htidy : tools.Tidy := by
    intro program args limit entry hentry
    rcases entry with _ | contents | _
    · exact hentry
    · exact fun h => nomatch h
    · exact absurd rfl hentry
  have htexts : ∀ text ∈ Chain.complete.stageTexts tools path "text" plan, '/' ∉ text.toList := by
    decide +kernel
  have hhidden : ∀ text ∈ Chain.complete.stageTexts tools path "text" plan,
      Path.HiddenIn path text :=
    fun text htext => Path.hiddenIn_of_not_mem (by decide) (htexts text htext)
  have hfree : store path = none := rfl
  obtain ⟨first, -, hfirst, -, second, -, hsecond, -, hresult⟩ := compile_append Chain.complete
    htidy (List.cons_ne_nil _ _) (List.cons_ne_nil _ _) hwhole hplan hhidden hfree hfree hfree
  obtain rfl := Except.ok.inj hfirst
  have hfirstPart : Chain.complete.resultAt tools path store
      { source := "text", stages := [⟨"dxc", "-spirv"⟩], stages_ne := by simp
        stages_le := by decide } = .succeeded "text!" := by decide +kernel
  rw [hfirstPart] at hsecond hresult
  exact ⟨second, hsecond, hresult, by decide +kernel⟩

end Chain

end ShaderChain
