import ShaderChain.Proofs.Trace
import ShaderChain.Proofs.Noise
import ShaderChain.Proofs.Scrubbing
import ShaderChain.Proofs.Store

/-!
# What flows from stage to stage

The processes of a chain share one file, and leave in it what they like. Still each stage starts on
a file that holds the text of the stage before it: that text is staged anew, and within a stage
each process starts on what the one before it left. `Flows` says this of the processes of a run,
stage by stage; `Chain.runStages_flows` is the induction over the plan, and
`Chain.compile_data_flow` the main statement.
-/

namespace ShaderChain

variable {σ : Type} {c : Chain} {held : Path → σ → Option Bytes} {path : Path} {text : String}
  {m : Machine σ} {s : σ} {stage : PlannedStage} {plan rest : List PlannedStage}
  {now later ls : List (Launch σ)}

/-- What is relied on: a text that was staged without an error is what the file holds. -/
def Machine.Writes (m : Machine σ) (held : Path → σ → Option Bytes) : Prop :=
  ∀ path contents s, (m.stage path contents s).1 = .ok () →
    held path (m.stage path contents s).2 = some contents

/-- A text that was staged in a store is in it. -/
theorem Store.machine_writes (tools : Tools) (given : Except IoError Path) :
    (machine tools given).Writes Store.held := by
  intro path contents s hstaged
  show held path (visit path (Entry.stage contents) s).2 = _
  have hentry : (Entry.stage contents (s path)).1 = .ok () := hstaged
  simp only [held, visit, Function.update_self]
  cases hpath : s path with
  | none => rfl
  | some entry =>
    cases entry with
    | file old => rfl
    | directory =>
      rw [hpath] at hentry
      cases hentry

/-- What the last of these processes printed; `text`, if there is none. -/
def textAfter (text : String) (ls : List (Launch σ)) : String :=
  (ls.getLast?.map fun l => Utf8.lossy l.ending.printed).getD text

theorem textAfter_cons (l : Launch σ) :
    textAfter text (l :: ls) = textAfter (Utf8.lossy l.ending.printed) ls := by
  unfold textAfter
  rw [List.getLast?_cons]
  cases ls.getLast? <;> rfl

theorem textAfter_append :
    textAfter text (now ++ later) = textAfter (textAfter text now) later := by
  unfold textAfter
  rw [List.getLast?_append]
  cases later.getLast? <;> rfl

/-! ## Within a stage -/

/-- Processes that run one after another, with nothing in between. -/
structure Linked (s : σ) (ls : List (Launch σ)) : Prop where
  first : ∀ l ∈ ls.head?, l.before = s
  linked : ls.IsChain fun l next => next.before = l.after

theorem Linked.nil : Linked s [] where
  first _ h := nomatch h
  linked := .nil

theorem Linked.cons {l : Launch σ} (h : Linked l.after ls) : Linked l.before (l :: ls) where
  first := by
    intro next hnext
    obtain rfl := Option.some.inj hnext
    rfl
  linked := h.linked.cons h.first

/-- The first process of a stage starts on the text of the stage, and each of the others on what
the one before it left. -/
structure StageFlow (held : Path → σ → Option Bytes) (path : Path) (text : String)
    (ls : List (Launch σ)) : Prop where
  first : ∀ l ∈ ls.head?, held path l.before = some (Utf8.ofText text)
  linked : ls.IsChain fun l next => next.before = l.after

theorem StageFlow.nil : StageFlow held path text [] where
  first _ h := nomatch h
  linked := .nil

theorem StageFlow.initial (h : StageFlow held path text ls) (hnow : now <+: ls) :
    StageFlow held path text now := by
  refine ⟨fun l hl => h.first l ?_, h.linked.prefix hnow⟩
  obtain ⟨later, rfl⟩ := hnow
  rw [List.head?_append, Option.mem_def.mp hl]
  rfl

theorem Linked.stageFlow (h : Linked s ls) (hs : held path s = some (Utf8.ofText text)) :
    StageFlow held path text ls :=
  ⟨fun l hl => h.first l hl ▸ hs, h.linked⟩

namespace Chain

theorem launchAll_linked (c : Chain) (path : Path) (commands : List (Except ChainError Command))
    (last : String) (m : Machine σ) (s : σ) :
    Linked s (launches ((c.launchAll path last commands).run.record m s)) ∧
      ∀ text, ((c.launchAll path last commands).run.run m s).1 = .ok text →
        text = textAfter last (launches ((c.launchAll path last commands).run.record m s)) := by
  induction commands generalizing last s with
  | nil =>
    refine ⟨.nil, fun text htext => ?_⟩
    exact (Except.ok.inj htext).symm
  | cons command rest ih =>
    cases command with
    | error e => exact ⟨.nil, by rintro _ ⟨⟩⟩
    | ok cmd =>
      have hresume : (c.launchAll path last (.ok cmd :: rest)).run = .launch path cmd c.limit
          fun ending => Attempt.resume (fun text => c.launchAll path text rest)
            ((ending.result cmd).mapError .command) :=
        c.run_launchAll_cons path last (.ok cmd) rest
      simp only [hresume, Job.record, Job.run, launches_cons_launched, Machine.process]
      cases hresult : (m.launch path cmd c.limit s).1.result cmd with
      | error failure =>
        exact ⟨@Linked.cons _ _ (m.process path cmd c.limit s) .nil, by rintro _ ⟨⟩⟩
      | ok printed =>
        obtain ⟨hlinked, htext⟩ := ih printed (m.launch path cmd c.limit s).2
        refine ⟨@Linked.cons _ _ (m.process path cmd c.limit s) hlinked, fun text h => ?_⟩
        rw [textAfter_cons, ← (Ending.succeeded_of_result hresult).2]
        exact htext text h

/-- The processes of a stage that starts on its text, and what it results in. -/
theorem runStage_flow (c : Chain) (stage : PlannedStage) (m : Machine σ)
    (hs : held path s = some (Utf8.ofText text)) :
    let ls := launches ((c.runStage path stage).run.record m s)
    StageFlow held path text ls ∧ ls.map Launch.command <+: c.commands path stage ∧
      ∀ output, ((c.runStage path stage).run.run m s).1 = .ok output →
        ls.map Launch.command = c.commands path stage ∧
          output = outputOf stage (textAfter text ls) := by
  intro ls
  have hplayed := c.runStage_plays path stage m s
  have hrun : (c.runStage path stage).run =
      Except.map (outputOf stage) <$> (c.launchAll path "" (c.commands path stage)).run := by
    rw [runStage_eq, ExceptT.run_map]
  have hls : ls = launches ((c.launchAll path "" (c.commands path stage)).run.record m s) := by
    simp only [ls, hrun, Job.record_map]
  obtain ⟨hlinked, htext⟩ := c.launchAll_linked path (c.commands path stage) "" m s
  rw [← hls] at hlinked htext
  refine ⟨hlinked.stageFlow hs, hplayed.launched_initial, fun output houtput => ?_⟩
  rw [houtput] at hplayed
  have hcommands : ls.map Launch.command = c.commands path stage := Completed.launched hplayed
  refine ⟨hcommands, ?_⟩
  rw [hrun, Job.run_map] at houtput
  cases hlast : ((c.launchAll path "" (c.commands path stage)).run.run m s).1 with
  | error e =>
    rw [hlast] at houtput
    cases houtput
  | ok printed =>
    rw [hlast] at houtput
    obtain rfl : outputOf stage printed = output := Except.ok.inj houtput
    -- a stage has a process, so what was printed before does not matter
    have hne : ls ≠ [] := fun h => c.commands_ne_nil path stage (by rw [← hcommands, h]; rfl)
    obtain ⟨l, ls', hcons⟩ := List.exists_cons_of_ne_nil hne
    rw [htext printed hlast, hcons, textAfter_cons, textAfter_cons]

end Chain

/-! ## From stage to stage -/

/-- The processes of a run of the plan on this text. Each stage is a `StageFlow` on the text of the
stage before it; the run may be stopped in any of them. -/
inductive Flows (c : Chain) (held : Path → σ → Option Bytes) (path : Path) :
    String → List PlannedStage → List (Launch σ) → Prop
  | finished {text : String} : Flows c held path text [] []
  | stopped {text : String} {stage : PlannedStage} {rest : List PlannedStage}
    {now : List (Launch σ)} (flow : StageFlow held path text now)
    (hnow : now.map Launch.command <+: c.commands path stage) :
    Flows c held path text (stage :: rest) now
  | onward {text : String} {stage : PlannedStage} {rest : List PlannedStage}
    {now later : List (Launch σ)} (flow : StageFlow held path text now)
    (hnow : now.map Launch.command = c.commands path stage)
    (hlater : Flows c held path (textAfter text now) rest later) :
    Flows c held path text (stage :: rest) (now ++ later)

/-- A tool that another one follows does not only pass or fail. -/
theorem Registry.Follows.outputOf_eq {next : PlannedStage} (h : Follows stage next)
    (text : String) : Chain.outputOf stage text = text := by
  have hne : stage.tool.spec.output ≠ .status := by
    obtain ⟨heq, hne⟩ := link_eq_allowed_iff.mp h
    exact hne
  rw [Chain.outputOf, if_neg hne]

/-- Every run of a plan flows, and results in what its last stage does. -/
theorem Chain.runStages_flows (c : Chain) (hwrites : m.Writes held)
    (hchain : plan.IsChain Registry.Follows) (text : String) (s : σ) :
    let ls := launches ((c.runStages path text plan).run.record m s)
    Flows c held path text plan ls ∧
      ∀ output, ((c.runStages path text plan).run.run m s).1 = .ok output →
        ∀ last ∈ plan.getLast?, output = outputOf last (textAfter text ls) := by
  induction plan generalizing text s with
  | nil => exact ⟨.finished, by rintro _ _ _ ⟨⟩⟩
  | cons stage rest ih =>
    have hrun : (c.runStages path text (stage :: rest)).run =
        .stage path (Utf8.ofText text) fun x =>
          Attempt.resume (fun _ => do
            let output ← c.runStage path stage
            c.runStages path output rest) (x.mapError .scratch) :=
      c.run_runStages_cons path text stage rest
    simp only [hrun, Job.run, Job.record, launches_cons_staged]
    cases hput : (m.stage path (Utf8.ofText text) s).1 with
    | error e => exact ⟨.stopped .nil List.nil_prefix, by rintro _ ⟨⟩⟩
    | ok u =>
      have hheld := hwrites path (Utf8.ofText text) s hput
      obtain ⟨hflow, hprefix, hdone⟩ := c.runStage_flow stage m hheld
      simp only [Except.mapError, Attempt.resume, Attempt.run_bind, Job.run_andThen,
        Job.record_andThen, launches_append]
      cases hstage : ((c.runStage path stage).run.run m
          (m.stage path (Utf8.ofText text) s).2).1 with
      | error e =>
        simp only [Job.record, launches_nil, List.append_nil]
        exact ⟨.stopped hflow hprefix, by rintro _ ⟨⟩⟩
      | ok output =>
        obtain ⟨hcommands, houtput⟩ := hdone output hstage
        -- only the last stage of a plan can be one that passes or fails without a text
        cases rest with
        | nil =>
          refine ⟨.onward hflow hcommands .finished, fun output' h last hlast => ?_⟩
          obtain rfl : output = output' := Except.ok.inj h
          obtain rfl : stage = last := Option.some.inj hlast
          simpa [runStages, Job.record] using houtput
        | cons next rest =>
          have hfollows : Registry.Follows stage next := hchain.rel
          rw [hfollows.outputOf_eq] at houtput
          subst houtput
          obtain ⟨hlater, houtput⟩ := ih hchain.tail _ (((c.runStage path stage).run.run m
            (m.stage path (Utf8.ofText text) s).2).2)
          refine ⟨.onward hflow hcommands hlater, fun output h last hlast => ?_⟩
          rw [textAfter_append]
          refine houtput output h last ?_
          rwa [List.getLast?_cons_cons] at hlast

/-- Which processes are those of a stage is told by the commands: those of the stages before it
come first, and then as many of its own as were launched. -/
theorem Flows.stageFlow {earlier : List (Launch σ)} {done : List PlannedStage}
    (h : Flows c held path text plan ls) (hplan : plan = done ++ stage :: rest)
    (hls : ls = earlier ++ now ++ later)
    (hearlier : earlier.map Launch.command = c.expected path done)
    (hnow : now.map Launch.command <+: c.commands path stage) :
    StageFlow held path (textAfter text earlier) now := by
  induction h generalizing done earlier with
  | finished => cases done <;> cases hplan
  | @stopped text first rest₀ flowing hflow hprefix =>
    cases done with
    | nil =>
      obtain rfl : first = stage := (List.cons.inj hplan).1
      obtain rfl : earlier = [] := List.map_eq_nil_iff.mp hearlier
      exact hflow.initial ⟨later, hls.symm⟩
    | cons _ done =>
      -- the run was stopped in an earlier stage, so nothing of this one was launched
      obtain rfl := (List.cons.inj hplan).1
      have hle := hprefix.length_le
      have hlen := congrArg List.length hearlier
      have hsum := congrArg List.length hls
      simp only [Chain.expected, List.flatMap_cons, List.length_append, List.length_map]
        at hle hlen hsum
      obtain rfl : now = [] := List.length_eq_zero_iff.mp (by omega)
      exact .nil
  | @onward text first rest₀ flowing later₀ hflow hcommands hlater ih =>
    have hlen := congrArg List.length hcommands
    rw [List.length_map] at hlen
    cases done with
    | nil =>
      obtain rfl : first = stage := (List.cons.inj hplan).1
      obtain rfl : earlier = [] := List.map_eq_nil_iff.mp hearlier
      have hle := hnow.length_le
      rw [List.length_map, ← hlen] at hle
      refine hflow.initial (List.prefix_of_prefix_length_le ⟨later, ?_⟩ ⟨later₀, rfl⟩ hle)
      exact hls.symm
    | cons _ done =>
      obtain ⟨rfl, hrest⟩ := List.cons.inj hplan
      have hearlierlen := congrArg List.length hearlier
      simp only [Chain.expected, List.flatMap_cons, List.length_append, List.length_map]
        at hearlierlen
      -- the first stage is among those before, so its processes come first among theirs
      have hstart : flowing <+: earlier := by
        refine List.prefix_of_prefix_length_le ⟨later₀, hls⟩ ⟨now ++ later, ?_⟩ (by omega)
        rw [List.append_assoc]
      obtain ⟨between, rfl⟩ := hstart
      rw [List.append_assoc, List.append_assoc, List.append_cancel_left_eq,
        ← List.append_assoc] at hls
      rw [List.map_append, hcommands, Chain.expected, List.flatMap_cons,
        List.append_cancel_left_eq] at hearlier
      rw [textAfter_append]
      exact ih hrest hls hearlier

/-! ## The data flow of a request -/

namespace Chain

/-- The command that prints the text of a stage: the disassembler's if the tool leaves a module in
the file, else the tool's. -/
def textCommand (c : Chain) (path : Path) (stage : PlannedStage) : Except ChainError Command :=
  if stage.tool.spec.emission = .scratchFile then c.commandNamed path Spec.disassemblerName ""
  else commandOf path stage.tool stage.flags

theorem commands_getLast? (c : Chain) (path : Path) (stage : PlannedStage) :
    (c.commands path stage).getLast? = some (c.textCommand path stage) := by
  unfold commands textCommand
  by_cases h : stage.tool.spec.emission = .scratchFile
  · simp [h]
  · simp [h]

/-- The text after a stage is what its `textCommand` printed. -/
theorem textAfter_stage {done : List PlannedStage}
    (h : ls.map Launch.command = c.expected path (done ++ [stage])) (text : String) :
    ∃ l ∈ ls.getLast?, l.command = c.textCommand path stage ∧
      textAfter text ls = Utf8.lossy l.ending.printed := by
  have hlast : (ls.map Launch.command).getLast? = some (c.textCommand path stage) := by
    rw [h, expected, List.flatMap_append, List.getLast?_append, List.flatMap_singleton,
      commands_getLast?]
    rfl
  rw [List.getLast?_map] at hlast
  obtain ⟨l, hl, hcommand⟩ := Option.map_eq_some_iff.mp hlast
  exact ⟨l, hl, hcommand, by rw [textAfter, hl]; rfl⟩

/-- The output of a success is what its stages result in, scrubbed. -/
theorem output_of_success {request : Request} (hplan : c.registry.plan request = .ok plan)
    (hpath : (m.create c.scratchDir s).1 = .ok path)
    (hsuccess : ((c.compile request).run m s).1.success = true) :
    ∃ output, ((c.runStages path request.source plan).run.run m (m.create c.scratchDir s).2).1 =
        .ok output ∧
      ((c.compile request).run m s).1.output = (Scrubber.ofPath path).scrub output := by
  rw [run_compile hplan hpath] at hsuccess ⊢
  cases hrun : ((c.runStages path request.source plan).run.run m
      (m.create c.scratchDir s).2).1 with
  | ok output => exact ⟨output, rfl, rfl⟩
  | error e =>
    rw [hrun] at hsuccess
    cases hsuccess

/-- **The data flow of a chain.** Whatever the processes leave in the file, each stage starts on the
text of the one before it, the first one on the source, and within a stage each process starts on
what the one before it left. The text after a stage is what its `textCommand` printed; after the
last one it is, scrubbed, the output. What the other processes print if they succeed is of no
account: had they printed anything else, the same commands had run on the same states, with the
same result. -/
theorem compile_data_flow (c : Chain) (request : Request) (hwrites : m.Writes held)
    (hplan : c.registry.plan request = .ok plan)
    (hscratch : scratchOf ((c.compile request).record m s) = some path) :
    let ls := launches ((c.compile request).record m s)
    let result := ((c.compile request).run m s).1
    ls.map Launch.command <+: c.expected path plan ∧
    (∀ done stage rest earlier now later, plan = done ++ stage :: rest →
      ls = earlier ++ now ++ later → earlier.map Launch.command = c.expected path done →
      now.map Launch.command <+: c.commands path stage →
        StageFlow held path (textAfter request.source earlier) now) ∧
    (∀ done stage earlier, done ++ [stage] <+: plan → earlier <+: ls →
      earlier.map Launch.command = c.expected path (done ++ [stage]) →
        ∃ l ∈ earlier.getLast?, l.command = c.textCommand path stage ∧
          textAfter request.source earlier = Utf8.lossy l.ending.printed) ∧
    (result.success = true → ∀ last ∈ plan.getLast?,
      (last.tool.spec.output ≠ .status →
        result.output = (Scrubber.ofPath path).scrub (textAfter request.source ls)) ∧
      (last.tool.spec.output = .status → Path.slash ∈ path → result.output = validOutput)) ∧
    ∀ noise, let loud := m.garbled noise
      let start := (s, plan.flatMap PlannedStage.hushed)
      ((c.compile request).run loud start).1 = result ∧
        (launches ((c.compile request).record loud start)).map (Launch.around Prod.fst) =
          ls.map (Launch.around id) := by
  intro ls result
  have hpath := create_of_scratchOf_compile hplan hscratch
  have hls : ls = launches _ := launches_compile hplan hpath
  obtain ⟨hflows, houtput⟩ := c.runStages_flows hwrites (Registry.planAfter_isChain hplan)
    request.source (m.create c.scratchDir s).2
  rw [← hls] at hflows houtput
  refine ⟨?_, ?_, ?_, ?_, compile_deaf hplan hpath⟩
  · rw [hls]
    exact (c.runStages_plays path plan request.source m _).launched_initial
  · intro done stage rest earlier now later hsplit hsegment hearlier hnow
    exact hflows.stageFlow hsplit hsegment hearlier hnow
  · intro done stage earlier _ _ hearlier
    exact textAfter_stage hearlier request.source
  · intro hsuccess last hlast
    obtain ⟨output, hrun, hscrubbed⟩ := output_of_success hplan hpath hsuccess
    have htext := houtput output hrun last hlast
    constructor
    · intro hkind
      rw [show result.output = _ from hscrubbed, htext, outputOf, if_neg hkind]
    · intro hkind hslash
      rw [show result.output = _ from hscrubbed, htext, outputOf, if_pos hkind]
      exact Scrubber.scrub_of_hidden (Path.hiddenIn_of_not_mem hslash (by decide))

/-- An optimizer and a validator over a store, where every program prints the file. -/
theorem data_flow_of_checked_optimizer :
    let request : Request :=
      { source := "text", stages := [⟨"spirv-opt", "-O"⟩, ⟨"spirv-val", ""⟩]
        stages_ne := by simp, stages_le := by decide }
    let path := Utf8.ofText "/tmp/a"
    let machine := Store.machine .echo (.ok path)
    let record := (Chain.complete.compile request).record machine fun _ => none
    let result := ((Chain.complete.compile request).run machine fun _ => none).1
    (launches record).map (·.cmd.tool) =
      ["spirv-as", "spirv-opt", "spirv-dis", "spirv-as", "spirv-val"] ∧
    result.success = true ∧ result.output = validOutput := by
  intro request path machine record result
  have hscratch : scratchOf record = some path := by decide +kernel
  have hflow := compile_data_flow Chain.complete request (Store.machine_writes .echo (.ok path))
    rfl hscratch
  have hsuccess : result.success = true := by decide +kernel
  exact ⟨by decide +kernel, hsuccess, (hflow.2.2.2.1 hsuccess _ rfl).2 rfl (by decide)⟩

end Chain

end ShaderChain
