import ShaderChain.Proofs.Record
import ShaderChain.Proofs.Processes

/-!
# What a stage does not listen to

Of the processes of a stage only the last one prints the text of the stage. What the others print
is of no account if they succeed; `PlannedStage.hushed` tells which these are. `Machine.garbled` is a
machine on which they print anything else, and `Attempt.Deaf` says of a part of a job that it goes
the same way on it. `Chain.compile_deaf` is the main statement.
-/

namespace ShaderChain

variable {α β σ τ : Type}

/-- For each process of a stage, whether what it prints is of no account if it succeeds. The
assembler and a tool that leaves a module are followed by another process. -/
def PlannedStage.hushed (stage : PlannedStage) : List Bool :=
  (if stage.tool.spec.input = .spirv then [true] else []) ++
  [decide (stage.tool.spec.emission = .scratchFile)] ++
  (if stage.tool.spec.emission = .scratchFile then [false] else [])

/-- The same ending, but for what a process that succeeded printed. -/
def Ending.printing (stdout : Bytes) : Ending → Ending
  | .exited true _ stderr => .exited true stdout stderr
  | ending => ending

/-- A machine on which processes print noise if they succeed. The second part of its state tells of
each process to come whether it does. -/
def Machine.garbled (m : Machine σ) (noise : Command → σ → Bytes) : Machine (σ × List Bool) where
  create dir s := ((m.create dir s.1).1, (m.create dir s.1).2, s.2)
  stage path contents s :=
    ((m.stage path contents s.1).1, (m.stage path contents s.1).2, s.2)
  launch path cmd limit s :=
    let (ending, after) := m.launch path cmd limit s.1
    (if s.2.headD false then ending.printing (noise cmd s.1) else ending, after, s.2.tail)
  remove path s := (m.remove path s.1, s.2)

/-- What a process runs on and what it leaves, without what it prints. -/
def Launch.around (view : σ → τ) (l : Launch σ) : Command × τ × τ :=
  (l.cmd, view l.before, view l.after)

/-! ## Parts that go the same way -/

/-- A part of a job goes the same way whether or not processes print noise: it ends alike, and runs
the same commands on the same states. After a success, `more` processes are still to come. -/
structure Attempt.SameRun (a : Attempt α) (m : Machine σ) (noise : Command → σ → Bytes) (s : σ)
    (hushed more : List Bool) : Prop where
  outcome : (a.run.run (m.garbled noise) (s, hushed ++ more)).1 = (a.run.run m s).1
  state : (a.run.run (m.garbled noise) (s, hushed ++ more)).2.1 = (a.run.run m s).2
  rest : ∀ x, (a.run.run m s).1 = .ok x →
    (a.run.run (m.garbled noise) (s, hushed ++ more)).2.2 = more
  around : (launches (a.run.record (m.garbled noise) (s, hushed ++ more))).map
    (Launch.around Prod.fst) = (launches (a.run.record m s)).map (Launch.around id)

/-- All runs of this part go the same way if the processes that are told print noise. -/
def Attempt.Deaf (a : Attempt α) (hushed : List Bool) : Prop :=
  ∀ ⦃σ : Type⦄ (m : Machine σ) noise (s : σ) more, a.SameRun m noise s hushed more

namespace Attempt

theorem deaf_pure (a : α) : (pure a : Attempt α).Deaf [] :=
  fun _ _ _ _ _ => ⟨rfl, rfl, fun _ _ => rfl, rfl⟩

theorem deaf_throw (e : ChainError) (hushed : List Bool) :
    (throw e : Attempt α).Deaf hushed :=
  fun _ _ _ _ _ => ⟨rfl, rfl, (fun _ h => nomatch h), rfl⟩

/-- Two parts that go the same way go the same way one after the other. -/
theorem deaf_bind {a : Attempt α} {f : α → Attempt β} {hushed hushed' : List Bool}
    (ha : a.Deaf hushed) (hf : ∀ x, (f x).Deaf hushed') :
    (a >>= f).Deaf (hushed ++ hushed') := by
  intro σ m noise s more
  -- for the first part, the processes of the second are still to come
  obtain ⟨houtcome, hstate, hrest, haround⟩ := ha m noise s (hushed' ++ more)
  rw [← List.append_assoc] at houtcome hstate hrest haround
  cases hx : (a.run.run m s).1 with
  | error e =>
    rw [hx] at houtcome
    constructor <;>
      simp only [run_bind, Job.run_andThen, Job.record_andThen, houtcome, hx, resume, Job.run,
        Job.record, List.append_nil]
    · exact hstate
    · rintro _ ⟨⟩
    · exact haround
  | ok x =>
    rw [hx] at houtcome
    have hloud : (a.run.run (m.garbled noise) (s, (hushed ++ hushed') ++ more)).2 =
        ((a.run.run m s).2, hushed' ++ more) := Prod.ext hstate (hrest x hx)
    obtain ⟨houtcome', hstate', hrest', haround'⟩ := hf x m noise (a.run.run m s).2 more
    constructor <;>
      simp only [run_bind, Job.run_andThen, Job.record_andThen, houtcome, hx, hloud, resume,
        launches_append, List.map_append]
    · exact houtcome'
    · exact hstate'
    · exact hrest'
    · rw [haround, haround']

end Attempt

namespace Chain

theorem put_deaf (path : Path) (contents : Bytes) : (put path contents).Deaf [] :=
  fun _ _ _ _ _ => ⟨rfl, rfl, fun _ _ => rfl, rfl⟩

/-- A process that prints its own text is heard. -/
theorem launch_deaf (c : Chain) (path : Path) (command : Except ChainError Command) :
    (c.launch path command).Deaf [false] := by
  cases command with
  | error e => exact Attempt.deaf_throw e _
  | ok cmd => exact fun _ _ _ _ _ => ⟨rfl, rfl, fun _ _ => rfl, rfl⟩

/-- Noise changes nothing of a process but the text that it prints. -/
theorem printing_result (cmd : Command) (stdout : Bytes) (ending : Ending) :
    ((ending.printing stdout).result cmd).map (fun _ => ()) =
      (ending.result cmd).map fun _ => () := by
  cases ending with
  | exited success _ _ => cases success <;> rfl
  | unlaunched cause => rfl
  | timedOut limit => rfl

/-- A launch whose text is dropped is one of which only the success is asked for. -/
theorem run_map_launch (c : Chain) (path : Path) (cmd : Command) :
    ((fun _ => ()) <$> c.launch path (.ok cmd) : Attempt Unit).run =
      .launch path cmd c.limit fun ending =>
        .done (((ending.result cmd).map fun _ => ()).mapError .command) := by
  rw [map_eq_pure_bind, Attempt.run_bind]
  refine congrArg (Job.launch path cmd c.limit) (funext fun ending => ?_)
  show Job.andThen _ (.done ((ending.result cmd).mapError ChainError.command)) = _
  cases ending.result cmd <;> rfl

/-- Where the text of a process is not used, the process may print anything. -/
theorem launch_deaf_unused (c : Chain) (path : Path) (command : Except ChainError Command)
    (hush : Bool) : ((fun _ => ()) <$> c.launch path command : Attempt Unit).Deaf [hush] := by
  cases command with
  | error e => exact Attempt.deaf_throw e _
  | ok cmd =>
    intro σ m noise s more
    have hquiet : ∀ ending : Ending,
        ((if hush then ending.printing (noise cmd s) else ending).result cmd).map (fun _ => ()) =
          (ending.result cmd).map fun _ => () := by
      intro ending
      cases hush with
      | false => rfl
      | true => exact printing_result cmd _ ending
    constructor <;>
      simp only [run_map_launch, Job.run, Job.record, Machine.garbled, List.cons_append,
        List.nil_append, List.headD_cons, List.tail_cons, implies_true]
    · exact congrArg (Except.mapError ChainError.command) (hquiet _)
    · rfl

theorem launchAll_congr (c : Chain) (path : Path) {commands : List (Except ChainError Command)}
    (h : commands ≠ []) (last last' : String) :
    c.launchAll path last commands = c.launchAll path last' commands := by
  cases commands with
  | nil => exact absurd rfl h
  | cons command rest => rfl

/-- Of processes that run one after another, all but the last one may print anything. -/
theorem launchAll_deaf (c : Chain) (path : Path) {commands : List (Except ChainError Command)}
    {hushed : List Bool} (hlen : hushed.length = commands.length)
    (hlast : hushed.getLast? ≠ some true) (last : String) :
    (c.launchAll path last commands).Deaf hushed := by
  induction commands generalizing hushed last with
  | nil =>
    obtain rfl := List.length_eq_zero_iff.mp hlen
    exact Attempt.deaf_pure last
  | cons command rest ih =>
    obtain ⟨hush, hushed, rfl⟩ := List.exists_cons_of_length_eq_add_one hlen
    have hlen : hushed.length = rest.length := Nat.succ.inj hlen
    show (c.launch path command >>= fun text => c.launchAll path text rest).Deaf
      ([hush] ++ hushed)
    by_cases hrest : rest = []
    · -- the last process is heard
      subst hrest
      obtain rfl := List.length_eq_zero_iff.mp hlen
      obtain rfl : hush = false := by simpa using hlast
      exact Attempt.deaf_bind (c.launch_deaf path command) Attempt.deaf_pure
    · -- another process follows, so the text of this one is dropped
      have hne : hushed ≠ [] := fun h => hrest (List.length_eq_zero_iff.mp (by rw [← hlen, h]; rfl))
      have hlast : hushed.getLast? ≠ some true := by
        rwa [List.getLast?_cons_of_ne_nil hne] at hlast
      have hdrop : (c.launch path command >>= fun text => c.launchAll path text rest) =
          ((fun _ => ()) <$> c.launch path command) >>= fun _ => c.launchAll path last rest := by
        rw [bind_map_left]
        exact congrArg _ (funext fun text => c.launchAll_congr path hrest text last)
      rw [hdrop]
      exact Attempt.deaf_bind (c.launch_deaf_unused path command hush)
        fun _ => ih hlen hlast last

/-- All processes of a stage are told of. -/
theorem length_hushed (c : Chain) (path : Path) (stage : PlannedStage) :
    stage.hushed.length = (c.commands path stage).length := by
  unfold PlannedStage.hushed commands
  split <;> split <;> rfl

/-- The last one is heard. -/
theorem getLast?_hushed (stage : PlannedStage) : stage.hushed.getLast? ≠ some true := by
  unfold PlannedStage.hushed
  by_cases h : stage.tool.spec.emission = .scratchFile
  · simp [h]
  · simp [h]

/-- A stage listens only to the last of its processes. -/
theorem runStage_deaf (c : Chain) (path : Path) (stage : PlannedStage) :
    (c.runStage path stage).Deaf stage.hushed := by
  have h := Attempt.deaf_bind
    (c.launchAll_deaf path (c.length_hushed path stage) (getLast?_hushed stage) "")
    fun text => Attempt.deaf_pure (outputOf stage text)
  rw [runStage_eq, map_eq_pure_bind]
  rwa [List.append_nil] at h

/-- A chain listens only to the last process of each of its stages. -/
theorem runStages_deaf (c : Chain) (path : Path) (plan : List PlannedStage) (text : String) :
    (c.runStages path text plan).Deaf (plan.flatMap PlannedStage.hushed) := by
  induction plan generalizing text with
  | nil => exact Attempt.deaf_pure text
  | cons stage rest ih =>
    have h := Attempt.deaf_bind (put_deaf path (Utf8.ofText text)) fun _ =>
      Attempt.deaf_bind (c.runStage_deaf path stage) ih
    exact h

/-- A request gets the same result, from the same commands on the same states, if the processes that
a chain does not listen to print anything else. -/
theorem compile_deaf {c : Chain} {request : Request} {plan : List PlannedStage} {path : Path}
    {m : Machine σ} {s : σ} (hplan : c.registry.plan request = .ok plan)
    (hpath : (m.create c.scratchDir s).1 = .ok path) (noise : Command → σ → Bytes) :
    let loud := m.garbled noise
    let start := (s, plan.flatMap PlannedStage.hushed)
    ((c.compile request).run loud start).1 = ((c.compile request).run m s).1 ∧
      (launches ((c.compile request).record loud start)).map (Launch.around Prod.fst) =
        (launches ((c.compile request).record m s)).map (Launch.around id) := by
  intro loud start
  have hloud : (loud.create c.scratchDir start).1 = .ok path := hpath
  obtain ⟨houtcome, -, -, haround⟩ := c.runStages_deaf path plan request.source m noise
    (m.create c.scratchDir s).2 []
  rw [List.append_nil] at houtcome haround
  constructor
  · rw [run_compile hplan hpath, run_compile hplan hloud]
    exact congrArg (compilationOf path) houtcome
  · rw [launches_compile hplan hpath, launches_compile hplan hloud]
    exact haround

end Chain

end ShaderChain
