import ShaderChain.Proofs.Isolation
import ShaderChain.Proofs.Record

/-!
# Running over the same path again

On a store a process is a function of its command and of what is at the path of the scratch file. So
a job ends alike on all stores that have the same at its path (`Job.run_at`). In particular,
what follows the staging of a text depends on nothing but that text, however often the file was used
before (`Chain.run_put`). This is what laws about several runs over one path are proved with.
-/

namespace ShaderChain

variable {α : Type} {tools : Tools} {given : Except IoError Path} {path : Path} {s s' : Store}

/-- A job ends alike on stores that have the same at the paths that are its own. -/
theorem Job.StaysWithin.run (tools : Tools) {job : Job α}
    (hjob : job.StaysWithin (given = .ok ·)) (hs : Store.SameOn (given = .ok ·) s s') :
    (job.run (Store.machine tools given) s).1 = (job.run (Store.machine tools given) s').1 := by
  -- a step leads to the same job from both stores, and the induction hypothesis does the rest
  induction job generalizing s s' with
  | done a => rfl
  | create dir next ih =>
    obtain ⟨hnext, hstays, hsame⟩ := hjob.step tools hs
    rw [← run_step, ← run_step _ _ s', ← hnext]
    exact ih _ hstays hsame
  | stage path contents next ih =>
    obtain ⟨hnext, hstays, hsame⟩ := hjob.step tools hs
    rw [← run_step, ← run_step _ _ s', ← hnext]
    exact ih _ hstays hsame
  | launch path cmd limit next ih =>
    obtain ⟨hnext, hstays, hsame⟩ := hjob.step tools hs
    rw [← run_step, ← run_step _ _ s', ← hnext]
    exact ih _ hstays hsame
  | remove path next ih =>
    obtain ⟨-, hstays, hsame⟩ := hjob.step tools hs
    exact ih hstays hsame

/-- A job that stays at one path ends alike on stores that have the same there. -/
theorem Job.run_at {job : Job α} (hjob : job.StaysWithin (path = ·)) (hs : s path = s' path) :
    (job.run (Store.machine tools (.ok path)) s).1 =
      (job.run (Store.machine tools (.ok path)) s').1 := by
  have hown : (path = ·) = ((Except.ok path : Except IoError Path) = .ok ·) :=
    funext fun q => propext ⟨congrArg Except.ok, Except.ok.inj⟩
  rw [hown] at hjob
  refine hjob.run tools fun q hq => ?_
  obtain rfl := Except.ok.inj hq
  exact hs

/-! ## What is at the path of the scratch file -/

namespace Entry

variable {entry : Option Entry}

/-- The service itself never puts a directory in the way. -/
theorem create_ne (h : entry ≠ some .directory) : (create entry).2 ≠ some .directory := by
  cases entry with
  | none => exact fun h => nomatch h
  | some entry => exact h

theorem stage_ne (contents : Bytes) (h : entry ≠ some .directory) :
    (stage contents entry).2 ≠ some .directory := by
  rcases entry with _ | old | _
  · exact fun h => nomatch h
  · exact fun h => nomatch h
  · exact absurd rfl h

theorem remove_ne (h : entry ≠ some .directory) : (remove entry).2 ≠ some .directory := by
  rcases entry with _ | old | _
  · exact fun h => nomatch h
  · exact fun h => nomatch h
  · exact absurd rfl h

end Entry

namespace Store

/-- A store with nothing in it but a file of these contents at `path`. -/
def single (path : Path) (contents : Bytes) : Store :=
  Function.update (fun _ => none) path (some (.file contents))

/-- Nothing is at the path that cannot be overwritten. -/
def Writable (path : Path) (s : Store) : Prop :=
  s path ≠ some .directory

theorem single_writable (path : Path) (contents : Bytes) :
    (single path contents).Writable path := by
  rw [Writable, single, Function.update_self]
  exact fun h => nomatch h

/-- A scratch file is created where nothing is. -/
theorem create_free (hfree : s path = none) :
    create (.ok path) s = (.ok path, Function.update s path (some (.file []))) := by
  simp [create, visit, Entry.create, hfree, Except.map]

theorem stage_writable (contents : Bytes) (hs : s.Writable path) :
    visit path (Entry.stage contents) s =
      (.ok (), Function.update s path (some (.file contents))) := by
  unfold visit
  rcases hpath : s path with _ | old | _
  · rfl
  · rfl
  · exact absurd hpath hs

/-- A visit that puts nothing in the way of the scratch file. -/
theorem Writable.visit {γ : Type} {q : Path} {f : Option Entry → γ × Option Entry}
    (hf : ∀ entry, entry ≠ some .directory → (f entry).2 ≠ some .directory)
    (hs : s.Writable path) : (visit q f s).2.Writable path := by
  by_cases hq : path = q
  · subst hq
    show Function.update s path _ path ≠ _
    rw [Function.update_self]
    exact hf _ hs
  · show (Store.visit q f s).2 path ≠ _
    rw [visit_frame f hq]
    exact hs

end Store

/-- No process puts anything in place of the scratch file that cannot be overwritten. -/
def Tools.Tidy (tools : Tools) : Prop :=
  ∀ program args limit entry, entry ≠ some .directory →
    (tools program args limit entry).2 ≠ some .directory

/-- Where processes are tidy, the scratch file can be overwritten after a run as before it. -/
theorem Job.run_writable (htidy : tools.Tidy) (job : Job α) (hs : s.Writable path) :
    (job.run (Store.machine tools given) s).2.Writable path := by
  induction job generalizing s with
  | done a => exact hs
  | create dir next ih =>
    refine ih _ ?_
    show (Store.create given s).2.Writable path
    cases given with
    | error e => exact hs
    | ok q => exact hs.visit fun _ => Entry.create_ne
  | stage q contents next ih => exact ih _ (hs.visit fun _ => Entry.stage_ne contents)
  | launch q cmd limit next ih => exact ih _ (hs.visit (htidy cmd.program cmd.args limit))
  | remove q next ih => exact ih (hs.visit fun _ => Entry.remove_ne)

/-! ## Runs over a path -/

/-- What a part of a job gives over a scratch file of its own that holds this text. -/
def Attempt.over (a : Attempt α) (tools : Tools) (path : Path) (text : String) :
    Except ChainError α :=
  (a.run.run (Store.machine tools (.ok path)) (Store.single path (Utf8.ofText text))).1

namespace Chain

/-- The result of a request whose scratch file is at `path`. -/
def resultAt (c : Chain) (tools : Tools) (path : Path) (s : Store) (request : Request) :
    Compilation :=
  ((c.compile request).run (Store.machine tools (.ok path)) s).1

/-- A process is run on what is at the path of the scratch file. -/
theorem run_launch (c : Chain) (tools : Tools) (cmd : Command) (s : Store) :
    (c.launch path (.ok cmd)).run.run (Store.machine tools given) s =
      (((tools cmd.program cmd.args c.limit (s path)).1.result cmd).mapError .command,
        Function.update s path (tools cmd.program cmd.args c.limit (s path)).2) :=
  rfl

/-- What follows the staging of a text depends on nothing but that text. -/
theorem run_put {f : Except ChainError Unit → Job α} (contents : Bytes)
    (hf : (f (.ok ())).StaysWithin (path = ·)) (hs : s.Writable path) :
    (((put path contents).run.andThen f).run (Store.machine tools (.ok path)) s).1 =
      ((f (.ok ())).run (Store.machine tools (.ok path)) (Store.single path contents)).1 := by
  have hstage := Store.stage_writable contents hs
  show ((f ((Store.visit path (Entry.stage contents) s).1.mapError .scratch)).run _
    (Store.visit path (Entry.stage contents) s).2).1 = _
  rw [hstage]
  refine Job.run_at hf ?_
  rw [Store.single, Function.update_self]
  exact Function.update_self ..

/-- A job over a scratch file starts where the file can be written. -/
theorem run_withScratch_at (tools : Tools) (c : Chain) (failed : ChainError → α)
    (job : Path → Job α) (hfree : s path = none) :
    ∃ start : Store, start.Writable path ∧
      ((c.withScratch failed job).run (Store.machine tools (.ok path)) s).1 =
        ((job path).run (Store.machine tools (.ok path)) start).1 := by
  have hcreate := Store.create_free hfree
  have hpath : ((Store.machine tools (.ok path)).create c.scratchDir s).1 = .ok path :=
    congrArg Prod.fst hcreate
  refine ⟨((Store.machine tools (.ok path)).create c.scratchDir s).2, ?_,
    run_withScratch_ok hpath⟩
  show (Store.create (.ok path) s).2 path ≠ _
  rw [hcreate]
  show Function.update s path _ path ≠ _
  rw [Function.update_self]
  exact fun h => nomatch h

/-- The result of an accepted request is that of its stages, run where the scratch file can be
written. -/
theorem resultAt_eq (tools : Tools) {c : Chain} {request : Request} {plan : List PlannedStage}
    (hplan : c.registry.plan request = .ok plan) (hfree : s path = none) :
    ∃ start : Store, start.Writable path ∧ c.resultAt tools path s request =
      compilationOf path ((c.runStages path request.source plan).run.run
        (Store.machine tools (.ok path)) start).1 := by
  rw [resultAt, compile_planned hplan]
  obtain ⟨start, hstart, hrun⟩ := run_withScratch_at tools c (fun e => .failed e.report)
    (fun path => (c.runStages path request.source plan).run.andThen
      (.done ∘ compilationOf path)) hfree
  refine ⟨start, hstart, hrun.trans ?_⟩
  rw [Job.run_andThen]
  rfl

end Chain

end ShaderChain
