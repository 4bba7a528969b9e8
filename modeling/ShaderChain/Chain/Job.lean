import ShaderChain.Command

/-!
# Jobs, step by step

A job is what a request asks of the machine that it runs on: to create a scratch file, to stage
contents in it, to launch a command on it and to remove it, one step after another, where each
step depends on how the ones before it went. A job says nothing about how the steps are carried
out. `Machine` does, and `Job.run` runs a job alone on a machine; other ways to run jobs, several
at a time or with a record of the steps, are other functions of the same `Job`.
-/

namespace ShaderChain

/-- A tree of steps that ends in an `α`. -/
inductive Job (α : Type) where
  | done (a : α)
  /-- Creates a scratch file, in this directory or in that for temporary files. -/
  | create (dir : Option Path) (next : Except IoError Path → Job α)
  /-- Replaces the contents of the scratch file at `path`. -/
  | stage (path : Path) (contents : Bytes) (next : Except IoError Unit → Job α)
  /-- Runs a command of which the scratch file is at `path`, for no longer than `limit`. -/
  | launch (path : Path) (cmd : Command) (limit : Option Span) (next : Ending → Job α)
  /-- Removes the scratch file at `path`. -/
  | remove (path : Path) (next : Job α)

namespace Job

/-- Goes on with `f` where the job is done. -/
def andThen (f : α → Job β) : Job α → Job β
  | .done a => f a
  | .create dir next => .create dir fun x => (next x).andThen f
  | .stage path contents next => .stage path contents fun x => (next x).andThen f
  | .launch path cmd limit next => .launch path cmd limit fun x => (next x).andThen f
  | .remove path next => .remove path (next.andThen f)

instance : Monad Job where
  pure := .done
  bind job f := job.andThen f

@[simp] theorem andThen_done (f : α → Job β) (a : α) : (Job.done a).andThen f = f a := rfl

@[simp] theorem pure_eq (a : α) : (pure a : Job α) = .done a := rfl

@[simp] theorem bind_eq (job : Job α) (f : α → Job β) : job >>= f = job.andThen f := rfl

theorem andThen_pure (job : Job α) : job.andThen .done = job := by
  induction job with
  | done a => rfl
  | create dir next ih => simp [andThen, ih]
  | stage path contents next ih => simp [andThen, ih]
  | launch path cmd limit next ih => simp [andThen, ih]
  | remove path next ih => simp [andThen, ih]

theorem andThen_assoc (job : Job α) (f : α → Job β) (g : β → Job γ) :
    (job.andThen f).andThen g = job.andThen fun a => (f a).andThen g := by
  induction job with
  | done a => rfl
  | create dir next ih => simp [andThen, ih]
  | stage path contents next ih => simp [andThen, ih]
  | launch path cmd limit next ih => simp [andThen, ih]
  | remove path next ih => simp [andThen, ih]

instance : LawfulMonad Job :=
  LawfulMonad.mk' Job andThen_pure (fun _ _ => rfl) andThen_assoc

end Job

/-- A machine that carries out the steps of jobs, with states `σ`. -/
structure Machine (σ : Type) where
  create : Option Path → σ → Except IoError Path × σ
  stage : Path → Bytes → σ → Except IoError Unit × σ
  launch : Path → Command → Option Span → σ → Ending × σ
  remove : Path → σ → σ

/-- Runs a job alone. -/
def Job.run (m : Machine σ) : Job α → σ → α × σ
  | .done a, s => (a, s)
  | .create dir next, s => let (x, s) := m.create dir s; (next x).run m s
  | .stage path contents next, s => let (x, s) := m.stage path contents s; (next x).run m s
  | .launch path cmd limit next, s => let (x, s) := m.launch path cmd limit s; (next x).run m s
  | .remove path next, s => next.run m (m.remove path s)

theorem Job.run_andThen (m : Machine σ) (job : Job α) (f : α → Job β) (s : σ) :
    (job.andThen f).run m s = (f (job.run m s).1).run m (job.run m s).2 := by
  induction job generalizing s with
  | done a => rfl
  | create dir next ih => simp [Job.andThen, Job.run, ih]
  | stage path contents next ih => simp [Job.andThen, Job.run, ih]
  | launch path cmd limit next ih => simp [Job.andThen, Job.run, ih]
  | remove path next ih => simp [Job.andThen, Job.run, ih]

end ShaderChain
