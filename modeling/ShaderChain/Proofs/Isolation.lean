import ShaderChain.Proofs.Store
import ShaderChain.Proofs.Work

/-!
# Requests do not see each other

Requests that are in progress at the same time take their steps in any order over one store.
What a request reads and writes is at the path of its own scratch file, so the steps of the others
change nothing for it: after any schedule, what is left of a request and what is at its path are
what they are after as many steps alone (`Scene.Simulates.play`). So each request gets the result
that it gets alone, as soon as it has had as many turns as it takes alone
(`Scene.result_of_any_interleaving`).
-/

namespace ShaderChain

variable {α β ι σ : Type}

/-! ## One step at a time -/

namespace Job

/-- One step of a job. A job that is done stays as it is. -/
def step (m : Machine σ) : Job α → σ → Job α × σ
  | .done a, s => (.done a, s)
  | .create dir next, s => let (x, s) := m.create dir s; (next x, s)
  | .stage path contents next, s => let (x, s) := m.stage path contents s; (next x, s)
  | .launch path cmd limit next, s => let (x, s) := m.launch path cmd limit s; (next x, s)
  | .remove path next, s => (next, m.remove path s)

/-- Several steps of a job. -/
def steps (m : Machine σ) : Nat → Job α → σ → Job α × σ
  | 0, job, s => (job, s)
  | n + 1, job, s => steps m n (job.step m s).1 (job.step m s).2

/-- How many steps a job takes alone. -/
def turns (m : Machine σ) : Job α → σ → Nat
  | .done _, _ => 0
  | .create dir next, s => let (x, s) := m.create dir s; (next x).turns m s + 1
  | .stage path contents next, s =>
    let (x, s) := m.stage path contents s; (next x).turns m s + 1
  | .launch path cmd limit next, s =>
    let (x, s) := m.launch path cmd limit s; (next x).turns m s + 1
  | .remove path next, s => next.turns m (m.remove path s) + 1

theorem run_step (m : Machine σ) (job : Job α) (s : σ) :
    (job.step m s).1.run m (job.step m s).2 = job.run m s := by
  cases job <;> rfl

theorem run_steps (m : Machine σ) (n : Nat) (job : Job α) (s : σ) :
    (job.steps m n s).1.run m (job.steps m n s).2 = job.run m s := by
  induction n generalizing job s with
  | zero => rfl
  | succ n ih => rw [steps, ih, run_step]

/-- A job that has had as many turns as it takes alone is done, with the result of a run. -/
theorem steps_of_turns_le (m : Machine σ) {n : Nat} {job : Job α} {s : σ}
    (h : job.turns m s ≤ n) : (job.steps m n s).1 = .done (job.run m s).1 := by
  induction n generalizing job s with
  | zero =>
    cases job with
    | done a => rfl
    | create | stage | launch | remove => exact absurd h (Nat.not_succ_le_zero _)
  | succ n ih =>
    rw [steps, ← run_step]
    refine ih (Nat.le_of_succ_le_succ ?_)
    cases job with
    | done a => exact Nat.succ_le_succ (Nat.zero_le n)
    | create | stage | launch | remove => exact h

/-! ## Jobs that keep to their own path -/

/-- Apart from creating a scratch file, every step is at a path of the job's own. Own is at least
the path that a creation answers with. -/
def StaysWithin (own : Path → Prop) : Job α → Prop
  | .done _ => True
  | .create _ next => ∀ x, (∀ path, x = .ok path → own path) → (next x).StaysWithin own
  | .stage path _ next => own path ∧ ∀ x, (next x).StaysWithin own
  | .launch path _ _ next => own path ∧ ∀ x, (next x).StaysWithin own
  | .remove path next => own path ∧ next.StaysWithin own

theorem StaysWithin.andThen {own : Path → Prop} {job : Job α} {f : α → Job β}
    (hjob : job.StaysWithin own) (hf : ∀ a, (f a).StaysWithin own) :
    (job.andThen f).StaysWithin own := by
  induction job with
  | done a => exact hf a
  | create dir next ih => exact fun x hx => ih x (hjob x hx)
  | stage path contents next ih => exact ⟨hjob.1, fun x => ih x (hjob.2 x)⟩
  | launch path cmd limit next ih => exact ⟨hjob.1, fun x => ih x (hjob.2 x)⟩
  | remove path next ih => exact ⟨hjob.1, ih hjob.2⟩

/-- Work on a scratch file of the job's own. -/
theorem WorksAt.staysWithin {own : Path → Prop} {path : Path} {job : Job α}
    (hjob : job.WorksAt path) (hp : own path) : job.StaysWithin own := by
  induction job with
  | done a => trivial
  | create | remove => exact hjob.elim
  | stage p contents next ih =>
    obtain ⟨rfl, hnext⟩ := hjob
    exact ⟨hp, fun x => ih x (hnext x)⟩
  | launch p cmd limit next ih =>
    obtain ⟨rfl, hnext⟩ := hjob
    exact ⟨hp, fun x => ih x (hnext x)⟩

end Job

/-- A job that creates and removes its scratch file stays at the path that is found for it. -/
theorem Chain.Tidies.staysWithin {c : Chain} {job : Job α} (h : c.Tidies job)
    (own : Path → Prop) : job.StaysWithin own := by
  rcases h with ⟨a, rfl⟩ | ⟨failed, body, rfl, hbody⟩
  · trivial
  · intro x hx
    cases x with
    | error e => trivial
    | ok path =>
      have hown : own path := hx path rfl
      exact ((hbody path).staysWithin hown).andThen fun a => ⟨hown, trivial⟩

/-! ## Steps on a shared store -/

namespace Job

variable {given : Except IoError Path} {s s' : Store}

/-- A step of a job depends only on what is at its own path, and the next job stays there. -/
theorem StaysWithin.step (tools : Tools) {job : Job α} (hjob : job.StaysWithin (given = .ok ·))
    (hs : Store.SameOn (given = .ok ·) s s') :
    (job.step (Store.machine tools given) s).1 = (job.step (Store.machine tools given) s').1 ∧
      (job.step (Store.machine tools given) s).1.StaysWithin (given = .ok ·) ∧
      Store.SameOn (given = .ok ·) (job.step (Store.machine tools given) s).2
        (job.step (Store.machine tools given) s').2 := by
  cases job with
  | done a => exact ⟨rfl, hjob, hs⟩
  | create dir next =>
    have hx : ∀ path, (Store.create given s).1 = .ok path → given = .ok path :=
      fun _ => Store.create_eq_ok
    -- without a path nothing is created; with one, the creation is a visit to it
    cases given with
    | error e => exact ⟨rfl, hjob _ hx, hs⟩
    | ok path =>
      have hv := hs.visit rfl Entry.create
      exact ⟨congrArg (fun x : Except IoError Unit => next (x.map fun _ => path)) hv.1,
        hjob _ hx, hv.2⟩
  | stage path contents next =>
    have hv := hs.visit hjob.1 (Entry.stage contents)
    exact ⟨congrArg next hv.1, hjob.2 _, hv.2⟩
  | launch path cmd limit next =>
    have hv := hs.visit hjob.1 (tools cmd.program cmd.args limit)
    exact ⟨congrArg next hv.1, hjob.2 _, hv.2⟩
  | remove path next => exact ⟨rfl, hjob.2, (hs.visit hjob.1 Entry.remove).2⟩

/-- A step of a job leaves what is at other paths as it is. -/
theorem StaysWithin.step_frame (tools : Tools) {job : Job α}
    (hjob : job.StaysWithin (given = .ok ·)) {q : Path} (hq : given ≠ .ok q) :
    (job.step (Store.machine tools given) s).2 q = s q := by
  have hne : ∀ path, given = .ok path → q ≠ path := fun _ hpath h => hq (h ▸ hpath)
  cases job with
  | done a => rfl
  | create dir next =>
    cases given with
    | error e => rfl
    | ok path => exact Store.visit_frame Entry.create (hne path rfl)
  | stage path contents next => exact Store.visit_frame (Entry.stage contents) (hne path hjob.1)
  | launch path cmd limit next =>
    exact Store.visit_frame (tools cmd.program cmd.args limit) (hne path hjob.1)
  | remove path next => exact Store.visit_frame Entry.remove (hne path hjob.1)

end Job

/-! ## Interleavings -/

/-- Requests in progress over one store: what is left to do of each, and the store. -/
structure Scene (ι α : Type) where
  jobs : ι → Job α
  store : Store

namespace Scene

variable [DecidableEq ι] (tools : Tools) (given : ι → Except IoError Path)

/-- One request takes its next step. `given` are the paths that are found for scratch files. -/
def turn (scene : Scene ι α) (i : ι) : Scene ι α :=
  let (job, store) := (scene.jobs i).step (Store.machine tools (given i)) scene.store
  { jobs := Function.update scene.jobs i job, store }

/-- The requests take steps in this order. -/
def play (scene : Scene ι α) (schedule : List ι) : Scene ι α :=
  schedule.foldl (turn tools given) scene

/-- Every request stays at its own path. -/
def Tidy (scene : Scene ι α) : Prop :=
  ∀ i, (scene.jobs i).StaysWithin (given i = .ok ·)

/-- Request `i` is in the scene as it is alone, with this left to do and this store. -/
structure Simulates (scene : Scene ι α) (i : ι) (alone : Job α × Store) : Prop where
  job : scene.jobs i = alone.1
  store : Store.SameOn (given i = .ok ·) scene.store alone.2

variable {tools given} {scene : Scene ι α} {i : ι} {alone : Job α × Store}

theorem Tidy.turn (h : scene.Tidy given) (j : ι) : (scene.turn tools given j).Tidy given := by
  intro k
  by_cases hkj : k = j
  · subst hkj
    simp only [Scene.turn, Function.update_self]
    exact ((h k).step tools fun _ _ => rfl).2.1
  · simp only [Scene.turn, Function.update_of_ne hkj]
    exact h k

/-- The request's own turn is a step of it alone. -/
theorem Simulates.turn_self (htidy : scene.Tidy given) (h : scene.Simulates given i alone) :
    (scene.turn tools given i).Simulates given i
      (alone.1.step (Store.machine tools (given i)) alone.2) := by
  obtain ⟨hjob, -, hstore⟩ := (htidy i).step tools h.store
  rw [h.job] at hjob hstore
  refine ⟨?_, ?_⟩
  · simp only [Scene.turn, Function.update_self, h.job]
    exact hjob
  · simp only [Scene.turn, h.job]
    exact hstore

/-- The turn of another request is invisible. -/
theorem Simulates.turn_other (htidy : scene.Tidy given)
    (distinct : ∀ i j path, given i = .ok path → given j = .ok path → i = j)
    (h : scene.Simulates given i alone) {j : ι} (hij : i ≠ j) :
    (scene.turn tools given j).Simulates given i alone := by
  refine ⟨?_, fun path hpath => ?_⟩
  · simp only [Scene.turn, Function.update_of_ne hij]
    exact h.job
  · have hother : given j ≠ .ok path := fun hj => hij (distinct i j path hpath hj)
    exact ((htidy j).step_frame tools hother).trans (h.store path hpath)

/-- After any schedule, a request is as it is after as many steps alone. -/
theorem Simulates.play (htidy : scene.Tidy given)
    (distinct : ∀ i j path, given i = .ok path → given j = .ok path → i = j)
    (h : scene.Simulates given i alone) (schedule : List ι) :
    (scene.play tools given schedule).Simulates given i
      (alone.1.steps (Store.machine tools (given i)) (schedule.count i) alone.2) := by
  -- the scene and the lone request move on together where it is the request's turn
  induction schedule generalizing scene alone with
  | nil => exact h
  | cons j rest ih =>
    by_cases hij : i = j
    · subst hij
      rw [List.count_cons_self]
      exact ih (htidy.turn i) (h.turn_self htidy)
    · rw [List.count_cons_of_ne (Ne.symm hij)]
      exact ih (htidy.turn j) (h.turn_other htidy distinct hij)

/-- **Requests do not see each other.** Requests that are found different paths take their steps
in any order. A request that is done has the result that it gets alone, on a store of its own with
the same at its path, and it is done as soon as it has had as many turns as it takes alone. -/
theorem result_of_any_interleaving (c : Chain) (inquiries : ι → Inquiry) (store : Store)
    (distinct : ∀ i j path, given i = .ok path → given j = .ok path → i = j)
    (schedule : List ι) (i : ι) (own : Store) (hown : Store.SameOn (given i = .ok ·) store own) :
    let machine := Store.machine tools (given i)
    let job := c.perform (inquiries i)
    let scene := play tools given ⟨fun i => c.perform (inquiries i), store⟩ schedule
    (∀ result, scene.jobs i = .done result → result = (job.run machine own).1) ∧
      (job.turns machine own ≤ schedule.count i →
        scene.jobs i = .done (job.run machine own).1) := by
  intro machine job scene
  have htidy : Tidy given ⟨fun i => c.perform (inquiries i), store⟩ :=
    fun i => (c.perform_tidies (inquiries i)).staysWithin _
  have hstart : Simulates given ⟨fun i => c.perform (inquiries i), store⟩ i (job, own) :=
    ⟨rfl, hown⟩
  have hjob : scene.jobs i = (job.steps machine (schedule.count i) own).1 :=
    (hstart.play htidy distinct schedule).job
  constructor
  · -- what is left of a job runs to the same result, so a job that is done has it
    intro result hdone
    rw [← Job.run_steps machine (schedule.count i) job own, ← hjob, hdone]
    rfl
  · intro hturns
    exact hjob.trans (Job.steps_of_turns_le machine hturns)

/-- Two disassemblies that take turns; each gets its own text. -/
theorem disassemblies_taking_turns :
    let given : Bool → Except IoError Path
      | true => .ok (Utf8.ofText "/tmp/a")
      | false => .ok (Utf8.ofText "/tmp/b")
    let inquiry : Bool → Inquiry
      | true => .disassemble (Utf8.ofText "one")
      | false => .disassemble (Utf8.ofText "two")
    let schedule := [true, false, false, true, false, true, true, false]
    (play .echo given ⟨fun i => Chain.complete.perform (inquiry i), fun _ => none⟩ schedule).jobs
      true = .done (.disassembly { success := true, data := "one" }) := by
  intro given inquiry schedule
  have hne : Utf8.ofText "/tmp/a" ≠ Utf8.ofText "/tmp/b" := by decide
  have hdistinct : ∀ i j path, given i = .ok path → given j = .ok path → i = j := by
    intro i j path hi hj
    have hij : given i = given j := hi.trans hj.symm
    cases i <;> cases j <;> simp_all [given]
  have hturns : (Chain.complete.perform (inquiry true)).turns (Store.machine .echo (given true))
      (fun _ => none) ≤ schedule.count true := by decide
  exact ((result_of_any_interleaving Chain.complete inquiry (fun _ => none) hdistinct schedule true
    (fun _ => none) fun _ _ => rfl).2 hturns).trans rfl

end Scene

end ShaderChain
