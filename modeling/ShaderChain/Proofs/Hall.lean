import ShaderChain.Proofs.Isolation

/-!
# Requests at a common gate

A hall holds all requests from their arrivals on (`Visit`), and what they share: the gate with its
permits, the counters and the machine. At any time a request can arrive, and one that is there can
make a move (`Move`): it takes its next step, it is granted a permit, its time in the queue ends, or
its client leaves. A schedule is a list of such events in any order (`Hall.play`); an event that is
not possible when it comes changes nothing.

Requests of the service take their steps in good order (`Handling.Orderly`): a job is performed only
with a permit, a permit is asked for only once, and with a permit the answer has status 200. In good
order every move keeps the sum of the permits that are held and those that are free
(`Visit.move_account`), so every schedule does (`Hall.Accounted.play`). A request
that makes all its moves without a pause is answered as by `Handling.run` (`Hall.canEnd_run`).
-/

namespace ShaderChain

variable {α σ : Type}

/-! ## One request -/

/-- What a job is done with, if it is done. -/
def Job.result? : Job α → Option α
  | .done a => some a
  | _ => none

/-- The command that a job launches next, if that is its next step. -/
def Job.launching : Job α → List Command
  | .launch _ cmd _ _ => [cmd]
  | _ => []

/-- How far the handling of a request has come. -/
inductive Progress where
  | underway (rest : Handling)
  | answered (response : Http.Response)
  /-- The client has left, and the handling was given up. -/
  | abandoned

/-- A request from its arrival on. -/
structure Visit where
  request : Http.Request
  progress : Progress
  /-- Whether it was granted a permit, be it held or given back. -/
  granted : Bool := false
  /-- The commands that it has launched. -/
  launched : List Command := []

/-- What a request that has arrived can do, or what can be done to it. -/
inductive Move (σ : Type) where
  /-- It takes its next step, if that is not to wait. -/
  | turn
  /-- It is granted a permit that it waits for, if one is free. -/
  | grant
  /-- It does not get the permit that it waits for. -/
  | refuse
  /-- The client leaves. What is stopped and removed then leaves the machine in this state. -/
  | leave (after : σ)

/-- Why a permit is refused at this gate. -/
def Gate.refusal (g : Gate) : Refusal :=
  if g.closed then .closed else .overloaded

theorem Gate.free_of_acquire {g g' : Gate} (h : g.acquire = .ok g') : g.free = g'.free + 1 := by
  unfold acquire at h
  split at h
  · cases h
  · split at h
    · cases h
    · obtain rfl := Except.ok.inj h
      show g.free = g.free - 1 + 1
      omega

theorem Gate.refusal_of_acquire {g : Gate} {refusal : Refusal}
    (h : g.acquire = .error refusal) : g.refusal = refusal := by
  unfold acquire at h
  unfold Gate.refusal
  split at h
  · next hclosed =>
    rw [if_pos hclosed]
    exact Except.error.inj h
  · next hopen =>
    rw [if_neg hopen]
    split at h
    · exact Except.error.inj h
    · cases h

/-- Takes back permits. -/
def Desk.release (d : Desk) (n : Nat) : Desk :=
  { d with gate := d.gate.release n }

namespace Visit

/-- A request that has just arrived. -/
def arrived (service : Service) (request : Http.Request) : Visit where
  request
  progress := .underway (service.handle request)

/-- Whether it is between being granted a permit and its end. -/
def holds (v : Visit) : Bool :=
  match v.progress with
  | .underway _ => v.granted
  | .answered _ | .abandoned => false

/-- Whether it performs a job. -/
def runs (v : Visit) : Bool :=
  match v.progress with
  | .underway (.perform _ _) => true
  | _ => false

/-- The permits that it holds. -/
def held (v : Visit) : Nat :=
  if v.holds then 1 else 0

/-- It goes on with `rest`. -/
def goOn (v : Visit) (rest : Handling) : Visit :=
  { v with progress := .underway rest }

/-- The next step that is not to wait. A job takes one step at a time. -/
def turn (m : Machine σ) (v : Visit) (d : Desk) (s : σ) : Visit × Desk × σ :=
  match v.progress with
  | .underway (.answer response) =>
    ({ v with progress := .answered response }, d.release v.held, s)
  | .underway (.count c next) => (v.goOn next, { d with tally := d.tally.bump c }, s)
  | .underway (.perform job next) =>
    match job.result? with
    | some p => (v.goOn (next p), d, s)
    | none =>
      let (rest, s) := job.step m s
      ({ v.goOn (.perform rest next) with launched := v.launched ++ job.launching }, d, s)
  | .underway (.acquire _) | .answered _ | .abandoned => (v, d, s)

/-- A permit for one that waits. -/
def grant (v : Visit) (d : Desk) : Visit × Desk :=
  match v.progress, d.gate.acquire with
  | .underway (.acquire next), .ok gate =>
    ({ v.goOn (next (.ok ())) with granted := true }, { d with gate })
  | _, _ => (v, d)

/-- The end of a wait without a permit. -/
def refuse (v : Visit) (d : Desk) : Visit :=
  match v.progress with
  | .underway (.acquire next) => v.goOn (next (.error d.gate.refusal))
  | _ => v

/-- The client leaves before it is answered. -/
def leave (v : Visit) (d : Desk) (s after : σ) : Visit × Desk × σ :=
  match v.progress with
  | .underway _ => ({ v with progress := .abandoned }, d.release v.held, after)
  | .answered _ | .abandoned => (v, d, s)

/-- What a move makes of a request and of what requests share. -/
def move (m : Machine σ) (v : Visit) (d : Desk) (s : σ) : Move σ → Visit × Desk × σ
  | .turn => v.turn m d s
  | .grant => ((v.grant d).1, (v.grant d).2, s)
  | .refuse => (v.refuse d, d, s)
  | .leave after => v.leave d s after

end Visit

/-- Everything that a move can make of a request. -/
inductive Visit.Moved (m : Machine σ) (v : Visit) (d : Desk) (s : σ) :
    Move σ → Visit × Desk × σ → Prop
  /-- The move is not possible. -/
  | idle {move} : Moved m v d s move (v, d, s)
  | answers {response} (h : v.progress = .underway (.answer response)) :
    Moved m v d s .turn ({ v with progress := .answered response }, d.release v.held, s)
  | counts {c next} (h : v.progress = .underway (.count c next)) :
    Moved m v d s .turn (v.goOn next, { d with tally := d.tally.bump c }, s)
  | finishes {job next p} (h : v.progress = .underway (.perform job next))
    (hjob : job.result? = some p) : Moved m v d s .turn (v.goOn (next p), d, s)
  | works {job next} (h : v.progress = .underway (.perform job next)) (hjob : job.result? = none) :
    Moved m v d s .turn
      ({ v.goOn (.perform (job.step m s).1 next) with launched := v.launched ++ job.launching }, d,
        (job.step m s).2)
  | enters {next gate} (h : v.progress = .underway (.acquire next))
    (hgate : d.gate.acquire = .ok gate) :
    Moved m v d s .grant ({ v.goOn (next (.ok ())) with granted := true }, { d with gate }, s)
  | refused {next} (h : v.progress = .underway (.acquire next)) :
    Moved m v d s .refuse (v.goOn (next (.error d.gate.refusal)), d, s)
  | leaves {rest} (after : σ) (h : v.progress = .underway rest) :
    Moved m v d s (.leave after) ({ v with progress := .abandoned }, d.release v.held, after)

theorem Visit.moved (m : Machine σ) (v : Visit) (d : Desk) (s : σ) (move : Move σ) :
    Moved m v d s move (v.move m d s move) := by
  cases move with
  | turn =>
    simp only [Visit.move, turn]
    split
    · next h => exact .answers h
    · next h => exact .counts h
    · next h =>
      split
      · next hjob => exact .finishes h hjob
      · next hjob => exact .works h hjob
    all_goals exact .idle
  | grant =>
    simp only [Visit.move, grant]
    split
    · next h hgate => exact .enters h hgate
    · exact .idle
  | refuse =>
    simp only [Visit.move, refuse]
    split
    · next h => exact .refused h
    · exact .idle
  | leave after =>
    simp only [Visit.move, leave]
    split
    · next h => exact .leaves after h
    all_goals exact .idle

/-! ## Good order -/

/-- A job is performed only with a permit, a permit is asked for only once, and with a permit the
answer has status 200. -/
def Handling.Orderly : Handling → Bool → Prop
  | .answer response, granted => granted = true → response.status = 200
  | .count _ next, granted => next.Orderly granted
  | .acquire next, granted =>
    granted = false ∧ (next (.ok ())).Orderly true ∧
      ∀ refusal, (next (.error refusal)).Orderly false
  | .perform _ next, granted => granted = true ∧ ∀ p, (next p).Orderly granted

/-- A request that has been handled in good order and goes on so. -/
structure Visit.Orderly (v : Visit) : Prop where
  launched : v.granted = false → v.launched = []
  underway : ∀ rest, v.progress = .underway rest → rest.Orderly v.granted
  answered : ∀ response, v.progress = .answered response → v.granted = true →
    response.status = 200

namespace Visit

variable {m : Machine σ} {v : Visit} {d : Desk} {s : σ} {move : Move σ}
  {after : Visit × Desk × σ}

theorem Orderly.goOn {rest : Handling} (h : v.Orderly) (hrest : rest.Orderly v.granted) :
    (v.goOn rest).Orderly where
  launched := h.launched
  underway := by
    rintro _ ⟨⟩
    exact hrest
  answered := nofun

/-- Every move keeps good order. -/
theorem Orderly.moved (h : v.Orderly) (hmoved : Moved m v d s move after) : after.1.Orderly := by
  cases hmoved with
  | idle => exact h
  | answers hv =>
    refine ⟨h.launched, nofun, ?_⟩
    rintro _ ⟨⟩
    exact h.underway _ hv
  | @counts c next hv =>
    have hnext : (Handling.count c next).Orderly v.granted := h.underway _ hv
    exact h.goOn hnext
  | finishes hv hjob => exact h.goOn ((h.underway _ hv).2 _)
  | works hv hjob =>
    -- what it launches, it launches with a permit
    obtain ⟨hgranted, hnext⟩ := h.underway _ hv
    refine ⟨fun hnot => ?_, ?_, nofun⟩
    · cases hgranted.symm.trans hnot
    · rintro _ ⟨⟩
      exact ⟨hgranted, hnext⟩
  | enters hv hgate =>
    obtain ⟨-, hnext, -⟩ := h.underway _ hv
    refine ⟨nofun, ?_, nofun⟩
    rintro _ ⟨⟩
    exact hnext
  | refused hv =>
    obtain ⟨hgranted, -, hnext⟩ := h.underway _ hv
    exact h.goOn (hgranted ▸ hnext _)
  | leaves s' hv => exact ⟨h.launched, nofun, nofun⟩

theorem held_of_underway {rest : Handling} (h : v.progress = .underway rest) :
    v.held = if v.granted then 1 else 0 := by
  simp [held, holds, h]

theorem held_goOn {rest : Handling} (h : v.progress = .underway rest) (next : Handling) :
    (v.goOn next).held = v.held := by
  rw [held_of_underway h, held_of_underway rfl]
  rfl

/-- Every move keeps the sum of the permits that are held and those that are free. -/
theorem Orderly.account (h : v.Orderly) (hmoved : Moved m v d s move after) :
    after.1.held + after.2.1.gate.free = v.held + d.gate.free := by
  cases hmoved with
  | idle => rfl
  | answers hv => exact (Nat.zero_add _).trans (Nat.add_comm _ _)
  | counts hv | finishes hv | refused hv => exact congrArg (· + _) (held_goOn hv _)
  | @works job next hv hjob =>
    exact congrArg (· + _) (held_goOn hv (.perform (job.step m s).1 next))
  | @enters next gate hv hgate =>
    -- it did not hold a permit before, so the one that it takes is counted once
    have hungranted : v.granted = false := (h.underway _ hv).1
    have hfree : d.gate.free = gate.free + 1 := Gate.free_of_acquire hgate
    have hheld : v.held = 0 := by simp [held_of_underway hv, hungranted]
    show 1 + gate.free = v.held + d.gate.free
    omega
  | leaves s' hv => exact (Nat.zero_add _).trans (Nat.add_comm _ _)

/-- A request is abandoned only when its client leaves. -/
theorem Moved.abandoned (hmoved : Moved m v d s move after)
    (h : after.1.progress = .abandoned) : v.progress = .abandoned ∨ ∃ s', move = .leave s' := by
  cases hmoved with
  | idle => exact .inl h
  | leaves s' hv => exact .inr ⟨s', rfl⟩
  | answers | counts | finishes | works | enters | refused => cases h

/-- A move leaves it the same request. -/
theorem Moved.request (hmoved : Moved m v d s move after) : after.1.request = v.request := by
  cases hmoved <;> rfl

end Visit

/-! ## Any number of requests -/

/-- All requests that have arrived, and what they share. -/
structure Hall (σ : Type) where
  visits : List Visit := []
  desk : Desk
  state : σ

/-- Something that happens in a hall. -/
inductive Occasion (σ : Type) where
  | arrival (request : Http.Request)
  /-- The request that arrived after `i` others makes a move. -/
  | move (i : Nat) (move : Move σ)

namespace Occasion

/-- The request that makes a move. -/
def mover : Occasion σ → Option Nat
  | .arrival _ => none
  | .move i _ => some i

/-- Whether request `i` takes a turn. -/
def isTurnOf (i : Nat) : Occasion σ → Bool
  | .move j .turn => i == j
  | _ => false

end Occasion

namespace Hall

/-- How many requests are between being granted a permit and their end. -/
def holders (hall : Hall σ) : Nat :=
  hall.visits.countP Visit.holds

/-- How many requests perform a job. -/
def runners (hall : Hall σ) : Nat :=
  hall.visits.countP Visit.runs

variable (service : Service) (m : Machine σ)

/-- What happens in a hall of the service. -/
def step (hall : Hall σ) : Occasion σ → Hall σ
  | .arrival request => { hall with visits := hall.visits ++ [.arrived service request] }
  | .move i move =>
    match hall.visits[i]? with
    | none => hall
    | some v =>
      let after := v.move m hall.desk hall.state move
      { visits := hall.visits.set i after.1, desk := after.2.1, state := after.2.2 }

/-- Occasions, one after another. -/
def play (hall : Hall σ) (schedule : List (Occasion σ)) : Hall σ :=
  schedule.foldl (step service m) hall

/-- All requests are in good order, and the permits that are held and those that are free are this
many. -/
structure Accounted (permits : Nat) (hall : Hall σ) : Prop where
  orderly : ∀ v ∈ hall.visits, v.Orderly
  account : hall.holders + hall.desk.gate.free = permits

variable {service m} {hall : Hall σ} {permits : Nat}

theorem step_move {i : Nat} {v : Visit} (hv : hall.visits[i]? = some v) (move : Move σ) :
    hall.step service m (.move i move) =
      ⟨hall.visits.set i (v.move m hall.desk hall.state move).1,
        (v.move m hall.desk hall.state move).2.1, (v.move m hall.desk hall.state move).2.2⟩ := by
  simp only [step, hv]

theorem step_move_of_none {i : Nat} (hv : hall.visits[i]? = none) (move : Move σ) :
    hall.step service m (.move i move) = hall := by
  simp only [step, hv]

/-- A request in the place of another one changes the number of holders by theirs. -/
theorem countP_holds_set {visits : List Visit} {i : Nat} {v : Visit} (h : visits[i]? = some v)
    (v' : Visit) :
    (visits.set i v').countP Visit.holds + v.held = visits.countP Visit.holds + v'.held := by
  obtain ⟨hi, rfl⟩ := List.getElem?_eq_some_iff.mp h
  have hcounted : visits[i].holds = true → 0 < visits.countP Visit.holds := fun hholds =>
    List.countP_pos_iff.mpr ⟨_, List.getElem_mem hi, hholds⟩
  rw [List.countP_set hi]
  unfold Visit.held
  by_cases hold : visits[i].holds = true
  · have hpos := hcounted hold
    simp only [hold, if_true]
    omega
  · simp only [hold, Bool.false_eq_true, if_false]
    omega

/-- What is true of every request when it arrives, and is kept by every move, stays true of all
requests. -/
theorem forall_visits_step {P : Visit → Prop}
    (harrival : ∀ request, P (.arrived service request))
    (hmove : ∀ v d s move, P v → P (v.move m d s move).1) (h : ∀ v ∈ hall.visits, P v)
    (occasion : Occasion σ) : ∀ v ∈ (hall.step service m occasion).visits, P v := by
  cases occasion with
  | arrival request =>
    intro v hv
    rcases List.mem_append.mp hv with hearlier | hnew
    · exact h v hearlier
    · exact List.mem_singleton.mp hnew ▸ harrival request
  | move i move =>
    cases hv : hall.visits[i]? with
    | none =>
      rw [step_move_of_none hv]
      exact h
    | some v =>
      intro w hw
      rw [step_move hv] at hw
      rcases List.mem_or_eq_of_mem_set hw with hother | rfl
      · exact h w hother
      · exact hmove v hall.desk hall.state move (h v (List.mem_of_getElem? hv))

theorem forall_visits_play {P : Visit → Prop}
    (harrival : ∀ request, P (.arrived service request))
    (hmove : ∀ v d s move, P v → P (v.move m d s move).1) (h : ∀ v ∈ hall.visits, P v)
    (schedule : List (Occasion σ)) : ∀ v ∈ (hall.play service m schedule).visits, P v := by
  induction schedule generalizing hall with
  | nil => exact h
  | cons occasion rest ih => exact ih (forall_visits_step harrival hmove h occasion)

/-- Whatever happens keeps all requests in good order and the number of permits. -/
theorem Accounted.step (hhandle : ∀ r, (service.handle r).Orderly false)
    (h : hall.Accounted permits) (occasion : Occasion σ) :
    (hall.step service m occasion).Accounted permits where
  orderly := by
    refine forall_visits_step (fun request => ?_) (fun v d s move hv => ?_) h.orderly occasion
    · refine ⟨fun _ => rfl, ?_, nofun⟩
      rintro _ ⟨⟩
      exact hhandle request
    · exact hv.moved (v.moved m d s move)
  account := by
    have hsum := h.account
    cases occasion with
    | arrival request =>
      -- a request that has just arrived holds no permit
      have hnew : List.countP Visit.holds [.arrived service request] = 0 := rfl
      rw [← hsum]
      simp only [holders, Hall.step, List.countP_append, hnew, Nat.add_zero]
    | move i move =>
      cases hv : hall.visits[i]? with
      | none => rwa [step_move_of_none hv]
      | some v =>
        have horderly := h.orderly v (List.mem_of_getElem? hv)
        have haccount := horderly.account (v.moved m hall.desk hall.state move)
        have hcount := countP_holds_set hv (v.move m hall.desk hall.state move).1
        rw [step_move hv]
        unfold holders at hsum ⊢
        dsimp only
        omega

theorem Accounted.play (hhandle : ∀ r, (service.handle r).Orderly false)
    (h : hall.Accounted permits) (schedule : List (Occasion σ)) :
    (hall.play service m schedule).Accounted permits := by
  induction schedule generalizing hall with
  | nil => exact h
  | cons occasion rest ih => exact ih (h.step hhandle occasion)

/-- A request that performs a job holds a permit. -/
theorem Accounted.runners_le (h : hall.Accounted permits) : hall.runners ≤ permits := by
  have hholds : hall.runners ≤ hall.holders := by
    refine List.countP_mono_left fun v hv hruns => ?_
    unfold Visit.runs at hruns
    split at hruns
    · next job next hjob =>
      have hgranted : v.granted = true := ((h.orderly v hv).underway _ hjob).1
      simp only [Visit.holds, hjob, hgranted]
    · cases hruns
  have haccount := h.account
  omega

/-- When no request is underway any more, all permits are free. -/
theorem Accounted.free_of_ended (h : hall.Accounted permits)
    (hended : ∀ v ∈ hall.visits, ∀ rest, v.progress ≠ .underway rest) :
    hall.desk.gate.free = permits := by
  have hnone : hall.holders = 0 := by
    refine List.countP_eq_zero.mpr fun v hv hholds => ?_
    unfold Visit.holds at hholds
    split at hholds
    · next rest hrest => exact hended v hv rest hrest
    all_goals cases hholds
  have haccount := h.account
  omega

/-! ## A request on its own -/

/-- By moves of its own, request `i` can be answered like this, and leave this behind. -/
def CanEnd (service : Service) (m : Machine σ) (i : Nat) (outcome : Http.Response × Desk × σ)
    (hall : Hall σ) : Prop :=
  ∃ moves : List (Move σ),
    let after := hall.play service m (moves.map (.move i))
    after.visits[i]?.map Visit.progress = some (.answered outcome.1) ∧
      after.desk = outcome.2.1 ∧ after.state = outcome.2.2

theorem CanEnd.after_move {i : Nat} {v : Visit} {outcome : Http.Response × Desk × σ}
    (hv : hall.visits[i]? = some v) (move : Move σ)
    (h : CanEnd service m i outcome
      ⟨hall.visits.set i (v.move m hall.desk hall.state move).1,
        (v.move m hall.desk hall.state move).2.1, (v.move m hall.desk hall.state move).2.2⟩) :
    CanEnd service m i outcome hall := by
  obtain ⟨moves, hmoves⟩ := h
  rw [← step_move hv move] at hmoves
  exact ⟨move :: moves, hmoves⟩

theorem getElem?_set_of_some {visits : List Visit} {i : Nat} {v : Visit} (h : visits[i]? = some v)
    (v' : Visit) : (visits.set i v')[i]? = some v' :=
  List.getElem?_set_self (List.getElem?_eq_some_iff.mp h).1

/-- A request that performs a job can take the steps of the job, and go on with its result. -/
theorem canEnd_of_perform {i : Nat} {next : Payload → Handling}
    {outcome : Http.Response × Desk × σ} {job : Job Payload} {hall : Hall σ} {v : Visit}
    (hv : hall.visits[i]? = some v) (hjob : v.progress = .underway (.perform job next))
    (hnext : ∀ (visits : List Visit) (v' : Visit), visits[i]? = some v' →
      v'.progress = .underway (next (job.run m hall.state).1) → v'.granted = v.granted →
      CanEnd service m i outcome ⟨visits, hall.desk, (job.run m hall.state).2⟩) :
    CanEnd service m i outcome hall := by
  induction job generalizing hall v with
  | done p =>
    refine CanEnd.after_move hv .turn ?_
    simp only [Visit.move, Visit.turn, hjob, Job.result?]
    exact hnext _ _ (getElem?_set_of_some hv _) rfl rfl
  | create _ _ ih | stage _ _ _ ih | launch _ _ _ _ ih =>
    refine CanEnd.after_move hv .turn ?_
    simp only [Visit.move, Visit.turn, hjob, Job.result?]
    exact ih _ (getElem?_set_of_some hv _) rfl hnext
  | remove path job ih =>
    refine CanEnd.after_move hv .turn ?_
    simp only [Visit.move, Visit.turn, hjob, Job.result?]
    exact ih (getElem?_set_of_some hv _) rfl hnext

/-- The handling of a request that nothing comes between (`Handling.run`) is one way to end. -/
theorem canEnd_run {i : Nat} {rest : Handling} {hall : Hall σ} {v : Visit}
    (hv : hall.visits[i]? = some v) (hrest : v.progress = .underway rest)
    (horderly : rest.Orderly v.granted) :
    CanEnd service m i (rest.run m v.held hall.desk hall.state) hall := by
  induction rest generalizing hall v with
  | answer response =>
    refine CanEnd.after_move hv .turn ⟨[], ?_⟩
    simp only [Visit.move, Visit.turn, hrest]
    exact ⟨congrArg (Option.map Visit.progress) (getElem?_set_of_some hv _), rfl, rfl⟩
  | count c next ih =>
    refine CanEnd.after_move hv .turn ?_
    simp only [Visit.move, Visit.turn, hrest]
    rw [Handling.run, ← Visit.held_goOn hrest next]
    exact ih (getElem?_set_of_some hv _) rfl horderly
  | acquire next ih =>
    -- a request that nothing comes between is granted a permit at once, or refused
    obtain ⟨hungranted, hgranted, hrefused⟩ := horderly
    have hheld : v.held = 0 := by simp [Visit.held_of_underway hrest, hungranted]
    cases hgate : hall.desk.gate.acquire with
    | ok gate =>
      refine CanEnd.after_move hv .grant ?_
      simp only [Visit.move, Visit.grant, hrest, hgate]
      let entered : Visit := { v.goOn (next (.ok ())) with granted := true }
      have hheld' : entered.held = v.held + 1 := by rw [hheld]; rfl
      rw [Handling.run, hgate, ← hheld']
      exact ih _ (getElem?_set_of_some hv entered) rfl hgranted
    | error refusal =>
      refine CanEnd.after_move hv .refuse ?_
      simp only [Visit.move, Visit.refuse, hrest, Gate.refusal_of_acquire hgate]
      have hleft := getElem?_set_of_some hv (v.goOn (next (.error refusal)))
      rw [Handling.run, hgate, ← Visit.held_goOn hrest (next (.error refusal))]
      exact ih _ hleft rfl (hungranted ▸ hrefused refusal)
  | perform job next ih =>
    obtain ⟨hgranted, hnext⟩ := horderly
    refine canEnd_of_perform hv hrest ?_
    intro visits v' hv' hrest' hgranted'
    have hheld : v'.held = v.held := by
      rw [Visit.held_of_underway hrest, Visit.held_of_underway hrest', hgranted']
    rw [Handling.run, ← hheld]
    exact ih _ hv' hrest' (hgranted' ▸ hnext _)

end Hall

end ShaderChain
