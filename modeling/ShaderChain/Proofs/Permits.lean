import ShaderChain.Proofs.Hall
import ShaderChain.Proofs.Routing
import Mathlib.Control.Monad.Basic

/-!
# Permits are kept

The requests of the service take their steps in good order (`Service.handle_orderly`), so in a hall
of the service permits are neither lost nor made, whatever happens in it. A malformed request to run
a chain is the exception that needs none: all that it does is to count twice and to answer
(`Service.handle_malformed`), so it is answered after three steps of its own, whatever happens in
between and however many permits are free (`Hall.inBand_play`).
-/

namespace ShaderChain

variable {σ : Type}

/-! ## The service keeps good order -/

namespace Service

theorem refuse_orderly (refusal : Refusal) : (refuse refusal).Orderly false := nofun

theorem withPermit_orderly (job : Job Payload) {next : Payload → Handling}
    (h : ∀ p, (next p).Orderly true) : (withPermit job next).Orderly false :=
  ⟨rfl, ⟨rfl, h⟩, refuse_orderly⟩

theorem compile_orderly (service : Service) (submission : ChainSubmission) :
    (service.compile submission).Orderly false := by
  unfold compile
  cases submission.request with
  | error e => exact fun hopen => absurd hopen Bool.false_ne_true
  | ok request =>
    refine withPermit_orderly _ fun p => ?_
    unfold countFailure
    split <;> exact fun _ => rfl

theorem disassemble_orderly (service : Service) (binary : Bytes) :
    (service.disassemble binary).Orderly false :=
  withPermit_orderly _ fun _ _ => rfl

theorem validate_orderly (service : Service) (submission : ValidationSubmission) :
    (service.validate submission).Orderly false :=
  withPermit_orderly _ fun _ _ => rfl

theorem Handles.orderly {service : Service} {route : Option Route} {handling : Handling}
    (h : service.Handles route handling) : handling.Orderly false := by
  cases h with
  | refused | told => nofun
  | compile submission => exact service.compile_orderly submission
  | disassemble binary => exact service.disassemble_orderly binary
  | validate submission => exact service.validate_orderly submission

/-- Every request is handled in good order. -/
theorem handle_orderly (service : Service) (r : Http.Request) :
    (service.handle r).Orderly false :=
  (service.handles r).orderly

/-! ## Malformed requests -/

/-- A request to run a chain whose slots are malformed for this cause. -/
def Malformed (service : Service) (r : Http.Request) (e : ChainError) : Prop :=
  Route.ofPath? r.path = some .compile ∧ r.method = .post ∧
    ∃ submission, r.submission service.config.maxBody ChainSubmission.record.read = .ok submission ∧
      submission.request = .error e

/-- The answer to a malformed request: status 200, and a failure. -/
def inBand (e : ChainError) : Http.Response :=
  .json 200 (Compilation.failed e.report).toJson

end Service

/-- A handling that counts, and then answers. -/
def Handling.counting (counters : List Counter) (response : Http.Response) : Handling :=
  counters.foldr .count (.answer response)

theorem Service.handle_malformed {service : Service} {r : Http.Request} {e : ChainError}
    (h : service.Malformed r e) :
    service.handle r = .counting [.compileRequests, .compileFailures] (inBand e) := by
  obtain ⟨hpath, hmethod, submission, hsubmission, hrequest⟩ := h
  rw [handle_of_submission hpath hmethod hsubmission, compile, hrequest]
  rfl

/-- A request that has neither waited nor launched anything, and is answered like this after fewer
than `n` more counts. -/
structure Visit.InBand (response : Http.Response) (n : Nat) (v : Visit) : Prop where
  ungranted : v.granted = false
  launched : v.launched = []
  progress : v.progress = .answered response ∨ v.progress = .abandoned ∨
    ∃ counters, v.progress = .underway (.counting counters response) ∧ counters.length < n

namespace Visit.InBand

variable {m : Machine σ} {v : Visit} {d : Desk} {s : σ} {move : Move σ}
  {after : Visit × Desk × σ} {response : Http.Response} {n k : Nat}

theorem mono (h : v.InBand response n) (hle : n ≤ k) : v.InBand response k := by
  refine ⟨h.ungranted, h.launched, ?_⟩
  rcases h.progress with hanswered | habandoned | ⟨counters, hrest, hlt⟩
  · exact .inl hanswered
  · exact .inr (.inl habandoned)
  · exact .inr (.inr ⟨counters, hrest, Nat.lt_of_lt_of_le hlt hle⟩)

/-- What is left to do of it, if anything, is to count or to answer. -/
theorem rest_cases (h : v.InBand response n) {rest : Handling} (hv : v.progress = .underway rest) :
    rest = .answer response ∨
      ∃ c counters, rest = .count c (.counting counters response) ∧ counters.length + 1 < n := by
  rcases h.progress with hanswered | habandoned | ⟨counters, hrest, hlt⟩
  · cases hv.symm.trans hanswered
  · cases hv.symm.trans habandoned
  · obtain rfl := Progress.underway.inj (hv.symm.trans hrest)
    cases counters with
    | nil => exact .inl rfl
    | cons c counters => exact .inr ⟨c, counters, rfl, hlt⟩

/-- Every move leaves no more to do. -/
theorem moved (h : v.InBand response n) (hmoved : Moved m v d s move after) :
    after.1.InBand response n := by
  cases hmoved with
  | idle => exact h
  | answers hv =>
    rcases h.rest_cases hv with hrest | ⟨c, counters, hrest, hlt⟩
    · obtain rfl := Handling.answer.inj hrest
      exact ⟨h.ungranted, h.launched, .inl rfl⟩
    · cases hrest
  | counts hv =>
    rcases h.rest_cases hv with hrest | ⟨c, counters, hrest, hlt⟩
    · cases hrest
    · obtain ⟨-, rfl⟩ := Handling.count.inj hrest
      exact ⟨h.ungranted, h.launched, .inr (.inr ⟨counters, rfl, by omega⟩)⟩
  | finishes hv | works hv | enters hv | refused hv =>
    -- the other moves are not possible: it neither performs a job nor waits
    rcases h.rest_cases hv with hrest | ⟨c, counters, hrest, hlt⟩ <;> cases hrest
  | leaves s' hv => exact ⟨h.ungranted, h.launched, .inr (.inl rfl)⟩

/-- A turn leaves less to do. -/
theorem turn (h : v.InBand response (n + 1)) (m : Machine σ) (d : Desk) (s : σ) :
    (v.turn m d s).1.InBand response n := by
  rcases h.progress with hanswered | habandoned | ⟨counters, hrest, hlt⟩
  · simp only [Visit.turn, hanswered]
    exact ⟨h.ungranted, h.launched, .inl hanswered⟩
  · simp only [Visit.turn, habandoned]
    exact ⟨h.ungranted, h.launched, .inr (.inl habandoned)⟩
  · cases counters with
    | nil =>
      have hv : v.progress = .underway (.answer response) := hrest
      simp only [Visit.turn, hv]
      exact ⟨h.ungranted, h.launched, .inl rfl⟩
    | cons c counters =>
      have hv : v.progress = .underway (.count c (.counting counters response)) := hrest
      simp only [Visit.turn, hv]
      exact ⟨h.ungranted, h.launched, .inr (.inr ⟨counters, rfl, Nat.lt_of_succ_lt_succ hlt⟩)⟩

end Visit.InBand

namespace Hall

variable {service : Service} {m : Machine σ} {i n : Nat} {v : Visit} {response : Http.Response}

/-- Other requests do not change this one. -/
theorem getElem?_step_other {hall : Hall σ} (hv : hall.visits[i]? = some v)
    {occasion : Occasion σ} (hother : occasion.mover ≠ some i) :
    (hall.step service m occasion).visits[i]? = some v := by
  cases occasion with
  | arrival request =>
    obtain ⟨hi, -⟩ := List.getElem?_eq_some_iff.mp hv
    exact (List.getElem?_append_left hi).trans hv
  | move j move =>
    have hij : j ≠ i := fun h => hother (congrArg some h)
    cases hj : hall.visits[j]? with
    | none =>
      rw [step_move_of_none hj]
      exact hv
    | some w =>
      rw [step_move hj]
      exact (List.getElem?_set_ne hij).trans hv

/-- A request that only counts and answers is answered after as many turns as there are steps left,
whatever happens in between, unless its client leaves. -/
theorem inBand_play {hall : Hall σ} (hv : hall.visits[i]? = some v)
    (hstays : v.progress ≠ .abandoned) (schedule : List (Occasion σ))
    (h : v.InBand response (schedule.countP (·.isTurnOf i)))
    (hleave : ∀ after, .move i (.leave after) ∉ schedule) :
    ∃ v', (hall.play service m schedule).visits[i]? = some v' ∧ v'.progress = .answered response := by
  induction schedule generalizing hall v with
  | nil =>
    rcases h.progress with hanswered | habandoned | ⟨counters, hrest, hlt⟩
    · exact ⟨v, hv, hanswered⟩
    · exact absurd habandoned hstays
    · exact absurd hlt (Nat.not_lt_zero _)
  | cons occasion rest ih =>
    have hleave' : ∀ after, .move i (.leave after) ∉ rest := fun after hmem =>
      hleave after (List.mem_cons_of_mem occasion hmem)
    by_cases hmover : occasion.mover = some i
    · cases occasion with
      | arrival request => cases hmover
      | move j move =>
        obtain rfl := Option.some.inj hmover
        have hmoved := v.moved m hall.desk hall.state move
        have hstays' : (v.move m hall.desk hall.state move).1.progress ≠ .abandoned := by
          intro habandoned
          rcases hmoved.abandoned habandoned with hearlier | ⟨after, rfl⟩
          · exact hstays hearlier
          · exact hleave after List.mem_cons_self
        have hleft : (v.move m hall.desk hall.state move).1.InBand response
            (rest.countP (·.isTurnOf j)) := by
          cases move with
          | turn =>
            rw [List.countP_cons_of_pos (by simp [Occasion.isTurnOf])] at h
            exact h.turn m hall.desk hall.state
          | grant | refuse | leave =>
            rw [List.countP_cons_of_neg (by simp [Occasion.isTurnOf])] at h
            exact h.moved hmoved
        -- after its own move it is still the request at this place
        have hnow := getElem?_set_of_some hv (v.move m hall.desk hall.state move).1
        rw [Hall.play, List.foldl_cons, step_move hv]
        exact ih hnow hstays' hleft hleave'
    · have hturn : ¬ occasion.isTurnOf i = true := by
        intro hturn
        unfold Occasion.isTurnOf at hturn
        split at hturn
        · exact hmover (congrArg some (eq_of_beq hturn).symm)
        · cases hturn
      rw [List.countP_cons_of_neg hturn] at h
      exact ih (getElem?_step_other hv hmover) hstays h hleave'

/-- A malformed request is in band from its arrival on. -/
theorem inBand_arrival {request : Http.Request} {e : ChainError}
    (h : service.Malformed request e) :
    (Visit.arrived service request).InBand (Service.inBand e) 3 := by
  refine ⟨rfl, rfl, .inr (.inr ⟨[.compileRequests, .compileFailures], ?_, by decide⟩)⟩
  exact congrArg Progress.underway (Service.handle_malformed h)

/-- No malformed request ever leaves the band. -/
theorem inBand_of_malformed (desk : Desk) (s : σ) (schedule : List (Occasion σ)) :
    ∀ v ∈ (play service m { desk, state := s } schedule).visits, ∀ e,
      service.Malformed v.request e → v.InBand (Service.inBand e) 3 := by
  refine forall_visits_play (fun request e he => inBand_arrival he) ?_
    (fun v hv => absurd hv List.not_mem_nil) schedule
  intro v d s move hv e he
  have hmoved := v.moved m d s move
  rw [hmoved.request] at he
  exact (hv e he).moved hmoved

/-- **Permits are kept.** Let the gate of a service start with the configured number of permits,
which is at least one. Whatever happens then, in whatever order:

- the requests between their permit and their end, and the free permits, are together this many; so
  no more jobs are performed at a time, and all permits are free when no request is underway;
- a request that had a permit is answered with status 200 only, and one that is answered with status
  503 had none and launched nothing;
- a malformed request to run a chain has no permit, launches nothing, and is answered in band only;
  and it is answered so after three turns, however many permits are free and whatever else happens,
  unless its client leaves. -/
theorem permits_kept (service : Service) (processors : Nat) {gate : Gate}
    (hgate : Gate.ofPermits? (service.config.permits processors) = some gate) (tally : Tally)
    (m : Machine σ) (s : σ) (schedule : List (Occasion σ)) :
    let permits := service.config.permits processors
    let hall := play service m { desk := { gate, tally }, state := s } schedule
    1 ≤ permits ∧ hall.holders + hall.desk.gate.free = permits ∧ hall.runners ≤ permits ∧
    ((∀ v ∈ hall.visits, ∀ rest, v.progress ≠ .underway rest) → hall.desk.gate.free = permits) ∧
    (∀ v ∈ hall.visits, ∀ response, v.progress = .answered response →
      (v.granted = true → response.status = 200) ∧
      (response.status = 503 → v.granted = false ∧ v.launched = [])) ∧
    (∀ v ∈ hall.visits, ∀ e, service.Malformed v.request e →
      v.granted = false ∧ v.launched = [] ∧
        ∀ response, v.progress = .answered response → response = Service.inBand e) ∧
    ∀ request e later, service.Malformed request e →
      (∀ after, .move hall.visits.length (.leave after) ∉ later) →
      3 ≤ later.countP (·.isTurnOf hall.visits.length) →
      ∃ v, (play service m hall (.arrival request :: later)).visits[hall.visits.length]? = some v ∧
        v.progress = .answered (Service.inBand e) := by
  intro permits hall
  have hstart : gate.free = permits := by
    unfold Gate.ofPermits? at hgate
    split at hgate
    · exact congrArg Gate.free (Option.some.inj hgate).symm
    · cases hgate
  have hempty : Accounted permits { desk := { gate, tally }, state := s } :=
    ⟨fun v hv => absurd hv List.not_mem_nil, (Nat.zero_add _).trans hstart⟩
  have haccounted : hall.Accounted permits := hempty.play service.handle_orderly schedule
  refine ⟨?_, haccounted.account, haccounted.runners_le, haccounted.free_of_ended, ?_, ?_, ?_⟩
  · unfold permits Config.permits
    split <;> exact Nat.le_max_right _ 1
  · intro v hv response hanswered
    have horderly := haccounted.orderly v hv
    have hstatus := horderly.answered response hanswered
    refine ⟨hstatus, fun hrefused => ?_⟩
    -- one that was granted a permit would be answered with another status
    have hungranted : v.granted = false := by
      cases hgranted : v.granted with
      | false => rfl
      | true => cases hrefused.symm.trans (hstatus hgranted)
    exact ⟨hungranted, horderly.launched hungranted⟩
  · intro v hv e he
    have hband := inBand_of_malformed { gate, tally } s schedule v hv e he
    refine ⟨hband.ungranted, hband.launched, fun response hanswered => ?_⟩
    rcases hband.progress with hband | habandoned | ⟨counters, hrest, -⟩
    · exact Progress.answered.inj (hanswered.symm.trans hband)
    · cases hanswered.symm.trans habandoned
    · cases hanswered.symm.trans hrest
  · intro request e later he hleave hturns
    have harrived : (hall.step service m (.arrival request)).visits[hall.visits.length]? =
        some (.arrived service request) := List.getElem?_concat_length
    have hstays : (Visit.arrived service request).progress ≠ .abandoned := Progress.noConfusion
    exact inBand_play harrived hstays later ((inBand_arrival he).mono hturns) hleave

/-- A service with a single permit, which a request holds. Another one has waited for too long, and
then a malformed one comes. -/
theorem permits_of_busy_service :
    let service : Service := ⟨Chain.complete, { concurrency := .atMost 0 }⟩
    let machine := Store.machine .echo (.ok (Utf8.ofText "/tmp/a"))
    let desk : Desk := { gate := { free := 1 } }
    let binary : Http.Request := { method := .post, target := { path := "/dissemble" } }
    let malformed : Http.Request :=
      { method := .post, target := { path := "/compile" }, contentType := some "application/json"
        body := Utf8.ofText "\x7b\"tool2\":\"dxc\"\x7d" }
    let schedule := [.arrival binary, .move 0 .grant, .move 0 .turn, .arrival binary,
      .move 1 .refuse, .move 1 .turn]
    let hall := play service machine { desk, state := fun _ => none } schedule
    let later := [.move 2 .turn, .move 0 .turn, .move 2 .turn, .move 2 .turn]
    let status : Visit → Option Nat := fun v =>
      match v.progress with
      | .answered response => some response.status
      | _ => none
    Gate.ofPermits? (service.config.permits 4) = some desk.gate ∧
      service.Malformed malformed (.missingStage 2) ∧
      hall.desk.gate.free = 0 ∧ hall.holders = 1 ∧ hall.visits.map status = [none, some 503] ∧
      ∃ v, (play service machine hall (.arrival malformed :: later)).visits[2]? = some v ∧
        v.progress = .answered (Service.inBand (.missingStage 2)) := by
  intro service machine desk binary malformed schedule hall later status
  have hgate : Gate.ofPermits? (service.config.permits 4) = some desk.gate := by decide +kernel
  have hmalformed : service.Malformed malformed (.missingStage 2) := by
    have hread : (malformed.submission service.config.maxBody
        ChainSubmission.record.read).toOption.map ChainSubmission.request =
          some (.error (.missingStage 2)) := by decide +kernel
    refine ⟨rfl, rfl, ?_⟩
    cases hx : malformed.submission service.config.maxBody ChainSubmission.record.read with
    | error status =>
      rw [hx] at hread
      cases hread
    | ok submission =>
      rw [hx] at hread
      exact ⟨submission, rfl, Option.some.inj hread⟩
  obtain ⟨-, haccount, -, -, -, -, hband⟩ :=
    permits_kept service 4 hgate {} machine (fun _ => none) schedule
  have hfree : hall.desk.gate.free = 0 := by decide +kernel
  have hholders : hall.holders + hall.desk.gate.free = 1 := haccount
  rw [hfree] at hholders
  have hlength : hall.visits.length = 2 := by decide +kernel
  have hanswered := hband malformed (.missingStage 2) later hmalformed
  rw [show List.length _ = 2 from hlength] at hanswered
  refine ⟨hgate, hmalformed, hfree, hholders, by decide +kernel, hanswered ?_ (by decide)⟩
  intro after hmem
  simp [later] at hmem

end Hall

end ShaderChain
