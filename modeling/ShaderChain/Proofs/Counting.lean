import ShaderChain.Proofs.Hall
import ShaderChain.Proofs.Routing
import Mathlib.Algebra.GroupWithZero.Nat
import Mathlib.Algebra.Order.BigOperators.Group.List
import Mathlib.Algebra.Order.Group.Nat

/-!
# Counters agree with answers

Counters are raised while requests are underway, each at its own place in the handling. What a
request has added to them at any time is its share. A handling balances (`Handling.Balances`) if,
however it goes on, the share that a request has in the end is what its answer says (`Answer.due`),
and at no time has it added a failure that it has not added as a request.

Every move of a request adds to the counters what it adds to its share (`Visit.Balanced.moved`), so
in a hall the counters are at any time the sums of the shares (`Hall.Balanced.play`). When all
requests have been answered the shares are due, and the counters can be read off the answers
(`Hall.counters_agree`).
-/

namespace ShaderChain

variable {α β σ : Type}

/-! ## What answers say -/

/-- What the response says about success, if it says anything. -/
def Http.Response.success? (response : Http.Response) : Option Bool :=
  match response.body with
  | .json (.obj members) =>
    match members.lookup "success" with
    | some (.bool success) => some success
    | _ => none
  | _ => none

/-- An answer to a request: the route that it was for, whether it was granted a permit, and the
response. -/
structure Answer where
  route : Option Service.Route
  granted : Bool
  response : Http.Response

namespace Answer

/-- Whether it is from this route. -/
def isFrom (route : Service.Route) (a : Answer) : Bool :=
  a.route == some route

/-- Whether it is from this route, and tells of success, or of a failure. -/
def tells (route : Service.Route) (success : Bool) (a : Answer) : Bool :=
  a.isFrom route && a.response.success? == some success

/-- Whether it is from this route, and has this status. -/
def hasStatus (route : Service.Route) (status : Nat) (a : Answer) : Bool :=
  a.isFrom route && a.response.status == status

/-- What a request adds to the counters in all, if this is the answer to it. -/
def due (a : Answer) : Counter → Nat
  | .compileRequests => (a.tells .compile true).toNat + (a.tells .compile false).toNat +
    (a.hasStatus .compile 503).toNat
  | .compileFailures => (a.tells .compile false).toNat
  | .compileLatency => (a.isFrom .compile && a.granted).toNat
  | .validateRequests => (a.hasStatus .validate 200).toNat
  | .disassembleRequests => (a.hasStatus .disassemble 200).toNat

/-- A response that only has a status counts for nothing, unless the status is that of a result or
of a lack of permits. -/
theorem due_bare {status : Nat} (hresult : status ≠ 200) (hlack : status ≠ 503)
    (route : Option Service.Route) (c : Counter) : due ⟨route, false, .bare status⟩ c = 0 := by
  have hsays : (Http.Response.bare status).success? = none := rfl
  have hstatus : (Http.Response.bare status).status = status := rfl
  cases c <;> simp [due, tells, hasStatus, hsays, hstatus, hresult, hlack]

end Answer

/-! ## Handlings that balance -/

/-- However the machine answers, the job ends with a result of which `P` holds. -/
def Job.Gives (P : α → Prop) : Job α → Prop
  | .done a => P a
  | .create _ next => ∀ x, (next x).Gives P
  | .stage _ _ next => ∀ x, (next x).Gives P
  | .launch _ _ _ next => ∀ x, (next x).Gives P
  | .remove _ next => next.Gives P

namespace Job.Gives

variable {P : α → Prop} {job : Job α}

theorem map {P : β → Prop} {f : α → β} (h : ∀ a, P (f a)) (job : Job α) : (f <$> job).Gives P := by
  induction job with
  | done a => exact h a
  | create _ _ ih | stage _ _ _ ih | launch _ _ _ _ ih => exact fun x => ih x
  | remove _ _ ih => exact ih

theorem step (h : job.Gives P) (m : Machine σ) (s : σ) : (job.step m s).1.Gives P := by
  cases job with
  | done a => exact h
  | create | stage | launch => exact h _
  | remove => exact h

theorem of_result (h : job.Gives P) {a : α} (ha : job.result? = some a) : P a := by
  cases job with
  | done b =>
    obtain rfl := Option.some.inj ha
    exact h
  | create | stage | launch | remove => cases ha

end Job.Gives

/-- There are no more failures than requests. -/
def Tally.Covered (t : Tally) : Prop :=
  t.count .compileFailures ≤ t.count .compileRequests

/-- However the handling goes on, it leaves the share as it is due, and covered all the time. -/
def Handling.Balances (route : Option Service.Route) : Bool → Tally → Handling → Prop
  | granted, share, .answer response => ∀ c, share.count c = Answer.due ⟨route, granted, response⟩ c
  | granted, share, .count c next =>
    (share.bump c).Covered ∧ next.Balances route granted (share.bump c)
  | granted, share, .acquire next =>
    (next (.ok ())).Balances route true share ∧
      ∀ refusal, (next (.error refusal)).Balances route granted share
  | granted, share, .perform job next => job.Gives fun p => (next p).Balances route granted share

/-- A request that has this share in the counters. -/
structure Visit.Balanced (v : Visit) (share : Tally) : Prop where
  covered : share.Covered
  underway : ∀ rest, v.progress = .underway rest →
    rest.Balances (Service.Route.ofPath? v.request.path) v.granted share
  answered : ∀ response, v.progress = .answered response →
    ∀ c, share.count c = Answer.due ⟨Service.Route.ofPath? v.request.path, v.granted, response⟩ c

namespace Visit.Balanced

variable {m : Machine σ} {v : Visit} {d : Desk} {s : σ} {move : Move σ}
  {after : Visit × Desk × σ} {share : Tally}

theorem goOn (h : v.Balanced share) {rest : Handling}
    (hrest : rest.Balances (Service.Route.ofPath? v.request.path) v.granted share) :
    (v.goOn rest).Balanced share where
  covered := h.covered
  underway := by
    rintro _ ⟨⟩
    exact hrest
  answered := nofun

/-- Every move adds to the counters what it adds to the share of the request that makes it. -/
theorem moved (h : v.Balanced share) (hmoved : Moved m v d s move after) :
    ∃ share', after.1.Balanced share' ∧
      ∀ c, after.2.1.tally.count c + share.count c = d.tally.count c + share'.count c := by
  cases hmoved with
  | idle => exact ⟨share, h, fun _ => rfl⟩
  | answers hv =>
    refine ⟨share, ⟨h.covered, nofun, ?_⟩, fun _ => rfl⟩
    rintro _ ⟨⟩
    exact h.underway _ hv
  | @counts c next hv =>
    -- the only move that counts, and it counts the same in both
    obtain ⟨hcovered, hnext⟩ := h.underway _ hv
    refine ⟨share.bump c, ⟨hcovered, ?_, nofun⟩, fun e => ?_⟩
    · rintro _ ⟨⟩
      exact hnext
    · by_cases hec : e = c
      · simp only [Tally.bump, hec, if_true]
        omega
      · simp only [Tally.bump, hec, if_false]
  | finishes hv hjob => exact ⟨share, h.goOn ((h.underway _ hv).of_result hjob), fun _ => rfl⟩
  | works hv hjob =>
    refine ⟨share, ⟨h.covered, ?_, nofun⟩, fun _ => rfl⟩
    rintro _ ⟨⟩
    exact (h.underway _ hv).step m s
  | enters hv hgate =>
    refine ⟨share, ⟨h.covered, ?_, nofun⟩, fun _ => rfl⟩
    rintro _ ⟨⟩
    exact (h.underway _ hv).1
  | refused hv => exact ⟨share, h.goOn ((h.underway _ hv).2 _), fun _ => rfl⟩
  | leaves s' hv => exact ⟨share, ⟨h.covered, nofun, nofun⟩, fun _ => rfl⟩

end Visit.Balanced

/-! ## The service balances -/

namespace Service

/-- A request to run a chain counts as one, and once more if it tells of a failure. -/
theorem compile_balances (service : Service) (submission : ChainSubmission) :
    (service.compile submission).Balances (some .compile) false {} := by
  refine ⟨Nat.zero_le 1, ?_⟩
  cases submission.request with
  | error e => exact ⟨Nat.le_refl 1, fun c => by cases c <;> rfl⟩
  | ok request =>
    refine ⟨Job.Gives.map (fun result => ?_) _, fun refusal c => ?_⟩
    · rcases result with ⟨success, output, error⟩
      cases success with
      | true => exact ⟨Nat.zero_le 1, fun c => by cases c <;> rfl⟩
      | false => exact ⟨Nat.le_refl 1, Nat.le_refl 1, fun c => by cases c <;> rfl⟩
    · cases c <;> rfl

/-- A request to disassemble counts when it is done. -/
theorem disassemble_balances (service : Service) (binary : Bytes) :
    (service.disassemble binary).Balances (some .disassemble) false {} := by
  refine ⟨Job.Gives.map (fun result => ?_) _, fun refusal c => ?_⟩
  · exact ⟨Nat.le_refl 0, fun c => by cases c <;> rfl⟩
  · cases c <;> rfl

/-- So does one to validate. -/
theorem validate_balances (service : Service) (submission : ValidationSubmission) :
    (service.validate submission).Balances (some .validate) false {} := by
  refine ⟨Job.Gives.map (fun result => ?_) _, fun refusal c => ?_⟩
  · exact ⟨Nat.le_refl 0, fun c => by cases c <;> rfl⟩
  · cases c <;> rfl

/-- Every request is handled so that it balances. -/
theorem Handles.balances {service : Service} {route : Option Route} {handling : Handling}
    (h : service.Handles route handling) : handling.Balances route false {} := by
  cases h with
  | refused route hstatus =>
    intro c
    refine (Answer.due_bare ?_ ?_ route c).symm <;> rintro rfl <;> simp [refusals] at hstatus
  | @told route hmethod response =>
    intro c
    cases route with
    | tools | health | ready => cases c <;> rfl
    | compile | disassemble | validate => cases hmethod
  | compile submission => exact service.compile_balances submission
  | disassemble binary => exact service.disassemble_balances binary
  | validate submission => exact service.validate_balances submission

end Service

/-! ## Sums over all requests -/

/-- An element in the place of another one changes a sum by theirs. -/
theorem sum_map_set (f : α → Nat) {l : List α} {i : Nat} {a : α} (h : l[i]? = some a) (b : α) :
    ((l.set i b).map f).sum + f a = (l.map f).sum + f b := by
  induction l generalizing i with
  | nil => cases h
  | cons x l ih =>
    cases i with
    | zero =>
      obtain rfl := Option.some.inj h
      simp only [List.set_cons_zero, List.map_cons, List.sum_cons]
      omega
    | succ i =>
      have hrest := ih h
      simp only [List.set_cons_succ, List.map_cons, List.sum_cons]
      omega

/-- A sum of ones is a count. -/
theorem sum_map_toNat (p : α → Bool) (l : List α) : (l.map fun a => (p a).toNat).sum = l.countP p := by
  induction l with
  | nil => rfl
  | cons a l ih =>
    rw [List.map_cons, List.sum_cons, ih, List.countP_cons]
    cases p a with
    | true => exact Nat.add_comm _ _
    | false => exact Nat.zero_add _

namespace Hall

variable {service : Service} {m : Machine σ} {hall : Hall σ}

/-- A book of all requests with their shares, of which the counters are the sums. -/
structure Booked (hall : Hall σ) (book : List (Visit × Tally)) : Prop where
  visits : hall.visits = book.map Prod.fst
  balanced : ∀ entry ∈ book, entry.1.Balanced entry.2
  count : ∀ c, hall.desk.tally.count c = (book.map (·.2.count c)).sum

variable {book : List (Visit × Tally)}

/-- A request that has just arrived has no share. -/
theorem Booked.arrival (h : hall.Booked book) (request : Http.Request) :
    (hall.step service m (.arrival request)).Booked
      (book ++ [(.arrived service request, ({} : Tally))]) where
  visits := by simp [Hall.step, h.visits]
  balanced entry hentry := by
    rcases List.mem_append.mp hentry with hearlier | hnew
    · exact h.balanced entry hearlier
    · obtain rfl := List.mem_singleton.mp hnew
      refine ⟨Nat.le_refl 0, ?_, fun response hresponse => ?_⟩
      · rintro _ ⟨⟩
        exact (service.handles request).balances
      · cases hresponse
  count c := by
    rw [List.map_append, List.sum_append]
    exact h.count c

/-- A move changes the share of the request that makes it. -/
theorem Booked.move (h : hall.Booked book) {i : Nat} {v : Visit} (hv : hall.visits[i]? = some v)
    (move : Move σ) : ∃ share,
      (hall.step service m (.move i move)).Booked
        (book.set i ((v.move m hall.desk hall.state move).1, share)) := by
  obtain ⟨⟨w, share⟩, hentry, rfl⟩ : ∃ entry, book[i]? = some entry ∧ entry.1 = v := by
    rw [h.visits, List.getElem?_map] at hv
    exact Option.map_eq_some_iff.mp hv
  obtain ⟨share', hshare', hadded⟩ :=
    (h.balanced _ (List.mem_of_getElem? hentry)).moved (w.moved m hall.desk hall.state move)
  rw [step_move hv]
  refine ⟨share', ?_, fun entry hmem => ?_, fun c => ?_⟩
  · rw [List.map_set, ← h.visits]
  · rcases List.mem_or_eq_of_mem_set hmem with hother | rfl
    · exact h.balanced entry hother
    · exact hshare'
  · -- what the move adds to the counter is what it adds to this share, and no other share changes
    have hsum := sum_map_set (fun entry : Visit × Tally => entry.2.count c) hentry
      ((w.move m hall.desk hall.state move).1, share')
    have hbefore := h.count c
    have hmove := hadded c
    dsimp only at hsum hmove ⊢
    omega

/-- Whatever happens, the book can be kept. -/
theorem Booked.step (h : hall.Booked book) (occasion : Occasion σ) :
    ∃ book', (hall.step service m occasion).Booked book' := by
  cases occasion with
  | arrival request => exact ⟨_, h.arrival request⟩
  | move i move =>
    cases hv : hall.visits[i]? with
    | none => exact ⟨book, by rwa [step_move_of_none hv]⟩
    | some v =>
      obtain ⟨share, hshare⟩ := h.move hv move
      exact ⟨_, hshare⟩

theorem Booked.play (h : hall.Booked book) (schedule : List (Occasion σ)) :
    ∃ book', (hall.play service m schedule).Booked book' := by
  induction schedule generalizing hall book with
  | nil => exact ⟨book, h⟩
  | cons occasion rest ih =>
    obtain ⟨book', h'⟩ := h.step occasion
    exact ih h'

/-- At no time are there more failures than requests. -/
theorem Booked.covered (h : hall.Booked book) : hall.desk.tally.Covered := by
  unfold Tally.Covered
  rw [h.count, h.count]
  exact List.sum_le_sum fun entry hentry => (h.balanced entry hentry).covered

end Hall

/-! ## Counting answers -/

/-- The answer to a request, once there is one. -/
def Visit.answer? (v : Visit) : Option Answer :=
  match v.progress with
  | .answered response => some ⟨Service.Route.ofPath? v.request.path, v.granted, response⟩
  | .underway _ | .abandoned => none

theorem Visit.exists_response {v : Visit} (h : v.answer?.isSome = true) :
    ∃ response, v.progress = .answered response := by
  unfold answer? at h
  split at h
  · next response hresponse => exact ⟨response, hresponse⟩
  all_goals cases h

namespace Hall

/-- All answers that were given. -/
def answers (hall : Hall σ) : List Answer :=
  hall.visits.filterMap Visit.answer?

/-- Every request that has arrived is answered. -/
def AllAnswered (hall : Hall σ) : Prop :=
  ∀ v ∈ hall.visits, v.answer?.isSome = true

variable {service : Service} {m : Machine σ} {hall : Hall σ} {book : List (Visit × Tally)}

/-- The shares of requests that are answered are what their answers say. -/
theorem sum_shares {book : List (Visit × Tally)}
    (hbook : ∀ entry ∈ book, entry.1.Balanced entry.2)
    (hanswered : ∀ v ∈ book.map Prod.fst, v.answer?.isSome = true)
    (c : Counter) : (book.map (·.2.count c)).sum =
      (((book.map Prod.fst).filterMap Visit.answer?).map (·.due c)).sum := by
  induction book with
  | nil => rfl
  | cons entry book ih =>
    obtain ⟨response, hresponse⟩ := Visit.exists_response (hanswered entry.1 List.mem_cons_self)
    have hanswer : entry.1.answer? =
        some ⟨Service.Route.ofPath? entry.1.request.path, entry.1.granted, response⟩ := by
      simp only [Visit.answer?, hresponse]
    -- an answered request has the share that is due for its answer
    have hshare := (hbook entry List.mem_cons_self).answered response hresponse c
    have hrest := ih (fun e he => hbook e (List.mem_cons_of_mem _ he))
      fun v hv => hanswered v (List.mem_cons_of_mem _ hv)
    rw [List.map_cons, List.map_cons, List.filterMap_cons_some hanswer, List.map_cons,
      List.sum_cons, List.sum_cons, hshare, hrest]

/-- When all requests are answered, the counters are the sums of what their answers say. -/
theorem Booked.count_eq (h : hall.Booked book) (hanswered : hall.AllAnswered) (c : Counter) :
    hall.desk.tally.count c = (hall.answers.map (·.due c)).sum := by
  unfold AllAnswered at hanswered
  rw [h.visits] at hanswered
  rw [h.count, answers, h.visits]
  exact sum_shares h.balanced hanswered c

/-- **Counters agree with answers.** A service starts with no counts. Whatever happens then, in
whatever order, there are never more failed chains counted than chains. And whenever every request
that has arrived is answered:

- the chains that are counted are those whose answer tells of success or of a failure, and those that
  were refused for lack of a permit;
- the failed ones are those whose answer tells of a failure, and a time is taken for those that were
  granted a permit;
- the validations and the disassemblies that are counted are those that were answered with status
  200. -/
theorem counters_agree (service : Service) (gate : Gate) (m : Machine σ) (s : σ)
    (schedule : List (Occasion σ)) :
    let hall := play service m { desk := { gate }, state := s } schedule
    let count := hall.desk.tally.count
    let answers := hall.answers
    count .compileFailures ≤ count .compileRequests ∧
    (hall.AllAnswered →
      count .compileRequests = answers.countP (Answer.tells .compile true) +
        answers.countP (Answer.tells .compile false) +
        answers.countP (Answer.hasStatus .compile 503) ∧
      count .compileFailures = answers.countP (Answer.tells .compile false) ∧
      count .compileLatency = answers.countP (fun a => a.isFrom .compile && a.granted) ∧
      count .validateRequests = answers.countP (Answer.hasStatus .validate 200) ∧
      count .disassembleRequests = answers.countP (Answer.hasStatus .disassemble 200)) := by
  intro hall count answers
  have hstart : Booked { desk := { gate }, state := s } ([] : List (Visit × Tally)) :=
    ⟨rfl, fun entry hentry => absurd hentry List.not_mem_nil, fun c => rfl⟩
  obtain ⟨book, hbook⟩ : ∃ book, hall.Booked book := hstart.play schedule
  refine ⟨hbook.covered, fun hanswered => ?_⟩
  have hcount : ∀ c, count c = (answers.map (·.due c)).sum := hbook.count_eq hanswered
  refine ⟨?_, ?_, ?_, ?_, ?_⟩
  · rw [hcount, ← sum_map_toNat, ← sum_map_toNat, ← sum_map_toNat, ← List.sum_map_add,
      ← List.sum_map_add]
    rfl
  all_goals
    rw [hcount, ← sum_map_toNat]
    rfl

/-- Six requests to a service with one permit, and with tools that print what they are given: a chain,
a malformed one, one with a tool that nobody knows, one that waits for too long, a disassembly and a
validation. -/
theorem counters_of_six_requests :
    let service : Service := ⟨Chain.complete, { concurrency := .atMost 0 }⟩
    let machine := Store.machine .echo (.ok (Utf8.ofText "/tmp/a"))
    let post (path : String) (body : String) : Http.Request :=
      { method := .post, target := { path }, contentType := some "application/json"
        body := Utf8.ofText body }
    let alone (i : Nat) : List (Occasion Store) :=
      .move i .turn :: .move i .grant :: List.replicate 12 (.move i .turn)
    let schedule := [
      .arrival (post "/compile" "\x7b\"source\":\"x\",\"tool\":\"dxc\"\x7d"),
      .arrival (post "/compile" "\x7b\"tool2\":\"dxc\"\x7d"),
      .arrival (post "/compile" "\x7b\"tool\":\"none\"\x7d"),
      .arrival (post "/compile" "\x7b\"tool\":\"dxc\"\x7d"),
      .arrival (post "/dissemble" "x"),
      .arrival (post "/validate" "\x7b\"spirv\":\"x\"\x7d"),
      .move 0 .turn, .move 0 .grant, .move 3 .turn, .move 3 .refuse, .move 3 .turn] ++
      [0, 1, 2, 4, 5].flatMap alone
    let hall := play service machine { desk := { gate := { free := 1 } }, state := fun _ => none }
      schedule
    hall.AllAnswered ∧ hall.answers.map (·.response.status) = [200, 200, 200, 503, 200, 200] ∧
      hall.desk.tally.count .compileRequests = 4 ∧ hall.desk.tally.count .compileFailures = 2 ∧
      hall.desk.tally.count .compileLatency = 2 ∧ hall.desk.tally.count .validateRequests = 1 ∧
      hall.desk.tally.count .disassembleRequests = 1 := by
  intro service machine post alone schedule hall
  have hanswers : (∀ v ∈ hall.visits, v.answer?.isSome = true) ∧
      hall.answers.map (·.response.status) = [200, 200, 200, 503, 200, 200] ∧
      hall.answers.countP (Answer.tells .compile true) = 1 ∧
      hall.answers.countP (Answer.tells .compile false) = 2 ∧
      hall.answers.countP (Answer.hasStatus .compile 503) = 1 ∧
      hall.answers.countP (fun a => a.isFrom .compile && a.granted) = 2 ∧
      hall.answers.countP (Answer.hasStatus .validate 200) = 1 ∧
      hall.answers.countP (Answer.hasStatus .disassemble 200) = 1 := by decide +kernel
  obtain ⟨hanswered, hstatus, hsucceeded, hfailed, hrefused, htimed, hvalidated, hdisassembled⟩ :=
    hanswers
  subst hall
  obtain ⟨-, hcounters⟩ := counters_agree service { free := 1 } machine (fun _ => none) schedule
  obtain ⟨hrequests, hfailures, hlatency, hvalidations, hdisassemblies⟩ := hcounters hanswered
  refine ⟨hanswered, hstatus, ?_, hfailures.trans hfailed, hlatency.trans htimed,
    hvalidations.trans hvalidated, hdisassemblies.trans hdisassembled⟩
  rw [hrequests, hsucceeded, hfailed, hrefused]

end Hall

end ShaderChain
