import ShaderChain.Service.Handling

/-!
# How requests are handled

A request is refused, or told about the service, or it gets to one of the three handlers that perform
jobs. `Service.Handles` lists these ways, and `Service.handles` shows that there are no others; what
all handlings have in common is then proved with one case for each.
-/

namespace ShaderChain.Service

variable {α : Type}

/-- The statuses with which requests are refused that no handler gets to see. -/
def refusals : List Nat :=
  [400, 404, 405, 413, 415, 422]

/-- The ways of handling a request to a route, if its path is that of one. -/
inductive Handles (service : Service) : Option Route → Handling → Prop
  | refused (route : Option Route) {status : Nat} (h : status ∈ refusals) :
    Handles service route (.answer (.bare status))
  | told {route : Route} (h : route.method = .get) (response : Http.Response) :
    Handles service (some route) (.answer response)
  | compile (submission : ChainSubmission) :
    Handles service (some .compile) (service.compile submission)
  | disassemble (binary : Bytes) :
    Handles service (some .disassemble) (service.disassemble binary)
  | validate (submission : ValidationSubmission) :
    Handles service (some .validate) (service.validate submission)

variable {r : Http.Request} {maxBody status : Nat}

/-- A body that is too long is refused. -/
theorem refusals_of_limitedBody (h : r.limitedBody maxBody = .error status) :
    status ∈ refusals := by
  unfold Http.Request.limitedBody at h
  by_cases hlength : r.body.length ≤ maxBody
  · rw [if_pos hlength] at h
    cases h
  · rw [if_neg hlength] at h
    obtain rfl : 413 = status := Except.error.inj h
    decide

/-- A body that is no submission is refused for its type, its length, or what is in it. -/
theorem refusals_of_submission {read : Json.Reader α}
    (h : r.submission maxBody read = .error status) : status ∈ refusals := by
  -- the type is looked at first, then the length, then the text
  unfold Http.Request.submission at h
  by_cases hjson : r.declaresJson = true
  · simp only [hjson, Bool.not_true, Bool.false_eq_true, if_false] at h
    cases hbody : r.limitedBody maxBody with
    | error refusal =>
      rw [hbody] at h
      obtain rfl : refusal = status := Except.error.inj h
      exact refusals_of_limitedBody hbody
    | ok body =>
      rw [hbody] at h
      have hread : (Json.readFront read body).mapError Json.Fault.status = .error status := h
      cases hx : Json.readFront read body with
      | ok a =>
        rw [hx] at hread
        cases hread
      | error fault =>
        rw [hx] at hread
        obtain rfl : fault.status = status := Except.error.inj hread
        cases fault <;> decide
  · simp only [hjson, Bool.not_false, if_true] at h
    obtain rfl : 415 = status := Except.error.inj h
    decide

/-- A step that is refused or goes on is handled in one of these ways if each of the two is. -/
theorem Handles.orRefuse {service : Service} {route : Option Route} {x : Except Nat α}
    {next : α → Handling} (hrefused : ∀ status, x = .error status → status ∈ refusals)
    (h : ∀ a, service.Handles route (next a)) : service.Handles route (orRefuse x next) := by
  cases x with
  | error status => exact .refused route (hrefused status rfl)
  | ok a => exact h a

/-- Every request is handled in one of these ways. -/
theorem handles (service : Service) (r : Http.Request) :
    service.Handles (Route.ofPath? r.path) (service.handle r) := by
  unfold handle
  split
  · exact .refused _ (by decide)
  · next route hroute =>
    rw [hroute]
    split
    · cases route with
      | tools | health | ready => exact .told rfl _
      | compile => exact .orRefuse (fun _ => refusals_of_submission) .compile
      | validate => exact .orRefuse (fun _ => refusals_of_submission) .validate
      | disassemble => exact .orRefuse (fun _ => refusals_of_limitedBody) .disassemble
    · exact .refused _ (by decide)

/-- A request to run a chain whose body can be read gets to its handler. -/
theorem handle_of_submission {service : Service} {submission : ChainSubmission}
    (hpath : Route.ofPath? r.path = some .compile) (hmethod : r.method = .post)
    (hsubmission : r.submission service.config.maxBody ChainSubmission.record.read =
      .ok submission) : service.handle r = service.compile submission := by
  have hroute : r.method = Route.compile.method := hmethod
  simp only [handle, hpath, hroute, if_true, handleRoute, hsubmission, orRefuse]

end ShaderChain.Service
