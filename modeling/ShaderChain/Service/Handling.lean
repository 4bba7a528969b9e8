import ShaderChain.Chain.Run
import ShaderChain.Service.Config
import ShaderChain.Service.Submission

/-!
# Handling requests

How the service handles one request, step by step: it counts, waits for one of a fixed number of
permits, performs a job while it holds the permit, and answers. `Handling` is the tree of these
steps, as `Job` is that of a job's; it says nothing about other requests, and can be run alone
(`Handling.run`) or among others.

A request to run a chain is counted when it arrives, and its slots are looked at before it waits:
a malformed one is answered without a permit. The two other jobs are counted when they are done.
-/

namespace ShaderChain

/-! ## Faults of the service

Faults that reach beyond a single job: a configuration that cannot be served, and a service that
has no room for another job. -/

/-- Why a job is refused a permit. -/
inductive Refusal where
  /-- No permit became free in time. -/
  | overloaded
  /-- There are no permits any more. -/
  | closed
  deriving Repr, DecidableEq

/-- The wording of a refusal. -/
def Refusal.message : Refusal → String
  | .overloaded => "Service temporarily overloaded, please retry"
  | .closed => "Semaphore closed"

/-- A fault of the service as a whole. -/
inductive ServiceFault where
  | configuration (reason : String)
  | resource (reason : String)
  deriving Repr, DecidableEq

namespace ServiceFault

/-- The wording of a fault. -/
def message : ServiceFault → String
  | .configuration reason => "Configuration error: " ++ reason
  | .resource reason => "Service temporarily unavailable: " ++ reason

/-- The status of the response to a fault. -/
def status : ServiceFault → Nat
  | .configuration _ => 500
  | .resource _ => 503

/-- What the response to a fault says: of a lack of resources the bare reason. -/
def told : ServiceFault → String
  | .configuration reason => message (.configuration reason)
  | .resource reason => reason

/-- The body of the response to a fault. -/
def body (f : ServiceFault) : Json :=
  .obj [("error", .str f.told), ("code", .num f.status)]

end ServiceFault

/-! ## Permits -/

/-- The most permits that there can be. -/
def maxPermits : Nat :=
  (Nat.pow 2 64 - 1) / 8

/-- The permits that are free. A closed gate gives none. -/
structure Gate where
  free : Nat
  closed : Bool := false
  deriving Repr, DecidableEq

namespace Gate

/-- A gate with this number of permits, if there can be so many. -/
def ofPermits? (n : Nat) : Option Gate :=
  if n ≤ maxPermits then some { free := n } else none

/-- Takes one permit. One that is not free now does not become free while nothing else goes on. -/
def acquire (g : Gate) : Except Refusal Gate :=
  if g.closed then .error .closed
  else if g.free = 0 then .error .overloaded
  else .ok { g with free := g.free - 1 }

/-- Takes up to `n` permits, and tells how many. -/
def take (g : Gate) (n : Nat) : Nat × Gate :=
  if g.closed then (0, g) else (min n g.free, { g with free := g.free - n })

/-- Gives back permits. -/
def release (g : Gate) (n : Nat) : Gate :=
  { g with free := g.free + n }

/-- Gives out no permits any more. -/
def close (g : Gate) : Gate :=
  { g with closed := true }

end Gate

/-! ## Counters -/

/-- What is counted. -/
inductive Counter where
  | compileRequests
  | compileFailures
  | disassembleRequests
  | validateRequests
  /-- The samples of how long a chain takes. -/
  | compileLatency
  deriving Repr, DecidableEq

/-- The name under which a counter is published. -/
def Counter.name : Counter → String
  | .compileRequests => "compile_requests_total"
  | .compileFailures => "compile_failures_total"
  | .disassembleRequests => "disassemble_requests_total"
  | .validateRequests => "validate_requests_total"
  | .compileLatency => "compile_latency_ms_count"

/-- All counters. -/
def Counter.all : List Counter :=
  [.compileRequests, .compileFailures, .disassembleRequests, .validateRequests, .compileLatency]

/-- The values of the counters. -/
structure Tally where
  count : Counter → Nat := fun _ => 0

namespace Tally

/-- Adds one to a counter. -/
def bump (t : Tally) (c : Counter) : Tally where
  count d := if d = c then t.count d + 1 else t.count d

/-- The counters that have been touched, with their values. -/
def touched (t : Tally) : List (String × Nat) :=
  (Counter.all.filter (t.count · != 0)).map fun c => (c.name, t.count c)

end Tally

/-! ## The steps of a request -/

/-- What a job ends in. -/
inductive Payload where
  | compilation (r : Compilation)
  | disassembly (r : Disassembly)
  | validation (r : Validation)
  deriving Repr

/-- The JSON form of a result. -/
def Payload.toJson : Payload → Json
  | .compilation r => r.toJson
  | .disassembly r => r.toJson
  | .validation r => r.toJson

/-- Whether this is the result of a chain that failed. -/
def Payload.isFailedCompilation : Payload → Bool
  | .compilation r => !r.success
  | _ => false

/-- A tree of steps that ends in a response. -/
inductive Handling where
  /-- Ends, and gives back the permit if one is held. -/
  | answer (response : Http.Response)
  /-- Adds one to a counter. -/
  | count (counter : Counter) (next : Handling)
  /-- Waits for a permit. -/
  | acquire (next : Except Refusal Unit → Handling)
  /-- Performs a job. -/
  | perform (job : Job Payload) (next : Payload → Handling)

/-- The service: the tools that it runs, and its settings. -/
structure Service where
  chain : Chain
  config : Config

namespace Service

/-- The service with a registry of tools. -/
def of (config : Config) (registry : Registry) : Service where
  chain := { registry, limit := config.toolLimit, scratchDir := config.scratchDir }
  config

/-- Whether a client can ask for any tool at all. -/
def ready (s : Service) : Bool :=
  !s.chain.registry.listed.isEmpty

/-- The version that the service tells. -/
def version : String := "0.1.0"

/-- The body of an answer about the state of the service. -/
def state (status : String) : Json :=
  .obj [("status", .str status), ("version", .str version)]

/-- The answer to a request that gets no permit. -/
def refuse (refusal : Refusal) : Handling :=
  let fault := ServiceFault.resource refusal.message
  .answer (.json fault.status fault.body)

/-- Performs a job with a permit and goes on with its result. -/
def withPermit (job : Job Payload) (next : Payload → Handling) : Handling :=
  .acquire fun
    | .error refusal => refuse refusal
    | .ok () => .perform job next

/-- Counts a failed chain. -/
def countFailure (p : Payload) (next : Handling) : Handling :=
  if p.isFailedCompilation then .count .compileFailures next else next

/-- Handles a request to run a chain. -/
def compile (s : Service) (submission : ChainSubmission) : Handling :=
  .count .compileRequests <|
    match submission.request with
    | .error e =>
      .count .compileFailures (.answer (.json 200 (Compilation.failed e.report).toJson))
    | .ok request =>
      withPermit (Payload.compilation <$> s.chain.compile request) fun p =>
        countFailure p (.count .compileLatency (.answer (.json 200 p.toJson)))

/-- Handles a request to disassemble. -/
def disassemble (s : Service) (binary : Bytes) : Handling :=
  withPermit (Payload.disassembly <$> s.chain.disassemble binary) fun p =>
    .count .disassembleRequests (.answer (.json 200 p.toJson))

/-- Handles a request to validate. -/
def validate (s : Service) (submission : ValidationSubmission) : Handling :=
  withPermit (Payload.validation <$> s.chain.validate submission.spirv submission.targetEnv)
    fun p => .count .validateRequests (.answer (.json 200 p.toJson))

/-! ## Routes -/

/-- What can be requested. -/
inductive Route where
  | tools
  | compile
  | disassemble
  | validate
  | health
  | ready
  deriving Repr, DecidableEq

/-- The route of a path; paths are compared exactly. -/
def Route.ofPath? (path : String) : Option Route :=
  match path with
  | "/getTools" => some .tools
  | "/compile" => some .compile
  | "/dissemble" => some .disassemble
  | "/validate" => some .validate
  | "/health" => some .health
  | "/ready" => some .ready
  | _ => none

/-- The only method of a route. -/
def Route.method : Route → Http.Method
  | .compile | .disassemble | .validate => .post
  | .tools | .health | .ready => .get

/-- Refuses with a status, or goes on. -/
def orRefuse (x : Except Nat α) (next : α → Handling) : Handling :=
  match x with
  | .error status => .answer (.bare status)
  | .ok a => next a

/-- Handles a request to a route. -/
def handleRoute (s : Service) (r : Http.Request) : Route → Handling
  | .tools => .answer (.json 200 (.arr (s.chain.registry.listed.map .str)))
  | .health => .answer (.json 200 (state "healthy"))
  | .ready =>
    .answer (if s.ready then .json 200 (state "ready") else .json 503 (state "not_ready"))
  | .compile =>
    orRefuse (r.submission s.config.maxBody ChainSubmission.record.read) s.compile
  | .validate =>
    orRefuse (r.submission s.config.maxBody ValidationSubmission.record.read) s.validate
  | .disassemble => orRefuse (r.limitedBody s.config.maxBody) s.disassemble

/-- Handles a request. -/
def handle (s : Service) (r : Http.Request) : Handling :=
  match Route.ofPath? r.path with
  | none => .answer (.bare 404)
  | some route => if r.method = route.method then s.handleRoute r route else .answer (.bare 405)

end Service

/-! ## Running a request alone -/

/-- What requests share, beside the machine: permits and counters. -/
structure Desk where
  gate : Gate
  tally : Tally := {}

/-- Handles a request from its first step to its last, with nothing else going on. `held` is
the number of permits that the request holds. -/
def Handling.run (m : Machine σ) (held : Nat) :
    Handling → Desk → σ → Http.Response × Desk × σ
  | .answer response, d, s => (response, { d with gate := d.gate.release held }, s)
  | .count c next, d, s => next.run m held { d with tally := d.tally.bump c } s
  | .acquire next, d, s =>
    match d.gate.acquire with
    | .error refusal => (next (.error refusal)).run m held d s
    | .ok gate => (next (.ok ())).run m (held + 1) { d with gate } s
  | .perform job next, d, s =>
    let (p, s) := job.run m s
    (next p).run m held d s

/-- A request that has arrived: it is answered, or it waits for a permit. -/
inductive Arrival where
  | answered (response : Http.Response)
  | waiting (next : Except Refusal Unit → Handling)

/-- Handles a request up to where it has to wait for a permit. -/
def Handling.arrive (m : Machine σ) : Handling → Tally → σ → Arrival × Tally × σ
  | .answer response, t, s => (.answered response, t, s)
  | .count c next, t, s => next.arrive m (t.bump c) s
  | .acquire next, t, s => (.waiting next, t, s)
  | .perform job next, t, s =>
    let (p, s) := job.run m s
    (next p).arrive m t s

end ShaderChain
