import ShaderChain.Bench.World
import ShaderChain.Service.Startup

/-!
# Sessions on a bench

A session drives a service from its start through a list of steps: requests, alone or several at
a time, and interventions at its permits. Of every request the response is kept, the calls of
tools that it led to, and how many scratch files are there after it. A message that is not a
request ends the session.

Requests that arrive at the same moment take permits in their order, as long as there are any. The
others queue in this order for the permits that are given back, and each is refused when its time
in the queue is over. Since every job has a scratch file of its own, it matters for a job only when
it starts; so each is run in one go when its turn comes, and `Permits` records when it ends.
-/

namespace ShaderChain.Bench

/-! ## Requests that arrive together -/

/-- The permits, seen from the moment at which the requests arrive. -/
structure Permits where
  free : Nat
  closed : Bool
  /-- When the permits that have been taken are given back, in microseconds. -/
  returns : List Nat := []
  deriving Repr

namespace Permits

/-- Takes a permit for a request that waits no longer than `patience`, and tells from when on it
holds the permit. A permit that is given back without any delay is as good as free. -/
def take (p : Permits) (patience : Nat) : Except Refusal (Nat × Permits) :=
  if p.closed then .error .closed
  else if 0 < p.free then .ok (0, { p with free := p.free - 1 })
  else
    match p.returns.min? with
    | some time =>
      if time = 0 ∨ time < patience then .ok (time, { p with returns := p.returns.erase time })
      else .error .overloaded
    | none => .error .overloaded

end Permits

/-- What requests that arrive together share. -/
structure Crowd where
  permits : Permits
  tally : Tally
  world : World

namespace Crowd

/-- Goes on with a request whose turn has come or will not come. -/
def proceed (c : Crowd) (handling : Handling) : Http.Response × Crowd :=
  let gate : Gate := { free := c.permits.free, closed := c.permits.closed }
  let (response, desk, world) := handling.run World.machine 0 { gate, tally := c.tally } c.world
  (response, { c with tally := desk.tally, world })

/-- Answers one request. -/
def respond (c : Crowd) (patience : Nat) (handling : Handling) : Http.Response × Crowd :=
  let (arrival, tally, world) := handling.arrive World.machine c.tally c.world
  let c := { c with tally, world }
  match arrival with
  | .answered response => (response, c)
  | .waiting next =>
    match c.permits.take patience with
    | .error refusal => c.proceed (next (.error refusal))
    | .ok (start, permits) =>
      let (response, after) := { c with permits }.proceed (next (.ok ()))
      let ends := start + (after.world.clock - c.world.clock)
      (response, { after with permits := { permits with returns := ends :: permits.returns } })

/-- Answers requests that arrive together. -/
def respondAll (c : Crowd) (patience : Nat) : List Handling → List Http.Response × Crowd
  | [] => ([], c)
  | handling :: rest =>
    let (response, c) := c.respond patience handling
    let (responses, c) := c.respondAll patience rest
    (response :: responses, c)

end Crowd

/-! ## Sessions -/

/-- A step of a session. -/
inductive Step where
  | request (m : Http.Message)
  | concurrent (ms : List Http.Message)
  /-- Takes up to `n` permits. -/
  | hold (n : Nat)
  /-- Gives back all permits that were taken. -/
  | release
  | close

/-- What came of a step. -/
inductive Outcome where
  | answered (response : Http.Response) (calls : List Call) (leftover : Nat)
  | concurrent (responses : List Http.Response) (calls : List Call) (leftover : Nat)
  | permits (held free : Nat)
  | closed

/-- A service on a bench. -/
structure Session where
  service : Service
  world : World
  desk : Desk
  held : Nat := 0

namespace Session

/-- Starts a service in an environment, without its address and port. -/
def start (env : Environment) (files : FileSystem) (script : Script) (specs : List Spec) :
    Except Startup.Fault Session := do
  let config ← (Config.load env).mapError .config
  let (service, desk) ← Startup.build config env files specs Fixture.processors
  return { service, desk, world := Fixture.world files (env.lookup "PATH") script }

/-- Sets how long a tool may run. -/
def withLimit (s : Session) (limit : Span) : Session :=
  { s with service.chain.limit := some limit }

/-- Runs a request. -/
def respond (s : Session) (r : Http.Request) : Http.Response × Session :=
  let (response, desk, world) := (s.service.handle r).run World.machine 0 s.desk s.world
  (response, { s with desk, world })

/-- Runs requests that arrive together. When all are answered, all permits are back. -/
def respondAll (s : Session) (rs : List Http.Request) : List Http.Response × Session :=
  let gate := s.desk.gate
  let crowd : Crowd := {
    permits := { free := gate.free, closed := gate.closed }
    tally := s.desk.tally
    world := s.world }
  let (responses, crowd) :=
    crowd.respondAll s.service.config.queueLimit.micros (rs.map s.service.handle)
  (responses, { s with desk := { gate, tally := crowd.tally }, world := crowd.world })

/-- How many scratch files there are. -/
def leftover (s : Session) : Nat :=
  let dir := s.service.config.scratchDir.getD s.world.tempDir
  ((s.world.files.names dir).filter scratchName.isPrefixOf).length

/-- Takes the record of calls, the oldest first. -/
def takeCalls (s : Session) : List Call × Session :=
  (s.world.calls.reverse, { s with world.calls := [] })

/-- Goes on by one step. -/
def step (s : Session) : Step → Except Http.Message.Fault (Outcome × Session)
  | .request m => do
    let (response, s) := s.respond (← m.request)
    let (calls, s) := s.takeCalls
    return (.answered response calls s.leftover, s)
  | .concurrent ms => do
    let (responses, s) := s.respondAll (← ms.mapM Http.Message.request)
    let (calls, s) := s.takeCalls
    return (.concurrent responses calls s.leftover, s)
  | .hold n =>
    let (taken, gate) := s.desk.gate.take n
    let s := { s with held := s.held + taken, desk.gate := gate }
    .ok (.permits s.held s.desk.gate.free, s)
  | .release =>
    let s := { s with held := 0, desk.gate := s.desk.gate.release s.held }
    .ok (.permits s.held s.desk.gate.free, s)
  | .close => .ok (.closed, { s with desk.gate := s.desk.gate.close })

/-- Goes through a list of steps. -/
def steps (s : Session) : List Step → Except Http.Message.Fault (List Outcome × Session)
  | [] => .ok ([], s)
  | step :: rest => do
    let (outcome, s) ← s.step step
    let (outcomes, s) ← s.steps rest
    return (outcome :: outcomes, s)

end Session

end ShaderChain.Bench
