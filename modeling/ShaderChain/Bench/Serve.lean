import ShaderChain.Bench.Session
import ShaderChain.Service.Static

/-!
# A whole server on a bench

A server is started in an environment, is sent requests over the loopback interface, one after
another, and is told to stop. Beside the routes of the service it publishes its counters and, if
it is told to, a directory of static files.
-/

namespace ShaderChain.Bench

/-- What a server answers to one request. -/
inductive Served where
  | response (r : Http.Response)
  /-- The counters, as they are published. -/
  | metrics (status : Nat) (values : List (String × Nat))

/-- What came of a request. -/
structure Exchange where
  served : Served
  calls : List Call
  leftover : Nat

/-- How a server ends. -/
inductive Ended where
  /-- It stopped by itself before serving. -/
  | early (exit : Nat) (stderr : String)
  /-- It serves, but nothing can be sent to it. -/
  | unreachable (cause : IoError)
  /-- It served these requests and stopped when it was told to. -/
  | served (exchanges : List Exchange) (exit : Nat) (stderr : String)

namespace Serve

/-- The path at which the counters are published. -/
def metricsPath : String := "/metrics"

/-- The variables that a server is started with, and that nothing overrides. -/
def ownEnvironment : Environment :=
  [("HOST", Utf8.ofText "127.0.0.1"), ("PORT", Utf8.ofText "8080"),
    ("SHUTDOWN_TIMEOUT", Utf8.ofText "0")]

/-- Answers one request. -/
def answer (s : Session) (r : Http.Request) : Served × Session :=
  if r.path = metricsPath then
    if r.method = .get then (.metrics 200 s.desk.tally.touched, s) else (.metrics 405 [], s)
  else
    match Service.Route.ofPath? r.path, s.service.config.staticDir with
    | none, some dir => (.response (Static.respond s.world.files dir r), s)
    | _, _ =>
      let (response, s) := s.respond r
      (.response response, s)

/-- Answers one message. What cannot be read as a request is a bad one. -/
def respond (s : Session) (m : Http.Message) : Served × Session :=
  match m.received.request with
  | .ok r => answer s r
  | .error _ => (.response (.bare 400), s)

/-- Answers messages one after another. -/
def exchanges (s : Session) : List Http.Message → List Exchange
  | [] => []
  | m :: ms =>
    let (served, s) := respond s m
    let (calls, s) := s.takeCalls
    { served, calls, leftover := s.leftover } :: exchanges s ms

/-- Runs a server from its start to its end. -/
def run (env : Environment) (files : FileSystem) (script : Script) (network : Network)
    (messages : List Http.Message) : Ended :=
  let env := ownEnvironment ++ env.filter fun (name, _) => (ownEnvironment.lookup name).isNone
  match Startup.start env files network Fixture.processors with
  | .error fault => .early fault.exit fault.stderr
  | .ok (service, desk) =>
    if !network.loopback then .unreachable (.os .networkUnreachable)
    else
      let world := Fixture.world files (env.lookup "PATH") script
      .served (exchanges { service, world, desk } messages) 0 ""

end Serve

end ShaderChain.Bench
