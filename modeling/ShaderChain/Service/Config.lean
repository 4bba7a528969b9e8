import ShaderChain.Text.Numeral
import ShaderChain.Text.Quoting
import ShaderChain.Tool.Registry

/-!
# Configuration

Every setting comes from an environment variable of its own and has a default. Text and numbers
count as unset where the value is not UTF-8; paths are taken byte for byte. A number that cannot
be read stops the service, and the first one in a fixed order is reported. Whether a configured
path exists is not asked here.
-/

namespace ShaderChain

/-- The variables that are set, with their values. -/
abbrev Environment := List (String × Bytes)

/-- The value of a variable if it is UTF-8. -/
def Environment.text? (env : Environment) (name : String) : Option String :=
  (env.lookup name).bind Utf8.text?

/-- How many jobs may run at once. -/
inductive Concurrency where
  /-- As many as the machine has processors. -/
  | processors
  | atMost (n : Nat)
  deriving Repr, DecidableEq

/-- The settings of the service. -/
structure Config where
  host : String := "0.0.0.0"
  port : Nat := 9000
  /-- Seconds between the signal to stop and the end. -/
  shutdownSeconds : Nat := 5
  /-- The longest request body, in bytes. -/
  maxBody : Nat := 50 * 1024 * 1024
  concurrency : Concurrency := .processors
  /-- Seconds that a request waits for its turn. -/
  queueSeconds : Nat := 30
  /-- Seconds that a tool may run. -/
  toolSeconds : Option Nat := none
  scratchDir : Option Path := none
  /-- The directory of the files that are served beside the service itself. -/
  staticDir : Option Path := none
  overrides : Overrides := {}
  deriving Repr

namespace Config

/-- A number that cannot be read. -/
structure Fault where
  name : String
  value : String
  cause : Decimal.Fault
  deriving Repr, DecidableEq

/-- The variable with the time that a tool may run. -/
def toolTimeoutVariable : String := "TOOL_TIMEOUT_SECS"

/-- The wording of a fault. Of the time for tools only the cause is told. -/
def Fault.message (f : Fault) : String :=
  if f.name = toolTimeoutVariable then f.cause.message
  else "Invalid " ++ f.name ++ "=" ++ Quoted.encode f.value ++ ": " ++ f.cause.message

/-- The number in a variable, if the variable is set. -/
def number? (env : Environment) (name : String) (bits : Nat) : Except Fault (Option Nat) :=
  match env.text? name with
  | none => .ok none
  | some value =>
    match Decimal.parse bits value with
    | .ok n => .ok (some n)
    | .error cause => .error { name, value, cause }

/-- The tools' own paths, from the variables of the catalogue. -/
def toolPaths (env : Environment) : List (String × Path) :=
  catalog.filterMap fun spec => (env.lookup spec.envVar).map fun path => (spec.name, path)

/-- Reads the configuration. -/
def load (env : Environment) : Except Fault Config := do
  let defaults : Config := {}
  let port ← number? env "PORT" 16
  let shutdown ← number? env "SHUTDOWN_TIMEOUT" 64
  let body ← number? env "MAX_BODY_BYTES" 64
  let concurrent ← number? env "MAX_CONCURRENT_COMPILES" 64
  let queue ← number? env "QUEUE_TIMEOUT_SECS" 64
  let tool ← number? env toolTimeoutVariable 64
  return {
    host := (env.text? "HOST").getD defaults.host
    port := port.getD defaults.port
    shutdownSeconds := shutdown.getD defaults.shutdownSeconds
    maxBody := body.getD defaults.maxBody
    concurrency :=
      match concurrent with
      | some n => .atMost (max n 1)
      | none => .processors
    queueSeconds := queue.getD defaults.queueSeconds
    toolSeconds := tool
    scratchDir := env.lookup "SCRATCH_DIR"
    staticDir := env.lookup "STATIC_DIR"
    overrides := { paths := toolPaths env, suiteDir := env.lookup "SPIRV_TOOLS_DIR" } }

/-- How long a tool may run. -/
def toolLimit (c : Config) : Option Span :=
  c.toolSeconds.map Span.ofSeconds

/-- How long a request waits for its turn. -/
def queueLimit (c : Config) : Span :=
  .ofSeconds c.queueSeconds

/-- How many jobs may run at once on a machine with so many processors. -/
def permits (c : Config) (processors : Nat) : Nat :=
  match c.concurrency with
  | .processors => max processors 1
  | .atMost n => max n 1

end Config

end ShaderChain
