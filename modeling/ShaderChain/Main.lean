import ShaderChain.Service.Startup

/-!
# The command line

Checks the environment that a service is to be started in. The first fault of its configuration
or its address is told on the standard error output, with the exit status of a service that does
not start; otherwise the address and the permits are told on the standard output.
-/

namespace ShaderChain.CommandLine

/-- The variables that the settings of a service come from. -/
def variableNames : List String :=
  ["HOST", "PORT", "SHUTDOWN_TIMEOUT", "MAX_BODY_BYTES", "MAX_CONCURRENT_COMPILES",
    "QUEUE_TIMEOUT_SECS", Config.toolTimeoutVariable, "SCRATCH_DIR", "STATIC_DIR",
    "SPIRV_TOOLS_DIR"] ++ catalog.map Spec.envVar

/-- The variables that are set. -/
def environment : BaseIO Environment :=
  variableNames.filterMapM fun name => do
    return (← IO.getEnv name).map fun value => (name, Utf8.ofText value)

/-- How many jobs may run at once, in words. -/
def concurrency : Concurrency → String
  | .processors => "one job per processor"
  | .atMost n => toString n ++ " jobs at once"

/-- What is told of settings that can be served. -/
def summary (config : Config) : String :=
  config.host ++ ":" ++ toString config.port ++ ", " ++ concurrency config.concurrency

end ShaderChain.CommandLine

/-- Checks the environment. -/
def main : IO UInt32 := do
  match ShaderChain.Startup.settings (← ShaderChain.CommandLine.environment) with
  | .error fault =>
    IO.eprint fault.stderr
    return UInt32.ofNat fault.exit
  | .ok (config, _) =>
    IO.println (ShaderChain.CommandLine.summary config)
    return 0
