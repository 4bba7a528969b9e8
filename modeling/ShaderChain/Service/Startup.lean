import ShaderChain.Service.Address
import ShaderChain.Service.Handling

/-!
# Starting the service

A service starts in four steps of which each can end it: its configuration is read, the address
is read, the tools are found, and the port is opened. The first reason to give up is told on the
standard error output. There is one failure that is not told like this: a service that is to run more
jobs at once than can be counted is aborted in the middle of its start.
-/

namespace ShaderChain

/-- The network of a machine that has a loopback interface and no other. -/
structure Network where
  /-- Whether another service listens at the port already. -/
  portTaken : Bool := false
  /-- Whether the loopback interface is up. If it is not, nothing can be connected to. -/
  loopback : Bool := true
  deriving Repr, DecidableEq

namespace Startup

/-- Why a service gives up its start. -/
inductive Reason where
  | config (fault : Config.Fault)
  | address
  | misplaced (tool : Misplaced)
  | port (cause : IoError)
  deriving Repr, DecidableEq

/-- The wording of a reason. -/
def Reason.message : Reason → String
  | .config fault => fault.message
  | .address => "invalid socket address syntax"
  | .misplaced tool => (ServiceFault.configuration tool.message).message
  | .port cause => cause.message

/-- How a start fails. -/
inductive Fault where
  /-- The service gives up, and tells why. -/
  | givenUp (reason : Reason)
  /-- The process is aborted, since more jobs may run at once than can be counted. -/
  | tooManyPermits
  deriving Repr, DecidableEq

namespace Fault

/-- The configuration cannot be read. -/
@[match_pattern] def config (fault : Config.Fault) : Fault :=
  .givenUp (.config fault)

/-- A tool is not where it is said to be. -/
@[match_pattern] def misplaced (tool : Misplaced) : Fault :=
  .givenUp (.misplaced tool)

/-- The wording of a failure. -/
def message : Fault → String
  | .givenUp reason => reason.message
  | .tooManyPermits =>
    "a semaphore may not have more than MAX_PERMITS permits (" ++ toString maxPermits ++ ")"

/-- What is written on the standard error output. Of an abort, this is the wording that follows the
place in the program. -/
def stderr : Fault → String
  | .givenUp reason => "Error: " ++ reason.message ++ "\n"
  | .tooManyPermits => message .tooManyPermits ++ "\n"

/-- The number of the signal by which a process aborts itself. -/
def abortSignal : Nat := 6

/-- The exit status of a service that did not start, as a shell tells it: a process that was ended by a
signal has none of its own. -/
def exit : Fault → Nat
  | .givenUp _ => 1
  | .tooManyPermits => 128 + abortSignal

end Fault

/-- Whether an IPv4 address can be listened at. As long as no interface is up, the machine does
not know which addresses are its own and takes them all. -/
def takesIpv4 (network : Network) (octets : List Nat) : Bool :=
  !network.loopback || Address.isUnassigned octets || Address.isLoopback octets

/-- The number of the loopback interface, which scopes refer to. -/
def loopbackScope : Nat := 1

/-- Whether an IPv6 address can be listened at. One that means something on one interface only
needs its number. -/
def checkIpv6 (network : Network) (groups : List Nat) (scope : Nat) : Except Errno Unit :=
  match Address.mapped? groups with
  | some octets => if takesIpv4 network octets then .ok () else .error .addressUnavailable
  | none =>
    if groups.all (· == 0) then .ok ()
    else if Address.isLinkLocal groups && scope == 0 then .error .invalidArgument
    else if Address.isLinkLocal groups && scope != loopbackScope then .error .noDevice
    else if network.loopback && groups == [0, 0, 0, 0, 0, 0, 0, 1] then .ok ()
    else .error .addressUnavailable

/-- The ports below this one, except for zero, are for privileged processes. -/
def firstFreePort : Nat := 1024

/-- Whether a port may be opened at all; with port zero, the system chooses one. -/
def checkPort (port : Nat) : Except Errno Unit :=
  if 0 < port && port < firstFreePort then .error .denied else .ok ()

/-- Opens a port at an address. -/
def openPort (network : Network) (address : Address) (port : Nat) : Except Errno Unit := do
  match address with
  | .v4 octets =>
    if !takesIpv4 network octets then throw .addressUnavailable
    checkPort port
  | .v6 groups scope =>
    if Address.isGroup groups then throw .invalidArgument
    checkPort port
    checkIpv6 network groups scope
  if network.portTaken then throw .addressInUse

/-- Finds the tools and sets up the service. `files` is what the tools are looked for in. -/
def build (config : Config) (env : Environment) (files : FileSystem) (specs : List Spec)
    (processors : Nat) : Except Fault (Service × Desk) := do
  let registry ←
    (Discovery.discover files config.overrides (env.lookup "PATH") specs).mapError .misplaced
  match Gate.ofPermits? (config.permits processors) with
  | none => .error .tooManyPermits
  | some gate => .ok (.of config registry, { gate })

/-- The settings of a service and the address that it listens at, from its environment. -/
def settings (env : Environment) : Except Fault (Config × Address) := do
  let config ← (Config.load env).mapError .config
  match Address.parse config.host with
  | none => .error (.givenUp .address)
  | some address => .ok (config, address)

/-- Starts the service. -/
def start (env : Environment) (files : FileSystem) (network : Network) (processors : Nat) :
    Except Fault (Service × Desk) := do
  let (config, address) ← settings env
  let service ← build config env files catalog processors
  (openPort network address config.port).mapError (.givenUp ∘ .port ∘ .os)
  return service

end Startup

end ShaderChain
