import ShaderChain.Bench.Script
import ShaderChain.Chain.Job
import ShaderChain.Host.FileSystem
import ShaderChain.Service.Config

/-!
# A bench to run jobs on

A `World` is a machine that exists only as a value: a file system, a search path, scripted tools
and a clock. Scratch files get names with a running number, of which those that are taken are left
out. A world keeps a record of the calls of its tools.

Every bench starts in an empty working directory with a directory for temporary files in it. More
is put there as a list of paths and kinds of files.
-/

namespace ShaderChain.Bench

/-- A machine with scripted tools. -/
structure World where
  files : FileSystem
  /-- The directory for temporary files. -/
  tempDir : Path
  searchPath : Option Bytes
  script : Script
  /-- The calls up to now, the newest first. -/
  calls : List Call := []
  /-- The number of the next scratch file. -/
  serial : Nat := 0
  /-- The time that has passed, in microseconds. -/
  clock : Nat := 0
  deriving Repr

namespace World

/-- The path of a location. -/
def pathOf (loc : Location) : Path :=
  loc.flatMap fun name => Path.slash :: name

/-- How many characters follow the fixed part of a scratch file's name. -/
def serialWidth : Nat := 6

/-- The name of a scratch file. -/
def nameOf (serial : Nat) : Bytes :=
  let ds := Nat.toDigits 10 serial
  scratchName ++ Utf8.encode (List.replicate (serialWidth - ds.length) '0' ++ ds)

/-- Creates a file with the first number from `serial` on that is not taken, out of `fuel`. -/
def createFrom (files : FileSystem) (dir : Path) (serial : Nat) :
    (fuel : Nat) → Except Errno (Path × Nat × FileSystem)
  | 0 => .error .alreadyExists
  | fuel + 1 =>
    let path := Path.join dir (nameOf serial)
    match files.create path with
    | .ok files => .ok (path, serial, files)
    | .error .alreadyExists => createFrom files dir (serial + 1) fuel
    | .error e => .error e

/-- Creates a scratch file. Its path starts at the root, also where its directory does not. There
are no more names taken than there are nodes. -/
def create (dir : Option Path) (w : World) : Except IoError Path × World :=
  let base := Path.join (pathOf w.files.cwd) (dir.getD w.tempDir)
  if base.contains 0 then (.error (.other "file name contained an unexpected NUL byte"), w)
  else
    match createFrom w.files base w.serial (w.files.nodes.length + 1) with
    | .ok (path, serial, files) => (.ok path, { w with files, serial := serial + 1 })
    | .error e => (.error (.os e), w)

/-- The least time that a step takes for which the machine is waited for. -/
def tick : Nat := 1

/-- Lets time pass. -/
def wait (w : World) (microseconds : Nat) : World :=
  { w with clock := w.clock + microseconds + tick }

/-- Replaces the contents of a file. -/
def stage (path : Path) (contents : Bytes) (w : World) : Except IoError Unit × World :=
  let w := w.wait 0
  match w.files.write path contents with
  | .ok files => (.ok (), { w with files })
  | .error e => (.error (.os e), w)

/-- Removes a file. -/
def remove (path : Path) (w : World) : World :=
  { w with files := w.files.remove path }

/-- What a call does to the files. -/
def afterCall (files : FileSystem) (c : Call) (r : Rule) : FileSystem :=
  let files := match r.write with
    | some template =>
      match files.write c.scratch (c.fill template) with
      | .ok files => files
      | .error _ => files
    | none => files
  let files := if r.remove || r.mkdir then files.remove c.scratch else files
  if r.mkdir then files.makeDirectory c.scratch else files

/-- How long a tool does nothing that hangs. -/
def hangTime : Span :=
  .ofSeconds 20

/-- The limit that a tool of this duration would exceed. -/
def exceeded (limit : Option Span) (duration : Span) : Option Span :=
  limit.filter (·.millis ≤ duration.millis)

/-- Runs a command. A tool that does not hang takes next to no time, which is still too much if
there is none; a tool that is stopped has done nothing. -/
def launch (cmd : Command) (limit : Option Span) (w : World) : Ending × World :=
  let args := cmd.args.map Utf8.ofText
  match w.files.launch w.searchPath cmd.program args with
  | .error e => (.unlaunched e, w.wait 0)
  | .ok started =>
    let scratch := scratchAmong args
    let input := match w.files.read scratch with
      | .ok contents => contents
      | .error _ => []
    let call : Call := { tool := Path.baseName started, args, scratch, input }
    let rule := w.script.rule call
    match exceeded limit (if rule.hang then hangTime else ⟨0⟩) with
    | some limit => (.timedOut limit, w.wait limit.micros)
    | none =>
      if rule.hang then (.exited true [] [], w.wait hangTime.micros)
      else
        (.exited rule.succeeds (rule.stdoutOf call) (rule.stderrOf call),
          { w.wait 0 with files := afterCall w.files call rule, calls := call :: w.calls })

/-- The world as a machine. -/
def machine : Machine World where
  create := create
  stage := stage
  launch _ cmd limit := launch cmd limit
  remove := remove

end World

/-! ## Setting up a bench -/

/-- A kind of file to put on a bench. -/
inductive Kind where
  | directory
  /-- A scripted tool. -/
  | tool
  /-- A file without an execute bit. -/
  | plain
  /-- A file with execute bits that cannot be started. -/
  | garbage
  /-- A file of this mode that cannot be started. -/
  | mode (bits : Nat)
  | link (target : Path)
  deriving Repr

/-- The contents of files that cannot be started. -/
def junk : Bytes :=
  Utf8.ofText "not a program\n"

/-- The node for a kind of file. -/
def Kind.node : Kind → Node
  | .directory => .directory
  | .tool => .file 0o755 [] true
  | .plain => .file 0o644 junk false
  | .garbage => .file 0o755 junk false
  | .mode bits => .file bits junk false
  | .link target => .link target

namespace Fixture

/-- The name of the directory for temporary files. -/
def tempName : Bytes :=
  Utf8.ofText "tmp"

/-- An empty working directory of this name. The name is to be one that no request contains, since
scratch files are looked for in texts by their whole paths. -/
def empty (home : Bytes) : FileSystem :=
  let fs : FileSystem := { nodes := [([home], .directory)], cwd := [home] }
  fs.makeDirectories tempName

/-- Puts files on a bench; their paths start in the working directory. -/
def populate (fs : FileSystem) (files : List (Path × Kind)) : FileSystem :=
  files.foldl (fun fs (path, kind) => fs.plant path kind.node) fs

/-- A world with these files. -/
def world (files : FileSystem) (searchPath : Option Bytes) (script : Script) : World :=
  { files, tempDir := Path.join (World.pathOf files.cwd) tempName, searchPath, script }

/-- The search path where nothing else is said. -/
def binName : Bytes :=
  Utf8.ofText "bin"

/-- The directory of scratch files where nothing else is said. -/
def scratchDirName : Bytes :=
  Utf8.ofText "scratch"

/-- The bench of a service: its two directories, scripted tools of these names, and more files. -/
def serviceFiles (home : Bytes) (tools : List String) (files : List (Path × Kind)) : FileSystem :=
  let dirs := [(binName, Kind.directory), (scratchDirName, Kind.directory)]
  let tools := tools.map fun name => (Path.join binName (Utf8.ofText name), Kind.tool)
  populate (empty home) (dirs ++ tools ++ files)

/-- The environment of a service where nothing else is said. -/
def serviceEnvironment : Environment :=
  [("PATH", binName), ("SCRATCH_DIR", scratchDirName), ("MAX_CONCURRENT_COMPILES",
    Utf8.ofText "4")]

/-- An environment with some variables set otherwise, or unset. -/
def overridden (env : Environment) (changes : List (String × Option Bytes)) : Environment :=
  changes.filterMap (fun (name, value) => value.map (name, ·)) ++
    env.filter fun (name, _) => !(changes.any (·.1 == name))

/-- How many processors a bench has. -/
def processors : Nat := 4

end Fixture

end ShaderChain.Bench
