import ShaderChain.Tool.Catalog
import ShaderChain.Host.FileSystem

/-!
# The registry of tools, and how they are found

A registry holds every known tool together with where it was found. It is built once, at start,
and only read afterwards. A client may ask for a tool that is offered and has been found
(`Registry.selectable`); the service itself also uses the others (`Registry.runnable`).

A tool has an **explicit location** if its own path is configured, or if it belongs to the
SPIR-V tools and their directory is configured. What is there must be a file, else the whole
discovery fails. A tool without an explicit location is looked for in the search path, under its
default command; it keeps this bare name, and is not discovered if no directory has it.
-/

namespace ShaderChain

/-- A known tool and its executable, if there is one. An empty path is none. -/
structure Descriptor where
  spec : Spec
  executable : Option Path
  executable_ne : executable ≠ some []
  deriving Repr, DecidableEq

namespace Descriptor

/-- The tool `spec` with the executable that was found; an empty path counts as not found. -/
def of (spec : Spec) (executable : Option Path) : Descriptor where
  spec
  executable := executable.filter (!·.isEmpty)
  executable_ne := by
    intro h
    have := (Option.filter_eq_some_iff.mp h).2
    simp at this

/-- The name by which the tool is asked for. -/
def name (d : Descriptor) : String :=
  d.spec.name

/-- Whether the tool has been found. -/
def discovered (d : Descriptor) : Bool :=
  d.executable.isSome

end Descriptor

/-- Why a name does not stand for a tool that can be used. -/
inductive LookupError where
  | notFound
  | unavailable
  deriving Repr, DecidableEq

/-- Every known tool, in the order of the catalogue. -/
structure Registry where
  tools : List Descriptor
  deriving Repr

namespace Registry

/-- The tool of this name, the first if there are several. -/
def lookup (r : Registry) (name : String) : Option Descriptor :=
  r.tools.find? (·.name == name)

/-- The tool of this name if it has been found, offered or not. -/
def runnable (r : Registry) (name : String) : Except LookupError Descriptor :=
  match r.lookup name with
  | none => .error .notFound
  | some tool => if tool.discovered then .ok tool else .error .unavailable

/-- The tool of this name if a client may ask for it. A tool that is not offered is answered
like one that is not known. -/
def selectable (r : Registry) (name : String) : Except LookupError Descriptor :=
  match r.lookup name with
  | none => .error .notFound
  | some tool =>
    if !tool.spec.offered then .error .notFound
    else if tool.discovered then .ok tool
    else .error .unavailable

/-- The names that clients are offered, in the order of the registry. -/
def listed (r : Registry) : List String :=
  (r.tools.filter fun tool => tool.spec.offered && tool.discovered).map Descriptor.name

end Registry

/-! ## Discovery -/

/-- The locations that the operator has configured. -/
structure Overrides where
  /-- The path of a tool, by its name. -/
  paths : List (String × Path) := []
  /-- The directory of all SPIR-V tools. -/
  suiteDir : Option Path := none
  deriving Repr

/-- A tool whose configured location is not a file. -/
structure Misplaced where
  tool : String
  location : Path
  deriving Repr, DecidableEq

/-- The wording of a misplaced tool. -/
def Misplaced.message (m : Misplaced) : String :=
  m.tool ++ " was configured at " ++ Utf8.lossy m.location ++ ", which is not an existing file"

namespace Discovery

/-- The location that is configured for a tool. -/
def explicitLocation (overrides : Overrides) (spec : Spec) : Option Path :=
  match overrides.paths.lookup spec.name with
  | some path => some path
  | none =>
    if spec.project = .spirvTools then
      overrides.suiteDir.map fun dir => Path.join dir (Utf8.ofText spec.name)
    else none

/-- The first file of this name in the search path that has an execute bit. -/
def findInPath (fs : FileSystem) (exe : String) (searchPath : Bytes) : Option Path :=
  ((Path.directories searchPath).map fun dir => Path.join dir (Utf8.ofText exe)).find?
    fs.isExecutable

/-- The executable of a tool. -/
def resolve (fs : FileSystem) (overrides : Overrides) (searchPath : Option Bytes) (spec : Spec) :
    Except Misplaced (Option Path) :=
  match explicitLocation overrides spec with
  | some path =>
    if fs.isFile path then .ok (some path) else .error { tool := spec.name, location := path }
  | none =>
    match spec.defaultExe, searchPath with
    | some exe, some list =>
      .ok (if (findInPath fs exe list).isSome then some (Utf8.ofText exe) else none)
    | _, _ => .ok none

/-- Finds every tool of a catalogue, or fails at the first that is misplaced. -/
def discover (fs : FileSystem) (overrides : Overrides) (searchPath : Option Bytes)
    (specs : List Spec) : Except Misplaced Registry := do
  let tools ← specs.mapM fun spec => do
    return Descriptor.of spec (← resolve fs overrides searchPath spec)
  return { tools }

end Discovery

end ShaderChain
