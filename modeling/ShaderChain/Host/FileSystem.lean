import ShaderChain.Host.System

/-!
# File systems, and the programs in them

A file system is a finite map from locations, lists of names from the root, to nodes: files with
a mode and contents, directories, and symbolic links. `FileSystem.locate` follows a path to the
node that it names, through links, and gives the errors that the operating system gives; reading,
writing, creating and removing are defined by it. The process that asks owns every file and has no
privileges; files have no mode that would keep their owner from reading and writing, so that modes
matter only for starting programs.

`FileSystem.launch` tells which file the operating system starts for a command. A program with a
slash in it is a path and is used as it is; one without is searched in the directories of `PATH`, in
order (`FileSystem.search`). A candidate that is missing or may not be executed is passed over; if
nothing better follows, the refusal is reported in preference to the absence. A directory whose
name is too long is not searched (`searchedDirectories`).
-/

namespace ShaderChain

/-- The names on the way from the root. -/
abbrev Location := List Bytes

/-- What can be found at a location. -/
inductive Node where
  /-- A regular file. `runs` holds of a file that the system can start as a program. -/
  | file (mode : Nat) (contents : Bytes) (runs : Bool)
  | directory
  | link (target : Path)
  deriving Repr, DecidableEq

/-- Whether this is a regular file. -/
def Node.isFile : Node → Bool
  | .file .. => true
  | _ => false

/-- Whether this is a regular file with an execute bit. -/
def Node.isExecutable : Node → Bool
  | .file mode _ _ => mode &&& 0o111 != 0
  | _ => false

/-- Whether this is a regular file that its owner may execute. -/
def Node.ownerMayExecute : Node → Bool
  | .file mode _ _ => mode &&& 0o100 != 0
  | _ => false

/-- A file system and the directory in which relative paths start. -/
structure FileSystem where
  nodes : List (Location × Node) := []
  cwd : Location := []
  deriving Repr

namespace FileSystem

/-- The node at a location; the root is a directory. -/
def get? (fs : FileSystem) (loc : Location) : Option Node :=
  if loc.isEmpty then some .directory else fs.nodes.lookup loc

/-- Puts a node at a location. -/
def insert (fs : FileSystem) (loc : Location) (node : Node) : FileSystem :=
  { fs with nodes := (loc, node) :: fs.nodes.filter (·.1 != loc) }

/-- Leaves nothing at a location. -/
def erase (fs : FileSystem) (loc : Location) : FileSystem :=
  { fs with nodes := fs.nodes.filter (·.1 != loc) }

/-! ## Following a path -/

/-- How many links are followed on the way to one node. -/
def maxLinks : Nat := 40

/-- The longest name of a node, in bytes. -/
def maxName : Nat := 255

/-- The longest path, in bytes. -/
def maxPath : Nat := 4095

/-- Goes on from the location `loc` by the given names. `follow` goes on where a link leads. Nothing
need be at the last name if something is to be created there. -/
def walkBy (fs : FileSystem) (create : Bool)
    (follow : Location → List Bytes → Except Errno Location) (loc : Location) :
    List Bytes → Except Errno Location
  | [] => .ok loc
  | name :: rest =>
    if fs.get? loc != some .directory then .error .notDirectory
    else if name == Path.here then walkBy fs create follow loc rest
    else if name == Path.above then walkBy fs create follow loc.dropLast rest
    else if maxName < name.length then .error .nameTooLong
    else
      let next := loc ++ [name]
      match fs.get? next with
      | none => if create && rest.isEmpty then .ok next else .error .noEntry
      | some (.link target) =>
        follow (if Path.isAbsolute target then [] else loc) (Path.components target ++ rest)
      | some _ => walkBy fs create follow next rest

/-- Goes on from a location by the given names, through at most `links` links. -/
def walk (fs : FileSystem) (create : Bool) :
    (links : Nat) → Location → List Bytes → Except Errno Location
  | 0 => fs.walkBy create fun _ _ => .error .tooManyLinks
  | links + 1 => fs.walkBy create (fs.walk create links)

/-- Where a path starts. -/
def start (fs : FileSystem) (p : Path) : Location :=
  if Path.isAbsolute p then [] else fs.cwd

/-- The location of the node that a path names, or of the one that is to be created for it. -/
def locateFor (fs : FileSystem) (create : Bool) (p : Path) : Except Errno Location :=
  if p.isEmpty then .error .noEntry
  else if maxPath < p.length then .error .nameTooLong
  else fs.walk create maxLinks (fs.start p) (Path.components p)

/-- The location of the node that a path names. -/
def locate (fs : FileSystem) (p : Path) : Except Errno Location :=
  fs.locateFor false p

/-- The node that a path names. -/
def stat (fs : FileSystem) (p : Path) : Except Errno Node := do
  let loc ← fs.locate p
  match fs.get? loc with
  | some node => .ok node
  | none => .error .noEntry

/-- Whether a path names a regular file. -/
def isFile (fs : FileSystem) (p : Path) : Bool :=
  match fs.stat p with
  | .ok node => node.isFile
  | .error _ => false

/-- Whether a path names a regular file with an execute bit. -/
def isExecutable (fs : FileSystem) (p : Path) : Bool :=
  match fs.stat p with
  | .ok node => node.isExecutable
  | .error _ => false

/-- Whether a path names anything. -/
def pathExists (fs : FileSystem) (p : Path) : Bool :=
  (fs.stat p).isOk

/-- The location at which a path would have its node, whether or not there is one: its last
name in the directory that the names before it lead to. -/
def locateEntry (fs : FileSystem) (p : Path) : Except Errno Location :=
  let names := Path.components p
  match names.getLast? with
  | none => .error .noEntry
  | some name =>
    if maxPath < p.length then .error .nameTooLong
    else do
      let dir ← fs.walk false maxLinks (fs.start p) (names.dropLast ++ [Path.here])
      if name == Path.here || name == Path.above then .error .isDirectory
      else if maxName < name.length then .error .nameTooLong
      else .ok (dir ++ [name])

/-! ## Files -/

/-- The contents of the file that a path names. -/
def read (fs : FileSystem) (p : Path) : Except Errno Bytes := do
  match ← fs.stat p with
  | .file _ contents _ => .ok contents
  | _ => .error .isDirectory

/-- The mode of a file that is created. -/
def newMode : Nat := 0o644

/-- Replaces the contents of the file that a path names, creating it if there is none. A link is
followed in either case. -/
def write (fs : FileSystem) (p : Path) (contents : Bytes) : Except Errno FileSystem := do
  let loc ← fs.locateFor true p
  match fs.get? loc with
  | none => .ok (fs.insert loc (.file newMode contents false))
  | some (.file mode _ runs) => .ok (fs.insert loc (.file mode contents runs))
  | some _ => .error .isDirectory

/-- Creates an empty file at a path where nothing is, for its owner alone. -/
def create (fs : FileSystem) (p : Path) : Except Errno FileSystem := do
  let loc ← fs.locateEntry p
  match fs.get? loc with
  | some _ => .error .alreadyExists
  | none => .ok (fs.insert loc (.file 0o600 [] false))

/-- Removes what is at a path, unless it is a directory. -/
def remove (fs : FileSystem) (p : Path) : FileSystem :=
  match fs.locateEntry p with
  | .ok loc => if fs.get? loc == some .directory then fs else fs.erase loc
  | .error _ => fs

/-- Makes a directory at a path where nothing is. -/
def makeDirectory (fs : FileSystem) (p : Path) : FileSystem :=
  match fs.locateEntry p with
  | .ok loc => if (fs.get? loc).isSome then fs else fs.insert loc .directory
  | .error _ => fs

/-- The names in the directory that a path names. -/
def names (fs : FileSystem) (p : Path) : List Bytes :=
  match fs.locate p with
  | .ok loc => fs.nodes.filterMap fun (l, _) =>
      if l.dropLast == loc && !l.isEmpty then l.getLast? else none
  | .error _ => []

/-- Makes the directories on the way of a path, and the one that it names, where nothing is. -/
def makeDirectories (fs : FileSystem) (p : Path) : FileSystem :=
  let names := Path.components p
  let ways := (List.range names.length).map fun n =>
    let way := [Path.slash].intercalate (names.take (n + 1))
    if Path.isAbsolute p then Path.slash :: way else way
  ways.foldl makeDirectory fs

/-- Puts a node at a path, in place of what is there, and makes the directories on the way. -/
def plant (fs : FileSystem) (p : Path) (node : Node) : FileSystem :=
  if node = .directory then fs.makeDirectories p
  else
    let fs := fs.makeDirectories (Path.parent p)
    match fs.locateEntry p with
    | .ok loc => fs.insert loc node
    | .error _ => fs

/-! ## Starting programs -/

/-- The longest single argument of a program, with the byte that ends it. -/
def maxArgument : Nat := 131072

/-- Starts the file at a path, if it can be started with these arguments. -/
def execute (fs : FileSystem) (args : List Bytes) (p : Path) : Except Errno Path := do
  match ← fs.stat p with
  | .file mode contents runs =>
    if !(Node.file mode contents runs).ownerMayExecute then .error .denied
    else if args.any (maxArgument ≤ ·.length) then .error .argumentsTooLong
    else if runs then .ok p
    else .error .badExecutable
  | _ => .error .denied

/-- The path of a program in one element of a search list. -/
def candidate (dir program : Path) : Path :=
  if dir.isEmpty then program else dir ++ Path.slash :: program

/-- Starts the first file of this name in the given directories that can be executed. `denied`
tells whether one before was refused, and `last` is how the one before failed. -/
def search (fs : FileSystem) (args : List Bytes) (program : Path) (denied : Bool) (last : Errno) :
    List Path → Except Errno Path
  | [] => .error (if denied then .denied else last)
  | dir :: rest =>
    match fs.execute args (candidate dir program) with
    | .ok p => .ok p
    | .error .denied => search fs args program true .denied rest
    | .error .noEntry => search fs args program denied .noEntry rest
    | .error .notDirectory => search fs args program denied .notDirectory rest
    | .error e => .error e

/-- The longest name of a directory that is searched, in bytes. -/
def maxSearched : Nat := 4095

/-- The directories that are searched, of those in the list. One with too long a name is left
out if it is the last, and otherwise the working directory is searched in its place. -/
def searchedDirectories : List Path → List Path
  | [] => []
  | [dir] => if maxSearched < dir.length then [] else [dir]
  | dir :: rest => (if maxSearched < dir.length then [] else dir) :: searchedDirectories rest

/-- The search list of a process without one. -/
def defaultSearchPath : Bytes :=
  Utf8.ofText "/bin:/usr/bin"

/-- Starts a program by its name or path. The answer is the path by which it was started. -/
def launch (fs : FileSystem) (searchPath : Option Bytes) (program : Path) (args : List Bytes) :
    Except IoError Path :=
  if (program :: args).any (·.contains 0) then
    .error (.other "nul byte found in provided data")
  else if program.isEmpty then .error (.os .noEntry)
  else
    let started :=
      if program.contains Path.slash then fs.execute args program
      else
        fs.search args program false .noEntry
          (searchedDirectories (Path.directories (searchPath.getD defaultSearchPath)))
    started.mapError .os

end FileSystem

end ShaderChain
