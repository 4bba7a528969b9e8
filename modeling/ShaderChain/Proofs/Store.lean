import ShaderChain.Chain.Job
import Mathlib.Logic.Function.Basic

/-!
# A store of scratch files

The machine on which the laws about scratch files are stated. A store tells what is at each path;
the paths of scratch files are different names for different files, so every step is a visit to one
path (`Store.visit`): it reads and changes what is there, and nothing else.

The processes are not part of the service. `Tools` is any function that tells from the command
and from what is at the scratch file's path how a process ends and what it leaves there.
-/

namespace ShaderChain

/-- What can be at a path. -/
inductive Entry where
  | file (contents : Bytes)
  /-- Something in the way that cannot be overwritten. -/
  | directory
  deriving Repr, DecidableEq

namespace Entry

/-- A new file, where nothing is. -/
def create : Option Entry → Except IoError Unit × Option Entry
  | none => (.ok (), some (.file []))
  | some entry => (.error (.os .alreadyExists), some entry)

/-- A file with these contents, in place of what is there. -/
def stage (contents : Bytes) : Option Entry → Except IoError Unit × Option Entry
  | some .directory => (.error (.os .isDirectory), some .directory)
  | some (.file _) | none => (.ok (), some (.file contents))

/-- Nothing, in place of a file. -/
def remove : Option Entry → Unit × Option Entry
  | some .directory => ((), some .directory)
  | some (.file _) | none => ((), none)

end Entry

/-- What is at each path. -/
abbrev Store := Path → Option Entry

/-- What processes do: how a program with these arguments ends, and what it leaves, if it may run
for this long and this is at the path of its scratch file. -/
abbrev Tools :=
  (program : Path) → (args : List String) → Option Span → Option Entry → Ending × Option Entry

/-- Every program prints the file that it is given, and leaves it as it is. -/
def Tools.echo : Tools
  | _, _, _, some (.file contents) => (.exited true contents [], some (.file contents))
  | _, _, _, entry => (.exited false [] [], entry)

namespace Store

variable {γ : Type}

/-- Reads and changes what is at one path. -/
def visit (path : Path) (f : Option Entry → γ × Option Entry) (s : Store) : γ × Store :=
  ((f (s path)).1, Function.update s path (f (s path)).2)

/-- Creates a scratch file at the path that was found for it, if one was found. -/
def create (given : Except IoError Path) (s : Store) : Except IoError Path × Store :=
  match given with
  | .error e => (.error e, s)
  | .ok path =>
    let (created, s) := visit path Entry.create s
    (created.map fun _ => path, s)

/-- The machine of a request for which the path `given` is found, on a store that it may share
with others. -/
def machine (tools : Tools) (given : Except IoError Path) : Machine Store where
  create _ := create given
  stage path contents := visit path (Entry.stage contents)
  launch path cmd limit := visit path (tools cmd.program cmd.args limit)
  remove path s := (visit path Entry.remove s).2

/-- The contents of the file at a path, if there is one. -/
def held (path : Path) (s : Store) : Option Bytes :=
  match s path with
  | some (.file contents) => some contents
  | some .directory | none => none

/-! ## Visits -/

/-- Two stores with the same at every path of these. -/
def SameOn (own : Path → Prop) (s s' : Store) : Prop :=
  ∀ path, own path → s path = s' path

variable {own : Path → Prop} {path : Path} {s s' : Store}

/-- A visit depends only on what is at its path. -/
theorem SameOn.visit (h : SameOn own s s') (hp : own path)
    (f : Option Entry → γ × Option Entry) :
    (visit path f s).1 = (visit path f s').1 ∧
      SameOn own (visit path f s).2 (visit path f s').2 := by
  have hpath : s path = s' path := h path hp
  refine ⟨congrArg (fun x => (f x).1) hpath, fun q hq => ?_⟩
  by_cases hqp : q = path
  · subst hqp
    simp only [Store.visit, Function.update_self, hpath]
  · simp only [Store.visit, Function.update_of_ne hqp]
    exact h q hq

/-- A visit leaves all other paths as they are. -/
theorem visit_frame (f : Option Entry → γ × Option Entry) {q : Path} (hq : q ≠ path) :
    (visit path f s).2 q = s q :=
  Function.update_of_ne hq _ _

/-- A creation answers with nothing but the path that was found. -/
theorem create_eq_ok {given : Except IoError Path} (h : (create given s).1 = .ok path) :
    given = .ok path := by
  cases given with
  | error e => cases h
  | ok p =>
    cases hs : (Entry.create (s p)).1 with
    | error e => simp [create, visit, hs, Except.map] at h
    | ok u => simpa [create, visit, hs, Except.map] using h

end Store

end ShaderChain
