import ShaderChain.Bench.World

/-!
# Trying out a scratch file

One scratch file is created, given one contents after another, and removed, as every job does
around its commands.
-/

namespace ShaderChain.Bench

/-- What was seen of a scratch file. -/
structure ScratchTrial where
  path : Path
  /-- The contents of the file after each staging. -/
  seen : List Bytes
  /-- Whether the file was there before it was removed, and after. -/
  existed : Bool
  remains : Bool

namespace ScratchTrial

/-- Stages contents one after another and reads the file after each. -/
def stageAll (path : Path) (w : World) : List Bytes → Except IoError (List Bytes × World)
  | [] => .ok ([], w)
  | contents :: rest => do
    let (staged, w) := w.stage path contents
    staged
    let seen ← (w.files.read path).mapError .os
    let (others, w) ← stageAll path w rest
    return (seen :: others, w)

/-- Creates a scratch file in a directory and tries it out. -/
def run (w : World) (dir : Option Path) (contents : List Bytes) : Except IoError ScratchTrial := do
  let (created, w) := w.create dir
  let path ← created
  let (seen, w) ← stageAll path w contents
  return {
    path
    seen
    existed := w.files.pathExists path
    remains := (w.remove path).files.pathExists path }

/-- The name of the directory that a path is in. -/
def parentName (path : Path) : Bytes :=
  let names := (Path.components path).filter (· != Path.here)
  (names.dropLast.getLast?).getD []

end ScratchTrial

end ShaderChain.Bench
