import ShaderChain.Text.Quoting
import ShaderChain.Text.Words
import ShaderChain.Host.System
import ShaderChain.Json.Value
import ShaderChain.Json.Record

/-!
# What a client is told

The results of the three jobs, and the report of a failure inside them, with the JSON forms in
which they are written and read. A result is never an error of the transport: a failed run is
answered like one that succeeded, and says so in its fields.

The path of a scratch file is random and means nothing to a client. A scrubber puts a fixed
placeholder in its place, first for the quoted spelling in which commands are shown, then for the
plain one.
-/

namespace ShaderChain

/-- What is reported of a failure; all fields are empty where nothing failed. -/
structure Report where
  cmd : String := ""
  stdout : String := ""
  stderr : String := ""
  deriving Repr, DecidableEq, Inhabited

/-- The result of running a chain of tools. -/
structure Compilation where
  success : Bool
  output : String
  error : Report
  deriving Repr, DecidableEq

/-- The result of turning a binary module into text. -/
structure Disassembly where
  success : Bool
  data : String
  deriving Repr, DecidableEq

/-- Which steps of a validation were completed. -/
structure Steps where
  assemble : Bool
  val : Bool
  opt : Bool
  dis : Bool
  deriving Repr, DecidableEq

/-- The result of assembling, validating, optimizing and disassembling. -/
structure Validation where
  success : Bool
  spirv : String
  commands : Steps
  error : Report
  deriving Repr, DecidableEq

/-- The first `n` of the four steps. -/
def Steps.first (n : Nat) : Steps where
  assemble := 1 ≤ n
  val := 2 ≤ n
  opt := 3 ≤ n
  dis := 4 ≤ n

/-- The result of a chain that gave `output`. -/
def Compilation.succeeded (output : String) : Compilation :=
  { success := true, output, error := {} }

/-- The result of a chain that failed. -/
def Compilation.failed (error : Report) : Compilation :=
  { success := false, output := "", error }

/-! ## Writing -/

/-- The JSON form of a report. -/
def Report.toJson (r : Report) : Json :=
  .obj [("cmd", .str r.cmd), ("stdout", .str r.stdout), ("stderr", .str r.stderr)]

/-- The JSON form of a compilation. -/
def Compilation.toJson (r : Compilation) : Json :=
  .obj [("success", .bool r.success), ("output", .str r.output), ("error", r.error.toJson)]

/-- The JSON form of a disassembly. -/
def Disassembly.toJson (r : Disassembly) : Json :=
  .obj [("success", .bool r.success), ("data", .str r.data)]

/-- The JSON form of the completed steps. -/
def Steps.toJson (r : Steps) : Json :=
  .obj [("as", .bool r.assemble), ("val", .bool r.val), ("opt", .bool r.opt),
    ("dis", .bool r.dis)]

/-- The JSON form of a validation. -/
def Validation.toJson (r : Validation) : Json :=
  .obj [("success", .bool r.success), ("spirv", .str r.spirv), ("commands", r.commands.toJson),
    ("error", r.error.toJson)]

/-! ## Reading -/

/-- A report of which fields may be missing. -/
structure Report.Draft where
  cmd : Option String := none
  stdout : Option String := none
  stderr : Option String := none

/-- Reads a report. -/
def Report.record : Json.Record Report.Draft Report where
  draft := {}
  fields := [
    .of "cmd" (·.cmd) (fun d v => { d with cmd := some v }) Json.text,
    .of "stdout" (·.stdout) (fun d v => { d with stdout := some v }) Json.text,
    .of "stderr" (·.stderr) (fun d v => { d with stderr := some v }) Json.text]
  finish d := do return { cmd := ← d.cmd, stdout := ← d.stdout, stderr := ← d.stderr }

/-- A compilation of which fields may be missing. -/
structure Compilation.Draft where
  success : Option Bool := none
  output : Option String := none
  error : Option Report := none

/-- Reads a compilation. -/
def Compilation.record : Json.Record Compilation.Draft Compilation where
  draft := {}
  fields := [
    .of "success" (·.success) (fun d v => { d with success := some v }) Json.flag,
    .of "output" (·.output) (fun d v => { d with output := some v }) Json.text,
    .of "error" (·.error) (fun d v => { d with error := some v }) Report.record.read]
  finish d := do return { success := ← d.success, output := ← d.output, error := ← d.error }

/-- A disassembly of which fields may be missing. -/
structure Disassembly.Draft where
  success : Option Bool := none
  data : Option String := none

/-- Reads a disassembly. -/
def Disassembly.record : Json.Record Disassembly.Draft Disassembly where
  draft := {}
  fields := [
    .of "success" (·.success) (fun d v => { d with success := some v }) Json.flag,
    .of "data" (·.data) (fun d v => { d with data := some v }) Json.text]
  finish d := do return { success := ← d.success, data := ← d.data }

/-- Steps of which some may be missing. -/
structure Steps.Draft where
  assemble : Option Bool := none
  val : Option Bool := none
  opt : Option Bool := none
  dis : Option Bool := none

/-- Reads the completed steps. -/
def Steps.record : Json.Record Steps.Draft Steps where
  draft := {}
  fields := [
    .of "as" (·.assemble) (fun d v => { d with assemble := some v }) Json.flag,
    .of "val" (·.val) (fun d v => { d with val := some v }) Json.flag,
    .of "opt" (·.opt) (fun d v => { d with opt := some v }) Json.flag,
    .of "dis" (·.dis) (fun d v => { d with dis := some v }) Json.flag]
  finish d := do
    return { assemble := ← d.assemble, val := ← d.val, opt := ← d.opt, dis := ← d.dis }

/-- A validation of which fields may be missing. -/
structure Validation.Draft where
  success : Option Bool := none
  spirv : Option String := none
  commands : Option Steps := none
  error : Option Report := none

/-- Reads a validation. -/
def Validation.record : Json.Record Validation.Draft Validation where
  draft := {}
  fields := [
    .of "success" (·.success) (fun d v => { d with success := some v }) Json.flag,
    .of "spirv" (·.spirv) (fun d v => { d with spirv := some v }) Json.text,
    .of "commands" (·.commands) (fun d v => { d with commands := some v }) Steps.record.read,
    .of "error" (·.error) (fun d v => { d with error := some v }) Report.record.read]
  finish d := do
    return {
      success := ← d.success
      spirv := ← d.spirv
      commands := ← d.commands
      error := ← d.error }

/-! ## Hiding the scratch file -/

/-- What the name of every scratch file starts with. -/
def scratchName : Bytes :=
  Utf8.ofText "spirv-playground-"

/-- What stands for the scratch file in everything that is sent to a client. -/
def placeholder : String := "<source>"

/-- The spellings of a path that are replaced, in this order. -/
structure Scrubber where
  needles : List String
  deriving Repr, DecidableEq

namespace Scrubber

/-- The scrubber of a path: its quoted spelling, if that differs, and its plain one. An empty
path is never replaced. -/
def ofPath (path : Path) : Scrubber where
  needles :=
    let plain := Utf8.lossy path
    let quoted := Shell.quote plain
    if plain.isEmpty then []
    else if quoted = plain then [plain]
    else [quoted, plain]

/-- Replaces the path in a text. -/
def scrub (s : Scrubber) (text : String) : String :=
  s.needles.foldl (fun text needle => replace needle placeholder text) text

/-- Replaces the path in all fields of a report. -/
def scrubReport (s : Scrubber) (r : Report) : Report :=
  { cmd := s.scrub r.cmd, stdout := s.scrub r.stdout, stderr := s.scrub r.stderr }

end Scrubber

/-- Replaces the path in all texts of a result. -/
def Compilation.scrubbed (r : Compilation) (s : Scrubber) : Compilation :=
  { r with output := s.scrub r.output, error := s.scrubReport r.error }

end ShaderChain
