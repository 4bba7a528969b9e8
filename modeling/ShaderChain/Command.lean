import ShaderChain.Text.Quoting
import ShaderChain.Text.Numeral
import ShaderChain.Text.Words
import ShaderChain.Tool.Registry
import ShaderChain.Host.System

/-!
# Commands

A command is a program with its arguments. It is started as it stands, never through a shell;
`Command.render` shows it in the spelling of a shell for reports.

Two spellings in a flag string name the environment that SPIR-V is meant for: the flag and its value
as two words, and both as one word with `=` between them. `TargetEnv.value?` is the first value in
either spelling, `TargetEnv.extract` writes it as two words, and `TargetEnv.join` turns every two-word
spelling into the one-word spelling.

`Command.build` makes the command of a tool from a flag string and the path of the scratch file:
the words of the flag string are the flags, in the tool's spelling of the target environment,
and the file is the tool's input and, for a tool that emits a module, its output as well.
`Ending` is how the run of a command ends, and `Ending.result` what that means.
-/

namespace ShaderChain

/-! ## The target environment in a flag string -/

namespace TargetEnv

/-- The flag itself. -/
def flag : String := "--target-env"

/-- The one-word spelling of a value. -/
def joined (value : String) : String :=
  flag ++ "=" ++ value

/-- The value in a word of the one-word spelling; an empty value is none. -/
def joinedValue? (word : String) : Option String :=
  match (joined "").toList.isPrefixOf? word.toList with
  | some [] => none
  | some cs => some (String.ofList cs)
  | none => none

/-- The first value among these words. The word after the flag is its value, whatever it is. -/
def valueIn : List String → Option String
  | [] => none
  | [word] => if word = flag then none else joinedValue? word
  | word :: next :: rest =>
    if word = flag then some next
    else
      match joinedValue? word with
      | some value => some value
      | none => valueIn (next :: rest)

/-- The first value in a flag string. -/
def value? (flags : String) : Option String :=
  valueIn (words flags)

/-- The flag with this value, as two words; nothing without a value. -/
def spaced (value : Option String) : String :=
  match value with
  | some v => flag ++ " " ++ v
  | none => ""

/-- The part of a flag string that sets the target environment. -/
def extract (flags : String) : String :=
  spaced (value? flags)

/-- Writes the flag and the word after it as one word, wherever the flag stands. -/
def join : List String → List String
  | [] => []
  | [word] => [word]
  | word :: next :: rest =>
    if word = flag then joined next :: join rest else word :: join (next :: rest)

end TargetEnv

/-! ## Building a command -/

/-- Where the result of a command is found. -/
inductive Target where
  | stdout
  /-- The command replaces this file by a binary module. -/
  | file (path : Path)
  deriving Repr, DecidableEq

/-- A program with its arguments. -/
structure Command where
  /-- The name of the tool. -/
  tool : String
  program : Path
  args : List String
  output : Target
  deriving Repr, DecidableEq

namespace Command

/-- Whether the result replaces the scratch file. -/
def writesFile (cmd : Command) : Bool :=
  match cmd.output with
  | .file _ => true
  | .stdout => false

/-- The command as it would be typed into a shell. -/
def render (cmd : Command) : String :=
  " ".intercalate ((Utf8.lossy cmd.program :: cmd.args).map Shell.quote)

/-- The flags of a tool, from a flag string. -/
def flagArgs (style : FlagStyle) (flags : String) : List String :=
  match style with
  | .verbatim => words flags
  | .joinedTargetEnv => TargetEnv.join (words flags)

/-- The file arguments of a tool. -/
def fileArgs (emission : Emission) (scratch : Path) : List String :=
  let file := Utf8.lossy scratch
  match emission with
  | .stdout => [file]
  | .scratchFile => [file, "-o", file]

/-- Where a tool leaves its result. -/
def targetOf (emission : Emission) (scratch : Path) : Target :=
  match emission with
  | .stdout => .stdout
  | .scratchFile => .file scratch

/-- The command of a tool. -/
def build (tool : Descriptor) (flags : String) (scratch : Path) : Except LookupError Command :=
  match tool.executable with
  | none => .error .unavailable
  | some program =>
    let own := flagArgs tool.spec.flagStyle flags
    let files := fileArgs tool.spec.emission scratch
    .ok {
      tool := tool.name
      program
      args := match tool.spec.layout with
        | .standard => own ++ files
        | .scratchFirst => files ++ own
      output := targetOf tool.spec.emission scratch }

end Command

/-! ## Running a command -/

/-- How the run of a command ended. -/
inductive Ending where
  /-- The process ended; `success` tells whether it did so with status zero. -/
  | exited (success : Bool) (stdout stderr : Bytes)
  /-- The process could not be started. -/
  | unlaunched (cause : IoError)
  /-- The process was stopped because its time was over. -/
  | timedOut (limit : Span)
  deriving Repr, DecidableEq

/-- A command that failed. -/
structure Failure where
  cmd : String
  stdout : String
  stderr : String
  deriving Repr, DecidableEq

/-- The wording of a failure. -/
def Failure.message (f : Failure) : String :=
  "`" ++ f.cmd ++ "` failed: " ++ f.stderr

/-- What a run gives: the text on the standard output, or the failure. -/
def Ending.result (cmd : Command) : Ending → Except Failure String
  | .exited true stdout _ => .ok (Utf8.lossy stdout)
  | .exited false stdout stderr =>
    .error { cmd := cmd.render, stdout := Utf8.lossy stdout, stderr := Utf8.lossy stderr }
  | .unlaunched cause =>
    .error {
      cmd := cmd.render
      stdout := ""
      stderr := "failed to launch " ++ cmd.tool ++ ": " ++ cause.message }
  | .timedOut limit =>
    .error { cmd := cmd.render, stdout := "", stderr := "timed out after " ++ limit.text }

end ShaderChain
