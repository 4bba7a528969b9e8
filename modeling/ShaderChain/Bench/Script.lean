import ShaderChain.Chain.Report

/-!
# Scripted tools

The compilers that the service drives are not part of it. On a bench, each of them is played by a
scripted tool: a list of rules of which the first that applies decides what the tool writes,
prints and returns. A scripted tool recognizes its scratch file among its arguments by the name
that scratch files have, and it can quote the file's contents, their part after the first line,
the file's path and its own arguments in what it writes and prints.
-/

namespace ShaderChain.Bench

/-- What a scripted tool does in one situation. The situation is described by the contents of the
scratch file and by the arguments; a condition that is not given holds. -/
structure Rule where
  contains : Option Bytes := none
  starts : Option Bytes := none
  notStarts : Option Bytes := none
  /-- An argument that must be among the others. -/
  arg : Option Bytes := none
  /-- The new contents of the scratch file. -/
  write : Option Bytes := none
  /-- Whether the scratch file is removed. -/
  remove : Bool := false
  /-- Whether a directory takes the place of the scratch file. -/
  mkdir : Bool := false
  /-- How many bytes are printed in front of the standard error output. -/
  padStderr : Nat := 0
  /-- How many bytes are printed in front of the standard output. -/
  padStdout : Nat := 0
  stderr : Bytes := []
  stdout : Bytes := []
  /-- The exit status; of it the system keeps the last eight bits. -/
  exit : Int := 0
  /-- Whether the tool dies from a signal in the end. -/
  killed : Bool := false
  /-- Whether the tool does nothing at all for a long time. -/
  hang : Bool := false
  deriving Repr

/-- The rules of the tools, by the names of the tools. -/
abbrev Script := List (Bytes × List Rule)

/-- A tool that has been started. -/
structure Call where
  /-- The last component of the path by which it was started. -/
  tool : Bytes
  args : List Bytes
  /-- The path of its scratch file; empty if it has none. -/
  scratch : Path
  /-- The contents of its scratch file. -/
  input : Bytes
  deriving Repr, DecidableEq

/-- Whether a byte string occurs in another. -/
def occursIn (needle : Bytes) : Bytes → Bool
  | [] => needle.isEmpty
  | b :: bs => needle.isPrefixOf (b :: bs) || occursIn needle bs

/-- The argument that is a scratch file's path, the last if there are several. -/
def scratchAmong (args : List Bytes) : Path :=
  ((args.filter (occursIn (Path.slash :: scratchName))).getLast?).getD []

/-- Replaces tokens in a template in one pass from the left. The first `skip` bytes belong to a
token already replaced, and the result comes after the reversed `acc`. -/
def substitute (tokens : List (Bytes × Bytes)) (acc : Bytes) : (skip : Nat) → Bytes → Bytes
  | _, [] => acc.reverse
  | skip + 1, _ :: rest => substitute tokens acc skip rest
  | 0, b :: rest =>
    match tokens.find? fun (token, _) => token.isPrefixOf (b :: rest) with
    | some (token, value) =>
      substitute tokens (value.reverse ++ acc) (token.length - 1) rest
    | none => substitute tokens (b :: acc) 0 rest

namespace Call

/-- The sign for the scratch file among the arguments. -/
def mask : Bytes :=
  Utf8.ofText "<source>"

/-- The arguments with the scratch file's path masked. -/
def maskedArgs (c : Call) : List Bytes :=
  c.args.map fun a => if !c.scratch.isEmpty && a == c.scratch then mask else a

/-- What follows the first line of the scratch file. -/
def body (c : Call) : Bytes :=
  (c.input.dropWhile (· != 0x0A)).drop 1

/-- The values of the tokens in templates. -/
def tokens (c : Call) : List (Bytes × Bytes) :=
  [ (Utf8.ofText "@IN@", c.input),
    (Utf8.ofText "@BODY@", c.body),
    (Utf8.ofText "@PATH@", c.scratch),
    (Utf8.ofText "@ARGS@", [0x20].intercalate c.maskedArgs) ]

/-- Fills a template. -/
def fill (c : Call) (template : Bytes) : Bytes :=
  substitute c.tokens [] 0 template

end Call

namespace Rule

/-- Whether a rule applies to a call. -/
def applies (r : Rule) (c : Call) : Bool :=
  r.contains.all (occursIn · c.input) && r.starts.all (·.isPrefixOf c.input) &&
    r.notStarts.all (!·.isPrefixOf c.input) && r.arg.all c.args.contains

/-- Whether the tool ends successfully. -/
def succeeds (r : Rule) : Bool :=
  !r.killed && r.exit % 256 == 0

/-- The byte of which padding consists. -/
def pad : UInt8 := 0x78

/-- What the tool prints on its standard output. -/
def stdoutOf (r : Rule) (c : Call) : Bytes :=
  List.replicate r.padStdout pad ++ c.fill r.stdout

/-- What the tool prints on its standard error output. -/
def stderrOf (r : Rule) (c : Call) : Bytes :=
  List.replicate r.padStderr pad ++ c.fill r.stderr

end Rule

/-- What a call does: the first of its tool's rules that applies, or nothing. -/
def Script.rule (s : Script) (c : Call) : Rule :=
  ((s.lookup c.tool).getD [] |>.find? (·.applies c)).getD {}

/-! ## The usual tools -/

/-- A text in a rule. -/
def said (s : String) : Option Bytes :=
  some (Utf8.ofText s)

/-- What a module starts with. -/
def magic : Option Bytes :=
  said "BIN\n"

/-- The complaint of a tool that wants a module and does not get one. -/
def wantsModule : Rule where
  notStarts := magic
  stderr := Utf8.ofText "error: invalid SPIR-V magic number\n"
  exit := 1

/-- Stand-ins for the tools of the catalogue. A module is a text under the line `BIN`. -/
def usualScript : Script :=
  let say := Utf8.ofText
  [ (say "dxc", [
      { contains := said "SYNTAX_ERROR"
        stderr := say "@PATH@:1:1: error: syntax error\n"
        exit := 1 },
      { stdout := say "; SPIR-V (dxc)\n@IN@" }]),
    (say "glslangValidator", [
      { contains := said "SYNTAX_ERROR"
        stdout := say "ERROR: @PATH@:1: syntax error\n"
        exit := 2 },
      { write := said "BIN\n; SPIR-V (glslang)\n@IN@\n"
        stdout := say "@PATH@\n" }]),
    (say "slangc", [
      { stdout := say "; SPIR-V (slangc)\n@IN@" }]),
    (say "spirv-cross", [
      wantsModule,
      { stdout := say "#version 450\n// cross-compiled\n@BODY@" }]),
    (say "spirv-val", [
      wantsModule,
      { contains := said "INVALID"
        stderr := say "error: @PATH@: OpStore Pointer type mismatch\n"
        exit := 1 },
      { stdout := say "validator chatter\n" }]),
    (say "spirv-opt", [
      wantsModule,
      { contains := said "OPT_FAIL"
        stdout := say "@PATH@\n"
        stderr := say "error: line 3 of @PATH@\n"
        exit := 255 },
      { write := said "BIN\n@BODY@; optimized\n" }]),
    (say "spirv-as", [
      { starts := magic
        stderr := say "error: input is already a binary module\n"
        exit := 1 },
      { contains := said "BAD_ASM"
        stderr := say "@PATH@:2:5: error: Invalid Opcode name\n"
        exit := 1 },
      { write := said "BIN\n@IN@\n" }]),
    (say "spirv-dis", [
      wantsModule,
      { contains := said "DIS_FAIL"
        stderr := say "error: @PATH@: Invalid opcode: 65535\n"
        exit := 1 },
      { contains := said "DIS_SILENT"
        stdout := say "partial"
        exit := 1 },
      { stdout := say "@BODY@" }])]

end ShaderChain.Bench
