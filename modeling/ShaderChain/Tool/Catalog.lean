/-!
# The catalogue of tools

The tools that the service knows how to drive, in the order in which they are looked for and
listed. Two of them, the assembler and the disassembler, are plumbing: the service runs them
itself between stages and does not offer them.

A tool is described by the kind of artifact it takes and makes, by where it leaves its result,
and by how its command line is laid out. `link` is the table of artifacts that may be handed on.
SPIR-V always crosses from one stage to the next as assembly text; turning it into a binary
module and back is not the tools' affair.
-/

namespace ShaderChain

/-! ## What tools take and make, and which may follow which -/

/-- What a tool takes or makes. -/
inductive Artifact where
  /-- Shading language source, or any other readable text. -/
  | text
  /-- SPIR-V, as assembly text. -/
  | spirv
  /-- Pass or fail only: nothing that another tool could take. -/
  | status
  deriving Repr, DecidableEq

/-- How an artifact is called in messages. -/
def Artifact.label : Artifact → String
  | .text => "text"
  | .spirv => "SPIR-V"
  | .status => "a pass/fail status"

/-- Where a tool leaves its result. -/
inductive Emission where
  | stdout
  /-- As a binary module in place of the file it was given. -/
  | scratchFile
  deriving Repr, DecidableEq

/-- The order of a tool's arguments. -/
inductive Layout where
  /-- Flags, then files. -/
  | standard
  /-- Files, then flags. -/
  | scratchFirst
  deriving Repr, DecidableEq

/-- How a tool wants `--target-env` spelled. -/
inductive FlagStyle where
  | verbatim
  /-- The flag and its value as one argument, with `=` between them. -/
  | joinedTargetEnv
  deriving Repr, DecidableEq

/-- Whether one artifact may be handed to a tool that takes another. -/
inductive Link where
  | allowed
  | rejected (reason : String)
  deriving Repr, DecidableEq

/-- The table of links: an artifact may be handed only to a tool that takes its own kind, and a
status to none. -/
def link (produced expected : Artifact) : Link :=
  match produced, expected with
  | .text, .text => .allowed
  | .text, .spirv => .rejected "plain text cannot be assembled into SPIR-V"
  | .spirv, .spirv => .allowed
  | .spirv, .text => .rejected "SPIR-V cannot be fed to a tool that expects source text"
  | .status, .text | .status, .spirv => .rejected "a validator produces no output to chain from"
  | _, .status => .rejected "no tool accepts this kind of input"

theorem link_eq_allowed_iff {a b : Artifact} :
    link a b = .allowed ↔ a = b ∧ a ≠ .status := by
  cases a <;> cases b <;> simp [link]

/-! ## The tools -/

/-- The project that a tool ships with. -/
inductive Project where
  | directXShaderCompiler
  | glslang
  | slang
  | spirvCross
  /-- All members of this suite can be relocated together. -/
  | spirvTools
  deriving Repr, DecidableEq

/-- What is known of a tool before it is looked for. -/
structure Spec where
  name : String
  /-- The command that is looked for; without one the tool must be configured explicitly. -/
  defaultExe : Option String
  /-- The environment variable that holds an explicit location. -/
  envVar : String
  project : Project
  input : Artifact
  output : Artifact
  emission : Emission
  layout : Layout
  flagStyle : FlagStyle
  /-- Whether clients are offered the tool. -/
  offered : Bool
  deriving Repr, DecidableEq

namespace Spec

/-- The name of the SPIR-V assembler. -/
def assemblerName : String := "spirv-as"

/-- The name of the SPIR-V disassembler. -/
def disassemblerName : String := "spirv-dis"

/-- The name of the SPIR-V validator. -/
def validatorName : String := "spirv-val"

/-- The name of the SPIR-V optimizer. -/
def optimizerName : String := "spirv-opt"

/-- The DirectX shader compiler. -/
def dxc : Spec where
  name := "dxc"
  defaultExe := some "dxc"
  envVar := "DXC_PATH"
  project := .directXShaderCompiler
  input := .text
  output := .spirv
  emission := .stdout
  layout := .standard
  flagStyle := .verbatim
  offered := true

/-- The Khronos reference compiler. -/
def glslang : Spec where
  name := "glslangValidator"
  defaultExe := some "glslangValidator"
  envVar := "GLSLANG_VALIDATOR_PATH"
  project := .glslang
  input := .text
  output := .spirv
  emission := .scratchFile
  layout := .standard
  flagStyle := .verbatim
  offered := true

/-- The Slang compiler. -/
def slang : Spec where
  name := "slangc"
  defaultExe := some "slangc"
  envVar := "SLANGC_PATH"
  project := .slang
  input := .text
  output := .spirv
  emission := .stdout
  layout := .standard
  flagStyle := .verbatim
  offered := true

/-- The cross compiler, from SPIR-V back to source text. -/
def cross : Spec where
  name := "spirv-cross"
  defaultExe := some "spirv-cross"
  envVar := "SPIRV_CROSS_PATH"
  project := .spirvCross
  input := .spirv
  output := .text
  emission := .stdout
  layout := .standard
  flagStyle := .verbatim
  offered := true

/-- The SPIR-V validator. -/
def validator : Spec where
  name := validatorName
  defaultExe := some validatorName
  envVar := "SPIRV_VAL_PATH"
  project := .spirvTools
  input := .spirv
  output := .status
  emission := .stdout
  layout := .standard
  flagStyle := .verbatim
  offered := true

/-- The SPIR-V optimizer. -/
def optimizer : Spec where
  name := optimizerName
  defaultExe := some optimizerName
  envVar := "SPIRV_OPT_PATH"
  project := .spirvTools
  input := .spirv
  output := .spirv
  emission := .scratchFile
  layout := .standard
  flagStyle := .joinedTargetEnv
  offered := true

/-- The SPIR-V assembler, plumbing. -/
def assembler : Spec where
  name := assemblerName
  defaultExe := some assemblerName
  envVar := "SPIRV_AS_PATH"
  project := .spirvTools
  input := .spirv
  output := .spirv
  emission := .scratchFile
  layout := .scratchFirst
  flagStyle := .verbatim
  offered := false

/-- The SPIR-V disassembler, plumbing. -/
def disassembler : Spec where
  name := disassemblerName
  defaultExe := some disassemblerName
  envVar := "SPIRV_DIS_PATH"
  project := .spirvTools
  input := .spirv
  output := .spirv
  emission := .stdout
  layout := .standard
  flagStyle := .verbatim
  offered := false

end Spec

/-- The known tools, in the order of search and listing. -/
def catalog : List Spec :=
  [.dxc, .glslang, .slang, .cross, .validator, .optimizer, .assembler, .disassembler]

theorem catalog_names_nodup : (catalog.map Spec.name).Nodup := by decide

end ShaderChain
