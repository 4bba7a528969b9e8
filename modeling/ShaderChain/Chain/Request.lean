import ShaderChain.Command
import ShaderChain.Chain.Report

/-!
# Requests for a chain, and their plans

A request is a source text and one to three stages. A client sends the stages in three slots of
which the last ones may be empty; a slot is filled if its tool name has a character that is not
blank. `Request.ofSlots` accepts exactly the slots whose filled ones come first.

Before anything runs, the tools of a request are looked up and every stage is checked against
the one right before it (`Registry.plan`). The first problem, from the left, decides; at one stage a
tool that cannot be used comes before a tool that does not fit.

`ChainError` has these causes for which a chain of tools does not run to its end, and those of later
ones, with their wording and what of them is reported to the client.
-/

namespace ShaderChain

/-! ## What can stop a chain -/

/-- How many stages a chain can have. -/
def maxStages : Nat := 3

/-- Why a chain does not run to its end. -/
inductive ChainError where
  | noStages
  /-- The stage of this number was given, but not the one before it. -/
  | missingStage (stage : Nat)
  | tooManyStages
  | unknownTool (name : String)
  | unavailable (name : String)
  /-- What `producer` makes cannot be handed to `consumer`. -/
  | incompatible (producer consumer reason : String)
  | command (failure : Failure)
  | scratch (cause : IoError)
  deriving Repr, DecidableEq

namespace ChainError

/-- The cause when a name cannot be used as a tool. -/
def ofLookup (name : String) : LookupError → ChainError
  | .notFound => .unknownTool name
  | .unavailable => .unavailable name

/-- The wording of a cause. -/
def message : ChainError → String
  | .noStages => "no tool was requested"
  | .missingStage stage =>
    "stage " ++ toString stage ++ " was supplied without stage " ++ toString (stage - 1)
  | .tooManyStages => "at most " ++ toString maxStages ++ " stages can be chained"
  | .unknownTool name => "unknown tool: " ++ name
  | .unavailable name => name ++ " is not available on this server"
  | .incompatible producer consumer reason =>
    producer ++ " cannot be followed by " ++ consumer ++ ": " ++ reason
  | .command failure => failure.message
  | .scratch cause => "scratch file error: " ++ cause.message

/-- The group that a cause belongs to. -/
def kind : ChainError → String
  | .noStages | .missingStage _ | .tooManyStages => "request"
  | .unknownTool _ | .unavailable _ => "tool"
  | .incompatible .. => "incompatible"
  | .command _ => "command"
  | .scratch _ => "scratch"

/-- What is reported of a cause: of a failed command its three texts, of all else the wording. -/
def report : ChainError → Report
  | .command f => { cmd := f.cmd, stdout := f.stdout, stderr := f.stderr }
  | e => { stderr := e.message }

end ChainError

/-! ## Requests -/

/-- One requested run of a tool. -/
structure Stage where
  tool : String
  flags : String
  deriving Repr, DecidableEq

/-- A source text and the stages that it is to go through. -/
structure Request where
  source : String
  stages : List Stage
  stages_ne : stages ≠ []
  stages_le : stages.length ≤ maxStages
  deriving Repr, DecidableEq

/-- A tool name and a flag string, each of which may be missing. -/
structure Slot where
  tool : Option String := none
  flags : Option String := none
  deriving Repr, DecidableEq

namespace Slot

/-- The stage in a slot, if it is filled: the name is trimmed, missing flags are empty. -/
def stage? (s : Slot) : Option Stage :=
  match s.tool with
  | none => none
  | some name =>
    if isBlankText name then none else some { tool := trim name, flags := s.flags.getD "" }

end Slot

namespace Request

/-- A request with these stages. -/
def ofStages (source : String) (stages : List Stage) : Except ChainError Request :=
  if ne : stages = [] then .error .noStages
  else if le : stages.length ≤ maxStages then
    .ok { source, stages, stages_ne := ne, stages_le := le }
  else .error .tooManyStages

/-- The stages of slots, of which the first has the number `number`. After an empty slot
(`ended`) a filled one is refused. -/
def stagesOf (number : Nat) (ended : Bool) : List Slot → Except ChainError (List Stage)
  | [] => .ok []
  | slot :: rest =>
    match slot.stage? with
    | none => stagesOf (number + 1) true rest
    | some stage =>
      if ended then .error (.missingStage number)
      else (stagesOf (number + 1) false rest).map (stage :: ·)

/-- A request from the three slots that a client sends. -/
def ofSlots (source : String) (first second third : Slot) : Except ChainError Request := do
  ofStages source (← stagesOf 1 false [first, second, third])

end Request

/-! ## Plans -/

/-- A stage whose tool has been looked up. -/
structure PlannedStage where
  tool : Descriptor
  flags : String
  deriving Repr, DecidableEq

namespace Registry

/-- Checks a tool against the one before it. -/
def checkLink (previous : Option Descriptor) (tool : Descriptor) : Except ChainError Unit :=
  match previous with
  | none => .ok ()
  | some before =>
    match link before.spec.output tool.spec.input with
    | .allowed => .ok ()
    | .rejected reason => .error (.incompatible before.name tool.name reason)

/-- The plan of stages that follow the tool `previous`. -/
def planAfter (r : Registry) (previous : Option Descriptor) :
    List Stage → Except ChainError (List PlannedStage)
  | [] => .ok []
  | stage :: rest =>
    match r.selectable stage.tool with
    | .error e => .error (.ofLookup stage.tool e)
    | .ok tool =>
      match checkLink previous tool with
      | .error e => .error e
      | .ok () => (r.planAfter (some tool) rest).map ({ tool, flags := stage.flags } :: ·)

/-- The plan of a request. -/
def plan (r : Registry) (request : Request) : Except ChainError (List PlannedStage) :=
  r.planAfter none request.stages

end Registry

end ShaderChain
