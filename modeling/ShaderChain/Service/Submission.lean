import ShaderChain.Chain.Request
import ShaderChain.Json.Record
import ShaderChain.Service.Http

/-!
# What clients submit

The bodies of the two JSON requests, and the order in which a body is refused: by its media type
(415), by its length (413), as text that is not JSON (400), as JSON of the wrong shape (422).

A request body is read as JSON only if its media type says so: `application/json`, or a type of
the form `application/…+json`, in any case and with any parameters. `MediaType.parse` is strict:
a type that is not well-formed is no type at all.
-/

namespace ShaderChain

/-! ## Media types -/

/-- A media type without its parameters, in lower case. -/
structure MediaType where
  kind : List Char
  /-- The subtype up to its suffix. -/
  subtype : List Char
  /-- What follows the last `+` of the subtype. -/
  suffix : Option (List Char)
  deriving Repr, DecidableEq

namespace MediaType

/-- The characters of names and values. -/
def isToken (c : Char) : Bool :=
  c.isAlphanum || "!#$%&'*+-.^_|~".toList.contains c || c == Char.ofNat 0x60

/-- The characters of a value between double quotes: the printable ones of ASCII. -/
def isQuotable (c : Char) : Bool :=
  0x20 ≤ c.toNat && c.toNat < 0x7F

/-- Where a reader of parameters is. -/
inductive Position where
  /-- Before the name, where blanks may stand. -/
  | start
  | name
  /-- After the equals sign. -/
  | valueStart
  | value
  /-- Just after the opening quote, where a quote does not yet close the value. -/
  | quoteStart
  | quoted
  /-- After the closing quote, where blanks may stand. -/
  | ended
  deriving Repr, DecidableEq

/-- Goes on by one character; `none` where the parameters are not well-formed. -/
def Position.step : Position → Char → Option Position
  | .start, c => if c = ' ' then some .start else if isToken c then some .name else none
  | .name, c => if isToken c then some .name else if c = '=' then some .valueStart else none
  | .valueStart, c => if c = '"' then some .quoteStart else if isToken c then some .value else none
  | .value, c => if isToken c then some .value else if c = ';' then some .start else none
  | .quoteStart, c => if isQuotable c then some .quoted else none
  | .quoted, c => if c = '"' then some .ended else if isQuotable c then some .quoted else none
  | .ended, c => if c = ' ' then some .ended else if c = ';' then some .start else none

/-- Whether the parameters may end here. -/
def Position.final : Position → Bool
  | .start | .valueStart | .value | .ended => true
  | .name | .quoteStart | .quoted => false

/-- Whether the text after the first semicolon is a list of parameters. -/
def areParameters (cs : List Char) : Bool :=
  match cs.foldlM Position.step .start with
  | some p => p.final
  | none => false

/-- Splits a subtype at its last `+`, unless that is its first character. -/
def splitSuffix (cs : List Char) : List Char × Option (List Char) :=
  let back := cs.reverse
  let suffix := (back.takeWhile (· != '+')).reverse
  match back.dropWhile (· != '+') with
  | _ :: front => if front.isEmpty then (cs, none) else (front.reverse, some suffix)
  | [] => (cs, none)

/-- Reads a media type. -/
def parse (s : String) : Option MediaType :=
  let kind := s.toList.takeWhile isToken
  match s.toList.dropWhile isToken with
  | '/' :: rest =>
    let name := rest.takeWhile isToken
    let tail := rest.dropWhile isToken
    let wellFormed := match tail with
      | [] => true
      | ';' :: ps => !name.isEmpty && areParameters ps
      | _ => false
    if kind.isEmpty || !wellFormed then none
    else
      let (subtype, suffix) := splitSuffix name
      some {
        kind := kind.map Char.toLower
        subtype := subtype.map Char.toLower
        suffix := suffix.map (·.map Char.toLower) }
  | _ => none

/-- Whether a body of this type is JSON. -/
def isJson (t : MediaType) : Bool :=
  t.kind == "application".toList &&
    (t.subtype == "json".toList || t.suffix == some "json".toList)

end MediaType

/-! ## Bodies -/

/-- The body of a request to run a chain. -/
structure ChainSubmission where
  source : String
  first : Slot
  second : Slot
  third : Slot
  deriving Repr

/-- The body of a request to validate. -/
structure ValidationSubmission where
  spirv : String
  targetEnv : Option String
  deriving Repr

/-- The request in a submission. -/
def ChainSubmission.request (s : ChainSubmission) : Except ChainError Request :=
  Request.ofSlots s.source s.first s.second s.third

/-- A chain submission of which anything may be missing. A tool or flags that are there may
still be null. -/
structure ChainSubmission.Draft where
  source : Option String := none
  tool : Option (Option String) := none
  flags : Option (Option String) := none
  tool2 : Option (Option String) := none
  flags2 : Option (Option String) := none
  tool3 : Option (Option String) := none
  flags3 : Option (Option String) := none

/-- Reads a chain submission. Everything in it may be missing. -/
def ChainSubmission.record : Json.Record ChainSubmission.Draft ChainSubmission where
  draft := {}
  fields := [
    .of "source" (·.source) (fun d v => { d with source := some v }) Json.text,
    .of "tool" (·.tool) (fun d v => { d with tool := some v }) Json.textOrNull,
    .of "flags" (·.flags) (fun d v => { d with flags := some v }) Json.textOrNull,
    .of "tool2" (·.tool2) (fun d v => { d with tool2 := some v }) Json.textOrNull,
    .of "flags2" (·.flags2) (fun d v => { d with flags2 := some v }) Json.textOrNull,
    .of "tool3" (·.tool3) (fun d v => { d with tool3 := some v }) Json.textOrNull,
    .of "flags3" (·.flags3) (fun d v => { d with flags3 := some v }) Json.textOrNull]
  finish d := some {
    source := d.source.getD ""
    first := { tool := d.tool.join, flags := d.flags.join }
    second := { tool := d.tool2.join, flags := d.flags2.join }
    third := { tool := d.tool3.join, flags := d.flags3.join } }

/-- A validation submission of which anything may be missing. -/
structure ValidationSubmission.Draft where
  spirv : Option String := none
  targetEnv : Option (Option String) := none

/-- Reads a validation submission. The text must be there. -/
def ValidationSubmission.record :
    Json.Record ValidationSubmission.Draft ValidationSubmission where
  draft := {}
  fields := [
    .of "spirv" (·.spirv) (fun d v => { d with spirv := some v }) Json.text,
    .of "targetEnv" (·.targetEnv) (fun d v => { d with targetEnv := some v }) Json.textOrNull]
  finish d := do return { spirv := ← d.spirv, targetEnv := d.targetEnv.join }

/-- The status with which a body is refused that cannot be read. -/
def Json.Fault.status : Json.Fault → Nat
  | .malformed => 400
  | .mismatched => 422

namespace Http.Request

/-- The body, unless it is too long. -/
def limitedBody (r : Request) (maxBody : Nat) : Except Nat Bytes :=
  if r.body.length ≤ maxBody then .ok r.body else .error 413

/-- Whether the body is declared as JSON. -/
def declaresJson (r : Request) : Bool :=
  match r.contentType.bind MediaType.parse with
  | some t => t.isJson
  | none => false

/-- The value in a JSON body, or the status with which it is refused. -/
def submission (r : Request) (maxBody : Nat) (read : Json.Reader α) : Except Nat α := do
  if !r.declaresJson then .error 415
  let body ← r.limitedBody maxBody
  (Json.readFront read body).mapError Json.Fault.status

end Http.Request

end ShaderChain
