import ShaderChain.Json.Value
import ShaderChain.Service.Target
import ShaderChain.Text.Utf8

/-!
# Requests and responses

The part of HTTP that the service looks at and answers with.
-/

namespace ShaderChain.Http

/-- The methods that the service tells apart. -/
inductive Method where
  | get
  | post
  deriving Repr, DecidableEq

/-- A request. -/
structure Request where
  method : Method
  target : Target
  contentType : Option String := none
  body : Bytes := []
  deriving Repr

/-- The path that is asked for. -/
def Request.path (r : Request) : String :=
  r.target.path

/-- A request whose target and media type have not been looked at. -/
structure Message where
  method : Method
  target : String
  contentType : Option String := none
  body : Bytes := []
  deriving Repr

namespace Message

/-- Why a message is not a request. -/
inductive Fault where
  | target (fault : Target.Fault)
  /-- The media type has a character that cannot be in a header. -/
  | header
  deriving Repr, DecidableEq

/-- The wording of a fault. -/
def Fault.message : Fault → String
  | .target fault => fault.message
  | .header => "failed to parse header value"

/-- A character that cannot be in a header. -/
def isControl (c : Char) : Bool :=
  c != '\t' && (c.toNat < 0x20 || c.toNat == 0x7F)

/-- The request in a message. -/
def request (m : Message) : Except Fault Request := do
  let target ← (Target.parse m.target).mapError .target
  if m.contentType.any (·.toList.any isControl) then throw .header
  return { method := m.method, target, contentType := m.contentType, body := m.body }

/-- A blank around the value of a header. -/
def isPadding (c : Char) : Bool :=
  c == ' ' || c == '\t'

/-- A message as it comes over a connection: blanks around its media type do not belong to it. -/
def received (m : Message) : Message :=
  let trimmed (s : String) : String :=
    String.ofList ((s.toList.dropWhile isPadding).reverse.dropWhile isPadding).reverse
  { m with contentType := m.contentType.map trimmed }

end Message

/-- What a response carries. -/
inductive Body where
  | none
  | json (value : Json)
  | content (type : String) (bytes : Bytes)

/-- A response. -/
structure Response where
  status : Nat
  body : Body := .none
  /-- Where else to look. -/
  location : Option String := none

/-- A response with nothing but a status. -/
def Response.bare (status : Nat) : Response :=
  { status }

/-- A response with a JSON body. -/
def Response.json (status : Nat) (value : Json) : Response :=
  { status, body := .json value }

end ShaderChain.Http
