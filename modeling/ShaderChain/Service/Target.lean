/-!
# Request targets

What a request asks for: a path and possibly a query, written alone or at the end of a whole
address with a scheme and a host. A fragment after `#` is dropped. A bare host is a target too,
without a path. `Target.parse` refuses a target with a character that has to be escaped, or with
a host that is not well-formed, and tells the first fault from the left.
-/

namespace ShaderChain.Http

/-- The scheme and the host of a whole address. -/
structure Origin where
  scheme : String
  host : String
  deriving Repr, DecidableEq

/-- What a request asks for. -/
structure Target where
  origin : Option Origin := none
  /-- What is compared with the routes; empty for a bare host. -/
  path : String
  query : Option String := none
  deriving Repr, DecidableEq

namespace Target

/-- Why something is not a target. -/
inductive Fault where
  | empty
  | tooLong
  | schemeTooLong
  /-- The brackets, colons, users or percent signs of a host do not fit together. -/
  | host
  /-- A character that has to be escaped. -/
  | character
  /-- There is something else beside a bare host, or there is no host after a scheme. -/
  | format
  deriving Repr, DecidableEq

/-- The wording of a fault. -/
def Fault.message : Fault → String
  | .empty => "empty string"
  | .tooLong => "uri too long"
  | .schemeTooLong => "scheme too long"
  | .host => "invalid authority"
  | .character => "invalid uri character"
  | .format => "invalid format"

/-- Whether a code point is in one of these ranges, both ends included. -/
def within (ranges : List (Nat × Nat)) (c : Char) : Bool :=
  ranges.any fun (first, last) => first ≤ c.toNat && c.toNat ≤ last

/-- The characters of a path. Double quotes and braces are let through. -/
def isPathChar (c : Char) : Bool :=
  within [(0x21, 0x22), (0x24, 0x3B), (0x3D, 0x3D), (0x40, 0x5F), (0x61, 0x10FFFF)] c

/-- The characters of a query. -/
def isQueryChar (c : Char) : Bool :=
  within [(0x21, 0x21), (0x24, 0x3B), (0x3D, 0x3D), (0x3F, 0x10FFFF)] c

/-- The characters with which what is before them ends. -/
def isDelimiter (c : Char) : Bool :=
  c == '/' || c == '?' || c == '#'

/-! ## Hosts -/

/-- The characters of a host, with its user and its port, that mean nothing special. -/
def isHostChar (c : Char) : Bool :=
  c.isAlphanum || "!$&'()*+,-.;=_~".toList.contains c

/-- What has been seen of a host. -/
structure HostScan where
  colons : Nat := 0
  opened : Bool := false
  closed : Bool := false
  percent : Bool := false
  /-- Whether the last character ended a user. -/
  userEnded : Bool := false

/-- The most colons in an address between brackets, with the one of the port. -/
def maxColons : Nat := 8

/-- Goes on by one character. What comes before `@` is a user, in which colons and percent signs
count for nothing, and neither do those between brackets. -/
def HostScan.step (s : HostScan) (c : Char) : Except Fault HostScan :=
  let s := { s with userEnded := false }
  if c = ':' then
    if s.colons < maxColons then .ok { s with colons := s.colons + 1 } else .error .host
  else if c = '[' then
    if s.percent || s.opened then .error .host else .ok { s with opened := true }
  else if c = ']' then
    if s.opened && !s.closed then .ok { s with closed := true, colons := 0, percent := false }
    else .error .host
  else if c = '@' then .ok { s with colons := 0, percent := false, userEnded := true }
  else if c = '%' then .ok { s with percent := true }
  else if isHostChar c then .ok s
  else .error .character

/-- Whether a host may end here. -/
def HostScan.final (s : HostScan) : Bool :=
  s.opened == s.closed && s.colons ≤ 1 && !s.userEnded && !s.percent

/-- Takes a host off the front, which may be empty. -/
def takeHost (cs : List Char) : Except Fault (String × List Char) := do
  let host := cs.takeWhile (!isDelimiter ·)
  let scan ← host.foldlM HostScan.step {}
  if !scan.final then throw .host
  return (String.ofList host, cs.dropWhile (!isDelimiter ·))

/-! ## Whole targets -/

/-- The characters of a scheme. -/
def isSchemeChar (c : Char) : Bool :=
  c.isAlphanum || "+-.~".toList.contains c

/-- The longest scheme. -/
def maxScheme : Nat := 64

/-- The two schemes that are known are written in lower case. -/
def schemeName (cs : List Char) : String :=
  let lowered := String.ofList (cs.map Char.toLower)
  if lowered = "http" || lowered = "https" then lowered else String.ofList cs

/-- Takes a scheme off the front, if there is one, with the three characters after it. -/
def takeScheme (cs : List Char) : Except Fault (Option String × List Char) :=
  match cs.dropWhile isSchemeChar with
  | ':' :: '/' :: '/' :: rest =>
    let name := cs.takeWhile isSchemeChar
    if name.length ≤ maxScheme then .ok (some (schemeName name), rest) else .error .schemeTooLong
  | _ => .ok (none, cs)

/-- A target with this path and query. -/
def ofPath (origin : Option Origin) (cs : List Char) : Except Fault Target :=
  let path := cs.takeWhile fun c => c != '?' && c != '#'
  let query := match cs.dropWhile fun c => c != '?' && c != '#' with
    | '?' :: rest => some (rest.takeWhile (· != '#'))
    | _ => none
  if path.all isPathChar && query.all (·.all isQueryChar) then
    .ok {
      origin
      path := if path.isEmpty then "/" else String.ofList path
      query := query.map String.ofList }
  else .error .character

/-- A target that starts with a scheme or a host. -/
def ofWhole (cs : List Char) : Except Fault Target := do
  let (scheme, afterScheme) ← takeScheme cs
  let (host, rest) ← takeHost afterScheme
  match scheme with
  | some scheme =>
    if host.isEmpty then throw .format
    ofPath (some { scheme, host }) rest
  | none => if rest.isEmpty then return { path := "" } else throw .format

/-- The longest target, in bytes. -/
def maxBytes : Nat := 65534

/-- Reads a target. -/
def parse (s : String) : Except Fault Target :=
  if maxBytes < s.utf8ByteSize then .error .tooLong
  else
    match s.toList with
    | [] => .error .empty
    | ['*'] => .ok { path := "*" }
    | ['?'] | ['#'] => .error .character
    | '/' :: cs => ofPath none ('/' :: cs)
    | cs => ofWhole cs

/-- A target with a path, as it is written. -/
def render (t : Target) : String :=
  let origin := match t.origin with
    | some o => o.scheme ++ "://" ++ o.host
    | none => ""
  let query := match t.query with
    | some q => "?" ++ q
    | none => ""
  origin ++ t.path ++ query

end Target

end ShaderChain.Http
