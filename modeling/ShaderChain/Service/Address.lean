/-!
# Addresses

The service listens at a numeric address: an IPv4 address of four decimal numbers without
leading zeros, or an IPv6 address in square brackets, with the usual abbreviation of zeros by
`::`, with an IPv4 address in place of the last two groups, and with a numeric scope.
-/

namespace ShaderChain

/-- A numeric internet address. -/
inductive Address where
  | v4 (octets : List Nat)
  | v6 (groups : List Nat) (scope : Nat)
  deriving Repr, DecidableEq

namespace Address

/-- Takes something off the front of a text. -/
abbrev Scan (α : Type) := List Char → Option (α × List Char)

/-- The value of a digit in a base of at most sixteen. -/
def digit? (base : Nat) (c : Char) : Option Nat :=
  let n :=
    if c.isDigit then c.toNat - '0'.toNat
    else if 'a' ≤ c ∧ c ≤ 'f' then c.toNat - 'a'.toNat + 10
    else if 'A' ≤ c ∧ c ≤ 'F' then c.toNat - 'A'.toNat + 10
    else base
  if n < base then some n else none

/-- Takes as many digits as there are. -/
def takeDigits (base : Nat) : List Char → List Nat × List Char
  | [] => ([], [])
  | c :: cs =>
    match digit? base c with
    | some d => let (ds, rest) := takeDigits base cs; (d :: ds, rest)
    | none => ([], c :: cs)

/-- Takes a number below `bound`, of at most `maxDigits` digits if that is given. -/
def number (base bound : Nat) (maxDigits : Option Nat) (zeroInFront : Bool) : Scan Nat := fun cs =>
  let (ds, rest) := takeDigits base cs
  let value := ds.foldl (fun n d => n * base + d) 0
  if ds.isEmpty || maxDigits.any (· < ds.length) then none
  else if !zeroInFront && ds.head? == some 0 && 1 < ds.length then none
  else if value < bound then some (value, rest)
  else none

/-- Takes one character. -/
def char (c : Char) : Scan Unit
  | d :: rest => if c = d then some ((), rest) else none
  | [] => none

/-- Takes a separator, unless this is the first of a series. -/
def separator (c : Char) (first : Bool) : Scan Unit := fun cs =>
  if first then some ((), cs) else char c cs

/-- Takes an IPv4 address. -/
def ipv4 : Scan (List Nat) := fun cs => do
  let octet := number 10 256 (some 3) false
  let (a, cs) ← octet cs
  let ((), cs) ← char '.' cs
  let (b, cs) ← octet cs
  let ((), cs) ← char '.' cs
  let (c, cs) ← octet cs
  let ((), cs) ← char '.' cs
  let (d, cs) ← octet cs
  return ([a, b, c, d], cs)

/-- Takes groups of an IPv6 address, at most `room` of them, and tells whether they end in an
IPv4 address. -/
def groups : (room : Nat) → (first : Bool) → List Char → List Nat × Bool × List Char
  | 0, _, cs => ([], false, cs)
  | room + 1, first, cs =>
    let embedded : Option (List Nat × List Char) :=
      if room = 0 then none
      else do
        let ((), cs) ← separator ':' first cs
        ipv4 cs
    match embedded with
    | some ([a, b, c, d], rest) => ([a * 256 + b, c * 256 + d], true, rest)
    | _ =>
      let group : Option (Nat × List Char) := do
        let ((), cs) ← separator ':' first cs
        number 16 65536 (some 4) true cs
      match group with
      | none => ([], false, cs)
      | some (g, rest) =>
        let (gs, ends, rest) := groups room false rest
        (g :: gs, ends, rest)

/-- Takes an IPv6 address. The abbreviation stands for at least one group. -/
def ipv6 : Scan (List Nat) := fun cs => do
  let (front, ends, cs) := groups 8 true cs
  if front.length = 8 then return (front, cs)
  if ends then none
  let ((), cs) ← char ':' cs
  let ((), cs) ← char ':' cs
  let (back, _, cs) := groups (7 - front.length) true cs
  return (front ++ List.replicate (8 - front.length - back.length) 0 ++ back, cs)

/-- Takes a scope, if there is one. -/
def scope (cs : List Char) : Nat × List Char :=
  let found : Option (Nat × List Char) := do
    let ((), cs) ← char '%' cs
    number 10 (Nat.pow 2 32) none true cs
  found.getD (0, cs)

/-- Reads a whole address. -/
def parse (host : String) : Option Address :=
  match host.toList with
  | '[' :: cs => do
    let (gs, cs) ← ipv6 cs
    let (id, cs) := scope cs
    if cs = [']'] then some (.v6 gs id) else none
  | cs => do
    let (octets, cs) ← ipv4 cs
    if cs.isEmpty then some (.v4 octets) else none

/-! ## Kinds of addresses -/

/-- Whether an IPv4 address is of the kinds that a machine takes without an interface that has
them: unspecified, to a group, or to everyone. -/
def isUnassigned (octets : List Nat) : Bool :=
  match octets.head? with
  | some first => first == 0 || (224 ≤ first && first < 240) || octets == [255, 255, 255, 255]
  | none => false

/-- Whether an IPv4 address is on the loopback interface. -/
def isLoopback (octets : List Nat) : Bool :=
  octets.head? == some 127

/-- The IPv4 address that an IPv6 address stands for. -/
def mapped? (groups : List Nat) : Option (List Nat) :=
  match groups with
  | [0, 0, 0, 0, 0, 0xFFFF, a, b] => some [a / 256, a % 256, b / 256, b % 256]
  | _ => none

/-- Whether an IPv6 address is one of a group. -/
def isGroup (groups : List Nat) : Bool :=
  groups.head?.any fun g => g / 256 == 0xFF

/-- Whether an IPv6 address means something on one interface only. -/
def isLinkLocal (groups : List Nat) : Bool :=
  groups.head?.any fun g => g / 64 == 0xFE80 / 64

end Address

end ShaderChain
