/-!
# JSON values and their text

The values that cross the service's boundary. `Json.render` writes the compact text: no blanks,
members in the order of the list, and in strings an escape for `"`, `\` and the control
characters below U+0020 only.

A number is read into a 64-bit significand and a decimal exponent, and must be representable
as a double. `Number.inRange` decides this without computing the double: digits are taken into
the significand as long as it fits into 64 bits, and the product of the significand and the
power of ten, both rounded to 53 bits, must stay below the least value that rounds to infinity.
-/

namespace ShaderChain

/-- A JSON value; the members of an object keep their order. -/
inductive Json where
  | null
  | bool (value : Bool)
  | num (value : Int)
  | str (value : String)
  | arr (items : List Json)
  | obj (members : List (String × Json))
  deriving Repr, Inhabited

namespace Json

/-- A character inside a JSON string. -/
def escape (c : Char) : List Char :=
  if c = '"' then ['\\', '"']
  else if c = '\\' then ['\\', '\\']
  else if c.toNat = 0x08 then ['\\', 'b']
  else if c.toNat = 0x0C then ['\\', 'f']
  else if c = '\n' then ['\\', 'n']
  else if c = '\r' then ['\\', 'r']
  else if c = '\t' then ['\\', 't']
  else if c.toNat < 0x20 then
    ['\\', 'u', '0', '0', Nat.digitChar (c.toNat / 16), Nat.digitChar (c.toNat % 16)]
  else [c]

/-- A string between its quotes. -/
def renderText (s : String) : List Char :=
  '"' :: s.toList.flatMap escape ++ ['"']

/-- The compact text of a value. -/
def renderOf : Json → List Char
  | .null => "null".toList
  | .bool true => "true".toList
  | .bool false => "false".toList
  | .num n => (toString n).toList
  | .str s => renderText s
  | .arr items => '[' :: renderItems items ++ [']']
  | .obj members => '\x7b' :: renderMembers members ++ ['\x7d']
where
  /-- The items of an array, with commas between them. -/
  renderItems : List Json → List Char
    | [] => []
    | [v] => renderOf v
    | v :: rest => renderOf v ++ ',' :: renderItems rest
  /-- The members of an object, with commas between them. -/
  renderMembers : List (String × Json) → List Char
    | [] => []
    | [(k, v)] => renderText k ++ ':' :: renderOf v
    | (k, v) :: rest => renderText k ++ ':' :: renderOf v ++ ',' :: renderMembers rest

/-- The compact text of a value. -/
def render (v : Json) : String :=
  String.ofList v.renderOf

/-! ## The size of a number -/

/-- The parts of a number's text, without its sign. -/
structure Number where
  whole : List Nat
  fraction : List Nat := []
  /-- Whether the exponent is negative, and its digits. -/
  exponent : Option (Bool × List Nat) := none
  deriving Repr, DecidableEq

namespace Number

/-- Takes decimal digits into a significand until it would no longer fit into 64 bits; the
digits that are left follow. -/
def absorb (n : Nat) : List Nat → Nat × List Nat
  | [] => (n, [])
  | d :: rest => if n * 10 + d < Nat.pow 2 64 then absorb (n * 10 + d) rest else (n, d :: rest)

/-- The value of decimal digits. -/
def ofDigits (ds : List Nat) : Nat :=
  ds.foldl (fun n d => n * 10 + d) 0

/-- Rounds to 53 significant bits, a half going to the even neighbour. -/
def round53 (n : Nat) : Nat :=
  if n < Nat.pow 2 53 then n
  else
    let shift := n.log2 - 52
    let kept := n / Nat.pow 2 shift
    let lost := n % Nat.pow 2 shift
    let half := Nat.pow 2 (shift - 1)
    (if half < lost ∨ (lost = half ∧ kept % 2 = 1) then kept + 1 else kept) * Nat.pow 2 shift

/-- The least number that is rounded to infinity rather than to the greatest double. -/
def overflowBound : Nat :=
  Nat.pow 2 1024 - Nat.pow 2 970

/-- The largest exponent that is read; a larger one counts as beyond every double. -/
def maxExponent : Nat :=
  Nat.pow 2 31 - 1

/-- Whether the number is representable as a double. -/
def inRange (x : Number) : Bool :=
  let (n, wholeLeft) := absorb 0 x.whole
  let (n, fractionLeft) := absorb n x.fraction
  let scale : Int := wholeLeft.length - (x.fraction.length - fractionLeft.length)
  let scaled (e : Int) : Bool :=
    e < 0 || (e ≤ 308 && round53 n * round53 (Nat.pow 10 e.toNat) < overflowBound)
  n == 0 ||
    match x.exponent with
    | none => scaled scale
    | some (negative, ds) =>
      let e := ofDigits ds
      if maxExponent < e then negative
      else scaled (if negative then scale - e else scale + e)

end Number

end Json

end ShaderChain
