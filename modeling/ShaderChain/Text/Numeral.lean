/-!
# Numbers in texts

`Decimal.parse bits` reads an optional `+` and one or more ASCII digits whose value fits into
`bits` bits. The digits are read from the left and the first problem decides: a character that
is no digit, or a value that no longer fits.

Time limits are whole milliseconds. `Span.text` shows them in the largest unit that keeps the number
in front of the point non-zero: seconds, with up to three decimals and no trailing zeros, else
milliseconds; the empty span is shown in nanoseconds.
-/

namespace ShaderChain

/-! ## Unsigned decimal numbers of a fixed width -/

namespace Decimal

/-- Why a text is no number of the wanted width. -/
inductive Fault where
  | empty
  | invalidDigit
  | tooLarge
  deriving Repr, DecidableEq

/-- The wording of a fault. -/
def Fault.message : Fault → String
  | .empty => "cannot parse integer from empty string"
  | .invalidDigit => "invalid digit found in string"
  | .tooLarge => "number too large to fit in target type"

/-- The value of an ASCII digit. -/
def digit? (c : Char) : Option Nat :=
  if c.isDigit then some (c.toNat - '0'.toNat) else none

/-- Reads the digits that follow those of value `n`. -/
def digits (bits n : Nat) : List Char → Except Fault Nat
  | [] => .ok n
  | c :: rest =>
    match digit? c with
    | none => .error .invalidDigit
    | some d =>
      if n * 10 + d < Nat.pow 2 bits then digits bits (n * 10 + d) rest else .error .tooLarge

/-- Reads a whole number of `bits` bits. -/
def parse (bits : Nat) (s : String) : Except Fault Nat :=
  match s.toList with
  | [] => .error .empty
  | ['+'] => .error .invalidDigit
  | '+' :: rest => digits bits 0 rest
  | cs => digits bits 0 cs

end Decimal

/-! ## Spans of time -/

/-- A span of time in milliseconds. -/
structure Span where
  millis : Nat
  deriving Repr, DecidableEq

namespace Span

/-- A span of whole seconds. -/
def ofSeconds (n : Nat) : Span :=
  ⟨n * 1000⟩

/-- The microseconds of a span. -/
def micros (t : Span) : Nat :=
  t.millis * 1000

/-- The decimals of a fraction in thousandths, without trailing zeros. -/
def decimals (thousandths : Nat) : List Char :=
  let three := [thousandths / 100, thousandths / 10 % 10, thousandths % 10].map Nat.digitChar
  (three.reverse.dropWhile (· == '0')).reverse

/-- The text of a span. -/
def text (t : Span) : String :=
  if t.millis = 0 then "0ns"
  else if t.millis < 1000 then toString t.millis ++ "ms"
  else
    let fraction := decimals (t.millis % 1000)
    let point := if fraction.isEmpty then "" else "." ++ String.ofList fraction
    toString (t.millis / 1000) ++ point ++ "s"

end Span

end ShaderChain
