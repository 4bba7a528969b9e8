import ShaderChain.Text.Utf8
import ShaderChain.Json.Value

/-!
# Reading JSON

A strict reader that goes through its input once. It is given `Symbols`, the characters of the
text with `none` where the bytes are not UTF-8, since damage matters only where a text is kept:
the strings of members that nobody asked for are passed over whatever their bytes are.

A reader stops at the first problem it meets, and there are two kinds: text that is not JSON
(`Fault.malformed`), and JSON of another type than the wanted one (`Fault.mismatched`). A value
of the wrong type is itself read far enough to tell these apart.
-/

namespace ShaderChain.Json

/-- The characters of a text, with `none` for each damaged place. -/
abbrev Symbols := List (Option Char)

/-- Why a text is refused. -/
inductive Fault where
  /-- It is not JSON. -/
  | malformed
  /-- It is not of the wanted type. -/
  | mismatched
  deriving Repr, DecidableEq

/-- Reads a value off the front and leaves the rest. -/
abbrev Reader (α : Type) := Symbols → Except Fault (α × Symbols)

/-- A blank between tokens. -/
def isGap (s : Option Char) : Bool :=
  s == some ' ' || s == some '\n' || s == some '\t' || s == some '\r'

/-- Drops the blanks in front of a token. -/
def skipGap (s : Symbols) : Symbols :=
  s.dropWhile isGap

/-- Reads exactly these characters. -/
def expect : List Char → Symbols → Except Fault Symbols
  | [], s => .ok s
  | c :: cs, some d :: s => if c = d then expect cs s else .error .malformed
  | _ :: _, _ => .error .malformed

/-! ## Strings -/

/-- A part of a string between the quotes. -/
inductive Piece where
  | plain (c : Char)
  /-- A UTF-16 unit, from an escape with four hexadecimal digits. -/
  | unit (n : Nat)
  | damaged
  deriving Repr, DecidableEq

/-- The value of a hexadecimal digit of either case. -/
def hexDigit? (s : Option Char) : Option Nat :=
  match s with
  | none => none
  | some c =>
    if '0' ≤ c ∧ c ≤ '9' then some (c.toNat - '0'.toNat)
    else if 'a' ≤ c ∧ c ≤ 'f' then some (c.toNat - 'a'.toNat + 10)
    else if 'A' ≤ c ∧ c ≤ 'F' then some (c.toNat - 'A'.toNat + 10)
    else none

/-- The value of four hexadecimal digits. -/
def unit? (a b c d : Option Char) : Option Nat := do
  let a ← hexDigit? a
  let b ← hexDigit? b
  let c ← hexDigit? c
  let d ← hexDigit? d
  return ((a * 16 + b) * 16 + c) * 16 + d

/-- The character that a one-letter escape stands for. -/
def escaped? (c : Char) : Option Char :=
  if c = '"' ∨ c = '\\' ∨ c = '/' then some c
  else if c = 'b' then some (Char.ofNat 0x08)
  else if c = 'f' then some (Char.ofNat 0x0C)
  else if c = 'n' then some '\n'
  else if c = 'r' then some '\r'
  else if c = 't' then some '\t'
  else none

/-- Reads the pieces of a string up to its closing quote, after the pieces `acc`, which are in
reverse order. -/
def pieces (acc : List Piece) : Reader (List Piece)
  | [] => .error .malformed
  | none :: s => pieces (.damaged :: acc) s
  | some c :: s =>
    if c = '"' then .ok (acc.reverse, s)
    else if c = '\\' then
      match s with
      | some 'u' :: h₁ :: h₂ :: h₃ :: h₄ :: s =>
        match unit? h₁ h₂ h₃ h₄ with
        | some n => pieces (.unit n :: acc) s
        | none => .error .malformed
      | some e :: s =>
        match escaped? e with
        | some d => pieces (.plain d :: acc) s
        | none => .error .malformed
      | _ => .error .malformed
    else if c.toNat < 0x20 then .error .malformed
    else pieces (.plain c :: acc) s

/-- The characters of the pieces, after the reversed `acc`. A unit from the surrogate range is
accepted only as a pair, first the high and then the low half; a damaged piece is not. -/
def joined? (acc : List Char) : List Piece → Option (List Char)
  | [] => some acc.reverse
  | .plain c :: rest => joined? (c :: acc) rest
  | .damaged :: _ => none
  | .unit n :: rest =>
    if n < 0xD800 ∨ 0xDFFF < n then joined? (Char.ofNat n :: acc) rest
    else if 0xDC00 ≤ n then none
    else
      match rest with
      | .unit m :: rest =>
        if 0xDC00 ≤ m ∧ m ≤ 0xDFFF then
          joined? (Char.ofNat ((n - 0xD800) * 0x400 + (m - 0xDC00) + 0x10000) :: acc) rest
        else none
      | _ => none

/-- Reads a string after its opening quote. -/
def stringBody : Reader String := fun s => do
  let (ps, s) ← pieces [] s
  match joined? [] ps with
  | some cs => .ok (String.ofList cs, s)
  | none => .error .malformed

/-! ## Numbers -/

/-- A decimal digit. -/
def isDigit (s : Option Char) : Bool :=
  s.any Char.isDigit

/-- Reads decimal digits, as many as there are. -/
def digits (s : Symbols) : List Nat × Symbols :=
  let (front, rest) := s.span isDigit
  (front.filterMap (·.map fun c => c.toNat - '0'.toNat), rest)

/-- Reads decimal digits, at least one. -/
def someDigits : Reader (List Nat) := fun s =>
  match digits s with
  | ([], _) => .error .malformed
  | (ds, s) => .ok (ds, s)

/-- Reads the digits in front of the point, which start with a zero only if that is all. -/
def wholeDigits : Reader (List Nat) := fun s =>
  match digits s with
  | ([], _) => .error .malformed
  | (0 :: _ :: _, _) => .error .malformed
  | (ds, s) => .ok (ds, s)

/-- Reads the decimals, if a point follows. -/
def fractionPart : Reader (List Nat)
  | some '.' :: s => someDigits s
  | s => .ok ([], s)

/-- Reads the exponent, if its letter follows. -/
def exponentPart : Reader (Option (Bool × List Nat))
  | some e :: s =>
    if e = 'e' ∨ e = 'E' then do
      let (negative, s) := match s with
        | some '+' :: s => (false, s)
        | some '-' :: s => (true, s)
        | s => (false, s)
      let (ds, s) ← someDigits s
      return (some (negative, ds), s)
    else .ok (none, some e :: s)
  | s => .ok (none, s)

/-- Reads a number. -/
def number : Reader Number := fun s => do
  let s := match s with
    | some '-' :: s => s
    | s => s
  let (whole, s) ← wholeDigits s
  let (fraction, s) ← fractionPart s
  let (exponent, s) ← exponentPart s
  return ({ whole, fraction, exponent }, s)

/-! ## Values that nobody asked for -/

/-- An array or object that is open. -/
inductive Bracket where
  | array
  | object
  deriving Repr, DecidableEq

/-- Passes over a key and its colon. -/
def skipKey (s : Symbols) : Except Fault Symbols := do
  match skipGap s with
  | some '"' :: s =>
    let (_, s) ← pieces [] s
    expect [':'] (skipGap s)
  | _ => .error .malformed

/-- Passes over a value if `wanted`, and then over what closes the brackets in `inside`, the
innermost first. Every step but the last takes a symbol, so `fuel` beyond their number lasts. -/
def skipFrom : (fuel : Nat) → (wanted : Bool) → (inside : List Bracket) → Symbols →
    Except Fault Symbols
  | 0, _, _, _ => .error .malformed
  | _ + 1, false, [], s => .ok s
  | fuel + 1, false, b :: inside, s =>
    match b, skipGap s with
    | .array, some ',' :: s => skipFrom fuel true (b :: inside) s
    | .array, some ']' :: s => skipFrom fuel false inside s
    | .object, some ',' :: s => do
      let s ← skipKey s
      skipFrom fuel true (b :: inside) s
    | .object, some '\x7d' :: s => skipFrom fuel false inside s
    | _, _ => .error .malformed
  | fuel + 1, true, inside, s =>
    match skipGap s with
    | some '[' :: s =>
      match skipGap s with
      | some ']' :: s => skipFrom fuel false inside s
      | s => skipFrom fuel true (.array :: inside) s
    | some '\x7b' :: s =>
      match skipGap s with
      | some '\x7d' :: s => skipFrom fuel false inside s
      | s => do
        let s ← skipKey s
        skipFrom fuel true (.object :: inside) s
    | some '"' :: s => do
      let (_, s) ← pieces [] s
      skipFrom fuel false inside s
    | some 'n' :: s => do
      let s ← expect "ull".toList s
      skipFrom fuel false inside s
    | some 't' :: s => do
      let s ← expect "rue".toList s
      skipFrom fuel false inside s
    | some 'f' :: s => do
      let s ← expect "alse".toList s
      skipFrom fuel false inside s
    | s => do
      let (_, s) ← number s
      skipFrom fuel false inside s

/-- Passes over one value of any type. -/
def skipValue (s : Symbols) : Except Fault Symbols :=
  skipFrom (s.length + 2) true [] s

/-! ## Values of a wanted type -/

/-- The problem with a value that is not of the wanted type: it may not even be JSON. -/
def wrongType : Symbols → Fault
  | some '[' :: _ => .mismatched
  | some '\x7b' :: _ => .mismatched
  | some '"' :: s => if (stringBody s).isOk then .mismatched else .malformed
  | some 'n' :: s => if (expect "ull".toList s).isOk then .mismatched else .malformed
  | some 't' :: s => if (expect "rue".toList s).isOk then .mismatched else .malformed
  | some 'f' :: s => if (expect "alse".toList s).isOk then .mismatched else .malformed
  | s =>
    match number s with
    | .ok (x, _) => if x.inRange then .mismatched else .malformed
    | .error _ => .malformed

/-- Reads a string. -/
def text : Reader String := fun s =>
  match skipGap s with
  | some '"' :: s => stringBody s
  | s => .error (wrongType s)

/-- Reads a string or null. -/
def textOrNull : Reader (Option String) := fun s =>
  match skipGap s with
  | some 'n' :: s => do
    let s ← expect "ull".toList s
    return (none, s)
  | s => do
    let (t, s) ← text s
    return (some t, s)

/-- Reads a truth value. -/
def flag : Reader Bool := fun s =>
  match skipGap s with
  | some 't' :: s => do
    let s ← expect "rue".toList s
    return (true, s)
  | some 'f' :: s => do
    let s ← expect "alse".toList s
    return (false, s)
  | s => .error (wrongType s)

/-! ## Whole texts -/

/-- The symbols of a text. -/
def symbolsOf (t : String) : Symbols :=
  t.toList.map some

/-- Reads the value in front of a byte string and disregards what follows it. -/
def readFront (read : Reader α) (bs : Bytes) : Except Fault α :=
  (read (Utf8.decode bs)).map Prod.fst

/-- Reads a text that holds one value and otherwise only blanks. -/
def readText (read : Reader α) (t : String) : Except Fault α := do
  let (a, s) ← read (symbolsOf t)
  if (skipGap s).isEmpty then .ok a else .error .malformed

end ShaderChain.Json
