/-!
# Bytes and UTF-8

Operating-system strings, file contents and tool output are byte strings; the service itself
works on Unicode text. This module goes between the two:

- `Utf8.encode` writes characters as bytes;
- `Utf8.decode` reads bytes, one `Option Char` per character, where each **maximal invalid
  subpart** becomes a single `none`: the longest run of bytes that begins a well-formed
  sequence without completing it, or else one byte;
- `Utf8.lossy` shows every damaged place as U+FFFD, `Utf8.text?` refuses damaged text.

The decoder is a fold of `Decoder.step` over the bytes, so a byte string is read in one pass
and reading `a ++ b` is reading `a` and going on with `b` (`Utf8.feed_append`).
-/

namespace ShaderChain

/-- A byte string. -/
abbrev Bytes := List UInt8

namespace Utf8

/-- The UTF-8 bytes of `cs`, character by character. -/
def encode (cs : List Char) : Bytes :=
  cs.flatMap String.utf8EncodeChar

/-- The UTF-8 bytes of a text. -/
def ofText (s : String) : Bytes :=
  encode s.toList

/-! ## The decoder -/

/-- A multi-byte sequence of which the last `missing` bytes have not been read. `low` and
`high` bound the next byte: the second byte of some sequences has a narrower range than
`0x80`–`0xBF`, which keeps out overlong forms, surrogates and values past U+10FFFF. -/
structure Unfinished where
  value : Nat
  missing : Nat
  low : UInt8 := 0x80
  high : UInt8 := 0xBF
  deriving Repr, DecidableEq

/-- What a byte that begins a sequence stands for. -/
inductive Lead where
  | ascii (c : Char)
  | opens (u : Unfinished)
  | stray
  deriving Repr, DecidableEq

/-- The well-formed beginnings: `00`–`7F`, `C2`–`DF`, `E0`–`EF` and `F0`–`F4`. -/
def Lead.ofByte (b : UInt8) : Lead :=
  let n := b.toNat
  if n < 0x80 then .ascii (Char.ofNat n)
  else if n < 0xC2 then .stray
  else if n < 0xE0 then .opens { value := n - 0xC0, missing := 1 }
  else if n = 0xE0 then .opens { value := 0, missing := 2, low := 0xA0 }
  else if n = 0xED then .opens { value := 0xD, missing := 2, high := 0x9F }
  else if n < 0xF0 then .opens { value := n - 0xE0, missing := 2 }
  else if n = 0xF0 then .opens { value := 0, missing := 3, low := 0x90 }
  else if n < 0xF4 then .opens { value := n - 0xF0, missing := 3 }
  else if n = 0xF4 then .opens { value := 4, missing := 3, high := 0x8F }
  else .stray

/-- The state of a decoder: what it has read, newest first, and the sequence it is inside. -/
structure Decoder where
  read : List (Option Char) := []
  inside : Option Unfinished := none

/-- Reads a byte that continues nothing. -/
def Decoder.begin (read : List (Option Char)) (b : UInt8) : Decoder :=
  match Lead.ofByte b with
  | .ascii c => { read := some c :: read }
  | .opens u => { read, inside := some u }
  | .stray => { read := none :: read }

/-- Reads one byte. A byte out of range ends the open sequence as damaged and is then read
as a beginning itself. -/
def Decoder.step (d : Decoder) (b : UInt8) : Decoder :=
  match d.inside with
  | none => .begin d.read b
  | some u =>
    if u.low ≤ b ∧ b ≤ u.high then
      let value := u.value * 64 + (b.toNat - 0x80)
      match u.missing with
      | 0 | 1 => { read := some (Char.ofNat value) :: d.read }
      | missing + 2 => { d with inside := some { value, missing := missing + 1 } }
    else .begin (none :: d.read) b

/-- Reads a byte string. -/
def feed (d : Decoder) (bs : Bytes) : Decoder :=
  bs.foldl Decoder.step d

/-- What has been read at the end of the bytes; an open sequence is damaged. -/
def Decoder.finish (d : Decoder) : List (Option Char) :=
  match d.inside with
  | none => d.read.reverse
  | some _ => (none :: d.read).reverse

/-- The characters of `bs`, with `none` for each maximal invalid subpart. -/
def decode (bs : Bytes) : List (Option Char) :=
  (feed {} bs).finish

theorem feed_append (d : Decoder) (a b : Bytes) : feed d (a ++ b) = feed (feed d a) b :=
  List.foldl_append ..

/-! ## Text from bytes -/

/-- The sign for damaged text, U+FFFD. -/
def replacement : Char := '\uFFFD'

/-- The characters of `bs`, with U+FFFD for each maximal invalid subpart. -/
def lossyChars (bs : Bytes) : List Char :=
  (decode bs).map (·.getD replacement)

/-- The text of `bs`, with U+FFFD for each maximal invalid subpart. -/
def lossy (bs : Bytes) : String :=
  String.ofList (lossyChars bs)

/-- The text of `bs` if every byte belongs to a well-formed sequence. -/
def text? (bs : Bytes) : Option String :=
  let cs := decode bs
  if cs.all Option.isSome then some (String.ofList (cs.filterMap id)) else none

end Utf8

end ShaderChain
