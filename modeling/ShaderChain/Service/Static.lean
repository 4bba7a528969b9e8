import ShaderChain.Host.FileSystem
import ShaderChain.Service.Http

/-!
# Static files

What is requested at a path that is no route is a file below the static directory, if the service
has one. The path is decoded from its percent escapes and may not lead out of that directory. A
directory is shown by its index file, once the path ends in a slash.
-/

namespace ShaderChain.Static

/-- The value of a hexadecimal digit. -/
def hexDigit? (b : UInt8) : Option Nat :=
  let n := b.toNat
  if 0x30 ≤ n ∧ n ≤ 0x39 then some (n - 0x30)
  else if 0x41 ≤ n ∧ n ≤ 0x46 then some (n - 0x41 + 10)
  else if 0x61 ≤ n ∧ n ≤ 0x66 then some (n - 0x61 + 10)
  else none

/-- Replaces percent escapes by the bytes that they stand for; other percent signs stay. -/
def percentDecode : Bytes → Bytes
  | [] => []
  | b :: h :: l :: rest =>
    match hexDigit? h, hexDigit? l with
    | some x, some y =>
      if b = 0x25 then UInt8.ofNat (x * 16 + y) :: percentDecode rest
      else b :: percentDecode (h :: l :: rest)
    | _, _ => b :: percentDecode (h :: l :: rest)
  | b :: rest => b :: percentDecode rest

/-- The file that a path asks for, unless the path could lead out of the directory. -/
def fileBelow (dir : Path) (path : String) : Option Path := do
  let encoded := (Utf8.ofText path).dropWhile (· == Path.slash)
  let text ← Utf8.text? (percentDecode encoded)
  let decoded := Utf8.ofText text
  let names := (Path.splitAt Path.slash decoded).filter fun n => !n.isEmpty && n != Path.here
  if Path.isAbsolute decoded || names.contains Path.above then none
  else some (names.foldl Path.join dir)

/-- What follows the last point of a file's name. A name that starts with its only point has no
extension. -/
def extensionOf (path : Path) : Option Bytes :=
  let back := (Path.baseName path).reverse
  match back.dropWhile (· != 0x2E) with
  | _ :: front => if front.isEmpty then none else some (back.takeWhile (· != 0x2E)).reverse
  | [] => none

/-- Lower-case ASCII. -/
def lowered (bs : Bytes) : Bytes :=
  bs.map fun b => if 0x41 ≤ b ∧ b ≤ 0x5A then b + 0x20 else b

/-- The content types, by extension. -/
def contentTypes : List (Bytes × String) :=
  let ext := Utf8.ofText
  [ (ext "html", "text/html"), (ext "htm", "text/html"), (ext "js", "text/javascript"),
    (ext "css", "text/css"), (ext "txt", "text/plain"), (ext "json", "application/json"),
    (ext "wasm", "application/wasm"), (ext "svg", "image/svg+xml"), (ext "png", "image/png"),
    (ext "jpg", "image/jpeg"), (ext "ico", "image/x-icon"), (ext "md", "text/markdown"),
    (ext "csv", "text/csv"), (ext "xhtml", "application/xhtml+xml"), (ext "woff2", "font/woff2") ]

/-- The content type of a file. -/
def contentType (path : Path) : String :=
  ((extensionOf path).bind fun e => contentTypes.lookup (lowered e)).getD
    "application/octet-stream"

/-- The name of the file that shows a directory. -/
def index : Bytes :=
  Utf8.ofText "index.html"

/-- The response with a file. -/
def serveFile (fs : FileSystem) (path : Path) : Http.Response :=
  match fs.read path with
  | .ok bytes => { status := 200, body := .content (contentType path) bytes }
  | .error .noEntry | .error .notDirectory => .bare 404
  | .error _ => .bare 500

/-- Answers a request below the static directory. -/
def respond (fs : FileSystem) (dir : Path) (r : Http.Request) : Http.Response :=
  if r.method ≠ .get then .bare 405
  else
    match fileBelow dir r.path with
    | none => .bare 404
    | some file =>
      match fs.stat file with
      | .ok .directory =>
        if r.path.toList.getLast? == some '/' then serveFile fs (Path.join file index)
        else
          { status := 307
            location := some { r.target with path := r.path ++ "/" }.render }
      | _ => serveFile fs file

end ShaderChain.Static
