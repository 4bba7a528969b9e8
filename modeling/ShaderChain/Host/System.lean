import ShaderChain.Text.Utf8

/-!
# Paths and errors of the operating system

A path is a byte string. It is put together by `Path.join` and taken apart at its slashes; a list
of directories is taken apart at its colons.

`Errno` are the failures that the service can meet in the file system, in starting a program and in
opening its port, with their numbers and texts.
-/

namespace ShaderChain

/-! ## Paths -/

/-- A path as the operating system takes it. -/
abbrev Path := Bytes

namespace Path

/-- The byte between components. -/
def slash : UInt8 := 0x2F

/-- The byte between the directories of a list. -/
def colon : UInt8 := 0x3A

/-- The pieces between the separators, one more than there are separators. -/
def splitAt (sep : UInt8) (bs : Bytes) : List Bytes :=
  bs.foldr (fun b pieces =>
    match pieces with
    | [] => []
    | piece :: rest => if b = sep then [] :: piece :: rest else (b :: piece) :: rest) [[]]

/-- Whether a path starts at the root. -/
def isAbsolute (p : Path) : Bool :=
  p.head? == some slash

/-- The path of `name` below `dir`: a slash is put between them unless `dir` is empty or ends
in one, and an absolute `name` stands for itself. -/
def join (dir name : Path) : Path :=
  if isAbsolute name then name
  else if dir.isEmpty || dir.getLast? == some slash then dir ++ name
  else dir ++ slash :: name

/-- The last component. -/
def baseName (p : Path) : Bytes :=
  (splitAt slash p).getLast?.getD []

/-- The name that stands for the directory itself. -/
def here : Bytes := [0x2E]

/-- The name that stands for the directory above. -/
def above : Bytes := [0x2E, 0x2E]

/-- The components of a path. A slash at the end asks for a directory, as `here` does. -/
def components (p : Path) : List Bytes :=
  let names := (splitAt slash p).filter (!·.isEmpty)
  if p.getLast? == some slash then names ++ [here] else names

/-- The path without its last name; empty for a single name. -/
def parent (p : Path) : Path :=
  (p.reverse.dropWhile (· != slash)).reverse

/-- The directories of a list; an empty element is the current directory. -/
def directories (list : Bytes) : List Path :=
  splitAt colon list

end Path

/-! ## Errors -/

/-- A failure reported by the operating system. -/
inductive Errno where
  | noEntry
  | argumentsTooLong
  | badExecutable
  | denied
  | alreadyExists
  | noDevice
  | notDirectory
  | isDirectory
  | invalidArgument
  | nameTooLong
  | tooManyLinks
  | addressInUse
  | addressUnavailable
  | networkUnreachable
  deriving Repr, DecidableEq

namespace Errno

/-- The number of an error. -/
def code : Errno → Nat
  | .noEntry => 2
  | .argumentsTooLong => 7
  | .badExecutable => 8
  | .denied => 13
  | .alreadyExists => 17
  | .noDevice => 19
  | .notDirectory => 20
  | .isDirectory => 21
  | .invalidArgument => 22
  | .nameTooLong => 36
  | .tooManyLinks => 40
  | .addressInUse => 98
  | .addressUnavailable => 99
  | .networkUnreachable => 101

/-- The description of an error. -/
def description : Errno → String
  | .noEntry => "No such file or directory"
  | .argumentsTooLong => "Argument list too long"
  | .badExecutable => "Exec format error"
  | .denied => "Permission denied"
  | .alreadyExists => "File exists"
  | .noDevice => "No such device"
  | .notDirectory => "Not a directory"
  | .isDirectory => "Is a directory"
  | .invalidArgument => "Invalid argument"
  | .nameTooLong => "File name too long"
  | .tooManyLinks => "Too many levels of symbolic links"
  | .addressInUse => "Address already in use"
  | .addressUnavailable => "Cannot assign requested address"
  | .networkUnreachable => "Network is unreachable"

end Errno

/-- A failed operation on the host. -/
inductive IoError where
  | os (errno : Errno)
  /-- A failure that was noticed before the operating system was asked. -/
  | other (text : String)
  deriving Repr, DecidableEq

/-- The text of a failed operation. -/
def IoError.message : IoError → String
  | .os e => e.description ++ " (os error " ++ toString e.code ++ ")"
  | .other text => text

end ShaderChain
