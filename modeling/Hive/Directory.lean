/-!
Paths, and the files that a command finds under them. A path is printed without repeated slashes
and the parts `.`, and `..` is kept. A **directory** is the working directory of a command: its
files under the parts of their paths, so that the directories in it are the beginnings of those
paths. Of what lies outside only the directories above it are known, up to the root.
-/

namespace Hive

namespace Path

/-- The parts of a path between slashes, without the empty ones and those that stay in place. -/
def parts (path : String) : List String :=
  (path.splitOn "/").filter fun part => part != "" && part != "."

/-- The slashes that a path starts with; three or more count as one. -/
def root (path : String) : String :=
  match (path.toList.takeWhile (· == '/')).length with
  | 0 => ""
  | 2 => "//"
  | _ => "/"

def printed (path : String) : String :=
  let text := root path ++ "/".intercalate (parts path)
  if text.isEmpty then "." else text

end Path

/-- What is found under a path. -/
inductive Content where
  | missing
  | directory
  | file (bytes : ByteArray)
  /-- The path cannot be looked up, because it is too long. -/
  | tooLong

structure Directory where
  files : List (List String × ByteArray)

inductive Place where
  /-- The file or directory of some parts in the working directory. -/
  | inside (parts : List String)
  /-- A directory above the working directory. -/
  | above
  /-- Nothing is there. -/
  | nowhere
  /-- A part of the path is too long to be looked up. -/
  | tooLong
  deriving DecidableEq, Repr

namespace Directory

def partLimit : Nat := 255

def pathLimit : Nat := 4095

def isDirectory (d : Directory) (parts : List String) : Bool :=
  parts.isEmpty || d.files.any fun (p, _) => parts.length < p.length && parts.isPrefixOf p

def enter (d : Directory) : Place → String → Place
  | .inside parts, part =>
    if !d.isDirectory parts then .nowhere
    else if part == ".." then if parts.isEmpty then .above else .inside parts.dropLast
    else if partLimit < part.utf8ByteSize then .tooLong
    else .inside (parts ++ [part])
  | .above, part =>
    if part == ".." then .above
    else if partLimit < part.utf8ByteSize then .tooLong
    else .nowhere
  | .nowhere, _ => .nowhere
  | .tooLong, _ => .tooLong

def place (d : Directory) (path : String) : Place :=
  if path.contains '\x00' then .nowhere
  else if pathLimit < (Path.printed path).utf8ByteSize then .tooLong
  else (Path.parts path).foldl d.enter (if path.startsWith "/" then .above else .inside [])

def content (d : Directory) (path : String) : Content :=
  match d.place path with
  | .nowhere => .missing
  | .tooLong => .tooLong
  | .above => .directory
  | .inside parts =>
    match d.files.find? fun (p, _) => p == parts with
    | some (_, bytes) => .file bytes
    | none => if d.isDirectory parts then .directory else .missing

end Directory

end Hive
