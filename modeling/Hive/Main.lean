import Hive.Command.Perform

/-!
The command line: looks up the files that a request may read or write, carries the request out, and
prints what comes of it.
-/

namespace Hive.Main

open Command

/-- How deep calls may nest. -/
def depth : Nat := 1000

def content (path : String) : IO Content := do
  try
    return .file (← IO.FS.readBinFile path)
  catch
    | .noFileOrDirectory .. => return .missing
    | .invalidArgument .. => return .tooLong
    | _ => return .directory

/-- What is found under the paths that a request may read or write. -/
def lookUp (request : Request) : IO (String → Content) := do
  let path := request.action.path
  let paths := [path, logName, tokenFileName path]
  let contents ← paths.mapM content
  return fun path => (Table.get? path (paths.zip contents)).getD .missing

/-- A span of nanoseconds in milliseconds, with three places. -/
def milliseconds (span : Nat) : String :=
  let places := Nat.toDigits 10 (span / 1000 % 1000)
  s!"{span / 1000000}." ++ String.ofList (List.replicate (3 - places.length) '0' ++ places)

def report (elapsed : String) (effect : Effect) : IO UInt32 := do
  effect.stdout.forM IO.println
  effect.stderr.forM IO.eprintln
  if let some notes := effect.log then
    let text := notes.map fun note => note.render elapsed elapsed ++ "\n"
    IO.FS.writeFile logName (String.join text)
  if let some (name, text) := effect.tokenFile then IO.FS.writeFile name text
  match effect.ending with
  | .exit status => return status.toUInt32
  | .escaped f =>
    IO.eprintln f.message
    return 1
  | .exhausted =>
    IO.eprintln "calls nest too deep"
    return 1

end Hive.Main

def main (words : List String) : IO UInt32 := do
  match Hive.Command.parse words with
  | .error refusal => Hive.Main.report "" (Hive.Command.refuse refusal)
  | .ok request =>
    let found ← Hive.Main.lookUp request
    let started ← IO.monoNanosNow
    let effect := Hive.Command.perform Hive.Main.depth request found
    let finished ← IO.monoNanosNow
    Hive.Main.report (Hive.Main.milliseconds (finished - started)) effect
