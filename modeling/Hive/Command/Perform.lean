import Hive.Command.Arguments
import Hive.Directory
import Hive.Session
import Hive.Token.Stored

/-!
Carrying out a command, given what is found under the paths that it reads and writes. What is
printed, the files that are written and the way the command ends are all part of the result.
-/

namespace Hive.Command

/-- How a command ends: with a status, or with a failure that it does not handle. -/
inductive Ending where
  | exit (status : Nat)
  | escaped (f : Fault)
  /-- Calls nest deeper than the bound that was set. -/
  | exhausted

structure Effect where
  stdout : List String
  stderr : List String
  /-- The text of the log, if one is kept. -/
  log : Option (List Note)
  /-- The token file that is written. -/
  tokenFile : Option (String × String)
  ending : Ending

def Effect.error (text : String) (status : Nat) : Effect := ⟨[], [text], none, none, .exit status⟩

def Effect.escape (f : Fault) : Effect := ⟨[], [], none, none, .escaped f⟩

def logName : String := "debug.txt"

def tokenFileName (path : String) : String := Path.printed path ++ ".tokens.json"

/-- Whether a fault says that the text of a token file is no token stream. The others escape. -/
def isInvalidData : Fault → Bool
  | .infinityToInteger | .integerTooLarge | .quotientTooLarge | .zeroDivisor | .unsuitable
  | .unfitKind | .noValue | .notText | .noSuchPlace | .isDirectory | .pathTooLong => false
  | _ => true

def readText : Content → Except Fault String
  | .missing => .ok ""
  | .directory => .error .isDirectory
  | .tooLong => .error .pathTooLong
  | .file bytes =>
    match Text.ofBytes bytes with
    | .ok text => .ok text
    | .error place => .error (.undecodable place)

def writeFault? : Content → Option Fault
  | .directory => some .isDirectory
  | .tooLong => some .pathTooLong
  | .missing | .file _ => none

/-- The lines that print the entries of a scope, up to one that cannot be printed. -/
def scopeLines : List Entry → List String × Option Fault
  | [] => ([], none)
  | entry :: rest =>
    match entry.listed with
    | .ok text =>
      let (lines, f) := scopeLines rest
      (text :: lines, f)
    | .error f => ([], some f)

/-- What comes of a run: its output, the log, and the scope if it is asked for. -/
def ofRun (request : Request) (report : Report) (session : Session) : Effect :=
  let log := if request.verbosity = 0 then none else some session.log
  match report.outcome with
  | .ok _ =>
    let listed := if request.env then session.scope.entries.map Prod.snd else []
    let (lines, f) := scopeLines listed
    let ending := match f with
      | none => .exit 0
      | some f => .escaped f
    ⟨report.output ++ lines, [], log, none, ending⟩
  | .error (.failure (.error d)) => ⟨report.output, [d.render], log, none, .exit 1⟩
  | .error (.failure (.fault f)) => ⟨report.output, [], log, none, .escaped f⟩
  | .error _ => ⟨report.output, [], log, none, .exhausted⟩

/-- Lexes a program and writes its token file, given what is found under each path. -/
def emit (found : String → Content) (path source : String) : Effect :=
  match Token.lex source with
  | .error (.error d) => .error d.render 1
  | .error (.fault f) => .escape f
  | .ok tokens =>
    match Token.encodeStream tokens with
    | .error f => .escape f
    | .ok text =>
      let name := tokenFileName path
      match writeFault? (found name) with
      | some f => .escape f
      | none => ⟨[name], [], none, some (name, text), .exit 0⟩

/-- Runs a program in a new session, of which a log is kept if anything is noted. -/
def runIn (found : String → Content) (request : Request) (run : Session → Report × Session) :
    Effect :=
  match if request.verbosity = 0 then none else writeFault? (found logName) with
  | some f => .escape f
  | none =>
    let (report, session) := run (Session.start request.verbosity)
    ofRun request report session

/-- Carries out a request, given what is found under each path. -/
def perform (depth : Nat) (request : Request) (found : String → Content) : Effect :=
  let path := request.action.path
  match found path with
  | .missing => .error ("Error: file " ++ Path.printed path ++ " not found") 1
  | content =>
    match request.action with
    | .emit _ =>
      match readText content with
      | .error f => .escape f
      | .ok source => emit found path source
    | .runTokens _ =>
      match readText content >>= Token.decodeStream with
      | .error f =>
        if isInvalidData f then
          .error ("Error: invalid token file " ++ Path.printed path ++ ": " ++ f.message) 1
        else .escape f
      | .ok tokens => runIn found request (Session.run depth tokens)
    | .runProgram _ =>
      match readText content with
      | .error f => .escape f
      | .ok source => runIn found request (Session.runSource depth source)

def name : String := "hivescript"

def usage : String :=
  "usage: " ++ name ++ " [-h] [-v] [--env] [--emit-tokens HIVE_FILE | --tokens TOKENS_JSON_FILE]"
    ++ " [program]"

def refuse : Refusal → Effect
  | .help => ⟨[usage], [], none, none, .exit 0⟩
  | refusal => ⟨[], [usage, name ++ ": error: " ++ refusal.message], none, none, .exit 2⟩

end Hive.Command
