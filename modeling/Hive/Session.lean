import Hive.Evaluator.Expression
import Hive.Token.Lexer

/-!
Sessions: programs run one after the other in one scope. A session has a verbosity, which says which
notes are shown. They go to a log until the end of the first run, and beside the output afterwards.
-/

namespace Hive

/-- The state between the programs of a session. -/
structure Session where
  verbosity : Nat
  scope : Scope
  /-- The value of the last run that succeeded. -/
  result : Value
  /-- Whether the log takes notes. -/
  logOpen : Bool
  log : List Note

/-- What a run of one program gives: its value or why it stopped, the lines of its output, and the
notes shown beside it. -/
structure Report where
  outcome : Except Stop Value
  output : List String
  aside : List Note

namespace Session

/-- A session before its first program. The log is kept only if notes are shown at all. -/
def start (verbosity : Nat) : Session := ⟨verbosity, .empty, none, 0 < verbosity, []⟩

/-- Puts notes where they are shown, and closes the log. The notes that do not go to the log are
returned. -/
def settle (s : Session) (notes : List Note) : List Note × Session :=
  let shown := notes.filter fun note => note.level ≤ s.verbosity
  if s.logOpen then ([], { s with log := s.log ++ shown, logOpen := false }) else (shown, s)

def scopeNote (s : Scope) : Except Fault Note := do
  return .remark 1 ("environment: " ++ (← s.describe))

/-- Runs the tokens of a program after some notes have been made. -/
def runAfter (depth : Nat) (before : List Note) (tokens : List Token) (s : Session) :
    Report × Session :=
  match Evaluator.runProgram depth tokens s.scope with
  | .error e last =>
    let (aside, s) := { s with scope := last.scope }.settle (before ++ last.console.notes)
    (⟨.error e, last.console.output, aside⟩, s)
  | .ok v last =>
    let notes := before ++ last.console.notes ++ [.evaluated]
    let s := { s with scope := last.scope, result := v }
    if s.verbosity = 0 then
      let (aside, s) := s.settle notes
      (⟨.ok v, last.console.output, aside⟩, s)
    else match scopeNote last.scope with
      | .ok note =>
        let (aside, s) := s.settle (notes ++ [note])
        (⟨.ok v, last.console.output, aside⟩, s)
      | .error f =>
        let (aside, s) := s.settle notes
        (⟨.error (.failure (.fault f)), last.console.output, aside⟩, s)

def run (depth : Nat) (tokens : List Token) (s : Session) : Report × Session :=
  s.runAfter depth [] tokens

/-- Runs tokens that were made outside the session. If that failed, nothing is run, and the log
stays as it is. -/
def runMade (depth : Nat) (tokens : Except Failure (List Token)) (s : Session) : Report × Session :=
  match tokens with
  | .ok tokens => s.run depth tokens
  | .error f => (⟨.error (.failure f), [], []⟩, s)

def runSource (depth : Nat) (source : String) (s : Session) : Report × Session :=
  match Token.lex source with
  | .ok tokens => s.runAfter depth [.lexed tokens.length] tokens
  | .error f =>
    let (aside, s) := s.settle []
    (⟨.error (.failure f), [], aside⟩, s)

end Session

end Hive
