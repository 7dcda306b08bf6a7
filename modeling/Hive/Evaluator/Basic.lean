import Hive.Scope

/-!
The machinery of evaluation. A **frame** is one evaluation under way: the tokens not yet read, the
scope it works on and the console it writes to. Statements are read and evaluated in one pass, so a
frame is all the state there is, and it survives a failure: what was written and declared before
stays.
-/

namespace Hive

/-- A remark on the course of an evaluation, and the verbosity from which it is shown. -/
inductive Note where
  | remark (level : Nat) (text : String)
  /-- The text of a program has been lexed into so many tokens. -/
  | lexed (tokens : Nat)
  /-- A program has been evaluated. -/
  | evaluated
  deriving DecidableEq, Repr

namespace Note

def level : Note → Nat
  | .remark level _ => level
  | .lexed _ | .evaluated => 1

/-- The text of a note, given how many milliseconds lexing and evaluation took. -/
def render (lexing evaluation : String) : Note → String
  | .remark _ text => text
  | .lexed tokens => s!"lexer: {tokens} tokens in {lexing} ms"
  | .evaluated => s!"evaluator: {evaluation} ms"

end Note

inductive Stop where
  | failure (f : Failure)
  /-- A function returns a value. -/
  | returned (value : Value)
  /-- Calls nest deeper than the bound that was set. -/
  | exhausted
  deriving DecidableEq

/-- What an evaluation writes: the lines of its output, and notes. -/
structure Console where
  output : List String
  notes : List Note
  deriving DecidableEq, Inhabited

def Console.empty : Console := ⟨[], []⟩

structure Frame where
  /-- The tokens not yet read. -/
  rest : List Token
  /-- How often the end has been read beyond them. -/
  past : Nat
  /-- Whether the arguments of a call are being read. -/
  inArguments : Bool
  scope : Scope
  console : Console

structure Setting where
  /-- The line of the last token, which the end is reported on. -/
  endLine : Int
  /-- The scope of the program, where the frame works on another one. -/
  program : Option Scope
  /-- Whether a function may return here. -/
  mayReturn : Bool

abbrev ConsoleM := EStateM Stop Console

abbrev EvalM := EStateM Stop Frame

/-- How a function is called: with the scope of the program, the values of its arguments, and the
line of the call. -/
abbrev Invocation := Scope → Function → List Value → Int → ConsoleM Value

/-- How an expression is evaluated: from its first token, and with or without the operators that
follow it. -/
abbrev Evaluation := Token → Bool → EvalM Value

namespace Evaluator

variable {σ α : Type}

def fail (line : Int) (problem : Problem) : EStateM Stop σ α :=
  throw (.failure (.error (.on line problem)))

def ensure (p : Prop) [Decidable p] (line : Int) (problem : Problem) : EStateM Stop σ Unit :=
  if p then pure () else fail line problem

def halt (f : Fault) : EStateM Stop σ α := throw (.failure (.fault f))

def orFail : Except Failure α → EStateM Stop σ α
  | .ok a => pure a
  | .error f => throw (.failure f)

def orHalt : Except Fault α → EStateM Stop σ α
  | .ok a => pure a
  | .error f => halt f

/-- Writes a note. Its text is made whether it is shown or not, so a fault in it counts. -/
def note (level : Nat) (text : Except Fault String) : ConsoleM Unit := do
  let text ← orHalt text
  modify fun c => { c with notes := c.notes ++ [.remark level text] }

def write (line : String) : ConsoleM Unit :=
  modify fun c => { c with output := c.output ++ [line] }

def onConsole (m : ConsoleM α) : EvalM α := fun frame =>
  match m frame.console with
  | .ok a c => .ok a { frame with console := c }
  | .error e c => .error e { frame with console := c }

def scope : EvalM Scope := return (← get).scope

def setScope (s : Scope) : EvalM Unit := modify fun frame => { frame with scope := s }

/-! ### Reading tokens -/

/-- The next token, which is not read yet. -/
def peek (setting : Setting) : EvalM Token :=
  return (← get).rest.headD (.atEnd setting.endLine)

def advance (setting : Setting) : EvalM Token := fun frame =>
  match frame.rest with
  | [] => .ok (.atEnd setting.endLine) { frame with past := frame.past + 1 }
  | t :: rest => .ok t { frame with rest := rest }

/-- Reads the tokens up to one of a class and leaves that one. -/
def takeUntil (stop : TokenKind → Bool) : EvalM (List Token) := fun frame =>
  .ok (frame.rest.takeWhile fun t => !stop t.kind)
    { frame with rest := frame.rest.dropWhile fun t => !stop t.kind }

/-- The tokens that go on with an expression, and the rest. An expression ends at a terminator, and
among arguments also at a comma or closing parenthesis outside the `depth` parentheses open. -/
def expressionTokens (inArguments : Bool) : Nat → List Token → List Token × List Token
  | _, [] => ([], [])
  | depth, t :: rest =>
    if t.kind.isTerminator then ([], t :: rest)
    else if inArguments && depth == 0 && (t.kind == .comma || t.kind == .rightParen) then
      ([], t :: rest)
    else
      let depth :=
        if t.kind = .rightParen then depth - 1 else if t.kind = .leftParen then depth + 1 else depth
      let (tokens, rest) := expressionTokens inArguments depth rest
      (t :: tokens, rest)

def collect (first : Token) : EvalM (List Token) := fun frame =>
  let depth := if first.kind = .leftParen then 1 else 0
  let (tokens, rest) := expressionTokens frame.inArguments depth frame.rest
  .ok (first :: tokens) { frame with rest := rest }

end Evaluator

end Hive
