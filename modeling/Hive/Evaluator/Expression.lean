import Hive.Evaluator.Statement

/-!
Evaluation of whole programs. `expression` tells by the first token what to evaluate; the budget is
spent on expressions inside expressions, of which each reads at least one token, so that
`evaluate`, which takes it from the tokens left, never runs out. Only calls can go on for ever:
`invoke` takes a bound on how deep they nest.
-/

namespace Hive.Evaluator

/-- The token that an expression is evaluated from: an identifier is replaced by the value of its
variable. -/
def substitute (scope : Scope) (first : Token) : Except Failure Token :=
  if first.kind = .identifier then do
    match (← scope.variableAt first).value with
    | some l => Failure.ofFault (l.toToken first.line)
    | none => .error (.fault .noValue)
  else .ok first

def literal (token : Token) : EvalM Value := return some (← orHalt (Literal.ofToken token))

def number (setting : Setting) (evaluate : Evaluation) (token : Token) (operators : Bool) :
    EvalM Value := do
  let following := (← peek setting).kind
  if operators && following.isArithmetic then operation token
  else if operators && following.isComparison then comparison setting evaluate token
  else literal token

/-- Evaluates an expression that starts with a text. Arithmetic on it is refused in any case. -/
def string (setting : Setting) (evaluate : Evaluation) (token : Token) (operators : Bool) :
    EvalM Value := do
  let following := (← peek setting).kind
  if operators && following == .dot then concatenation token
  else if following.isArithmetic then
    fail token.line (.unsupportedOperationType (.str token.kind.label))
  else if operators && following.isComparison then comparison setting evaluate token
  else literal token

def truth (setting : Setting) (evaluate : Evaluation) (token : Token) (operators : Bool) :
    EvalM Value := do
  let following := (← peek setting).kind
  if operators && following.isComparison then comparison setting evaluate token
  else literal token

/-- Evaluates an expression by the kind of its first token, which is no identifier. -/
def dispatch (invoke : Invocation) (setting : Setting) (evaluate : Evaluation) (token : Token)
    (operators : Bool) : EvalM Value :=
  match token.kind with
  | .literal .int | .literal .flt => number setting evaluate token operators
  | .literal .str => string setting evaluate token operators
  | .literal .bool | .keyword .trueWord | .keyword .falseWord =>
    truth setting evaluate token operators
  | .typeName _ => declaration setting evaluate token
  | .leftParen => operation token
  | .keyword .progWord => do
    let typeToken ← advance setting
    functionDeclaration setting typeToken (← advance setting)
  | .keyword .runWord => do call setting invoke evaluate (← advance setting)
  | .keyword .returnWord =>
    if setting.mayReturn then do throw (.returned (← evaluate (← advance setting) true))
    else fail token.line .returnOutsideFunction
  | _ => reserved setting evaluate token

/-- Evaluates an expression from its first token on. Without `operators`, the operators that follow
an operand are left unread. -/
def expression (invoke : Invocation) (setting : Setting) : Nat → Evaluation
  | 0, _, _ => throw .exhausted
  | budget + 1, first, operators => do
    let evaluate : Evaluation := expression invoke setting budget
    let following := (← peek setting).kind
    if first.kind = .identifier ∧ operators ∧ following = .equal then
      assignment setting evaluate first
    else
      let token ← orFail (substitute (← scope) first)
      dispatch invoke setting evaluate token operators

/-- Evaluates an expression with all the budget that the tokens left can need. -/
def evaluate (invoke : Invocation) (setting : Setting) : Evaluation := fun first operators frame =>
  expression invoke setting (frame.rest.length + 2) first operators frame

/-- Evaluates statements up to the end; the value is that of the last one. The budget is the number
of tokens left. -/
def statements (invoke : Invocation) (setting : Setting) : Nat → Value → EvalM Value
  | 0, latest => pure latest
  | budget + 1, latest => fun frame =>
    match frame.rest with
    | [] => .ok latest frame
    | first :: rest =>
      let step : EvalM Value :=
        if first.kind.isTerminator then statements invoke setting budget latest
        else evaluate invoke setting first true >>= statements invoke setting budget
      step { frame with rest := rest }

/-- Evaluates all tokens left. A return ends the evaluation with its value. -/
def run (invoke : Invocation) (setting : Setting) : EvalM Value := fun frame =>
  match statements invoke setting frame.rest.length none frame with
  -- what is left of the tokens is passed over, and the end with it
  | .error (.returned v) last => .ok v { last with rest := [], past := 1 }
  | result => result

def endLine (tokens : List Token) : Int := (tokens.getLast?.map Token.line).getD 0

def frameOf (tokens : List Token) (scope : Scope) (console : Console) : Frame :=
  ⟨tokens, 0, false, scope, console⟩

/-- Runs the body of a function in a scope. The frame at its end is given up but for its console. -/
def runBody (invoke : Invocation) (program : Scope) (f : Function) (scope : Scope) :
    ConsoleM Value := fun console =>
  match run invoke ⟨endLine f.body, some program, true⟩ (frameOf f.body scope console) with
  | .ok v last => .ok v last.console
  | .error e last => .error e last.console

/-- Calls a function, given how its body is run in the scope of the call. -/
def callWith (body : Function → Scope → ConsoleM Value) (f : Function) (arguments : List Value)
    (line : Int) : ConsoleM Value := do
  let scope ← orFail (f.bindArguments line arguments)
  -- an argument without a printed form ends the call here, before the body runs
  note 2 do
    let values ← arguments.mapM Value.text
    return "call " ++ f.name.lexeme.plain ++ "(" ++ ", ".intercalate values ++ ")"
  let result ← body f scope
  note 2 do return "return " ++ f.name.lexeme.plain ++ " -> " ++ (← Value.text result)
  return result

/-- Calls a function; calls may nest as deep as the bound. -/
def invoke : Nat → Invocation
  | 0, _, _, _, _ => throw .exhausted
  | depth + 1, program, f, arguments, line =>
    callWith (runBody (invoke depth) program) f arguments line

/-- Runs the tokens of a program in its scope. -/
def runProgram (depth : Nat) (tokens : List Token) (scope : Scope) :
    EStateM.Result Stop Frame Value :=
  run (invoke depth) ⟨endLine tokens, none, false⟩ (frameOf tokens scope .empty)

end Hive.Evaluator
