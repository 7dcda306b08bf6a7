import Hive.Evaluator.Operation
import Hive.Json.Order
import Hive.Text.Classes

/-!
Comparisons, declarations, assignments, calls and the other statements. Each is read from the frame
token by token; where an expression follows, it is left to the `evaluate` that is handed in.
-/

namespace Hive.Evaluator

variable (setting : Setting)

/-! ### Comparisons and assignments -/

def compareBy (op : Token) (left right : Literal) : ConsoleM Value :=
  match op.kind.comparator? with
  | none => fail op.line (.unsupportedOperator op.lexeme)
  | some comparator =>
    match comparator.holds? left.datum right.datum with
    | none => fail op.line (.unsupportedOperationType (.str right.type.name))
    | some holds => do
      note 3 do
        return "compare " ++ (← left.text) ++ " " ++ op.lexeme.plain ++ " " ++ (← right.text)
          ++ " -> " ++ (Json.bool holds).shown
      return some (.bool holds)

/-- Compares the literal of a token with the operand after the operator, which is taken without the
operators that follow it. -/
def comparison (evaluate : Evaluation) (first : Token) : EvalM Value := do
  let left ← orHalt (Literal.ofToken first)
  let op ← advance setting
  match ← evaluate (← advance setting) false with
  | none => fail op.line (.unsupportedOperationType (.str (Value.typeName none)))
  | some right => onConsole (compareBy op left right)

def assignment (evaluate : Evaluation) (name : Token) : EvalM Value := do
  let declared ← orHalt ((← scope).hasVariable name.lexeme)
  -- before the value is evaluated, so that a name without a variable is reported first
  ensure declared name.line (.variableNotDeclared name.lexeme)
  let _ ← advance setting
  let value ← evaluate (← advance setting) true
  let (l, updated) ← orFail ((← scope).assign name value)
  setScope updated
  onConsole <| note 2 do return "assign " ++ name.lexeme.plain ++ " = " ++ (← l.text)
  return some l

/-! ### Functions -/

/-- The parameter that two tokens declare for a function. -/
def parameter (function typeToken name : Token) : Except Failure Parameter :=
  if typeToken.kind.isTypeName ∧ name.kind = .identifier then .ok ⟨name, typeToken.kind⟩
  else
    let both := typeToken.lexeme.plain ++ " " ++ name.lexeme.plain
    .error (.error (.on typeToken.line (.malformedFunctionParameter function.lexeme
      (.str (String.ofList (Text.strip Text.isBlank both.toList))))))

/-- Reads the parameters of a function up to the closing parenthesis. One step of the budget is
spent on each. -/
def parameters (function : Token) : Nat → EvalM (List Parameter)
  | 0 => throw .exhausted
  | budget + 1 => do
    let typeToken ← advance setting
    let name ← advance setting
    let p ← orFail (parameter function typeToken name)
    let separator ← advance setting
    match separator.kind with
    | .rightParen => return [p]
    | .comma => return p :: (← parameters function budget)
    | _ => fail separator.line (.malformedFunctionParameter function.lexeme separator.lexeme)

/-- Reads the parameters of a function after the opening parenthesis; there may be none. -/
def parameterList (function : Token) : EvalM (List Parameter) := do
  if (← peek setting).kind = .rightParen then
    let _ ← advance setting
    return []
  else parameters setting function ((← get).rest.length + 1)

def endsBody : TokenKind → Bool
  | .rightBrace | .endOfInput => true
  | _ => false

/-- Reads the body of a function, which runs up to the first closing brace. -/
def functionBody (function : Token) : EvalM (List Token) := do
  let brace ← advance setting
  ensure (brace.kind = .leftBrace) brace.line (.malformedDeclaration function.lexeme brace.lexeme)
  let body ← takeUntil endsBody
  let closing ← advance setting
  ensure (closing.kind = .rightBrace) closing.line
    (.malformedDeclaration function.lexeme (.str "end of input"))
  return body

/-- What messages call a function whose name is not known. -/
def anyFunction : Json := .str Keyword.progWord.spelling

def functionDeclaration (typeToken name : Token) : EvalM Value := do
  ensure typeToken.kind.isTypeName typeToken.line
    (.malformedDeclaration anyFunction typeToken.lexeme)
  ensure (name.kind = .identifier) name.line (.malformedDeclaration anyFunction name.lexeme)
  let opening ← advance setting
  ensure (opening.kind = .leftParen) opening.line
    (.malformedDeclaration name.lexeme opening.lexeme)
  let params ← parameterList setting name
  let body ← functionBody setting name
  let f : Function := ⟨name, typeToken.kind, params, body⟩
  setScope (← orFail ((← scope).define f))
  onConsole (note 2 (.ok ("define function " ++ f.describe)))
  return none

/-! ### Variables -/

def variableDeclaration (evaluate : Evaluation) (typeToken name : Token) : EvalM Value := do
  let following ← advance setting
  ensure (following.kind = .equal) following.line
    (.malformedDeclaration name.lexeme following.lexeme)
  let value ← evaluate (← advance setting) true
  let (v, updated) ← orFail ((← scope).declare name typeToken.kind value)
  setScope updated
  onConsole <| note 2 do return "declare " ++ (← v.describe)
  return none

/-- Declares a variable, or a function if a parenthesis follows the name. -/
def declaration (evaluate : Evaluation) (typeToken : Token) : EvalM Value := do
  let name ← advance setting
  ensure (name.kind = .identifier) name.line
    (.malformedDeclaration (.str typeToken.kind.label) name.lexeme)
  if (← peek setting).kind = .leftParen then functionDeclaration setting typeToken name
  else variableDeclaration setting evaluate typeToken name

/-! ### Calls -/

def argument (evaluate : Evaluation) : EvalM Value := fun frame =>
  let restore (inner : Frame) : Frame := { inner with inArguments := frame.inArguments }
  match (do evaluate (← advance setting) true : EvalM Value) { frame with inArguments := true } with
  | .ok v inner => .ok v (restore inner)
  | .error e inner => .error e (restore inner)

/-- Evaluates the arguments of a call, which commas separate. One step of the budget is spent on
each. -/
def arguments (evaluate : Evaluation) : Nat → EvalM (List Value)
  | 0 => throw .exhausted
  | budget + 1 => do
    let value ← argument setting evaluate
    if (← peek setting).kind = .comma then
      let _ ← advance setting
      return value :: (← arguments evaluate budget)
    else return [value]

/-- Evaluates the arguments of a call after the opening parenthesis; there may be none. -/
def argumentList (evaluate : Evaluation) : EvalM (List Value) := do
  if (← peek setting).kind = .rightParen then return []
  else arguments setting evaluate ((← get).rest.length + 1)

/-- The function under a name. The scope of a call holds none, so a name that it does not have is
looked up in the scope of the program. -/
def lookUpFunction (own : Scope) (name : Token) : Except Failure Function :=
  match setting.program with
  | some program => do
    if ← Failure.ofFault (own.contains name.lexeme) then own.functionAt name
    else program.functionAt name
  | none => own.functionAt name

/-- Calls a function with values, in the program that the frame belongs to. -/
def callFunction (invoke : Invocation) (f : Function) (values : List Value) (line : Int) :
    EvalM Value := do
  onConsole (invoke (setting.program.getD (← scope)) f values line)

def call (invoke : Invocation) (evaluate : Evaluation) (name : Token) : EvalM Value := do
  ensure (name.kind = .identifier) name.line
    (.callSyntax (.str Keyword.runWord.spelling) (.str "a function name") name.lexeme)
  let opening ← peek setting
  ensure (opening.kind = .leftParen) name.line (.callSyntax name.lexeme (.str "(") opening.lexeme)
  -- an undefined function is reported before its arguments are evaluated
  let f ← orFail (lookUpFunction setting (← scope) name)
  let _ ← advance setting
  let values ← argumentList setting evaluate
  let closing ← peek setting
  ensure (closing.kind = .rightParen) closing.line
    (.callSyntax name.lexeme (.str ")") closing.lexeme)
  let _ ← advance setting
  callFunction setting invoke f values name.line

/-! ### Other statements -/

def output (evaluate : Evaluation) : EvalM Value := do
  let value ← evaluate (← advance setting) true
  onConsole (write (← orHalt (Value.text value)))
  return none

/-- Removes the name that follows from the scope. -/
def clear : EvalM Value := do
  let name ← advance setting
  setScope (← orHalt ((← scope).erase name.lexeme))
  onConsole (note 2 (.ok ("clear " ++ name.lexeme.plain)))
  return none

/-- Passes over a token that starts no statement; a word is noted. -/
def skip (first : Token) : EvalM Value :=
  match first.lexeme with
  | .str lexeme =>
    if Text.isWord lexeme then do
      onConsole (note 3 (.ok ("skip unsupported keyword " ++ Text.quoted lexeme
        ++ s!" at line {first.line}")))
      return none
    else return none
  | _ => halt .notText

/-- A statement that starts with none of the tokens above. -/
def reserved (evaluate : Evaluation) (first : Token) : EvalM Value :=
  match first.kind with
  | .keyword .outputWord => output setting evaluate
  | .keyword .clearWord => clear setting
  | _ => skip first

end Hive.Evaluator
