import Hive.Json.Show

/-!
Errors of the language: what is wrong with a program, and where. A problem holds the data that its
message names, most of them lexemes.
-/

namespace Hive

/-- What is wrong with a program. -/
inductive Problem where
  | unterminatedString
  | undefinedVariable (name : Json)
  | variableNotDeclared (name : Json)
  | variableAlreadyDeclared (name : Json)
  | variableTypeMismatch (name expected got : Json)
  | unsupportedOperationType (type : Json)
  | unsupportedOperator (operator : Json)
  | returnOutsideFunction
  | callSyntax (name expected got : Json)
  | malformedDeclaration (name got : Json)
  | malformedFunctionParameter (name got : Json)
  | invalidOperation
  | undefinedFunction (name : Json)
  | argumentCountMismatch (name expected got : Json)
  | argumentType (name expected got : Json)
  | divisionByZero
  | unterminatedParenthesis
  deriving DecidableEq

namespace Problem

def kind : Problem → String
  | .unterminatedString => "UnterminatedString"
  | .undefinedVariable _ => "UndefinedVariable"
  | .variableNotDeclared _ => "VariableNotDeclared"
  | .variableAlreadyDeclared _ => "VariableAlreadyDeclared"
  | .variableTypeMismatch .. => "VariableTypeMismatch"
  | .unsupportedOperationType _ => "UnsupportedOperationType"
  | .unsupportedOperator _ => "UnsupportedOperator"
  | .returnOutsideFunction => "ReturnOutsideFunction"
  | .callSyntax .. => "CallSyntaxError"
  | .malformedDeclaration .. => "MalformedDeclaration"
  | .malformedFunctionParameter .. => "MalformedFunctionParameter"
  | .invalidOperation => "InvalidOperation"
  | .undefinedFunction _ => "UndefinedFunction"
  | .argumentCountMismatch .. => "ArgumentCountMismatch"
  | .argumentType .. => "ArgumentTypeError"
  | .divisionByZero => "DivisionByZero"
  | .unterminatedParenthesis => "UnterminatedParenthesis"

def message : Problem → String
  | .unterminatedString => "Unterminated string."
  | .undefinedVariable name => s!"Variable {name.plain} is not defined"
  | .variableNotDeclared name => s!"Variable {name.plain} has not been declared"
  | .variableAlreadyDeclared name => s!"Variable {name.plain} is already defined"
  | .variableTypeMismatch name expected got =>
    s!"Variable {name.plain} type is {expected.plain}, but got {got.plain}"
  | .unsupportedOperationType type => s!"{type.plain} is not valid for this operation."
  | .unsupportedOperator operator =>
    s!"Attempted to use unsupported operator {operator.plain} in a binary operation"
  | .returnOutsideFunction => "Return statement outside of function."
  | .callSyntax name expected got =>
    s!"Expected {expected.shown} in call to {name.plain}, but got {got.shown}"
  | .malformedDeclaration name got =>
    s!"Malformed declaration of {name.plain}: unexpected {got.shown}"
  | .malformedFunctionParameter name got =>
    s!"Malformed parameter in declaration of {name.plain}: {got.shown}"
  | .invalidOperation => "Invalid operation."
  | .undefinedFunction name => s!"Function {name.plain} is not defined"
  | .argumentCountMismatch name expected got =>
    s!"Function {name.plain} expects {expected.plain} arguments, but got {got.plain}."
  | .argumentType name expected got =>
    s!"Argument {name.plain} expected {expected.plain}, but got {got.plain}."
  | .divisionByZero => "Division by zero."
  | .unterminatedParenthesis => "Missing ')' in expression."

/-- Advice on the problem, for the kinds that have some. -/
def hint? : Problem → Option String
  | .unsupportedOperationType _ =>
    some ("You likely are using a value that cannot be 'just' added with regular operators, "
      ++ "like a string.")
  | .variableTypeMismatch .. =>
    some "You likely attempted to assign a value with a type that does not match."
  | .returnOutsideFunction =>
    some ("You may have placed a return statement outside of a function. "
      ++ "Make sure you are returning inside of a function.")
  | .argumentType .. =>
    some ("You likely attempted to pass a value with a type that does not match, "
      ++ "or maybe you forgot to pass an argument.")
  | .argumentCountMismatch .. =>
    some "Check that the call passes one value for every declared parameter."
  | .unterminatedString => some "Close the string with a matching double quote."
  | .invalidOperation => some "Strings can only be joined with '.'."
  | _ => none

/-- The problem of a kind with the data that its message names, if the kind is known and takes so
many. -/
def ofKind? (kind : String) (arguments : List Json) : Option Problem :=
  (candidates arguments).find? fun p => p.kind == kind
where
  /-- The problems that a number of data can make. -/
  candidates : List Json → List Problem
    | [] => [.unterminatedString, .returnOutsideFunction, .invalidOperation, .divisionByZero,
        .unterminatedParenthesis]
    | [a] => [.undefinedVariable a, .variableNotDeclared a, .variableAlreadyDeclared a,
        .unsupportedOperationType a, .unsupportedOperator a, .undefinedFunction a]
    | [a, b] => [.malformedDeclaration a b, .malformedFunctionParameter a b]
    | [a, b, c] => [.variableTypeMismatch a b c, .callSyntax a b c, .argumentCountMismatch a b c,
        .argumentType a b c]
    | _ => []

def kinds : List String :=
  [0, 1, 2, 3].flatMap fun n => (ofKind?.candidates (List.replicate n .null)).map kind

end Problem

/-- A problem and the line it is found on, which is null if none is known. -/
structure Diagnostic where
  problem : Problem
  line : Json
  deriving DecidableEq

namespace Diagnostic

def on (line : Int) (problem : Problem) : Diagnostic := ⟨problem, .int line⟩

/-- The text that reports an error: where it is, the message, and the advice on a line of its
own. -/
def render (d : Diagnostic) : String :=
  let place := match d.line with
    | .null => "Error: "
    | line => s!"Error at line {line.plain}: "
  let advice := match d.problem.hint? with
    | some hint => "\n" ++ hint
    | none => ""
  place ++ d.problem.message ++ advice

end Diagnostic

/-- Why a computation fails: the program is in error, or there is a fault. -/
inductive Failure where
  | error (diagnostic : Diagnostic)
  | fault (fault : Fault)
  deriving DecidableEq

/-- The result of a computation that may meet a fault, among failures of all kinds. -/
def Failure.ofFault {α : Type} : Except Fault α → Except Failure α
  | .ok a => .ok a
  | .error f => .error (.fault f)

end Hive
