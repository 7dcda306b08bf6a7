import Hive.Diagnostic
import Hive.Json.Basic
import Hive.Literal

/-!
Scopes: the variables and functions of a program or of one call, in the order of their insertion.
There are no nested scopes; a call has one of its own, which starts with its parameters. An entry is
found under the key of its name's lexeme; a lexeme that is no key is a fault.
-/

namespace Hive

/-- A variable: the token of its name, its value, and the kind of token that declares its type. -/
structure Variable where
  name : Token
  value : Value
  type : TokenKind
  deriving DecidableEq, Inhabited

structure Parameter where
  name : Token
  type : TokenKind
  deriving DecidableEq, Inhabited

/-- A function: the token of its name, its declared type, its parameters, and the tokens of its
body. -/
structure Function where
  name : Token
  returns : TokenKind
  parameters : List Parameter
  body : List Token
  deriving DecidableEq, Inhabited

inductive Entry where
  | var (v : Variable)
  | func (f : Function)
  deriving DecidableEq, Inhabited

def Entry.name : Entry → Token
  | .var v => v.name
  | .func f => f.name

def Variable.describe (v : Variable) : Except Fault String := do
  return "<" ++ v.type.label ++ " " ++ v.name.lexeme.plain ++ " = " ++ (← Value.text v.value) ++ ">"

/-- The description of a function: its type, its name and its parameters. -/
def Function.describe (f : Function) : String :=
  let parameters := f.parameters.map fun p => p.type.label ++ " " ++ p.name.lexeme.plain
  "<prog " ++ f.returns.label ++ " " ++ f.name.lexeme.plain ++ "(" ++ ", ".intercalate parameters
    ++ ")>"

def Entry.describe : Entry → Except Fault String
  | .var v => v.describe
  | .func f => .ok f.describe

/-- An entry after its name. -/
def Entry.listed (e : Entry) : Except Fault String := do
  return e.name.lexeme.plain ++ ": " ++ (← e.describe)

/-- The entries of a program or of a call, under the keys of their names. -/
structure Scope where
  entries : List (Json × Entry)
  deriving DecidableEq, Inhabited

namespace Scope

def empty : Scope := ⟨[]⟩

def find? (s : Scope) (name : Json) : Except Fault (Option Entry) := do
  return Table.get? (← name.key) s.entries

def contains (s : Scope) (name : Json) : Except Fault Bool := do
  return (← s.find? name).isSome

def hasVariable (s : Scope) (name : Json) : Except Fault Bool := do
  match ← s.find? name with
  | some (.var _) => return true
  | _ => return false

def size (s : Scope) : Nat := s.entries.length

/-- Puts an entry under a name, in the place of the one that is there. -/
def putAt (s : Scope) (name : Json) (e : Entry) : Except Fault Scope := do
  return ⟨Table.insert (← name.key) e s.entries⟩

/-- Puts an entry under its own name. -/
def put (s : Scope) (e : Entry) : Except Fault Scope := s.putAt e.name.lexeme e

def bind (s : Scope) (v : Variable) : Except Fault Scope := s.put (.var v)

/-- Removes the entry under a name, if there is one. An empty scope stays as it is, whatever the
name. -/
def erase (s : Scope) (name : Json) : Except Fault Scope :=
  if s.entries.isEmpty then .ok s else do return ⟨Table.erase (← name.key) s.entries⟩

def variableAt (s : Scope) (name : Token) : Except Failure Variable := do
  match ← Failure.ofFault (s.find? name.lexeme) with
  | some (.var v) => return v
  | _ => throw (.error (.on name.line (.undefinedVariable name.lexeme)))

def functionAt (s : Scope) (name : Token) : Except Failure Function := do
  match ← Failure.ofFault (s.find? name.lexeme) with
  | some (.func f) => return f
  | _ => throw (.error (.on name.line (.undefinedFunction name.lexeme)))

def fitVariable (name : Token) (type : TokenKind) (value : Value) : Except Failure Literal :=
  match type.fit value with
  | .ok l => .ok l
  | .error .mismatch =>
    .error (.error (.on name.line
      (.variableTypeMismatch name.lexeme (.str type.label) (.str (Value.typeName value)))))
  | .error (.fault f) => .error (.fault f)

def ensureFree (s : Scope) (name : Token) : Except Failure Unit := do
  match ← Failure.ofFault (s.find? name.lexeme) with
  | some _ => throw (.error (.on name.line (.variableAlreadyDeclared name.lexeme)))
  | none => return ()

/-- Declares a variable with a value. The name must be free. -/
def declare (s : Scope) (name : Token) (type : TokenKind) (value : Value) :
    Except Failure (Variable × Scope) := do
  s.ensureFree name
  let v : Variable := ⟨name, some (← fitVariable name type value), type⟩
  return (v, ← Failure.ofFault (s.bind v))

/-- Declares a function. The name must be free. -/
def define (s : Scope) (f : Function) : Except Failure Scope := do
  s.ensureFree f.name
  Failure.ofFault (s.put (.func f))

/-- Gives the variable under a name a new value. It stays under the name it was found by. -/
def assign (s : Scope) (name : Token) (value : Value) : Except Failure (Literal × Scope) := do
  match ← Failure.ofFault (s.find? name.lexeme) with
  | some (.var v) =>
    let l ← fitVariable name v.type value
    return (l, ← Failure.ofFault (s.putAt name.lexeme (.var { v with value := some l })))
  | _ => throw (.error (.on name.line (.variableNotDeclared name.lexeme)))

def describe (s : Scope) : Except Fault String := do
  let entries ← s.entries.mapM fun entry => entry.2.listed
  return "\x7b" ++ ", ".intercalate entries ++ "\x7d"

end Scope

/-- The scope in which the body of a function runs when it is called with some values: a variable
for each parameter. -/
def Function.bindArguments (f : Function) (line : Int) (arguments : List Value) :
    Except Failure Scope :=
  if arguments.length ≠ f.parameters.length then
    .error (.error (.on line
      (.argumentCountMismatch f.name.lexeme (.int f.parameters.length) (.int arguments.length))))
  else
    (f.parameters.zip arguments).foldlM bindOne .empty
where
  /-- Adds the variable of one parameter. -/
  bindOne (scope : Scope) : Parameter × Value → Except Failure Scope
    | (p, value) =>
      match p.type.fit value with
      | .ok l => Failure.ofFault (scope.bind ⟨p.name, some l, p.type⟩)
      | .error .mismatch =>
        .error (.error (.on line
          (.argumentType p.name.lexeme (.str p.type.label) (.str (Value.typeName value)))))
      | .error (.fault f) => .error (.fault f)

end Hive
