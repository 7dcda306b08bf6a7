import Hive.Json.Basic
import Hive.Json.Order
import Hive.Json.Show
import Hive.Token.Basic

/-!
Values. A **literal** is a datum that counts as one of a type; it is **sound** when the datum really
is one of that type, which all are that come from the text of a program. A value is a literal or
nil.
-/

namespace Hive

/-- A datum that counts as one of a type. -/
structure Literal where
  type : Ty
  datum : Json
  deriving DecidableEq, Inhabited

/-- A literal, or nil. -/
abbrev Value := Option Literal

namespace Literal

def int (n : Int) : Literal := ⟨.int, .int n⟩

def flt (x : Binary64) : Literal := ⟨.flt, .flt x⟩

def str (s : String) : Literal := ⟨.str, .str s⟩

def bool (b : Bool) : Literal := ⟨.bool, .bool b⟩

/-- Whether the datum of a literal is one of its type. -/
def isSound : Literal → Bool
  | ⟨.int, .int _⟩ | ⟨.flt, .flt _⟩ | ⟨.str, .str _⟩ | ⟨.bool, .bool _⟩ => true
  | _ => false

def text : Literal → Except Fault String
  | ⟨.bool, x⟩ => .ok (if x.truth then "true" else "false")
  | ⟨.flt, x⟩ => x.shownText
  | ⟨.int, x⟩ | ⟨.str, x⟩ => x.plainText

/-- The literal of a type that a datum converts to; an integer drops a fraction. -/
def convert (type : Ty) (x : Json) : Except Fault Literal :=
  match type with
  | .int => return .int (← x.toInteger)
  | .flt => return .flt (← x.toDouble)
  | .str => return .str (← x.plainText)
  | .bool => .ok (.bool x.truth)

def ofToken (t : Token) : Except Fault Literal :=
  match t.kind with
  | .keyword .trueWord => .ok (.bool true)
  | .keyword .falseWord => .ok (.bool false)
  | .literal type => .ok ⟨type, t.literal⟩
  | _ => .error .unfitKind

/-- A token that stands for the literal, on the given line. -/
def toToken (l : Literal) (line : Int) : Except Fault Token := do
  return ⟨.literal l.type, .str (← l.text), l.datum, line⟩

/-- The number of a numeric literal, if its datum is one. -/
def number? (l : Literal) : Option Number :=
  match l.datum with
  | .int n => some (.int n)
  | .flt x => some (.flt x)
  | _ => none

/-- Whether two literals are equal: their types are the same and their data are equal. -/
def equals (a b : Literal) : Bool :=
  a.type == b.type && a.datum.equals b.datum

end Literal

namespace Value

def typeName : Value → String
  | none => "nil"
  | some l => l.type.name

def text : Value → Except Fault String
  | none => .ok "nil"
  | some l => l.text

end Value

inductive Misfit where
  /-- The value is of another type. -/
  | mismatch
  /-- There are no values of the type, or an integer cannot be made a double. -/
  | fault (f : Fault)
  deriving DecidableEq, Repr

/-- The literal that a place of the declared type holds when it is given a value. Only an integer
given to a `flt` changes: it becomes a double. -/
def Ty.fit (type : Ty) : Value → Except Misfit Literal
  | none => .error .mismatch
  | some l =>
    if l.type = type then .ok l
    else if type = .flt ∧ l.type = .int then
      match l.datum.toDouble with
      | .ok x => .ok (.flt x)
      | .error .unsuitable => .error .mismatch
      | .error f => .error (.fault f)
    else .error .mismatch

/-- The literal that a place declared by a kind of token holds when it is given a value. Only the
names of types declare places. -/
def TokenKind.fit (kind : TokenKind) (value : Value) : Except Misfit Literal :=
  match kind.type? with
  | some type => type.fit value
  | none => .error (.fault .unfitKind)

def TokenKind.expectation (kind : TokenKind) (value : Value) : String :=
  "expected " ++ kind.label ++ ", got " ++ Value.typeName value

end Hive
