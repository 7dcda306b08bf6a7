import Hive.Binary64.Arithmetic
import Hive.Binary64.Decimal
import Hive.Fault

/-!
Numbers: unbounded integers and doubles. Integers among themselves are exact; an integer that meets
a double is rounded to one first, and comparisons are always exact.
-/

namespace Hive

attribute [local instance (high)] instPowNat

inductive Number where
  | int (n : Int)
  | flt (x : Binary64)
  deriving DecidableEq, Inhabited

/-- The least natural number that takes more digits to write than the limit. -/
def printableBound : Nat := 10 ^ digitLimit

def decimalText (n : Int) : String :=
  String.ofList ((if n < 0 then ['-'] else []) ++ Nat.toDigits 10 n.natAbs)

/-- Whether an integer is written with no more digits than the limit. -/
def isPrintableInteger (n : Int) : Bool := n.natAbs < printableBound

/-- The decimal text of an integer within the limit. -/
def integerText (n : Int) : Except Fault String :=
  if isPrintableInteger n then .ok (decimalText n) else .error .integerTooLong

/-- What there is, or a fault if there is nothing. -/
def orFault {α : Type} (f : Fault) : Option α → Except Fault α
  | some a => .ok a
  | none => .error f

def doubleOfInteger (n : Int) : Except Fault Binary64 :=
  orFault .integerTooLarge (Binary64.ofInt? n)

/-- The whole part of a double. -/
def integerOfDouble (x : Binary64) : Except Fault Int :=
  match x.truncate with
  | .ok n => .ok n
  | .error .nan => .error .nanToInteger
  | .error .infinity => .error .infinityToInteger

namespace Number

def toDouble : Number → Except Fault Binary64
  | .int n => doubleOfInteger n
  | .flt x => .ok x

/-- The number as an integer, its fraction dropped. -/
def toInteger : Number → Except Fault Int
  | .int n => .ok n
  | .flt x => integerOfDouble x

def text : Number → Except Fault String
  | .int n => integerText n
  | .flt x => .ok x.text

def isZero : Number → Bool
  | .int n => n == 0
  | .flt x => x.isZero

/-- Applies one operation to integers and another to doubles. -/
def combine (exact : Int → Int → Int) (rounded : Binary64 → Binary64 → Binary64) :
    Number → Number → Except Fault Number
  | .int a, .int b => .ok (.int (exact a b))
  | a, b => do return .flt (rounded (← a.toDouble) (← b.toDouble))

def add : Number → Number → Except Fault Number := combine (· + ·) Binary64.add

def sub : Number → Number → Except Fault Number := combine (· - ·) Binary64.sub

def mul : Number → Number → Except Fault Number := combine (· * ·) Binary64.mul

/-- The quotient, which is always a double. There is none by zero. -/
def div : Number → Number → Except Fault Binary64
  | .int a, .int b =>
    if b = 0 then .error .zeroDivisor else orFault .quotientTooLarge (Binary64.quotient? a b)
  | a, b => do
    let x ← a.toDouble
    let y ← b.toDouble
    if y.isZero then throw .zeroDivisor else return x.div y

/-- The exact order of two numbers; a nan has none. -/
def compare? : Number → Number → Option Ordering
  | .int a, .int b => some (compare a b)
  | .int a, .flt y => (y.compareInt? a).map Ordering.swap
  | .flt x, .int b => x.compareInt? b
  | .flt x, .flt y => x.compare? y

def equals (a b : Number) : Bool := a.compare? b == some .eq

end Number

end Hive
