import Hive.Binary64.Basic

/-!
Arithmetic on doubles: each operation computes its exact result in units and rounds it once.
Comparisons are exact, also between a double and a whole number.
-/

namespace Hive.Binary64

def isTop (rank : Fin (infinityRank + 1)) : Bool := rank.val == infinityRank

/-- The double of a signed number of parts, `parts` of which make one. An exact zero is positive. -/
def ofParts (n : Int) (parts : Nat) : Binary64 := round (n < 0) n.natAbs parts

/-- The sum. Opposite infinities have none, and zeros of one sign keep it. -/
def add : Binary64 → Binary64 → Binary64
  | .ranked s a, .ranked t b =>
    if isTop a then (if isTop b && s != t then .nan else .ranked s a)
    else if isTop b then .ranked t b
    else if a.val == 0 && b.val == 0 then zero (s && t)
    else ofParts (signed s (units a) + signed t (units b)) unitsPerOne
  | _, _ => .nan

def neg : Binary64 → Binary64
  | .nan => .nan
  | .ranked s a => .ranked (!s) a

def sub (x y : Binary64) : Binary64 := add x (neg y)

/-- The product. Zero times infinity has none. -/
def mul : Binary64 → Binary64 → Binary64
  | .ranked s a, .ranked t b =>
    if isTop a || isTop b then
      if a.val == 0 || b.val == 0 then .nan else infinity (s != t)
    else round (s != t) (units a * units b) (unitsPerOne * unitsPerOne)
  | _, _ => .nan

/-- The quotient. Zero by zero and infinity by infinity have none. -/
def div : Binary64 → Binary64 → Binary64
  | .ranked s a, .ranked t b =>
    if isTop a then (if isTop b then .nan else infinity (s != t))
    else if isTop b then zero (s != t)
    else if b.val == 0 then (if a.val == 0 then .nan else infinity (s != t))
    else round (s != t) (units a) (units b)
  | _, _ => .nan

/-- The double nearest to a whole number, unless the number rounds beyond the largest double. -/
def ofInt? (n : Int) : Option Binary64 :=
  let r := nearestRank n.natAbs 1
  if r < infinityRank then some (ofRank (n < 0) r) else none

/-- The double nearest to the quotient of two whole numbers, unless it rounds beyond the largest
double. -/
def quotient? (a b : Int) : Option Binary64 :=
  let r := nearestRank a.natAbs b.natAbs
  if r < infinityRank then some (ofRank ((a < 0) != (b < 0)) r) else none

inductive NoWholePart where
  | nan
  | infinity
  deriving DecidableEq, Repr

def truncate : Binary64 → Except NoWholePart Int
  | .nan => .error .nan
  | .ranked s a =>
    if isTop a then .error .infinity else .ok (signed s (units a / unitsPerOne))

/-- The order of two doubles; a nan has none. -/
def compare? : Binary64 → Binary64 → Option Ordering
  | .ranked s a, .ranked t b => some (compare (signed s a) (signed t b))
  | _, _ => none

/-- The exact order of a double and a whole number. -/
def compareInt? : Binary64 → Int → Option Ordering
  | .nan, _ => none
  | .ranked s a, n =>
    if isTop a then some (if s then .lt else .gt)
    else some (compare (signed s (units a)) (n * unitsPerOne))

end Hive.Binary64
