import Hive.Binary64.Basic

/-!
Doubles and decimals. `ofDecimal` reads `m · 10 ^ e` correctly rounded, `shortest` finds the fewest
decimal digits that read back as the same double, and `text` lays those digits out.
-/

namespace Hive.Binary64

attribute [local instance (high)] instPowNat

/-! ### Reading -/

/-- The rank of `m · 10 ^ e`, counted on past infinity. An exponent that puts the number far beyond
the largest double, or far below half the least one, needs no computation. -/
def decimalRank (m : Nat) (e : Int) : Nat :=
  if m == 0 then 0
  else if 0 ≤ e then
    if 400 < e then infinityRank else nearestRank (m * 10 ^ e.toNat) 1
  else
    if m.log2 + 1077 ≤ 3 * e.natAbs then 0 else nearestRank m (10 ^ e.natAbs)

/-- The double nearest to `m · 10 ^ e`, with a sign. -/
def ofDecimal (negative : Bool) (m : Nat) (e : Int) : Binary64 :=
  ofRank negative (decimalRank m e)

/-! ### The fewest digits -/

/-- The exponent `p` with `10 ^ (p - 1) ≤ u < 10 ^ p` for a positive number `u` of units. -/
def magnitude (u : Nat) : Int :=
  (Nat.toDigits 10 (u * 10 ^ (400 : Nat) / unitsPerOne)).length - 400

/-- A decimal of `n` digits that reads back as the given rank, written as whole number and exponent.
Only the two neighbours of the number on the grid of `n` digits are tried; the nearer one wins, and
of two equally near ones the even one. -/
def decimalOf? (rank n : Nat) : Option (Nat × Int) :=
  let u := units rank
  let e := magnitude u - n
  let num := if e < 0 then u * 10 ^ e.natAbs else u
  let den := if e < 0 then unitsPerOne else unitsPerOne * 10 ^ e.natAbs
  let low := num / den
  let near := roundHalfEven num den
  let far := if near == low then low + 1 else low
  if decimalRank near e == rank then some (near, e)
  else if decimalRank far e == rank then some (far, e)
  else none

/-- The decimal with the fewest digits that reads back as the given rank; seventeen always do, and
the exact expansion stands behind them. -/
def shortest (rank : Nat) : Nat × Int :=
  ((List.range 17).findSome? fun n => decimalOf? rank (n + 1)).getD
    (units rank * 5 ^ (1074 : Nat), -1074)

/-! ### Layout -/

structure Layout where
  /-- The exponents of the leading digit that are written positionally, from the first one on. -/
  positionalFrom : Int
  /-- The first exponent above them. -/
  positionalBelow : Int
  /-- The least number of digits in a written exponent. -/
  exponentWidth : Nat

/-- Numbers are written positionally from `0.0001` up to sixteen digits before the point, and an
exponent has a sign and at least two digits. -/
def layout : Layout := ⟨-4, 16, 2⟩

/-- The digits of a positive decimal with its trailing zeros dropped. -/
def significant (m : Nat) : List Char :=
  ((Nat.toDigits 10 m).reverse.dropWhile (· == '0')).reverse

/-- A positive number in positional notation: its significant digits, the first of which stands for
`10 ^ e`. There is always a digit on each side of the point. -/
def positional (digits : List Char) (e : Int) : List Char :=
  if e < 0 then '0' :: '.' :: List.replicate (e.natAbs - 1) '0' ++ digits
  else
    let n := e.toNat + 1
    let whole := digits.take n ++ List.replicate (n - digits.length) '0'
    let fraction := digits.drop n
    whole ++ '.' :: (if fraction.isEmpty then ['0'] else fraction)

def scientific (digits : List Char) (e : Int) : List Char :=
  let mantissa := digits.take 1 ++ (if digits.length > 1 then '.' :: digits.drop 1 else [])
  let power := Nat.toDigits 10 e.natAbs
  mantissa ++ 'e' :: (if e < 0 then '-' else '+')
    :: List.replicate (layout.exponentWidth - power.length) '0' ++ power

def magnitudeText (rank : Nat) : List Char :=
  if rank == 0 then ['0', '.', '0']
  else if rank == infinityRank then ['i', 'n', 'f']
  else
    let (m, e) := shortest rank
    let top := e + (Nat.toDigits 10 m).length - 1
    if layout.positionalFrom ≤ top ∧ top < layout.positionalBelow then
      positional (significant m) top
    else scientific (significant m) top

/-- The text of a double: the fewest digits that read back. -/
def text : Binary64 → String
  | .nan => "nan"
  | .ranked s a =>
    let digits := magnitudeText a
    String.ofList (if s then '-' :: digits else digits)

end Hive.Binary64
