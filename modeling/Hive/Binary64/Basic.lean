/-!
Double precision numbers, kept exactly. Every finite double is a whole number of **units** of
`2 ^ -1074`, and the magnitudes are numbered by their **rank** in ascending order: rank `0` is zero,
rank `1` the least positive number, and the top rank is infinity. Rounding a fraction is then one
computation on natural numbers, and the order of two doubles is the order of their signed ranks.
-/

namespace Hive

-- Powers are those of the natural numbers themselves, also where they are known as a monoid.
attribute [local instance (high)] instPowNat

/-- The rank of infinity: `2047` blocks of `2 ^ 52` magnitudes lie below it. -/
def infinityRank : Nat := 2047 * 2 ^ (52 : Nat)

/-- A double: either no number at all, or a sign and the rank of a magnitude. -/
inductive Binary64 where
  | nan
  | ranked (negative : Bool) (rank : Fin (infinityRank + 1))
  deriving DecidableEq, Inhabited

namespace Binary64

/-- How many units make one. -/
def unitsPerOne : Nat := 2 ^ (1074 : Nat)

/-- The number of units in the magnitude of a rank. In each block of `2 ^ 52` ranks the step from
one magnitude to the next is constant, and it doubles from block to block after the second. -/
def units (rank : Nat) : Nat :=
  if rank < 2 ^ (52 : Nat) then rank
  else (2 ^ (52 : Nat) + rank % 2 ^ (52 : Nat)) * 2 ^ (rank / 2 ^ (52 : Nat) - 1)

/-- The whole number nearest to `num / den`; a half goes to the even neighbour. -/
def roundHalfEven (num den : Nat) : Nat :=
  let q := num / den
  let r := num % den
  if 2 * r < den then q else if den < 2 * r then q + 1 else q + q % 2

/-- The rank of the magnitude nearest to `num / den`, counted on past infinity. The step `2 ^ k`
is the one of the block that holds the fraction. -/
def nearestRank (num den : Nat) : Nat :=
  let k := (num * unitsPerOne / den).log2 - 52
  k * 2 ^ (52 : Nat) + roundHalfEven (num * unitsPerOne) (den * 2 ^ k)

/-- The double of a sign and a rank; ranks past infinity are infinity. -/
def ofRank (negative : Bool) (rank : Nat) : Binary64 :=
  .ranked negative ⟨min rank infinityRank, by omega⟩

def round (negative : Bool) (num den : Nat) : Binary64 :=
  ofRank negative (nearestRank num den)

def zero (negative : Bool) : Binary64 := ofRank negative 0

def infinity (negative : Bool) : Binary64 := ofRank negative infinityRank

def signed (negative : Bool) (n : Nat) : Int := if negative then -(n : Int) else n

def isZero : Binary64 → Bool
  | .nan => false
  | .ranked _ r => r.val == 0

end Binary64

end Hive
