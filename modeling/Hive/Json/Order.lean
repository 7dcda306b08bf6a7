import Hive.Json.Basic
import Hive.Token.Kind

/-!
Comparing data. Numbers and truth values are compared as numbers, exactly; texts by code points;
lists element by element. Data of different sorts are never equal and have no order. A nan is not
equal to a nan, but inside lists and objects one counts as the same as another.
-/

namespace Hive.Json

def areNan : Json → Json → Bool
  | .flt .nan, .flt .nan => true
  | _, _ => false

mutual
def equals : Json → Json → Bool
  | .null, .null => true
  | .str a, .str b => a == b
  | .arr a, .arr b => equalElements a b
  | .obj a, .obj b => a.length == b.length && equalFields a b
  | a, b =>
    match a.number?, b.number? with
    | some m, some n => m.equals n
    | _, _ => false
def equalElements : List Json → List Json → Bool
  | [], [] => true
  | x :: xs, y :: ys => (areNan x y || equals x y) && equalElements xs ys
  | _, _ => false
/-- Whether each of some fields has an equal one in an object. -/
def equalFields : List (String × Json) → List (String × Json) → Bool
  | [], _ => true
  | (k, x) :: xs, fields =>
    (match Table.get? k fields with
      | some y => areNan x y || equals x y
      | none => false) && equalFields xs fields
end

mutual
/-- The order of two data: `none` for data that have none, and `some none` for numbers one of which
is a nan. -/
def order? : Json → Json → Option (Option Ordering)
  | .str a, .str b => some (some (compare a b))
  | .arr a, .arr b => orderElements? a b
  | a, b =>
    match a.number?, b.number? with
    | some m, some n => some (m.compare? n)
    | _, _ => none
/-- The order of two lists: that of the first elements that differ, or else of their lengths. -/
def orderElements? : List Json → List Json → Option (Option Ordering)
  | [], [] => some (some .eq)
  | [], _ :: _ => some (some .lt)
  | _ :: _, [] => some (some .gt)
  | x :: xs, y :: ys =>
    if areNan x y || equals x y then orderElements? xs ys else order? x y
end

end Hive.Json

namespace Hive

/-- Whether a comparison holds of two data; there is no answer for data without an order. -/
def Comparator.holds? (c : Comparator) (a b : Json) : Option Bool :=
  match c with
  | .eq => some (a.equals b)
  | .ne => some (!a.equals b)
  | .gt => (a.order? b).map (· == some .gt)
  | .ge => (a.order? b).map fun o => o == some .gt || o == some .eq
  | .lt => (a.order? b).map (· == some .lt)
  | .le => (a.order? b).map fun o => o == some .lt || o == some .eq

end Hive
