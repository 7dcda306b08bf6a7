import Hive.Numeral

/-!
JSON data. Numbers written without a fraction and exponent are integers of any size, and the fields
of an object keep their order. Data may be taken as numbers, where truth values count as one and
zero and texts are read as numerals, and as keys of a table, where equal numbers are one key.
-/

namespace Hive

/-! ### Ordered tables -/

namespace Table

variable {κ α : Type} [DecidableEq κ]

def get? (key : κ) : List (κ × α) → Option α
  | [] => none
  | (k, a) :: rest => if k = key then some a else get? key rest

/-- Puts an entry under a key: in its place if the key is there, at the end otherwise. -/
def insert (key : κ) (a : α) : List (κ × α) → List (κ × α)
  | [] => [(key, a)]
  | (k, b) :: rest => if k = key then (key, a) :: rest else (k, b) :: insert key a rest

def erase (key : κ) : List (κ × α) → List (κ × α)
  | [] => []
  | (k, a) :: rest => if k = key then rest else (k, a) :: erase key rest

/-- The table that has a key and an entry for each pair of a list; the last pair of a key gives its
entry. -/
def ofList (pairs : List (κ × α)) : List (κ × α) :=
  pairs.foldl (fun table (key, a) => insert key a table) []

end Table

/-! ### Data -/

inductive Json where
  | null
  | bool (b : Bool)
  | int (n : Int)
  | flt (x : Binary64)
  | str (s : String)
  | arr (elements : List Json)
  | obj (fields : List (String × Json))
  deriving Inhabited

namespace Json

mutual
def decEq : (a b : Json) → Decidable (a = b)
  | .null, .null => .isTrue rfl
  | .bool a, .bool b => decidable_of_iff (a = b) ⟨congrArg _, fun h => by cases h; rfl⟩
  | .int a, .int b => decidable_of_iff (a = b) ⟨congrArg _, fun h => by cases h; rfl⟩
  | .flt a, .flt b => decidable_of_iff (a = b) ⟨congrArg _, fun h => by cases h; rfl⟩
  | .str a, .str b => decidable_of_iff (a = b) ⟨congrArg _, fun h => by cases h; rfl⟩
  | .arr a, .arr b =>
    @decidable_of_iff _ (a = b) ⟨congrArg _, fun h => by cases h; rfl⟩ (decEqElements a b)
  | .obj a, .obj b =>
    @decidable_of_iff _ (a = b) ⟨congrArg _, fun h => by cases h; rfl⟩ (decEqFields a b)
  | .null, .bool _ | .null, .int _ | .null, .flt _ | .null, .str _ | .null, .arr _ | .null, .obj _
  | .bool _, .null | .bool _, .int _ | .bool _, .flt _ | .bool _, .str _ | .bool _, .arr _
  | .bool _, .obj _ | .int _, .null | .int _, .bool _ | .int _, .flt _ | .int _, .str _
  | .int _, .arr _ | .int _, .obj _ | .flt _, .null | .flt _, .bool _ | .flt _, .int _
  | .flt _, .str _ | .flt _, .arr _ | .flt _, .obj _ | .str _, .null | .str _, .bool _
  | .str _, .int _ | .str _, .flt _ | .str _, .arr _ | .str _, .obj _ | .arr _, .null
  | .arr _, .bool _ | .arr _, .int _ | .arr _, .flt _ | .arr _, .str _ | .arr _, .obj _
  | .obj _, .null | .obj _, .bool _ | .obj _, .int _ | .obj _, .flt _ | .obj _, .str _
  | .obj _, .arr _ => .isFalse nofun
def decEqElements : (a b : List Json) → Decidable (a = b)
  | [], [] => .isTrue rfl
  | [], _ :: _ => .isFalse nofun
  | _ :: _, [] => .isFalse nofun
  | x :: xs, y :: ys =>
    match decEq x y, decEqElements xs ys with
    | .isTrue h, .isTrue hs => .isTrue (by rw [h, hs])
    | .isFalse h, _ => .isFalse fun e => h (List.cons.inj e).1
    | _, .isFalse h => .isFalse fun e => h (List.cons.inj e).2
def decEqFields : (a b : List (String × Json)) → Decidable (a = b)
  | [], [] => .isTrue rfl
  | [], _ :: _ => .isFalse nofun
  | _ :: _, [] => .isFalse nofun
  | (k, x) :: xs, (l, y) :: ys =>
    match decEq x y, decEqFields xs ys with
    | .isTrue h, .isTrue hs =>
      if e : k = l then .isTrue (by rw [h, hs, e])
      else .isFalse fun q => e (Prod.mk.inj (List.cons.inj q).1).1
    | .isFalse h, _ => .isFalse fun q => h (Prod.mk.inj (List.cons.inj q).1).2
    | _, .isFalse h => .isFalse fun q => h (List.cons.inj q).2
end

instance : DecidableEq Json := decEq

/-- The number of a datum that counts as one; truth values count as one and zero. -/
def number? : Json → Option Number
  | .bool b => some (.int (if b then 1 else 0))
  | .int n => some (.int n)
  | .flt x => some (.flt x)
  | _ => none

/-- Whether a datum counts as true: all do but null, false, zeros and what is empty. -/
def truth : Json → Bool
  | .null => false
  | .bool b => b
  | .int n => n != 0
  | .flt x => !x.isZero
  | .str s => !s.isEmpty
  | .arr xs => !xs.isEmpty
  | .obj fields => !fields.isEmpty

def ofNumber : Number → Json
  | .int n => .int n
  | .flt x => .flt x

/-! ### Data as numbers -/

/-- The datum as an integer; a double drops its fraction. -/
def toInteger : Json → Except Fault Int
  | .bool b => .ok (if b then 1 else 0)
  | .int n => .ok n
  | .flt x => integerOfDouble x
  | .str s => Numeral.integer s
  | .null | .arr _ | .obj _ => .error .unsuitable

def toDouble : Json → Except Fault Binary64
  | .bool b => doubleOfInteger (if b then 1 else 0)
  | .int n => doubleOfInteger n
  | .flt x => .ok x
  | .str s => Numeral.double s
  | .null | .arr _ | .obj _ => .error .unsuitable

end Json

/-! ### Data as keys -/

/-- The integer that a double is equal to, if there is one. -/
def Binary64.integer? (x : Binary64) : Option Int :=
  match x.truncate with
  | .ok n => if x.compareInt? n = some .eq then some n else none
  | .error _ => none

/-- The key that a datum stands for. Two data stand for the same key if they are equal. -/
def Json.key : Json → Except Fault Json
  | .bool b => .ok (.int (if b then 1 else 0))
  | .flt x => .ok ((x.integer?.map Json.int).getD (.flt x))
  | .arr _ | .obj _ => .error .unsuitable
  | x => .ok x

@[simp]
theorem Json.key_str (s : String) : (Json.str s).key = .ok (.str s) := rfl

end Hive
