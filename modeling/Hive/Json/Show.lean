import Hive.Json.Basic

/-!
Data as they are shown in messages: texts in quotes, lists in brackets, and `None`, `True`, `False`
for null and the truth values. Where the value of a program is printed, its integers have to keep
to the digit limit.
-/

namespace Hive.Json

mutual
/-- The form in which a datum is shown. -/
def shown : Json → String
  | .null => "None"
  | .bool b => if b then "True" else "False"
  | .int n => decimalText n
  | .flt x => x.text
  | .str s => Text.quoted s
  | .arr xs => "[" ++ ", ".intercalate (shownElements xs) ++ "]"
  | .obj fields => "\x7b" ++ ", ".intercalate (shownFields fields) ++ "\x7d"
def shownElements : List Json → List String
  | [] => []
  | x :: xs => shown x :: shownElements xs
def shownFields : List (String × Json) → List String
  | [] => []
  | (k, x) :: xs => (Text.quoted k ++ ": " ++ shown x) :: shownFields xs
end

/-- The plain form of a datum: a text as it is, all else as shown. -/
def plain : Json → String
  | .str s => s
  | x => shown x

mutual
/-- Whether all integers in a datum keep to the digit limit. -/
def isPrintable : Json → Bool
  | .int n => isPrintableInteger n
  | .arr xs => arePrintable xs
  | .obj fields => arePrintableFields fields
  | _ => true
def arePrintable : List Json → Bool
  | [] => true
  | x :: xs => isPrintable x && arePrintable xs
def arePrintableFields : List (String × Json) → Bool
  | [] => true
  | (_, x) :: xs => isPrintable x && arePrintableFields xs
end

/-- The form in which a datum is shown, if it is printable. -/
def shownText (x : Json) : Except Fault String :=
  if x.isPrintable then .ok x.shown else .error .integerTooLong

/-- The plain form of a datum, if it is printable. -/
def plainText (x : Json) : Except Fault String :=
  if x.isPrintable then .ok x.plain else .error .integerTooLong

end Hive.Json
