import Hive.Number
import Hive.Text.Classes

/-!
Reading numerals. `Numeral.integer` and `Numeral.double` read a numeral that stands alone, with
blanks around it, a sign, and single underscores between digits; `Numeral.lexeme` reads the run of
digits and dots that makes up a number in a program.
-/

namespace Hive.Numeral

def ofDigits (digits : List Char) : Except Fault Nat :=
  if digits.length ≤ digitLimit then .ok (Text.decimalValue digits)
  else .error (.numeralTooLong digits.length)

/-- The plain character that a character of another script counts as in a numeral. -/
def plain (c : Char) : Char :=
  if c.toNat < 128 then c
  else if Text.isBlank c then ' '
  else match Text.digitValue? c with
    | some d => Char.ofNat (48 + d)
    | none => c

/-- A numeral in plain characters and without the blanks around it. -/
def prepare (s : String) : List Char := Text.strip Text.isPlainBlank (s.toList.map plain)

/-- A leading sign, and the rest. -/
def sign : List Char → Bool × List Char
  | '-' :: cs => (true, cs)
  | '+' :: cs => (false, cs)
  | cs => (false, cs)

/-- Whether every underscore stands between two digits. -/
def underscoresFit : List Char → Bool
  | [] => true
  | '_' :: _ => false
  | [_] => true
  | c :: '_' :: d :: cs => c.isDigit && d.isDigit && underscoresFit (d :: cs)
  | [_, '_'] => false
  | _ :: d :: cs => underscoresFit (d :: cs)

/-- An integer numeral. A run of digits that is too long is reported before what follows it. -/
def integer (s : String) : Except Fault Int :=
  let (negative, body) := sign (prepare s)
  let part := fun (c : Char) => c.isDigit || c == '_'
  let run := body.takeWhile part
  if run.isEmpty || !underscoresFit run then .error (.notInteger s)
  else do
    let n ← ofDigits (run.filter Char.isDigit)
    if (body.dropWhile part).isEmpty then return Binary64.signed negative n
    else throw (.notInteger s)

/-- The exponent part of a numeral: none, or a mark, a sign and digits up to the end. -/
def exponent? : List Char → Option Int
  | [] => some 0
  | e :: cs =>
    if e == 'e' || e == 'E' then
      let (negative, digits) := sign cs
      if digits.isEmpty || !digits.all Char.isDigit then none
      else some (Binary64.signed negative (Text.decimalValue digits))
    else none

/-- An unsigned numeral with an optional fraction and exponent. -/
def decimal? (negative : Bool) (cs : List Char) : Option Binary64 :=
  let whole := cs.takeWhile Char.isDigit
  let afterWhole := cs.dropWhile Char.isDigit
  let point := afterWhole.head? == some '.'
  let fraction := if point then afterWhole.tail.takeWhile Char.isDigit else []
  let afterFraction := if point then afterWhole.tail.dropWhile Char.isDigit else afterWhole
  if whole.isEmpty && fraction.isEmpty then none
  else do
    let e ← exponent? afterFraction
    return .ofDecimal negative (Text.decimalValue (whole ++ fraction)) (e - fraction.length)

/-- A numeral of a double, which may also be a name of infinity or nan. -/
def double (s : String) : Except Fault Binary64 :=
  let cs := prepare s
  if underscoresFit cs then
    let (negative, body) := sign (cs.filter (· != '_'))
    let name := String.ofList (body.map Char.toLower)
    if name == "inf" || name == "infinity" then .ok (.infinity negative)
    else if name == "nan" then .ok .nan
    else match decimal? negative body with
      | some x => .ok x
      | none => .error (.notNumber s)
  else .error (.notNumber s)

/-- The number written by a run of digits and dots: an integer without a dot; otherwise a double,
and all from a second dot on is ignored. -/
def lexeme (cs : List Char) : Except Fault Number :=
  let whole := cs.takeWhile (· != '.')
  match cs.dropWhile (· != '.') with
  | [] => if whole.isEmpty then .error (.notInteger "") else (ofDigits whole).map fun n => .int n
  | _ :: rest =>
    let fraction := rest.takeWhile (· != '.')
    .ok (.flt (.ofDecimal false (Text.decimalValue (whole ++ fraction)) (-fraction.length)))

end Hive.Numeral
