import Hive.Text.Bytes
import Hive.Text.Quoted

/-!
Faults: the ways in which a computation meets a limit or is handed data that it cannot work on.
They are kept apart from the errors of the language, which `Hive.Diagnostic` holds.
-/

namespace Hive

/-- The greatest number of decimal digits an integer may be written with. -/
def digitLimit : Nat := 4300

/-- What stopped a computation, other than an error in the program. -/
inductive Fault where
  /-- An integer numeral of more digits than the limit. -/
  | numeralTooLong (digits : Nat)
  /-- An integer that takes more digits to write than the limit. -/
  | integerTooLong
  /-- The whole part of a number that is none. -/
  | nanToInteger
  /-- The whole part of an infinity. -/
  | infinityToInteger
  /-- An integer beyond the largest double. -/
  | integerTooLarge
  /-- A quotient of integers beyond the largest double. -/
  | quotientTooLarge
  /-- A quotient by zero. -/
  | zeroDivisor
  /-- A text that is no integer numeral. -/
  | notInteger (text : String)
  /-- A text that is no numeral. -/
  | notNumber (text : String)
  /-- A stored token stream that is no list. -/
  | notTokenList
  /-- A stored token that is no object, with the form it is shown in. -/
  | notTokenObject (shown : String)
  /-- A stored token whose kind has no known name, with the form it is shown in. -/
  | unknownTokenKind (shown : String)
  /-- A text that is no JSON, with the place at which reading failed. -/
  | notJson (expectation : String) (line column offset : Nat)
  /-- A file whose bytes are no text. -/
  | undecodable (place : Text.Undecodable)
  /-- A datum handed to an operation that is not defined on it. -/
  | unsuitable
  /-- A token handed to an operation that has no use for its kind. -/
  | unfitKind
  /-- A variable that is read and has no value. -/
  | noValue
  /-- A lexeme that is no text, where its letters are looked at. -/
  | notText
  /-- A place in a token stream before its first token. -/
  | noSuchPlace
  /-- A directory in the place of a file. -/
  | isDirectory
  /-- A path that is too long, as a whole or in one of its parts. -/
  | pathTooLong
  deriving DecidableEq, Repr

namespace Fault

def overLimit (detail : String) : String :=
  s!"Exceeds the limit ({digitLimit} digits) for integer string conversion" ++ detail
    ++ "; use sys.set_int_max_str_digits() to increase the limit"

/-- The greatest number of characters that the message about a bad integer numeral shows of it. -/
def excerptLimit : Nat := 200

/-- The beginning of a quoted text, of which no more than the limit is shown. -/
def excerpt (text : String) : String :=
  String.ofList ((Text.quoted text).toList.take excerptLimit)

/-- The message of a fault; some have none. -/
def message : Fault → String
  | .numeralTooLong digits => overLimit s!": value has {digits} digits"
  | .integerTooLong => overLimit ""
  | .nanToInteger => "cannot convert float NaN to integer"
  | .infinityToInteger => "cannot convert float infinity to integer"
  | .integerTooLarge => "int too large to convert to float"
  | .quotientTooLarge => "integer division result too large for a float"
  | .notInteger text => "invalid literal for int() with base 10: " ++ excerpt text
  | .notNumber text => "could not convert string to float: " ++ Text.quoted text
  | .notTokenList => "token stream must be a JSON list"
  | .notTokenObject shown => "token entry must be a JSON object, got " ++ shown
  | .unknownTokenKind shown => "Unknown token type: " ++ shown
  | .notJson expectation line column offset =>
    s!"{expectation}: line {line} column {column} (char {offset})"
  | .undecodable place => place.message
  | .zeroDivisor | .unsuitable | .unfitKind | .noValue | .notText | .noSuchPlace | .isDirectory
  | .pathTooLong => ""

end Fault

end Hive
