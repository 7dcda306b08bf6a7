import Hive.Json.Reader
import Hive.Json.Writer
import Hive.Token.Basic

/-!
Token streams stored as JSON: a list with an object for each token, which has the fields `type`,
`lexeme`, `literal` and `line`. A token file holds the text of one.
-/

namespace Hive.Token

def toJson (t : Token) : Json :=
  .obj [("type", .str t.kind.storedName), ("lexeme", t.lexeme), ("literal", t.literal),
    ("line", .int t.line)]

def streamToJson (tokens : List Token) : Json := .arr (tokens.map toJson)

def kindOfJson : Option Json → Except Fault TokenKind
  | some (.arr _) | some (.obj _) => .error .unsuitable
  | some (.str name) =>
    match TokenKind.ofStoredName? name with
    | some kind => .ok kind
    | none => .error (.unknownTokenKind name)
  | type => do throw (.unknownTokenKind (← (type.getD .null).plainText))

/-- The literal of a token of a kind: numbers are converted to their type, all else is kept. -/
def literalOfJson (kind : TokenKind) (x : Json) : Except Fault Json :=
  if x = .null then .ok .null
  else match kind with
    | .literal .int => return .int (← x.toInteger)
    | .literal .flt => return .flt (← x.toDouble)
    | _ => .ok x

/-- The token of a stored form. A missing lexeme is empty, and a missing line is zero. -/
def ofJson : Json → Except Fault Token
  | .obj fields => do
    let kind ← kindOfJson (Table.get? "type" fields)
    let literal ← literalOfJson kind ((Table.get? "literal" fields).getD .null)
    let lexeme := (Table.get? "lexeme" fields).getD (.str "")
    let line ← ((Table.get? "line" fields).getD (.int 0)).toInteger
    return ⟨kind, lexeme, literal, line⟩
  | x => do throw (.notTokenObject (← x.shownText))

def streamOfJson : Json → Except Fault (List Token)
  | .arr elements => elements.mapM ofJson
  | _ => .error .notTokenList

/-- The text of the token file of a stream. -/
def encodeStream (tokens : List Token) : Except Fault String :=
  (streamToJson tokens).render .indented

/-- The stream of a token file. -/
def decodeStream (text : String) : Except Fault (List Token) := do
  streamOfJson (← Json.parse text)

end Hive.Token
