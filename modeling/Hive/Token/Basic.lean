import Hive.Json.Show
import Hive.Token.Kind

/-!
Tokens: the units of a program. A token keeps its lexeme, the line it starts on, and the datum of
its literal, which is null for tokens that are no literals. The lexeme is the text that the token is
written with; tokens that are not lexed but stored may have any datum in its place.
-/

namespace Hive

structure Token where
  kind : TokenKind
  lexeme : Json
  literal : Json
  line : Int
  deriving DecidableEq, Inhabited

namespace Token

/-- The token that stands for the end of a program. -/
def atEnd (line : Int) : Token := ⟨.endOfInput, .str "", .null, line⟩

def describe (t : Token) : Except Fault String := do
  let lexeme ← t.lexeme.shownText
  let literal ← if t.literal = .null then pure "" else do pure ((← t.literal.shownText) ++ ", ")
  let line ← integerText t.line
  return "Token(" ++ t.kind.storedName ++ ", " ++ lexeme ++ ", " ++ literal ++ "line " ++ line
    ++ ")"

end Token

end Hive
