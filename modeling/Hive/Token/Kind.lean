/-!
The kinds of tokens: punctuation, operators, literals, names of types, identifiers and keywords.
-/

namespace Hive

inductive Ty where
  | int
  | flt
  | str
  | bool
  deriving DecidableEq, Repr, Inhabited

/-- The name of a type, as programs write it. -/
def Ty.name : Ty → String
  | .int => "int"
  | .flt => "flt"
  | .str => "str"
  | .bool => "bool"

inductive Keyword where
  | elseWord
  | falseWord
  | forWord
  | funWord
  | ifWord
  | nilWord
  | orWord
  | returnWord
  | superWord
  | thisWord
  | trueWord
  | varWord
  | whileWord
  | entityWord
  | progWord
  | createWord
  | runWord
  | outputWord
  | clearWord
  deriving DecidableEq, Repr, Inhabited

def Keyword.spelling : Keyword → String
  | .elseWord => "else"
  | .falseWord => "false"
  | .forWord => "for"
  | .funWord => "fun"
  | .ifWord => "if"
  | .nilWord => "nil"
  | .orWord => "or"
  | .returnWord => "return"
  | .superWord => "super"
  | .thisWord => "this"
  | .trueWord => "true"
  | .varWord => "var"
  | .whileWord => "while"
  | .entityWord => "entity"
  | .progWord => "prog"
  | .createWord => "create"
  | .runWord => "run"
  | .outputWord => "output"
  | .clearWord => "clear"

inductive ArithOp where
  | add
  | sub
  | mul
  | div
  deriving DecidableEq, Repr

inductive Comparator where
  | eq
  | ne
  | gt
  | ge
  | lt
  | le
  deriving DecidableEq, Repr

inductive TokenKind where
  | leftParen
  | rightParen
  | leftBrace
  | rightBrace
  | leftBracket
  | rightBracket
  | comma
  | dot
  | minus
  | plus
  | semicolon
  | slash
  | star
  | bang
  | bangEqual
  | equal
  | equalEqual
  | greater
  | greaterEqual
  | less
  | lessEqual
  /-- A literal of a type. -/
  | literal (type : Ty)
  /-- The name of a type, which starts a declaration. -/
  | typeName (type : Ty)
  | identifier
  | keyword (word : Keyword)
  | endOfInput
  deriving DecidableEq, Repr, Inhabited

namespace TokenKind

/-- All kinds, in the order of their table. -/
def all : List TokenKind :=
  [.leftParen, .rightParen, .leftBrace, .rightBrace, .leftBracket, .rightBracket, .comma, .dot,
   .minus, .plus, .semicolon, .slash, .star, .bang, .bangEqual, .equal, .equalEqual, .greater,
   .greaterEqual, .less, .lessEqual, .literal .int, .literal .flt, .literal .str, .literal .bool,
   .typeName .int, .typeName .flt, .typeName .str, .typeName .bool, .identifier,
   .keyword .elseWord, .keyword .falseWord, .keyword .forWord, .keyword .funWord, .keyword .ifWord,
   .keyword .nilWord, .keyword .orWord, .keyword .returnWord, .keyword .superWord,
   .keyword .thisWord, .keyword .trueWord, .keyword .varWord, .keyword .whileWord,
   .keyword .entityWord, .keyword .progWord, .keyword .createWord, .keyword .runWord,
   .keyword .outputWord, .keyword .clearWord, .endOfInput]

/-- The name under which a kind is stored in a token file. -/
def storedName : TokenKind → String
  | .leftParen => "LEFT_PAREN"
  | .rightParen => "RIGHT_PAREN"
  | .leftBrace => "LEFT_BRACE"
  | .rightBrace => "RIGHT_BRACE"
  | .leftBracket => "LEFT_BRACKET"
  | .rightBracket => "RIGHT_BRACKET"
  | .comma => "COMMA"
  | .dot => "DOT"
  | .minus => "MINUS"
  | .plus => "PLUS"
  | .semicolon => "SEMICOLON"
  | .slash => "SLASH"
  | .star => "STAR"
  | .bang => "BANG"
  | .bangEqual => "BANG_EQUAL"
  | .equal => "EQUAL"
  | .equalEqual => "EQUAL_EQUAL"
  | .greater => "GREATER"
  | .greaterEqual => "GREATER_EQUAL"
  | .less => "LESS"
  | .lessEqual => "LESS_EQUAL"
  | .literal .int => "INTEGER"
  | .literal .flt => "FLOAT"
  | .literal .str => "STRING"
  | .literal .bool => "BOOLEAN"
  | .typeName .int => "INTEGER_TYPE"
  | .typeName .flt => "FLOAT_TYPE"
  | .typeName .str => "STRING_TYPE"
  | .typeName .bool => "BOOLEAN_TYPE"
  | .identifier => "IDENTIFIER"
  | .keyword .elseWord => "ELSE"
  | .keyword .falseWord => "FALSE"
  | .keyword .forWord => "FOR"
  | .keyword .funWord => "FUN"
  | .keyword .ifWord => "IF"
  | .keyword .nilWord => "NIL"
  | .keyword .orWord => "OR"
  | .keyword .returnWord => "RETURN"
  | .keyword .superWord => "SUPER"
  | .keyword .thisWord => "THIS"
  | .keyword .trueWord => "TRUE"
  | .keyword .varWord => "VAR"
  | .keyword .whileWord => "WHILE"
  | .keyword .entityWord => "CLASS"
  | .keyword .progWord => "FUNCTION"
  | .keyword .createWord => "NEW"
  | .keyword .runWord => "RUN"
  | .keyword .outputWord => "PRINT"
  | .keyword .clearWord => "CLEAR"
  | .endOfInput => "EOF"

/-- The kind stored under a name. -/
def ofStoredName? (name : String) : Option TokenKind :=
  all.find? fun kind => kind.storedName == name

/-- The spelling of a kind: how its tokens are written, or what stands for them in the table. -/
def spelling : TokenKind → String
  | .leftParen => "("
  | .rightParen => ")"
  | .leftBrace => "\x7b"
  | .rightBrace => "\x7d"
  | .leftBracket => "["
  | .rightBracket => "]"
  | .comma => ","
  | .dot => "."
  | .minus => "-"
  | .plus => "+"
  | .semicolon => ";"
  | .slash => "/"
  | .star => "*"
  | .bang => "!"
  | .bangEqual => "!="
  | .equal => "="
  | .equalEqual => "=="
  | .greater => ">"
  | .greaterEqual => ">="
  | .less => "<"
  | .lessEqual => "<="
  | .literal type => type.name
  | .typeName type => String.ofList (type.name.toList.map Char.toUpper)
  | .identifier => "IDENTIFIER"
  | .keyword word => word.spelling
  | .endOfInput => "EOF"

/-- The spelling of a kind in lower case, as messages name it. -/
def label (kind : TokenKind) : String := String.ofList (kind.spelling.toList.map Char.toLower)

/-- The words of the language and the kinds of their tokens. -/
def words : List (String × TokenKind) :=
  [.elseWord, .falseWord, .forWord, .funWord, .ifWord, .nilWord, .orWord, .returnWord, .superWord,
   .thisWord, .trueWord, .varWord, .whileWord, .entityWord, .progWord, .createWord, .runWord,
   .outputWord, .clearWord].map (fun (w : Keyword) => (w.spelling, .keyword w))
  ++ [.int, .flt, .str, .bool].map fun (t : Ty) => (t.name, .typeName t)

/-- The kind of a word: a reserved one, or an identifier. -/
def ofWord (word : String) : TokenKind :=
  ((words.find? fun entry => entry.1 == word).map Prod.snd).getD .identifier

def arithmetic? : TokenKind → Option ArithOp
  | .plus => some .add
  | .minus => some .sub
  | .star => some .mul
  | .slash => some .div
  | _ => none

def comparator? : TokenKind → Option Comparator
  | .equalEqual => some .eq
  | .bangEqual => some .ne
  | .greater => some .gt
  | .greaterEqual => some .ge
  | .less => some .lt
  | .lessEqual => some .le
  | _ => none

def isArithmetic (kind : TokenKind) : Bool := kind.arithmetic?.isSome

def isComparison (kind : TokenKind) : Bool := kind.comparator?.isSome

/-- Whether tokens of this kind multiply or divide. -/
def isProduct : TokenKind → Bool
  | .star | .slash => true
  | _ => false

/-- Whether tokens of this kind add or subtract. -/
def isSum : TokenKind → Bool
  | .plus | .minus => true
  | _ => false

/-- Whether tokens of this kind are literals other than `true` and `false`. -/
def isLiteral : TokenKind → Bool
  | .literal _ => true
  | _ => false

def isTerminator : TokenKind → Bool
  | .semicolon | .endOfInput => true
  | _ => false

/-- The type that tokens of this kind name. -/
def type? : TokenKind → Option Ty
  | .typeName type => some type
  | _ => none

def isTypeName (kind : TokenKind) : Bool := kind.type?.isSome

end TokenKind

end Hive
