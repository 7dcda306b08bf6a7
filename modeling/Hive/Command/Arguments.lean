import Hive.Text.Classes
import Hive.Text.Quoted

/-!
The words of a command line. Options may stand anywhere before the word `--`; a long option may be
cut short as long as it stays unique, and its value may be joined to it by `=`. Flags of one letter
may be run together.
-/

namespace Hive.Command

inductive Flag where
  | help
  | verbose
  | env
  | emitTokens
  | tokens
  deriving DecidableEq, Repr

namespace Flag

/-- The written forms of the options. -/
def forms : List (String × Flag) :=
  [("-h", .help), ("--help", .help), ("-v", .verbose), ("--env", .env),
   ("--emit-tokens", .emitTokens), ("--tokens", .tokens)]

def ofForm? (form : String) : Option Flag :=
  (forms.find? fun entry => entry.1 == form).map Prod.snd

def name : Flag → String
  | .help => "-h/--help"
  | .verbose => "-v"
  | .env => "--env"
  | .emitTokens => "--emit-tokens"
  | .tokens => "--tokens"

def takesValue : Flag → Bool
  | .emitTokens | .tokens => true
  | _ => false

end Flag

inductive Refusal where
  /-- Help is asked for. -/
  | help
  | ambiguous (word : String) (candidates : List String)
  | expectedValue (flag : Flag)
  | ignoredValue (flag : Flag) (value : String)
  | conflict (flag earlier : Flag)
  | unrecognized (words : List String)
  | missingProgram
  deriving DecidableEq, Repr

def Refusal.message : Refusal → String
  | .help => ""
  | .ambiguous word candidates =>
    "ambiguous option: " ++ word ++ " could match " ++ ", ".intercalate candidates
  | .expectedValue flag => "argument " ++ flag.name ++ ": expected one argument"
  | .ignoredValue flag value =>
    "argument " ++ flag.name ++ ": ignored explicit argument " ++ Text.quoted value
  | .conflict flag earlier =>
    "argument " ++ flag.name ++ ": not allowed with argument " ++ earlier.name
  | .unrecognized words => "unrecognized arguments: " ++ " ".intercalate words
  | .missingProgram => "missing program file; or use --emit-tokens/--tokens"

/-! ### Words -/

inductive Word where
  | operand (text : String)
  /-- The word that ends the options. -/
  | separator
  /-- An option, of one letter or long, with the text joined to it. -/
  | option (flag : Flag) (short : Bool) (joined : Option String)
  | unknown (text : String)
  deriving DecidableEq, Repr

/-- Whether a word is a negative number. One line break may follow it. -/
def isNegativeNumber (word : List Char) : Bool :=
  let digit := fun c => (Text.digitValue? c).isSome
  let line := if word.getLast? == some '\n' then word.dropLast else word
  match line with
  | '-' :: cs =>
    match cs.dropWhile digit with
    | [] => !cs.isEmpty
    | '.' :: fraction => !fraction.isEmpty && fraction.all digit
    | _ => false
  | _ => false

/-- A word cut at its first `=`. -/
def cutAtEqual (cs : List Char) : String × Option String :=
  let before := String.ofList (cs.takeWhile (· != '='))
  match cs.dropWhile (· != '=') with
  | [] => (before, none)
  | _ :: after => (before, some (String.ofList after))

/-- The options that a word with two dashes can stand for. -/
def longCandidates (form : String) : List (String × Flag) :=
  Flag.forms.filter fun entry => form.toList.isPrefixOf entry.1.toList

/-- What a word that starts with a dash is. -/
def dashed (word : String) : Except Refusal Word :=
  let cs := word.toList
  let (form, value) := cutAtEqual cs
  let isLong := (cs.drop 1).head? == some '-'
  let fallback : Word :=
    if isNegativeNumber cs || cs.contains ' ' then .operand word else .unknown word
  match Flag.ofForm? word, Flag.ofForm? form, value with
  | some flag, _, _ => .ok (.option flag (!isLong) none)
  | none, some flag, some value => .ok (.option flag (!isLong) (some value))
  | _, _, _ =>
    if isLong then
      match longCandidates form with
      | [] => .ok fallback
      | [(_, flag)] => .ok (.option flag false value)
      | many => .error (.ambiguous word (many.map Prod.fst))
    else
      match Flag.ofForm? (String.ofList (cs.take 2)) with
      | some flag => .ok (.option flag true (some (String.ofList (cs.drop 2))))
      | none => .ok fallback

/-- The words of a command line, each told apart on its own. All after the separator are
operands. -/
def classify : List String → Except Refusal (List Word)
  | [] => .ok []
  | word :: words =>
    if word == "--" then .ok (.separator :: words.map .operand)
    else do
      let first ←
        if word.startsWith "-" && word != "-" then dashed word else pure (.operand word)
      return first :: (← classify words)

/-! ### Arguments -/

structure Arguments where
  verbosity : Nat
  env : Bool
  emitTokens : Option String
  tokens : Option String
  program : Option String
  /-- Whether the place of the program has been filled. -/
  programSeen : Bool
  unrecognized : List String
  deriving DecidableEq, Repr

def Arguments.none : Arguments := ⟨0, false, .none, .none, .none, false, []⟩

namespace Arguments

/-- Takes the value of an option, which is empty if the separator is joined to the option. The two
options with values exclude each other. -/
def setValue (a : Arguments) (flag : Flag) (value : String) : Except Refusal Arguments :=
  let value := if value = "--" then "" else value
  match flag with
  | .emitTokens =>
    if a.tokens.isSome then .error (.conflict .emitTokens .tokens)
    else .ok { a with emitTokens := some value }
  | _ =>
    if a.emitTokens.isSome then .error (.conflict .tokens .emitTokens)
    else .ok { a with tokens := some value }

def setFlag (a : Arguments) : Flag → Except Refusal Arguments
  | .help => .error .help
  | .verbose => .ok { a with verbosity := a.verbosity + 1 }
  | _ => .ok { a with env := true }

/-- The flags of one letter that are run together: a first one, and the text joined to it. Text that
starts with no flag is the value of the flag before it, which takes none. -/
def letters (flag : Flag) : List Char → Except Refusal (List Flag)
  | [] => .ok [flag]
  | c :: cs =>
    match Flag.ofForm? (String.ofList ['-', c]) with
    | .none => .error (.ignoredValue flag (String.ofList (c :: cs)))
    | some next => do return flag :: (← letters next cs)

/-- Puts a word in the place of the program, or else among the words not recognized. -/
def setOperand (a : Arguments) (text : String) : Arguments :=
  if a.programSeen then { a with unrecognized := a.unrecognized ++ [text] }
  else { a with program := some text, programSeen := true }

/-- Takes the words in their order. The separator goes with the operand next to it. -/
def take (a : Arguments) : List Word → Except Refusal Arguments
  | [] => .ok a
  | .separator :: words =>
    if a.programSeen then take { a with unrecognized := a.unrecognized ++ ["--"] } words
    else match words with
      | [] => .ok { a with programSeen := true }
      | .operand text :: words => take (a.setOperand text) words
      | word :: words => take a (word :: words)
  | [.operand text] => .ok (a.setOperand text)
  | .operand text :: .separator :: words =>
    if a.programSeen then
      take { a with unrecognized := a.unrecognized ++ [text, "--"] } words
    else take (a.setOperand text) words
  | .operand text :: word :: words => take (a.setOperand text) (word :: words)
  | .unknown text :: words => take { a with unrecognized := a.unrecognized ++ [text] } words
  | .option flag short (some joined) :: words =>
    if flag.takesValue then do take (← a.setValue flag joined) words
    else if short && !joined.isEmpty then do
      take (← (← letters flag joined.toList).foldlM setFlag a) words
    else .error (.ignoredValue flag joined)
  | .option flag _ .none :: words =>
    if flag.takesValue then
      match words with
      | .operand value :: words => do take (← a.setValue flag value) words
      | _ => .error (.expectedValue flag)
    else do take (← a.setFlag flag) words

end Arguments

/-! ### Commands -/

/-- What is to be done: lex a program into a token file, run a token file, or run a program. -/
inductive Action where
  | emit (path : String)
  | runTokens (path : String)
  | runProgram (path : String)
  deriving DecidableEq, Repr

/-- A command: what is to be done, how much is said about it, and whether the scope is printed at
its end. -/
structure Request where
  action : Action
  verbosity : Nat
  env : Bool
  deriving DecidableEq, Repr

def Action.path : Action → String
  | .emit path | .runTokens path | .runProgram path => path

/-- The action that arguments ask for. An empty path counts as none. -/
def Arguments.action? (a : Arguments) : Option Action :=
  let given := fun (path : Option String) => path.filter fun text => !text.isEmpty
  match given a.emitTokens, given a.tokens, given a.program with
  | some path, _, _ => some (.emit path)
  | .none, some path, _ => some (.runTokens path)
  | .none, .none, some path => some (.runProgram path)
  | .none, .none, .none => .none

def parse (words : List String) : Except Refusal Request := do
  let a ← Arguments.none.take (← classify words)
  -- words that are not recognized are refused before a missing program is
  if !a.unrecognized.isEmpty then throw (.unrecognized a.unrecognized)
  match a.action? with
  | some action => return ⟨action, a.verbosity, a.env⟩
  | none => throw .missingProgram

end Hive.Command
