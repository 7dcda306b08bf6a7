import Hive.Evaluator.Expression

/-!
Stepping through an evaluation by hand: a stepper holds the tokens of an evaluation and its frame,
and each step applies one operation of the evaluator where the frame stands. A stepper may be moved
in front of the tokens, where it finds the last of them once more: places count from the end there.
-/

namespace Hive

/-- An evaluation that is stepped through. -/
structure Stepper where
  tokens : List Token
  setting : Setting
  frame : Frame
  /-- How many places lie before the next one that holds a token. -/
  vacant : Nat

inductive Step where
  | advance (count : Int)
  | lookAhead (count : Int)
  | isAtEnd
  | endToken
  | run
  | argument
  | expression (operators : Bool)
  | collect
  | resolve (line : Int)
  | operation
  | comparison
  | concatenation
  | declaration
  | assignment
  | call
  | reserved
  | functionDeclaration
  /-- Moves to a position, or changes what the evaluation is told about its surroundings. -/
  | change (position : Option Int) (inArguments mayReturn : Option Bool)

inductive Answer where
  | nothing
  | flag (b : Bool)
  | token (t : Token)
  | tokens (ts : List Token)
  | value (v : Value)

namespace Stepper

/-- A stepper at the start of some tokens. With a program scope given, the frame works on another
one. -/
def start (tokens : List Token) (program : Option Scope) (scope : Scope) (mayReturn : Bool) :
    Stepper :=
  ⟨tokens, ⟨Evaluator.endLine tokens, program, mayReturn⟩, Evaluator.frameOf tokens scope .empty, 0⟩

/-- The index of the token that was read last; it is `-1` at the start. -/
def position (s : Stepper) : Int :=
  s.tokens.length - s.frame.rest.length + s.frame.past - s.vacant - 1

/-- The tokens to read when the next one is at an index: those from the index on, and for a negative
index, which counts from the end, those up to the end and then all of them. -/
def tokensFrom (tokens : List Token) (index : Int) : List Token :=
  if index < 0 then tokens.drop (index + tokens.length).toNat ++ tokens else tokens.drop index.toNat

def seek (s : Stepper) (position : Int) : Stepper :=
  let next := position + 1
  { s with
    frame := { s.frame with
      rest := tokensFrom s.tokens next
      past := (next - s.tokens.length).toNat }
    vacant := (-next - s.tokens.length).toNat }

/-- The token at an index. Beyond the last one there is the end, and a negative index counts from
the end. -/
def tokenAt (s : Stepper) (index : Int) : Except Fault Token :=
  if s.tokens.length ≤ index then .ok (.atEnd s.setting.endLine)
  else if index < -s.tokens.length then .error .noSuchPlace
  else .ok ((tokensFrom s.tokens index).headD (.atEnd s.setting.endLine))

/-- The operation of a step on the frame, for the steps that evaluate. -/
def perform (depth : Nat) (s : Stepper) : Step → EvalM Answer
  | .run => return .value (← Evaluator.run invoke s.setting)
  | .argument => return .value (← Evaluator.argument s.setting evaluate)
  | .expression operators => do
    return .value (← evaluate (← Evaluator.advance s.setting) operators)
  | .collect => return .tokens (← Evaluator.collect (← Evaluator.advance s.setting))
  | .resolve line => do
    let item := Item.token (← Evaluator.advance s.setting)
    return .value (← Evaluator.orFail (Evaluator.resolve (← Evaluator.scope) line item))
  | .operation => on fun first => Evaluator.operation first
  | .comparison => on fun first => Evaluator.comparison s.setting evaluate first
  | .concatenation => on fun first => Evaluator.concatenation first
  | .declaration => on fun first => Evaluator.declaration s.setting evaluate first
  | .assignment => on fun first => Evaluator.assignment s.setting evaluate first
  | .call => on fun first => Evaluator.call s.setting invoke evaluate first
  | .reserved => on fun first => Evaluator.reserved s.setting evaluate first
  | .functionDeclaration => do
    let typeToken ← Evaluator.advance s.setting
    let name ← Evaluator.advance s.setting
    return .value (← Evaluator.functionDeclaration s.setting typeToken name)
  | _ => return .nothing
where
  /-- How functions are called. -/
  invoke : Invocation := Evaluator.invoke depth
  /-- How expressions are evaluated. -/
  evaluate : Evaluation := Evaluator.evaluate invoke s.setting
  /-- Applies an operation to the token that is read next. -/
  on (operation : Token → EvalM Value) : EvalM Answer := do
    return .value (← operation (← Evaluator.advance s.setting))

/-- The answer that a token is, or that there is none. -/
def answerOf (t : Except Fault Token) : Except Stop Answer :=
  match t with
  | .ok t => .ok (.token t)
  | .error f => .error (.failure (.fault f))

/-- Takes a step that evaluates. At a vacant place it fails at the first token that it reads. -/
def evaluate (depth : Nat) (s : Stepper) (what : Step) : Except Stop Answer × Stepper :=
  if s.vacant = 0 then
    match s.perform depth what s.frame with
    | .ok answer frame => (.ok answer, { s with frame := frame })
    | .error e frame => (.error e, { s with frame := frame })
  else (.error (.failure (.fault .noSuchPlace)), s.seek (s.position + 1))

/-- The stepper with other surroundings, where they are given. -/
def change (s : Stepper) (position : Option Int) (inArguments mayReturn : Option Bool) : Stepper :=
  let moved := (position.map s.seek).getD s
  { moved with
    frame := { moved.frame with inArguments := inArguments.getD s.frame.inArguments }
    setting := { moved.setting with mayReturn := mayReturn.getD s.setting.mayReturn } }

/-- Takes one step. The console starts empty, so that it holds what this step writes. -/
def step (depth : Nat) (s : Stepper) (what : Step) : Except Stop Answer × Stepper :=
  let s := { s with frame := { s.frame with console := .empty } }
  match what with
  | .advance count =>
    let there := s.position + count
    (answerOf (s.tokenAt there), s.seek there)
  | .lookAhead count => (answerOf (s.tokenAt (s.position + count)), s)
  | .isAtEnd => (.ok (.flag (s.tokens.length ≤ s.position + 1)), s)
  | .endToken => (.ok (.token (.atEnd s.setting.endLine)), s)
  | .change position inArguments mayReturn =>
    (.ok .nothing, s.change position inArguments mayReturn)
  | what => s.evaluate depth what

end Stepper

end Hive
