import Hive.Proofs.Agreement

/-!
Evaluation by a **rule**: how one expression is evaluated, given how functions are called and how
the expressions nested in it are evaluated. By the plain rule this is the evaluation there is;
another rule may look at what goes on in the bodies of functions, or may say in other words what is
done there. Where both come to the same, what the other rule says holds of every evaluation. A rule
may also apply the operators of arithmetic in a way of its own.
-/

namespace Hive

abbrev Rule := Invocation → Setting → Evaluation → Evaluation

abbrev Application := Scope → Token → ArithOp → Item → Item → ConsoleM Value

namespace Evaluator

/-! ### Arithmetic -/

section Arithmetic

variable (apply : Application)

/-- Works out items, given how operators are applied. -/
def operateBy (scope : Scope) (groupLine line : Int) (items : List Item) : ConsoleM Value :=
  match h : reduction items with
  | .nothing => orFail (finish scope line items)
  | .unclosed opening => fail opening.line .unterminatedParenthesis
  | .group before inner closing after => do
    let v ← operateBy scope groupLine groupLine (inner ++ [.token closing])
    operateBy scope groupLine line (before ++ .value v :: after)
  | .dangling op => fail op.line .invalidOperation
  | .apply before left op operator right after => do
    let v ← apply scope op operator left right
    operateBy scope groupLine line (before ++ .value v :: after)
termination_by items.length
decreasing_by
  · obtain ⟨opening, rfl⟩ := fits_of_reduction h
    simp only [List.length_append, List.length_cons, List.length_nil]
    omega
  · obtain ⟨opening, rfl⟩ := fits_of_reduction h
    simp only [List.length_append, List.length_cons]
    omega
  · obtain rfl := fits_of_reduction h
    simp only [List.length_append, List.length_cons]
    omega

/-- Reads an arithmetic expression and works it out, given how operators are applied. -/
def operationBy (first : Token) : EvalM Value := do
  let tokens ← collect first
  let groupLine := (tokens.getLast?.getD first).line
  onConsole (operateBy apply (← scope) groupLine first.line (tokens.map .token))

lemma operateBy_eq (scope : Scope) (groupLine line : Int) (items : List Item) :
    operateBy apply scope groupLine line items =
      (match reduction items with
      | .nothing => orFail (finish scope line items)
      | .unclosed opening => fail opening.line .unterminatedParenthesis
      | .group before inner closing after => do
        let v ← operateBy apply scope groupLine groupLine (inner ++ [.token closing])
        operateBy apply scope groupLine line (before ++ .value v :: after)
      | .dangling op => fail op.line .invalidOperation
      | .apply before left op operator right after => do
        let v ← apply scope op operator left right
        operateBy apply scope groupLine line (before ++ .value v :: after)) := by
  rw [operateBy]
  split <;> rename_i h <;> rw [h]

lemma operateBy_applyOperator : operateBy applyOperator = operate := by
  funext scope groupLine line items
  fun_induction operate scope groupLine line items with
  | case1 line items h => rw [operateBy_eq, h]
  | case2 line items opening h => rw [operateBy_eq, h]
  | case3 line items before inner closing after h ihInner ih =>
    rw [operateBy_eq, h]
    dsimp only
    rw [ihInner]
    exact congrArg _ (funext ih)
  | case4 line items op h => rw [operateBy_eq, h]
  | case5 line items before left op operator right after h ih =>
    rw [operateBy_eq, h]
    dsimp only
    exact congrArg _ (funext ih)

lemma operate_eq (scope : Scope) (groupLine line : Int) (items : List Item) :
    operate scope groupLine line items =
      (match reduction items with
      | .nothing => orFail (finish scope line items)
      | .unclosed opening => fail opening.line .unterminatedParenthesis
      | .group before inner closing after => do
        let v ← operate scope groupLine groupLine (inner ++ [.token closing])
        operate scope groupLine line (before ++ .value v :: after)
      | .dangling op => fail op.line .invalidOperation
      | .apply before left op operator right after => do
        let v ← applyOperator scope op operator left right
        operate scope groupLine line (before ++ .value v :: after)) := by
  rw [← operateBy_applyOperator, operateBy_eq]

lemma operationBy_applyOperator : operationBy applyOperator = operation := by
  unfold operationBy
  rw [operateBy_applyOperator]
  rfl

end Arithmetic

/-! ### Expressions -/

/-- Evaluates an expression that starts with a number, given how arithmetic is done. -/
def numberBy (operation : Token → EvalM Value) (setting : Setting) (evaluate : Evaluation)
    (token : Token) (operators : Bool) : EvalM Value := do
  let following := (← peek setting).kind
  if operators && following.isArithmetic then operation token
  else if operators && following.isComparison then comparison setting evaluate token
  else literal token

/-- Evaluates an expression by the kind of its first token, given how arithmetic is done. -/
def dispatchBy (operation : Token → EvalM Value) (invoke : Invocation) (setting : Setting)
    (evaluate : Evaluation) (token : Token) (operators : Bool) : EvalM Value :=
  match token.kind with
  | .literal .int | .literal .flt => numberBy operation setting evaluate token operators
  | .leftParen => operation token
  | _ => dispatch invoke setting evaluate token operators

/-- The rule by which expressions are evaluated, given how arithmetic is done. -/
def ruleBy (operation : Token → EvalM Value) : Rule :=
  fun invoke setting evaluate first operators => do
    let following := (← peek setting).kind
    if first.kind = .identifier ∧ operators ∧ following = .equal then
      assignment setting evaluate first
    else
      let token ← orFail (substitute (← scope) first)
      dispatchBy operation invoke setting evaluate token operators

/-- The rule by which expressions are evaluated. -/
def plainRule : Rule := fun invoke setting evaluate first operators => do
  let following := (← peek setting).kind
  if first.kind = .identifier ∧ operators ∧ following = .equal then
    assignment setting evaluate first
  else
    let token ← orFail (substitute (← scope) first)
    dispatch invoke setting evaluate token operators

variable (rule : Rule)

/-- Evaluates an expression by a rule, and those nested in it as far as the budget goes. -/
def expressionBy (invoke : Invocation) (setting : Setting) : Nat → Evaluation
  | 0, _, _ => throw .exhausted
  | budget + 1, first, operators =>
    rule invoke setting (expressionBy invoke setting budget) first operators

/-- Evaluates an expression by a rule, with all the budget that the tokens left can need. -/
def evaluateBy (invoke : Invocation) (setting : Setting) : Evaluation :=
  fun first operators frame =>
    expressionBy rule invoke setting (frame.rest.length + 2) first operators frame

def statementsBy (invoke : Invocation) (setting : Setting) : Nat → Value → EvalM Value
  | 0, latest => pure latest
  | budget + 1, latest => fun frame =>
    match frame.rest with
    | [] => .ok latest frame
    | first :: rest =>
      let step : EvalM Value :=
        if first.kind.isTerminator then statementsBy invoke setting budget latest
        else evaluateBy rule invoke setting first true >>= statementsBy invoke setting budget
      step { frame with rest := rest }

def runBy (invoke : Invocation) (setting : Setting) : EvalM Value := fun frame =>
  settled (statementsBy rule invoke setting frame.rest.length none frame)

def runBodyBy (invoke : Invocation) (program : Scope) (f : Function) (scope : Scope) :
    ConsoleM Value := fun console =>
  onState Frame.console
    (runBy rule invoke ⟨endLine f.body, some program, true⟩ (frameOf f.body scope console))

/-- Calls a function; its body, and those of all calls in it, are run by a rule. -/
def invokeBy : Nat → Invocation
  | 0, _, _, _, _ => throw .exhausted
  | depth + 1, program, f, arguments, line =>
    callWith (runBodyBy rule (invokeBy depth) program) f arguments line

/-- Runs a program in which the bodies of functions are run by a rule. -/
def runProgramBy (depth : Nat) (tokens : List Token) (scope : Scope) :
    EStateM.Result Stop Frame Value :=
  run (invokeBy rule depth) ⟨endLine tokens, none, false⟩ (frameOf tokens scope .empty)

/-! ### The plain rule -/

lemma dispatchBy_operation : dispatchBy operation = dispatch := by
  funext invoke setting evaluate token operators
  unfold dispatchBy
  split
  · rename_i h
    unfold dispatch
    rw [h]
    rfl
  · rename_i h
    unfold dispatch
    rw [h]
    rfl
  · rename_i h
    unfold dispatch
    rw [h]
  · rfl

lemma ruleBy_operation : ruleBy operation = plainRule := by
  unfold ruleBy
  rw [dispatchBy_operation]
  rfl

section Plain

variable (invoke : Invocation) (setting : Setting)

lemma expression_succ (budget : Nat) (first : Token) (operators : Bool) :
    expression invoke setting (budget + 1) first operators =
      plainRule invoke setting (expression invoke setting budget) first operators :=
  rfl

lemma expressionBy_plainRule :
    expressionBy plainRule invoke setting = expression invoke setting := by
  funext budget
  induction budget with
  | zero => rfl
  | succ budget ih =>
    funext first operators
    rw [expression_succ, ← ih]
    rfl

lemma evaluateBy_plainRule : evaluateBy plainRule invoke setting = evaluate invoke setting := by
  funext first operators frame
  show expressionBy plainRule invoke setting _ first operators frame = _
  rw [expressionBy_plainRule]
  rfl

lemma statementsBy_plainRule :
    statementsBy plainRule invoke setting = statements invoke setting := by
  funext budget
  induction budget with
  | zero => rfl
  | succ budget ih =>
    funext latest frame
    rw [statementsBy, evaluateBy_plainRule, ih]
    rfl

lemma runBy_plainRule : runBy plainRule invoke setting = run invoke setting := by
  funext frame
  rw [run_eq, runBy, statementsBy_plainRule]

lemma runBodyBy_plainRule : runBodyBy plainRule invoke = runBody invoke := by
  funext program f scope console
  rw [runBody_eq, runBodyBy, runBy_plainRule]

end Plain

lemma invokeBy_plainRule : invokeBy plainRule = invoke := by
  funext depth
  induction depth with
  | zero => rfl
  | succ depth ih =>
    funext program f arguments line
    rw [invokeBy, ih, runBodyBy_plainRule]
    rfl

end Evaluator

end Hive
