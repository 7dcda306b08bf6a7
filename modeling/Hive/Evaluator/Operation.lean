import Hive.Evaluator.Basic

/-!
Arithmetic and concatenation. The tokens of an expression are **items**, which operators turn into
values step by step: groups in parentheses first, then products, then sums, each from the left.
-/

namespace Hive

/-- A part of an expression: a token, or the value of parts that have been worked out. -/
inductive Item where
  | token (t : Token)
  | value (v : Value)
  deriving DecidableEq

namespace Evaluator

/-- Splits items at the first token of a class: what is before it, the token, and what is after. -/
def splitFirst? (p : TokenKind → Bool) : List Item → Option (List Item × Token × List Item)
  | [] => none
  | .token t :: items =>
    if p t.kind then some ([], t, items)
    else (splitFirst? p items).map fun (before, u, after) => (.token t :: before, u, after)
  | .value v :: items =>
    (splitFirst? p items).map fun (before, u, after) => (.value v :: before, u, after)

theorem splitFirst?_eq_append {p : TokenKind → Bool} {items before after : List Item} {t : Token}
    (h : splitFirst? p items = some (before, t, after)) : items = before ++ .token t :: after := by
  induction items generalizing before with
  | nil => cases h
  | cons item items ih =>
    cases item with
    | token u =>
      unfold splitFirst? at h
      split at h
      · cases h; rfl
      · obtain ⟨⟨b, w, a⟩, hs, he⟩ := Option.map_eq_some_iff.1 h
        cases he
        simp [ih hs]
    | value v =>
      obtain ⟨⟨b, w, a⟩, hs, he⟩ := Option.map_eq_some_iff.1 h
      cases he
      simp [ih hs]

/-- The value of an item that stands alone. Parts that came to nil have none to go on with. -/
def resolve (scope : Scope) (line : Int) : Item → Except Failure Value
  | .value (some l) => .ok (some l)
  | .value none => .error (.fault .noValue)
  | .token t =>
    match t.kind with
    | .identifier => do return (← scope.variableAt t).value
    | .literal _ | .keyword .trueWord | .keyword .falseWord =>
      Failure.ofFault ((Literal.ofToken t).map some)
    | kind =>
      .error (.error (.on line
        (.unsupportedOperationType (if t.lexeme.truth then t.lexeme else .str kind.label))))

def numeric (line : Int) : Value → Except Failure Literal
  | some l =>
    if l.type = .int ∨ l.type = .flt then .ok l
    else .error (.error (.on line (.unsupportedOperationType (.str l.type.name))))
  | none => .error (.error (.on line (.unsupportedOperationType (.str (Value.typeName none)))))

def numbers (left right : Literal) : Except Fault (Number × Number) :=
  match left.number?, right.number? with
  | some a, some b => .ok (a, b)
  | _, _ => .error .unsuitable

def compute : ArithOp → Number → Number → Except Fault Number
  | .add, a, b => a.add b
  | .sub, a, b => a.sub b
  | .mul, a, b => a.mul b
  | .div, a, b => return .flt (← a.div b)

/-- Divides two numeric literals. The quotient is a double. -/
def divide (line : Int) (left right : Literal) : ConsoleM Value := do
  ensure (right.number?.any Number.isZero = false) line .divisionByZero
  let (a, b) ← orHalt (numbers left right)
  return some (.flt (← orHalt (a.div b)))

/-- Notes that a result had to be cut to fit the type of the left operand. -/
def noteCut (line : Int) (exact : Number) (result : Literal) : ConsoleM Unit :=
  if result.datum.equals (.ofNumber exact) then pure ()
  else note 2 do
    return s!"line {line}: " ++ (← exact.text) ++ " truncated to " ++ (← result.text)

/-- Applies an arithmetic operator. A quotient is a double; the result of any other operator has the
type of the left operand. -/
def arithmetic (line : Int) (operator : ArithOp) (left right : Value) : ConsoleM Value := do
  let left ← orFail (numeric line left)
  let right ← orFail (numeric line right)
  match operator with
  | .div => divide line left right
  | operator =>
    let (a, b) ← orHalt (numbers left right)
    let exact ← orHalt (compute operator a b)
    let result ← orHalt (Literal.convert left.type (.ofNumber exact))
    noteCut line exact result
    return some result

def applyOperator (scope : Scope) (op : Token) (operator : ArithOp) (left right : Item) :
    ConsoleM Value := do
  let left ← orFail (resolve scope op.line left)
  let right ← orFail (resolve scope op.line right)
  let result ← arithmetic op.line operator left right
  note 3 do
    return "reduce " ++ (← Value.text left) ++ " " ++ op.lexeme.plain ++ " "
      ++ (← Value.text right) ++ " -> " ++ (← Value.text result)
  return result

def isClosing : Item → Bool
  | .token t => t.kind == .rightParen
  | .value _ => false

/-- The value of items without operators: closing parentheses at the end are left out, and one item
must remain. -/
def finish (scope : Scope) (line : Int) : List Item → Except Failure Value
  | [] => .error (.fault .unsuitable)
  | item :: more =>
    if more.all isClosing then resolve scope line item
    else .error (.error (.on line .invalidOperation))

/-- The operator to apply first: the first product, or else the first sum, with what is before and
after it. -/
def firstOperator? (items : List Item) : Option (List Item × Token × List Item) :=
  match splitFirst? TokenKind.isProduct items with
  | some found => some found
  | none => splitFirst? TokenKind.isSum items

theorem firstOperator?_eq_append {items before after : List Item} {t : Token}
    (h : firstOperator? items = some (before, t, after)) : items = before ++ .token t :: after := by
  unfold firstOperator? at h
  split at h
  · rename_i hs
    cases h
    exact splitFirst?_eq_append hs
  · exact splitFirst?_eq_append h

/-- The two items beside a place, with what is before and after them. -/
def beside? (before after : List Item) : Option (List Item × Item × Item × List Item) :=
  match before.reverse, after with
  | left :: earlier, right :: later => some (earlier.reverse, left, right, later)
  | _, _ => none

theorem beside?_eq_some {before after earlier later : List Item} {left right : Item}
    (h : beside? before after = some (earlier, left, right, later)) :
    before = earlier ++ [left] ∧ after = right :: later := by
  unfold beside? at h
  split at h
  · rename_i hb
    cases h
    exact ⟨by simpa using congrArg List.reverse hb, rfl⟩
  · cases h

inductive Reduction where
  /-- There is no group and no operator left. -/
  | nothing
  /-- A group is not closed. -/
  | unclosed (opening : Token)
  /-- A group is worked out. Its closing parenthesis stays with it. -/
  | group (before inner : List Item) (closing : Token) (after : List Item)
  /-- An operator has nothing on one of its sides. -/
  | dangling (op : Token)
  /-- An operator is applied to the items beside it. -/
  | apply (before : List Item) (left : Item) (op : Token) (operator : ArithOp) (right : Item)
    (after : List Item)

/-- What is to be done with an operator that has been found between items. -/
def reduceOperator (before : List Item) (op : Token) (after : List Item) : Reduction :=
  match beside? before after, op.kind.arithmetic? with
  | some (earlier, left, right, later), some operator => .apply earlier left op operator right later
  | _, _ => .dangling op

/-- What is to be done next with items: the first opening parenthesis is closed by the first closing
one after it; without groups, the first product comes first, and then the first sum. -/
def reduction (items : List Item) : Reduction :=
  if items.length ≤ 1 then .nothing
  else match splitFirst? (· == .leftParen) items with
    | some (before, opening, rest) =>
      match splitFirst? (· == .rightParen) rest with
      | some (inner, closing, after) => .group before inner closing after
      | none => .unclosed opening
    | none =>
      match firstOperator? items with
      | some (before, op, after) => reduceOperator before op after
      | none => .nothing

/-- The items are made up as the reduction says. -/
def Reduction.Fits (items : List Item) : Reduction → Prop
  | .nothing => True
  | .unclosed opening => .token opening ∈ items
  | .group before inner closing after =>
    ∃ opening, items = before ++ .token opening :: (inner ++ .token closing :: after)
  | .dangling op => .token op ∈ items
  | .apply before left op _ right after => items = before ++ left :: .token op :: right :: after

theorem fits_reduceOperator (before : List Item) (op : Token) (after : List Item) :
    (reduceOperator before op after).Fits (before ++ .token op :: after) := by
  unfold reduceOperator
  split
  · rename_i hb _
    obtain ⟨rfl, rfl⟩ := beside?_eq_some hb
    simp [Reduction.Fits]
  · simp [Reduction.Fits]

theorem fits_reduction (items : List Item) : (reduction items).Fits items := by
  unfold reduction
  split
  · trivial
  split
  · rename_i opening rest ho
    obtain rfl := splitFirst?_eq_append ho
    split
    · rename_i hc
      exact ⟨opening, by rw [splitFirst?_eq_append hc]⟩
    · simp [Reduction.Fits]
  · split
    · rename_i hf
      obtain rfl := firstOperator?_eq_append hf
      exact fits_reduceOperator _ _ _
    · trivial

theorem fits_of_reduction {items : List Item} {r : Reduction} (h : reduction items = r) :
    r.Fits items :=
  h ▸ fits_reduction items

/-- Works out items. Problems in the whole are on `line`, those of a group on `groupLine`. -/
def operate (scope : Scope) (groupLine line : Int) (items : List Item) : ConsoleM Value :=
  match h : reduction items with
  | .nothing => orFail (finish scope line items)
  | .unclosed opening => fail opening.line .unterminatedParenthesis
  | .group before inner closing after => do
    -- the group keeps its `)`, which `finish` passes over
    let v ← operate scope groupLine groupLine (inner ++ [.token closing])
    operate scope groupLine line (before ++ .value v :: after)
  | .dangling op => fail op.line .invalidOperation
  | .apply before left op operator right after => do
    let v ← applyOperator scope op operator left right
    operate scope groupLine line (before ++ .value v :: after)
termination_by items.length
decreasing_by
  · obtain ⟨opening, rfl⟩ := fits_of_reduction h
    simp only [List.length_append, List.length_cons, List.length_nil]
    omega
  · obtain ⟨opening, rfl⟩ := fits_of_reduction h
    simp only [List.length_append, List.length_cons]
    omega
  · obtain rfl := fits_of_reduction h
    simp only [List.length_append, List.length_cons]
    omega

/-- Reads an arithmetic expression from its first token on and works it out. -/
def operation (first : Token) : EvalM Value := do
  let tokens ← collect first
  let groupLine := (tokens.getLast?.getD first).line
  onConsole (operate (← scope) groupLine first.line (tokens.map .token))

/-! ### Concatenation -/

/-- Joins a text to the printed form of a value. -/
def joinTexts (line : Int) (left right : Value) : Except Failure Value :=
  match left with
  | some ⟨.str, datum⟩ => do
    let printed ← Failure.ofFault (Value.text right)
    match datum with
    | .str s => return some (.str (s ++ printed))
    | _ => throw (.fault .unsuitable)
  | _ => .error (.error (.on line (.unsupportedOperationType (.str (Value.typeName left)))))

/-- The first dot among items and the two items beside it, with what is before and after them. -/
def firstJoint? (items : List Item) : Option (Token × List Item × Item × Item × List Item) :=
  match splitFirst? (· == .dot) items with
  | some (before, dot, after) => (beside? before after).map fun sides => (dot, sides)
  | none => none

theorem firstJoint?_eq_append {items before after : List Item} {dot : Token} {left right : Item}
    (h : firstJoint? items = some (dot, before, left, right, after)) :
    items = before ++ left :: .token dot :: right :: after := by
  unfold firstJoint? at h
  split at h
  · rename_i hs
    obtain ⟨⟨b, l, r, a⟩, hb, he⟩ := Option.map_eq_some_iff.1 h
    cases he
    obtain ⟨rfl, rfl⟩ := beside?_eq_some hb
    rw [splitFirst?_eq_append hs]
    simp
  · cases h

/-- Joins items at their dots, from the left. -/
def join (scope : Scope) (line : Int) (items : List Item) : Except Failure Value :=
  match items with
  | [] => .error (.fault .unsuitable)
  | [item] => resolve scope line item
  | first :: second :: more =>
    match _h : firstJoint? (first :: second :: more) with
    | none => .error (.error (.on line .invalidOperation))
    | some (dot, before, left, right, after) => do
      let left ← resolve scope dot.line left
      let right ← resolve scope dot.line right
      let joined ← joinTexts dot.line left right
      join scope line (before ++ .value joined :: after)
termination_by items.length
decreasing_by
  rw [firstJoint?_eq_append _h]
  simp only [List.length_append, List.length_cons]
  omega

/-- Reads a concatenation from its first token on and works it out. -/
def concatenation (first : Token) : EvalM Value := do
  let tokens ← collect first
  orFail (join (← scope) first.line (tokens.map .token))

end Evaluator

end Hive
