import Hive.Evaluator.Operation
import Mathlib.Tactic.Common

/-!
Tokens in the place of others. As long as every token keeps its kind, or gives way to a literal if
it is an identifier, the structure of expressions stays: they end at the same places, and their
items are worked out in the same order.
-/

namespace Hive

open Evaluator

/-! ### Operands and joints -/

namespace Evaluator

lemma resolve_identifier (s : Scope) (line : Int) {t : Token} (h : t.kind = .identifier) :
    resolve s line (.token t) = (do return (← s.variableAt t).value) := by
  unfold resolve
  dsimp only
  rw [h]

lemma join_cons_cons (s : Scope) (line : Int) (first second : Item) (more : List Item) :
    join s line (first :: second :: more) =
      (match firstJoint? (first :: second :: more) with
      | none => .error (.error (.on line .invalidOperation))
      | some (dot, before, left, right, after) => do
        let left ← resolve s dot.line left
        let right ← resolve s dot.line right
        let joined ← joinTexts dot.line left right
        join s line (before ++ .value joined :: after)) := by
  rw [join]
  split <;> rename_i h <;> rw [h]

end Evaluator

/-! ### Other tokens -/

/-- **The map keeps the kinds of tokens**, but for identifiers that become literals. -/
def Relabels (g : Token → Token) : Prop :=
  ∀ t, (g t).kind = t.kind ∨ t.kind = .identifier ∧ ∃ type, (g t).kind = .literal type

def Item.relabel (g : Token → Token) : Item → Item
  | .token t => .token (g t)
  | .value v => .value v

/-- What is to be done next, with other tokens. -/
def Evaluator.Reduction.relabel (g : Token → Token) : Reduction → Reduction
  | .nothing => .nothing
  | .unclosed opening => .unclosed (g opening)
  | .group before inner closing after =>
    .group (before.map (Item.relabel g)) (inner.map (Item.relabel g)) (g closing)
      (after.map (Item.relabel g))
  | .dangling op => .dangling (g op)
  | .apply before left op operator right after =>
    .apply (before.map (Item.relabel g)) (left.relabel g) (g op) operator (right.relabel g)
      (after.map (Item.relabel g))

lemma Item.map_relabel_token (g : Token → Token) (tokens : List Token) :
    (tokens.map g).map Item.token = (tokens.map Item.token).map (Item.relabel g) := by
  rw [List.map_map, List.map_map]
  rfl

namespace Relabels

variable {g : Token → Token} (hg : Relabels g)

include hg

/-- What does not tell identifiers from literals is the same. -/
lemma kind {β : Type} (p : TokenKind → β) (hp : ∀ type, p (.literal type) = p .identifier)
    (t : Token) : p (g t).kind = p t.kind := by
  rcases hg t with h | ⟨hid, type, h⟩
  · rw [h]
  · rw [h, hid, hp]

lemma splitFirst? {p : TokenKind → Bool} (hp : ∀ type, p (.literal type) = p .identifier)
    (items : List Item) :
    Evaluator.splitFirst? p (items.map (Item.relabel g)) =
      (Evaluator.splitFirst? p items).map fun x =>
        (x.1.map (Item.relabel g), g x.2.1, x.2.2.map (Item.relabel g)) := by
  induction items with
  | nil => rfl
  | cons i items ih =>
    cases i with
    | value v =>
      rw [List.map_cons, Evaluator.splitFirst?]
      show (Evaluator.splitFirst? p (items.map (Item.relabel g))).map _ = _
      rw [ih]
      cases Evaluator.splitFirst? p items <;> rfl
    | token t =>
      rw [List.map_cons]
      show Evaluator.splitFirst? p (.token (g t) :: items.map (Item.relabel g)) = _
      unfold Evaluator.splitFirst?
      rw [hg.kind p hp, ih]
      split
      · rfl
      · cases Evaluator.splitFirst? p items <;> rfl

lemma firstOperator? (items : List Item) :
    Evaluator.firstOperator? (items.map (Item.relabel g)) =
      (Evaluator.firstOperator? items).map fun x =>
        (x.1.map (Item.relabel g), g x.2.1, x.2.2.map (Item.relabel g)) := by
  unfold Evaluator.firstOperator?
  rw [hg.splitFirst? fun _ => rfl, hg.splitFirst? fun _ => rfl]
  cases Evaluator.splitFirst? TokenKind.isProduct items <;> rfl

omit hg in
lemma beside? (before after : List Item) :
    Evaluator.beside? (before.map (Item.relabel g)) (after.map (Item.relabel g)) =
      (Evaluator.beside? before after).map fun x =>
        (x.1.map (Item.relabel g), x.2.1.relabel g, x.2.2.1.relabel g,
          x.2.2.2.map (Item.relabel g)) := by
  unfold Evaluator.beside?
  rw [← List.map_reverse]
  cases before.reverse with
  | nil => rfl
  | cons left earlier =>
    cases after with
    | nil => rfl
    | cons right later => simp

lemma reduceOperator (before after : List Item) (op : Token) :
    Evaluator.reduceOperator (before.map (Item.relabel g)) (g op) (after.map (Item.relabel g)) =
      (Evaluator.reduceOperator before op after).relabel g := by
  unfold Evaluator.reduceOperator
  rw [beside?, hg.kind TokenKind.arithmetic? fun _ => rfl]
  cases Evaluator.beside? before after with
  | none => rfl
  | some x => cases op.kind.arithmetic? <;> rfl

/-- **The items are worked out in the same order.** -/
theorem reduction (items : List Item) :
    Evaluator.reduction (items.map (Item.relabel g)) =
      (Evaluator.reduction items).relabel g := by
  unfold Evaluator.reduction
  rw [List.length_map, hg.splitFirst? fun _ => rfl, hg.firstOperator?]
  split
  · rfl
  cases Evaluator.splitFirst? (· == .leftParen) items with
  | some x =>
    obtain ⟨before, opening, rest⟩ := x
    dsimp only [Option.map_some]
    rw [hg.splitFirst? fun _ => rfl]
    cases Evaluator.splitFirst? (· == .rightParen) rest <;> rfl
  | none =>
    cases Evaluator.firstOperator? items with
    | none => rfl
    | some x => exact hg.reduceOperator _ _ _

lemma firstJoint? (items : List Item) :
    Evaluator.firstJoint? (items.map (Item.relabel g)) =
      (Evaluator.firstJoint? items).map fun x =>
        (g x.1, x.2.1.map (Item.relabel g), x.2.2.1.relabel g, x.2.2.2.1.relabel g,
          x.2.2.2.2.map (Item.relabel g)) := by
  unfold Evaluator.firstJoint?
  rw [hg.splitFirst? fun _ => rfl]
  cases Evaluator.splitFirst? (· == .dot) items with
  | none => rfl
  | some x =>
    obtain ⟨before, dot, after⟩ := x
    dsimp only [Option.map_some]
    rw [beside?]
    cases Evaluator.beside? before after <;> rfl

lemma isClosing (i : Item) : Evaluator.isClosing (i.relabel g) = Evaluator.isClosing i := by
  cases i with
  | token t => exact hg.kind (· == .rightParen) (fun _ => rfl) t
  | value v => rfl

lemma expressionTokens (inArguments : Bool) (depth : Nat) (tokens : List Token) :
    Evaluator.expressionTokens inArguments depth (tokens.map g) =
      ((Evaluator.expressionTokens inArguments depth tokens).1.map g,
        (Evaluator.expressionTokens inArguments depth tokens).2.map g) := by
  induction tokens generalizing depth with
  | nil => rfl
  | cons t tokens ih =>
    have hends : (g t).kind.isTerminator = t.kind.isTerminator :=
      hg.kind TokenKind.isTerminator (fun _ => rfl) t
    have hparts : ((g t).kind == .comma || (g t).kind == .rightParen) =
        (t.kind == .comma || t.kind == .rightParen) :=
      hg.kind (fun kind => kind == .comma || kind == .rightParen) (fun _ => rfl) t
    have hdepth : (if (g t).kind = .rightParen then depth - 1
        else if (g t).kind = .leftParen then depth + 1 else depth) =
        if t.kind = .rightParen then depth - 1
        else if t.kind = .leftParen then depth + 1 else depth :=
      hg.kind (fun kind => if kind = .rightParen then depth - 1
        else if kind = .leftParen then depth + 1 else depth) (fun _ => rfl) t
    rw [List.map_cons]
    unfold Evaluator.expressionTokens
    rw [hends, hparts, hdepth]
    simp only [ih]
    split
    · rfl
    split
    · rfl
    · rfl

end Relabels

end Hive
