import Hive.Proofs.Reductions
import Mathlib.Data.Option.Basic

/-!
Conventional precedence. An arithmetic expression is a sum of products of factors, and a factor may
be a group in parentheses. Its value is the one of the usual recursion: products before sums, and
each from the left. The evaluator looks for the next group or operator among all items instead; it
comes to that value nevertheless, in three passes over the items: groups, products, sums.
-/

namespace Hive

open Evaluator

/-! ### Chains -/

/-- An operator of a class, and the part after it. -/
abbrev Link (p : TokenKind → Bool) (α : Type) : Type := {t : Token // p t.kind = true} × α

/-- Parts joined by operators of a class: a first part, and the others after an operator each. -/
structure Chain (p : TokenKind → Bool) (α : Type) where
  first : α
  rest : List (Link p α)

namespace Chain

variable {p : TokenKind → Bool} {α β γ : Type}

/-- The operators and the parts of links in a row. -/
def flattenLinks (f : α → List γ) (g : Token → γ) (rest : List (Link p α)) : List γ :=
  rest.flatMap fun x => g x.1 :: f x.2

/-- The parts and the operators of a chain in a row. -/
def flatten (f : α → List γ) (g : Token → γ) (c : Chain p α) : List γ :=
  f c.first ++ flattenLinks f g c.rest

/-- Goes on from a value with the links of a chain, from the left. -/
def evalFrom (f : α → Option Value) : Value → List (Link p α) → Option Value
  | v, [] => some v
  | v, x :: rest => ((f x.2).bind (step x.1 v)).bind fun w => evalFrom f w rest

/-- **The value of a chain**, given those of its parts: one step of arithmetic after the other, from
the left. -/
def eval (f : α → Option Value) (c : Chain p α) : Option Value :=
  (f c.first).bind fun v => evalFrom f v c.rest

def map (g : α → β) (c : Chain p α) : Chain p β := ⟨g c.first, c.rest.map fun x => (x.1, g x.2)⟩

/-- The links with other parts in the place of their own, if there is one for each. -/
def traverseLinks (g : α → Option β) : List (Link p α) → Option (List (Link p β))
  | [] => some []
  | x :: rest => (g x.2).bind fun b => (traverseLinks g rest).map ((x.1, b) :: ·)

/-- The chain with other parts in the place of its own, if there is one for each. -/
def traverse (g : α → Option β) (c : Chain p α) : Option (Chain p β) :=
  (g c.first).bind fun b => (traverseLinks g c.rest).map (Chain.mk b)

lemma flatten_map (k : α → β) (f : β → List γ) (g : Token → γ) (c : Chain p α) :
    (c.map k).flatten f g = c.flatten (fun a => f (k a)) g := by
  simp [flatten, flattenLinks, map, List.flatMap_map]

lemma map_flatten {δ : Type} (f : α → List γ) (g : Token → γ) (k : γ → δ) (c : Chain p α) :
    (c.flatten f g).map k = c.flatten (fun a => (f a).map k) fun t => k (g t) := by
  simp [flatten, flattenLinks, List.map_flatMap]

lemma eval_map (k : α → β) (f : β → Option Value) (c : Chain p α) :
    (c.map k).eval f = c.eval fun a => f (k a) := by
  have hrest (rest : List (Link p α)) (v : Value) :
      evalFrom f v (rest.map fun x => (x.1, k x.2)) = evalFrom (fun a => f (k a)) v rest := by
    induction rest generalizing v with
    | nil => rfl
    | cons x rest ih => simp only [List.map_cons, evalFrom, ih]
  simp only [eval, map, hrest]

/-- To replace the parts and then evaluate is to evaluate what the parts are replaced by. -/
lemma eval_traverse (g : α → Option β) (f : β → Option Value) (c : Chain p α) :
    (c.traverse g).bind (eval f) = c.eval fun a => (g a).bind f := by
  -- on the links, for any value that what is before them has come to
  have hrest (rest : List (Link p α)) (v : Value) :
      (traverseLinks g rest).bind (evalFrom f v) = evalFrom (fun a => (g a).bind f) v rest := by
    induction rest generalizing v with
    | nil => rfl
    | cons x rest ih =>
      unfold traverseLinks evalFrom
      cases g x.2 with
      | none => rfl
      | some b =>
        simp only [Option.bind_some, Option.bind_map, Function.comp_def]
        rw [Option.bind_comm]
        simp only [ih]
  unfold traverse eval
  dsimp only
  cases g c.first with
  | none => rfl
  | some b =>
    simp only [Option.bind_some, Option.bind_map, Function.comp_def]
    rw [Option.bind_comm]
    simp only [hrest]

end Chain

/-! ### Expressions -/

/-- Whether tokens of this kind are operands: values, and names of variables. -/
def TokenKind.isOperand : TokenKind → Bool
  | .identifier | .literal _ | .keyword .trueWord | .keyword .falseWord => true
  | _ => false

abbrev Operand : Type := {t : Token // t.kind.isOperand = true}

/-- A sum of products. -/
abbrev Formula (α : Type) : Type := Chain TokenKind.isSum (Chain TokenKind.isProduct α)

/-- A factor: an operand, or a group without groups in it. -/
inductive Factor where
  | operand (t : Operand)
  | group (opening : {t : Token // t.kind = .leftParen}) (inner : Formula Operand)
    (closing : {t : Token // t.kind = .rightParen})

abbrev Expression : Type := Formula Factor

namespace Formula

variable {α γ : Type}

/-- The parts and the operators of a sum of products in a row. -/
def flatten (f : α → List γ) (g : Token → γ) (e : Formula α) : List γ :=
  Chain.flatten (Chain.flatten f g) g e

/-- **The value of a sum of products**, given those of its parts: products come before sums, and
each of the two goes from the left. -/
def eval (f : α → Option Value) (e : Formula α) : Option Value := Chain.eval (Chain.eval f) e

end Formula

namespace Factor

def tokens : Factor → List Token
  | .operand t => [t]
  | .group opening inner closing => opening :: (inner.flatten (fun t => [t.1]) id ++ [closing.1])

/-- The value of a factor. What is in a group has to come to a literal. -/
def eval (own : Scope) : Factor → Option Value
  | .operand t => meaning own (.token t)
  | .group _ inner _ => (inner.eval fun t : Operand => meaning own (.token t)).filter Option.isSome

end Factor

namespace Expression

def tokens (e : Expression) : List Token := Formula.flatten Factor.tokens id e

/-- **The value of an expression** in a scope, by the usual recursion. -/
def eval (own : Scope) (e : Expression) : Option Value := Formula.eval (Factor.eval own) e

end Expression

/-! ### Passes over the items -/

/-- **A pass**: each part can be replaced where nothing of the class `q` stands before it and
nothing of the class `r` around it, and then the items come to what they come to with the other
part. -/
def Passes {α β : Type} (own : Scope) (q r : TokenKind → Bool) (f : α → List Item)
    (g : α → Option β) (h : β → List Item) : Prop :=
  ∀ (a : α) (before after : List Item) (groupLine line : Int),
    Clear q before → Clear r before → Clear r after →
    worked own groupLine line (before ++ (f a ++ after)) =
      (g a).bind fun b => worked own groupLine line (before ++ (h b ++ after))

section Passes

variable {α β : Type} {own : Scope} {p q r : TokenKind → Bool} {f : α → List Item}
  {g : α → Option β} {h : β → List Item}

lemma clear_flattenLinks {γ : Type} {k : γ → List Item} (hk : ∀ a, Clear q (k a))
    (hp : ∀ kind, p kind = true → q kind = false) (rest : List (Link p γ)) :
    Clear q (Chain.flattenLinks k .token rest) := by
  intro i hi
  obtain ⟨x, -, hi⟩ := List.mem_flatMap.1 hi
  rcases List.mem_cons.1 hi with rfl | hi
  · exact hp _ x.1.2
  · exact hk _ i hi

lemma clear_flatten {γ : Type} {k : γ → List Item} (hk : ∀ a, Clear q (k a))
    (hp : ∀ kind, p kind = true → q kind = false) (c : Chain p γ) :
    Clear q (c.flatten k .token) :=
  clear_append.2 ⟨hk _, clear_flattenLinks hk hp c.rest⟩

/-- A pass over the parts of a chain is one over its links, one after the other. -/
lemma Passes.links (hpass : Passes own q r f g h) (hf : ∀ a, Clear r (f a))
    (hq : ∀ b, Clear q (h b)) (hr : ∀ b, Clear r (h b))
    (hpq : ∀ kind, p kind = true → q kind = false) (hpr : ∀ kind, p kind = true → r kind = false) :
    Passes own q r (Chain.flattenLinks (p := p) f .token) (Chain.traverseLinks g)
      (Chain.flattenLinks h .token) := by
  intro rest
  induction rest with
  | nil => exact fun _ _ _ _ _ _ _ => rfl
  | cons x rest ih =>
    intro before after groupLine line hqb hrb hra
    -- the operator of the link joins what stands before its part, and then the new part does
    have hq' : Clear q (before ++ [.token x.1]) := by simp [hqb, hpq _ x.1.2]
    have hr' : Clear r (before ++ [.token x.1]) := by simp [hrb, hpr _ x.1.2]
    have hx := hpass x.2 (before ++ [.token x.1]) (Chain.flattenLinks f .token rest ++ after)
      groupLine line hq' hr' (by simp [clear_flattenLinks hf hpr, hra])
    simp only [List.append_assoc, List.singleton_append] at hx
    simp only [Chain.flattenLinks, List.flatMap_cons, List.cons_append, List.append_assoc] at hx ⊢
    rw [hx, Chain.traverseLinks]
    cases g x.2 with
    | none => rfl
    | some b =>
      have hb := ih (before ++ .token x.1 :: h b) after groupLine line
        (by simp [hqb, hpq _ x.1.2, hq b]) (by simp [hrb, hpr _ x.1.2, hr b]) hra
      simp only [Chain.flattenLinks, List.append_assoc, List.cons_append] at hb
      simp only [Option.bind_some, Option.bind_map, Function.comp_def, List.flatMap_cons,
        List.cons_append, List.append_assoc]
      exact hb

/-- A pass over the parts of a chain is one over the chain. -/
lemma Passes.chain (hpass : Passes own q r f g h) (hf : ∀ a, Clear r (f a))
    (hq : ∀ b, Clear q (h b)) (hr : ∀ b, Clear r (h b))
    (hpq : ∀ kind, p kind = true → q kind = false) (hpr : ∀ kind, p kind = true → r kind = false) :
    Passes own q r (Chain.flatten (p := p) f .token) (Chain.traverse g)
      (Chain.flatten h .token) := by
  intro c before after groupLine line hqb hrb hra
  have hfirst := hpass c.first before (Chain.flattenLinks f .token c.rest ++ after) groupLine line
    hqb hrb (by simp [clear_flattenLinks hf hpr, hra])
  simp only [Chain.flatten, List.append_assoc]
  rw [hfirst, Chain.traverse]
  cases g c.first with
  | none => rfl
  | some b =>
    have hrest := hpass.links hf hq hr hpq hpr c.rest (before ++ h b) after groupLine line
      (by simp [hqb, hq b]) (by simp [hrb, hr b]) hra
    simp only [List.append_assoc] at hrest
    simp only [Option.bind_some, Option.bind_map, Function.comp_def]
    exact hrest

end Passes

/-! ### Operators -/

/-- Whether tokens of this kind are parentheses or operators. -/
def TokenKind.isMark (kind : TokenKind) : Bool :=
  kind == .leftParen || kind == .rightParen || kind.isProduct || kind.isSum

/-- An item that is neither a parenthesis nor an operator. -/
abbrev Atom : Type := {i : Item // i.isKind TokenKind.isMark = false}

namespace Atom

def ofValue (v : Value) : Atom := ⟨.value v, rfl⟩

def eval (own : Scope) (a : Atom) : Option Value := meaning own a.1

abbrev items (a : Atom) : List Item := [a.1]

lemma clear {q : TokenKind → Bool} (hq : ∀ kind, q kind = true → kind.isMark = true) (a : Atom) :
    Clear q a.items := by
  intro i hi
  rw [List.mem_singleton.1 hi]
  obtain ⟨i, ha⟩ := a
  cases i with
  | value v => rfl
  | token t =>
    refine Bool.eq_false_iff.2 fun ht => ?_
    rw [Item.isKind_token, hq _ ht] at ha
    cases ha

end Atom

section Kinds

variable {kind : TokenKind}

lemma eq_of_isProduct (h : kind.isProduct = true) : kind = .star ∨ kind = .slash := by
  unfold TokenKind.isProduct at h
  split at h
  · exact .inl rfl
  · exact .inr rfl
  · cases h

lemma eq_of_isSum (h : kind.isSum = true) : kind = .plus ∨ kind = .minus := by
  unfold TokenKind.isSum at h
  split at h
  · exact .inl rfl
  · exact .inr rfl
  · cases h

lemma eq_of_isOperand (h : kind.isOperand = true) :
    kind = .identifier ∨ (∃ type, kind = .literal type) ∨
      kind = .keyword .trueWord ∨ kind = .keyword .falseWord := by
  unfold TokenKind.isOperand at h
  split at h
  · exact .inl rfl
  · exact .inr (.inl ⟨_, rfl⟩)
  · exact .inr (.inr (.inl rfl))
  · exact .inr (.inr (.inr rfl))
  · cases h

lemma isArithmetic_of_isProduct (h : kind.isProduct = true) : kind.isArithmetic = true := by
  rcases eq_of_isProduct h with rfl | rfl <;> rfl

lemma isArithmetic_of_isSum (h : kind.isSum = true) : kind.isArithmetic = true := by
  rcases eq_of_isSum h with rfl | rfl <;> rfl

lemma isProduct_of_isSum (h : kind.isSum = true) : kind.isProduct = false := by
  rcases eq_of_isSum h with rfl | rfl <;> rfl

lemma isMark_of_isProduct (h : kind.isProduct = true) : kind.isMark = true := by
  rcases eq_of_isProduct h with rfl | rfl <;> rfl

lemma isMark_of_isSum (h : kind.isSum = true) : kind.isMark = true := by
  rcases eq_of_isSum h with rfl | rfl <;> rfl

lemma isMark_of_isOpening (h : isOpening kind = true) : kind.isMark = true := by
  rw [eq_of_beq h]
  rfl

lemma isMark_of_isOperand (h : kind.isOperand = true) : kind.isMark = false := by
  rcases eq_of_isOperand h with rfl | ⟨type, rfl⟩ | rfl | rfl <;> rfl

lemma isTerminator_of_isOperand (h : kind.isOperand = true) : kind.isTerminator = false := by
  rcases eq_of_isOperand h with rfl | ⟨type, rfl⟩ | rfl | rfl <;> rfl

lemma only_of_isArithmetic (h : kind.isArithmetic = true) :
    isOpening kind = false ∧ (kind == .rightParen) = false ∧ kind.isTerminator = false := by
  unfold TokenKind.isArithmetic TokenKind.arithmetic? at h
  split at h
  · exact ⟨rfl, rfl, rfl⟩
  · exact ⟨rfl, rfl, rfl⟩
  · exact ⟨rfl, rfl, rfl⟩
  · exact ⟨rfl, rfl, rfl⟩
  · cases h

lemma isOpening_of_isProduct (h : kind.isProduct = true) : isOpening kind = false :=
  (only_of_isArithmetic (isArithmetic_of_isProduct h)).1

lemma isOpening_of_isSum (h : kind.isSum = true) : isOpening kind = false :=
  (only_of_isArithmetic (isArithmetic_of_isSum h)).1

end Kinds

namespace Atom

variable (a : Atom)

lemma clear_opening : Clear isOpening a.items := a.clear fun _ => isMark_of_isOpening

lemma clear_product : Clear TokenKind.isProduct a.items := a.clear fun _ => isMark_of_isProduct

lemma clear_sum : Clear TokenKind.isSum a.items := a.clear fun _ => isMark_of_isSum

end Atom

/-- The atom that a chain of atoms is replaced by: its value, or the only atom as it is. -/
def condense {p : TokenKind → Bool} (own : Scope) (c : Chain p Atom) : Option Atom :=
  if c.rest.isEmpty then some c.first else (c.eval (Atom.eval own)).map Atom.ofValue

section Condense

variable {p : TokenKind → Bool} {own : Scope} {groupLine line : Int}

lemma condense_ofValue (l : Literal) (rest : List (Link p Atom)) :
    condense own ⟨Atom.ofValue (some l), rest⟩ =
      (Chain.evalFrom (Atom.eval own) (some l) rest).map Atom.ofValue := by
  cases rest with
  | nil => rfl
  | cons x rest => rfl

lemma exists_of_evalFrom {f : Atom → Option Value} {x : Link p Atom} {rest : List (Link p Atom)}
    {u v : Value} (h : Chain.evalFrom f u (x :: rest) = some v) : ∃ l, v = some l := by
  induction rest generalizing u x with
  | nil =>
    obtain ⟨w, hw, hv⟩ := Option.bind_eq_some_iff.1 h
    cases hv
    obtain ⟨y, -, hw⟩ := Option.bind_eq_some_iff.1 hw
    exact exists_of_step hw
  | cons y rest ih =>
    obtain ⟨w, -, hv⟩ := Option.bind_eq_some_iff.1 h
    exact ih hv

lemma eval_condense (c : Chain p Atom) :
    (condense own c).bind (Atom.eval own) = c.eval (Atom.eval own) := by
  obtain ⟨first, rest⟩ := c
  cases rest with
  | nil => simp [condense, Chain.eval, Chain.evalFrom]
  | cons x rest =>
    show ((Chain.eval (Atom.eval own) ⟨first, x :: rest⟩).map Atom.ofValue).bind _ = _
    cases h : Chain.eval (Atom.eval own) ⟨first, x :: rest⟩ with
    | none => rfl
    | some v =>
      obtain ⟨u, -, hv⟩ := Option.bind_eq_some_iff.1 h
      obtain ⟨l, rfl⟩ := exists_of_evalFrom hv
      rfl

/-- **The operators of a chain are applied from the left**, if there is no group around and they are
the next ones to be found. -/
lemma worked_chain {before after : List Item}
    (harith : ∀ kind, p kind = true → kind.isArithmetic = true)
    (hbefore : Clear isOpening before) (hafter : Clear isOpening after)
    (hfirst : ∀ (a : Atom) (x : Link p Atom) (rest : List (Link p Atom)),
      firstOperator? (before ++ [a.1] ++ .token x.1 :: x.2.1 ::
          (Chain.flattenLinks Atom.items .token rest ++ after)) =
        some (before ++ [a.1], x.1.1,
          x.2.1 :: (Chain.flattenLinks Atom.items .token rest ++ after)))
    (c : Chain p Atom) :
    worked own groupLine line (before ++ (c.flatten Atom.items .token ++ after)) =
      (condense own c).bind fun a => worked own groupLine line (before ++ (a.items ++ after)) := by
  obtain ⟨first, rest⟩ := c
  -- the value of the first link becomes the first part of a shorter chain
  induction rest generalizing first with
  | nil => simp [condense, Chain.flatten, Chain.flattenLinks]
  | cons x rest ih =>
    obtain ⟨operator, hop⟩ := Option.isSome_iff_exists.1 (harith _ x.1.2)
    have hitems : before ++ (Chain.flatten Atom.items .token ⟨first, x :: rest⟩ ++ after) =
        before ++ first.1 :: .token x.1 :: x.2.1 ::
          (Chain.flattenLinks Atom.items .token rest ++ after) := by
      simp [Chain.flatten, Chain.flattenLinks]
    have hopening : Clear isOpening (before ++ first.1 :: .token x.1 :: x.2.1 ::
        (Chain.flattenLinks Atom.items .token rest ++ after)) := by
      have hchain := clear_flatten Atom.clear_opening
        (fun kind hkind => (only_of_isArithmetic (harith kind hkind)).1) ⟨first, x :: rest⟩
      rw [← hitems]
      exact clear_append.2 ⟨hbefore, clear_append.2 ⟨hchain, hafter⟩⟩
    have hfound := hfirst first x rest
    rw [List.append_assoc, List.singleton_append] at hfound
    rw [hitems, worked_of_apply hop (reduction_of_operator hop hopening hfound)]
    show _ = ((Chain.eval (Atom.eval own) ⟨first, x :: rest⟩).map Atom.ofValue).bind _
    unfold Chain.eval Chain.evalFrom
    show ((Atom.eval own first).bind fun u =>
      (Atom.eval own x.2).bind fun w => step x.1 u w).bind _ = _
    cases Atom.eval own first with
    | none => rfl
    | some u =>
      cases hw : (Atom.eval own x.2).bind (step x.1 u) with
      | none => simp [hw]
      | some v =>
        have hv : ∃ l, v = some l := by
          obtain ⟨w, -, hv⟩ := Option.bind_eq_some_iff.1 hw
          exact exists_of_step hv
        obtain ⟨l, rfl⟩ := hv
        simp only [Option.bind_some, hw]
        rw [← condense_ofValue, ← ih]
        simp [Chain.flatten, Atom.ofValue]

end Condense

/-! ### The three passes -/

section Flat

variable (own : Scope)

lemma passes_product :
    Passes own TokenKind.isProduct isOpening
      (Chain.flatten (p := TokenKind.isProduct) Atom.items .token) (condense own) Atom.items := by
  intro c before after groupLine line hproduct hbefore hafter
  refine worked_chain (fun _ => isArithmetic_of_isProduct) hbefore hafter (fun a x rest => ?_) c
  unfold firstOperator?
  rw [splitFirst?_append (clear_append.2 ⟨hproduct, a.clear_product⟩) x.1.2]

lemma clear_closing {q : TokenKind → Bool} (hq : q .rightParen = false) {after : List Item}
    (hafter : ∀ i ∈ after, isClosing i = true) : Clear q after := by
  intro i hi
  cases i with
  | value v => rfl
  | token t =>
    have ht : t.kind = .rightParen := by simpa [isClosing] using hafter _ hi
    rw [Item.isKind_token, ht, hq]

/-- The pass over sums, which leaves one value. The closing parenthesis of a group stays with it. -/
lemma worked_sum {after : List Item} (hafter : ∀ i ∈ after, isClosing i = true)
    (c : Chain TokenKind.isSum Atom) (groupLine line : Int) :
    worked own groupLine line (c.flatten Atom.items .token ++ after) = c.eval (Atom.eval own) := by
  have hfirst (a : Atom) (x : Link TokenKind.isSum Atom) (rest : List (Link TokenKind.isSum Atom)) :
      firstOperator? ([] ++ [a.1] ++ .token x.1 :: x.2.1 ::
          (Chain.flattenLinks Atom.items .token rest ++ after)) =
        some ([] ++ [a.1], x.1.1,
          x.2.1 :: (Chain.flattenLinks Atom.items .token rest ++ after)) := by
    have hchain := clear_flatten Atom.clear_product (fun _ => isProduct_of_isSum) ⟨a, x :: rest⟩
    have hnone : Clear TokenKind.isProduct ([] ++ [a.1] ++ .token x.1 :: x.2.1 ::
        (Chain.flattenLinks Atom.items .token rest ++ after)) := by
      have := clear_append.2 ⟨hchain, clear_closing rfl hafter⟩
      simpa [Chain.flatten, Chain.flattenLinks] using this
    have hsum : Clear TokenKind.isSum ([] ++ [a.1]) := a.clear_sum
    unfold firstOperator?
    rw [splitFirst?_of_clear hnone]
    dsimp only
    rw [splitFirst?_append hsum x.1.2]
  rw [← List.nil_append (c.flatten Atom.items .token ++ after), worked_chain
    (fun _ => isArithmetic_of_isSum) clear_nil (clear_closing rfl hafter) hfirst c, ← eval_condense]
  congr 1
  funext a
  -- one atom is left, and it stands for the value
  refine worked_of_nothing (reduction_of_clear ?_ ?_ ?_) hafter
  · exact clear_append.2 ⟨a.clear_opening, clear_closing rfl hafter⟩
  · exact clear_append.2 ⟨a.clear_product, clear_closing rfl hafter⟩
  · exact clear_append.2 ⟨a.clear_sum, clear_closing rfl hafter⟩

/-- **A sum of products without groups comes to its value.** -/
lemma worked_formula {after : List Item} (hafter : ∀ i ∈ after, isClosing i = true)
    (e : Formula Atom) (groupLine line : Int) :
    worked own groupLine line (e.flatten Atom.items .token ++ after) = e.eval (Atom.eval own) := by
  have hterm (t : Chain TokenKind.isProduct Atom) : Clear isOpening (t.flatten Atom.items .token) :=
    clear_flatten Atom.clear_opening (fun _ => isOpening_of_isProduct) t
  have hpass := (passes_product own).chain (p := TokenKind.isSum) hterm Atom.clear_product
    Atom.clear_opening (fun _ => isProduct_of_isSum) (fun _ => isOpening_of_isSum) e [] after
    groupLine line clear_nil clear_nil (clear_closing rfl hafter)
  rw [List.nil_append] at hpass
  -- products first, each to one atom, and then the sum of the atoms
  calc worked own groupLine line (e.flatten Atom.items .token ++ after)
      = (e.traverse (condense own)).bind fun c =>
          worked own groupLine line (c.flatten Atom.items .token ++ after) := hpass
    _ = (e.traverse (condense own)).bind (Chain.eval (Atom.eval own)) := by
        congr 1
        funext c
        exact worked_sum own hafter c groupLine line
    _ = e.eval (Atom.eval own) := by
        rw [Chain.eval_traverse]
        unfold Formula.eval
        congr 1
        funext t
        exact eval_condense t

end Flat

/-! ### Groups -/

def Operand.atom (t : Operand) : Atom := ⟨.token t.1, isMark_of_isOperand t.2⟩

namespace Factor

def items (f : Factor) : List Item := f.tokens.map .token

/-- The atom that a factor is replaced by: an operand as it is, and a group by its value. -/
def settle (own : Scope) : Factor → Option Atom
  | .operand t => some (Operand.atom t)
  | .group _ inner _ => (inner.eval fun t : Operand => meaning own (.token t)).map Atom.ofValue

lemma eval_settle (own : Scope) (f : Factor) :
    (f.settle own).bind (Atom.eval own) = f.eval own := by
  cases f with
  | operand t => rfl
  | group opening inner closing =>
    show ((inner.eval fun t : Operand => meaning own (.token t)).map Atom.ofValue).bind _ =
      (inner.eval fun t : Operand => meaning own (.token t)).filter Option.isSome
    cases inner.eval fun t : Operand => meaning own (.token t) with
    | none => rfl
    | some v => exact meaning_value own v

end Factor

section Groups

variable (own : Scope)

/-- The operands of a group as atoms. -/
def Formula.atoms (e : Formula Operand) : Formula Atom := Chain.map (Chain.map Operand.atom) e

lemma Formula.flatten_atoms (e : Formula Operand) :
    e.atoms.flatten Atom.items .token = (e.flatten (fun t => [t.1]) id).map .token := by
  simp only [atoms, flatten, Chain.flatten_map, Chain.map_flatten]
  rfl

lemma Formula.eval_atoms (e : Formula Operand) :
    e.atoms.eval (Atom.eval own) = e.eval fun t : Operand => meaning own (.token t) := by
  simp only [atoms, eval, Chain.eval_map]
  rfl

lemma Formula.clear_rightParen (e : Formula Atom) :
    Clear (· == .rightParen) (e.flatten Atom.items .token) := by
  have hatom (a : Atom) : Clear (· == .rightParen) a.items :=
    a.clear fun kind h => by simp_all [TokenKind.isMark]
  refine clear_flatten (clear_flatten hatom fun kind h => ?_) (fun kind h => ?_) e
  · exact (only_of_isArithmetic (isArithmetic_of_isProduct h)).2.1
  · exact (only_of_isArithmetic (isArithmetic_of_isSum h)).2.1

lemma passes_group :
    Passes own isOpening (fun _ => false) Factor.items (Factor.settle own) Atom.items := by
  intro f before after groupLine line hopening _ _
  cases f with
  | operand t => rfl
  | group opening inner closing =>
    have hitems : before ++ (Factor.items (.group opening inner closing) ++ after) =
        before ++ .token opening.1 :: (inner.atoms.flatten Atom.items .token ++
          .token closing.1 :: after) := by
      rw [Formula.flatten_atoms]
      simp [Factor.items, Factor.tokens]
    have hinner : worked own groupLine groupLine (inner.atoms.flatten Atom.items .token ++
        [.token closing.1]) = inner.eval fun t : Operand => meaning own (.token t) := by
      rw [worked_formula own (by simp [isClosing, closing.2]), Formula.eval_atoms]
    rw [hitems, worked_of_group (reduction_of_group hopening opening.2 inner.atoms.clear_rightParen
      closing.2), hinner]
    show _ = ((inner.eval fun t : Operand => meaning own (.token t)).map Atom.ofValue).bind _
    rw [Option.bind_map]
    rfl

lemma Expression.map_token (e : Expression) :
    e.tokens.map .token = Formula.flatten Factor.items .token e := by
  simp only [tokens, Formula.flatten, Chain.map_flatten]
  rfl

/-- **An expression comes to its value.** -/
lemma worked_expression (e : Expression) (groupLine line : Int) :
    worked own groupLine line (e.tokens.map .token) = e.eval own := by
  have hnone (items : List Item) : Clear (fun _ => false) items := by
    intro i _
    cases i <;> rfl
  -- groups are settled before any operator, wherever they stand
  have hterms := (passes_group own).chain (p := TokenKind.isProduct) (fun _ => hnone _)
    Atom.clear_opening (fun _ => hnone _) (fun _ => isOpening_of_isProduct) (fun _ _ => rfl)
  have hpass := hterms.chain (p := TokenKind.isSum) (fun _ => hnone _)
    (clear_flatten Atom.clear_opening fun _ => isOpening_of_isProduct) (fun _ => hnone _)
    (fun _ => isOpening_of_isSum) (fun _ _ => rfl) e [] [] groupLine line clear_nil clear_nil
    clear_nil
  simp only [List.nil_append, List.append_nil] at hpass
  rw [Expression.map_token]
  refine hpass.trans ?_
  calc (e.traverse (Chain.traverse (Factor.settle own))).bind (fun e' =>
        worked own groupLine line (Formula.flatten Atom.items .token e'))
      = (e.traverse (Chain.traverse (Factor.settle own))).bind
          (Chain.eval (Chain.eval (Atom.eval own))) := by
        congr 1
        funext e'
        have hafter : ∀ i ∈ ([] : List Item), isClosing i = true := by simp
        have h := worked_formula own hafter e' groupLine line
        rw [List.append_nil] at h
        exact h
    _ = e.eval own := by
        rw [Chain.eval_traverse]
        unfold Expression.eval Formula.eval
        congr 1
        funext t
        rw [Chain.eval_traverse]
        congr 1
        funext f
        exact f.eval_settle own

end Groups

/-! ### The whole operation -/

section Terminators

lemma Formula.clear_terminator {α : Type} {f : α → List Item}
    (hf : ∀ a, Clear TokenKind.isTerminator (f a)) (e : Formula α) :
    Clear TokenKind.isTerminator (e.flatten f .token) := by
  refine clear_flatten (clear_flatten hf fun kind h => ?_) (fun kind h => ?_) e
  · exact (only_of_isArithmetic (isArithmetic_of_isProduct h)).2.2
  · exact (only_of_isArithmetic (isArithmetic_of_isSum h)).2.2

lemma Factor.clear_terminator (f : Factor) : Clear TokenKind.isTerminator f.items := by
  cases f with
  | operand t => exact clear_cons.2 ⟨isTerminator_of_isOperand t.2, clear_nil⟩
  | group opening inner closing =>
    have hinner := inner.clear_terminator (f := fun t : Operand => [.token t.1]) fun t =>
      clear_cons.2 ⟨isTerminator_of_isOperand t.2, clear_nil⟩
    have hitems : Factor.items (.group opening inner closing) =
        .token opening.1 :: (inner.flatten (fun t : Operand => [.token t.1]) .token ++
          [.token closing.1]) := by
      simp only [Factor.items, Factor.tokens, Formula.flatten, List.map_cons, List.map_append,
        Chain.map_flatten]
      rfl
    rw [hitems]
    simp [hinner, opening.2, closing.2, TokenKind.isTerminator]

/-- An expression goes on up to the terminator after it. -/
lemma Expression.isTerminator_tokens (e : Expression) :
    ∀ t ∈ e.tokens, t.kind.isTerminator = false := by
  have hclear := Formula.clear_terminator Factor.clear_terminator e
  rw [← e.map_token] at hclear
  exact fun t ht => hclear (.token t) (List.mem_map_of_mem ht)

end Terminators

lemma expressionTokens_of_terminator {tokens follow : List Token} (depth : Nat)
    (htokens : ∀ t ∈ tokens, t.kind.isTerminator = false)
    (hfollow : ∀ t ∈ follow.head?, t.kind.isTerminator = true) :
    expressionTokens false depth (tokens ++ follow) = (tokens, follow) := by
  induction tokens generalizing depth with
  | nil =>
    cases follow with
    | nil => rfl
    | cons t follow => simp [expressionTokens, hfollow t rfl]
  | cons t tokens ih =>
    have ht := htokens t (by simp)
    simp [expressionTokens, ht, ih _ fun u hu => htokens u (by simp [hu])]

section Operation

variable {e : Expression} {frame : Frame} {first : Token} {others follow : List Token}

/-- The operation on an expression reads its tokens and works them out. -/
lemma operation_eq (htokens : e.tokens = first :: others) (hrest : frame.rest = others ++ follow)
    (harguments : frame.inArguments = false)
    (hfollow : ∀ t ∈ follow.head?, t.kind.isTerminator = true) :
    ∃ groupLine, operation first frame =
      onConsole (operate frame.scope groupLine first.line (e.tokens.map .token))
        { frame with rest := follow } := by
  have hothers : ∀ t ∈ others, t.kind.isTerminator = false :=
    fun t ht => e.isTerminator_tokens t (by simp [htokens, ht])
  have hcollect : collect first frame = .ok e.tokens { frame with rest := follow } := by
    unfold collect
    dsimp only
    rw [harguments, hrest, expressionTokens_of_terminator _ hothers hfollow, htokens]
  refine ⟨(e.tokens.getLast?.getD first).line, ?_⟩
  have hbind : operation first frame = EStateM.bind (collect first) (fun tokens => do
      let groupLine := (tokens.getLast?.getD first).line
      onConsole (operate (← Evaluator.scope) groupLine first.line (tokens.map .token))) frame := rfl
  rw [hbind, EStateM.bind, hcollect]
  rfl

/-- The operation on an expression ends with its value, with nothing changed but that its tokens are
read and notes are made; or it fails and there is no value. -/
lemma operation_ends (htokens : e.tokens = first :: others) (hrest : frame.rest = others ++ follow)
    (harguments : frame.inArguments = false)
    (hfollow : ∀ t ∈ follow.head?, t.kind.isTerminator = true) :
    (∃ v notes, e.eval frame.scope = some v ∧ operation first frame =
      .ok v { frame with
        rest := follow
        console := ⟨frame.console.output, frame.console.notes ++ notes⟩ }) ∨
    ∃ f last, e.eval frame.scope = none ∧ operation first frame = .error (.failure f) last := by
  obtain ⟨groupLine, hoperation⟩ := operation_eq htokens hrest harguments hfollow
  have hquiet := Quiet.operate frame.scope groupLine first.line (e.tokens.map .token)
  have hvalue : outcome (operate frame.scope groupLine first.line (e.tokens.map .token)) =
      e.eval frame.scope := worked_expression frame.scope e groupLine first.line
  -- an operation prints nothing, whatever its end
  obtain ⟨-, hends⟩ := hquiet [] .empty rfl
  rw [hoperation, ← hvalue]
  unfold onConsole outcome
  dsimp only
  rw [hquiet.apply frame.console]
  cases hr : operate frame.scope groupLine first.line (e.tokens.map .token) .empty with
  | ok v c =>
    rw [hr] at hends
    have houtput : c.output = [] := hends.1
    refine .inl ⟨v, c.notes, rfl, ?_⟩
    simp [onState, Console.append, houtput]
  | error stop c =>
    rw [hr] at hends
    obtain ⟨f, rfl⟩ := hends.2
    exact .inr ⟨f, _, rfl, rfl⟩

/-- **Conventional precedence.** Called on the first token of an expression that a terminator
follows, the operation returns a value exactly if that is the value of the expression, and fails
exactly if there is none. If it succeeds, the tokens of the expression are read, and no more, and
notes are made; the scope and the output stay as they are. -/
theorem operation_precedence (e : Expression) (frame : Frame) (first : Token)
    (others follow : List Token) (htokens : e.tokens = first :: others)
    (hrest : frame.rest = others ++ follow) (harguments : frame.inArguments = false)
    (hfollow : ∀ t ∈ follow.head?, t.kind.isTerminator = true) :
    (∀ v, (∃ last, operation first frame = .ok v last) ↔ e.eval frame.scope = some v) ∧
    ((∃ f last, operation first frame = .error (.failure f) last) ↔
      e.eval frame.scope = none) ∧
    ∀ v last, operation first frame = .ok v last → ∃ notes,
      last = { frame with
        rest := follow
        console := ⟨frame.console.output, frame.console.notes ++ notes⟩ } := by
  rcases operation_ends htokens hrest harguments hfollow with
    ⟨v, notes, hvalue, hoperation⟩ | ⟨f, last, hvalue, hoperation⟩
  · rw [hvalue, hoperation]
    refine ⟨fun w => ⟨?_, ?_⟩, ⟨?_, ?_⟩, ?_⟩
    · rintro ⟨last, h⟩
      cases h
      rfl
    · rintro h
      cases h
      exact ⟨_, rfl⟩
    · rintro ⟨f, last, h⟩
      cases h
    · intro h
      cases h
    · intro w last h
      cases h
      exact ⟨notes, rfl⟩
  · rw [hvalue, hoperation]
    refine ⟨fun w => ⟨?_, ?_⟩, ⟨?_, ?_⟩, ?_⟩
    · rintro ⟨last, h⟩
      cases h
    · intro h
      cases h
    · exact fun _ => rfl
    · exact fun _ => ⟨f, last, rfl⟩
    · intro w last h
      cases h

end Operation

section Mixed

def numberOperand (n : Int) : Operand := ⟨⟨.literal .int, .str (decimalText n), .int n, 1⟩, rfl⟩

def nameOperand (name : String) : Operand := ⟨⟨.identifier, .str name, .null, 1⟩, rfl⟩

/-- The expression `2 + 3 * (x - 1)`. -/
def mixedExpression : Expression :=
  ⟨⟨.operand (numberOperand 2), []⟩,
    [(⟨⟨.plus, .str "+", .null, 1⟩, rfl⟩,
      ⟨.operand (numberOperand 3),
        [(⟨⟨.star, .str "*", .null, 1⟩, rfl⟩,
          .group ⟨⟨.leftParen, .str "(", .null, 1⟩, rfl⟩
            ⟨⟨nameOperand "x", []⟩,
              [(⟨⟨.minus, .str "-", .null, 1⟩, rfl⟩, ⟨numberOperand 1, []⟩)]⟩
            ⟨⟨.rightParen, .str ")", .null, 1⟩, rfl⟩)]⟩)]⟩

/-- A frame after the first token of the expression, with `x` as `5`; a semicolon follows. -/
def mixedFrame : Frame where
  rest := mixedExpression.tokens.tail ++ [⟨.semicolon, .str ";", .null, 1⟩]
  past := 0
  inArguments := false
  scope := ⟨[(.str "x", .var ⟨(nameOperand "x").1, some (.int 5), .typeName .int⟩)]⟩
  console := .empty

theorem operation_precedence_mixed :
    ∃ last, operation (numberOperand 2) mixedFrame = .ok (some (.int 14)) last := by
  have hvalue : mixedExpression.eval mixedFrame.scope = some (some (.int 14)) := by decide +kernel
  have h := operation_precedence mixedExpression mixedFrame (numberOperand 2)
    mixedExpression.tokens.tail [⟨.semicolon, .str ";", .null, 1⟩] rfl rfl rfl (by simp; rfl)
  exact (h.1 (some (.int 14))).2 hvalue

end Mixed

end Hive
