import Hive.Proofs.Nesting
import Hive.Proofs.Numbers

/-!
The types of results are static. Which type the value of an arithmetic expression has can be told
from the types of its operands: the left operand decides, and a quotient is a double. Since products
come before sums, a quotient decides for its own product only. So in all scopes in which the names
stand for the same types the value of an expression fits the same places.
-/

namespace Hive

open Evaluator

/-! ### Types of expressions -/

/-- The type of an operand, given those of names. -/
def Operand.type (names : Json → Ty) (t : Operand) : Ty :=
  match t.1.kind with
  | .literal type => type
  | .identifier => names t.1.lexeme
  | _ => .bool

/-- What goes on from a type with the links of a chain ends with it, or with doubles if there is a
quotient among the links. -/
def Chain.typeFrom {p : TokenKind → Bool} {α : Type} (type : Ty) (rest : List (Link p α)) : Ty :=
  if rest.any fun x => x.1.1.kind == .slash then .flt else type

/-- **The type of a sum of products**, given those of its parts. It is that of the first product,
which is the type of its first part, or that of doubles if there is a quotient in the product. -/
def Formula.type {α : Type} (f : α → Ty) (e : Formula α) : Ty :=
  Chain.typeFrom (f e.first.first) e.first.rest

/-- The type of a factor: a group has that of what is in it. -/
def Factor.type (names : Json → Ty) : Factor → Ty
  | .operand t => t.type names
  | .group _ inner _ => inner.type (Operand.type names)

/-- **The type of an expression**, given those of names. -/
def Expression.type (names : Json → Ty) (e : Expression) : Ty := Formula.type (Factor.type names) e

/-- **The scope gives names their types**: a variable that is named among the tokens holds no literal
but of the type of its name. -/
def Scope.Gives (own : Scope) (names : Json → Ty) (tokens : List Token) : Prop :=
  ∀ t ∈ tokens, t.kind = .identifier →
    ∀ v, own.variableAt t = .ok v → ∀ l ∈ v.value, l.type = names t.lexeme

instance (own : Scope) (names : Json → Ty) (tokens : List Token) :
    Decidable (own.Gives names tokens) :=
  have (t : Token) : Decidable (∀ v, own.variableAt t = .ok v →
      ∀ l ∈ v.value, l.type = names t.lexeme) :=
    match own.variableAt t with
    | .ok v => decidable_of_iff (∀ l ∈ v.value, l.type = names t.lexeme)
        ⟨fun h w hw => by cases hw; exact h, (· v rfl)⟩
    | .error _ => .isTrue fun _ hv => nomatch hv
  inferInstanceAs (Decidable (∀ t ∈ tokens, t.kind = .identifier → _))

/-- **The literal is returned for an expression** in a scope: its tokens are worked out on some
console, or they are those that the operation collects in some frame. -/
def Expression.Returns (e : Expression) (own : Scope) (l : Literal) : Prop :=
  (∃ groupLine line c d, operate own groupLine line (e.tokens.map .token) c = .ok (some l) d) ∨
  ∃ frame first collected last, frame.scope = own ∧
    collect first frame = .ok e.tokens collected ∧ operation first frame = .ok (some l) last

/-- The types whose literals go into a place: its own, and that of integers if it is for doubles. -/
def Ty.Takes (place type : Ty) : Prop := type = place ∨ place = .flt ∧ type = .int

/-- The literal counts as an integer and should become a double. If it is a sound one, it is too
large for that. -/
def Ty.Overflows (place : Ty) (l : Literal) : Prop :=
  place = .flt ∧ l.type = .int ∧
    (l.isSound = true → place.fit (some l) = .error (.fault .integerTooLarge))

namespace StaticTypes

/-! ### One step -/

lemma type_of_convert {type : Ty} {x : Json} {l : Literal} (h : Literal.convert type x = .ok l) :
    l.type = type := by
  cases type with
  | bool => rw [← Except.ok.inj h]; rfl
  | int | flt | str =>
    obtain ⟨y, -, hl⟩ := ok_of_bind h
    rw [← Except.ok.inj hl]
    rfl

lemma type_of_divide {line : Int} {left right l : Literal} {c d : Console}
    (h : divide line left right c = .ok (some l) d) : l.type = .flt := by
  obtain ⟨-, c₁, -, h⟩ := bind_eq_ok h
  obtain ⟨numbers, c₂, -, h⟩ := bind_eq_ok h
  obtain ⟨x, c₃, -, h⟩ := bind_eq_ok h
  cases h
  rfl

/-- The left operand decides the type of a result, but a quotient is a double. -/
lemma type_of_arithmetic {line : Int} {operator : ArithOp} {x y : Value} {l : Literal}
    {c d : Console} (h : arithmetic line operator x y c = .ok (some l) d) :
    ∃ left, x = some left ∧ l.type = if operator = .div then .flt else left.type := by
  obtain ⟨left, c₁, hleft, hright⟩ := bind_eq_ok h
  obtain ⟨right, c₂, -, hrest⟩ := bind_eq_ok hright
  obtain ⟨rfl, -⟩ := type_of_numeric (orFail_eq_ok hleft)
  refine ⟨left, rfl, ?_⟩
  cases operator with
  | div => exact type_of_divide hrest
  | add | sub | mul =>
    obtain ⟨numbers, c₃, -, hrest⟩ := bind_eq_ok hrest
    obtain ⟨exact, c₄, -, hrest⟩ := bind_eq_ok hrest
    obtain ⟨result, c₅, hresult, hrest⟩ := bind_eq_ok hrest
    obtain ⟨-, c₆, -, hrest⟩ := bind_eq_ok hrest
    cases hrest
    exact type_of_convert (orHalt_eq_ok hresult)

lemma slash_of_arithmetic? {kind : TokenKind} {operator : ArithOp}
    (h : kind.arithmetic? = some operator) : kind = .slash ↔ operator = .div := by
  unfold TokenKind.arithmetic? at h
  split at h <;> cases h <;> simp

lemma type_of_step {op : Token} {x y : Value} {l : Literal} (h : step op x y = some (some l)) :
    ∃ left, x = some left ∧ l.type = if op.kind = .slash then .flt else left.type := by
  obtain ⟨operator, hop, h⟩ := Option.bind_eq_some_iff.1 h
  obtain ⟨h, -⟩ := Option.filter_eq_some_iff.1 h
  unfold outcome at h
  cases hr : arithmetic op.line operator x y .empty with
  | error stop d =>
    rw [hr] at h
    cases h
  | ok w d =>
    rw [hr] at h
    cases h
    simpa only [slash_of_arithmetic? hop] using type_of_arithmetic hr

/-! ### Chains of steps -/

section Chains

variable {p : TokenKind → Bool} {α : Type} {f : α → Option Value} {g : α → Ty} {l : Literal}

lemma typeFrom_cons (type : Ty) (x : Link p α) (rest : List (Link p α)) :
    Chain.typeFrom type (x :: rest) =
      Chain.typeFrom (if x.1.1.kind = .slash then .flt else type) rest := by
  unfold Chain.typeFrom
  by_cases hslash : x.1.1.kind = .slash
  · simp [hslash]
  · rw [List.any_cons, beq_false_of_ne hslash, Bool.false_or, if_neg hslash]

/-- A sum has no quotients of its own. -/
lemma typeFrom_sum (type : Ty) (rest : List (Link TokenKind.isSum α)) :
    Chain.typeFrom type rest = type := by
  refine if_neg fun hany => ?_
  obtain ⟨x, -, hx⟩ := List.any_eq_true.1 hany
  have hsum := x.1.2
  rw [eq_of_beq hx] at hsum
  cases hsum

/-- What is reached from a value has the type that is reached from the type of the value. -/
lemma type_evalFrom {v : Value} {rest : List (Link p α)}
    (h : Chain.evalFrom f v rest = some (some l)) :
    ∃ a, v = some a ∧ l.type = Chain.typeFrom a.type rest := by
  induction rest generalizing v with
  | nil =>
    cases h
    exact ⟨l, rfl, rfl⟩
  | cons x rest ih =>
    obtain ⟨w, hw, hrest⟩ := Option.bind_eq_some_iff.1 h
    obtain ⟨y, -, hstep⟩ := Option.bind_eq_some_iff.1 hw
    obtain ⟨b, rfl, hl⟩ := ih hrest
    obtain ⟨a, rfl, hb⟩ := type_of_step hstep
    refine ⟨a, rfl, ?_⟩
    rw [hl, hb, typeFrom_cons]

/-- **The value of a sum of products has its type**, if the value of the first part has. -/
lemma type_formula {e : Formula α}
    (hfirst : ∀ a, f e.first.first = some (some a) → a.type = g e.first.first)
    (h : e.eval f = some (some l)) : l.type = e.type g := by
  obtain ⟨product, hproduct, hsum⟩ := Option.bind_eq_some_iff.1 h
  obtain ⟨b, rfl, hl⟩ := type_evalFrom hsum
  obtain ⟨part, hpart, hproduct⟩ := Option.bind_eq_some_iff.1 hproduct
  obtain ⟨a, rfl, hb⟩ := type_evalFrom hproduct
  rw [hl, typeFrom_sum, hb, hfirst a hpart]
  rfl

end Chains

/-! ### Expressions -/

section Expressions

variable {own : Scope} {names : Json → Ty}

lemma mem_flatten_first {α : Type} {k : α → List Token} {e : Formula α} {t : Token}
    (h : t ∈ k e.first.first) : t ∈ e.flatten k id := by
  simp [Formula.flatten, Chain.flatten, h]

lemma type_operand {t : Operand} (hgives : own.Gives names [t.1]) {l : Literal}
    (h : meaning own (.token t) = some (some l)) : l.type = t.type names := by
  obtain ⟨t, hoperand⟩ := t
  unfold meaning at h
  unfold Operand.type
  -- a name has the type that it is given; any other operand shows its own
  rcases eq_of_isOperand hoperand with hkind | ⟨type, hkind⟩ | hkind | hkind
  · simp only [resolve, hkind] at h ⊢
    cases hv : own.variableAt t with
    | error f =>
      rw [hv] at h
      cases h
    | ok v =>
      rw [hv] at h
      exact hgives t (by simp) hkind v hv l (Option.some.inj h)
  all_goals
    simp only [resolve, hkind, Literal.ofToken] at h ⊢
    cases h
    rfl

lemma gives_subset {tokens more : List Token} (h : own.Gives names more) (hsub : tokens ⊆ more) :
    own.Gives names tokens :=
  fun t ht => h t (hsub ht)

lemma type_factor {f : Factor} (hgives : own.Gives names f.tokens) {l : Literal}
    (h : f.eval own = some (some l)) : l.type = f.type names := by
  cases f with
  | operand t => exact type_operand hgives h
  | group opening inner closing =>
    obtain ⟨h, -⟩ := Option.filter_eq_some_iff.1 h
    refine type_formula (fun a ha => type_operand (gives_subset hgives ?_) ha) h
    intro t ht
    have hmem : t ∈ inner.flatten (fun t => [t.1]) id := mem_flatten_first ht
    simp [Factor.tokens, hmem]

/-- **The value of an expression has its type.** -/
lemma type_expression {e : Expression} (hgives : own.Gives names e.tokens) {l : Literal}
    (h : e.eval own = some (some l)) : l.type = e.type names :=
  type_formula (fun _ ha => type_factor (gives_subset hgives fun _ => mem_flatten_first) ha) h

lemma operate_iff_eval {e : Expression} {groupLine line : Int} {c : Console} {v : Value} :
    (∃ d, operate own groupLine line (e.tokens.map .token) c = .ok v d) ↔ e.eval own = some v := by
  rw [← worked_expression own e groupLine line, Nesting.worked_eq_value]
  exact (settles_operate own groupLine line (e.tokens.map .token) c).1 v

lemma returns_iff {e : Expression} {l : Literal} :
    e.Returns own l ↔ e.eval own = some (some l) := by
  constructor
  · rintro (⟨groupLine, line, c, hoperate⟩ | ⟨frame, first, collected, last, rfl, hcollect, h⟩)
    · exact operate_iff_eval.1 hoperate
    · obtain ⟨others, rest, groupLine, hothers, hoperation⟩ := operation_of_collect first frame
      rw [hcollect] at hothers
      have htokens : e.tokens = first :: others := by injection hothers
      rw [hoperation, ← htokens] at h
      unfold onConsole at h
      split at h
      · rename_i hoperate
        cases h
        exact operate_iff_eval.1 ⟨_, hoperate⟩
      · cases h
  · intro h
    -- the lines are for reports only, so any will do
    exact .inl ⟨0, 0, .empty, operate_iff_eval.2 h⟩

end Expressions

/-! ### Places -/

lemma fits_of_takes {place : Ty} {l : Literal} (h : place.Takes l.type) :
    (∃ m, place.fit (some l) = .ok m) ∨ place.Overflows l := by
  rcases h with htype | ⟨rfl, htype⟩
  · exact .inl ⟨l, if_pos htype⟩
  · have hne : ¬l.type = Ty.flt := by simp [htype]
    cases hx : l.datum.toDouble with
    | ok x =>
      refine .inl ⟨.flt x, ?_⟩
      rw [Ty.fit, if_neg hne, if_pos ⟨rfl, htype⟩, hx]
    | error f =>
      -- the only way to fail is an integer beyond the largest double
      refine .inr ⟨rfl, htype, fun hsound => ?_⟩
      obtain ⟨type, datum⟩ := l
      obtain rfl : type = .int := htype
      cases datum with
      | int n =>
        obtain rfl := orFault_eq_error hx
        rw [Ty.fit, if_neg hne, if_pos ⟨rfl, rfl⟩, hx]
      | _ => cases hsound

lemma mismatch_of_not_takes {place : Ty} {l : Literal} (h : ¬place.Takes l.type) :
    place.fit (some l) = .error .mismatch := by
  obtain ⟨hown, hpromoted⟩ := not_or.1 h
  unfold Ty.fit
  dsimp only
  rw [if_neg hown, if_neg hpromoted]

end StaticTypes

open StaticTypes

section Halving

def signToken (kind : TokenKind) (sign : String) : Token := ⟨kind, .str sign, .null, 1⟩

/-- The expression `n / 2 - (n + 0.5)`. -/
def halvingExpression : Expression :=
  ⟨⟨.operand (nameOperand "n"), [(⟨signToken .slash "/", rfl⟩, .operand (numberOperand 2))]⟩,
    [(⟨signToken .minus "-", rfl⟩,
      ⟨.group ⟨signToken .leftParen "(", rfl⟩
        ⟨⟨nameOperand "n", []⟩,
          [(⟨signToken .plus "+", rfl⟩,
            ⟨⟨⟨.literal .flt, .str "0.5", .flt (.ofDecimal false 5 (-1)), 1⟩, rfl⟩, []⟩)]⟩
        ⟨signToken .rightParen ")", rfl⟩, []⟩)]⟩

def halvingScope (n : Int) : Scope :=
  ⟨[(.str "n", .var ⟨(nameOperand "n").1, some (.int n), .typeName .int⟩)]⟩

end Halving

end Hive
