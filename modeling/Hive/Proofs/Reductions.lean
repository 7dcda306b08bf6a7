import Hive.Proofs.Operations

/-!
What the items of an expression come to, step by step. The console does not matter to it, so an
expression is followed as a value that there is or is not: `worked` items take the value of a group
or of an operator in the place of its items, until one is left.
-/

namespace Hive

open Evaluator

/-! ### What a computation comes to -/

section Outcome

variable {α β : Type}

/-- What a computation comes to on an empty console, if it succeeds. -/
def outcome (m : ConsoleM α) : Option α :=
  match m .empty with
  | .ok a _ => some a
  | .error _ _ => none

@[simp]
lemma outcome_orFail (x : Except Failure α) : outcome (orFail x) = x.toOption := by
  cases x <;> rfl

lemma Quiet.apply {m : ConsoleM α} (hm : Quiet m) (c : Console) :
    m c = onState c.append (m .empty) := by
  have h : m (c.append .empty) = onState c.append (m .empty) :=
    ((hm [] .empty rfl).1 c).eq not_false fun _ _ => not_false
  rw [Console.append_empty] at h
  exact h

lemma outcome_bind {m : ConsoleM α} {k : α → ConsoleM β} (hk : ∀ a, Quiet (k a)) :
    outcome (m >>= k) = (outcome m).bind fun a => outcome (k a) := by
  have hbind : (m >>= k) .empty = EStateM.bind m k .empty := rfl
  unfold outcome
  rw [hbind, EStateM.bind]
  cases m .empty with
  | ok a c =>
    dsimp only [Option.bind_some]
    rw [(hk a).apply c]
    cases k a .empty <;> rfl
  | error e c => rfl

@[simp]
lemma outcome_note (level : Nat) (text : Except Fault String) :
    outcome (note level text) = text.toOption.map fun _ => () := by
  cases text <;> rfl

end Outcome

/-! ### One step of arithmetic -/

/-- The literal is not an integer of more digits than the limit. -/
def Literal.isShort (l : Literal) : Bool :=
  match l.datum with
  | .int n => isPrintableInteger n
  | _ => true

/-- The value is a literal of a number, of a numeric type. -/
def Value.IsNumber (v : Value) : Prop :=
  ∃ l, v = some l ∧ (l.type = .int ∨ l.type = .flt) ∧ ∃ a, l.number? = some a

def Value.isShort (v : Value) : Bool := v.all Literal.isShort

/-- A number is printed unless it is an integer of too many digits. -/
lemma Value.IsNumber.text_isSome {v : Value} (h : v.IsNumber) :
    v.text.toOption.isSome = v.isShort := by
  obtain ⟨⟨type, datum⟩, rfl, htype, a, ha⟩ := h
  have hdatum : datum.isPrintable = Value.isShort (some ⟨type, datum⟩) := by
    cases datum with
    | int n => simp [Json.isPrintable, Value.isShort, Literal.isShort]
    | flt x => simp [Json.isPrintable, Value.isShort, Literal.isShort]
    | _ => cases ha
  rw [← hdatum]
  rcases htype with rfl | rfl
  · show (datum.plainText).toOption.isSome = _
    unfold Json.plainText
    split <;> simp_all [Except.toOption]
  · show (datum.shownText).toOption.isSome = _
    unfold Json.shownText
    split <;> simp_all [Except.toOption]

lemma type_of_numeric {line : Int} {v : Value} {l : Literal} (h : numeric line v = .ok l) :
    v = some l ∧ (l.type = .int ∨ l.type = .flt) := by
  cases v with
  | none => cases h
  | some m =>
    unfold numeric at h
    dsimp only at h
    split at h
    · rename_i ht
      cases h
      exact ⟨rfl, ht⟩
    · cases h

lemma number_of_numbers {left right : Literal} {a b : Number}
    (h : numbers left right = .ok (a, b)) : left.number? = some a ∧ right.number? = some b := by
  unfold numbers at h
  split at h
  · rename_i ha hb
    cases h
    exact ⟨ha, hb⟩
  · cases h

lemma isNumber_convert {type : Ty} (ht : type = .int ∨ type = .flt) {x : Json} {l : Literal}
    (h : Literal.convert type x = .ok l) : Value.IsNumber (some l) := by
  rcases ht with rfl | rfl
  · cases hx : x.toInteger with
    | ok n =>
      simp only [Literal.convert, hx] at h
      cases h
      exact ⟨_, rfl, .inl rfl, _, rfl⟩
    | error f =>
      simp only [Literal.convert, hx] at h
      cases h
  · cases hx : x.toDouble with
    | ok y =>
      simp only [Literal.convert, hx] at h
      cases h
      exact ⟨_, rfl, .inr rfl, _, rfl⟩
    | error f =>
      simp only [Literal.convert, hx] at h
      cases h

lemma bind_eq_ok {σ α β : Type} {m : EStateM Stop σ α} {k : α → EStateM Stop σ β} {s t : σ} {b : β}
    (h : (m >>= k) s = .ok b t) : ∃ a u, m s = .ok a u ∧ k a u = .ok b t := by
  have hbind : (m >>= k) s = EStateM.bind m k s := rfl
  rw [hbind, EStateM.bind] at h
  cases hm : m s with
  | ok a u =>
    rw [hm] at h
    exact ⟨a, u, rfl, h⟩
  | error e u =>
    rw [hm] at h
    cases h

lemma bind_eq_error {σ α β : Type} {m : EStateM Stop σ α} {k : α → EStateM Stop σ β} {s t : σ}
    {e : Stop} (h : (m >>= k) s = .error e t) :
    m s = .error e t ∨ ∃ a u, m s = .ok a u ∧ k a u = .error e t := by
  cases hm : m s with
  | ok a u =>
    rw [bind_of_ok hm] at h
    exact .inr ⟨a, u, rfl, h⟩
  | error e' u =>
    rw [bind_of_error hm] at h
    cases h
    exact .inl rfl

lemma orFail_eq_ok {σ α : Type} {x : Except Failure α} {s t : σ} {a : α}
    (h : orFail x s = .ok a t) : x = .ok a := by
  cases x with
  | ok b => cases h; rfl
  | error f => cases h

lemma orHalt_eq_ok {σ α : Type} {x : Except Fault α} {s t : σ} {a : α}
    (h : orHalt x s = .ok a t) : x = .ok a := by
  cases x with
  | ok b => cases h; rfl
  | error f => cases h

lemma isNumber_of_divide {line : Int} {left right : Literal} {v : Value} {c d : Console}
    (h : divide line left right c = .ok v d) :
    (∃ a, left.number? = some a) ∧ (∃ b, right.number? = some b) ∧ v.IsNumber := by
  obtain ⟨-, c₁, -, h⟩ := bind_eq_ok h
  obtain ⟨⟨a, b⟩, c₂, hn, h⟩ := bind_eq_ok h
  obtain ⟨ha, hb⟩ := number_of_numbers (orHalt_eq_ok hn)
  obtain ⟨x, c₃, -, h⟩ := bind_eq_ok h
  cases h
  exact ⟨⟨a, ha⟩, ⟨b, hb⟩, _, rfl, .inr rfl, _, rfl⟩

/-- Where arithmetic succeeds, its operands and its result are numbers. -/
lemma isNumber_of_arithmetic {line : Int} {operator : ArithOp} {x y v : Value} {c d : Console}
    (h : arithmetic line operator x y c = .ok v d) : x.IsNumber ∧ y.IsNumber ∧ v.IsNumber := by
  obtain ⟨l, c₁, hl, hright⟩ := bind_eq_ok h
  obtain ⟨r, c₂, hr, hrest⟩ := bind_eq_ok hright
  obtain ⟨rfl, hltype⟩ := type_of_numeric (orFail_eq_ok hl)
  obtain ⟨rfl, hrtype⟩ := type_of_numeric (orFail_eq_ok hr)
  cases operator with
  | div =>
    obtain ⟨ha, hb, hv⟩ := isNumber_of_divide hrest
    exact ⟨⟨l, rfl, hltype, ha⟩, ⟨r, rfl, hrtype, hb⟩, hv⟩
  | add | sub | mul =>
    obtain ⟨⟨a, b⟩, c₃, hn, hrest⟩ := bind_eq_ok hrest
    obtain ⟨ha, hb⟩ := number_of_numbers (orHalt_eq_ok hn)
    obtain ⟨n, c₄, -, hrest⟩ := bind_eq_ok hrest
    obtain ⟨result, c₅, hresult, hrest⟩ := bind_eq_ok hrest
    obtain ⟨-, c₆, -, hrest⟩ := bind_eq_ok hrest
    cases hrest
    exact ⟨⟨l, rfl, hltype, a, ha⟩, ⟨r, rfl, hrtype, b, hb⟩,
      isNumber_convert hltype (orHalt_eq_ok hresult)⟩

/-- **One step of arithmetic** with an operator. It fails as well where an operand or the result is
an integer of more digits than the limit. -/
def step (op : Token) (left right : Value) : Option Value :=
  op.kind.arithmetic?.bind fun operator =>
    (outcome (arithmetic op.line operator left right)).filter fun v =>
      left.isShort && right.isShort && v.isShort

lemma isNumber_of_outcome {line : Int} {operator : ArithOp} {x y v : Value}
    (h : outcome (arithmetic line operator x y) = some v) :
    x.IsNumber ∧ y.IsNumber ∧ v.IsNumber := by
  unfold outcome at h
  cases hr : arithmetic line operator x y .empty with
  | ok w c =>
    rw [hr] at h
    cases h
    exact isNumber_of_arithmetic hr
  | error e c =>
    rw [hr] at h
    cases h

lemma exists_of_step {op : Token} {left right v : Value} (h : step op left right = some v) :
    ∃ l, v = some l := by
  obtain ⟨operator, -, h⟩ := Option.bind_eq_some_iff.1 h
  obtain ⟨h, -⟩ := Option.filter_eq_some_iff.1 h
  obtain ⟨-, -, l, hl, -⟩ := isNumber_of_outcome h
  exact ⟨l, hl⟩

/-! ### Operands -/

/-- What an item stands for, if it is an operand. -/
def meaning (own : Scope) (i : Item) : Option Value := (resolve own 0 i).toOption

/-- The line is only for the report of a problem. -/
lemma toOption_resolve (own : Scope) (line : Int) (i : Item) :
    (resolve own line i).toOption = meaning own i := by
  unfold meaning
  cases i with
  | value v => cases v <;> rfl
  | token t =>
    unfold resolve
    dsimp only
    split <;> rfl

lemma meaning_value (own : Scope) (v : Value) :
    meaning own (.value v) = (some v).filter Option.isSome := by
  cases v <;> rfl

/-- The end of a step: a note on it is written, and its value is returned. -/
def concludeStep (op : Token) (left right v : Value) : ConsoleM Value := do
  note 3 do
    return "reduce " ++ (← Value.text left) ++ " " ++ op.lexeme.plain ++ " "
      ++ (← Value.text right) ++ " -> " ++ (← Value.text v)
  return v

lemma Quiet.concludeStep (op : Token) (left right v : Value) :
    Quiet (concludeStep op left right v) :=
  (note _ _).bind fun _ => pure _

/-- A step is concluded unless one of the three values is too long to be printed. -/
lemma outcome_concludeStep (op : Token) {left right v : Value} (hl : left.IsNumber)
    (hr : right.IsNumber) (hv : v.IsNumber) :
    outcome (concludeStep op left right v) =
      (some v).filter fun v => left.isShort && right.isShort && v.isShort := by
  unfold concludeStep
  rw [outcome_bind fun _ => Quiet.pure _, outcome_note, Option.filter_some, ← hl.text_isSome,
    ← hr.text_isSome, ← hv.text_isSome]
  cases Value.text left with
  | error f => rfl
  | ok s =>
    cases Value.text right with
    | error f => rfl
    | ok t => cases Value.text v <;> rfl

lemma applyOperator_eq (own : Scope) (op : Token) (operator : ArithOp) (a b : Item) :
    applyOperator own op operator a b = (do
      let left ← orFail (resolve own op.line a)
      let right ← orFail (resolve own op.line b)
      let v ← arithmetic op.line operator left right
      concludeStep op left right v) := rfl

/-- **An operator applied to two items** is a step of arithmetic on what they stand for. -/
lemma outcome_applyOperator {own : Scope} {op : Token} {operator : ArithOp}
    (hop : op.kind.arithmetic? = some operator) (a b : Item) :
    outcome (applyOperator own op operator a b) =
      (meaning own a).bind fun left => (meaning own b).bind fun right => step op left right := by
  -- none of the steps reads the console, so each of them comes to the same on an empty one
  have hstep (left right : Value) : Quiet (do
      let v ← arithmetic op.line operator left right
      concludeStep op left right v) :=
    (Quiet.arithmetic _ _ _ _).bind fun _ => Quiet.concludeStep _ _ _ _
  rw [applyOperator_eq, outcome_bind fun _ => (Quiet.orFail _).bind fun _ => hstep _ _,
    outcome_orFail, toOption_resolve]
  congr 1
  funext left
  rw [outcome_bind fun _ => hstep _ _, outcome_orFail, toOption_resolve]
  congr 1
  funext right
  rw [outcome_bind fun _ => Quiet.concludeStep _ _ _ _]
  unfold step
  rw [hop, Option.bind_some]
  cases hv : outcome (arithmetic op.line operator left right) with
  | none => rfl
  | some v =>
    obtain ⟨hl, hr, hv⟩ := isNumber_of_outcome hv
    exact outcome_concludeStep op hl hr hv

/-! ### Finding the next reduction -/

def Item.isKind (p : TokenKind → Bool) : Item → Bool
  | .token t => p t.kind
  | .value _ => false

def Clear (p : TokenKind → Bool) (items : List Item) : Prop := ∀ i ∈ items, i.isKind p = false

@[simp]
lemma Item.isKind_token (p : TokenKind → Bool) (t : Token) :
    (Item.token t).isKind p = p t.kind := rfl

section Clear

variable {p : TokenKind → Bool} {before after items : List Item}

@[simp] lemma clear_nil : Clear p [] := nofun

@[simp]
lemma clear_cons {i : Item} : Clear p (i :: items) ↔ i.isKind p = false ∧ Clear p items :=
  List.forall_mem_cons

@[simp]
lemma clear_append : Clear p (before ++ after) ↔ Clear p before ∧ Clear p after :=
  List.forall_mem_append

lemma splitFirst?_of_clear (h : Clear p items) : splitFirst? p items = none := by
  induction items with
  | nil => rfl
  | cons i items ih =>
    obtain ⟨hi, hitems⟩ := clear_cons.1 h
    cases i with
    | value v => simp [splitFirst?, ih hitems]
    | token t =>
      have ht : p t.kind = false := hi
      simp [splitFirst?, ht, ih hitems]

lemma splitFirst?_append {t : Token} (h : Clear p before) (ht : p t.kind = true) :
    splitFirst? p (before ++ .token t :: after) = some (before, t, after) := by
  induction before with
  | nil => simp [splitFirst?, ht]
  | cons i before ih =>
    obtain ⟨hi, hbefore⟩ := clear_cons.1 h
    cases i with
    | value v => simp [splitFirst?, ih hbefore]
    | token u =>
      have hu : p u.kind = false := hi
      simp [splitFirst?, hu, ih hbefore]

end Clear

abbrev isOpening (kind : TokenKind) : Bool := kind == .leftParen

lemma reduction_of_group {before inner after : List Item} {opening closing : Token}
    (hbefore : Clear isOpening before) (hopening : opening.kind = .leftParen)
    (hinner : Clear (· == .rightParen) inner) (hclosing : closing.kind = .rightParen) :
    reduction (before ++ .token opening :: (inner ++ .token closing :: after)) =
      .group before inner closing after := by
  have hlen : ¬(before ++ .token opening :: (inner ++ .token closing :: after)).length ≤ 1 := by
    simp only [List.length_append, List.length_cons]
    omega
  have hopen : isOpening opening.kind = true := by simp [hopening]
  have hclose : (closing.kind == .rightParen) = true := by simp [hclosing]
  unfold reduction
  rw [if_neg hlen, splitFirst?_append hbefore hopen]
  dsimp only
  rw [splitFirst?_append hinner hclose]

/-- Without groups, the first operator is applied. -/
lemma reduction_of_operator {before after : List Item} {left right : Item} {op : Token}
    {operator : ArithOp} (hop : op.kind.arithmetic? = some operator)
    (hopening : Clear isOpening (before ++ left :: .token op :: right :: after))
    (hfirst : firstOperator? (before ++ left :: .token op :: right :: after) =
      some (before ++ [left], op, right :: after)) :
    reduction (before ++ left :: .token op :: right :: after) =
      .apply before left op operator right after := by
  have hlen : ¬(before ++ left :: .token op :: right :: after).length ≤ 1 := by
    simp only [List.length_append, List.length_cons]
    omega
  unfold reduction
  rw [if_neg hlen, splitFirst?_of_clear hopening]
  dsimp only
  rw [hfirst]
  dsimp only
  unfold reduceOperator beside?
  rw [List.reverse_append, hop]
  simp

lemma reduction_of_clear {items : List Item} (hopening : Clear isOpening items)
    (hproduct : Clear TokenKind.isProduct items) (hsum : Clear TokenKind.isSum items) :
    reduction items = .nothing := by
  unfold reduction
  split
  · rfl
  · rw [splitFirst?_of_clear hopening]
    dsimp only
    unfold firstOperator?
    rw [splitFirst?_of_clear hproduct]
    dsimp only
    rw [splitFirst?_of_clear hsum]

lemma reduction_of_clear_opening {items : List Item} (h : Clear isOpening items) :
    reduction items = .nothing ∨
      ∃ before op after, reduction items = reduceOperator before op after := by
  unfold reduction
  rw [splitFirst?_of_clear h]
  dsimp only
  split
  · exact .inl rfl
  split
  · exact .inr ⟨_, _, _, rfl⟩
  · exact .inl rfl

/-! ### Working out items -/

lemma Quiet.operate (own : Scope) (groupLine line : Int) (items : List Item) :
    Quiet (operate own groupLine line items) := by
  fun_induction Evaluator.operate own groupLine line items with
  | case1 => exact orFail _
  | case2 => exact throw _
  | case3 _ _ _ _ _ _ _ ihInner ih => exact ihInner.bind ih
  | case4 => exact throw _
  | case5 _ _ _ _ _ _ _ _ _ ih => exact (applyOperator _ _ _ _ _).bind ih

/-- The value that items come to, if they do. -/
def worked (own : Scope) (groupLine line : Int) (items : List Item) : Option Value :=
  outcome (operate own groupLine line items)

section Worked

variable {own : Scope} {groupLine line : Int} {items before inner after : List Item}

lemma worked_of_group {closing : Token} (h : reduction items = .group before inner closing after) :
    worked own groupLine line items =
      (worked own groupLine groupLine (inner ++ [.token closing])).bind fun v =>
        worked own groupLine line (before ++ .value v :: after) := by
  unfold worked
  rw [operate_eq, h]
  exact outcome_bind fun _ => Quiet.operate _ _ _ _

lemma worked_of_apply {left right : Item} {op : Token} {operator : ArithOp}
    (hop : op.kind.arithmetic? = some operator)
    (h : reduction items = .apply before left op operator right after) :
    worked own groupLine line items =
      (((meaning own left).bind fun x => (meaning own right).bind fun y => step op x y).bind
        fun v => worked own groupLine line (before ++ .value v :: after)) := by
  unfold worked
  rw [operate_eq, h]
  rw [outcome_bind fun _ => Quiet.operate _ _ _ _, outcome_applyOperator hop]

lemma worked_of_nothing {i : Item} {more : List Item}
    (h : reduction (i :: more) = .nothing) (hmore : ∀ j ∈ more, isClosing j = true) :
    worked own groupLine line (i :: more) = meaning own i := by
  unfold worked
  rw [operate_eq, h]
  rw [outcome_orFail, finish, if_pos (List.all_eq_true.2 hmore), toOption_resolve]

end Worked

end Hive
