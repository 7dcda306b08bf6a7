import Hive.Proofs.Composition
import Hive.Proofs.Concatenations
import Hive.Proofs.Functions
import Hive.Proofs.Transparency

/-!
Operands of arithmetic that are no numbers. No step of arithmetic takes a text or a truth value, and
none makes one; so in a chain of operands with operators between them one that is there stays there,
and the chain comes to no value. The evaluator gets to the chain by its first operand, though: a
text is refused in front of an operator, but a truth value is a statement of its own, after which
the operator is passed over. Main statement: a chain with such an operand fails, as a statement and
as the value of a declaration, unless a truth value comes first; then what is after its operator
decides.
-/

namespace Hive

open Evaluator Transparency

/-! ### Chains of operands -/

abbrev Operator : Type := {t : Token // t.kind.isArithmetic = true}

/-- Operands with arithmetic operators between them. -/
abbrev OperandChain : Type := Chain TokenKind.isArithmetic Token

namespace OperandChain

def tokens (c : OperandChain) : List Token := c.flatten (fun t => [t]) id

def operands (c : OperandChain) : List Token := c.first :: c.rest.map Prod.snd

def cons (first : Token) (op : Operator) (others : OperandChain) : OperandChain :=
  ⟨first, (op, others.first) :: others.rest⟩

variable {c : OperandChain}

lemma tokens_cons (first : Token) (op : Operator) (others : OperandChain) :
    (cons first op others).tokens = first :: op.1 :: others.tokens := by
  simp [tokens, cons, Chain.flatten, Chain.flattenLinks]

lemma mem_tokens {t : Token} (ht : t ∈ c.tokens) :
    t ∈ c.operands ∨ t.kind.isArithmetic = true := by
  rcases List.mem_append.1 ht with ht | ht
  · exact .inl (by rw [List.mem_singleton.1 ht]; exact List.mem_cons_self)
  · obtain ⟨x, hx, ht⟩ := List.mem_flatMap.1 ht
    rcases List.mem_cons.1 ht with rfl | ht
    · exact .inr x.1.2
    · rw [List.mem_singleton.1 ht]
      exact .inl (List.mem_cons_of_mem _ (List.mem_map_of_mem hx))

lemma mem_tokens_of_operand {t : Token} (ht : t ∈ c.operands) : t ∈ c.tokens := by
  rcases List.mem_cons.1 ht with rfl | ht
  · exact List.mem_append_left _ (List.mem_singleton_self _)
  · obtain ⟨x, hx, rfl⟩ := List.mem_map.1 ht
    exact List.mem_append_right _
      (List.mem_flatMap.2 ⟨x, hx, List.mem_cons_of_mem _ (List.mem_singleton_self _)⟩)

end OperandChain

/-! ### What is no number stays -/

section Stuck

variable {own : Scope} {groupLine line : Int} {items : List Item}

lemma isNumber_of_step {op : Token} {left right v : Value} (h : step op left right = some v) :
    left.IsNumber ∧ right.IsNumber ∧ v.IsNumber := by
  obtain ⟨operator, -, h⟩ := Option.bind_eq_some_iff.1 h
  exact isNumber_of_outcome (Option.filter_eq_some_iff.1 h).1

/-- **What is no number stays among the items**: it must be the one that is left in the end. -/
lemma alone_of_worked {i : Item} {v w : Value} (hclear : Clear isOpening items) (hi : i ∈ items)
    (hw : meaning own i = some w) (hnumber : ¬w.IsNumber)
    (h : worked own groupLine line items = some v) :
    ∃ more, items = i :: more ∧ ∀ j ∈ more, isClosing j = true := by
  -- an operator that is applied leaves two items fewer
  induction hn : items.length using Nat.strong_induction_on generalizing items with
  | h n ih =>
  subst hn
  rcases reduction_of_clear_opening hclear with hnothing | ⟨earlier, op, later, hop⟩
  · cases items with
    | nil => cases hi
    | cons j more =>
      unfold worked at h
      rw [operate_eq, hnothing] at h
      dsimp only at h
      rw [outcome_orFail, finish] at h
      split at h
      · rename_i hmore
        have hclosing := List.all_eq_true.1 hmore
        rcases List.mem_cons.1 hi with rfl | hi
        · exact ⟨more, rfl, hclosing⟩
        · rw [Nesting.meaning_of_isClosing (hclosing i hi)] at hw
          cases hw
      · cases h
  unfold reduceOperator at hop
  split at hop
  case h_2 =>
    rw [Nesting.worked_of_dangling hop] at h
    cases h
  case h_1 before left right after operator _ hoperator =>
  obtain rfl := fits_of_reduction hop
  rw [worked_of_apply hoperator hop] at h
  obtain ⟨u, hu, hrest⟩ := Option.bind_eq_some_iff.1 h
  obtain ⟨x, hx, hu⟩ := Option.bind_eq_some_iff.1 hu
  obtain ⟨y, hy, hu⟩ := Option.bind_eq_some_iff.1 hu
  obtain ⟨hxnumber, hynumber, hunumber⟩ := isNumber_of_step hu
  -- the operator has taken two numbers, so the item is beside what it took
  have hbeside : i ∈ before ++ .value u :: after := by
    rcases List.mem_append.1 hi with hi | hi
    · exact List.mem_append_left _ hi
    rcases List.mem_cons.1 hi with rfl | hi
    · rw [hx] at hw
      cases hw
      exact absurd hxnumber hnumber
    rcases List.mem_cons.1 hi with rfl | hi
    · have harith : op.kind.isArithmetic = true := Option.isSome_iff_exists.2 ⟨operator, hoperator⟩
      rw [Nesting.meaning_of_kind (Nesting.isOperand_of_isArithmetic harith)] at hw
      cases hw
    rcases List.mem_cons.1 hi with rfl | hi
    · rw [hy] at hw
      cases hw
      exact absurd hynumber hnumber
    · exact List.mem_append_right _ (List.mem_cons_of_mem _ hi)
  have hclear' : Clear isOpening (before ++ .value u :: after) := by
    simp only [clear_append, clear_cons] at hclear ⊢
    exact ⟨hclear.1, rfl, hclear.2.2.2.2⟩
  obtain ⟨more, hmore, hclosing⟩ := ih _ (by
    simp only [List.length_append, List.length_cons]
    omega) hclear' hbeside hrest rfl
  -- its result is a number too, and would have to be the item or a parenthesis
  have hvalue : Item.value u ∈ i :: more := by simp [← hmore]
  rcases List.mem_cons.1 hvalue with rfl | hvalue
  · rw [meaning_value, Option.filter_eq_some_iff] at hw
    cases hw.1
    exact absurd hunumber hnumber
  · cases hclosing _ hvalue

/-- Items with an operator after the first one come to no value if one of them is no number. -/
lemma operate_of_not_number (groupLine line : Int) {first i : Item} {op : Token} {rest : List Item}
    {w : Value} (hop : op.kind.isArithmetic = true)
    (hclear : Clear isOpening (first :: .token op :: rest)) (hi : i ∈ first :: .token op :: rest)
    (hw : meaning own i = some w) (hnumber : ¬w.IsNumber) (c : Console) :
    ∃ f last, operate own groupLine line (first :: .token op :: rest) c =
      .error (.failure f) last := by
  refine (settles_operate own groupLine line _ c).2.2 ?_
  rw [← Nesting.worked_eq_value own groupLine line]
  refine Option.eq_none_iff_forall_ne_some.2 fun v hv => ?_
  obtain ⟨more, hmore, hclosing⟩ := alone_of_worked hclear hi hw hnumber hv
  obtain ⟨rfl, rfl⟩ := List.cons.inj hmore
  have hparen : (op.kind == .rightParen) = true := hclosing _ List.mem_cons_self
  rw [(only_of_isArithmetic hop).2.1] at hparen
  cases hparen

end Stuck

/-! ### The first operand -/

/-- The operand stands for a truth value. -/
def Scope.IsTruth (own : Scope) (t : Token) : Prop :=
  ∃ l : Literal, own.Denotes t (some l) ∧ l.type = .bool

section First

variable {own : Scope} {t u : Token} {l : Literal} {v w : Value}

lemma Scope.Denotes.unique (hv : own.Denotes t v) (hw : own.Denotes t w) : v = w := by
  have h : resolve own 0 (.token t) = .ok v := Concatenations.resolve_of_denotes hv
  rw [Concatenations.resolve_of_denotes hw] at h
  exact (Except.ok.inj h).symm

lemma Scope.Denotes.meaning_eq (h : own.Denotes t v) : meaning own (.token t) = some v := by
  unfold meaning
  rw [Concatenations.resolve_of_denotes h]
  rfl

lemma Scope.Denotes.isOperand (h : own.Denotes t v) : t.kind.isOperand = true := by
  cases h with
  | literal hkind | yes hkind | no hkind | name hkind => rw [hkind]; rfl

lemma not_isNumber_of_type (h : l.type = .str ∨ l.type = .bool) : ¬Value.IsNumber (some l) := by
  rintro ⟨m, hm, htype, -⟩
  cases hm
  rcases h with h | h <;> simp [h] at htype

lemma Scope.Denotes.ofToken (h : own.Denotes t v) (hid : t.kind ≠ .identifier) :
    ∃ l, v = some l ∧ Literal.ofToken t = .ok l := by
  cases h with
  | literal hkind | yes hkind | no hkind => exact ⟨_, rfl, by simp [Literal.ofToken, hkind]⟩
  | name hkind => exact absurd hkind hid

lemma Scope.Denotes.variableAt (h : own.Denotes t v) (hid : t.kind = .identifier) :
    ∃ x, own.variableAt t = .ok x ∧ x.value = v := by
  cases h with
  | name _ hx => exact ⟨_, hx, rfl⟩
  | literal hkind | yes hkind | no hkind => rw [hid] at hkind; cases hkind

/-- What is put in the place of an operand stands for the same, if anything can be put there. -/
lemma substitute_of_denotes (h : own.Denotes t v) :
    (∃ f, substitute own t = .error f) ∨
      ∃ u l, v = some l ∧ substitute own t = .ok u ∧ own.Denotes u (some l) ∧
        u.kind ≠ .identifier := by
  by_cases hid : t.kind = .identifier
  · obtain ⟨x, hx, rfl⟩ := h.variableAt hid
    cases hl : x.value with
    | none =>
      refine .inl ⟨.fault .noValue, ?_⟩
      unfold substitute
      rw [if_pos hid, hx]
      simp only [bind, Except.bind, hl]
    | some l =>
      rw [substitute_value hid hx hl]
      cases hu : l.toToken t.line with
      | error f => exact .inl ⟨.fault f, rfl⟩
      | ok u =>
        obtain ⟨hukind, hdatum, -⟩ := toToken_spec hu
        have hdenotes : own.Denotes u (some ⟨l.type, u.literal⟩) := .literal hukind
        rw [hdatum] at hdenotes
        exact .inr ⟨u, l, rfl, rfl, hdenotes, by simp [hukind]⟩
  · obtain ⟨l, rfl, -⟩ := h.ofToken hid
    exact .inr ⟨t, l, rfl, substitute_of_kind hid, h, hid⟩

/-- A truth value can always be put in the place of its variable. -/
lemma substitute_of_truth (h : own.Denotes t (some l)) (htype : l.type = .bool) :
    ∃ u, substitute own t = .ok u ∧ own.Denotes u (some l) ∧ u.kind ≠ .identifier := by
  rcases substitute_of_denotes h with ⟨f, hf⟩ | ⟨u, m, hm, hu, hdenotes, hid⟩
  · by_cases hid : t.kind = .identifier
    · obtain ⟨x, hx, hl⟩ := h.variableAt hid
      obtain ⟨type, datum⟩ := l
      obtain rfl : type = .bool := htype
      rw [substitute_value hid hx hl] at hf
      cases hf
    · rw [substitute_of_kind hid] at hf
      cases hf
  · cases hm
    exact ⟨u, hu, hdenotes, hid⟩

variable {invoke : Invocation} {a : Setting} {e : Evaluation} {frame : Frame} {op : Token}
  {more : List Token}

/-- An operand in front of an operator is evaluated by what it stands for. -/
lemma plainRule_of_operator (hop : op.kind.isArithmetic = true) (hrest : frame.rest = op :: more) :
    plainRule invoke a e t true frame =
      (orFail (substitute frame.scope t) >>= fun u => dispatch invoke a e u true) frame := by
  have hequal : op.kind ≠ .equal := by
    intro h
    rw [h] at hop
    cases hop
  show (if t.kind = .identifier ∧ true = true ∧
        (frame.rest.headD (.atEnd a.endLine)).kind = .equal then assignment a e t
      else scope >>= fun own => orFail (substitute own t) >>= fun token =>
        dispatch invoke a e token true) frame = _
  rw [hrest, if_neg fun h => hequal h.2.2]
  rfl

lemma isComparison_of_isArithmetic {kind : TokenKind} (h : kind.isArithmetic = true) :
    kind.isComparison = false ∧ (kind == .dot) = false := by
  unfold TokenKind.isArithmetic TokenKind.arithmetic? at h
  split at h
  case h_5 => cases h
  all_goals exact ⟨rfl, rfl⟩

lemma dispatch_of_denotes (hu : own.Denotes u (some l)) (hid : u.kind ≠ .identifier) :
    dispatch invoke a e u true =
      match l.type with
      | .int | .flt => number a e u true
      | .str => string a e u true
      | .bool => truth a e u true := by
  generalize hw : some l = w at hu
  cases hu with
  | @literal type hkind =>
    cases hw
    cases type <;> simp only [dispatch, hkind]
  | yes hkind => cases hw; simp only [dispatch, hkind, Literal.bool]
  | no hkind => cases hw; simp only [dispatch, hkind, Literal.bool]
  | name hkind => exact absurd hkind hid

variable (hop : op.kind.isArithmetic = true) (hrest : frame.rest = op :: more)
  (hu : frame.scope.Denotes u (some l)) (hid : u.kind ≠ .identifier)
include hop hrest hu hid

/-- **A truth value in front of an operator is a statement of its own**, which leaves the operator
unread. -/
lemma dispatch_of_truth (htype : l.type = .bool) :
    dispatch invoke a e u true frame = .ok (some l) frame := by
  have hliteral : literal u frame = .ok (some l) frame := by
    obtain ⟨m, hm, hofToken⟩ := hu.ofToken hid
    cases hm
    unfold literal
    rw [hofToken]
    rfl
  rw [dispatch_of_denotes hu hid, htype]
  show truth a e u true frame = _
  unfold truth
  rw [bind_of_ok (peek_of_rest hrest)]
  simpa [(isComparison_of_isArithmetic hop).1] using hliteral

/-- A text in front of an operator is refused. -/
lemma dispatch_of_text (htype : l.type = .str) :
    dispatch invoke a e u true frame =
      .error (.failure (.error (.on u.line (.unsupportedOperationType (.str u.kind.label)))))
        frame := by
  rw [dispatch_of_denotes hu hid, htype]
  show string a e u true frame = _
  unfold string
  rw [bind_of_ok (peek_of_rest hrest)]
  simp only [(isComparison_of_isArithmetic hop).2, hop, Bool.and_false, Bool.false_eq_true,
    if_false, if_true]
  rfl

lemma dispatch_of_number (htype : l.type = .int ∨ l.type = .flt) :
    dispatch invoke a e u true frame = operation u frame := by
  have hnumber : dispatch invoke a e u true = number a e u true := by
    rw [dispatch_of_denotes hu hid]
    rcases htype with htype | htype <;> rw [htype]
  rw [hnumber]
  unfold number
  rw [bind_of_ok (peek_of_rest hrest)]
  simp [hop]

end First

/-! ### Chains with an operand that is no number -/

/-- All operands of the chain stand for something, and one of them for a text or a truth value. -/
structure OperandChain.Mixed (own : Scope) (c : OperandChain) : Prop where
  denotes : ∀ t ∈ c.operands, ∃ v, own.Denotes t v
  nonNumeric : ∃ t ∈ c.operands, ∃ l : Literal, own.Denotes t (some l) ∧
    (l.type = .str ∨ l.type = .bool)

section Chains

variable {own : Scope} {first u stop : Token} {op : Operator} {others : OperandChain}
  {rest : List Token} {l : Literal} {frame : Frame}

/-- The tokens of a chain are neither parentheses nor terminators. -/
lemma OperandChain.kind_of_mem {c : OperandChain} (h : ∀ t ∈ c.operands, ∃ v, own.Denotes t v)
    {t : Token} (ht : t ∈ c.tokens) :
    isOpening t.kind = false ∧ t.kind.isTerminator = false := by
  rcases mem_tokens ht with ht | ht
  · obtain ⟨v, hv⟩ := h t ht
    have hmark := isMark_of_isOperand hv.isOperand
    refine ⟨Bool.eq_false_iff.2 fun hopen => ?_, isTerminator_of_isOperand hv.isOperand⟩
    rw [isMark_of_isOpening hopen] at hmark
    cases hmark
  · exact ⟨(only_of_isArithmetic ht).1, (only_of_isArithmetic ht).2.2⟩

/-- With another token for what the first operand stands for, the chain is as mixed as before. -/
lemma OperandChain.Mixed.replace (h : Mixed own (cons first op others))
    (hfirst : own.Denotes first (some l)) (hu : own.Denotes u (some l)) :
    Mixed own (cons u op others) := by
  obtain ⟨hdenotes, t, ht, m, hm, htype⟩ := h
  refine ⟨fun t ht => ?_, ?_⟩
  · rcases List.mem_cons.1 ht with rfl | ht
    · exact ⟨_, hu⟩
    · exact hdenotes t (List.mem_cons_of_mem _ ht)
  · rcases List.mem_cons.1 ht with rfl | ht
    · cases hm.unique hfirst
      exact ⟨u, List.mem_cons_self, l, hu, htype⟩
    · exact ⟨t, List.mem_cons_of_mem _ ht, m, hm, htype⟩

/-- **An operation on a mixed chain fails.** -/
lemma operation_of_mixed (hmixed : OperandChain.Mixed frame.scope (.cons u op others))
    (harguments : frame.inArguments = false)
    (hrest : frame.rest = op.1 :: (others.tokens ++ stop :: rest))
    (hstop : stop.kind.isTerminator = true) :
    ∃ f last, operation u frame = .error (.failure f) last := by
  have htokens := OperandChain.tokens_cons u op others
  have hkinds (t : Token) (ht : t ∈ u :: op.1 :: others.tokens) :
      isOpening t.kind = false ∧ t.kind.isTerminator = false :=
    OperandChain.kind_of_mem hmixed.denotes (by rw [htokens]; exact ht)
  -- no operand and no operator ends a statement, so the whole chain is collected
  have hcollect : collect u frame = .ok (u :: op.1 :: others.tokens)
      { frame with rest := stop :: rest } := by
    have hfollow : ∀ t ∈ (stop :: rest).head?, t.kind.isTerminator = true := by simp [hstop]
    unfold collect
    dsimp only
    rw [harguments, hrest, ← List.cons_append, expressionTokens_of_terminator _
      (fun t ht => (hkinds t (List.mem_cons_of_mem _ ht)).2) hfollow]
  have hclear : Clear isOpening
      ((u :: op.1 :: others.tokens).map Item.token) := by
    intro i hi
    obtain ⟨t, ht, rfl⟩ := List.mem_map.1 hi
    exact (hkinds t ht).1
  obtain ⟨t, ht, m, hm, htype⟩ := hmixed.nonNumeric
  have hmem : Item.token t ∈
      (u :: op.1 :: others.tokens).map Item.token := by
    rw [← htokens]
    exact List.mem_map_of_mem (OperandChain.mem_tokens_of_operand ht)
  obtain ⟨taken, left, groupLine, htaken, hoperation⟩ := operation_of_collect u frame
  rw [hcollect] at htaken
  cases htaken
  obtain ⟨f, last, hf⟩ := operate_of_not_number groupLine u.line op.2 hclear hmem hm.meaning_eq
    (not_isNumber_of_type htype) frame.console
  rw [hoperation, onConsole_eq]
  exact ⟨f, _, congrArg (onState _) hf⟩

variable (invoke : Invocation) (a : Setting) (e : Evaluation)

/-- **A mixed chain fails unless it starts with a truth value.** -/
lemma plainRule_of_mixed (frame : Frame)
    (hmixed : OperandChain.Mixed frame.scope (.cons first op others))
    (hfirst : ¬frame.scope.IsTruth first) (harguments : frame.inArguments = false)
    (hrest : frame.rest = op.1 :: (others.tokens ++ stop :: rest))
    (hstop : stop.kind.isTerminator = true) :
    ∃ f last, plainRule invoke a e first true frame = .error (.failure f) last := by
  obtain ⟨v, hv⟩ := hmixed.denotes first List.mem_cons_self
  rw [plainRule_of_operator op.2 hrest]
  rcases substitute_of_denotes hv with ⟨f, hf⟩ | ⟨u, l, rfl, hsub, hu, hid⟩
  · rw [hf]
    exact ⟨f, frame, rfl⟩
  rw [hsub]
  show ∃ f last, dispatch invoke a e u true frame = .error (.failure f) last
  cases htype : l.type with
  | bool => exact absurd ⟨l, hv, htype⟩ hfirst
  | str => exact ⟨_, _, dispatch_of_text op.2 hrest hu hid htype⟩
  | int =>
    rw [dispatch_of_number op.2 hrest hu hid (.inl htype)]
    exact operation_of_mixed (hmixed.replace hv hu) harguments hrest hstop
  | flt =>
    rw [dispatch_of_number op.2 hrest hu hid (.inr htype)]
    exact operation_of_mixed (hmixed.replace hv hu) harguments hrest hstop

lemma plainRule_of_truth (frame : Frame) {op : Token} (hop : op.kind.isArithmetic = true)
    (hrest : frame.rest = op :: rest) (hfirst : frame.scope.Denotes first (some l))
    (htype : l.type = .bool) : plainRule invoke a e first true frame = .ok (some l) frame := by
  obtain ⟨u, hsub, hu, hid⟩ := substitute_of_truth hfirst htype
  rw [plainRule_of_operator hop hrest, hsub]
  exact dispatch_of_truth hop hrest hu hid htype

/-- **An operator at the start of a statement is passed over**, if its lexeme is a text. -/
lemma plainRule_of_leading (frame : Frame) {op : Token} (hop : op.kind.isArithmetic = true) :
    (∃ s c, op.lexeme = .str s ∧
      plainRule invoke a e op true frame = .ok none { frame with console := c }) ∨
    ((¬∃ s, op.lexeme = .str s) ∧
      plainRule invoke a e op true frame = .error (.failure (.fault .notText)) frame) := by
  have hskip : op.kind ≠ .identifier ∧ dispatch invoke a e op true = skip op := by
    unfold TokenKind.isArithmetic TokenKind.arithmetic? at hop
    split at hop
    case h_5 => cases hop
    all_goals
      rename_i hkind
      simp [dispatch, reserved, hkind]
  rw [plainRule_of_kind hskip.1, hskip.2]
  unfold skip
  cases op.lexeme with
  | str s =>
    refine .inl ⟨s, ?_⟩
    dsimp only
    split
    · exact ⟨_, rfl, rfl⟩
    · exact ⟨frame.console, rfl, rfl⟩
  | null | bool b | int n | flt y | arr xs | obj fields => exact .inr ⟨by simp, rfl⟩

end Chains

/-! ### Programs -/

namespace Evaluator

def RunCompletes (depth : Nat) (tokens : List Token) (own : Scope) : Prop :=
  ∃ v last, runProgram depth tokens own = .ok v last

def RunFails (depth : Nat) (tokens : List Token) (own : Scope) : Prop :=
  ∃ f last, runProgram depth tokens own = .error (.failure f) last

end Evaluator

section Programs

variable {depth : Nat} {own : Scope} {first : Token} {rest : List Token}

lemma Evaluator.RunFails.not_completes {tokens : List Token} (h : RunFails depth tokens own) :
    ¬RunCompletes depth tokens own := by
  rintro ⟨v, last, hv⟩
  obtain ⟨f, last', hf⟩ := h
  rw [hf] at hv
  cases hv

lemma runProgram_cons (depth : Nat) (own : Scope) (rest : List Token)
    (hfirst : first.kind.isTerminator = false) :
    runProgram depth (first :: rest) own =
      settled ((evaluate (invoke depth) (Discipline.programSetting (first :: rest)) first true >>=
        statements (invoke depth) (Discipline.programSetting (first :: rest)) rest.length)
          (frameOf rest own .empty)) := by
  refine (run_eq _ _ _).trans ?_
  show settled (statements _ _ (rest.length + 1) none _) = _
  rw [statements_cons _ _ _ rfl, if_neg (by simp [hfirst])]
  rfl

/-- **The rest of a program runs as it does alone**, on top of what has been written. -/
lemma statements_of_rest {setting : Setting} {n : Nat} (v : Value) (c : Console)
    (hsetting : setting = Discipline.programSetting rest) (hn : rest.length ≤ n)
    (hsome : hasStatement rest = true) :
    settled (statements (invoke depth) setting n v ⟨rest, 0, false, own, c⟩) =
      onState (Frame.under c) (runProgram depth rest own) := by
  subst hsetting
  have hframe : (frameOf rest own .empty).under c = ⟨rest, 0, false, own, c⟩ := by
    simp [Frame.under, frameOf]
  rw [statements_latest _ hn hsome v none, statements_budget hn (Nat.le_refl _)]
  show _ = onState (Frame.under c) (run (invoke depth) _ (frameOf rest own .empty))
  rw [← run_under, hframe, run_eq]

lemma programSetting_append (before : List Token) (h : rest ≠ []) :
    Discipline.programSetting (before ++ rest) = Discipline.programSetting rest := by
  have hline : endLine (before ++ rest) = endLine rest := by
    obtain ⟨t, ht⟩ := Option.ne_none_iff_exists'.1 (mt List.getLast?_eq_none_iff.1 h)
    simp [endLine, List.getLast?_append, ht]
  simp [Discipline.programSetting, hline]

/-- **From an operator on, a program completes** if the lexeme of the operator is a text and what is
after it completes. -/
lemma statements_of_leading (depth : Nat) (own : Scope) (v : Value) (c : Console)
    {setting : Setting} {n : Nat} {op : Token} (hop : op.kind.isArithmetic = true)
    (hsetting : setting = Discipline.programSetting rest)
    (hn : (op :: rest).length ≤ n) (hsome : hasStatement rest = true) :
    (∃ w last, settled (statements (invoke depth) setting n v ⟨op :: rest, 0, false, own, c⟩) =
        .ok w last) ↔
      (∃ s, op.lexeme = .str s) ∧ RunCompletes depth rest own := by
  obtain ⟨n, rfl⟩ : ∃ m, n = m + 1 := ⟨n - 1, by rw [List.length_cons] at hn; omega⟩
  have hterminator : ¬op.kind.isTerminator = true := by
    rw [(only_of_isArithmetic hop).2.2]
    exact Bool.false_ne_true
  rw [statements_cons _ _ _ rfl, if_neg hterminator]
  rcases plainRule_of_leading (invoke depth) setting
      (expression (invoke depth) setting (rest.length + 1)) ⟨rest, 0, false, own, c⟩ hop with
    ⟨s, c', hs, hrule⟩ | ⟨hs, hrule⟩
  · have heval : evaluate (invoke depth) setting op true ⟨rest, 0, false, own, c⟩ =
        .ok none ⟨rest, 0, false, own, c'⟩ := hrule
    rw [bind_of_ok heval,
      statements_of_rest none c' hsetting (by simpa using hn) hsome]
    constructor
    · rintro ⟨w, last, h⟩
      refine ⟨⟨s, hs⟩, ?_⟩
      cases hr : runProgram depth rest own with
      | ok w' last' => exact ⟨w', last', hr⟩
      | error stop last' =>
        rw [hr] at h
        cases h
    · rintro ⟨-, w, last, h⟩
      rw [h]
      exact ⟨w, _, rfl⟩
  · have heval : evaluate (invoke depth) setting op true ⟨rest, 0, false, own, c⟩ =
        .error (.failure (.fault .notText)) ⟨rest, 0, false, own, c⟩ := hrule
    rw [bind_of_error heval]
    constructor
    · rintro ⟨w, last, h⟩
      cases h
    · exact fun h => absurd h.1 hs

/-- The end of a declaration: the variable is added to the scope, and a note on it is made. -/
def concludeDeclaration (typeToken name : Token) (v : Value) : EvalM Value := do
  let (x, updated) ← orFail ((← scope).declare name typeToken.kind v)
  setScope updated
  onConsole <| note 2 do return "declare " ++ (← x.describe)
  return none

/-- **A declaration** evaluates what is after its equals sign. -/
lemma declaration_of_equal {a : Setting} {e : Evaluation} {frame : Frame}
    {typeToken name equal : Token} (hname : name.kind = .identifier) (hequal : equal.kind = .equal)
    (hrest : frame.rest = name :: equal :: first :: rest) :
    declaration a e typeToken frame =
      (e first true >>= concludeDeclaration typeToken name) { frame with rest := rest } := by
  unfold declaration
  rw [bind_of_ok (advance_of_rest hrest), bind_of_ok (ensure_of hname),
    bind_of_ok (peek_of_rest rfl), if_neg (by rw [hequal]; exact nofun)]
  unfold variableDeclaration
  rw [bind_of_ok (advance_of_rest rfl), bind_of_ok (ensure_of hequal),
    bind_of_ok (advance_of_rest rfl)]
  rfl

lemma evaluate_of_typeName {a : Setting} {frame : Frame} {typeToken name equal : Token} {type : Ty}
    (hkind : typeToken.kind = .typeName type) (hname : name.kind = .identifier)
    (hequal : equal.kind = .equal) (hrest : frame.rest = name :: equal :: first :: rest) :
    evaluate (invoke depth) a typeToken true frame =
      (plainRule (invoke depth) a (expression (invoke depth) a frame.rest.length) first true >>=
        concludeDeclaration typeToken name) { frame with rest := rest } := by
  show plainRule _ a (expression _ a (frame.rest.length + 1)) typeToken true frame = _
  have hdispatch (e : Evaluation) :
      dispatch (invoke depth) a e typeToken true = declaration a e typeToken := by
    simp only [dispatch, hkind]
  rw [plainRule_of_kind (by rw [hkind]; exact nofun), hdispatch,
    declaration_of_equal hname hequal hrest]
  rfl

/-- A truth value goes into a `bool` only. -/
lemma declare_of_truth {name : Token} {type : Ty} {l : Literal} {x : Variable} {updated : Scope}
    (htype : l.type = .bool)
    (h : own.declare name (.typeName type) (some l) = .ok (x, updated)) :
    type = .bool ∧ x.value = some l := by
  obtain ⟨-, -, h⟩ := ok_of_bind h
  obtain ⟨m, hm, h⟩ := ok_of_bind h
  obtain ⟨s, -, h⟩ := ok_of_bind h
  cases h
  have hfit : Ty.fit type (some l) = .ok m := by
    unfold Scope.fitVariable at hm
    split at hm
    · rename_i hfit
      cases hm
      exact hfit
    · cases hm
    · cases hm
  unfold Ty.fit at hfit
  dsimp only at hfit
  split at hfit
  · rename_i heq
    cases hfit
    exact ⟨heq.symm.trans htype, rfl⟩
  · -- the only other type that fits is `int`, into a `flt`
    split at hfit
    · rename_i hint
      rw [htype] at hint
      cases hint.2
    · cases hfit

/-- **A truth value is declared** if the scope takes it. -/
lemma concludeDeclaration_of_truth (name : Token) (frame : Frame) {typeToken : Token} {type : Ty}
    {l : Literal} (hkind : typeToken.kind = .typeName type) (htype : l.type = .bool) :
    (∃ x updated c, frame.scope.declare name (.typeName type) (some l) = .ok (x, updated) ∧
      concludeDeclaration typeToken name (some l) frame =
        .ok none { frame with scope := updated, console := c }) ∨
    ∃ f, frame.scope.declare name (.typeName type) (some l) = .error f ∧
      concludeDeclaration typeToken name (some l) frame = .error (.failure f) frame := by
  cases hdeclare : frame.scope.declare name (.typeName type) (some l) with
  | error f =>
    refine .inr ⟨f, rfl, ?_⟩
    show (orFail (frame.scope.declare name typeToken.kind (some l)) >>= _) frame = _
    rw [hkind, hdeclare]
    rfl
  | ok p =>
    obtain ⟨x, updated⟩ := p
    obtain ⟨-, hvalue⟩ := declare_of_truth htype hdeclare
    have hdescribe : ∃ text, x.describe = .ok text := by
      obtain ⟨type, datum⟩ := l
      obtain rfl : type = .bool := htype
      unfold Variable.describe
      rw [hvalue]
      exact ⟨_, rfl⟩
    obtain ⟨text, htext⟩ := hdescribe
    have hconclude : concludeDeclaration typeToken name (some l) frame =
        (onConsole (note 2 do return "declare " ++ (← x.describe)) >>= fun _ => pure none)
          { frame with scope := updated } := by
      show (orFail (frame.scope.declare name typeToken.kind (some l)) >>= _) frame = _
      rw [hkind, hdeclare]
      rfl
    rw [htext] at hconclude
    exact .inl ⟨x, updated, _, rfl, hconclude⟩

section Mixed

variable (depth) {op : Operator} {others : OperandChain} {stop : Token}
  (hmixed : OperandChain.Mixed own (.cons first op others))
include hmixed

lemma OperandChain.Mixed.isTerminator_first : first.kind.isTerminator = false := by
  obtain ⟨v, hv⟩ := hmixed.denotes first List.mem_cons_self
  exact isTerminator_of_isOperand hv.isOperand

lemma OperandChain.Mixed.hasStatement_others (rest : List Token) :
    hasStatement (others.tokens ++ rest) = true := by
  obtain ⟨v, hv⟩ := hmixed.denotes others.first (by simp [operands, cons])
  refine List.any_eq_true.2 ⟨others.first, List.mem_append_left _
    (mem_tokens_of_operand List.mem_cons_self), ?_⟩
  simp [isTerminator_of_isOperand hv.isOperand]

/-- **A program with a mixed chain completes** exactly if a truth value comes first and what is
after its operator completes. -/
lemma completes_of_mixed (hstop : stop.kind.isTerminator = true) (rest : List Token) :
    (¬own.IsTruth first →
      RunFails depth (first :: op.1 :: (others.tokens ++ stop :: rest)) own) ∧
    (own.IsTruth first →
      (RunCompletes depth (first :: op.1 :: (others.tokens ++ stop :: rest)) own ↔
        (∃ s, op.1.lexeme = .str s) ∧ RunCompletes depth (others.tokens ++ stop :: rest) own)) := by
  let a := Discipline.programSetting (first :: op.1 :: (others.tokens ++ stop :: rest))
  let frame := frameOf (op.1 :: (others.tokens ++ stop :: rest)) own .empty
  have hrun := runProgram_cons depth own (op.1 :: (others.tokens ++ stop :: rest))
    hmixed.isTerminator_first
  constructor
  · intro hfirst
    obtain ⟨f, last, hf⟩ := plainRule_of_mixed (invoke depth) a
      (expression (invoke depth) a (frame.rest.length + 1)) frame hmixed hfirst rfl rfl hstop
    have heval : evaluate (invoke depth) a first true frame = .error (.failure f) last := hf
    rw [bind_of_error heval] at hrun
    exact ⟨f, last, hrun⟩
  · -- a truth value is a statement of its own, and its operator starts the next one
    rintro ⟨l, hl, htype⟩
    have hrule := plainRule_of_truth (invoke depth) a
      (expression (invoke depth) a (frame.rest.length + 1)) frame op.2 rfl hl htype
    have heval : evaluate (invoke depth) a first true frame = .ok (some l) frame := hrule
    rw [bind_of_ok heval] at hrun
    unfold RunCompletes
    rw [hrun]
    have hsetting : a = Discipline.programSetting (others.tokens ++ stop :: rest) :=
      programSetting_append [first, op.1] (by simp)
    exact statements_of_leading depth own (some l) .empty op.2 hsetting (Nat.le_refl _)
      (hmixed.hasStatement_others _)

/-- **A declaration with a mixed chain completes** exactly if a truth value comes first, the scope
takes it, and what is after its operator completes in the new scope. -/
lemma completes_declaration_of_mixed {typeToken name equal : Token} {type : Ty}
    (hkind : typeToken.kind = .typeName type) (hname : name.kind = .identifier)
    (hequal : equal.kind = .equal) (hstop : stop.kind.isTerminator = true) (rest : List Token) :
    let tail := others.tokens ++ stop :: rest
    let program := typeToken :: name :: equal :: first :: op.1 :: tail
    (¬own.IsTruth first → RunFails depth program own) ∧
    (∀ l : Literal, own.Denotes first (some l) → l.type = .bool →
      (RunCompletes depth program own ↔
        ∃ x updated, own.declare name (.typeName type) (some l) = .ok (x, updated) ∧
          (∃ s, op.1.lexeme = .str s) ∧ RunCompletes depth tail updated)) := by
  intro tail program
  let a := Discipline.programSetting program
  let frame := frameOf (name :: equal :: first :: op.1 :: tail) own .empty
  let inner := frameOf (op.1 :: tail) own .empty
  let e := expression (invoke depth) a frame.rest.length
  have hrun : runProgram depth program own =
      settled ((evaluate (invoke depth) a typeToken true >>=
        statements (invoke depth) a frame.rest.length) frame) :=
    runProgram_cons depth own _ (by rw [hkind]; rfl)
  have heval : evaluate (invoke depth) a typeToken true frame =
      (plainRule (invoke depth) a e first true >>= concludeDeclaration typeToken name) inner :=
    evaluate_of_typeName hkind hname hequal rfl
  constructor
  · intro hfirst
    obtain ⟨f, last, hf⟩ :=
      plainRule_of_mixed (invoke depth) a e inner hmixed hfirst rfl rfl hstop
    rw [bind_of_error hf] at heval
    rw [bind_of_error heval] at hrun
    exact ⟨f, last, hrun⟩
  · intro l hl htype
    have hrule := plainRule_of_truth (invoke depth) a e inner op.2 rfl hl htype
    rw [bind_of_ok hrule] at heval
    unfold RunCompletes
    rw [hrun]
    rcases concludeDeclaration_of_truth name inner hkind htype with
      ⟨x, updated, c, hdeclare, hconclude⟩ | ⟨f, hdeclare, hconclude⟩
    · rw [hconclude] at heval
      have hsetting : a = Discipline.programSetting tail :=
        programSetting_append [typeToken, name, equal, first, op.1] (by simp)
      have hleading := statements_of_leading depth updated none c op.2 hsetting
        (n := frame.rest.length) (by simp [frame, frameOf]) (hmixed.hasStatement_others _)
      rw [bind_of_ok heval]
      refine hleading.trans ⟨fun h => ⟨x, updated, hdeclare, h⟩, ?_⟩
      rintro ⟨x', updated', hdeclare', h⟩
      cases hdeclare.symm.trans hdeclare'
      exact h
    · rw [hconclude] at heval
      rw [bind_of_error heval]
      refine ⟨?_, ?_⟩
      · rintro ⟨w, last, h⟩
        cases h
      · rintro ⟨x, updated, hdeclare', -⟩
        cases hdeclare.symm.trans hdeclare'

end Mixed

end Programs

/-- **Arithmetic on texts and truth values.** Take a chain of two or more operands in any scope,
with a text or a truth value among them, and let a terminator follow. As a statement and as the
value of a declaration of any type, the chain fails, unless its first operand is a truth value. In
that case the program completes exactly if what is after the first operator does; a declaration must
be one of a `bool` as well, which the scope has to take, and the rest runs in the scope with the new
variable. An operator is passed over only if its lexeme is a text, as it is in tokens from a text. -/
theorem runProgram_nonNumeric {own : Scope} {first : Token} {op : Operator} {others : OperandChain}
    (hmixed : OperandChain.Mixed own (.cons first op others)) {stop : Token}
    (hstop : stop.kind.isTerminator = true) (depth : Nat) (rest : List Token) :
    let program := (OperandChain.cons first op others).tokens ++ stop :: rest
    let tail := others.tokens ++ stop :: rest
    (¬own.IsTruth first → RunFails depth program own) ∧
    (RunCompletes depth program own ↔
      own.IsTruth first ∧ (∃ s, op.1.lexeme = .str s) ∧ RunCompletes depth tail own) ∧
    ∀ (typeToken name equal : Token) (type : Ty), typeToken.kind = .typeName type →
      name.kind = .identifier → equal.kind = .equal →
      let declaration := typeToken :: name :: equal :: program
      (¬own.IsTruth first → RunFails depth declaration own) ∧
      (RunCompletes depth declaration own ↔
        type = .bool ∧ ∃ l x updated, own.Denotes first (some l) ∧ l.type = .bool ∧
          own.declare name (.typeName .bool) (some l) = .ok (x, updated) ∧
          (∃ s, op.1.lexeme = .str s) ∧ RunCompletes depth tail updated) := by
  intro program tail
  have hprogram : program = first :: op.1 :: tail := by
    simp [program, tail, OperandChain.tokens_cons]
  rw [hprogram]
  obtain ⟨hfails, htruth⟩ := completes_of_mixed depth hmixed hstop rest
  refine ⟨hfails, ⟨fun h => ?_, fun ⟨hfirst, h⟩ => (htruth hfirst).2 h⟩, ?_⟩
  · have hfirst : own.IsTruth first := not_imp_comm.1 hfails fun hf => hf.not_completes h
    exact ⟨hfirst, (htruth hfirst).1 h⟩
  intro typeToken name equal type hkind hname hequal declaration
  obtain ⟨hfails, htruth⟩ :=
    completes_declaration_of_mixed depth hmixed hkind hname hequal hstop rest
  refine ⟨hfails, fun h => ?_, ?_⟩
  · obtain ⟨l, hl, htype⟩ : own.IsTruth first := not_imp_comm.1 hfails fun hf => hf.not_completes h
    obtain ⟨x, updated, hdeclare, htext, htail⟩ := (htruth l hl htype).1 h
    obtain ⟨rfl, -⟩ := declare_of_truth htype hdeclare
    exact ⟨rfl, l, x, updated, hl, htype, hdeclare, htext, htail⟩
  · rintro ⟨rfl, l, x, updated, hl, htype, hdeclare, htext, htail⟩
    exact (htruth l hl htype).2 ⟨x, updated, hdeclare, htext, htail⟩

def numberAndText : Scope :=
  ⟨[(.str "n", .var ⟨plainToken .identifier "n", some (.int 3), .typeName .int⟩),
    (.str "s", .var ⟨plainToken .identifier "s", some (.str "a"), .typeName .str⟩)]⟩

/-- The chain `n * 2 - s` fails, also as the value of an `int`. -/
theorem runProgram_nonNumeric_text :
    let n := plainToken .identifier "n"
    let chain : OperandChain := .cons n ⟨plainToken .star "*", rfl⟩
      (.cons ⟨.literal .int, .str "2", .int 2, 1⟩ ⟨plainToken .minus "-", rfl⟩
        ⟨plainToken .identifier "s", []⟩)
    let declared := [plainToken (.typeName .int) "int", plainToken .identifier "x",
      plainToken .equal "="]
    OperandChain.Mixed numberAndText chain ∧ ¬numberAndText.IsTruth n ∧
      RunFails 0 (chain.tokens ++ [.semicolon 1]) numberAndText ∧
      RunFails 0 (declared ++ (chain.tokens ++ [.semicolon 1])) numberAndText := by
  intro n chain declared
  have hn : numberAndText.Denotes n (some (.int 3)) :=
    .name (v := ⟨n, some (.int 3), .typeName .int⟩) rfl rfl
  have hs : numberAndText.Denotes (plainToken .identifier "s") (some (.str "a")) :=
    .name (v := ⟨plainToken .identifier "s", some (.str "a"), .typeName .str⟩) rfl rfl
  have hmixed : OperandChain.Mixed numberAndText chain := by
    refine ⟨List.forall_mem_cons.2 ⟨⟨_, hn⟩, List.forall_mem_cons.2 ⟨⟨_, .literal rfl⟩,
      List.forall_mem_cons.2 ⟨⟨_, hs⟩, nofun⟩⟩⟩, _, ?_, _, hs, .inl rfl⟩
    simp [chain, OperandChain.operands, OperandChain.cons]
  have hfirst : ¬numberAndText.IsTruth n := by
    rintro ⟨l, hl, htype⟩
    cases hl.unique hn
    cases htype
  have hstop : (Token.semicolon 1).kind.isTerminator = true := rfl
  obtain ⟨hprogram, -, hdeclaration⟩ := runProgram_nonNumeric hmixed hstop 0 []
  exact ⟨hmixed, hfirst, hprogram hfirst, (hdeclaration _ _ _ .int rfl rfl rfl).1 hfirst⟩

/-- In `true + 1;` and in `bool x = true + 1;` a truth value is an operand, and yet both come to the
value of the statement `1;` after the operator. -/
theorem runProgram_nonNumeric_truth :
    let chain : OperandChain := .cons (plainToken (.keyword .trueWord) "true")
      ⟨plainToken .plus "+", rfl⟩ ⟨⟨.literal .int, .str "1", .int 1, 1⟩, []⟩
    let declared := [plainToken (.typeName .bool) "bool", plainToken .identifier "x",
      plainToken .equal "="]
    OperandChain.Mixed .empty chain ∧
      seen (runProgram 0 (chain.tokens ++ [.semicolon 1]) .empty) = (.ok (some (.int 1)), []) ∧
      seen (runProgram 0 (declared ++ chain.tokens ++ [.semicolon 1]) .empty) =
        (.ok (some (.int 1)), []) := by
  intro chain declared
  refine ⟨⟨List.forall_mem_cons.2 ⟨⟨_, .yes rfl⟩, List.forall_mem_cons.2
    ⟨⟨_, .literal rfl⟩, nofun⟩⟩, _, List.mem_cons_self, .bool true, .yes rfl, .inr rfl⟩, ?_, ?_⟩
  · decide +kernel
  · decide +kernel

end Hive
