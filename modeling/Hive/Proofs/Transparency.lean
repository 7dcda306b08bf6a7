import Hive.Proofs.Printing
import Hive.Proofs.Relabeling

/-!
Variables are transparent. In a calculation, which has no statements but values, names, operators
and parentheses, it makes no difference whether a variable is named or its value stands in its
place. The name may be the first token of an expression, an operand of arithmetic or of a
concatenation, or what is compared; and the calculation may be wrong in any way, as it is wrong in
the same way then.
-/

namespace Hive

open Evaluator

/-- Whether tokens of this kind belong to calculations: values, identifiers, operators, parentheses
and terminators. -/
def TokenKind.isCalculation (kind : TokenKind) : Bool :=
  match kind with
  | .literal _ | .keyword .trueWord | .keyword .falseWord | .identifier | .dot | .leftParen
  | .rightParen => true
  | _ => kind.isArithmetic || kind.isComparison || kind.isTerminator

/-- **A token for a token**: the same, or for an identifier the token of its variable's value. -/
inductive Scope.Replaces (s : Scope) : Token → Token → Prop where
  | same (t : Token) : s.Replaces t t
  | value {t u : Token} {v : Variable} {l : Literal} (hid : t.kind = .identifier)
    (hv : s.variableAt t = .ok v) (hl : v.value = some l) (hu : l.toToken t.line = .ok u) :
    s.Replaces t u

/-- The token with the value of its variable in its place, wherever there is one. -/
def Scope.fill (s : Scope) (t : Token) : Token := (substitute s t).toOption.getD t

namespace Transparency

variable {s : Scope}

/-! ### Tokens -/

lemma substitute_of_kind {t : Token} (h : t.kind ≠ .identifier) : substitute s t = .ok t := if_neg h

lemma substitute_value {t : Token} {v : Variable} {l : Literal} (hid : t.kind = .identifier)
    (hv : s.variableAt t = .ok v) (hl : v.value = some l) :
    substitute s t = Failure.ofFault (l.toToken t.line) := by
  unfold substitute
  rw [if_pos hid, hv]
  simp only [bind, Except.bind, hl]

lemma toToken_spec {l : Literal} {line : Int} {u : Token} (h : l.toToken line = .ok u) :
    u.kind = .literal l.type ∧ u.literal = l.datum ∧ u.line = line := by
  obtain ⟨text, -, h⟩ := ok_of_bind h
  obtain rfl := Except.ok.inj h
  exact ⟨rfl, rfl, rfl⟩

/-- An expression never starts with an identifier that is left there. -/
lemma replaces_of_substitute {t u : Token} (h : substitute s t = .ok u) :
    s.Replaces t u ∧ u.kind ≠ .identifier := by
  by_cases hid : t.kind = .identifier
  · unfold substitute at h
    rw [if_pos hid] at h
    obtain ⟨v, hv, h⟩ := ok_of_bind h
    split at h
    · rename_i l hl
      refine ⟨.value hid hv hl (ofFault_eq_ok h), ?_⟩
      rw [(toToken_spec (ofFault_eq_ok h)).1]
      exact nofun
    · cases h
  · rw [substitute_of_kind hid] at h
    cases h
    exact ⟨.same t, hid⟩

/-- After a replacement there is as much to replace as before. -/
lemma substitute_of_replaces {t u : Token} (h : s.Replaces t u) :
    substitute s u = substitute s t := by
  cases h with
  | same => rfl
  | @value _ v l hid hv hl hu =>
    obtain ⟨hkind, -, -⟩ := toToken_spec hu
    rw [substitute_value hid hv hl, hu]
    exact substitute_of_kind (by rw [hkind]; nofun)

lemma replaces_fill (s : Scope) (t : Token) : s.Replaces t (s.fill t) := by
  unfold Scope.fill
  cases h : substitute s t with
  | ok u => exact (replaces_of_substitute h).1
  | error f => exact .same t

/-- All that can be replaced is the same before and after some of it is replaced. -/
lemma fill_of_replaces {t u : Token} (h : s.Replaces t u) : s.fill u = s.fill t := by
  unfold Scope.fill
  rw [substitute_of_replaces h]
  cases h with
  | same => rfl
  | @value _ v l hid hv hl hu =>
    rw [substitute_value hid hv hl, hu]
    rfl

lemma fill_of_kind {t : Token} (h : t.kind ≠ .identifier) : s.fill t = t := by
  unfold Scope.fill
  rw [substitute_of_kind h]
  rfl

@[simp]
lemma fill_atEnd (line : Int) : s.fill (.atEnd line) = .atEnd line :=
  fill_of_kind fun h => nomatch h

lemma line_fill (t : Token) : (s.fill t).line = t.line := by
  have h := replaces_fill s t
  generalize s.fill t = u at h ⊢
  cases h with
  | same => rfl
  | value hid hv hl hu => exact (toToken_spec hu).2.2

lemma relabels_fill (s : Scope) : Relabels s.fill := by
  intro t
  have h := replaces_fill s t
  generalize s.fill t = u at h ⊢
  cases h with
  | same => exact .inl rfl
  | @value _ v l hid hv hl hu => exact .inr ⟨hid, l.type, (toToken_spec hu).1⟩

lemma isCalculation_of_replaces {t u : Token} (ht : t.kind.isCalculation = true)
    (h : s.Replaces t u) : u.kind.isCalculation = true := by
  cases h with
  | same => exact ht
  | value hid hv hl hu =>
    rw [(toToken_spec hu).1]
    rfl

/-! ### Items -/

lemma resolve_relabel (line : Int) (i : Item) :
    resolve s line (i.relabel s.fill) = resolve s line i := by
  cases i with
  | value v => rfl
  | token t =>
    show resolve s line (.token (s.fill t)) = resolve s line (.token t)
    have h := replaces_fill s t
    generalize s.fill t = u at h ⊢
    cases h with
    | same => rfl
    | @value _ v l hid hv hl hu =>
      obtain ⟨hkind, hliteral, -⟩ := toToken_spec hu
      have hnamed : resolve s line (.token t) = .ok (some l) := by
        rw [resolve_identifier s line hid, hv, ← hl]
        rfl
      have hvalue : resolve s line (.token u) = .ok (some l) := by
        unfold resolve Literal.ofToken
        dsimp only
        rw [hkind, hliteral]
        rfl
      rw [hnamed, hvalue]

lemma finish_relabel (line : Int) (items : List Item) :
    finish s line (items.map (Item.relabel s.fill)) = finish s line items := by
  cases items with
  | nil => rfl
  | cons i more =>
    have hclosing : (more.map (Item.relabel s.fill)).all isClosing = more.all isClosing := by
      rw [List.all_map]
      exact congrArg _ (funext (relabels_fill s).isClosing)
    rw [List.map_cons, finish, finish, hclosing, resolve_relabel]

lemma arithmetic_of_reduction {items before after : List Item} {left right : Item} {op : Token}
    {operator : ArithOp} (h : reduction items = .apply before left op operator right after) :
    op.kind.arithmetic? = some operator := by
  unfold reduction at h
  split at h
  · cases h
  split at h
  · split at h <;> cases h
  split at h
  · unfold reduceOperator at h
    split at h
    · cases h
      assumption
    · cases h
  · cases h

lemma applyOperator_relabel {op : Token} {operator : ArithOp}
    (hop : op.kind.arithmetic? = some operator) (left right : Item) :
    applyOperator s (s.fill op) operator (left.relabel s.fill) (right.relabel s.fill) =
      applyOperator s op operator left right := by
  have hid : op.kind ≠ .identifier := by
    intro h
    rw [h] at hop
    cases hop
  unfold applyOperator
  rw [fill_of_kind hid, resolve_relabel, resolve_relabel]

/-- **Items come to the same value, named or not.** -/
lemma operate_relabel (groupLine line : Int) (items : List Item) :
    operate s groupLine line (items.map (Item.relabel s.fill)) =
      operate s groupLine line items := by
  -- the two reduce in step: a reduction looks at kinds, and only a resolution at the names
  fun_induction operate s groupLine line items with
  | case1 line items h =>
    rw [operate_eq, (relabels_fill s).reduction, h]
    exact congrArg orFail (finish_relabel line items)
  | case2 line items opening h =>
    rw [operate_eq, (relabels_fill s).reduction, h]
    exact congrArg (fail · _) (line_fill opening)
  | case3 line items before inner closing after h ihInner ih =>
    rw [operate_eq, (relabels_fill s).reduction, h]
    rw [List.map_append] at ihInner
    refine congrArg₂ (· >>= ·) ihInner (funext fun v => ?_)
    have hrest := ih v
    rwa [List.map_append, List.map_cons] at hrest
  | case4 line items op h =>
    rw [operate_eq, (relabels_fill s).reduction, h]
    exact congrArg (fail · _) (line_fill op)
  | case5 line items before left op operator right after h ih =>
    rw [operate_eq, (relabels_fill s).reduction, h]
    have happly := applyOperator_relabel (s := s) (arithmetic_of_reduction h) left right
    refine congrArg₂ (· >>= ·) happly (funext fun v => ?_)
    have hrest := ih v
    rwa [List.map_append, List.map_cons] at hrest

/-- **Texts are joined to the same one, named or not.** -/
lemma join_relabel (line : Int) (items : List Item) :
    join s line (items.map (Item.relabel s.fill)) = join s line items := by
  fun_induction join s line items with
  | case1 => rw [List.map_nil, join]
  | case2 i =>
    rw [List.map_cons, List.map_nil, join]
    exact resolve_relabel line i
  | case3 first second more h =>
    rw [List.map_cons, List.map_cons, join_cons_cons, ← List.map_cons, ← List.map_cons,
      (relabels_fill s).firstJoint?, h]
    rfl
  | case4 first second more dot before left right after h ih =>
    rw [List.map_cons, List.map_cons, join_cons_cons, ← List.map_cons, ← List.map_cons,
      (relabels_fill s).firstJoint?, h]
    dsimp only [Option.map_some]
    rw [line_fill, resolve_relabel, resolve_relabel]
    refine congrArg _ (funext fun l => congrArg _ (funext fun r => congrArg _ (funext fun v => ?_)))
    have hrest := ih v
    rwa [List.map_append, List.map_cons] at hrest

/-! ### Calculations -/

/-- Frames in a scope with a calculation left. They are compared with those in which the values of
variables stand in the place of their names. -/
def filling (s : Scope) : Ground Frame where
  holds f := f.scope = s ∧ ∀ t ∈ f.rest, t.kind.isCalculation = true
  under _ f := { f with rest := f.rest.map s.fill }

variable {α β : Type} {a : Setting} {m n : EvalM α}

/-- The second computation does the same where the values stand. -/
abbrev Same (s : Scope) (m n : EvalM α) : Prop :=
  (filling s).Agree (fun _ => True) (fun _ => True) m n

/-- The same from one frame on. -/
abbrev SameAt (s : Scope) (m n : EvalM α) (f : Frame) : Prop :=
  (filling s).AgreeAt (fun _ => True) (fun _ => True) m n f

lemma same_throw (e : Stop) : Same s (throw e : EvalM α) (throw e) := .throw trivial

lemma same_orFail (x : Except Failure α) : Same s (orFail x) (orFail x) := by
  cases x with
  | ok v => exact .pure trivial
  | error f => exact same_throw _

lemma same_orHalt (x : Except Fault α) : Same s (orHalt x) (orHalt x) := by
  cases x with
  | ok v => exact .pure trivial
  | error f => exact same_throw _

lemma same_onConsole (m : ConsoleM α) : Same s (onConsole m) (onConsole m) := by
  intro f hf
  have hunder : ∀ c, onConsole m ((filling s).under c f) =
      onState ((filling s).under c) (onConsole m f) := by
    intro c
    rw [onConsole_eq, onConsole_eq]
    show onState _ (m f.console) = _
    cases m f.console <;> rfl
  refine ⟨fun c => .of_eq (hunder c), ?_⟩
  rw [onConsole_eq]
  cases m f.console <;> exact ⟨hf, trivial⟩

lemma same_scope_bind {k l : Scope → EvalM α} (hk : Same s (k s) (l s)) :
    Same s (scope >>= k) (scope >>= l) := by
  rintro ⟨rest, past, inArguments, own, console⟩ hf
  obtain rfl : own = s := hf.1
  exact hk _ hf

/-- The next token is the one of the first frame, or its value. -/
lemma sameAt_peek_bind {k l : Token → EvalM α} {f : Frame}
    (hk : SameAt s (k (f.rest.headD (.atEnd a.endLine)))
      (l (s.fill (f.rest.headD (.atEnd a.endLine)))) f) :
    SameAt s (peek a >>= k) (peek a >>= l) f := by
  have hnext : (f.rest.map s.fill).headD (.atEnd a.endLine) =
      s.fill (f.rest.headD (.atEnd a.endLine)) := by
    cases f.rest with
    | nil => exact (fill_atEnd a.endLine).symm
    | cons t rest => rfl
  rw [← hnext] at hk
  exact hk

lemma isCalculation_head {f : Frame} (hf : (filling s).holds f) :
    (f.rest.headD (.atEnd a.endLine)).kind.isCalculation = true := by
  cases hrest : f.rest with
  | nil => rfl
  | cons t rest => exact hf.2 t (by simp [hrest])

lemma sameAt_advance_bind {k l : Token → EvalM α} {f : Frame} (hf : (filling s).holds f)
    (hk : Same s (k (f.rest.headD (.atEnd a.endLine)))
      (l (s.fill (f.rest.headD (.atEnd a.endLine))))) :
    SameAt s (advance a >>= k) (advance a >>= l) f := by
  obtain ⟨rest, past, inArguments, own, console⟩ := f
  cases rest with
  | nil =>
    have h := hk ⟨[], past + 1, inArguments, own, console⟩ hf
    rw [List.headD_nil, fill_atEnd] at h
    exact h
  | cons t rest =>
    exact hk ⟨rest, past, inArguments, own, console⟩ ⟨hf.1, fun u hu => hf.2 u (by simp [hu])⟩

lemma same_collect_bind {first : Token} (hfirst : first.kind ≠ .identifier)
    {k l : List Token → EvalM α} (hk : ∀ tokens, Same s (k tokens) (l (tokens.map s.fill))) :
    Same s (collect first >>= k) (collect first >>= l) := by
  intro f hf
  -- what ends an expression is told by kinds, which filling keeps as far as that goes
  let depth := if first.kind = .leftParen then 1 else 0
  let found := expressionTokens f.inArguments depth f.rest
  have hholds : (filling s).holds { f with rest := found.2 } := by
    refine ⟨hf.1, fun t ht => hf.2 t ?_⟩
    rw [← expressionTokens_append f.inArguments depth f.rest]
    exact List.mem_append_right _ ht
  have hplain : (collect first >>= k) f = k (first :: found.1) { f with rest := found.2 } := rfl
  have hfilled : ∀ c, (collect first >>= l) ((filling s).under c f) =
      l ((first :: found.1).map s.fill) ((filling s).under c { f with rest := found.2 }) := by
    intro c
    rw [List.map_cons, fill_of_kind hfirst]
    show l (first :: (expressionTokens f.inArguments depth (f.rest.map s.fill)).1)
      { (filling s).under c f with
        rest := (expressionTokens f.inArguments depth (f.rest.map s.fill)).2 } = _
    rw [(relabels_fill s).expressionTokens]
    rfl
  simp only [hplain, hfilled]
  exact hk _ _ hholds

/-! ### Expressions -/

lemma same_operation {first : Token} (hfirst : first.kind ≠ .identifier) :
    Same s (operation first) (operation first) := by
  refine same_collect_bind hfirst fun tokens => same_scope_bind ?_
  have hline : ((tokens.map s.fill).getLast?.getD first).line =
      (tokens.getLast?.getD first).line := by
    rw [List.getLast?_map]
    cases tokens.getLast? with
    | none => rfl
    | some t => exact line_fill t
  rw [hline, Item.map_relabel_token, operate_relabel]
  exact same_onConsole _

lemma same_concatenation {first : Token} (hfirst : first.kind ≠ .identifier) :
    Same s (concatenation first) (concatenation first) := by
  refine same_collect_bind hfirst fun tokens => same_scope_bind ?_
  rw [Item.map_relabel_token, join_relabel]
  exact same_orFail _

lemma same_literal (token : Token) : Same s (literal token) (literal token) :=
  (same_orHalt _).bind fun _ _ => .pure trivial

/-- Nested expressions come to the same. -/
def Nested (s : Scope) (e : Evaluation) : Prop :=
  ∀ t operators, t.kind.isCalculation = true → Same s (e t operators) (e (s.fill t) operators)

variable {e : Evaluation} {f : Frame}

lemma Nested.bind {k : Value → EvalM α} (he : Nested s e) (operators : Bool)
    (hk : ∀ v, Same s (k v) (k v)) :
    Same s (advance a >>= fun t => e t operators >>= k)
      (advance a >>= fun t => e t operators >>= k) := by
  intro f hf
  refine sameAt_advance_bind hf ?_
  exact (he _ operators (isCalculation_head hf)).bind fun v _ => hk v

lemma sameAt_orHalt_bind {x : Except Fault β} {k l : β → EvalM α} (hf : (filling s).holds f)
    (hk : ∀ v, SameAt s (k v) (l v) f) : SameAt s (orHalt x >>= k) (orHalt x >>= l) f := by
  cases x with
  | ok v => exact hk v
  | error fault => exact same_throw _ f hf

lemma sameAt_comparison (he : Nested s e) (hf : (filling s).holds f) (first : Token)
    (hop : (f.rest.headD (.atEnd a.endLine)).kind.isComparison = true) :
    SameAt s (comparison a e first) (comparison a e first) f := by
  have hid : (f.rest.headD (.atEnd a.endLine)).kind ≠ .identifier := by
    intro h
    rw [h] at hop
    cases hop
  refine sameAt_orHalt_bind hf fun left => sameAt_advance_bind hf ?_
  rw [fill_of_kind hid]
  refine he.bind false fun v => ?_
  cases v with
  | none => exact same_throw _
  | some right => exact same_onConsole _

section Operands

variable (he : Nested s e) {token : Token} (htoken : token.kind ≠ .identifier) (operators : Bool)

include he htoken

-- The token that follows is told by its kind only, which stays but for identifiers.

lemma same_number : Same s (number a e token operators) (number a e token operators) := by
  intro f hf
  refine sameAt_peek_bind ?_
  dsimp only
  rw [(relabels_fill s).kind TokenKind.isArithmetic fun _ => rfl,
    (relabels_fill s).kind TokenKind.isComparison fun _ => rfl]
  split
  · exact same_operation htoken f hf
  split
  · rename_i h
    exact sameAt_comparison he hf token (Bool.and_eq_true_iff.1 h).2
  · exact same_literal token f hf

lemma same_string : Same s (string a e token operators) (string a e token operators) := by
  intro f hf
  refine sameAt_peek_bind ?_
  dsimp only
  rw [(relabels_fill s).kind (· == .dot) fun _ => rfl,
    (relabels_fill s).kind TokenKind.isArithmetic fun _ => rfl,
    (relabels_fill s).kind TokenKind.isComparison fun _ => rfl]
  split
  · exact same_concatenation htoken f hf
  split
  · exact same_throw _ f hf
  split
  · rename_i h
    exact sameAt_comparison he hf token (Bool.and_eq_true_iff.1 h).2
  · exact same_literal token f hf

omit htoken in
lemma same_truth : Same s (truth a e token operators) (truth a e token operators) := by
  intro f hf
  refine sameAt_peek_bind ?_
  dsimp only
  rw [(relabels_fill s).kind TokenKind.isComparison fun _ => rfl]
  split
  · rename_i h
    exact sameAt_comparison he hf token (Bool.and_eq_true_iff.1 h).2
  · exact same_literal token f hf

omit he htoken in
lemma same_skip : Same s (skip token) (skip token) := by
  unfold skip
  split
  · split
    · exact (same_onConsole _).bind fun _ _ => .pure trivial
    · exact .pure trivial
  · exact same_throw _

/-- A calculation has no statements. -/
lemma same_dispatch (invoke : Invocation) (hcalc : token.kind.isCalculation = true) :
    Same s (dispatch invoke a e token operators) (dispatch invoke a e token operators) := by
  unfold dispatch
  split
  · exact same_number he htoken operators
  · exact same_number he htoken operators
  · exact same_string he htoken operators
  · exact same_truth he operators
  · exact same_truth he operators
  · exact same_truth he operators
  · rename_i h
    rw [h] at hcalc
    cases hcalc
  · exact same_operation htoken
  · rename_i h
    rw [h] at hcalc
    cases hcalc
  · rename_i h
    rw [h] at hcalc
    cases hcalc
  · rename_i h
    rw [h] at hcalc
    cases hcalc
  · unfold reserved
    split
    · rename_i h
      rw [h] at hcalc
      cases hcalc
    · rename_i h
      rw [h] at hcalc
      cases hcalc
    · exact same_skip

end Operands

/-- **An identifier and its value start the same expression.** -/
lemma nested_expression (invoke : Invocation) (budget : Nat) :
    Nested s (expression invoke a budget) := by
  induction budget with
  | zero => exact fun _ _ _ => same_throw _
  | succ budget ih =>
    intro t operators ht f hf
    -- a calculation has no `=`, so there is no assignment on either side
    have hequal : (f.rest.headD (.atEnd a.endLine)).kind ≠ .equal := by
      intro h
      have hcalc := isCalculation_head (a := a) hf
      rw [h] at hcalc
      cases hcalc
    have hequal' : (s.fill (f.rest.headD (.atEnd a.endLine))).kind ≠ .equal := by
      intro h
      have hsame := (relabels_fill s).kind (· == .equal) (fun _ => rfl)
        (f.rest.headD (.atEnd a.endLine))
      rw [beq_iff_eq.2 h] at hsame
      exact hequal (beq_iff_eq.1 hsame.symm)
    refine sameAt_peek_bind ?_
    dsimp only
    rw [if_neg fun h => hequal h.2.2, if_neg fun h => hequal' h.2.2]
    refine same_scope_bind ?_ f hf
    rw [substitute_of_replaces (replaces_fill s t)]
    cases hu : substitute s t with
    | error failure => exact same_throw _
    | ok u =>
      exact same_dispatch ih (replaces_of_substitute hu).2 operators invoke
        (isCalculation_of_replaces ht (replaces_of_substitute hu).1)

lemma nested_evaluate (invoke : Invocation) : Nested s (evaluate invoke a) := by
  intro t operators ht f hf
  have h := nested_expression invoke (a := a) (f.rest.length + 2) t operators ht f hf
  have hlength (c : Console) : ((filling s).under c f).rest.length = f.rest.length :=
    List.length_map ..
  unfold evaluate
  simp only [hlength]
  exact h

/-! ### Programs -/

/-- **Statements come to the same**, by induction on the tokens left. -/
lemma same_statements (invoke : Invocation) (budget : Nat) (latest : Value) :
    Same s (statements invoke a budget latest) (statements invoke a budget latest) := by
  induction budget generalizing latest with
  | zero => exact .pure trivial
  | succ budget ih =>
    rintro ⟨rest, past, inArguments, own, console⟩ hf
    cases rest with
    | nil => exact ⟨fun _ => .of_eq rfl, hf, trivial⟩
    | cons t rest =>
      have hrest : (filling s).holds ⟨rest, past, inArguments, own, console⟩ :=
        ⟨hf.1, fun u hu => hf.2 u (by simp [hu])⟩
      have hstep : Same s
          (if t.kind.isTerminator then statements invoke a budget latest
            else evaluate invoke a t true >>= statements invoke a budget)
          (if (s.fill t).kind.isTerminator then statements invoke a budget latest
            else evaluate invoke a (s.fill t) true >>= statements invoke a budget) := by
        rw [(relabels_fill s).kind TokenKind.isTerminator fun _ => rfl]
        split
        · exact ih latest
        · exact (nested_evaluate invoke t true (hf.2 t (by simp))).bind fun v _ => ih v
      exact hstep _ hrest

lemma endLine_fill (tokens : List Token) : endLine (tokens.map s.fill) = endLine tokens := by
  unfold endLine
  rw [List.getLast?_map]
  cases tokens.getLast? with
  | none => rfl
  | some t => exact line_fill t

/-- A calculation ends alike: but for the tokens left after an error, in the same frame. -/
lemma runProgram_fill {tokens : List Token} (htokens : ∀ t ∈ tokens, t.kind.isCalculation = true)
    (depth : Nat) :
    runProgram depth (tokens.map s.fill) s =
      onState (fun f => { f with rest := f.rest.map s.fill }) (runProgram depth tokens s) := by
  have hsame : statements (invoke depth) ⟨endLine tokens, none, false⟩ tokens.length none
      (frameOf (tokens.map s.fill) s .empty) =
        onState (fun f => { f with rest := f.rest.map s.fill })
          (statements (invoke depth) ⟨endLine tokens, none, false⟩ tokens.length none
            (frameOf tokens s .empty)) :=
    ((same_statements (invoke depth) tokens.length none (frameOf tokens s .empty)
      ⟨rfl, htokens⟩).1 .empty).eq not_false fun _ _ => not_false
  have hfilled : runProgram depth (tokens.map s.fill) s = settled
      (statements (invoke depth) ⟨endLine tokens, none, false⟩ tokens.length none
        (frameOf (tokens.map s.fill) s .empty)) := by
    rw [← endLine_fill (s := s), ← List.length_map (f := s.fill)]
    exact run_eq _ _ _
  have hplain : runProgram depth tokens s = settled
      (statements (invoke depth) ⟨endLine tokens, none, false⟩ tokens.length none
        (frameOf tokens s .empty)) := run_eq _ _ _
  rw [hfilled, hplain, hsame]
  cases statements (invoke depth) ⟨endLine tokens, none, false⟩ tokens.length none
    (frameOf tokens s .empty) with
  | ok v last => rfl
  | error stop last => cases stop <;> rfl

/-- A session does not see the tokens left after an error. -/
lemma run_fill (session : Session) {tokens : List Token}
    (htokens : ∀ t ∈ tokens, t.kind.isCalculation = true) (depth : Nat) :
    session.run depth (tokens.map session.scope.fill) = session.run depth tokens := by
  unfold Session.run Session.runAfter
  rw [runProgram_fill htokens]
  cases runProgram depth tokens session.scope <;> rfl

/-! ### Sessions -/

lemma mem_of_variableAt {t : Token} {v : Variable} (h : s.variableAt t = .ok v) :
    ∃ key, (key, Entry.var v) ∈ s.entries := by
  obtain ⟨entry, hentry, h⟩ := ok_of_bind h
  split at h
  · cases h
    obtain ⟨key, -, hmem⟩ := Scope.mem_of_find? (ofFault_eq_ok hentry)
    exact ⟨key, hmem⟩
  · cases h

/-- In a session of texts, every variable has a value that a token stands for. -/
lemma exists_token (verbosity : Nat) {steps : List (Nat × Program)}
    (hsteps : ∀ x ∈ steps, x.2.Lexed) {t : Token} {v : Variable}
    (h : (Session.reached verbosity steps).scope.variableAt t = .ok v) :
    ∃ l u, v.value = some l ∧ l.toToken t.line = .ok u := by
  obtain ⟨key, hmem⟩ := mem_of_variableAt h
  have htyped : v.Typed := ((typed_reached False verbosity steps False.elim).1 _ hmem).2
  have hprinted : Value.Printable v.value :=
    ((printing_lasting.scope_reached (fun _ _ => Token.printable_lex) verbosity hsteps) _ hmem).2
  obtain ⟨l, hl, -⟩ := htyped.exists_value
  rw [hl] at hprinted
  obtain ⟨text, htext⟩ := hprinted
  have htoken : l.toToken t.line = .ok ⟨.literal l.type, .str text, l.datum, t.line⟩ := by
    unfold Literal.toToken
    rw [show l.text = .ok text from htext]
    rfl
  exact ⟨l, _, hl, htoken⟩

/-- With all values in the place of names, it does not matter which have been put there before. -/
lemma map_fill_of_replaces {tokens tokens' : List Token}
    (h : List.Forall₂ s.Replaces tokens tokens') : tokens'.map s.fill = tokens.map s.fill := by
  induction h with
  | nil => rfl
  | cons hhead _ ih => rw [List.map_cons, List.map_cons, fill_of_replaces hhead, ih]

lemma forall_of_replaces {tokens tokens' : List Token} (h : List.Forall₂ s.Replaces tokens tokens')
    (htokens : ∀ t ∈ tokens, t.kind.isCalculation = true) :
    ∀ t ∈ tokens', t.kind.isCalculation = true := by
  induction h with
  | nil => exact htokens
  | cons hhead _ ih =>
    rintro u (_ | ⟨_, hu⟩)
    · exact isCalculation_of_replaces (htokens _ (by simp)) hhead
    · exact ih (fun t ht => htokens t (by simp [ht])) u hu

end Transparency

open Transparency

/-- **Variables are transparent.** In a session of texts, every identifier that names a variable can
be replaced by a token of its value on its line. To replace any of those in a calculation, which may
be malformed, leaves the whole run as it is: its value or its error, with the line and the message,
its output, its notes, and the session after it. -/
theorem Session.run_transparent (verbosity : Nat) (steps : List (Nat × Program))
    (hsteps : ∀ x ∈ steps, x.2.Lexed) :
    (∀ t v, (reached verbosity steps).scope.variableAt t = .ok v →
      ∃ l u, v.value = some l ∧ l.toToken t.line = .ok u) ∧
    ∀ depth tokens tokens', (∀ t ∈ tokens, t.kind.isCalculation = true) →
      List.Forall₂ (reached verbosity steps).scope.Replaces tokens tokens' →
      (reached verbosity steps).run depth tokens' = (reached verbosity steps).run depth tokens := by
  refine ⟨fun t v h => exists_token verbosity hsteps h, fun depth tokens tokens' htokens h => ?_⟩
  rw [← run_fill _ htokens depth, ← run_fill _ (forall_of_replaces h htokens) depth,
    map_fill_of_replaces h]

section Naming

/-- A session that declares variables of three types. -/
def namingSteps : List (Nat × Program) :=
  [(1, .text "int n = 20; str w = \"a\"; bool b = n > 3")]

/-- Calculations in which they are named at the head, in arithmetic, in concatenations and in
comparisons; the last one is wrong. -/
def namingTokens : List Token := Token.ofText "n * (n - 2); w . n . b; b == b; 3 > n; (n + w)"

theorem Session.run_transparent_named :
    (∀ x ∈ namingSteps, x.2.Lexed) ∧ (∀ t ∈ namingTokens, t.kind.isCalculation = true) ∧
    let s := reached 3 namingSteps
    namingTokens.map s.scope.fill ≠ namingTokens ∧
      List.Forall₂ s.scope.Replaces namingTokens (namingTokens.map s.scope.fill) ∧
      s.run 0 (namingTokens.map s.scope.fill) = s.run 0 namingTokens := by
  have hlexed : ∀ x ∈ namingSteps, x.2.Lexed := by simp [namingSteps, Program.Lexed]
  have hcalculation : ∀ t ∈ namingTokens, t.kind.isCalculation = true := by decide +kernel
  have hreplaces : List.Forall₂ (reached 3 namingSteps).scope.Replaces namingTokens
      (namingTokens.map (reached 3 namingSteps).scope.fill) := by
    rw [List.forall₂_map_right_iff]
    exact List.forall₂_same.2 fun t _ => replaces_fill _ t
  exact ⟨hlexed, hcalculation, by decide +kernel, hreplaces,
    (run_transparent 3 namingSteps hlexed).2 0 _ _ hcalculation hreplaces⟩

end Naming

end Hive
