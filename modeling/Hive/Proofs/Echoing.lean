import Hive.Proofs.Delimiting

/-!
Evaluation inside of an argument, function by function: each is echoed by the same one on the tokens
of the argument alone, given that the expressions nested in it are. Values come from literals,
operations, comparisons, assignments and calls; all other statements come to nil.
-/

namespace Hive.Border

open Evaluator

variable {β : Border} {n N depth : Nat} {i : Bool} {f g : Frame} {a b : Setting} {e e' : Evaluation}
  {α : Type} {Q : Frame → Frame → Prop} {good : α → Prop}

/-! ### Operations and comparisons -/

lemma echoes_operation {first : Token} {good : Value → Prop} (hfirst : first.kind ≠ .rightParen)
    (hi : depth = 0 ∨ i = true) (h : β.Within n (first.kind.turn depth) i f g) :
    EchoesAt (β.Within n depth i) good (operation first) (operation first) f g := by
  refine EchoesAt.step (echoes_collect hfirst hi h) fun tokens f' g' h' => ?_
  exact echoes_scope_bind h' (echoes_onConsole h' _)

lemma echoes_concatenation {first : Token} {good : Value → Prop}
    (hfirst : first.kind ≠ .rightParen) (hi : depth = 0 ∨ i = true)
    (h : β.Within n (first.kind.turn depth) i f g) :
    EchoesAt (β.Within n depth i) good (concatenation first) (concatenation first) f g := by
  refine EchoesAt.step (echoes_collect hfirst hi h) fun tokens f' g' h' => ?_
  exact echoes_scope_bind h' (.orFail h')

/-- **Nested expressions are echoed**, from the next token on, where no more than `N` tokens are
left before the border. -/
def Nested (β : Border) (a b : Setting) (e e' : Evaluation) (N : Nat) : Prop :=
  ∀ n depth i operators f g, n ≤ N → (depth = 0 ∨ i = true) → β.Within n depth i f g →
    EchoesAt (β.Within n depth i) (· ≠ none) (advance a >>= fun t => e t operators)
      (advance b >>= fun t => e' t operators) f g

lemma Nested.bind {k l : Value → EvalM α} (hn : β.Nested a b e e' N) (hN : n ≤ N)
    (hi : depth = 0 ∨ i = true) (operators : Bool) (h : β.Within n depth i f g)
    (hnone : Never good (k none))
    (hk : ∀ v f' g', β.Within n depth i f' g' → EchoesAt Q good (k v) (l v) f' g') :
    EchoesAt Q good (advance a >>= fun t => e t operators >>= k)
      (advance b >>= fun t => e' t operators >>= l) f g := by
  have hnested : EchoesAt Q good ((advance a >>= fun t => e t operators) >>= k)
      ((advance b >>= fun t => e' t operators) >>= l) f g := by
    refine (hn n depth i operators f g hN hi h).bind (fun v hv => ?_) fun v f' g' _ => hk v f' g'
    rw [not_not.1 hv]
    exact hnone
  simpa only [bind_assoc] using hnested

lemma echoes_comparison (hn : β.Nested a b e e' N) (hN : n ≤ N) (hi : depth = 0 ∨ i = true)
    (h : β.Within n depth i f g) (first : Token)
    (hop : (g.rest.headD (.atEnd b.endLine)).kind.isComparison = true) :
    EchoesAt (β.Within n depth i) (· ≠ none) (comparison a e first) (comparison b e' first) f
      g := by
  obtain ⟨op, rest, hg, hturn⟩ := h.next_of_kind (p := TokenKind.isComparison) rfl rfl rfl hop
  refine .orHalt_bind fun left _ => echoes_advance_cons h hg fun f' g' h' => ?_
  rw [hturn] at h'
  refine hn.bind (Nat.le_trans (Nat.sub_le n 1) hN) hi false h' (.throw _) fun v f'' g'' h'' => ?_
  cases v with
  | none => exact .of_never (.throw _)
  | some right => exact echoes_onConsole (h''.mono (Nat.sub_le n 1)) _

lemma echoes_assignment (hn : β.Nested a b e e' N) (hN : n ≤ N) (hi : depth = 0 ∨ i = true)
    (h : β.Within n depth i f g) (name : Token)
    (hequal : (g.rest.headD (.atEnd b.endLine)).kind = .equal) :
    EchoesAt (β.Within n depth i) (· ≠ none) (assignment a e name) (assignment b e' name) f g := by
  obtain ⟨op, rest, hg, hturn⟩ :=
    h.next_of_kind (p := (· == .equal)) rfl rfl rfl (beq_iff_eq.2 hequal)
  refine echoes_scope_bind h (.orHalt_bind fun declared _ => .ensure_bind fun _ => ?_)
  refine echoes_advance_cons h hg fun f' g' h' => ?_
  rw [hturn] at h'
  refine hn.bind (Nat.le_trans (Nat.sub_le n 1) hN) hi true h' ?_ fun v f'' g'' h'' => ?_
  · exact .bind fun own => .orFail_bind fun x => assign_nil own name x
  · replace h'' := h''.mono (Nat.sub_le n 1)
    refine echoes_scope_bind h'' (.orFail_bind fun x _ => ?_)
    refine EchoesAt.step (echoes_setScope h'' x.2) fun _ f₁ g₁ h₁ => ?_
    exact EchoesAt.step (echoes_onConsole h₁ _) fun _ f₂ g₂ h₂ => .pure h₂

/-! ### Calls -/

/-- The mark of arguments is set for one of them and taken away again. -/
lemma echoes_argument (hn : β.Nested a b e e' N) (hN : n ≤ N) (h : β.Within n depth i f g) :
    EchoesAt (β.Within n depth i) (· ≠ none) (argument a e) (argument b e') f g := by
  intro v f' hv hnone
  rw [argument_eq] at hv
  have hmarked : β.Within n depth true { f with inArguments := true }
      { g with inArguments := true } :=
    ⟨h.rest, h.closes, h.length, ⟨rfl, rfl⟩, h.past, h.scope, h.console⟩
  have hinner := hn n depth true true _ _ hN (.inr rfl) hmarked
  revert hv
  cases hr : (advance a >>= fun t => e t true) { f with inArguments := true } with
  | error stop f₁ => exact fun hv => nomatch hv
  | ok w f₁ =>
    intro hv
    cases hv
    obtain ⟨g₁, hg₁, h₁⟩ := hinner v f₁ hr hnone
    refine ⟨{ g₁ with inArguments := g.inArguments }, ?_, h₁.rest, h₁.closes, h₁.length,
      h.inArguments, h₁.past, h₁.scope, h₁.console⟩
    rw [argument_eq, hg₁]
    rfl

/-- **The arguments of a nested call are echoed.** They stand inside of its parentheses, so the
border is not reached. -/
lemma echoes_arguments (hn : β.Nested a b e e' N) {m m' : Nat} (hN : n ≤ N) (hm' : n < m')
    (h : β.Within n (depth + 1) i f g) :
    EchoesAt (β.Within n (depth + 1) i) (none ∉ ·) (arguments a e m) (arguments b e' m') f g := by
  -- on the budget of the run inside the list; the other one has as much as tokens are left to it
  induction m generalizing m' n f g with
  | zero => exact .of_never (.throw _)
  | succ m ih =>
    obtain ⟨m', rfl⟩ : ∃ k, m' = k + 1 := ⟨m' - 1, by omega⟩
    refine (echoes_argument hn hN h).bind (fun v hv => ?_) fun v f' g' hv h' => ?_
    · obtain rfl := not_not.1 hv
      refine .bind fun t => ?_
      split
      · exact .bind fun _ => .bind fun vs => .pure (by simp)
      · exact .pure (by simp)
    · refine echoes_peek_bind h' fun t rest hg => ?_
      have hn' : 0 < n := by
        have hlength := h'.length
        rw [hg, List.length_cons] at hlength
        omega
      split
      · rename_i hcomma
        refine echoes_advance_cons h' hg fun f₁ g₁ h₁ => ?_
        rw [hcomma] at h₁
        refine (ih (by omega) (by omega) h₁).bind (fun vs hvs => ?_) fun vs f₂ g₂ _ h₂ => ?_
        · exact .pure fun hmem => hvs fun hnone => hmem (List.mem_cons_of_mem v hnone)
        · exact .pure (h₂.mono (Nat.sub_le n 1))
      · exact .pure h'

lemma echoes_argumentList (hn : β.Nested a b e e' N) (hN : n ≤ N)
    (h : β.Within n (depth + 1) i f g) :
    EchoesAt (β.Within n (depth + 1) i) (none ∉ ·) (argumentList a e) (argumentList b e') f g := by
  refine echoes_peek_bind h fun t rest hg => ?_
  split
  · exact .pure h
  · intro values f' hvalues hnone
    have hlength : g.rest.length ≤ N := Nat.le_trans h.length hN
    obtain ⟨g', hg', h'⟩ := echoes_arguments hn hlength (Nat.lt_succ_self _) h.tight values f'
      hvalues hnone
    exact ⟨g', hg', h'.mono h.length⟩

lemma echoes_closeCall (hs : Joint.Settings a b) (calls : Nat) (name : Token) (function : Function)
    (values : List Value) {good : Value → Prop} (h : β.Within n (depth + 1) i f g) :
    EchoesAt (β.Within n depth i) good (Joint.closeCall a (invoke calls) name function values)
      (Joint.closeCall b (invoke calls) name function values) f g := by
  refine echoes_peek_bind h fun t rest hg => .ensure_bind fun hclosing => ?_
  refine echoes_advance_cons h hg fun f' g' h' => ?_
  rw [hclosing] at h'
  replace h' := h'.mono (Nat.sub_le n 1)
  refine echoes_scope_bind h' ?_
  rw [hs.program]
  exact echoes_onConsole h' _

/-- A call with nil among its arguments comes to nothing. -/
lemma never_closeCall (calls : Nat) (name : Token) (function : Function) {values : List Value}
    {good : Value → Prop} (hvalues : none ∈ values) :
    Never good (Joint.closeCall a (invoke calls) name function values) := by
  refine .bind fun closing => .bind fun _ => .bind fun _ => .bind fun own => ?_
  intro f v f' h
  obtain ⟨c, hc, -⟩ := onConsole_eq_ok h
  exact absurd hvalues (arguments_of_invoke hc).2

lemma echoes_call (hs : Joint.Settings a b) (hn : β.Nested a b e e' N) (hN : n ≤ N)
    (calls : Nat) (name : Token) (h : β.Within n depth i f g) :
    EchoesAt (β.Within n depth i) (· ≠ none) (call a (invoke calls) e name)
      (call b (invoke calls) e' name) f g := by
  refine .ensure_bind fun _ => ?_
  rcases h.head_cases with ⟨t, rest, hg, hf⟩ | ⟨hg, hf⟩
  · intro v f' hv hnone
    rw [bind_of_ok (peek_of_rest hf)] at hv
    rw [bind_of_ok (peek_of_rest hg)]
    revert v f' hv hnone
    refine EchoesAt.ensure_bind fun hopening => echoes_scope_bind h ?_
    have hlookUp : lookUpFunction b f.scope name = lookUpFunction a f.scope name := by
      unfold lookUpFunction
      rw [hs.program]
    rw [hlookUp]
    refine .orFail_bind fun function _ => echoes_advance_cons h hg fun f' g' h' => ?_
    rw [hopening] at h'
    refine EchoesAt.bind (echoes_argumentList hn (Nat.le_trans (Nat.sub_le n 1) hN) h')
      (fun values hvalues => ?_) fun values f'' g'' _ h'' => ?_
    · exact never_closeCall calls name function (not_not.1 hvalues)
    · exact echoes_closeCall hs calls name function values (h''.mono (Nat.sub_le n 1))
  · intro v f' hv
    -- the mark is no opening parenthesis, so no call begins at the border
    have hopening : ¬β.mark.kind = .leftParen := by
      rcases β.isMark with hmark | hmark <;> rw [hmark] <;> exact nofun
    rw [bind_of_ok (peek_of_rest hf), ensure, if_neg hopening] at hv
    cases hv

/-! ### Expressions -/

lemma echoes_literal {good : Value → Prop} (h : β.Within n depth i f g) (token : Token) :
    EchoesAt (β.Within n depth i) good (literal token) (literal token) f g :=
  .orHalt_bind fun _ _ => .pure h

section Operands

variable (hn : β.Nested a b e e' N) (hN : n ≤ N) (hi : depth = 0 ∨ i = true)
  (h : β.Within n depth i f g) {token : Token} (operators : Bool)

include hn hN hi h

-- At the border there is no operator, so a literal stands alone there.

lemma echoes_number (hliteral : token.kind.isLiteral = true) :
    EchoesAt (β.Within n depth i) (· ≠ none) (number a e token operators)
      (number b e' token operators) f g := by
  obtain ⟨hturn, hright⟩ : token.kind.turn depth = depth ∧ _ := turn_of_literal hliteral
  have harithmetic := h.kind (a := a) (b := b) TokenKind.isArithmetic rfl rfl
  have hcomparison := h.kind (a := a) (b := b) TokenKind.isComparison rfl rfl
  show EchoesAt _ _
    (if operators && (f.rest.headD (.atEnd a.endLine)).kind.isArithmetic then operation token
      else if operators && (f.rest.headD (.atEnd a.endLine)).kind.isComparison then
        comparison a e token
      else literal token)
    (if operators && (g.rest.headD (.atEnd b.endLine)).kind.isArithmetic then operation token
      else if operators && (g.rest.headD (.atEnd b.endLine)).kind.isComparison then
        comparison b e' token
      else literal token) f g
  -- both runs see the same kind of token next, or a mark and an end, which are no operators
  rw [← harithmetic, ← hcomparison]
  split
  · rw [← hturn] at h
    exact echoes_operation hright hi h
  split
  · rename_i hop
    exact echoes_comparison hn hN hi h token (Bool.and_eq_true_iff.1 hop).2
  · exact echoes_literal h token

lemma echoes_string (hliteral : token.kind.isLiteral = true) :
    EchoesAt (β.Within n depth i) (· ≠ none) (string a e token operators)
      (string b e' token operators) f g := by
  obtain ⟨hturn, hright⟩ : token.kind.turn depth = depth ∧ _ := turn_of_literal hliteral
  have hdot := h.kind (a := a) (b := b) (· == .dot) rfl rfl
  have harithmetic := h.kind (a := a) (b := b) TokenKind.isArithmetic rfl rfl
  have hcomparison := h.kind (a := a) (b := b) TokenKind.isComparison rfl rfl
  show EchoesAt _ _
    (if operators && (f.rest.headD (.atEnd a.endLine)).kind == .dot then concatenation token
      else if (f.rest.headD (.atEnd a.endLine)).kind.isArithmetic then
        fail token.line (.unsupportedOperationType (.str token.kind.label))
      else if operators && (f.rest.headD (.atEnd a.endLine)).kind.isComparison then
        comparison a e token
      else literal token)
    (if operators && (g.rest.headD (.atEnd b.endLine)).kind == .dot then concatenation token
      else if (g.rest.headD (.atEnd b.endLine)).kind.isArithmetic then
        fail token.line (.unsupportedOperationType (.str token.kind.label))
      else if operators && (g.rest.headD (.atEnd b.endLine)).kind.isComparison then
        comparison b e' token
      else literal token) f g
  rw [← harithmetic, ← hcomparison, ← hdot]
  split
  · rw [← hturn] at h
    exact echoes_concatenation hright hi h
  split
  · exact .of_never (.throw _)
  split
  · rename_i hop
    exact echoes_comparison hn hN hi h token (Bool.and_eq_true_iff.1 hop).2
  · exact echoes_literal h token

lemma echoes_truth :
    EchoesAt (β.Within n depth i) (· ≠ none) (truth a e token operators)
      (truth b e' token operators) f g := by
  have hcomparison := h.kind (a := a) (b := b) TokenKind.isComparison rfl rfl
  show EchoesAt _ _
    (if operators && (f.rest.headD (.atEnd a.endLine)).kind.isComparison then comparison a e token
      else literal token)
    (if operators && (g.rest.headD (.atEnd b.endLine)).kind.isComparison then comparison b e' token
      else literal token) f g
  rw [← hcomparison]
  split
  · rename_i hop
    exact echoes_comparison hn hN hi h token (Bool.and_eq_true_iff.1 hop).2
  · exact echoes_literal h token

end Operands

/-! ### Statements come to nil -/

section Statements

variable (token name : Token)

lemma never_functionDeclaration :
    Never (· ≠ none) (functionDeclaration a token name) :=
  .bind fun _ => .bind fun _ => .bind fun _ => .bind fun _ => .bind fun _ => .bind fun _ =>
    .bind fun _ => .bind fun _ => .bind fun _ => .bind fun _ => .pure (not_not.2 rfl)

lemma never_declaration : Never (· ≠ none) (declaration a e token) := by
  refine .bind fun name => .bind fun _ => .bind fun t => ?_
  split
  · exact never_functionDeclaration token name
  · exact .bind fun _ => .bind fun _ => .bind fun _ => .bind fun _ => .bind fun _ => .bind fun _ =>
      .bind fun _ => .bind fun _ => .pure (not_not.2 rfl)

lemma never_skip : Never (· ≠ none) (skip token) := by
  unfold skip
  split
  · split
    · exact .bind fun _ => .pure (not_not.2 rfl)
    · exact .pure (not_not.2 rfl)
  · exact .throw _

lemma never_reserved : Never (· ≠ none) (reserved a e token) := by
  unfold reserved
  split
  · exact .bind fun _ => .bind fun _ => .bind fun _ => .bind fun _ => .pure (not_not.2 rfl)
  · exact .bind fun _ => .bind fun _ => .bind fun _ => .bind fun _ => .bind fun _ =>
      .pure (not_not.2 rfl)
  · exact never_skip token

end Statements

/-- **What starts with a token is echoed.** Values come from literals, operations and calls. -/
lemma echoes_dispatch (hs : Joint.Settings a b) (hn : β.Nested a b e e' N) (hN : n ≤ N)
    (hi : depth = 0 ∨ i = true) (calls : Nat) {token : Token} (operators : Bool)
    (hright : token.kind ≠ .rightParen) (h : β.Within n (token.kind.turn depth) i f g) :
    EchoesAt (β.Within n depth i) (· ≠ none) (dispatch (invoke calls) a e token operators)
      (dispatch (invoke calls) b e' token operators) f g := by
  unfold dispatch
  split
  · rename_i hkind
    rw [hkind] at h
    exact echoes_number hn hN hi h operators (by rw [hkind]; rfl)
  · rename_i hkind
    rw [hkind] at h
    exact echoes_number hn hN hi h operators (by rw [hkind]; rfl)
  · rename_i hkind
    rw [hkind] at h
    exact echoes_string hn hN hi h operators (by rw [hkind]; rfl)
  · rename_i hkind
    rw [hkind] at h
    exact echoes_truth hn hN hi h operators
  · rename_i hkind
    rw [hkind] at h
    exact echoes_truth hn hN hi h operators
  · rename_i hkind
    rw [hkind] at h
    exact echoes_truth hn hN hi h operators
  · exact .of_never (never_declaration token)
  · exact echoes_operation hright hi h
  · exact .of_never (.bind fun _ => .bind fun _ => never_functionDeclaration _ _)
  · rename_i hkind
    rw [hkind] at h
    refine echoes_advance_bind h (fun name rest f' g' hg h' => ?_) (.ensure_bind fun hid => ?_)
    · by_cases hid : name.kind = .identifier
      · rw [hid] at h'
        exact echoes_call hs hn hN calls name (h'.mono (Nat.sub_le n 1))
      · exact .of_never (.ensure_bind hid)
    · rcases β.isMark with hmark | hmark <;> rw [hmark] at hid <;> cases hid
  · split
    · exact .of_never (.bind fun _ => .bind fun _ => .throw _)
    · exact .of_never (.throw _)
  · exact .of_never (never_reserved token)

/-- A comma or a closing parenthesis starts no expression. -/
lemma never_expression (invoke : Invocation) (budget : Nat) {token : Token} (operators : Bool)
    (hmark : token.kind = .comma ∨ token.kind = .rightParen) :
    Never (· ≠ none) (expression invoke a budget token operators) := by
  cases budget with
  | zero => exact .throw _
  | succ budget =>
    have hid : token.kind ≠ .identifier := by
      rcases hmark with h | h <;> rw [h] <;> exact nofun
    have hreserved : dispatch invoke a (expression invoke a budget) token operators =
        reserved a (expression invoke a budget) token := by
      unfold dispatch
      rcases hmark with h | h <;> rw [h]
    intro f v f' hv
    rw [expression_succ, plainRule_of_kind hid, hreserved] at hv
    exact never_reserved token f v f' hv

/-- The token in the place of the first one opens as many parentheses. -/
lemma turn_of_substitute {s : Scope} {first token : Token} (h : substitute s first = .ok token)
    (hright : first.kind ≠ .rightParen) :
    token.kind.turn depth = first.kind.turn depth ∧ token.kind ≠ .rightParen := by
  by_cases hid : first.kind = .identifier
  · by_cases hliteral : token.kind.isLiteral = true
    · rw [hid]
      exact turn_of_literal hliteral
    · rw [Discipline.eq_of_substitute h (Bool.not_eq_true _ ▸ hliteral)]
      exact ⟨rfl, hright⟩
  · rw [substitute, if_neg hid] at h
    cases h
    exact ⟨rfl, hright⟩

/-- **Expressions are echoed.** The first token has been read. -/
theorem echoes_expression (hs : Joint.Settings a b) (calls : Nat) {m m' : Nat} (hm' : n < m')
    (hi : depth = 0 ∨ i = true) {first : Token} (operators : Bool)
    (hright : first.kind ≠ .rightParen) (h : β.Within n (first.kind.turn depth) i f g) :
    EchoesAt (β.Within n depth i) (· ≠ none) (expression (invoke calls) a m first operators)
      (expression (invoke calls) b m' first operators) f g := by
  induction m generalizing m' n depth i first operators f g with
  | zero => exact .of_never (.throw _)
  | succ m ih =>
    obtain ⟨m', rfl⟩ : ∃ k, m' = k + 1 := ⟨m' - 1, by omega⟩
    -- at the border there is no value to be had: neither a mark nor `)` gives one
    have hn : β.Nested a b (expression (invoke calls) a m) (expression (invoke calls) b m') m' := by
      intro n' depth' i' operators' f' g' hn' hi' h'
      refine echoes_advance_bind h' (fun t rest f'' g'' hg h'' => ?_)
        (never_expression _ m operators' β.isMark)
      have hlength := h'.length
      rw [hg, List.length_cons] at hlength
      have hbudget : n' - 1 < m' := by omega
      by_cases hparen : t.kind = .rightParen
      · exact .of_never (never_expression _ m operators' (.inr hparen))
      · intro v f₁ hv hnone
        obtain ⟨g₁, hg₁, h₁⟩ := ih hbudget hi' operators' hparen h'' v f₁ hv hnone
        exact ⟨g₁, hg₁, h₁.mono (Nat.sub_le n' 1)⟩
    have hN : n ≤ m' := by omega
    have hequal := h.kind (a := a) (b := b) (· = .equal) (by simp) (by simp)
    show EchoesAt _ _
      (if first.kind = .identifier ∧ operators = true ∧
          (f.rest.headD (.atEnd a.endLine)).kind = .equal then
        assignment a (expression (invoke calls) a m) first
      else scope >>= fun own => orFail (substitute own first) >>= fun token =>
        dispatch (invoke calls) a (expression (invoke calls) a m) token operators)
      (if first.kind = .identifier ∧ operators = true ∧
          (g.rest.headD (.atEnd b.endLine)).kind = .equal then
        assignment b (expression (invoke calls) b m') first
      else scope >>= fun own => orFail (substitute own first) >>= fun token =>
        dispatch (invoke calls) b (expression (invoke calls) b m') token operators) f g
    by_cases hassign : first.kind = .identifier ∧ operators = true ∧
        (g.rest.headD (.atEnd b.endLine)).kind = .equal
    · rw [if_pos hassign, if_pos ⟨hassign.1, hassign.2.1, hequal ▸ hassign.2.2⟩]
      rw [hassign.1] at h
      exact echoes_assignment hn hN hi h first hassign.2.2
    · rw [if_neg hassign, if_neg fun hf => hassign ⟨hf.1, hf.2.1, hequal ▸ hf.2.2⟩]
      refine echoes_scope_bind h (.orFail_bind fun token htoken => ?_)
      -- a name stands for a literal, which opens and closes nothing either
      obtain ⟨hturn, hright'⟩ : token.kind.turn depth = first.kind.turn depth ∧ _ :=
        turn_of_substitute htoken hright
      rw [← hturn] at h
      exact echoes_dispatch hs hn hN hi calls operators hright' h

end Hive.Border
