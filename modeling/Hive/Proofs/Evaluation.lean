import Hive.Proofs.Entries
import Hive.Proofs.Rules
import Hive.Proofs.Statements

/-!
Whole evaluations under a discipline: expressions, statements, the bodies of functions and calls.
The budgets of an evaluation last, since every nested expression and every statement uses up a
token. The evaluation there is is compared with one by another rule, of which the plain rule is the
first instance. Main statement: `agree_invokeBy`, that calls keep a discipline to any depth.
-/

namespace Hive.Discipline

open Evaluator

variable {D : Discipline} {n : Nat} {a b : Setting} {e e' : Evaluation}
  {invoke invoke' : Invocation}

/-! ### Expressions by their first token -/

lemma agree_literal (hk : D.Steady) {token : Token} {l : Literal} (ht : D.token token)
    (hl : Literal.ofToken token = .ok l) :
    (D.ground n).Agree (D.stop a.mayReturn) D.value (literal token) (literal token) := by
  unfold literal
  rw [hl]
  exact .pure (hk.value_ofToken ht hl)

section Operand

variable (hk : D.Steady) (hs : D.Settings a b) (hn : D.Nested n a b e e') {token : Token}
  {l : Literal} (ht : D.token token) (hl : Literal.ofToken token = .ok l) (operators : Bool)
include hk hs hn ht hl

lemma agree_numberBy {operation operation' : Token → EvalM Value}
    (hop : D.Operates operation operation') :
    (D.ground n).Agree (D.stop a.mayReturn) D.value (numberBy operation a e token operators)
      (numberBy operation' b e' token operators) := by
  refine (agree_peek hk hs).bind fun following _ => ?_
  dsimp only
  split
  · exact hop ht
  split
  · exact agree_comparison hk hs hn ht ⟨l, hl⟩
  · exact agree_literal hk ht hl

lemma agree_string :
    (D.ground n).Agree (D.stop a.mayReturn) D.value (string a e token operators)
      (string b e' token operators) := by
  refine (agree_peek hk hs).bind fun following _ => ?_
  dsimp only
  split
  · exact agree_concatenation hk ht
  split
  · exact agree_fail (hk.line_of_token ht)
  split
  · exact agree_comparison hk hs hn ht ⟨l, hl⟩
  · exact agree_literal hk ht hl

lemma agree_truth :
    (D.ground n).Agree (D.stop a.mayReturn) D.value (truth a e token operators)
      (truth b e' token operators) := by
  refine (agree_peek hk hs).bind fun following _ => ?_
  dsimp only
  split
  · exact agree_comparison hk hs hn ht ⟨l, hl⟩
  · exact agree_literal hk ht hl

end Operand

lemma ofToken_of_literal {t : Token} {type : Ty} (h : t.kind = .literal type) :
    Literal.ofToken t = .ok ⟨type, t.literal⟩ := by
  simp [Literal.ofToken, h]

/-- The call that `run` starts is of the token that follows it. -/
lemma agree_calling (hk : D.Steady) (hs : D.Settings a b) (hn : D.Nested n a b e e')
    (hcalls : D.Calls invoke invoke') {token : Token} (hrun : token.kind = .keyword .runWord)
    {f : Frame} (hf : (D.ground n).holds f) (hnext : D.Before token f.rest) :
    (D.ground n).AgreeAt (D.stop a.mayReturn) D.value (advance a >>= call a invoke e)
      (advance b >>= call b invoke' e') f := by
  refine agree_advance_of_next hk hs hf fun name hname hwhere => ?_
  refine agree_call hk hs hn hcalls hname fun hid => ⟨hid, token, hrun, ?_⟩
  rw [hwhere]
  exact hnext (by simp [hrun]) _

/-- Expressions that are not arithmetic. -/
lemma agree_dispatch (hk : D.Steady) (hs : D.Settings a b) (hn : D.Nested n a b e e')
    (hcalls : D.Calls invoke invoke') {token : Token} (ht : D.token token) (operators : Bool)
    (hint : token.kind ≠ .literal .int) (hflt : token.kind ≠ .literal .flt)
    (hparen : token.kind ≠ .leftParen) {f : Frame} (hf : (D.ground n).holds f)
    (hnext : token.kind.isLiteral = false → D.Before token f.rest) :
    (D.ground n).AgreeAt (D.stop a.mayReturn) D.value (dispatch invoke a e token operators)
      (dispatch invoke' b e' token operators) f := by
  -- numbers and groups go to the operations of the rule, so they do not get here
  unfold dispatch
  split
  · rename_i h
    exact absurd h hint
  · rename_i h
    exact absurd h hflt
  · rename_i h
    exact agree_string hk hs hn ht (ofToken_of_literal h) operators f hf
  · rename_i h
    exact agree_truth hk hs hn ht (ofToken_of_literal h) operators f hf
  · rename_i h
    exact agree_truth (l := .bool true) hk hs hn ht (by simp [Literal.ofToken, h]) operators f hf
  · rename_i h
    exact agree_truth (l := .bool false) hk hs hn ht (by simp [Literal.ofToken, h]) operators f hf
  · rename_i h
    exact agree_declaration hk hs hn ht (by simp [h, TokenKind.isTypeName, TokenKind.type?]) f hf
  · rename_i h
    exact absurd h hparen
  · exact (agree_advance hk hs).bind (fun typeToken htype => (agree_advance hk hs).bind
      fun name hname => agree_functionDeclaration hk hs htype hname) f hf
  · rename_i hrun
    exact agree_calling hk hs hn hcalls hrun hf (hnext (by rw [hrun]; rfl))
  · rw [hs.mayReturn]
    split
    · rename_i hmay
      have h : (D.ground n).Agree (D.stop a.mayReturn) D.value
          (advance a >>= fun t => e t true >>= fun v => throw (.returned v))
          (advance b >>= fun t => e' t true >>= fun v => throw (.returned v)) :=
        hn.bind true fun v hv => .throw ⟨hmay, hv⟩
      exact h f hf
    · exact agree_fail (hk.line_of_token ht) f hf
  · exact agree_reserved hk hs hn ht hf fun hclear => hnext (by rw [hclear]; rfl)

lemma agree_dispatchBy (hk : D.Steady) {operation operation' : Token → EvalM Value}
    (hop : D.Operates operation operation') (hs : D.Settings a b) (hn : D.Nested n a b e e')
    (hcalls : D.Calls invoke invoke') {token : Token} (ht : D.token token) (operators : Bool)
    {f : Frame} (hf : (D.ground n).holds f)
    (hnext : token.kind.isLiteral = false → D.Before token f.rest) :
    (D.ground n).AgreeAt (D.stop a.mayReturn) D.value
      (dispatchBy operation invoke a e token operators)
      (dispatchBy operation' invoke' b e' token operators) f := by
  unfold dispatchBy
  split
  · rename_i h
    exact agree_numberBy hk hs hn ht (ofToken_of_literal h) operators hop f hf
  · rename_i h
    exact agree_numberBy hk hs hn ht (ofToken_of_literal h) operators hop f hf
  · exact hop ht f hf
  · rename_i hint hflt hparen
    exact agree_dispatch hk hs hn hcalls ht operators hint hflt hparen hf hnext

/-! ### Rules -/

/-- **Two rules agree**, or one rule in both evaluations. At the end of the tokens they must do
without nested expressions. -/
def Rules (D : Discipline) (rule : Rule) (rule' : Rule := rule) : Prop :=
  ∀ {n : Nat} {a b : Setting} {e e' : Evaluation} {invoke invoke' : Invocation} {first : Token}
    (operators : Bool) {f : Frame}, D.Settings a b → D.Calls invoke invoke' →
    (first.kind ≠ .endOfInput → D.Nested n a b e e') → D.token first → (D.ground n).holds f →
    D.Before first f.rest →
    (D.ground n).AgreeAt (D.stop a.mayReturn) D.value (rule invoke a e first operators)
      (rule' invoke' b e' first operators) f

/-- Only an identifier is replaced, and then by a literal. -/
lemma eq_of_substitute {s : Scope} {first token : Token} (h : substitute s first = .ok token)
    (hliteral : token.kind.isLiteral = false) : token = first := by
  unfold substitute at h
  split at h
  · obtain ⟨v, -, h⟩ := ok_of_bind h
    split at h
    · obtain ⟨text, -, h⟩ := ok_of_bind (ofFault_eq_ok h)
      rw [← Except.ok.inj h] at hliteral
      cases hliteral
    · cases h
  · exact (Except.ok.inj h).symm

lemma agreeAt_peek {α : Type} {E : Stop → Prop} {Q : α → Prop} {k l : Token → EvalM α} {f : Frame}
    (hs : D.Settings a b)
    (h : (D.ground n).AgreeAt E Q (k (f.rest.headD (.atEnd a.endLine)))
      (l (f.rest.headD (.atEnd a.endLine))) f) :
    (D.ground n).AgreeAt E Q (peek a >>= k) (peek b >>= l) f := by
  refine .step rfl (fun c => ?_) h
  show EStateM.Result.ok (f.rest.headD (.atEnd b.endLine)) _ = _
  rw [hs.endLine]

/-- The end of the tokens is passed over. -/
lemma agree_ruleBy_end (hk : D.Steady) (hs : D.Settings a b)
    {operation operation' : Token → EvalM Value} {first : Token} (hfirst : D.token first)
    (hend : first.kind = .endOfInput) (operators : Bool) :
    (D.ground n).Agree (D.stop a.mayReturn) D.value (ruleBy operation invoke a e first operators)
      (ruleBy operation' invoke' b e' first operators) := by
  refine (agree_peek hk hs).bind fun following _ => ?_
  have hid : ¬(first.kind = .identifier ∧ operators = true ∧ following.kind = .equal) := by
    simp [hend]
  rw [if_neg hid, if_neg hid]
  refine agree_scope.bind fun own _ => ?_
  have hsub : substitute own first = .ok first := by simp [substitute, hend]
  rw [hsub]
  show (D.ground n).Agree _ _ (dispatchBy operation invoke a _ first operators)
    (dispatchBy operation' invoke' b _ first operators)
  unfold dispatchBy dispatch reserved
  simp only [hend]
  exact agree_skip hk hfirst

/-- **The rules for two ways to do arithmetic agree** under a discipline that is steady. -/
theorem rules_ruleBy (hk : D.Steady) {operation operation' : Token → EvalM Value}
    (hop : D.Operates operation operation') : D.Rules (ruleBy operation) (ruleBy operation') := by
  intro n a b e e' invoke invoke' first operators f hs hcalls hn hfirst hf hnext
  by_cases hend : first.kind = .endOfInput
  · exact agree_ruleBy_end hk hs hfirst hend operators f hf
  refine agreeAt_peek hs ?_
  dsimp only
  split
  · exact agree_assignment hk hs (hn hend) hfirst f hf
  refine .step (a := f.scope) rfl (fun _ => rfl) ?_
  have hsub := hk.substitute hf.2.2 hfirst
  cases h : substitute f.scope first with
  | error failure =>
    rw [h] at hsub
    exact Ground.Agree.throw (e := .failure failure) hsub f hf
  | ok token =>
    rw [h] at hsub
    refine .step (a := token) rfl (fun _ => rfl) ?_
    refine agree_dispatchBy hk hop hs (hn hend) hcalls hsub operators hf fun hliteral => ?_
    rw [eq_of_substitute h hliteral]
    exact hnext

lemma rules_of_steady (hk : D.Steady) (happly : D.Applies applyOperator applyOperator) :
    D.Rules plainRule := by
  rw [← ruleBy_operation]
  exact rules_ruleBy hk (operates_operation hk happly)

/-- **The plain rule agrees with itself** under a discipline that is kept. -/
theorem rules_plainRule (hk : D.Kept) : D.Rules plainRule :=
  rules_of_steady hk (applies_applyOperator hk.applyOperator)

/-! ### Expressions -/

section Expressions

variable {rule rule' : Rule} (hr : D.Rules rule rule') (hk : D.Reading) (hs : D.Settings a b)
  (hcalls : D.Calls invoke invoke')
include hr hk hs hcalls

/-- A nested expression uses up a token, so the budget lasts if it exceeds the number of tokens left
by two: one for the first token, and one for the end of the tokens. -/
lemma agree_expressionBy {first : Token} (hfirst : D.token first) {budget : Nat} (hpos : 0 < budget)
    (hbudget : first.kind ≠ .endOfInput → n + 1 < budget) (operators : Bool) {f : Frame}
    (hf : (D.ground n).holds f) (hnext : D.Before first f.rest) :
    (D.ground n).AgreeAt (D.stop a.mayReturn) D.value
      (expressionBy rule invoke a budget first operators)
      (expressionBy rule' invoke' b budget first operators) f := by
  induction budget generalizing n first operators f with
  | zero => omega
  | succ budget ih =>
    refine hr operators hs hcalls (fun hend => ?_) hfirst hf hnext
    have hlt : n < budget := by have := hbudget hend; omega
    intro m hm operators
    refine agree_advance_next hk hs fun t m' ht _ hm' g hg hnext =>
      ih ht (by omega) (fun hne => ?_) operators hg hnext
    have := hm' hne
    omega

lemma agree_evaluateBy {first : Token} (hfirst : D.token first) (operators : Bool) {f : Frame}
    (hf : (D.ground n).holds f) (hnext : D.Before first f.rest) :
    (D.ground n).AgreeAt (D.stop a.mayReturn) D.value (evaluateBy rule invoke a first operators)
      (evaluateBy rule' invoke' b first operators) f := by
  have hlast : (D.ground f.rest.length).AgreeAt (D.stop a.mayReturn) D.value
      (expressionBy rule invoke a (f.rest.length + 2) first operators)
      (expressionBy rule' invoke' b (f.rest.length + 2) first operators) f :=
    agree_expressionBy hr hk hs hcalls hfirst (Nat.succ_pos _) (fun _ => Nat.lt_succ_self _)
      operators ⟨Nat.le_refl _, hf.2⟩ hnext
  exact ⟨hlast.1, Ends.widen hlast.2 hf.1⟩

/-! ### Statements and calls -/

lemma agree_statementsBy (budget : Nat) {latest : Value} (hlatest : D.value latest) :
    (D.ground n).Agree (D.stop a.mayReturn) D.value (statementsBy rule invoke a budget latest)
      (statementsBy rule' invoke' b budget latest) := by
  induction budget generalizing n latest with
  | zero => exact .pure hlatest
  | succ budget ih =>
    rintro ⟨rest, past, inArguments, own, console⟩ ⟨hlen, hstream, hscope⟩
    cases rest with
    | nil => exact ⟨fun _ => .same _, ⟨hlen, hstream, hscope⟩, hlatest⟩
    | cons first rest =>
      have hfirst := hstream.token first (by simp)
      -- the ground for the rest is tighter: a statement may not put tokens back
      have hrest : (D.ground rest.length).holds ⟨rest, past, inArguments, own, console⟩ :=
        ⟨Nat.le_refl _, hstream.tail, hscope⟩
      have hstep : (D.ground rest.length).AgreeAt (D.stop a.mayReturn) D.value
          (if first.kind.isTerminator then statementsBy rule invoke a budget latest
            else evaluateBy rule invoke a first true >>= statementsBy rule invoke a budget)
          (if first.kind.isTerminator then statementsBy rule' invoke' b budget latest
            else evaluateBy rule' invoke' b first true >>= statementsBy rule' invoke' b budget)
          ⟨rest, past, inArguments, own, console⟩ := by
        split
        · exact ih hlatest _ hrest
        · exact .bind (agree_evaluateBy hr hk hs hcalls hfirst true hrest hstream.next)
            fun v hv => ih hv
      obtain ⟨hfollows, hends⟩ := hstep
      exact ⟨hfollows, Ends.widen hends (Nat.le_of_lt hlen)⟩

/-- A return is the end of an evaluation and does not get out of it. -/
lemma agree_runBy (hnil : D.value none) :
    (D.ground n).Agree (D.stop false) D.value (runBy rule invoke a) (runBy rule' invoke' b) := by
  intro frame hf
  obtain ⟨hfollows, hends⟩ := agree_statementsBy (n := n) hr hk hs hcalls frame.rest.length
    hnil frame hf
  simp only [runBy]
  refine ⟨fun c => (hfollows c).settled, ?_⟩
  revert hends
  cases statementsBy rule invoke a frame.rest.length none frame with
  | ok v last => exact fun h => h
  | error e last =>
    cases e with
    | failure f => exact fun h => h
    | returned v => exact fun h => ⟨⟨Nat.zero_le n, stream_nil, h.1.2.2⟩, h.2.2⟩
    | exhausted => exact fun h => h

end Expressions

section Plain

variable (hk : D.Kept) (hs : D.Settings a b) (hcalls : D.Calls invoke invoke')
include hk hs hcalls

lemma agree_evaluate {first : Token} (hfirst : D.token first) (operators : Bool) {f : Frame}
    (hf : (D.ground n).holds f) (hnext : D.Before first f.rest) :
    (D.ground n).AgreeAt (D.stop a.mayReturn) D.value (evaluate invoke a first operators)
      (evaluate invoke' b first operators) f := by
  have h := agree_evaluateBy (rules_plainRule hk) hk.toReading hs hcalls hfirst operators hf hnext
  simpa only [evaluateBy_plainRule] using h

lemma agree_statements {budget : Nat} {latest : Value} (hlatest : D.value latest) :
    (D.ground n).Agree (D.stop a.mayReturn) D.value (statements invoke a budget latest)
      (statements invoke' b budget latest) := by
  have h := agree_statementsBy (n := n) (rules_plainRule hk) hk.toReading hs hcalls budget hlatest
  simpa only [statementsBy_plainRule] using h

lemma agree_run : (D.ground n).Agree (D.stop false) D.value (run invoke a) (run invoke' b) := by
  have h := agree_runBy (n := n) (rules_plainRule hk) hk.toReading hs hcalls hk.value_nil
  simpa only [runBy_plainRule] using h

end Plain

/-- Tokens run alike in two settings, and end in a scope as demanded. Where there are none, nothing
is reported, so the last line does not matter. -/
lemma run_tokensBy {rule rule' : Rule} (hr : D.Rules rule rule') (hk : D.Steady)
    (hcalls : D.Calls invoke invoke') {tokens : List Token} (htokens : D.Stream tokens)
    (hs : D.line (endLine tokens) → D.Settings a b) {scope : Scope} (hscope : D.scope scope)
    (console : Console) :
    (∀ c, Follows D.cut D.swap (Frame.under c) (runBy rule invoke a (frameOf tokens scope console))
      (runBy rule' invoke' b (frameOf tokens scope (c.append console)))) ∧
    (D.ground tokens.length).Ends (D.stop false) D.value
      (runBy rule invoke a (frameOf tokens scope console)) := by
  by_cases hne : tokens = []
  · rw [hne]
    exact ⟨fun _ => .same _, ⟨Nat.le_refl 0, stream_nil, hscope⟩, hk.value_nil⟩
  · have hline : D.line (endLine tokens) := by
      unfold endLine
      rw [List.getLast?_eq_some_getLast hne]
      exact hk.line_of_token (htokens.token _ (List.getLast_mem hne))
    exact agree_runBy hr hk (hs hline) hcalls hk.value_nil (frameOf tokens scope console)
      ⟨Nat.le_refl _, htokens, hscope⟩

lemma run_tokens (hr : D.Rules plainRule) (hk : D.Steady)
    (hcalls : D.Calls invoke invoke') {tokens : List Token} (htokens : D.Stream tokens)
    (hs : D.line (endLine tokens) → D.Settings a b) {scope : Scope} (hscope : D.scope scope)
    (console : Console) :
    (∀ c, Follows D.cut D.swap (Frame.under c) (run invoke a (frameOf tokens scope console))
      (run invoke' b (frameOf tokens scope (c.append console)))) ∧
    (D.ground tokens.length).Ends (D.stop false) D.value
      (run invoke a (frameOf tokens scope console)) := by
  have h := run_tokensBy hr hk hcalls htokens hs hscope console
  simpa only [runBy_plainRule] using h

abbrev bodySetting (f : Function) (program : Scope) : Setting :=
  ⟨endLine f.body, some program, true⟩

lemma bodySettings {p q : Scope} (hp : D.programs p q) (f : Function)
    (hline : D.line (endLine f.body)) : D.Settings (bodySetting f p) (bodySetting f q) :=
  ⟨rfl, rfl, hline, .inr ⟨p, q, rfl, rfl, hp⟩⟩

lemma agree_callWith (hk : D.Steady) (hbinds : D.Binds) {f : Function} (hf : D.callee f)
    {arguments : List Value} (hvalues : ∀ v ∈ arguments, D.value v) {line : Int} (hline : D.line line)
    {body body' : Function → Scope → ConsoleM Value}
    (h : ∀ scope, D.scope scope →
      D.console.Agree (D.stop false) D.value (body f scope) (body' f scope)) :
    D.console.Agree (D.stop false) D.value (callWith body f arguments line)
      (callWith body' f arguments line) := by
  refine (agree_orFail (hbinds hf hvalues hline)).bind fun scope hscope => ?_
  refine (Ground.Agree.of_quiet fun _ => agree_note ?_).bind fun _ _ => (h scope hscope).bind
    fun v hv => (Ground.Agree.of_quiet fun _ => agree_note ?_).bind fun _ _ => .pure hv
  · exact meets_bind (meets_mapM fun v hv => hk.text (hvalues v hv)) fun _ _ => meets_ok trivial
  · exact meets_bind (hk.text hv) fun _ _ => meets_ok trivial

lemma agree_runBodyBy {rule rule' : Rule} (hr : D.Rules rule rule') (hk : D.Steady)
    (hcalls : D.Calls invoke invoke') {p q : Scope} (hp : D.programs p q) {f : Function}
    (hbody : D.Stream f.body) {scope : Scope} (hscope : D.scope scope) :
    D.console.Agree (D.stop false) D.value (runBodyBy rule invoke p f scope)
      (runBodyBy rule' invoke' q f scope) := by
  intro console _
  obtain ⟨hfollows, hends⟩ :=
    run_tokensBy hr hk hcalls hbody (bodySettings hp f) hscope console
  exact ⟨fun c => (hfollows c).onState fun _ => rfl, hends.onState fun _ _ => trivial⟩

/-- **Calls keep a discipline** to any depth, by any two rules that agree; where a cut is allowed,
they may nest deeper in the second evaluation. -/
theorem agree_invokeBy {rule rule' : Rule} (hr : D.Rules rule rule') (hk : D.Steady)
    (hbinds : D.Binds) (hb : D.Bodies) (hdepth : D.exhausted) {depth deeper : Nat}
    (h : depth = deeper ∨ D.cut ∧ depth ≤ deeper) :
    D.Calls (invokeBy rule depth) (invokeBy rule' deeper) := by
  induction depth generalizing deeper with
  | zero =>
    rcases h with rfl | ⟨hcut, -⟩
    · exact fun _ _ _ _ => .throw hdepth
    · exact fun _ _ _ _ c hc => ⟨fun _ => .cut hcut c _, hc, hdepth⟩
  | succ depth ih =>
    cases deeper with
    | zero => omega
    | succ deeper =>
      have hcalls : D.Calls (invokeBy rule depth) (invokeBy rule' deeper) :=
        ih (h.imp (by omega) (And.imp_right (by omega)))
      intro p q f arguments line hp hf hvalues hline
      exact agree_callWith hk hbinds hf hvalues hline fun _ hscope =>
        agree_runBodyBy hr hk hcalls hp (hb hf) hscope

theorem agree_invoke (hk : D.Kept) (hb : D.Bodies) (hdepth : D.exhausted) {depth deeper : Nat}
    (h : depth = deeper ∨ D.cut ∧ depth ≤ deeper) :
    D.Calls (Evaluator.invoke depth) (Evaluator.invoke deeper) := by
  rw [← invokeBy_plainRule]
  exact agree_invokeBy (rules_plainRule hk) hk hk.bindArguments hb hdepth h

abbrev programSetting (tokens : List Token) : Setting := ⟨endLine tokens, none, false⟩

/-- **Programs keep a discipline** in which a scope is compared with itself. -/
theorem run_steady (hr : D.Rules plainRule) (hk : D.Steady) {depth : Nat}
    (hcalls : D.Calls (Evaluator.invoke depth) invoke') (hself : ∀ s, D.scope s → D.programs s s)
    {tokens : List Token} (htokens : D.Stream tokens) {scope : Scope} (hscope : D.scope scope) :
    Follows D.cut D.swap (Frame.under .empty) (runProgram depth tokens scope)
      (run invoke' (programSetting tokens) (frameOf tokens scope .empty)) ∧
    (D.ground tokens.length).Ends (D.stop false) D.value (runProgram depth tokens scope) := by
  have hs (hline : D.line (endLine tokens)) :
      D.Settings (programSetting tokens) (programSetting tokens) :=
    ⟨rfl, rfl, hline, .inl ⟨rfl, rfl, hself⟩⟩
  obtain ⟨hfollows, hends⟩ := run_tokens hr hk hcalls htokens hs hscope .empty
  have h := hfollows .empty
  rw [Console.append_empty] at h
  exact ⟨h, hends⟩

lemma run_program (hk : D.Kept) {depth : Nat} (hcalls : D.Calls (Evaluator.invoke depth) invoke')
    (hself : ∀ s, D.scope s → D.programs s s) {tokens : List Token}
    (htokens : D.Stream tokens) {scope : Scope} (hscope : D.scope scope) :
    Follows D.cut D.swap (Frame.under .empty) (runProgram depth tokens scope)
      (run invoke' (programSetting tokens) (frameOf tokens scope .empty)) ∧
    (D.ground tokens.length).Ends (D.stop false) D.value (runProgram depth tokens scope) :=
  run_steady (rules_plainRule hk) hk hcalls hself htokens hscope

end Hive.Discipline
