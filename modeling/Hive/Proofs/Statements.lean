import Hive.Proofs.Operations

/-!
Comparisons, declarations, assignments, calls and the other statements under a discipline. Each of
them is shown to agree with itself in two settings, given that the expressions nested in it do.
-/

namespace Hive.Discipline

open Evaluator

variable {D : Discipline} {n : Nat} {a b : Setting} {e e' : Evaluation}

/-- **Nested expressions agree**: those that are evaluated from the next token on, with no more than
`n` tokens left. -/
def Nested (D : Discipline) (n : Nat) (a b : Setting) (e e' : Evaluation) : Prop :=
  ∀ m ≤ n, ∀ operators, (D.ground m).Agree (D.stop a.mayReturn) D.value
    (advance a >>= fun t => e t operators) (advance b >>= fun t => e' t operators)

lemma Nested.bind {α : Type} {Q : α → Prop} {k l : Value → EvalM α} (hn : D.Nested n a b e e')
    (operators : Bool)
    (h : ∀ v, D.value v → (D.ground n).Agree (D.stop a.mayReturn) Q (k v) (l v)) :
    (D.ground n).Agree (D.stop a.mayReturn) Q (advance a >>= fun t => e t operators >>= k)
      (advance b >>= fun t => e' t operators >>= l) := by
  have := (hn n (Nat.le_refl n) operators).bind h
  simpa only [bind_assoc] using this

/-! ### Comparisons and assignments -/

lemma agree_compareBy (hk : D.Steady) {op : Token} (hop : D.token op) {left right : Literal}
    (hleft : D.value (some left)) (hright : D.value (some right)) :
    D.console.Agree (D.stop a.mayReturn) D.value (compareBy op left right)
      (compareBy op left right) := by
  unfold compareBy
  split
  · exact agree_fail (hk.line_of_token hop)
  split
  · exact agree_fail (hk.line_of_token hop)
  · refine .of_quiet fun output => (agree_note ?_).bind fun _ _ => .pure (hk.value_bool _)
    exact meets_bind (hk.text hleft) fun _ _ => meets_bind (hk.text hright) fun _ _ => trivial

lemma agree_comparison (hk : D.Steady) (hs : D.Settings a b) (hn : D.Nested n a b e e')
    {first : Token} (hfirst : D.token first) (hvalue : ∃ l, Literal.ofToken first = .ok l) :
    (D.ground n).Agree (D.stop a.mayReturn) D.value (comparison a e first)
      (comparison b e' first) := by
  obtain ⟨left, hleft⟩ := hvalue
  unfold comparison
  rw [hleft]
  refine (agree_advance hk hs).bind fun op hop => hn.bind false fun v hv => ?_
  cases v with
  | none => exact agree_fail (hk.line_of_token hop)
  | some right =>
    exact agree_onConsole (agree_compareBy hk hop (hk.value_ofToken hfirst hleft) hv)

lemma meets_find? (hk : D.Steady) {s : Scope} {name : Token} (hname : D.token name) :
    D.Meets (fun _ => True) (s.find? name.lexeme) :=
  meets_bind (hk.key hname) fun _ _ => trivial

lemma agree_assignment (hk : D.Steady) (hs : D.Settings a b) (hn : D.Nested n a b e e')
    {name : Token} (hname : D.token name) :
    (D.ground n).Agree (D.stop a.mayReturn) D.value (assignment a e name)
      (assignment b e' name) := by
  refine agree_scope.bind fun own _ => ?_
  refine (agree_orHalt (Q := fun _ => True) ?_).bind fun declared _ => ?_
  · refine meets_bind (meets_find? hk hname) fun entry _ => ?_
    split <;> trivial
  refine (agree_ensure (hk.line_of_token hname)).bind fun _ _ => ?_
  refine (agree_advance hk hs).bind fun _ _ => hn.bind true fun v hv => ?_
  refine agree_scope.bind fun own hown => ?_
  refine (agree_orFail (hk.assign hown hname hv)).bind fun p hp => ?_
  refine (agree_setScope hp.2).bind fun _ _ => ?_
  exact (agree_frameNote (meets_bind (hk.text hp.1) fun _ _ => meets_ok trivial)).bind
    fun _ _ => .pure hp.1

/-! ### Functions -/

def parameter (D : Discipline) (p : Parameter) : Prop :=
  D.token p.name ∧ p.name.kind = .identifier ∧ p.type.isTypeName = true

lemma checks_parameter (hk : D.Reading) {function typeToken name : Token} (ht : D.token typeToken)
    (hname : D.token name) :
    D.Checks (fun p => D.parameter p ∧ typeToken.kind.isTypeName = true)
      (Evaluator.parameter function typeToken name) := by
  unfold Evaluator.parameter
  split
  · rename_i h
    exact ⟨⟨hname, h.2, h.1⟩, h.1⟩
  · exact hk.line_of_token ht

/-- A parameter uses up the token of its type, so the budget lasts if it exceeds the number of
tokens left. -/
lemma agree_parameters (hk : D.Reading) (hs : D.Settings a b) (function : Token) {budget : Nat}
    (hbudget : n < budget) :
    (D.ground n).Agree (D.stop a.mayReturn) (fun ps => ∀ p ∈ ps, D.parameter p)
      (parameters a function budget) (parameters b function budget) := by
  induction budget generalizing n with
  | zero => omega
  | succ budget ih =>
    refine agree_advance_bind hk hs fun t m ht _ hm => ?_
    refine (agree_advance hk hs).bind fun name hname => ?_
    refine (agree_orFail (checks_parameter hk ht hname)).bind fun p hp => ?_
    -- a parameter that has been read was not the end, so a token is used up for the next one
    have hend : t.kind ≠ .endOfInput := fun h => by
      rw [h] at hp
      cases hp.2
    have hlt := hm hend
    refine (agree_advance hk hs).bind fun separator hsep => ?_
    split
    · exact .pure (by simpa using hp.1)
    · exact (ih (by omega)).bind fun ps hps => .pure (by simpa using ⟨hp.1, hps⟩)
    · exact agree_fail (hk.line_of_token hsep)

lemma agree_length_bind {α : Type} {E : Stop → Prop} {Q : α → Prop} {k l : Nat → EvalM α}
    (h : ∀ m ≤ n, (D.ground m).Agree E Q (k m) (l m)) :
    (D.ground n).Agree E Q (get >>= fun f : Frame => k f.rest.length)
      (get >>= fun f : Frame => l f.rest.length) := by
  rintro frame ⟨hlen, hf⟩
  obtain ⟨hfollows, hends⟩ := h frame.rest.length hlen frame ⟨Nat.le_refl _, hf⟩
  exact ⟨hfollows, Ends.widen hends hlen⟩

lemma agree_parameterList (hk : D.Reading) (hs : D.Settings a b) (function : Token) :
    (D.ground n).Agree (D.stop a.mayReturn) (fun ps => ∀ p ∈ ps, D.parameter p)
      (parameterList a function) (parameterList b function) := by
  refine (agree_peek hk hs).bind fun t _ => ?_
  split
  · exact (agree_advance hk hs).bind fun _ _ => .pure (by simp)
  · exact agree_length_bind fun m _ => agree_parameters hk hs function (Nat.lt_succ_self m)

lemma agree_functionBody (hk : D.Reading) (hs : D.Settings a b) (function : Token) :
    (D.ground n).Agree (D.stop a.mayReturn)
      (fun body => (∃ opening, D.token opening ∧ opening.kind = .leftBrace) ∧
        (∀ t ∈ body, D.token t ∧ endsBody t.kind = false) ∧
        ∃ closing, D.token closing ∧ closing.kind = .rightBrace)
      (functionBody a function) (functionBody b function) := by
  refine (agree_advance hk hs).bind fun brace hbrace => ?_
  refine (agree_ensure (hk.line_of_token hbrace)).bind fun _ hopens => ?_
  refine (agree_takeUntil endsBody).bind fun body hbody => ?_
  refine (agree_advance hk hs).bind fun closing hclosing => ?_
  exact (agree_ensure (hk.line_of_token hclosing)).bind fun _ h =>
    .pure ⟨⟨brace, hbrace, hopens⟩, hbody, closing, hclosing, h⟩

lemma agree_functionDeclaration (hk : D.Steady) (hs : D.Settings a b) {typeToken name : Token}
    (ht : D.token typeToken) (hname : D.token name) :
    (D.ground n).Agree (D.stop a.mayReturn) D.value (functionDeclaration a typeToken name)
      (functionDeclaration b typeToken name) := by
  refine (agree_ensure (hk.line_of_token ht)).bind fun _ htype => ?_
  refine (agree_ensure (hk.line_of_token hname)).bind fun _ hid => ?_
  refine (agree_advance hk hs).bind fun opening hopening => ?_
  refine (agree_ensure (hk.line_of_token hopening)).bind fun _ _ => ?_
  refine (agree_parameterList hk hs name).bind fun params hparams => ?_
  refine (agree_functionBody hk hs name).bind fun body hbody => ?_
  obtain ⟨hopens, hbody, closing, hclosing, hbrace⟩ := hbody
  have hf : D.Declares ⟨name, typeToken.kind, params, body⟩ closing :=
    ⟨hname, hid, htype, hparams, hopens, hbody, hclosing, hbrace⟩
  refine agree_scope.bind fun own hown => ?_
  refine (agree_orFail (hk.define hown hf)).bind fun s hscope =>
    (agree_setScope hscope).bind fun _ _ => ?_
  exact (agree_frameNote (meets_ok trivial)).bind fun _ _ => .pure hk.value_nil

/-! ### Variables -/

lemma meets_describe (hk : D.Steady) {v : Variable} (hv : D.value v.value) :
    D.Meets (fun _ => True) v.describe :=
  meets_bind (hk.text hv) fun _ _ => meets_ok trivial

lemma agree_variableDeclaration (hk : D.Steady) (hs : D.Settings a b) (hn : D.Nested n a b e e')
    {typeToken name : Token} (htype : typeToken.kind.isTypeName = true) (hname : D.token name)
    (hid : name.kind = .identifier) :
    (D.ground n).Agree (D.stop a.mayReturn) D.value (variableDeclaration a e typeToken name)
      (variableDeclaration b e' typeToken name) := by
  refine (agree_advance hk hs).bind fun following hfollowing => ?_
  refine (agree_ensure (hk.line_of_token hfollowing)).bind fun _ _ => hn.bind true fun v hv => ?_
  refine agree_scope.bind fun own hown => ?_
  refine (agree_orFail (hk.declare hown hname hid htype hv)).bind fun p hp => ?_
  refine (agree_setScope hp.2).bind fun _ _ => ?_
  exact (agree_frameNote (meets_bind (meets_describe hk hp.1) fun _ _ => meets_ok trivial)).bind
    fun _ _ => .pure hk.value_nil

lemma agree_declaration (hk : D.Steady) (hs : D.Settings a b) (hn : D.Nested n a b e e')
    {typeToken : Token} (ht : D.token typeToken) (htype : typeToken.kind.isTypeName = true) :
    (D.ground n).Agree (D.stop a.mayReturn) D.value (declaration a e typeToken)
      (declaration b e' typeToken) := by
  refine (agree_advance hk hs).bind fun name hname => ?_
  refine (agree_ensure (hk.line_of_token hname)).bind fun _ hid => ?_
  refine (agree_peek hk hs).bind fun following _ => ?_
  split
  · exact agree_functionDeclaration hk hs ht hname
  · exact agree_variableDeclaration hk hs hn htype hname hid

/-! ### Calls -/

lemma agree_argument (hn : D.Nested n a b e e') :
    (D.ground n).Agree (D.stop a.mayReturn) D.value (argument a e) (argument b e') := by
  intro frame hf
  obtain ⟨hfollows, hends⟩ := hn n (Nat.le_refl n) true { frame with inArguments := true } hf
  simp only [argument_eq]
  exact ⟨fun c => (hfollows c).onState fun _ => rfl, hends.onState fun _ h => h⟩

/-- A token that is not the end leaves fewer of them where it is found and read. -/
lemma agree_peek_advance {α : Type} {Q : α → Prop} {E : Stop → Prop} {kind : TokenKind}
    {k k' l l' : EvalM α} (hs : D.Settings a b) (hkind : kind ≠ .endOfInput)
    (hthen : ∀ m < n, (D.ground m).Agree E Q k k') (helse : (D.ground n).Agree E Q l l') :
    (D.ground n).Agree E Q
      (peek a >>= fun t => if t.kind = kind then advance a >>= fun _ => k else l)
      (peek b >>= fun t => if t.kind = kind then advance b >>= fun _ => k' else l') := by
  refine agree_peek_bind hs fun f hf t ht => ?_
  by_cases h : t.kind = kind
  · simp only [if_pos h]
    obtain ⟨rest, past, inArguments, own, console⟩ := f
    obtain ⟨hlen, hstream, hscope⟩ := hf
    cases rest with
    | nil => exact absurd (h.symm.trans (congrArg Token.kind ht)) hkind
    | cons u rest =>
      obtain ⟨hfollows, hends⟩ := hthen rest.length hlen ⟨rest, past, inArguments, own, console⟩
        ⟨Nat.le_refl _, hstream.tail, hscope⟩
      exact ⟨hfollows, Ends.widen hends (Nat.le_of_lt hlen)⟩
  · simp only [if_neg h]
    exact helse f hf

/-- The comma before an argument is used up, so the budget lasts if it exceeds the number of tokens
left. -/
lemma agree_arguments (hs : D.Settings a b) (hn : D.Nested n a b e e') {budget : Nat}
    (hbudget : n < budget) :
    (D.ground n).Agree (D.stop a.mayReturn) (fun vs => ∀ v ∈ vs, D.value v)
      (arguments a e budget) (arguments b e' budget) := by
  induction budget generalizing n with
  | zero => omega
  | succ budget ih =>
    refine (agree_argument hn).bind fun v hv => ?_
    refine agree_peek_advance hs (by decide) (fun m hm => ?_) (.pure (by simpa using hv))
    refine (ih (fun m' hm' => hn m' (by omega)) (by omega)).bind fun vs hvs => ?_
    exact .pure (by simpa using ⟨hv, hvs⟩)

lemma agree_argumentList (hk : D.Steady) (hs : D.Settings a b) (hn : D.Nested n a b e e') :
    (D.ground n).Agree (D.stop a.mayReturn) (fun vs => ∀ v ∈ vs, D.value v)
      (argumentList a e) (argumentList b e') := by
  refine (agree_peek hk hs).bind fun t _ => ?_
  split
  · exact .pure (by simp)
  · exact agree_length_bind fun m hm =>
      agree_arguments hs (fun m' hm' => hn m' (by omega)) (Nat.lt_succ_self m)

lemma lookUpFunction_eq (hk : D.Steady) (hs : D.Settings a b) (own : Scope) (name : Token) :
    lookUpFunction b own name = lookUpFunction a own name := by
  unfold lookUpFunction
  rcases hs.program with ⟨ha, hb, -⟩ | ⟨p, q, ha, hb, hpq⟩
  · rw [ha, hb]
  · rw [ha, hb]
    simp only [hk.functionAt_eq hpq]

lemma checks_lookUpFunction (hk : D.Steady) (hs : D.Settings a b) {own : Scope} (hown : D.scope own)
    {name : Token} (hname : D.token name) (hcalled : D.Called name) :
    D.Checks D.callee (lookUpFunction a own name) := by
  unfold lookUpFunction
  rcases hs.program with ⟨ha, -, -⟩ | ⟨p, q, ha, -, hpq⟩
  · rw [ha]
    exact hk.callee_own hown hname hcalled
  · rw [ha]
    refine checks_bind (P := fun _ => True) (checks_ofFault ?_) fun found _ => ?_
    · exact meets_bind (meets_find? hk hname) fun _ _ => meets_ok trivial
    · split
      · exact hk.callee_own hown hname hcalled
      · exact hk.callee_program hpq hname hcalled

/-- The scopes in which functions are looked up are as demanded, at the top and in a call. -/
lemma Settings.programs (hs : D.Settings a b) {own : Scope} (hown : D.scope own) :
    D.programs (a.program.getD own) (b.program.getD own) := by
  rcases hs.program with ⟨ha, hb, h⟩ | ⟨p, q, ha, hb, hpq⟩
  · rw [ha, hb]
    exact h own hown
  · rw [ha, hb]
    exact hpq

lemma agree_call (hk : D.Steady) (hs : D.Settings a b) (hn : D.Nested n a b e e')
    {invoke invoke' : Invocation} (hcalls : D.Calls invoke invoke') {name : Token}
    (hname : D.token name) (hcalled : name.kind = .identifier → D.Called name) :
    (D.ground n).Agree (D.stop a.mayReturn) D.value (call a invoke e name)
      (call b invoke' e' name) := by
  have hline := hk.line_of_token hname
  refine (agree_ensure hline).bind fun _ hid => (agree_peek hk hs).bind fun opening _ => ?_
  refine (agree_ensure hline).bind fun _ _ => agree_scope.bind fun own hown => ?_
  rw [lookUpFunction_eq hk hs]
  refine (agree_orFail (checks_lookUpFunction hk hs hown hname (hcalled hid))).bind fun f hf => ?_
  refine (agree_advance hk hs).bind fun _ _ => ?_
  refine (agree_argumentList hk hs hn).bind fun values hvalues => ?_
  refine (agree_peek hk hs).bind fun closing hclosing => ?_
  refine (agree_ensure (hk.line_of_token hclosing)).bind fun _ _ => ?_
  -- the arguments may have changed the scope, so it is read again
  refine (agree_advance hk hs).bind fun _ _ => agree_scope.bind fun own hown => ?_
  exact agree_onConsole ((hcalls (hs.programs hown) hf hvalues hline).mono_stop
    fun _ => stop_of_false)

/-! ### Other statements -/

lemma agree_output (hk : D.Steady) (hn : D.Nested n a b e e') :
    (D.ground n).Agree (D.stop a.mayReturn) D.value (output a e) (output b e') := by
  refine hn.bind true fun v hv => (agree_orHalt (hk.text hv)).bind fun _ _ => ?_
  exact (agree_onConsole agree_write).bind fun _ _ => .pure hk.value_nil

lemma agree_clear (hk : D.Steady) (hs : D.Settings a b) {first : Token}
    (hclear : first.kind = .keyword .clearWord) {f : Frame} (hf : (D.ground n).holds f)
    (hnext : D.Before first f.rest) :
    (D.ground n).AgreeAt (D.stop a.mayReturn) D.value (clear a) (clear b) f := by
  refine agree_advance_of_next hk hs hf fun name hname hwhere => agree_scope.bind fun own hown => ?_
  have hcleared : D.Cleared name := ⟨first, hclear, by rw [hwhere]; exact hnext (by simp [hclear]) _⟩
  refine (agree_orHalt (hk.erase hown hname hcleared)).bind fun s hscope => ?_
  refine (agree_setScope hscope).bind fun _ _ => ?_
  exact (agree_frameNote (meets_ok trivial)).bind fun _ _ => .pure hk.value_nil

lemma agree_skip (hk : D.Steady) {first : Token} (hfirst : D.token first) :
    (D.ground n).Agree (D.stop a.mayReturn) D.value (skip first) (skip first) := by
  unfold skip
  split
  · split
    · exact (agree_frameNote (meets_ok trivial)).bind fun _ _ => .pure hk.value_nil
    · exact .pure hk.value_nil
  · rename_i hnot
    rcases hk.lexeme hfirst with ⟨s, h⟩ | h
    · exact absurd h (hnot s)
    · exact agree_halt h

lemma agree_reserved (hk : D.Steady) (hs : D.Settings a b) (hn : D.Nested n a b e e') {first : Token}
    (hfirst : D.token first) {f : Frame} (hf : (D.ground n).holds f)
    (hnext : first.kind = .keyword .clearWord → D.Before first f.rest) :
    (D.ground n).AgreeAt (D.stop a.mayReturn) D.value (reserved a e first) (reserved b e' first)
      f := by
  unfold reserved
  split
  · exact agree_output hk hn f hf
  · rename_i hclear
    exact agree_clear hk hs hclear hf (hnext hclear)
  · exact agree_skip hk hfirst f hf

end Hive.Discipline
