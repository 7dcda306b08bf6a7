import Hive.Proofs.Carrying

/-!
Evaluation before a joint, function by function: each is carried by the same one with a semicolon
and more tokens after the joint, given that the expressions nested in it are. It follows for whole
texts that, once they have been evaluated, what comes after the joint is evaluated as it is alone.
-/

namespace Hive.Joint

open Evaluator

variable {j : Joint} {a b : Setting} {e e' : Evaluation} {α : Type} {T : Rests}

/-- The settings differ at most in the line of the last token. -/
structure Settings (a b : Setting) : Prop where
  program : b.program = a.program
  mayReturn : b.mayReturn = a.mayReturn

/-- **Nested expressions are carried**, from the next token on. -/
def Nested (j : Joint) (a b : Setting) (e e' : Evaluation) : Prop :=
  ∀ operators, Carries j.around j.before j.around (advance a >>= fun t => e t operators)
    (advance b >>= fun t => e' t operators)

lemma Nested.bind {k l : Value → EvalM α} (hn : j.Nested a b e e') (operators : Bool)
    (hk : ∀ v, Carries j.around j.around T (k v) (l v)) :
    Carries j.around j.before T (advance a >>= fun t => e t operators >>= k)
      (advance b >>= fun t => e' t operators >>= l) := by
  have h := (hn operators).bind hk
  simpa only [bind_assoc] using h

/-! ### Operations, comparisons and assignments -/

lemma carries_operation (first : Token) :
    Carries j.around j.before j.before (operation first) (operation first) :=
  (carries_collect first).bind fun _ => Carries.scope_bind fun own _ =>
    Carries.onConsole (.of_quiet (Quiet.operate own _ _ _))

lemma carries_orFail {S : Rests} (x : Except Failure α) :
    Carries j.around S S (orFail x) (orFail x) := by
  cases x with
  | ok v => exact Carries.pure v
  | error f => exact fun _ _ _ _ _ => trivial

lemma carries_concatenation (first : Token) :
    Carries j.around j.before j.before (concatenation first) (concatenation first) :=
  (carries_collect first).bind fun _ => Carries.scope_bind fun _ _ => carries_orFail _

lemma carries_comparison (hn : j.Nested a b e e') (first op : Token) :
    Carries j.around (j.ahead op) j.around (comparison a e first) (comparison b e' first) := by
  refine Carries.orHalt_bind fun left _ => carries_advance_ahead (hn.bind false fun v => ?_)
  cases v with
  | none => exact Carries.fail _ _ _ _
  | some right => exact Carries.onConsole (.of_quiet (Quiet.compareBy op left right))

lemma carries_note {S : Rests} (level : Nat) (text : Except Fault String) :
    Carries j.around S S (onConsole (note level text)) (onConsole (note level text)) :=
  Carries.onConsole (.of_quiet (Quiet.note level text))

lemma carries_assignment (hn : j.Nested a b e e') (name equal : Token) :
    Carries j.around (j.ahead equal) j.around (assignment a e name) (assignment b e' name) := by
  refine Carries.scope_bind fun own _ => Carries.orHalt_bind fun declared _ =>
    Carries.ensure_bind fun _ => carries_advance_ahead (hn.bind true fun v => ?_)
  refine Carries.scope_bind fun own hown => Carries.orFail_bind fun (l, updated) hassign => ?_
  exact (Carries.setScope (Naming.named_assign hown hassign)).bind fun _ =>
    (carries_note _ _).bind fun _ => Carries.pure _

/-! ### Functions -/

lemma carries_parameters (function : Token) {m n : Nat} (h : m ≤ n) :
    Carries j.around j.before j.before (parameters a function m) (parameters b function n) := by
  induction m generalizing n with
  | zero => exact fun _ _ _ _ _ => trivial
  | succ m ih =>
    obtain ⟨n, rfl⟩ : ∃ n', n = n' + 1 := ⟨n - 1, by omega⟩
    refine carries_advance_token (fun typeToken _ => ?_) fun line =>
      Fails.advance_bind (Fails.orFail_bind (if_neg (by rintro ⟨h, -⟩; cases h)))
    refine carries_advance_token (fun name _ => ?_) fun line =>
      Fails.orFail_bind (if_neg (by rintro ⟨-, h⟩; cases h))
    refine Carries.orFail_bind fun p _ => ?_
    refine carries_advance_token (fun separator _ => ?_) fun line => Fails.fail _ _
    split
    · exact Carries.pure _
    · exact (ih (by omega)).bind fun ps => Carries.pure _
    · exact Carries.fail _ _ _ _

lemma carries_parameterList (function : Token) :
    Carries j.around j.before j.before (parameterList a function) (parameterList b function) := by
  have hmany : Carries j.around j.before j.before
      (do parameters a function ((← get).rest.length + 1))
      (do parameters b function ((← get).rest.length + 1)) :=
    carries_length_bind fun m n h => carries_parameters function (Nat.succ_le_succ h)
  refine carries_peek_bind (fun t => ?_) fun line => hmany.mono_left fun _ _ => before_of_next
  split
  · exact carries_advance_ahead (Carries.pure _)
  · exact hmany.mono_left fun _ _ => before_of_ahead

/-- The body of a function ends before the joint, or not at all. -/
lemma carries_functionBody (function : Token) :
    Carries j.around j.before j.before (functionBody a function) (functionBody b function) := by
  refine carries_advance_token (fun brace _ => ?_) fun line => Fails.ensure_bind nofun
  refine Carries.ensure_bind fun _ => carries_takeUntil_bind rfl (fun body closing => ?_)
    fun body f hf => ?_
  · exact carries_advance_ahead (Carries.ensure_bind fun _ => Carries.pure body)
  · obtain ⟨x, past, inArguments, own, console⟩ := f
    obtain rfl : x = j.tail := hf
    rcases j.isEnd with h | ⟨line, h⟩
    · rw [h]
      trivial
    · rw [h]
      trivial

lemma carries_functionDeclaration (typeToken : Token) {name : Token} (hname : name.Named) :
    Carries j.around j.before j.before (functionDeclaration a typeToken name)
      (functionDeclaration b typeToken name) := by
  refine Carries.ensure_bind fun _ => Carries.ensure_bind fun hid => ?_
  refine carries_advance_token (fun opening _ => ?_) fun line => Fails.ensure_bind nofun
  refine Carries.ensure_bind fun _ => (carries_parameterList name).bind fun params =>
    (carries_functionBody name).bind fun body => ?_
  refine Carries.scope_bind fun own hown => Carries.orFail_bind fun updated hdefine => ?_
  exact (Carries.setScope (Naming.named_define hown (hname hid) hdefine)).bind fun _ =>
    (carries_note _ _).bind fun _ => Carries.pure _

/-- A declaration that starts at the end fails. -/
lemma fails_functionDeclaration (typeToken : Token) (line : Int) :
    Fails (functionDeclaration a typeToken (.atEnd line)) := by
  unfold functionDeclaration ensure
  split
  · exact fun _ _ => trivial
  · exact fun _ _ => trivial

/-! ### Variables -/

lemma carries_variableDeclaration (hn : j.Nested a b e e') (typeToken : Token) {name : Token}
    (hname : name.lexeme.IsName) :
    Carries j.around j.before j.around (variableDeclaration a e typeToken name)
      (variableDeclaration b e' typeToken name) := by
  refine carries_advance_token (fun following _ => ?_) fun line => Fails.ensure_bind nofun
  refine Carries.ensure_bind fun _ => hn.bind true fun v => ?_
  refine Carries.scope_bind fun own hown => Carries.orFail_bind fun (x, updated) hdeclare => ?_
  exact (Carries.setScope (Naming.named_declare hown hname hdeclare)).bind fun _ =>
    (carries_note _ _).bind fun _ => Carries.pure _

lemma carries_declaration (hn : j.Nested a b e e') (typeToken : Token) :
    Carries j.around j.before j.around (declaration a e typeToken)
      (declaration b e' typeToken) := by
  refine carries_advance_token (fun name hname => ?_) fun line => Fails.ensure_bind nofun
  refine Carries.ensure_bind fun hid => ?_
  have hvariable := carries_variableDeclaration hn typeToken (hname hid)
  refine carries_peek_bind (fun t => ?_) fun line => hvariable.mono_left fun _ _ => before_of_next
  split
  · exact (carries_functionDeclaration typeToken hname).mono (fun _ _ => before_of_ahead)
      fun _ _ => .inl
  · exact hvariable.mono_left fun _ _ => before_of_ahead

/-! ### Calls -/

/-- Arguments are read with a mark of their own on the frame, which is taken away again. -/
lemma carries_argument (hn : j.Nested a b e e') :
    Carries j.around j.before j.around (argument a e) (argument b e') := by
  intro i f g hrest halike
  have hinner := hn true true { f with inArguments := true } { g with inArguments := true } hrest
    ⟨⟨rfl, rfl⟩, halike.scope, halike.output, halike.named, halike.past, halike.rest⟩
  unfold argument
  dsimp only
  revert hinner
  cases (advance a >>= fun t => e t true) { f with inArguments := true } with
  | ok v f' =>
    rintro ⟨g', hg', hrest', halike'⟩
    rw [hg']
    exact ⟨_, rfl, hrest', halike.inArguments, halike'.scope, halike'.output, halike'.named,
      halike'.past, halike'.rest⟩
  | error stop f' =>
    cases stop with
    | returned v =>
      rintro ⟨g', hg', halike'⟩
      rw [hg']
      exact ⟨_, rfl, halike.inArguments, halike'.scope, halike'.output, halike'.named,
        halike'.past, halike'.rest⟩
    | failure f => exact fun _ => trivial
    | exhausted => exact fun _ => trivial

/-- Arguments that go on to the joint are of no use, if what comes after them fails at the end. -/
lemma carries_arguments_bind {k l : List Value → EvalM α} (hn : j.Nested a b e e')
    (hk : ∀ vs, Carries j.around j.before T (k vs) (l vs)) (hend : ∀ vs, Fails (k vs)) {m n : Nat}
    (h : m ≤ n) : Carries j.around j.before T (arguments a e m >>= k) (arguments b e' n >>= l) := by
  induction m generalizing n k l with
  | zero => exact fun _ _ _ _ _ => trivial
  | succ m ih =>
    obtain ⟨n, rfl⟩ : ∃ n', n = n' + 1 := ⟨n - 1, by omega⟩
    simp only [arguments, bind_assoc]
    refine (carries_argument hn).bind fun v => carries_around ?_ (carries_of_fails ?_)
    · refine carries_peek_bind (fun t => ?_) fun line =>
        (hk [v]).mono_left fun _ _ => before_of_next
      split
      · simp only [bind_assoc, pure_bind]
        exact carries_advance_ahead (ih (fun vs => hk (v :: vs)) (fun vs => hend (v :: vs))
          (by omega))
      · exact (hk [v]).mono_left fun _ _ => before_of_ahead
    · exact Fails.peek_bind (hend [v])

lemma carries_callFunction {S : Rests} (hs : Settings a b) (depth : Nat) (f : Function)
    (values : List Value) (line : Int) :
    Carries j.around S S (callFunction a (invoke depth) f values line)
      (callFunction b (invoke depth) f values line) := by
  refine Carries.scope_bind fun own _ => ?_
  rw [hs.program]
  refine Carries.onConsole (.of_append fun c => ?_)
  have h := invoke_append (Scope.SameFunctions.refl (a.program.getD own)) depth f values line c
    .empty
  rwa [Console.append_empty] at h

/-- What comes after the arguments of a call. -/
def closeCall (setting : Setting) (invoke : Invocation) (name : Token) (f : Function)
    (values : List Value) : EvalM Value := do
  let closing ← peek setting
  ensure (closing.kind = .rightParen) closing.line
    (.callSyntax name.lexeme (.str ")") closing.lexeme)
  let _ ← advance setting
  callFunction setting invoke f values name.line

lemma carries_closeCall (hs : Settings a b) (depth : Nat) (name : Token) (f : Function)
    (values : List Value) :
    Carries j.around j.before j.before (closeCall a (invoke depth) name f values)
      (closeCall b (invoke depth) name f values) := by
  refine carries_peek_bind (fun closing => ?_) fun line => fun _ _ _ _ _ => trivial
  exact Carries.ensure_bind fun _ =>
    carries_advance_ahead (carries_callFunction hs depth f values name.line)

lemma fails_closeCall (invoke : Invocation) (name : Token) (f : Function) (values : List Value) :
    Fails (closeCall a invoke name f values) :=
  Fails.peek_bind (Fails.ensure_bind nofun)

lemma carries_call (hs : Settings a b) (hn : j.Nested a b e e') (depth : Nat) (name : Token) :
    Carries j.around j.before j.before (call a (invoke depth) e name)
      (call b (invoke depth) e' name) := by
  refine Carries.ensure_bind fun _ => carries_peek_bind (fun opening => ?_) fun line =>
    fun _ _ _ _ _ => trivial
  refine Carries.ensure_bind fun _ => Carries.scope_bind fun own _ => ?_
  have hlookUp : lookUpFunction b own name = lookUpFunction a own name := by
    unfold lookUpFunction
    rw [hs.program]
  rw [hlookUp]
  refine Carries.orFail_bind fun f _ => carries_advance_ahead ?_
  -- more tokens are left in the joined program, so the budgets for arguments differ
  have hmany : Carries j.around j.before j.before
      (do arguments a e ((← get).rest.length + 1) >>= closeCall a (invoke depth) name f)
      (do arguments b e' ((← get).rest.length + 1) >>= closeCall b (invoke depth) name f) :=
    carries_length_bind fun m n h => carries_arguments_bind hn
      (fun vs => carries_closeCall hs depth name f vs) (fun vs => fails_closeCall _ name f vs)
      (Nat.succ_le_succ h)
  show Carries j.around j.before j.before (argumentList a e >>= closeCall a (invoke depth) name f)
    (argumentList b e' >>= closeCall b (invoke depth) name f)
  unfold argumentList
  simp only [bind_assoc]
  refine carries_peek_bind (fun t => ?_) fun line => hmany.mono_left fun _ _ => before_of_next
  split
  · exact (carries_closeCall hs depth name f []).mono_left fun _ _ => before_of_ahead
  · exact hmany.mono_left fun _ _ => before_of_ahead

/-! ### Other statements -/

lemma carries_output (hn : j.Nested a b e e') :
    Carries j.around j.before j.around (output a e) (output b e') :=
  hn.bind true fun _ => Carries.orHalt_bind fun line _ =>
    (Carries.onConsole (.write line)).bind fun _ => Carries.pure _

/-- No entry is under the lexeme of the end or of the semicolon, so at the joint nothing is
removed. -/
lemma carries_clear : Carries j.around j.before j.around (clear a) (clear b) := by
  refine carries_advance_bind (fun name _ => ?_) fun line => ?_
  · refine Carries.scope_bind fun own hown => Carries.orHalt_bind fun updated herase => ?_
    exact ((Carries.setScope (Naming.named_erase hown herase)).bind fun _ =>
      (carries_note _ _).bind fun _ => Carries.pure _).mono (fun _ _ h => h) fun _ _ => .inl
  · refine Carries.scope_bind fun own hown => ?_
    have hend : own.erase (Token.atEnd line).lexeme = .ok own :=
      Naming.erase_eq hown nofun
    have hsemicolon : own.erase (Token.semicolon j.line).lexeme = .ok own :=
      Naming.erase_eq hown (by rintro c ⟨⟩; rfl)
    rw [hend, hsemicolon]
    exact ((Carries.setScope hown).bind fun _ => (Carries.onConsole (.note _ _)).bind fun _ =>
      Carries.pure _).mono (fun _ _ h => h) fun _ _ => .inr

lemma carries_skip {S : Rests} (first : Token) :
    Carries j.around S S (skip first) (skip first) := by
  unfold skip
  split
  · split
    · exact (carries_note _ _).bind fun _ => Carries.pure _
    · exact Carries.pure _
  · exact Carries.halt _

lemma carries_reserved (hn : j.Nested a b e e') (first : Token) :
    Carries j.around j.before j.around (reserved a e first) (reserved b e' first) := by
  unfold reserved
  split
  · exact carries_output hn
  · exact carries_clear
  · exact (carries_skip first).mono (fun _ _ h => h) fun _ _ => .inl

/-! ### Expressions -/

lemma carries_literal {S : Rests} (token : Token) :
    Carries j.around S S (literal token) (literal token) :=
  Carries.orHalt_bind fun _ _ => Carries.pure _

section Operands

variable (hn : j.Nested a b e e') (token : Token) (operators : Bool)

include hn

-- Neither the end nor the semicolon is an operator, so at the joint a literal stands alone.

lemma carries_number :
    Carries j.around j.before j.around (number a e token operators)
      (number b e' token operators) := by
  have hliteral : Carries j.around j.before j.around (literal token) (literal token) :=
    (carries_literal token).mono (fun _ _ h => h) fun _ _ => .inl
  refine carries_peek_bind (fun following => ?_) fun line => ?_
  · dsimp only
    split
    · exact (carries_operation token).mono (fun _ _ => before_of_ahead) fun _ _ => .inl
    split
    · exact carries_comparison hn token following
    · exact hliteral.mono_left fun _ _ => before_of_ahead
  · cases operators <;> exact hliteral.mono_left fun _ _ => before_of_next

lemma carries_string :
    Carries j.around j.before j.around (string a e token operators)
      (string b e' token operators) := by
  have hliteral : Carries j.around j.before j.around (literal token) (literal token) :=
    (carries_literal token).mono (fun _ _ h => h) fun _ _ => .inl
  refine carries_peek_bind (fun following => ?_) fun line => ?_
  · dsimp only
    split
    · exact (carries_concatenation token).mono (fun _ _ => before_of_ahead) fun _ _ => .inl
    split
    · exact Carries.fail _ _ _ _
    split
    · exact carries_comparison hn token following
    · exact hliteral.mono_left fun _ _ => before_of_ahead
  · cases operators <;> exact hliteral.mono_left fun _ _ => before_of_next

lemma carries_truth :
    Carries j.around j.before j.around (truth a e token operators)
      (truth b e' token operators) := by
  have hliteral : Carries j.around j.before j.around (literal token) (literal token) :=
    (carries_literal token).mono (fun _ _ h => h) fun _ _ => .inl
  refine carries_peek_bind (fun following => ?_) fun line => ?_
  · dsimp only
    split
    · exact carries_comparison hn token following
    · exact hliteral.mono_left fun _ _ => before_of_ahead
  · cases operators <;> exact hliteral.mono_left fun _ _ => before_of_next

lemma carries_dispatch (hs : Settings a b) (depth : Nat) :
    Carries j.around j.before j.around (dispatch (invoke depth) a e token operators)
      (dispatch (invoke depth) b e' token operators) := by
  unfold dispatch
  split
  · exact carries_number hn token operators
  · exact carries_number hn token operators
  · exact carries_string hn token operators
  · exact carries_truth hn token operators
  · exact carries_truth hn token operators
  · exact carries_truth hn token operators
  · exact carries_declaration hn token
  · exact (carries_operation token).mono (fun _ _ h => h) fun _ _ => .inl
  · refine carries_advance_token (fun typeToken _ => ?_) fun line =>
      Fails.advance_bind (fails_functionDeclaration _ _)
    refine carries_advance_token (fun name hname => ?_) fun line => fails_functionDeclaration _ _
    exact (carries_functionDeclaration typeToken hname).mono (fun _ _ h => h) fun _ _ => .inl
  · refine carries_advance_token (fun name _ => ?_) fun line => Fails.ensure_bind nofun
    exact (carries_call hs hn depth name).mono (fun _ _ h => h) fun _ _ => .inl
  · rw [hs.mayReturn]
    split
    · exact hn.bind true fun v => Carries.returned v
    · exact Carries.fail _ _ _ _
  · exact carries_reserved hn token

end Operands

lemma expression_terminator (invoke : Invocation) (budget : Nat) {t : Token} {text : String}
    (hkind : t.kind.isTerminator = true) (hlexeme : t.lexeme = .str text)
    (htext : Text.isWord text = false) (operators : Bool) (f : Frame) :
    expression invoke a (budget + 1) t operators f = .ok none f := by
  have hid : t.kind ≠ .identifier := by
    intro h
    rw [h] at hkind
    cases hkind
  have hsub : substitute f.scope t = .ok t := if_neg hid
  have hskip : skip t = pure none := by
    unfold skip
    rw [hlexeme]
    exact if_neg (by simp [htext])
  have hdispatch : dispatch invoke a (expression invoke a budget) t operators = pure none := by
    rw [← hskip]
    revert hkind
    unfold dispatch reserved TokenKind.isTerminator
    cases t.kind <;> simp
  show (if t.kind = .identifier ∧ operators = true ∧
      (f.rest.headD (.atEnd a.endLine)).kind = .equal then
        assignment a (expression invoke a budget) t
      else scope >>= fun own => orFail (substitute own t) >>= fun token =>
        dispatch invoke a (expression invoke a budget) token operators) f = _
  rw [if_neg fun h => hid h.1]
  show (orFail (substitute f.scope t) >>= fun token =>
    dispatch invoke a (expression invoke a budget) token operators) f = _
  rw [hsub]
  show dispatch invoke a (expression invoke a budget) t operators f = _
  rw [hdispatch]
  rfl

/-- At the joint there is no expression: both the end and the semicolon are passed over. -/
lemma carries_expression_joint {m n : Nat} (h : m ≤ n) (invoke : Invocation) (line : Int)
    (operators : Bool) :
    Carries j.around j.after j.after (expression invoke a m (.atEnd line) operators)
      (expression invoke b n (.semicolon j.line) operators) := by
  cases m with
  | zero => exact fun _ _ _ _ _ => trivial
  | succ m =>
    obtain ⟨n, rfl⟩ : ∃ n', n = n' + 1 := ⟨n - 1, by omega⟩
    intro i f g hrest halike
    have hend : Text.isWord "" = false := by decide
    have hsemicolon : Text.isWord ";" = false := by decide +kernel
    rw [expression_terminator invoke m rfl rfl hend, expression_terminator invoke n rfl rfl hsemicolon]
    exact ⟨g, rfl, hrest, halike⟩

/-- **Expressions are carried.** The budget may be greater where more tokens follow. -/
theorem carries_expression (hs : Settings a b) (depth : Nat) {m n : Nat} (h : m ≤ n)
    (first : Token) (operators : Bool) :
    Carries j.around j.before j.around (expression (invoke depth) a m first operators)
      (expression (invoke depth) b n first operators) := by
  induction m generalizing n first operators with
  | zero => exact fun _ _ _ _ _ => trivial
  | succ m ih =>
    obtain ⟨n, rfl⟩ : ∃ n', n = n' + 1 := ⟨n - 1, by omega⟩
    have hmn : m ≤ n := by omega
    -- the end of the first program may be where an operand is looked for: the joined one has the
    -- semicolon there, which comes to nil as the end does
    have hn : j.Nested a b (expression (invoke depth) a m) (expression (invoke depth) b n) := by
      intro operators
      refine carries_advance_bind (fun t _ => ih hmn t operators) fun line => ?_
      exact (carries_expression_joint hmn _ line operators).mono (fun _ _ h => h) fun _ _ => .inr
    have hdispatch : Carries j.around j.before j.around
        (scope >>= fun own => orFail (substitute own first) >>= fun token =>
          dispatch (invoke depth) a (expression (invoke depth) a m) token operators)
        (scope >>= fun own => orFail (substitute own first) >>= fun token =>
          dispatch (invoke depth) b (expression (invoke depth) b n) token operators) :=
      Carries.scope_bind fun own _ => Carries.orFail_bind fun token _ =>
        carries_dispatch hn token operators hs depth
    refine carries_peek_bind (fun following => ?_) fun line => ?_
    · dsimp only
      split
      · exact carries_assignment hn first following
      · exact hdispatch.mono_left fun _ _ => before_of_ahead
    · have hend : ¬(first.kind = .identifier ∧ operators = true ∧
          (Token.atEnd line).kind = .equal) := by
        rintro ⟨-, -, h⟩
        cases h
      have hsemicolon : ¬(first.kind = .identifier ∧ operators = true ∧
          (Token.semicolon j.line).kind = .equal) := by
        rintro ⟨-, -, h⟩
        cases h
      dsimp only
      rw [if_neg hend, if_neg hsemicolon]
      exact hdispatch.mono_left fun _ _ => before_of_next

lemma carries_evaluate (hs : Settings a b) (depth : Nat) (first : Token) (operators : Bool) :
    Carries j.around j.before j.around (evaluate (invoke depth) a first operators)
      (evaluate (invoke depth) b first operators) :=
  carries_length_bind fun _ _ h => carries_expression hs depth (Nat.add_le_add_right h 2) first
    operators

/-! ### Statements -/

end Hive.Joint

namespace Hive.Evaluator

variable {a : Setting} {depth : Nat}

lemma statements_nil (invoke : Invocation) (budget : Nat) (latest : Value) {f : Frame}
    (hf : f.rest = []) : statements invoke a budget latest f = .ok latest f := by
  obtain ⟨rest, past, inArguments, own, console⟩ := f
  obtain rfl : rest = [] := hf
  cases budget <;> rfl

lemma statements_cons (invoke : Invocation) (budget : Nat) (latest : Value) {f : Frame} {t : Token}
    {rest : List Token} (hf : f.rest = t :: rest) :
    statements invoke a (budget + 1) latest f =
      (if t.kind.isTerminator then statements invoke a budget latest
        else evaluate invoke a t true >>= statements invoke a budget) { f with rest := rest } := by
  obtain ⟨tokens, past, inArguments, own, console⟩ := f
  obtain rfl : tokens = t :: rest := hf
  rfl

lemma length_of_evaluate {first : Token} {operators : Bool} {f f' : Frame} {v : Value}
    (h : evaluate (invoke depth) a first operators f = .ok v f') :
    f'.rest.length ≤ f.rest.length := by
  obtain ⟨-, hends⟩ := Discipline.agree_evaluate (n := f.rest.length) free_same (free_settings a)
    (free_calls depth) (trivial : (free _ _ _).token first) operators
    ⟨Nat.le_refl _, free_stream f.rest, trivial⟩ fun _ _ => trivial
  rw [h] at hends
  exact hends.1.1

end Hive.Evaluator

namespace Hive.Joint

open Evaluator

variable {j : Joint} {a b : Setting}

/-- **The second result joins on to the first**: after the same value, the statements beyond the
joint are evaluated; a return is the same one. -/
def Joined (j : Joint) (b : Setting) (depth : Nat) (i : Bool) :
    EStateM.Result Stop Frame Value → EStateM.Result Stop Frame Value → Prop
  | .ok v f, r => ∃ n g, r = statements (invoke depth) b n v g ∧ g.rest = j.more ∧
      j.more.length ≤ n ∧ Alike j.around i f g
  | .error (.returned v) f, r => ∃ g, r = .error (.returned v) g ∧ Alike j.around i f g
  | .error _ _, _ => True

/-- At the joint the first text has come to its end. -/
lemma joined_next (depth : Nat) {m n : Nat} {latest : Value} {i : Bool} {f g : Frame}
    (hm : f.rest.length ≤ m) (hn : g.rest.length ≤ n) (hrest : j.next f.rest g.rest)
    (halike : Alike j.around i f g) :
    Joined j b depth i (statements (invoke depth) a m latest f)
      (statements (invoke depth) b n latest g) := by
  obtain ⟨hf, hg⟩ := hrest
  have hlength : j.more.length + 1 ≤ n := by simpa [hg, rest] using hn
  obtain ⟨n, rfl⟩ : ∃ n', n = n' + 1 := ⟨n - 1, by omega⟩
  rw [statements_cons _ _ _ hg]
  have hlike : Alike j.around i { f with rest := [] } { g with rest := j.more } :=
    ⟨halike.inArguments, halike.scope, halike.output, halike.named, halike.past, .inr ⟨rfl, rfl⟩⟩
  rcases j.isEnd with htail | ⟨line, htail⟩
  · have hnil : f.rest = [] := hf.trans htail
    rw [← hnil] at hlike
    rw [statements_nil _ _ _ hnil]
    exact ⟨n, { g with rest := j.more }, rfl, rfl, by omega, hlike⟩
  · rw [htail] at hf
    obtain ⟨m, rfl⟩ : ∃ m', m = m' + 1 := ⟨m - 1, by rw [hf] at hm; simp at hm; omega⟩
    rw [statements_cons _ _ _ hf]
    have hend : statements (invoke depth) a m latest { f with rest := [] } =
        .ok latest { f with rest := [] } := statements_nil _ _ _ rfl
    show Joined j b depth i (statements (invoke depth) a m latest { f with rest := [] }) _
    rw [hend]
    exact ⟨n, { g with rest := j.more }, rfl, rfl, by omega, hlike⟩

/-- **Statements join on at the joint.** The induction is on the budget of the first text: a
statement of it leaves the joint ahead or has read it. -/
theorem joined_statements (hs : Settings a b) (depth : Nat) {m n : Nat} {latest : Value}
    {i : Bool} {f g : Frame} (hm : f.rest.length ≤ m) (hn : g.rest.length ≤ n)
    (hrest : j.before f.rest g.rest) (halike : Alike j.around i f g) :
    Joined j b depth i (statements (invoke depth) a m latest f)
      (statements (invoke depth) b n latest g) := by
  induction m generalizing n latest f g with
  | zero =>
    rcases before_cases hrest with ⟨t, -, x, y, -, hf, -⟩ | hnext
    · simp [hf] at hm
    · exact joined_next depth hm hn hnext halike
  | succ m ih =>
    rcases before_cases hrest with ⟨t, -, x, y, hxy, hf, hg⟩ | hnext
    · rw [hf] at hm
      rw [hg] at hn
      simp only [List.length_cons] at hm hn
      obtain ⟨n, rfl⟩ : ∃ n', n = n' + 1 := ⟨n - 1, by omega⟩
      have hlike : Alike j.around i { f with rest := x } { g with rest := y } :=
        ⟨halike.inArguments, halike.scope, halike.output, halike.named, halike.past, .inl hxy⟩
      rw [statements_cons _ _ _ hf, statements_cons _ _ _ hg]
      split
      · exact ih (by simp only; omega) (by simp only; omega) hxy hlike
      · have hcarried := carries_evaluate hs depth t true i _ _ hxy hlike
        show Joined j b depth i (EStateM.bind _ _ _) (EStateM.bind _ _ _)
        unfold EStateM.bind
        cases hr : evaluate (invoke depth) a t true { f with rest := x } with
        | ok v f' =>
          rw [hr] at hcarried
          obtain ⟨g', hg', hrest', halike'⟩ := hcarried
          have hf'length := length_of_evaluate hr
          have hg'length := length_of_evaluate hg'
          simp only at hf'length hg'length
          rw [hg']
          dsimp only
          -- either tokens of the first program are left, or the statement has used up its end too
          rcases hrest' with hbefore | ⟨hnil, hmore⟩
          · exact ih (by omega) (by omega) hbefore halike'
          · rw [statements_nil _ _ _ hnil]
            exact ⟨n, g', rfl, hmore, by rw [← hmore]; omega, halike'⟩
        | error stop f' =>
          rw [hr] at hcarried
          cases stop with
          | returned v =>
            obtain ⟨g', hg', halike'⟩ := hcarried
            rw [hg']
            exact ⟨g', rfl, halike'⟩
          | failure e => trivial
          | exhausted => trivial
    · exact joined_next depth hm hn hnext halike

end Hive.Joint
