import Hive.Proofs.Mirroring

/-!
Evaluation does not depend on names. Each function of the evaluator is mirrored by the same function
on renamed tokens, in a renamed scope. This goes from arithmetic over the statements to expressions,
given that those nested in them and the calls are mirrored, and ends with programs, by induction on
how deep calls nest.
-/

namespace Hive.Renaming

open Evaluator

variable {ρ : Renaming} {s t : Scope}

/-! ### Arithmetic and concatenation -/

lemma mirrors_divide (line : Int) (left right : Literal) :
    Mirrors SameOutput (· = ·) (divide line left right) (divide line left right) := by
  refine .ensure_bind Iff.rfl rfl rfl fun _ => (Mirrors.orHalt_self _).bind ?_
  rintro x _ rfl
  refine (Mirrors.orHalt_self _).bind ?_
  rintro y _ rfl
  exact .pure rfl

lemma mirrors_noteCut (line : Int) (exact : Number) (result : Literal) :
    Mirrors SameOutput (fun _ _ => True) (noteCut line exact result)
      (noteCut line exact result) := by
  unfold noteCut
  split
  · exact .pure trivial
  · exact .note (.refl _)

/-- There are no names in arithmetic on values. -/
lemma mirrors_arithmetic (line : Int) (operator : ArithOp) (left right : Value) :
    Mirrors SameOutput (· = ·) (arithmetic line operator left right)
      (arithmetic line operator left right) := by
  unfold arithmetic
  refine (Mirrors.orFail (.refl _)).bind ?_
  rintro l _ rfl
  refine (Mirrors.orFail (.refl _)).bind ?_
  rintro r _ rfl
  split
  · exact mirrors_divide line l r
  · refine (Mirrors.orHalt_self _).bind ?_
    rintro x _ rfl
    refine (Mirrors.orHalt_self _).bind ?_
    rintro exact _ rfl
    refine (Mirrors.orHalt_self _).bind ?_
    rintro result _ rfl
    exact (mirrors_noteCut line exact result).bind fun _ _ _ => .pure rfl

lemma mirrors_applyOperator (hs : s.Proper) (op : Token) (operator : ArithOp) (left right : Item) :
    Mirrors SameOutput (· = ·) (applyOperator s op operator left right)
      (applyOperator (ρ.scope s) (ρ.token op) operator (ρ.item left) (ρ.item right)) := by
  unfold applyOperator
  rw [token_line]
  refine (Mirrors.orFail (ρ.matches_resolve hs op.line left)).bind ?_
  rintro l _ rfl
  refine (Mirrors.orFail (ρ.matches_resolve hs op.line right)).bind ?_
  rintro r _ rfl
  refine (mirrors_arithmetic op.line operator l r).bind ?_
  rintro v _ rfl
  refine (Mirrors.note ?_).bind fun _ _ _ => .pure rfl
  exact .bind (.refl _) fun _ _ => .bind (.refl _) fun _ _ => .bind (.refl _) fun _ _ => .ok _ _

lemma isClosing_item (i : Item) : isClosing (ρ.item i) = isClosing i := by
  rw [item_eq]
  exact ρ.relabels_token.isClosing i

lemma matches_finish (hs : s.Proper) (line : Int) (items : List Item) :
    Matches (· = ·) (finish s line items) (finish (ρ.scope s) line (items.map ρ.item)) := by
  cases items with
  | nil => exact .fault _
  | cons i more =>
    have hclosing : (more.map ρ.item).all isClosing = more.all isClosing := by
      rw [List.all_map]
      exact congrArg _ (funext isClosing_item)
    rw [List.map_cons, finish, finish, hclosing]
    split
    · exact ρ.matches_resolve hs line i
    · exact .problem rfl

/-- **Renamed items come to the same value**, in a renamed scope. -/
lemma mirrors_operate (hs : s.Proper) (groupLine line : Int) (items : List Item) :
    Mirrors SameOutput (· = ·) (operate s groupLine line items)
      (operate (ρ.scope s) groupLine line (items.map ρ.item)) := by
  -- a reduction looks at kinds only, so the renamed items are reduced at the same places
  fun_induction operate s groupLine line items with
  | case1 line items h =>
    rw [operate_eq (ρ.scope s), ρ.reduction_item, h]
    exact .orFail (matches_finish hs line items)
  | case2 line items opening h =>
    rw [operate_eq (ρ.scope s), ρ.reduction_item, h]
    exact .fail (ρ.token_line opening) rfl
  | case3 line items before inner closing after h ihInner ih =>
    rw [operate_eq (ρ.scope s), ρ.reduction_item, h]
    rw [List.map_append] at ihInner
    refine Mirrors.bind ihInner ?_
    rintro v _ rfl
    have hrest := ih v
    rwa [List.map_append, List.map_cons] at hrest
  | case4 line items op h =>
    rw [operate_eq (ρ.scope s), ρ.reduction_item, h]
    exact .fail (ρ.token_line op) rfl
  | case5 line items before left op operator right after h ih =>
    rw [operate_eq (ρ.scope s), ρ.reduction_item, h]
    refine Mirrors.bind (mirrors_applyOperator hs op operator left right) ?_
    rintro v _ rfl
    have hrest := ih v
    rwa [List.map_append, List.map_cons] at hrest

lemma map_item_token (tokens : List Token) :
    (tokens.map ρ.token).map Item.token = (tokens.map Item.token).map ρ.item := by
  rw [item_eq]
  exact Item.map_relabel_token ρ.token tokens

lemma mirrors_operation (first : Token) :
    Mirrors ρ.Frames (· = ·) (operation first) (operation (ρ.token first)) := by
  refine (Mirrors.collect first).bind ?_
  rintro tokens _ rfl
  have hlast : ((tokens.map ρ.token).getLast?.getD (ρ.token first)).line =
      (tokens.getLast?.getD first).line := by
    rw [List.getLast?_map]
    cases tokens.getLast? <;> exact ρ.token_line _
  refine .scope_bind fun s hs => .onConsole ?_
  rw [hlast, token_line, map_item_token]
  exact mirrors_operate hs _ _ _

lemma matches_join (hs : s.Proper) (line : Int) (items : List Item) :
    Matches (· = ·) (join s line items) (join (ρ.scope s) line (items.map ρ.item)) := by
  fun_induction join s line items with
  | case1 =>
    rw [List.map_nil, join]
    exact .fault _
  | case2 i =>
    rw [List.map_cons, List.map_nil, join]
    exact ρ.matches_resolve hs line i
  | case3 first second more h =>
    rw [List.map_cons, List.map_cons, join_cons_cons, ← List.map_cons, ← List.map_cons,
      firstJoint?_item, h]
    exact .problem rfl
  | case4 first second more dot before left right after h ih =>
    rw [List.map_cons, List.map_cons, join_cons_cons, ← List.map_cons, ← List.map_cons,
      firstJoint?_item, h]
    dsimp only [Option.map_some]
    rw [token_line]
    refine (ρ.matches_resolve hs dot.line left).bind ?_
    rintro l _ rfl
    refine (ρ.matches_resolve hs dot.line right).bind ?_
    rintro r _ rfl
    refine (Matches.refl (joinTexts dot.line l r)).bind ?_
    rintro joined _ rfl
    have hrest := ih joined
    rwa [List.map_append, List.map_cons] at hrest

lemma mirrors_concatenation (first : Token) :
    Mirrors ρ.Frames (· = ·) (concatenation first) (concatenation (ρ.token first)) := by
  refine (Mirrors.collect first).bind ?_
  rintro tokens _ rfl
  refine .scope_bind fun s hs => ?_
  rw [token_line, map_item_token]
  exact .orFail (matches_join hs first.line _)

/-! ### Descriptions -/

lemma sameFault_describe_var (v : Variable) : SameFault v.describe (ρ.var v).describe :=
  .bind (.refl _) fun _ _ => .ok _ _

lemma sameFault_listed (e : Entry) : SameFault e.listed (ρ.entry e).listed := by
  refine .bind ?_ fun _ _ => .ok _ _
  cases e with
  | var v => exact sameFault_describe_var v
  | func f => exact .ok _ _

lemma sameFault_describe (s : Scope) : SameFault s.describe (ρ.scope s).describe := by
  refine .bind ?_ fun _ _ => .ok _ _
  show SameFault (s.entries.mapM fun x => x.2.listed)
    ((s.entries.map fun x => (ρ.datum x.1, ρ.entry x.2)).mapM fun x => x.2.listed)
  induction s.entries with
  | nil => exact .ok _ _
  | cons x entries ih =>
    rw [List.map_cons, List.mapM_cons, List.mapM_cons]
    exact .bind (sameFault_listed x.2) fun _ _ => .bind ih fun _ _ => .ok _ _

/-! ### Statements

The expressions that are nested in a statement are evaluated alike, and so are calls. -/

/-- The second evaluation mirrors the first from every token on. -/
def Evaluations (ρ : Renaming) (e e' : Evaluation) : Prop :=
  ∀ t operators, Mirrors ρ.Frames (· = ·) (e t operators) (e' (ρ.token t) operators)

/-- Calls of a renamed function in the renamed program mirror those of the function. -/
def Invocations (ρ : Renaming) (i i' : Invocation) : Prop :=
  ∀ ⦃program : Scope⦄ ⦃f : Function⦄, program.Proper → f.Proper → ∀ values line,
    Mirrors SameOutput (· = ·) (i program f values line)
      (i' (ρ.scope program) (ρ.func f) values line)

section Statements

variable {a b : Setting} (hset : ρ.Settings a b) {e e' : Evaluation} (he : ρ.Evaluations e e')
  {i i' : Invocation} (hi : ρ.Invocations i i')

lemma mirrors_compareBy (op : Token) (left right : Literal) :
    Mirrors SameOutput (· = ·) (compareBy op left right)
      (compareBy (ρ.token op) left right) := by
  unfold compareBy
  rw [token_kind, token_line]
  cases op.kind.comparator? with
  | none => exact .fail rfl rfl
  | some comparator =>
    dsimp only
    cases comparator.holds? left.datum right.datum with
    | none => exact .fail rfl rfl
    | some holds =>
      refine Mirrors.bind (.note ?_) fun _ _ _ => .pure rfl
      exact .bind (.refl _) fun _ _ => .bind (.refl _) fun _ _ => .ok _ _

include hset he in
lemma mirrors_comparison (first : Token) :
    Mirrors ρ.Frames (· = ·) (comparison a e first) (comparison b e' (ρ.token first)) := by
  unfold comparison
  rw [ofToken_token]
  refine (Mirrors.orHalt_self _).bind ?_
  rintro l _ rfl
  refine .advance_bind hset fun op _ => .advance_bind hset fun t _ => (he t false).bind ?_
  rintro v _ rfl
  cases v with
  | none => exact .fail (ρ.token_line op) rfl
  | some r => exact .onConsole (mirrors_compareBy op l r)

include hset he in
lemma mirrors_assignment {name : Token} (hname : name.kind = .identifier) :
    Mirrors ρ.Frames (· = ·) (assignment a e name) (assignment b e' (ρ.token name)) := by
  refine .scope_bind fun s _ => ?_
  rw [ρ.lexeme_of_kind hname, hasVariable_scope, token_line]
  refine (Mirrors.orHalt_self _).bind ?_
  rintro declared _ rfl
  refine .ensure_bind Iff.rfl rfl rfl fun _ => .advance_bind hset fun _ _ => ?_
  refine .advance_bind hset fun t _ => (he t true).bind ?_
  rintro v _ rfl
  refine .scope_bind fun s hs => (Mirrors.orFail (ρ.matches_assign hs hname v)).bind ?_
  rintro ⟨l, updated⟩ ⟨_, updated'⟩ ⟨rfl, hupdated⟩
  refine (Mirrors.setScope hupdated).bind fun _ _ _ => ?_
  refine (Mirrors.onConsole (.note ?_)).bind fun _ _ _ => .pure rfl
  exact .bind (.refl _) fun _ _ => .ok _ _

/-! ### Declarations -/

lemma matches_parameter (function typeToken name : Token) :
    Matches (fun p q => q = ρ.param p ∧ p.name.kind = .identifier)
      (parameter function typeToken name)
      (parameter (ρ.token function) (ρ.token typeToken) (ρ.token name)) := by
  unfold parameter
  rw [token_kind, token_kind, token_line]
  split
  · rename_i h
    exact ⟨rfl, h.2⟩
  · exact .problem rfl

include hset

lemma mirrors_parameters (function : Token) (budget : Nat) :
    Mirrors ρ.Frames (fun ps qs => qs = ps.map ρ.param ∧ ∀ p ∈ ps, p.name.kind = .identifier)
      (parameters a function budget) (parameters b (ρ.token function) budget) := by
  induction budget with
  | zero => exact .throw trivial
  | succ budget ih =>
    refine .advance_bind hset fun typeToken _ => .advance_bind hset fun name _ => ?_
    refine (Mirrors.orFail (matches_parameter function typeToken name)).bind ?_
    rintro p _ ⟨rfl, hp⟩
    refine .advance_bind hset fun separator _ => ?_
    rw [token_kind, token_line]
    split
    · exact .pure ⟨rfl, by simpa using hp⟩
    · refine ih.bind ?_
      rintro ps _ ⟨rfl, hps⟩
      exact .pure ⟨rfl, by simpa using ⟨hp, hps⟩⟩
    · exact .fail rfl rfl

lemma mirrors_parameterList (function : Token) :
    Mirrors ρ.Frames (fun ps qs => qs = ps.map ρ.param ∧ ∀ p ∈ ps, p.name.kind = .identifier)
      (parameterList a function) (parameterList b (ρ.token function)) := by
  refine .peek_bind hset fun following => ?_
  rw [token_kind]
  split
  · exact .advance_bind hset fun _ _ => .pure ⟨rfl, by simp⟩
  · exact .length_bind fun n => mirrors_parameters hset function (n + 1)

lemma mirrors_functionBody (function : Token) :
    Mirrors ρ.Frames (fun ts us => us = ts.map ρ.token ∧ ∀ t ∈ ts, t.Proper)
      (functionBody a function) (functionBody b (ρ.token function)) := by
  refine .advance_bind hset fun brace _ => ?_
  refine .ensure_bind (by rw [token_kind]) (ρ.token_line brace) rfl fun _ => ?_
  refine (Mirrors.takeUntil endsBody).bind fun body body' hbody => ?_
  refine .advance_bind hset fun closing _ => ?_
  exact .ensure_bind (by rw [token_kind]) (ρ.token_line closing) rfl fun _ => .pure hbody

lemma mirrors_functionDeclaration (typeToken name : Token) :
    Mirrors ρ.Frames (· = ·) (functionDeclaration a typeToken name)
      (functionDeclaration b (ρ.token typeToken) (ρ.token name)) := by
  refine .ensure_bind (by rw [token_kind]) (ρ.token_line typeToken) rfl fun _ => ?_
  refine .ensure_bind (by rw [token_kind]) (ρ.token_line name) rfl fun hname => ?_
  refine .advance_bind hset fun opening _ => ?_
  refine .ensure_bind (by rw [token_kind]) (ρ.token_line opening) rfl fun _ => ?_
  refine (mirrors_parameterList hset name).bind ?_
  rintro params _ ⟨rfl, hparams⟩
  refine (mirrors_functionBody hset name).bind ?_
  rintro body _ ⟨rfl, hbody⟩
  refine .scope_bind fun s hs => ?_
  rw [token_kind]
  have hf : Function.Proper ⟨name, typeToken.kind, params, body⟩ := ⟨hname, hparams, hbody⟩
  refine (Mirrors.orFail (ρ.matches_define hs hf)).bind fun _ _ hdefined => ?_
  refine (Mirrors.setScope hdefined).bind fun _ _ _ => ?_
  exact (Mirrors.onConsole (.note (.ok _ _))).bind fun _ _ _ => .pure rfl

include he

lemma mirrors_variableDeclaration (typeToken : Token) {name : Token}
    (hname : name.kind = .identifier) :
    Mirrors ρ.Frames (· = ·) (variableDeclaration a e typeToken name)
      (variableDeclaration b e' (ρ.token typeToken) (ρ.token name)) := by
  refine .advance_bind hset fun following _ => ?_
  refine .ensure_bind (by rw [token_kind]) (ρ.token_line following) rfl fun _ => ?_
  refine .advance_bind hset fun t _ => (he t true).bind ?_
  rintro v _ rfl
  refine .scope_bind fun s hs => ?_
  rw [token_kind]
  refine (Mirrors.orFail (ρ.matches_declare hs hname typeToken.kind v)).bind ?_
  rintro ⟨w, updated⟩ ⟨_, updated'⟩ ⟨rfl, hupdated⟩
  refine (Mirrors.setScope hupdated).bind fun _ _ _ => ?_
  refine (Mirrors.onConsole (.note ?_)).bind fun _ _ _ => .pure rfl
  exact .bind (sameFault_describe_var w) fun _ _ => .ok _ _

lemma mirrors_declaration (typeToken : Token) :
    Mirrors ρ.Frames (· = ·) (declaration a e typeToken)
      (declaration b e' (ρ.token typeToken)) := by
  refine .advance_bind hset fun name _ => ?_
  refine .ensure_bind (by rw [token_kind]) (ρ.token_line name) rfl fun hname => ?_
  refine .peek_bind hset fun following => ?_
  rw [token_kind]
  split
  · exact mirrors_functionDeclaration hset typeToken name
  · exact mirrors_variableDeclaration hset he typeToken hname

/-! ### Calls -/

lemma mirrors_argument : Mirrors ρ.Frames (· = ·) (argument a e) (argument b e') := by
  intro f g hfg
  rw [argument_eq, argument_eq, hfg.inArguments]
  have hinside : Mirrors ρ.Frames (· = ·) (advance a >>= fun t => e t true)
      (advance b >>= fun t => e' t true) :=
    .advance_bind hset fun t _ => he t true
  have hframes : ρ.Frames { f with inArguments := true } { g with inArguments := true } :=
    ⟨hfg.rest, hfg.proper, hfg.past, rfl, hfg.scope, hfg.output⟩
  refine (hinside _ _ hframes).onState ?_
  exact fun _ _ h => ⟨h.rest, h.proper, h.past, rfl, h.scope, h.output⟩

lemma mirrors_arguments (budget : Nat) :
    Mirrors ρ.Frames (· = ·) (arguments a e budget) (arguments b e' budget) := by
  induction budget with
  | zero => exact .throw trivial
  | succ budget ih =>
    refine (mirrors_argument hset he).bind ?_
    rintro v _ rfl
    refine .peek_bind hset fun following => ?_
    rw [token_kind]
    split
    · refine .advance_bind hset fun _ _ => ih.bind ?_
      rintro vs _ rfl
      exact .pure rfl
    · exact .pure rfl

lemma mirrors_argumentList :
    Mirrors ρ.Frames (· = ·) (argumentList a e) (argumentList b e') := by
  refine .peek_bind hset fun following => ?_
  rw [token_kind]
  split
  · exact .pure rfl
  · exact .length_bind fun n => mirrors_arguments hset he (n + 1)

omit he in
lemma matches_lookUpFunction (hs : s.Proper) {name : Token} (hname : name.kind = .identifier) :
    Matches (fun f g => g = ρ.func f ∧ f.Proper) (lookUpFunction a s name)
      (lookUpFunction b (ρ.scope s) (ρ.token name)) := by
  unfold lookUpFunction
  rw [hset.program]
  cases hprogram : a.program with
  | none => exact ρ.matches_functionAt hs hname
  | some program =>
    dsimp only [Option.map_some]
    rw [ρ.lexeme_of_kind hname, contains_scope]
    refine (Matches.refl _).bind ?_
    rintro found _ rfl
    split
    · exact ρ.matches_functionAt hs hname
    · exact ρ.matches_functionAt (hset.proper program hprogram) hname

omit he in
include hi in
lemma mirrors_callFunction {f : Function} (hf : f.Proper) (values : List Value) (line : Int) :
    Mirrors ρ.Frames (· = ·) (callFunction a i f values line)
      (callFunction b i' (ρ.func f) values line) := by
  refine .scope_bind fun s hs => .onConsole ?_
  rw [hset.program]
  cases hprogram : a.program with
  | none => exact hi hs hf values line
  | some program => exact hi (hset.proper program hprogram) hf values line

include hi in
lemma mirrors_call (name : Token) :
    Mirrors ρ.Frames (· = ·) (call a i e name) (call b i' e' (ρ.token name)) := by
  refine .ensure_bind (by rw [token_kind]) (ρ.token_line name) rfl fun hname => ?_
  refine .peek_bind hset fun opening => ?_
  refine .ensure_bind (by rw [token_kind]) (ρ.token_line name) rfl fun _ => ?_
  refine .scope_bind fun s hs => ?_
  refine (Mirrors.orFail (matches_lookUpFunction hset hs hname)).bind ?_
  rintro f _ ⟨rfl, hf⟩
  refine .advance_bind hset fun _ _ => (mirrors_argumentList hset he).bind ?_
  rintro values _ rfl
  refine .peek_bind hset fun closing => ?_
  refine .ensure_bind (by rw [token_kind]) (ρ.token_line closing) rfl fun _ => ?_
  refine .advance_bind hset fun _ _ => ?_
  rw [token_line]
  exact mirrors_callFunction hset hi hf values name.line

/-! ### Other statements -/

lemma mirrors_output : Mirrors ρ.Frames (· = ·) (output a e) (output b e') := by
  refine .advance_bind hset fun t _ => (he t true).bind ?_
  rintro v _ rfl
  refine (Mirrors.orHalt_self _).bind ?_
  rintro line _ rfl
  exact (Mirrors.onConsole (.write line)).bind fun _ _ _ => .pure rfl

omit he in
/-- Whatever token is named, its lexeme is the name of the same entry as before. -/
lemma mirrors_clear : Mirrors ρ.Frames (· = ·) (clear a) (clear b) := by
  refine .advance_bind hset fun name hname => .scope_bind fun s hs => ?_
  rw [ρ.lexeme_token hname]
  refine Mirrors.bind (V := ρ.Scopes) ?_ fun _ _ hcleared => ?_
  · exact .orHalt (ρ.erase_scope s name.lexeme) fun t ht => ⟨rfl, hs.erase ht⟩
  · refine (Mirrors.setScope hcleared).bind fun _ _ _ => ?_
    exact (Mirrors.onConsole (.note (.ok _ _))).bind fun _ _ _ => .pure rfl

omit hset he in
lemma mirrors_skip (first : Token) : Mirrors ρ.Frames (· = ·) (skip first) (skip first) := by
  unfold skip
  split
  · split
    · exact (Mirrors.onConsole (.note (.ok _ _))).bind fun _ _ _ => .pure rfl
    · exact .pure rfl
  · exact .throw rfl

lemma mirrors_reserved {first : Token} (hfirst : first.kind ≠ .identifier) :
    Mirrors ρ.Frames (· = ·) (reserved a e first) (reserved b e' (ρ.token first)) := by
  unfold reserved
  rw [ρ.token_of_kind hfirst]
  split
  · exact mirrors_output hset he
  · exact mirrors_clear hset
  · exact mirrors_skip first

/-! ### Expressions -/

omit hset he in
lemma mirrors_literal (t : Token) :
    Mirrors ρ.Frames (· = ·) (literal t) (literal (ρ.token t)) := by
  unfold literal
  rw [ofToken_token]
  refine (Mirrors.orHalt_self _).bind ?_
  rintro l _ rfl
  exact .pure rfl

lemma mirrors_number (t : Token) (operators : Bool) :
    Mirrors ρ.Frames (· = ·) (number a e t operators) (number b e' (ρ.token t) operators) := by
  refine .peek_bind hset fun following => ?_
  rw [token_kind]
  dsimp only
  split
  · exact mirrors_operation t
  split
  · exact mirrors_comparison hset he t
  · exact mirrors_literal t

lemma mirrors_string (t : Token) (operators : Bool) :
    Mirrors ρ.Frames (· = ·) (string a e t operators) (string b e' (ρ.token t) operators) := by
  refine .peek_bind hset fun following => ?_
  rw [token_kind]
  dsimp only
  split
  · exact mirrors_concatenation t
  split
  · exact .fail (ρ.token_line t) rfl
  split
  · exact mirrors_comparison hset he t
  · exact mirrors_literal t

lemma mirrors_truth (t : Token) (operators : Bool) :
    Mirrors ρ.Frames (· = ·) (truth a e t operators) (truth b e' (ρ.token t) operators) := by
  refine .peek_bind hset fun following => ?_
  rw [token_kind]
  dsimp only
  split
  · exact mirrors_comparison hset he t
  · exact mirrors_literal t

include hi

lemma mirrors_dispatch {t : Token} (ht : t.kind ≠ .identifier) (operators : Bool) :
    Mirrors ρ.Frames (· = ·) (dispatch i a e t operators)
      (dispatch i' b e' (ρ.token t) operators) := by
  unfold dispatch
  rw [token_kind]
  split
  · exact mirrors_number hset he t operators
  · exact mirrors_number hset he t operators
  · exact mirrors_string hset he t operators
  · exact mirrors_truth hset he t operators
  · exact mirrors_truth hset he t operators
  · exact mirrors_truth hset he t operators
  · exact mirrors_declaration hset he t
  · exact mirrors_operation t
  · refine .advance_bind hset fun typeToken _ => .advance_bind hset fun name _ => ?_
    exact mirrors_functionDeclaration hset typeToken name
  · exact .advance_bind hset fun name _ => mirrors_call hset he hi name
  · rw [hset.mayReturn]
    split
    · refine .advance_bind hset fun u _ => (he u true).bind ?_
      rintro v _ rfl
      exact .throw rfl
    · exact .fail (ρ.token_line t) rfl
  · exact mirrors_reserved hset he ht

/-- **One expression is mirrored** if those nested in it are. -/
lemma evaluations_plainRule : ρ.Evaluations (plainRule i a e) (plainRule i' b e') := by
  intro first operators
  refine .peek_bind hset fun following => ?_
  rw [token_kind, token_kind]
  dsimp only
  split
  · rename_i h
    exact mirrors_assignment hset he h.1
  · refine .scope_bind fun s hs => (Mirrors.orFail (ρ.matches_substitute hs first)).bind ?_
    rintro t _ ⟨rfl, ht⟩
    exact mirrors_dispatch hset he hi ht operators

omit he

lemma evaluations_expression (budget : Nat) :
    ρ.Evaluations (expression i a budget) (expression i' b budget) := by
  induction budget with
  | zero => exact fun _ _ => .throw trivial
  | succ budget ih =>
    intro first operators
    rw [expression_succ, expression_succ]
    exact evaluations_plainRule hset ih hi first operators

lemma evaluations_evaluate : ρ.Evaluations (evaluate i a) (evaluate i' b) := by
  intro first operators f g hfg
  unfold evaluate
  rw [hfg.rest, List.length_map]
  exact evaluations_expression hset hi _ first operators f g hfg

/-! ### Programs -/

lemma mirrors_statements (budget : Nat) (latest : Value) :
    Mirrors ρ.Frames (· = ·) (statements i a budget latest) (statements i' b budget latest) := by
  induction budget generalizing latest with
  | zero => exact .pure rfl
  | succ budget ih =>
    rintro ⟨rest, past, inArguments, own, console⟩ ⟨rest', past', inArguments', own', console'⟩ hfg
    obtain rfl : rest' = rest.map ρ.token := hfg.rest
    cases rest with
    | nil => exact ⟨rfl, hfg⟩
    | cons first rest =>
      have hnext : Mirrors ρ.Frames (· = ·)
          (if first.kind.isTerminator then statements i a budget latest
            else evaluate i a first true >>= statements i a budget)
          (if (ρ.token first).kind.isTerminator then statements i' b budget latest
            else evaluate i' b (ρ.token first) true >>= statements i' b budget) := by
        rw [token_kind]
        split
        · exact ih latest
        · refine (evaluations_evaluate hset hi first true).bind ?_
          rintro v _ rfl
          exact ih v
      exact hnext _ _ hfg.tail

lemma mirrors_run : Mirrors ρ.Frames (· = ·) (run i a) (run i' b) := by
  intro f g hfg
  rw [run_eq, run_eq, hfg.rest, List.length_map]
  exact (mirrors_statements hset hi _ none f g hfg).settled

end Statements

lemma endLine_map (tokens : List Token) : endLine (tokens.map ρ.token) = endLine tokens := by
  unfold endLine
  rw [List.getLast?_map, Option.map_map]
  exact congrArg (Option.getD · 0) (congrArg (Option.map · _) (funext ρ.token_line))

lemma mirrors_runBody {i i' : Invocation} (hi : ρ.Invocations i i') {program : Scope}
    (hprogram : program.Proper) {f : Function} (hf : f.Proper) (hst : ρ.Scopes s t) :
    Mirrors SameOutput (· = ·) (runBody i program f s)
      (runBody i' (ρ.scope program) (ρ.func f) t) := by
  intro c d hcd
  rw [runBody_eq, runBody_eq]
  have hset : ρ.Settings ⟨endLine f.body, some program, true⟩
      ⟨endLine (ρ.func f).body, some (ρ.scope program), true⟩ :=
    ⟨endLine_map f.body, rfl, rfl, fun p hp => Option.some.inj hp ▸ hprogram⟩
  have hframe : ρ.Frames (frameOf f.body s c) (frameOf (ρ.func f).body t d) :=
    ⟨rfl, hf.body, rfl, rfl, hst, hcd⟩
  exact (mirrors_run hset hi _ _ hframe).onState fun _ _ h => h.output

/-- **Calls are mirrored**, however deep they nest. -/
lemma invocations_invoke (depth : Nat) : ρ.Invocations (invoke depth) (invoke depth) := by
  induction depth with
  | zero => exact fun _ _ _ _ _ _ => .throw trivial
  | succ depth ih =>
    intro program f hprogram hf values line
    refine (Mirrors.orFail (ρ.matches_bindArguments hf line values)).bind fun s t hst => ?_
    refine (Mirrors.note (.bind (.refl _) fun _ _ => .ok _ _)).bind fun _ _ _ => ?_
    refine (mirrors_runBody ih hprogram hf hst).bind ?_
    rintro v _ rfl
    exact (Mirrors.note (.bind (.refl _) fun _ _ => .ok _ _)).bind fun _ _ _ => .pure rfl

/-- **A program with new names runs like the program.** -/
lemma mirrored_runProgram (depth : Nat) {tokens : List Token} (htokens : ∀ t ∈ tokens, t.Proper)
    (hs : s.Proper) :
    Mirrored ρ.Frames (· = ·) (runProgram depth tokens s)
      (runProgram depth (tokens.map ρ.token) (ρ.scope s)) := by
  have hset : ρ.Settings ⟨endLine tokens, none, false⟩
      ⟨endLine (tokens.map ρ.token), none, false⟩ :=
    ⟨endLine_map tokens, rfl, rfl, nofun⟩
  have hframe : ρ.Frames (frameOf tokens s .empty)
      (frameOf (tokens.map ρ.token) (ρ.scope s) .empty) :=
    ⟨rfl, htokens, rfl, rfl, ⟨rfl, hs⟩, rfl⟩
  exact mirrors_run hset (invocations_invoke depth) _ _ hframe

end Hive.Renaming
