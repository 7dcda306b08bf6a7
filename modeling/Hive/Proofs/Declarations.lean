import Hive.Proofs.Composition
import Hive.Proofs.Handovers
import Hive.Proofs.Persistence
import Hive.Proofs.Splitting

/-!
Functions from their declaration to a call. A declaration, with `prog` before it or without, stores
the function with its body as it is written, under a name that was free. A call with values then
hands them over to the parameters, and comes to what the body comes to. Main statement:
`runProgram_declared`.
-/

namespace Hive

open Evaluator

/-! ### The tokens of declarations and calls -/

/-- The tokens that declare a parameter: the name of its type, and its own. -/
structure Parameter.SpelledBy (p : Parameter) (tokens : List Token) : Prop where
  declared : p.Declared
  tokens_eq : ∃ typeToken : Token, typeToken.kind = p.type ∧ tokens = [typeToken, p.name]

/-- The tokens that declare a function, from its type on: its name, the parameters between
parentheses and with commas between them, and the body between braces. -/
inductive Function.SpelledBy (f : Function) : List Token → Prop where
  | mk {typeToken opening closing left right : Token} {parts : List (List Token)}
    {list : List Token} (hreturns : f.returns.isTypeName = true)
    (htype : typeToken.kind = f.returns) (hid : f.name.kind = .identifier)
    (hopening : opening.kind = .leftParen)
    (hparts : List.Forall₂ Parameter.SpelledBy f.parameters parts) (hlist : Separated parts list)
    (hclosing : closing.kind = .rightParen) (hleft : left.kind = .leftBrace)
    (hbody : ∀ t ∈ f.body, t.kind ≠ .rightBrace ∧ t.kind ≠ .endOfInput)
    (hright : right.kind = .rightBrace) :
    f.SpelledBy
      (typeToken :: f.name :: opening :: (list ++ closing :: left :: (f.body ++ [right])))

/-- **The tokens that declare a function**, with or without `prog` before them. -/
inductive Function.DeclaredBy (f : Function) : List Token → Prop where
  | plain {tokens : List Token} (h : f.SpelledBy tokens) : f.DeclaredBy tokens
  | prog {word : Token} {tokens : List Token} (hword : word.kind = .keyword .progWord)
    (h : f.SpelledBy tokens) : f.DeclaredBy (word :: tokens)

/-- The token of a text that stands for a literal alone. -/
def Literal.SpelledBy (l : Literal) (tokens : List Token) : Prop :=
  ∃ t : Token, t.Lexed ∧ Literal.ofToken t = .ok l ∧ tokens = [t]

/-- **The tokens that call a function** by its name: `run`, the name, and values between parentheses
and with commas between them. -/
inductive CalledBy (name : Token) (ls : List Literal) : List Token → Prop where
  | mk {word opening closing : Token} {parts : List (List Token)} {list : List Token}
    (hword : word.kind = .keyword .runWord) (hopening : opening.kind = .leftParen)
    (hparts : List.Forall₂ Literal.SpelledBy ls parts) (hlist : Separated parts list)
    (hclosing : closing.kind = .rightParen) :
    CalledBy name ls (word :: name :: opening :: (list ++ [closing]))

/-- There is a part before each comma and one after the last. -/
lemma Separated.length_le {parts : List (List Token)} {list : List Token}
    (h : Separated parts list) : parts.length ≤ list.length + 1 := by
  induction h with
  | none => simp
  | last part => simp
  | more hcomma h ih =>
    simp only [List.length_cons, List.length_append] at ih ⊢
    omega

namespace Declaring

variable {a : Setting} {frame : Frame}

/-! ### Parameters and bodies -/

lemma parameters_succ {p : Parameter} {part after : List Token} {separator function : Token}
    (hp : p.SpelledBy part) (hf : frame.rest = part ++ separator :: after) (n : Nat) :
    parameters a function (n + 1) frame =
      (match separator.kind with
      | .rightParen => pure [p]
      | .comma => parameters a function n >>= fun ps => pure (p :: ps)
      | _ => fail separator.line (.malformedFunctionParameter function.lexeme separator.lexeme) :
          EvalM (List Parameter)) { frame with rest := after } := by
  obtain ⟨hdeclared, typeToken, hkind, rfl⟩ := hp
  have hparameter : parameter function typeToken p.name = .ok p := by
    unfold parameter
    rw [hkind, if_pos ⟨hdeclared.isTypeName, hdeclared.isIdentifier⟩]
  have hread : orFail (.ok p) { frame with rest := separator :: after } =
    .ok p { frame with rest := separator :: after } := rfl
  rw [parameters, bind_of_ok (advance_of_rest hf), bind_of_ok (advance_of_rest rfl), hparameter]
  exact (bind_of_ok hread).trans (bind_of_ok (advance_of_rest rfl))

/-- **The parameters are read**, by induction on the parts between the commas. -/
lemma parameters_of_separated {ps : List Parameter} {parts : List (List Token)}
    {list after : List Token} {closing function : Token} {n : Nat} (hlist : Separated parts list)
    (hparts : List.Forall₂ Parameter.SpelledBy ps parts) (hne : parts ≠ [])
    (hclosing : closing.kind = .rightParen) (hf : frame.rest = list ++ closing :: after)
    (hn : parts.length ≤ n) :
    parameters a function n frame = .ok ps { frame with rest := after } := by
  induction hlist generalizing ps n frame with
  | none => exact absurd rfl hne
  | last part =>
    obtain ⟨n, rfl⟩ : ∃ m, n = m + 1 := Nat.exists_eq_succ_of_ne_zero (by simp at hn; omega)
    rcases hparts with _ | ⟨hp, hrest⟩
    cases hrest
    rw [parameters_succ hp hf, hclosing]
    rfl
  | @more part next list parts comma hcomma hlist ih =>
    obtain ⟨n, rfl⟩ : ∃ m, n = m + 1 := Nat.exists_eq_succ_of_ne_zero (by simp at hn; omega)
    rcases hparts with _ | ⟨hp, hrest⟩
    rw [parameters_succ hp (by simpa using hf), hcomma]
    exact bind_of_ok (ih hrest (by simp) rfl (by simpa using hn))

lemma parameterList_of_separated {ps : List Parameter} {parts : List (List Token)}
    {list after : List Token} {closing function : Token} (hlist : Separated parts list)
    (hparts : List.Forall₂ Parameter.SpelledBy ps parts) (hclosing : closing.kind = .rightParen)
    (hf : frame.rest = list ++ closing :: after) :
    parameterList a function frame = .ok ps { frame with rest := after } := by
  unfold parameterList
  cases hparts with
  | nil =>
    cases hlist
    rw [bind_of_ok (peek_of_rest hf), if_pos hclosing]
    exact bind_of_ok (advance_of_rest hf)
  | @cons p part ps parts hp hps =>
    have hget : (get : EvalM Frame) frame = .ok frame frame := rfl
    have hlength := hlist.length_le
    obtain ⟨rest, rfl⟩ := hlist.exists_append
    obtain ⟨typeToken, htype, rfl⟩ := hp.tokens_eq
    have hkind : typeToken.kind ≠ .rightParen := by
      obtain ⟨type, hp⟩ := exists_of_isTypeName hp.declared.isTypeName
      rw [htype, hp]
      exact nofun
    rw [bind_of_ok (peek_of_rest hf), if_neg hkind, bind_of_ok hget]
    refine parameters_of_separated hlist (.cons hp hps) (by simp) hclosing hf ?_
    rw [hf, List.length_append]
    omega

/-- **The body is read up to the closing brace**, as it is written. -/
lemma functionBody_of_braces {body after : List Token} {left right function : Token}
    (hleft : left.kind = .leftBrace)
    (hbody : ∀ t ∈ body, t.kind ≠ .rightBrace ∧ t.kind ≠ .endOfInput)
    (hright : right.kind = .rightBrace)
    (hf : frame.rest = left :: (body ++ right :: after)) :
    functionBody a function frame = .ok body { frame with rest := after } := by
  have hinside : ∀ t ∈ body, (!endsBody t.kind) = true := by
    intro t ht
    obtain ⟨hbrace, hend⟩ := hbody t ht
    cases hkind : t.kind <;> first | rfl | exact absurd hkind ‹_›
  have hends : ¬(!endsBody right.kind) = true := by
    rw [hright]
    exact nofun
  have htake : takeUntil endsBody { frame with rest := body ++ right :: after } =
      .ok body { frame with rest := right :: after } := by
    unfold takeUntil
    dsimp only
    rw [List.takeWhile_append_of_pos hinside, List.dropWhile_append_of_pos hinside,
      List.takeWhile_cons_of_neg (p := fun t : Token => !endsBody t.kind) hends,
      List.dropWhile_cons_of_neg (p := fun t : Token => !endsBody t.kind) hends, List.append_nil]
  unfold functionBody
  rw [bind_of_ok (advance_of_rest hf), bind_of_ok (ensure_of hleft), bind_of_ok htake,
    bind_of_ok (advance_of_rest rfl), bind_of_ok (ensure_of hright)]
  rfl

/-! ### Declarations -/

variable {f : Function} {key : Json}

def declared (own : Scope) (key : Json) (f : Function) : Scope :=
  ⟨own.entries ++ [(key, .func f)]⟩

lemma define_eq {own : Scope} (hkey : f.name.lexeme.key = .ok key)
    (hfree : Table.get? key own.entries = none) : own.define f = .ok (declared own key f) := by
  have hput : own.put (.func f) = .ok (declared own key f) := by
    have hentry : (Entry.func f).name.lexeme.key = .ok key := hkey
    rw [Scope.put_of_key hentry, Table.insert_of_not_mem (Table.get?_eq_none.1 hfree)]
    rfl
  unfold Scope.define Scope.ensureFree
  rw [Scope.find?_of_key hkey, hfree, hput]
  rfl

/-- The frame after a declaration, of which the tokens after it are left. -/
def declaring (frame : Frame) (key : Json) (f : Function) (after : List Token) : Frame where
  rest := after
  past := frame.past
  inArguments := frame.inArguments
  scope := declared frame.scope key f
  console := { frame.console with
    notes := frame.console.notes ++ [.remark 2 ("define function " ++ f.describe)] }

/-- **A function is declared** from its opening parenthesis on: it is stored with its body as it is
written. -/
lemma functionDeclaration_of_spelled {tokens : List Token} (h : f.SpelledBy tokens)
    (hname : f.name.Names key) :
    ∃ typeToken opening rest, tokens = typeToken :: f.name :: opening :: rest ∧
      typeToken.kind.isTypeName = true ∧ opening.kind = .leftParen ∧
      ∀ (a : Setting) (frame : Frame) (after : List Token),
        Table.get? key frame.scope.entries = none → frame.rest = opening :: (rest ++ after) →
        functionDeclaration a typeToken f.name frame = .ok none (declaring frame key f after) := by
  cases h with
  | @mk typeToken opening closing left right parts list hreturns htype hid hopening hparts hlist
      hclosing hleft hbody hright =>
    have htypeName : typeToken.kind.isTypeName = true := by rw [htype, hreturns]
    refine ⟨typeToken, opening, _, rfl, htypeName, hopening, ?_⟩
    intro a frame after hfree hf
    replace hf : frame.rest =
        opening :: (list ++ closing :: left :: (f.body ++ right :: after)) := by
      rw [hf]
      simp
    have hscope (g : Frame) : Evaluator.scope g = .ok g.scope g := rfl
    have hdefine : orFail (frame.scope.define f) { frame with rest := after } =
        .ok (declared frame.scope key f) { frame with rest := after } := by
      rw [define_eq hname.key_lexeme hfree]
      rfl
    unfold functionDeclaration
    rw [bind_of_ok (ensure_of htypeName), bind_of_ok (ensure_of hid),
      bind_of_ok (advance_of_rest hf), bind_of_ok (ensure_of hopening),
      bind_of_ok (parameterList_of_separated hlist hparts hclosing rfl),
      bind_of_ok (functionBody_of_braces hleft hbody hright rfl), bind_of_ok (hscope _), htype]
    exact bind_of_ok hdefine

/-- **A declaration is evaluated**, with `prog` before it or without. -/
lemma evaluate_declaration {tokens : List Token} (h : f.DeclaredBy tokens)
    (hname : f.name.Names key) :
    ∃ first rest, tokens = first :: rest ∧ first.kind.isTerminator = false ∧
      ∀ (invoke : Invocation) (a : Setting) (frame : Frame) (after : List Token),
        Table.get? key frame.scope.entries = none → frame.rest = rest ++ after →
        evaluate invoke a first true frame = .ok none (declaring frame key f after) := by
  cases h with
  | plain h =>
    obtain ⟨typeToken, opening, rest, rfl, htypeName, hopening, hdeclares⟩ :=
      functionDeclaration_of_spelled h hname
    obtain ⟨type, htype⟩ := exists_of_isTypeName htypeName
    refine ⟨typeToken, _, rfl, by rw [htype]; rfl, ?_⟩
    intro invoke a frame after hfree hf
    let e := expression invoke a (frame.rest.length + 1)
    have hdispatch : dispatch invoke a e typeToken true = declaration a e typeToken := by
      unfold dispatch
      rw [htype]
    show plainRule invoke a e typeToken true frame = _
    rw [plainRule_of_kind (by simp [htype]), hdispatch,
      declaration_of_opening hname.isIdentifier hopening hf]
    exact hdeclares a _ after hfree rfl
  | @prog word tokens hword h =>
    obtain ⟨typeToken, opening, rest, rfl, -, -, hdeclares⟩ :=
      functionDeclaration_of_spelled h hname
    refine ⟨word, _, rfl, by rw [hword]; rfl, ?_⟩
    intro invoke a frame after hfree hf
    let e := expression invoke a (frame.rest.length + 1)
    have hdispatch : dispatch invoke a e word true = advance a >>= fun typeToken =>
        advance a >>= fun name => functionDeclaration a typeToken name := by
      unfold dispatch
      rw [hword]
    -- after the word, the type and the name are read without a look at what follows
    show plainRule invoke a e word true frame = _
    rw [plainRule_of_kind (by simp [hword]), hdispatch, bind_of_ok (advance_of_rest hf),
      bind_of_ok (advance_of_rest rfl)]
    exact hdeclares a _ after hfree rfl

/-! ### Calls -/

section Values

variable {invoke : Invocation} {m : Nat}

/-- A token that stands for a literal is evaluated to it, if no operator follows. -/
lemma dispatch_of_literal {e : Evaluation} {t mark : Token} {l : Literal} {after : List Token}
    (hl : Literal.ofToken t = .ok l) (hmark : mark.kind = .comma ∨ mark.kind = .rightParen)
    (hf : frame.rest = mark :: after) :
    dispatch invoke a e t true frame = .ok (some l) frame := by
  have hliteral : literal t frame = .ok (some l) frame := by
    unfold literal
    rw [hl]
    rfl
  -- the mark is neither an operator nor a dot, so the literal is the whole argument
  have hnone : mark.kind.isArithmetic = false ∧ mark.kind.isComparison = false ∧
      (mark.kind == .dot) = false := by
    rcases hmark with h | h <;> rw [h] <;> exact ⟨rfl, rfl, rfl⟩
  have hnumber : number a e t true frame = .ok (some l) frame := by
    unfold number
    rw [bind_of_ok (peek_of_rest hf)]
    simp only [hnone.1, hnone.2.1, Bool.and_false, Bool.false_eq_true, if_false]
    exact hliteral
  have hstring : string a e t true frame = .ok (some l) frame := by
    unfold string
    rw [bind_of_ok (peek_of_rest hf)]
    simp only [hnone.1, hnone.2.1, hnone.2.2, Bool.and_false, Bool.false_eq_true, if_false]
    exact hliteral
  have htruth : truth a e t true frame = .ok (some l) frame := by
    unfold truth
    rw [bind_of_ok (peek_of_rest hf)]
    simp only [hnone.2.1, Bool.and_false, Bool.false_eq_true, if_false]
    exact hliteral
  unfold dispatch
  unfold Literal.ofToken at hl
  split at hl
  · rename_i hkind
    rw [hkind]
    exact htruth
  · rename_i hkind
    rw [hkind]
    exact htruth
  · rename_i type hkind
    rw [hkind]
    cases type with
    | int => exact hnumber
    | flt => exact hnumber
    | str => exact hstring
    | bool => exact htruth
  · cases hl

lemma argument_of_spelled {l : Literal} {part after : List Token} {mark : Token}
    (hl : l.SpelledBy part) (hmark : mark.kind = .comma ∨ mark.kind = .rightParen)
    (hf : frame.rest = part ++ mark :: after) :
    argument a (expression invoke a (m + 1)) frame =
      .ok (some l) { frame with rest := mark :: after } := by
  obtain ⟨t, -, ht, rfl⟩ := hl
  have hid : t.kind ≠ .identifier := by
    intro h
    unfold Literal.ofToken at ht
    rw [h] at ht
    cases ht
  have hfirst : advance a { frame with inArguments := true } =
      .ok t { frame with rest := mark :: after, inArguments := true } := advance_of_rest hf
  have hvalue : dispatch invoke a (expression invoke a m) t true
      { frame with rest := mark :: after, inArguments := true } =
        .ok (some l) { frame with rest := mark :: after, inArguments := true } :=
    dispatch_of_literal ht hmark rfl
  rw [argument_eq, bind_of_ok hfirst, expression_succ, plainRule_of_kind hid, hvalue]
  rfl

/-- **The values are read**, by induction on the parts between the commas. -/
lemma arguments_of_separated {ls : List Literal} {parts : List (List Token)}
    {list after : List Token} {closing : Token} {n : Nat} (hlist : Separated parts list)
    (hparts : List.Forall₂ Literal.SpelledBy ls parts) (hne : parts ≠ [])
    (hclosing : closing.kind = .rightParen) (hf : frame.rest = list ++ closing :: after)
    (hn : parts.length ≤ n) :
    arguments a (expression invoke a (m + 1)) n frame =
      .ok (ls.map some) { frame with rest := closing :: after } := by
  induction hlist generalizing ls n frame with
  | none => exact absurd rfl hne
  | last part =>
    obtain ⟨n, rfl⟩ : ∃ m, n = m + 1 := Nat.exists_eq_succ_of_ne_zero (by simp at hn; omega)
    rcases hparts with _ | ⟨hl, hrest⟩
    cases hrest
    have hnext : closing.kind ≠ .comma := by
      rw [hclosing]
      exact nofun
    rw [arguments, bind_of_ok (argument_of_spelled hl (.inr hclosing) hf),
      bind_of_ok (peek_of_rest rfl), if_neg hnext]
    rfl
  | @more part next list parts comma hcomma hlist ih =>
    obtain ⟨n, rfl⟩ : ∃ m, n = m + 1 := Nat.exists_eq_succ_of_ne_zero (by simp at hn; omega)
    rcases hparts with _ | ⟨hl, hrest⟩
    rw [arguments, bind_of_ok (argument_of_spelled hl (.inl hcomma) (by simpa using hf)),
      bind_of_ok (peek_of_rest rfl), if_pos hcomma, bind_of_ok (advance_of_rest rfl)]
    exact bind_of_ok (ih hrest (by simp) rfl (by simpa using hn))

lemma argumentList_of_separated {ls : List Literal} {parts : List (List Token)}
    {list after : List Token} {closing : Token} (hlist : Separated parts list)
    (hparts : List.Forall₂ Literal.SpelledBy ls parts) (hclosing : closing.kind = .rightParen)
    (hf : frame.rest = list ++ closing :: after) :
    argumentList a (expression invoke a (m + 1)) frame =
      .ok (ls.map some) { frame with rest := closing :: after } := by
  cases hparts with
  | nil =>
    cases hlist
    unfold argumentList
    rw [bind_of_ok (peek_of_rest hf), if_pos hclosing]
    show EStateM.Result.ok [] frame = .ok [] { frame with rest := [] ++ closing :: after }
    rw [← hf]
  | @cons l part ls parts hl hls =>
    have hlength := hlist.length_le
    obtain ⟨rest, rfl⟩ := hlist.exists_append
    obtain ⟨t, hlexed, ht, rfl⟩ := hl
    have hkind : t.kind ≠ .rightParen := by
      intro h
      unfold Literal.ofToken at ht
      rw [h] at ht
      cases ht
    rw [Splitting.argumentList_eq (by rw [hf]; exact hkind)]
    refine arguments_of_separated hlist (.cons ⟨t, hlexed, ht, rfl⟩ hls) (by simp) hclosing hf ?_
    rw [hf, List.length_append]
    omega

end Values

/-- **A call with values is evaluated** in the scope of a program that has the function. -/
lemma evaluate_call {name : Token} {ls : List Literal} {tokens : List Token}
    (h : CalledBy name ls tokens) (hid : name.kind = .identifier) :
    ∃ first rest, tokens = first :: rest ∧ first.kind.isTerminator = false ∧
      ∀ (depth : Nat) (a : Setting) (frame : Frame) (after : List Token), a.program = none →
        frame.scope.functionAt name = .ok f → frame.rest = rest ++ after →
        evaluate (invoke depth) a first true frame =
          ({ frame with rest := after } : Frame).receives
            (invoke depth frame.scope f (ls.map some) name.line .empty) := by
  cases h with
  | @mk word opening closing parts list hword hopening hparts hlist hclosing =>
    refine ⟨word, _, rfl, by rw [hword]; rfl, ?_⟩
    intro depth a frame after hprogram hfound hf
    replace hf : frame.rest = name :: opening :: (list ++ closing :: after) := by
      rw [hf]
      simp
    have hlookUp : lookUpFunction a frame.scope name = .ok f := by
      unfold lookUpFunction
      rw [hprogram]
      exact hfound
    show plainRule _ a (expression _ a (frame.rest.length + 1)) word true frame = _
    rw [plainRule_run hword hf, call_of_opening hid hopening rfl, hlookUp, bind_of_ok (orFail_ok f),
      callFound_of_arguments rfl (argumentList_of_separated hlist hparts hclosing rfl) rfl hclosing,
      programOf_of_none hprogram]

/-! ### Declared functions and values -/

lemma declared_of_declaredBy {tokens : List Token} (h : f.DeclaredBy tokens) :
    ∀ p ∈ f.parameters, p.Declared := by
  have hspelled {tokens : List Token} (h : f.SpelledBy tokens) :
      ∀ p ∈ f.parameters, p.Declared := by
    cases h with
    | mk _ _ _ _ hparts =>
      exact ((List.forall₂_and_left _ _).1 (hparts.imp fun p part hp => ⟨hp.declared, hp⟩)).1
  cases h with
  | plain h => exact hspelled h
  | prog _ h => exact hspelled h

/-- The values of a call are what they seem, and can be printed. -/
lemma printable_of_calledBy {name : Token} {ls : List Literal} {tokens : List Token}
    (h : CalledBy name ls tokens) : ∀ l ∈ ls, l.isSound = true ∧ Value.Printable (some l) := by
  have hvalue (l : Literal) (part : List Token) (hl : l.SpelledBy part) :
      l.isSound = true ∧ Value.Printable (some l) := by
    obtain ⟨t, ⟨source, tokens, hlex, hmem⟩, ht, -⟩ := hl
    exact ⟨(Token.sound_lex hlex t hmem).2 l ht, Token.printable_lex hlex t hmem l ht⟩
  cases h with
  | mk _ _ hparts =>
    exact ((List.forall₂_and_left _ _).1 (hparts.imp fun l part hl => ⟨hvalue l part hl, hl⟩)).1

lemma functionAt_declared {own : Scope} {name : Token} (hname : name.Names key)
    (hfree : Table.get? key own.entries = none) :
    (declared own key f).functionAt name = .ok f := by
  have hget : Table.get? key (declared own key f).entries = some (.func f) := by
    unfold declared
    rw [Table.get?_append, hfree]
    simp [Table.get?]
  rw [Scope.functionAt_of_key hname.key_lexeme, hget]

lemma printing_declared {own : Scope} (hname : f.name.Names key) (hown : printing.scope own)
    (hbody : ∀ t ∈ f.body, t.Printable) : printing.scope (declared own key f) := by
  intro x hx
  rcases List.mem_append.1 hx with hx | hx
  · exact hown x hx
  · obtain rfl := List.mem_singleton.1 hx
    exact ⟨hname.key_lexeme, hbody⟩

lemma invoke_ne_returned {depth : Nat} {program : Scope} {values : List Value} {line : Int}
    {c d : Console} {v : Value} :
    invoke depth program f values line c ≠ .error (.returned v) d := by
  intro h
  obtain ⟨-, hends⟩ := free_calls depth (Scope.SameFunctions.refl program) trivial
    (fun _ _ => trivial) trivial c trivial
  rw [h] at hends
  exact absurd hends.2.1 Bool.false_ne_true

/-- **A declaration and a call of what it declares**, and then terminators: the call is made from a
frame in which nothing has happened but the declaration. -/
lemma runProgram_eq (depth : Nat) {own : Scope} {name : Token} {ls : List Literal}
    {declaration call tail : List Token} (hf : f.DeclaredBy declaration) (hkey : f.name.Names key)
    (hfree : Table.get? key own.entries = none) (hcall : CalledBy name ls call)
    (hname : name.Names key) (htail : hasStatement tail = false) :
    ∃ ready : Frame, ready.scope = declared own key f ∧ ready.console.output = [] ∧
      seen (runProgram depth (declaration ++ call ++ tail) own) = seen (ready.receives
        (invoke depth (declared own key f) f (ls.map some) name.line .empty)) ∧
      (lastFrame (runProgram depth (declaration ++ call ++ tail) own)).scope = ready.scope := by
  obtain ⟨first, rest, rfl, hfirst, hdeclares⟩ := evaluate_declaration hf hkey
  obtain ⟨second, more, rfl, hsecond, hcalls⟩ := evaluate_call (f := f) hcall hname.isIdentifier
  let after := more ++ tail
  let tokens := first :: (rest ++ second :: after)
  let a : Setting := Discipline.programSetting tokens
  let start : Frame := frameOf (rest ++ second :: after) own .empty
  let ready : Frame := declaring start key f tail
  have htokens : first :: rest ++ second :: more ++ tail = tokens := by simp [tokens, after]
  obtain ⟨n, hn⟩ : ∃ n, (rest ++ second :: after).length = n + 1 :=
    ⟨rest.length + after.length, by simp; omega⟩
  have hlength : tail.length ≤ n := by
    simp only [List.length_append, List.length_cons, after] at hn
    omega
  -- the first statement declares the function, the second one calls it, and none is left
  have hdeclared : statements (invoke depth) a tokens.length none (frameOf tokens own .empty) =
      statements (invoke depth) a (n + 1) none (declaring start key f (second :: after)) := by
    rw [← hn]
    refine (statements_cons _ _ _ rfl).trans ?_
    rw [if_neg (by simp [hfirst])]
    exact bind_of_ok (hdeclares _ a start (second :: after) hfree rfl)
  have hcalled : statements (invoke depth) a (n + 1) none
      (declaring start key f (second :: after)) =
        (evaluate (invoke depth) a second true >>=
          statements (invoke depth) a n) (declaring start key f after) := by
    refine (statements_cons _ _ _ rfl).trans ?_
    rw [if_neg (by simp [hsecond])]
    rfl
  have hvalue : evaluate (invoke depth) a second true (declaring start key f after) =
      ready.receives
        (invoke depth (declared own key f) f (ls.map some) name.line .empty) :=
    hcalls depth a (declaring start key f after) tail rfl (functionAt_declared hname hfree) rfl
  have hrun : runProgram depth tokens own = settled ((evaluate (invoke depth) a second true >>=
      statements (invoke depth) a n) (declaring start key f after)) := by
    rw [← hcalled, ← hdeclared]
    exact run_eq _ _ _
  refine ⟨ready, rfl, rfl, ?_⟩
  rw [htokens, hrun]
  cases hr : invoke depth (declared own key f) f (ls.map some) name.line .empty with
  | ok v c =>
    rw [hr] at hvalue
    rw [bind_of_ok hvalue, statements_terminators _ hlength htail]
    exact ⟨rfl, rfl⟩
  | error e c =>
    rw [hr] at hvalue
    rw [bind_of_error hvalue]
    cases e with
    -- a return ends the body it is in and does not get out of the call
    | returned v => exact absurd hr invoke_ne_returned
    | failure e => exact ⟨rfl, rfl⟩
    | exhausted => exact ⟨rfl, rfl⟩

end Declaring

open Declaring

/-- **A function that has been declared can be called.** Let a program declare a function, with
`prog` before it or without, under a name that is free, and then call it with values of a text. The
program is left with the function at the end of its entries. The call is reported if there are more
or fewer values than parameters, and then at the first parameter that cannot take its value or has a
name that is no key. Otherwise it comes to what its body comes to, with the same output, where the
body may return and runs in a scope in which the parameters hold what they have taken.

The value of the body is noted, for which it must have a printed form. It does if all values of the
program and of the body do, as they do in texts. -/
theorem runProgram_declared {depth : Nat} {own : Scope} {f : Function} {key : Json} {name : Token}
    {ls : List Literal} {declaration call tail : List Token} (hf : f.DeclaredBy declaration)
    (hkey : f.name.Names key) (hfree : Table.get? key own.entries = none)
    (hcall : CalledBy name ls call) (hname : name.Names key) (htail : hasStatement tail = false) :
    let program : Scope := ⟨own.entries ++ [(key, .func f)]⟩
    let body (held : Scope) := seen (run (invoke depth) ⟨endLine f.body, some program, true⟩
      (frameOf f.body held .empty))
    let r := runProgram (depth + 1) (declaration ++ call ++ tail) own
    (lastFrame r).scope = program ∧
      seen r = f.calledWith name.line ls (fun held => noted (body held)) ∧
      (printing.scope own → (∀ t ∈ f.body, t.Printable) →
        seen r = f.calledWith name.line ls body) := by
  intro program body r
  obtain ⟨ready, hscope, houtput, hseen, hlast⟩ :=
    runProgram_eq (depth + 1) hf hkey hfree hcall hname htail
  have hparameters := declared_of_declaredBy hf
  have hvalues := printable_of_calledBy hcall
  have hcalled : seen r = f.calledWith name.line ls (fun held => noted (body held)) := by
    rw [← entered_literals hparameters hvalues]
    refine (hseen.trans (seen_invoke ready)).trans ?_
    rw [houtput]
    rfl
  refine ⟨hlast.trans hscope, hcalled, ?_⟩
  -- what is printable has a text, so the note on the result cannot fail
  intro hown hbody
  rw [hcalled]
  exact calledWith_noted (printing_declared hkey hown hbody) hbody hparameters hvalues

section Mixed

/-- The function `flt mix(int a, flt b, int a)`, which has two parameters of one name. -/
def mix : Function where
  name := plainToken .identifier "mix"
  returns := .typeName .flt
  parameters := [⟨plainToken .identifier "a", .typeName .int⟩,
    ⟨plainToken .identifier "b", .typeName .flt⟩, ⟨plainToken .identifier "a", .typeName .int⟩]
  body := Token.ofText "output b; return a / 2"

def mixTokens : List Token :=
  Token.ofText "flt mix(int a, flt b, int a) \x7b output b; return a / 2 \x7d"

def mixCall : List Token := Token.ofText "run mix(1, 2, 6)"

lemma mix_spelledBy : mix.SpelledBy mixTokens := by
  let comma := plainToken .comma ","
  let parts := [Token.ofText "int a", Token.ofText "flt b", Token.ofText "int a"]
  have htokens : mixTokens = plainToken (.typeName .flt) "flt" :: mix.name ::
      plainToken .leftParen "(" :: ((Token.ofText "int a" ++ comma ::
        (Token.ofText "flt b" ++ comma :: Token.ofText "int a")) ++ plainToken .rightParen ")" ::
          plainToken .leftBrace "\x7b" :: (mix.body ++ [plainToken .rightBrace "\x7d"])) := by
    decide +kernel
  have hparameter {p : Parameter} {part : List Token} (t : Token) (hkind : t.kind = p.type)
      (htype : p.type.isTypeName = true) (hid : p.name.kind = .identifier)
      (hpart : part = [t, p.name]) : p.SpelledBy part :=
    ⟨⟨htype, hid⟩, t, hkind, hpart⟩
  have hparts : List.Forall₂ Parameter.SpelledBy mix.parameters parts :=
    .cons (hparameter (plainToken (.typeName .int) "int") rfl rfl rfl (by decide +kernel))
      (.cons (hparameter (plainToken (.typeName .flt) "flt") rfl rfl rfl (by decide +kernel))
        (.cons (hparameter (plainToken (.typeName .int) "int") rfl rfl rfl (by decide +kernel))
          .nil))
  rw [htokens]
  exact .mk rfl rfl rfl rfl hparts (.more rfl (.more rfl (.last _))) rfl rfl (by decide +kernel) rfl

lemma spelledBy_ofText {n : Int} {source : String} (t : Token)
    (ht : Literal.ofToken t = .ok (.int n)) (hpart : Token.ofText source = [t]) :
    (Literal.int n).SpelledBy (Token.ofText source) :=
  ⟨t, Token.lexed_ofText (hpart ▸ List.mem_singleton_self t), ht, hpart⟩

lemma mix_calledBy :
    CalledBy (plainToken .identifier "mix") [.int 1, .int 2, .int 6] mixCall := by
  let comma := plainToken .comma ","
  have hcall : mixCall = plainToken (.keyword .runWord) "run" :: plainToken .identifier "mix" ::
      plainToken .leftParen "(" :: ((Token.ofText "1" ++ comma :: (Token.ofText "2" ++ comma ::
        Token.ofText "6")) ++ [plainToken .rightParen ")"]) := by
    decide +kernel
  have hone : (Literal.int 1).SpelledBy (Token.ofText "1") :=
    spelledBy_ofText ⟨.literal .int, .str "1", .int 1, 1⟩ rfl (by decide +kernel)
  have htwo : (Literal.int 2).SpelledBy (Token.ofText "2") :=
    spelledBy_ofText ⟨.literal .int, .str "2", .int 2, 1⟩ rfl (by decide +kernel)
  have hsix : (Literal.int 6).SpelledBy (Token.ofText "6") :=
    spelledBy_ofText ⟨.literal .int, .str "6", .int 6, 1⟩ rfl (by decide +kernel)
  have hparts : List.Forall₂ Literal.SpelledBy [.int 1, .int 2, .int 6]
      [Token.ofText "1", Token.ofText "2", Token.ofText "6"] :=
    .cons hone (.cons htwo (.cons hsix .nil))
  rw [hcall]
  exact .mk rfl rfl hparts (.more rfl (.more rfl (.last _))) rfl

theorem runProgram_declared_mix :
    let declaration := plainToken (.keyword .progWord) "prog" :: mixTokens
    let r := runProgram 3 (declaration ++ mixCall ++ [.semicolon 1]) bareProgram
    let program : Scope := ⟨bareProgram.entries ++ [(.str "mix", .func mix)]⟩
    mix.DeclaredBy declaration ∧
      CalledBy (plainToken .identifier "mix") [.int 1, .int 2, .int 6] mixCall ∧
      Table.get? (.str "mix") bareProgram.entries = none ∧ printing.scope bareProgram ∧
      (∀ t ∈ mix.body, t.Printable) ∧ (lastFrame r).scope = program ∧
      seen r = mix.calledWith 1 [.int 1, .int 2, .int 6] (fun held =>
        seen (run (invoke 2) ⟨endLine mix.body, some program, true⟩
          (frameOf mix.body held .empty))) ∧
      seen r = (.ok (some (.flt (Binary64.round false 3 1))), ["2.0"]) := by
  intro declaration r program
  have hdeclared : mix.DeclaredBy declaration := .prog rfl mix_spelledBy
  have hfree : Table.get? (.str "mix") bareProgram.entries = none := by decide +kernel
  obtain ⟨hscope, -, hseen⟩ : (lastFrame r).scope = program ∧ seen r = _ ∧ _ :=
    runProgram_declared hdeclared ⟨rfl, rfl⟩ hfree mix_calledBy ⟨rfl, rfl⟩ rfl
  have hprogram : printing.scope bareProgram := by
    intro x hx
    obtain rfl := List.mem_singleton.1 hx
    refine ⟨rfl, fun t ht l hl => ?_⟩
    simp only [twice, List.mem_cons, List.not_mem_nil, or_false] at ht
    rcases ht with rfl | rfl | rfl | rfl <;> cases hl
  have hbody : ∀ t ∈ mix.body, t.Printable := by
    intro t ht
    obtain ⟨source, tokens, hlex, hmem⟩ := Token.lexed_ofText ht
    exact Token.printable_lex hlex t hmem
  exact ⟨hdeclared, mix_calledBy, hfree, hprogram, hbody, hscope, hseen hprogram hbody,
    by decide +kernel⟩

end Mixed

section Unlike

/-- A function with a list in the place of the name of its parameter. -/
def listTaking : Function where
  name := plainToken .identifier "f"
  returns := .typeName .int
  parameters := [⟨⟨.identifier, .arr [], .null, 1⟩, .typeName .int⟩]
  body := [plainToken (.keyword .returnWord) "return", ⟨.literal .int, .str "1", .int 1, 1⟩]

/-- A function that returns the least integer that cannot be printed. -/
def longReturning : Function where
  name := plainToken .identifier "f"
  returns := .typeName .int
  parameters := []
  body := [plainToken (.keyword .returnWord) "return",
    ⟨.literal .int, .str "", .int printableBound, 1⟩]

/-- The tokens that declare one of these, with `prog`, given those of its parameters. -/
def progTokens (f : Function) (list : List Token) : List Token :=
  plainToken (.keyword .progWord) "prog" :: plainToken (.typeName .int) "int" :: f.name ::
    plainToken .leftParen "(" :: (list ++ plainToken .rightParen ")" ::
      plainToken .leftBrace "\x7b" :: (f.body ++ [plainToken .rightBrace "\x7d"]))

/-- The tokens that call one of these, given those of the values. -/
def runTokens (f : Function) (list : List Token) : List Token :=
  plainToken (.keyword .runWord) "run" :: f.name :: plainToken .leftParen "(" ::
    (list ++ [plainToken .rightParen ")"])

/-- **Two calls that do not come to what their bodies come to**: a parameter whose name is a list
cannot be bound, and a value without a printed form cannot be noted. -/
theorem runProgram_unlike_body :
    let body (f : Function) (held : Scope) := seen (run (invoke 0)
      ⟨endLine f.body, some ⟨[(.str "f", .func f)]⟩, true⟩ (frameOf f.body held .empty))
    let taking := progTokens listTaking
      [plainToken (.typeName .int) "int", ⟨.identifier, .arr [], .null, 1⟩]
    let giving := runTokens listTaking (Token.ofText "1")
    (listTaking.DeclaredBy taking ∧ CalledBy listTaking.name [.int 1] giving ∧
      (∀ held, body listTaking held = (.ok (some (.int 1)), [])) ∧
      seen (runProgram 1 (taking ++ giving ++ [.semicolon 1]) .empty) =
        (.error (.failure (.fault .unsuitable)), [])) ∧
    longReturning.DeclaredBy (progTokens longReturning []) ∧
      CalledBy longReturning.name [] (runTokens longReturning []) ∧
      (∀ held, body longReturning held = (.ok (some (.int printableBound)), [])) ∧
      seen (runProgram 1
          (progTokens longReturning [] ++ runTokens longReturning [] ++ [.semicolon 1]) .empty) =
        (.error (.failure (.fault .integerTooLong)), []) := by
  intro body taking giving
  have hparts : List.Forall₂ Parameter.SpelledBy listTaking.parameters
      [[plainToken (.typeName .int) "int", ⟨.identifier, .arr [], .null, 1⟩]] :=
    .cons ⟨⟨rfl, rfl⟩, plainToken (.typeName .int) "int", rfl, rfl⟩ .nil
  have hone : (Literal.int 1).SpelledBy (Token.ofText "1") :=
    spelledBy_ofText ⟨.literal .int, .str "1", .int 1, 1⟩ rfl (by decide +kernel)
  refine ⟨⟨.prog rfl ?_, ?_, fun _ => rfl, by decide +kernel⟩, .prog rfl ?_, ?_, fun _ => rfl,
    by decide +kernel⟩
  · exact .mk rfl rfl rfl rfl hparts (.last _) rfl rfl (by decide +kernel) rfl
  · exact .mk rfl rfl (.cons hone .nil) (.last _) rfl
  · exact .mk rfl rfl rfl rfl .nil .none rfl rfl (by decide +kernel) rfl
  · exact .mk rfl rfl .nil .none rfl

end Unlike

end Hive
