import Hive.Proofs.Policies
import Hive.Proofs.Sessions

/-!
Functions live in the scope of the program only. A body ends before the first closing brace, so a
declaration in it never finds the brace that it needs: it fails, and the scope of a call holds
parameters and variables. A name that is called in a body is then that of a function of the program,
unless the call has an entry of its own under it; then the body of that function is entered. These
facts are about every moment of every call in a session; each is said as another rule for the
expressions in bodies, by which programs run just as they do, and the last one also of `run` itself.
Main statement: `Session.functions_of_program`.
-/

namespace Hive

open Evaluator

def Scope.hasFunction (s : Scope) : Bool :=
  s.entries.any fun x => match x.2 with
    | .func _ => true
    | .var _ => false

/-! ### Rules that look on -/

namespace Evaluator

/-- The rule with the scope of the frame checked before and after each expression. If the scope
fails the check, the evaluation stops with the alarm. -/
def checkingScopes (check : Scope → Bool) (alarm : Stop) (rule : Rule) : Rule :=
  fun invoke setting evaluate first operators frame =>
    if check frame.scope then
      match rule invoke setting evaluate first operators frame with
      | .ok v last => if check last.scope then .ok v last else .error alarm last
      | .error e last => .error (if check last.scope then e else alarm) last
    else .error alarm frame

/-- Whether an expression sets out to declare a function: it starts with `prog`, or with the name of
a type before an identifier and an opening parenthesis. -/
def declaresFunction (first : Token) (rest : List Token) : Bool :=
  match first.kind, rest with
  | .keyword .progWord, _ => true
  | .typeName _, name :: opening :: _ => name.kind == .identifier && opening.kind == .leftParen
  | _, _ => false

/-- The rule with an eye on declarations of functions. If one comes to anything but a problem in the
program, the evaluation stops with the alarm. -/
def checkingDeclarations (alarm : Stop) (rule : Rule) : Rule :=
  fun invoke setting evaluate first operators frame =>
    match declaresFunction first frame.rest, rule invoke setting evaluate first operators frame with
    | true, .ok _ last => .error alarm last
    | true, .error (.failure (.error d)) last => .error (.failure (.error d)) last
    | true, .error _ last => .error alarm last
    | false, result => result

/-- Calls a function that has been found under a name, from the opening parenthesis on. -/
def callFound (setting : Setting) (invoke : Invocation) (evaluate : Evaluation) (f : Function)
    (name : Token) : EvalM Value := do
  let _ ← advance setting
  let values ← argumentList setting evaluate
  let closing ← peek setting
  ensure (closing.kind = .rightParen) closing.line
    (.callSyntax name.lexeme (.str ")") closing.lexeme)
  let _ ← advance setting
  callFunction setting invoke f values name.line

/-- The rule with a simple way to find the function of a call in a body: there must be no entry
under its name in the scope of the call, and a function in the scope of the program. A name that
cannot be a key is a fault; without an identifier and an opening parenthesis there is no name. -/
def resolvingCalls (rule : Rule) : Rule :=
  fun invoke setting evaluate first operators frame =>
    match first.kind, setting.program, frame.rest with
    | .keyword .runWord, some program, name :: opening :: rest =>
      if name.kind = .identifier ∧ opening.kind = .leftParen then
        let resolved : EvalM Value := do
          let key ← orHalt name.lexeme.key
          match Table.get? key frame.scope.entries, Table.get? key program.entries with
          | none, some (.func f) => callFound setting invoke evaluate f name
          | _, _ => fail name.line (.undefinedFunction name.lexeme)
        resolved { frame with rest := opening :: rest }
      else rule invoke setting evaluate first operators frame
    | _, _, _ => rule invoke setting evaluate first operators frame

/-! ### Finding functions -/

section Finding

variable {invoke : Invocation} {setting : Setting} {e : Evaluation} {first name : Token}
  {operators : Bool} {frame : Frame} {rest : List Token}

lemma advance_of_rest (hrest : frame.rest = name :: rest) :
    advance setting frame = .ok name { frame with rest := rest } := by
  unfold advance
  rw [hrest]

lemma peek_of_rest (hrest : frame.rest = name :: rest) : peek setting frame = .ok name frame := by
  show EStateM.Result.ok (frame.rest.headD _) _ = _
  rw [hrest]
  rfl

lemma ensure_of {p : Prop} [Decidable p] {l : Int} {problem : Problem} (hp : p) :
    ensure p l problem frame = .ok () frame := by
  rw [ensure, if_pos hp]
  rfl

lemma orFail_ok {α : Type} (x : α) : (orFail (.ok x) : EvalM α) frame = .ok x frame := rfl

lemma plainRule_of_kind (hid : first.kind ≠ .identifier) :
    plainRule invoke setting e first operators frame =
      dispatch invoke setting e first operators frame := by
  have hsub : substitute frame.scope first = .ok first := by simp [substitute, hid]
  show (if first.kind = .identifier ∧ operators = true ∧
        (frame.rest.headD (.atEnd setting.endLine)).kind = .equal then assignment setting e first
      else scope >>= fun own => orFail (substitute own first) >>= fun token =>
        dispatch invoke setting e token operators) frame = _
  rw [if_neg fun h => hid h.1]
  show (orFail (substitute frame.scope first) >>= fun token =>
    dispatch invoke setting e token operators) frame = _
  rw [hsub]
  rfl

lemma plainRule_run (hrun : first.kind = .keyword .runWord) (hrest : frame.rest = name :: rest) :
    plainRule invoke setting e first operators frame =
      call setting invoke e name { frame with rest := rest } := by
  have hdispatch : dispatch invoke setting e first operators =
      advance setting >>= call setting invoke e := by
    unfold dispatch
    rw [hrun]
  rw [plainRule_of_kind (by simp [hrun]), hdispatch]
  exact bind_of_ok (advance_of_rest hrest)

lemma call_of_opening {opening : Token} (hid : name.kind = .identifier)
    (hopening : opening.kind = .leftParen) (hrest : frame.rest = opening :: rest) :
    call setting invoke e name frame =
      (orFail (lookUpFunction setting frame.scope name) >>= fun f =>
        callFound setting invoke e f name) frame := by
  have hscope : Evaluator.scope frame = .ok frame.scope frame := rfl
  unfold call
  rw [bind_of_ok (ensure_of hid), bind_of_ok (peek_of_rest hrest), bind_of_ok (ensure_of hopening),
    bind_of_ok hscope]
  rfl

lemma declaration_of_opening {opening : Token} (hid : name.kind = .identifier)
    (hopening : opening.kind = .leftParen) (hrest : frame.rest = name :: opening :: rest) :
    declaration setting e first frame =
      functionDeclaration setting first name { frame with rest := opening :: rest } := by
  unfold declaration
  rw [bind_of_ok (advance_of_rest hrest), bind_of_ok (ensure_of hid), bind_of_ok (peek_of_rest rfl),
    if_pos hopening]

/-- Without functions of its own, a call finds those of the program, but for the names of its
entries. -/
lemma lookUpFunction_of_hasFunction {program own : Scope} (hprogram : setting.program = some program)
    (hown : own.hasFunction = false) {key : Json} (hkey : name.lexeme.key = .ok key) :
    lookUpFunction setting own name =
      match Table.get? key own.entries, Table.get? key program.entries with
      | none, some (.func f) => .ok f
      | _, _ => .error (.error (.on name.line (.undefinedFunction name.lexeme))) := by
  have hcontains : own.contains name.lexeme = .ok (Table.get? key own.entries).isSome := by
    unfold Scope.contains
    rw [Scope.find?_of_key hkey]
    rfl
  unfold lookUpFunction
  rw [hprogram]
  dsimp only
  rw [hcontains]
  cases hentry : Table.get? key own.entries with
  | none =>
    show program.functionAt name = _
    rw [Scope.functionAt_of_key hkey]
    cases Table.get? key program.entries with
    | none => rfl
    | some entry => cases entry <;> rfl
  | some entry =>
    show own.functionAt name = _
    rw [Scope.functionAt_of_key hkey, hentry]
    cases entry with
    | var v => rfl
    | func f =>
      -- the body's own scope has no functions
      have hmem := Table.mem_of_get? hentry
      simp only [Scope.hasFunction, List.any_eq_false] at hown
      exact absurd rfl (hown _ hmem)

lemma lookUpFunction_of_fault {program own : Scope} (hprogram : setting.program = some program)
    {f : Fault} (hkey : name.lexeme.key = .error f) :
    lookUpFunction setting own name = .error (.fault f) := by
  have hcontains : own.contains name.lexeme = .error f := by
    unfold Scope.contains
    rw [Scope.find?_eq_error.2 hkey]
    rfl
  unfold lookUpFunction
  rw [hprogram]
  dsimp only
  rw [hcontains]
  rfl

/-- **Where the scope holds no function, calls are resolved by the simple rule.** -/
theorem resolvingCalls_eq (h : frame.scope.hasFunction = false) :
    resolvingCalls plainRule invoke setting e first operators frame =
      plainRule invoke setting e first operators frame := by
  -- the two differ only at a call in a body, and there the lookup is the same
  unfold resolvingCalls
  split
  · rename_i program name opening rest hrun hprogram hrest
    split
    · rename_i hcall
      rw [plainRule_run hrun hrest, call_of_opening hcall.1 hcall.2 rfl]
      dsimp only
      cases hkey : name.lexeme.key with
      | error f =>
        rw [lookUpFunction_of_fault hprogram hkey]
        rfl
      | ok key =>
        have hread : orHalt (Except.ok key) { frame with rest := opening :: rest } =
          .ok key { frame with rest := opening :: rest } := rfl
        rw [bind_of_ok hread, lookUpFunction_of_hasFunction hprogram h hkey]
        cases Table.get? key frame.scope.entries with
        | some entry => rfl
        | none =>
          cases Table.get? key program.entries with
          | none => rfl
          | some entry => cases entry <;> rfl
    · rfl
  · rfl

end Finding

end Evaluator

/-! ### Entering functions -/

/-- What is seen after the value has been noted, for which it must have a printed form. -/
def noted : Except Stop Value × List String → Except Stop Value × List String
  | (.ok v, output) =>
    match Value.text v with
    | .ok _ => (.ok v, output)
    | .error f => (.error (.failure (.fault f)), output)
  | (.error e, output) => (.error e, output)

/-- **What a call with values comes to**, its end and its output, given what the body does in a
scope: the values are bound to the parameters, and they are noted before the body runs. -/
def Function.entered (f : Function) (line : Int) (values : List Value)
    (body : Scope → Except Stop Value × List String) : Except Stop Value × List String :=
  match f.bindArguments line values with
  | .error e => (.error (.failure e), [])
  | .ok held =>
    match values.mapM Value.text with
    | .error fault => (.error (.failure (.fault fault)), [])
    | .ok _ => noted (body held)

section Entering

variable {depth : Nat} {program : Scope} {f : Function} {values : List Value} {line : Int}

/-- Once the arguments are bound and noted, a call runs the body in their scope and notes its
value. -/
lemma seen_callWith {held : Scope} {texts : List String}
    (hbind : f.bindArguments line values = .ok held) (htexts : values.mapM Value.text = .ok texts)
    (frame : Frame) :
    let body := noted (seen (run (invoke depth) ⟨endLine f.body, some program, true⟩
      (frameOf f.body held .empty)))
    seen (frame.receives (callWith (runBody (invoke depth) program) f values line .empty)) =
      (body.1, frame.console.output ++ body.2) := by
  let called : Console := ⟨[], [.remark 2 ("call " ++ f.name.lexeme.plain ++ "(" ++
    ", ".intercalate texts ++ ")")]⟩
  have hcalled : callWith (runBody (invoke depth) program) f values line .empty =
      (runBody (invoke depth) program f held >>= fun v =>
        note 2 (do return "return " ++ f.name.lexeme.plain ++ " -> " ++ (← Value.text v)) >>=
          fun _ => pure v) called := by
    unfold callWith
    rw [hbind, htexts]
    rfl
  -- the body runs on top of the note, as it does on an empty console
  have hbody : runBody (invoke depth) program f held called =
      onState Frame.console (onState (Frame.under called)
        (run (invoke depth) ⟨endLine f.body, some program, true⟩
          (frameOf f.body held .empty))) := by
    rw [← run_under, runBody_eq]
    simp [Frame.under, frameOf]
  have houtput (c : Console) : (frame.wrote (called.append c)).console.output =
      frame.console.output ++ c.output := by
    simp [Frame.wrote, Console.append, called]
  intro body
  rw [hcalled]
  show seen (frame.receives (EStateM.bind _ _ _)) = _
  unfold EStateM.bind
  rw [hbody]
  subst body
  cases run (invoke depth) ⟨endLine f.body, some program, true⟩ (frameOf f.body held .empty) with
  | error e last => exact congrArg (Prod.mk _) (houtput last.console)
  | ok v last =>
    simp only [onState, seen, noted]
    cases htext : Value.text v with
    | error fault => exact congrArg (Prod.mk _) (houtput last.console)
    | ok text => exact congrArg (Prod.mk _) (houtput last.console)

/-- **A call enters the body** of its function, with its arguments. -/
lemma seen_invoke (frame : Frame) :
    let entered := f.entered line values fun held => seen (run (invoke depth)
      ⟨endLine f.body, some program, true⟩ (frameOf f.body held .empty))
    seen (frame.receives (invoke (depth + 1) program f values line .empty)) =
      (entered.1, frame.console.output ++ entered.2) := by
  intro entered
  show seen (frame.receives (callWith _ _ _ _ _)) = _
  subst entered
  unfold Function.entered
  cases hbind : f.bindArguments line values with
  | error e =>
    unfold callWith
    rw [hbind]
    rfl
  | ok held =>
    cases htexts : values.mapM Value.text with
    | error fault =>
      unfold callWith
      rw [hbind, htexts]
      rfl
    | ok texts => exact seen_callWith hbind htexts frame

/-- A function that has been found is called when its arguments have been read, up to the closing
parenthesis. -/
lemma callFound_of_arguments {a : Setting} {e : Evaluation} {name opening closing : Token}
    {rest after : List Token} {frame g : Frame} (hrest : frame.rest = opening :: rest)
    (hvalues : argumentList a e { frame with rest := rest } = .ok values g)
    (hg : g.rest = closing :: after) (hclosing : closing.kind = .rightParen) :
    callFound a (invoke depth) e f name frame = ({ g with rest := after } : Frame).receives
      (invoke depth (a.programOf g) f values name.line .empty) := by
  unfold callFound
  rw [bind_of_ok (advance_of_rest hrest), bind_of_ok hvalues, bind_of_ok (peek_of_rest hg),
    bind_of_ok (ensure_of hclosing), bind_of_ok (advance_of_rest hg)]
  exact callFunction_eq a { g with rest := after } (.refl _) depth f values name.line

end Entering

/-- **How `run` with a name and an opening parenthesis ends in a body**, from a frame that is right
after `run`. Calls may nest one deeper than `depth`. -/
structure RunInBody (depth budget : Nat) (a : Setting) (program : Scope) (name opening : Token)
    (rest : List Token) (frame : Frame) (r : EStateM.Result Stop Frame Value) : Prop where
  /-- If the scope of the call has no entry under the name and the program has a function there, the
  arguments are read and the body of the function is entered with them. The caller has what the
  arguments have left of its scope, and more output. -/
  invoked : ∀ key f values closing after g, name.lexeme.key = .ok key →
    Table.get? key frame.scope.entries = none → Table.get? key program.entries = some (.func f) →
    argumentList a (expression (invoke (depth + 1)) a budget) { frame with rest := rest } =
      .ok values g → g.rest = closing :: after → closing.kind = .rightParen →
    let entered := f.entered name.line values fun held => seen (run (invoke depth)
      ⟨endLine f.body, some program, true⟩ (frameOf f.body held .empty))
    seen r = (entered.1, g.console.output ++ entered.2) ∧
      (lastFrame r).scope = g.scope ∧ (lastFrame r).rest = after
  /-- What stops the arguments stops such a call. -/
  stopped : ∀ key f stop g, name.lexeme.key = .ok key →
    Table.get? key frame.scope.entries = none → Table.get? key program.entries = some (.func f) →
    argumentList a (expression (invoke (depth + 1)) a budget) { frame with rest := rest } =
      .error stop g → r = .error stop g
  /-- Such a call fails if no closing parenthesis follows its arguments. -/
  unclosed : ∀ key f values g, name.lexeme.key = .ok key →
    Table.get? key frame.scope.entries = none → Table.get? key program.entries = some (.func f) →
    argumentList a (expression (invoke (depth + 1)) a budget) { frame with rest := rest } =
      .ok values g →
    let following := g.rest.headD (.atEnd a.endLine)
    following.kind ≠ .rightParen → r = .error (.failure (.error
      (.on following.line (.callSyntax name.lexeme (.str ")") following.lexeme)))) g
  /-- Otherwise the function is undefined. -/
  undefined : ∀ key, name.lexeme.key = .ok key →
    (∀ f, Table.get? key frame.scope.entries = none →
      Table.get? key program.entries ≠ some (.func f)) →
    r = .error (.failure (.error (.on name.line (.undefinedFunction name.lexeme))))
      { frame with rest := opening :: rest }
  /-- A name that is no key cannot be looked up. -/
  keyless : ∀ fault, name.lexeme.key = .error fault →
    r = .error (.failure (.fault fault)) { frame with rest := opening :: rest }

/-- **Where the scope of a call holds no function, `run` enters that of the program.** -/
lemma runInBody {depth budget : Nat} {a : Setting} {program : Scope} {word name opening : Token}
    {rest : List Token} {operators : Bool} {frame : Frame} (hprogram : a.program = some program)
    (hown : frame.scope.hasFunction = false) (hword : word.kind = .keyword .runWord)
    (hid : name.kind = .identifier) (hopening : opening.kind = .leftParen)
    (hrest : frame.rest = name :: opening :: rest) :
    RunInBody depth budget a program name opening rest frame
      (expression (invoke (depth + 1)) a (budget + 1) word operators frame) := by
  let e := expression (invoke (depth + 1)) a budget
  let start : Frame := { frame with rest := opening :: rest }
  have hcall : expression (invoke (depth + 1)) a (budget + 1) word operators frame =
      (orFail (lookUpFunction a frame.scope name) >>= fun f =>
        callFound a (invoke (depth + 1)) e f name) start := by
    rw [expression_succ, plainRule_run hword hrest]
    exact call_of_opening hid hopening rfl
  have hfound {key : Json} {f : Function} (hkey : name.lexeme.key = .ok key)
      (hnone : Table.get? key frame.scope.entries = none)
      (hfunc : Table.get? key program.entries = some (.func f)) :
      expression (invoke (depth + 1)) a (budget + 1) word operators frame =
        callFound a (invoke (depth + 1)) e f name start := by
    rw [hcall, lookUpFunction_of_hasFunction hprogram hown hkey, hnone, hfunc]
    exact bind_of_ok (orFail_ok f)
  refine ⟨?_, ?_, ?_, ?_, ?_⟩
  · -- the function is entered
    intro key f values closing after g hkey hnone hfunc hvalues hg hclosing
    have hfinds : callFound a (invoke (depth + 1)) e f name start = _ :=
      callFound_of_arguments rfl hvalues hg hclosing
    rw [hfound hkey hnone hfunc, hfinds, programOf_of_some hprogram]
    refine ⟨seen_invoke _, ?_⟩
    obtain ⟨c, hc⟩ := lastFrame_receives { g with rest := after }
      (invoke (depth + 1) program f values name.line .empty)
    rw [hc]
    exact ⟨rfl, rfl⟩
  · -- its arguments stop
    intro key f stop g hkey hnone hfunc hstop
    rw [hfound hkey hnone hfunc, callFound, bind_of_ok (advance_of_rest rfl), bind_of_error hstop]
  · -- they are not closed
    intro key f values g hkey hnone hfunc hvalues following hfollowing
    have hpeek : peek a g = .ok following g := rfl
    rw [hfound hkey hnone hfunc, callFound, bind_of_ok (advance_of_rest rfl), bind_of_ok hvalues,
      bind_of_ok hpeek, ensure, if_neg hfollowing]
    rfl
  · -- there is no such function
    intro key hkey hnot
    have hlookUp : lookUpFunction a frame.scope name =
        .error (.error (.on name.line (.undefinedFunction name.lexeme))) := by
      rw [lookUpFunction_of_hasFunction hprogram hown hkey]
      split
      · rename_i f hnone hfunc
        exact absurd hfunc (hnot f hnone)
      · rfl
    rw [hcall, hlookUp]
    rfl
  · -- the name is no key
    intro fault hkey
    rw [hcall, lookUpFunction_of_fault hprogram hkey]
    rfl

/-! ### Declarations in bodies -/

/-- The discipline of declarations that cannot be completed for want of a closing brace: they come
to no value, and to no stop but a problem. -/
def refusing : Discipline where
  token t := t.kind ≠ .rightBrace
  place _ := True
  value _ := False
  scope _ := True
  callee _ := True
  programs _ _ := True
  fault _ := False
  exhausted := False
  cut := False

section Refusing

variable {n : Nat} {a : Setting} {e : Evaluation} {invoke : Invocation}

lemma refusing_reading : refusing.Reading := ⟨fun _ => trivial, fun _ => nofun⟩

lemma refusing_settings (a : Setting) : refusing.Settings a a := by
  refine ⟨rfl, rfl, trivial, ?_⟩
  cases a.program with
  | none => exact .inl ⟨rfl, rfl, fun _ _ => trivial⟩
  | some p => exact .inr ⟨p, p, rfl, rfl, trivial⟩

/-- A function is not declared: its body would have to end with a brace. -/
lemma refusing_functionDeclaration (typeToken name : Token) :
    (refusing.ground n).Agree (refusing.stop a.mayReturn) (fun _ => False)
      (functionDeclaration a typeToken name) (functionDeclaration a typeToken name) := by
  have hk := refusing_reading
  have hs := refusing_settings a
  have hline : ∀ l, refusing.line l := fun _ => trivial
  refine (Discipline.agree_ensure (hline _)).bind fun _ _ => ?_
  refine (Discipline.agree_ensure (hline _)).bind fun _ _ => ?_
  refine (Discipline.agree_advance hk hs).bind fun opening _ => ?_
  refine (Discipline.agree_ensure (hline _)).bind fun _ _ => ?_
  refine (Discipline.agree_parameterList hk hs name).bind fun params _ => ?_
  refine (Discipline.agree_functionBody hk hs name).bind fun body hbody => ?_
  obtain ⟨-, -, closing, hclosing, hbrace⟩ := hbody
  exact absurd hbrace hclosing

lemma problem_of_refusing {r : EStateM.Result Stop Frame Value}
    (h : (refusing.ground n).Ends (refusing.stop a.mayReturn) (fun _ => False) r) :
    ∃ d last, r = .error (.failure (.error d)) last := by
  cases r with
  | ok v last => exact absurd h.2 id
  | error stop last =>
    cases stop with
    | failure f =>
      cases f with
      | error d => exact ⟨d, last, rfl⟩
      | fault f => exact absurd h.2 id
    | returned v => exact absurd h.2.2 id
    | exhausted => exact absurd h.2 id

lemma refusing_stream {tokens : List Token} (h : ∀ t ∈ tokens, t.kind ≠ .rightBrace) :
    refusing.Stream tokens :=
  Discipline.stream_of_token (fun _ _ => trivial) h

/-- **A declaration of a function comes to a problem** where no closing brace is left. -/
theorem problem_of_declaresFunction {first : Token} {operators : Bool} {frame : Frame}
    (hrest : ∀ t ∈ frame.rest, t.kind ≠ .rightBrace)
    (h : declaresFunction first frame.rest = true) :
    ∃ d last, plainRule invoke a e first operators frame = .error (.failure (.error d)) last := by
  unfold declaresFunction at h
  split at h
  · rename_i hprog
    have hdispatch : dispatch invoke a e first operators =
        advance a >>= fun typeToken => advance a >>= fun name =>
          functionDeclaration a typeToken name := by
      unfold dispatch
      rw [hprog]
    rw [plainRule_of_kind (by simp [hprog]), hdispatch]
    -- no brace is left to close the body, so the declaration cannot be read to its end
    have hadvance := Discipline.agree_advance (n := frame.rest.length)
      (E := refusing.stop a.mayReturn) refusing_reading (refusing_settings a)
    have hagree := hadvance.bind fun typeToken _ => hadvance.bind fun name _ =>
      refusing_functionDeclaration typeToken name
    exact problem_of_refusing (hagree frame ⟨Nat.le_refl _, refusing_stream hrest, trivial⟩).2
  · rename_i type name opening rest htype htokens
    simp only [Bool.and_eq_true, beq_iff_eq] at h
    have hdispatch : dispatch invoke a e first operators = declaration a e first := by
      unfold dispatch
      rw [htype]
    rw [plainRule_of_kind (by simp [htype]), hdispatch, declaration_of_opening h.1 h.2 htokens]
    have hstream : refusing.Stream (opening :: rest) :=
      refusing_stream fun t ht => hrest t (htokens ▸ List.mem_cons_of_mem _ ht)
    exact problem_of_refusing (refusing_functionDeclaration first name
      { frame with rest := opening :: rest } ⟨Nat.le_refl _, hstream, trivial⟩).2
  · cases h

end Refusing

/-! ### Rules that agree -/

section Rules

variable {D : Discipline} {rule : Rule} {check : Scope → Bool} {alarm : Stop}

lemma rules_checkingScopes (hr : D.Rules plainRule rule) (hcut : ¬D.cut)
    (hcheck : ∀ s, D.scope s → check s = true)
    (hswap : ∀ f g, ¬D.swap f g := by exact fun _ _ => not_false) :
    D.Rules plainRule (checkingScopes check alarm rule) := by
  intro n a b e e' invoke invoke' first operators f hs hcalls hn hfirst hf hnext
  obtain ⟨hfollows, hends⟩ := hr operators hs hcalls hn hfirst hf hnext
  refine ⟨fun c => .of_eq ?_, hends⟩
  have heq := (hfollows c).eq hcut hswap
  have hstart : check ((D.ground n).under c f).scope = true := hcheck _ hf.2.2
  unfold checkingScopes
  rw [if_pos hstart, heq]
  revert hends
  cases plainRule invoke a e first operators f with
  | ok v last =>
    intro hends
    have hlast : check ((D.ground n).under c last).scope = true := hcheck _ hends.1.2.2
    simp only [onState, hlast, if_true]
  | error stop last =>
    intro hends
    have hlast : check ((D.ground n).under c last).scope = true := hcheck _ hends.1.2.2
    simp only [onState, hlast, if_true]

/-- Where there is no closing brace, to look at the declarations of functions changes nothing. -/
lemma rules_checkingDeclarations (hr : D.Rules plainRule rule) (hcut : ¬D.cut)
    (hbrace : ∀ t, D.token t → t.kind ≠ .rightBrace)
    (hswap : ∀ f g, ¬D.swap f g := by exact fun _ _ => not_false) :
    D.Rules plainRule (checkingDeclarations alarm rule) := by
  intro n a b e e' invoke invoke' first operators f hs hcalls hn hfirst hf hnext
  obtain ⟨hfollows, hends⟩ := hr operators hs hcalls hn hfirst hf hnext
  refine ⟨fun c => .of_eq ?_, hends⟩
  have heq := (hfollows c).eq hcut hswap
  have hrest : ((D.ground n).under c f).rest = f.rest := rfl
  unfold checkingDeclarations
  rw [heq, hrest]
  cases hdeclares : declaresFunction first f.rest with
  | false => rfl
  | true =>
    have hproblem : ∃ d last,
        plainRule invoke a e first operators f = .error (.failure (.error d)) last :=
      problem_of_declaresFunction (fun t ht => hbrace t (hf.2.1.token t ht)) hdeclares
    obtain ⟨d, last, hproblem⟩ := hproblem
    rw [hproblem]
    rfl

lemma rules_resolvingCalls (hr : D.Rules plainRule)
    (hnone : ∀ s, D.scope s → s.hasFunction = false) :
    D.Rules plainRule (resolvingCalls plainRule) := by
  intro n a b e e' invoke invoke' first operators f hs hcalls hn hfirst hf hnext
  obtain ⟨hfollows, hends⟩ := hr operators hs hcalls hn hfirst hf hnext
  refine ⟨fun c => ?_, hends⟩
  have hunder : ((D.ground n).under c f).scope.hasFunction = false := hnone _ hf.2.2
  rw [resolvingCalls_eq hunder]
  exact hfollows c

end Rules

/-! ### The bodies of functions -/

def Function.Closed (f : Function) : Prop := ∀ t ∈ f.body, t.kind ≠ .rightBrace

/-- The policy for the bodies of functions: they have no closing brace, and so their scopes hold no
functions. -/
abbrev embodied : Policy :=
  .undeclaring .rightBrace (fun _ _ => False) (fun _ f => f.Closed) (fun _ => True) True

/-- The policy for programs, which declare functions whose bodies end before a brace. -/
def declaring : Policy where
  token _ := True
  follows _ _ := True
  line _ := True
  own _ f := f.Closed
  known _ f := f.Closed
  called _ := True
  exhausted := True

lemma embodied_kept : embodied.discipline.Kept :=
  (Policy.undeclaring_lasting (.inr rfl) fun _ _ => False.elim).kept

lemma embodied_bodies : embodied.discipline.Bodies := by
  rintro f ⟨k, -, hf⟩
  exact Policy.undeclaring_stream hf fun _ _ _ _ _ _ _ => trivial

lemma hasFunction_of_embodied {s : Scope} (hs : embodied.discipline.scope s) :
    s.hasFunction = false := by
  unfold Scope.hasFunction
  rw [List.any_eq_false]
  rintro ⟨key, entry⟩ hmem
  cases entry with
  | var v => simp
  | func f => exact absurd rfl (hs (key, .func f) hmem f)

lemma declaring_lasting : declaring.Lasting where
  line_of_token _ := trivial
  token_atEnd _ := trivial
  token_toToken _ _ := trivial
  own_define hf _ t ht hkind := by
    have hend := (hf.body t ht).2
    rw [hkind] at hend
    cases hend
  known_of_own h := h
  called_of_key _ _ := trivial

/-- A program runs alike with any calls that agree in the bodies of its functions. -/
lemma run_of_embodied {depth : Nat} {invoke' : Invocation}
    (hcalls : embodied.discipline.Calls (invoke depth) invoke') {scope : Scope}
    (hscope : scope.Functions fun _ f => f.Closed) (tokens : List Token) :
    run invoke' (Discipline.programSetting tokens) (frameOf tokens scope .empty) =
      runProgram depth tokens scope := by
  -- calls are the same thing at the top as in bodies
  have htop : declaring.discipline.Calls (invoke depth) invoke' := hcalls
  have hstream : declaring.discipline.Stream tokens :=
    Discipline.stream_of_token (fun _ _ => trivial) fun _ _ => trivial
  obtain ⟨hfollows, -⟩ := Discipline.run_program declaring_lasting.kept htop
    declaring_lasting.programs_self hstream hscope
  have heq := hfollows.eq not_false fun _ _ => not_false
  rwa [onState_under_empty] at heq

lemma runProgramBy_eq {rule : Rule} (hr : embodied.discipline.Rules plainRule rule) {scope : Scope}
    (hscope : scope.Functions fun _ f => f.Closed) (depth : Nat) (tokens : List Token) :
    runProgramBy rule depth tokens scope = runProgram depth tokens scope := by
  have hk := embodied_kept
  have hcalls : embodied.discipline.Calls (invokeBy plainRule depth) (invokeBy rule depth) :=
    Discipline.agree_invokeBy hr hk hk.bindArguments embodied_bodies trivial (.inl rfl)
  rw [invokeBy_plainRule] at hcalls
  exact run_of_embodied hcalls hscope tokens

lemma closed_reached (verbosity : Nat) (steps : List (Nat × Program)) :
    (Session.reached verbosity steps).scope.Functions fun _ f => f.Closed := by
  have htyped := (typed_reached False verbosity steps False.elim).1
  rintro ⟨key, entry⟩ hmem f rfl t ht
  exact ((htyped (key, .func f) hmem).2.2.2 t ht).1

/-- **Functions live in the scope of the program only.** After any session, and for all that runs in
the bodies of functions of the next program, at any depth of calls:

* to check that the scope of a call holds no function changes nothing, neither where a body starts
  and ends nor before and after each expression in it, whatever the alarm;
* to raise an alarm at a declaration of a function that comes to anything but a problem changes
  nothing;
* a call finds its function by the simple rule: that of the program under its name, if the scope of
  the call has no entry under it, and else the function is undefined;
* so where the scope of a call holds no function, as it never does, `run` with a name and an opening
  parenthesis enters the body of that function, or reports that it is undefined. A name that is no
  key is a fault. -/
theorem Session.functions_of_program (verbosity : Nat) (steps : List (Nat × Program))
    (alarm : Stop) (depth : Nat) (tokens : List Token) :
    (checkedProgram (fun s => !s.hasFunction) alarm depth tokens (reached verbosity steps).scope =
        runProgram depth tokens (reached verbosity steps).scope ∧
      runProgramBy (checkingScopes (fun s => !s.hasFunction) alarm plainRule) depth tokens
          (reached verbosity steps).scope =
        runProgram depth tokens (reached verbosity steps).scope) ∧
    runProgramBy (checkingDeclarations alarm plainRule) depth tokens
        (reached verbosity steps).scope =
      runProgram depth tokens (reached verbosity steps).scope ∧
    runProgramBy (resolvingCalls plainRule) depth tokens (reached verbosity steps).scope =
      runProgram depth tokens (reached verbosity steps).scope ∧
    ∀ (budget : Nat) (a : Setting) (program : Scope) (word name opening : Token)
      (rest : List Token) (operators : Bool) (frame : Frame), a.program = some program →
      frame.scope.hasFunction = false → word.kind = .keyword .runWord → name.kind = .identifier →
      opening.kind = .leftParen → frame.rest = name :: opening :: rest →
      RunInBody depth budget a program name opening rest frame
        (expression (invoke (depth + 1)) a (budget + 1) word operators frame) := by
  have hscope := closed_reached verbosity steps
  have hplain : embodied.discipline.Rules plainRule := Discipline.rules_plainRule embodied_kept
  have hnone : ∀ s, embodied.discipline.scope s → (!s.hasFunction) = true :=
    fun s hs => by simp [hasFunction_of_embodied hs]
  refine ⟨⟨?_, ?_⟩, ?_, ?_, ?_⟩
  · -- no scope of a call holds a function, at its ends and at every step in between
    exact run_of_embodied
      (agree_checkedInvoke embodied_kept embodied_bodies not_false trivial hnone depth) hscope tokens
  · exact runProgramBy_eq (rules_checkingScopes hplain not_false hnone) hscope depth tokens
  · -- declarations in bodies fail
    exact runProgramBy_eq (rules_checkingDeclarations hplain not_false fun _ ht => ht) hscope depth
      tokens
  · -- calls find what the rule says, in whole runs and one by one
    exact runProgramBy_eq (rules_resolvingCalls hplain fun _ => hasFunction_of_embodied) hscope
      depth tokens
  · intro budget a program word name opening rest operators frame hprogram hown hword hid hopening
    exact runInBody hprogram hown hword hid hopening

section Nested

/-- The function `int inc(int n)`, which returns `n + 1`. -/
def increment : Function where
  name := plainToken .identifier "inc"
  returns := .typeName .int
  parameters := [⟨plainToken .identifier "n", .typeName .int⟩]
  body := Token.ofText "return n + 1"

/-- A program that declares `inc` and calls it from the body of another function. -/
def nestedTokens : List Token :=
  Token.ofText ("prog int inc(int n) \x7b return n + 1 \x7d " ++
    "prog int later(int m) \x7b return run inc(m) \x7d run later(41);")

def nestedProgram : Scope := (lastFrame (runProgram 2 nestedTokens .empty)).scope

def fortyOne : Token := ⟨.literal .int, .str "41", .int 41, 1⟩

/-- A frame in the body of the other function, right before `inc(41)`. -/
def nestedFrame : Frame :=
  frameOf [increment.name, plainToken .leftParen "(", fortyOne, plainToken .rightParen ")"]
    ⟨[(.str "m", .var ⟨plainToken .identifier "m", some (.int 41), .typeName .int⟩)]⟩ .empty

theorem Session.functions_of_program_nested :
    (runProgramBy (resolvingCalls plainRule) 2 nestedTokens (reached 0 []).scope =
        runProgram 2 nestedTokens (reached 0 []).scope ∧
      (seen (runProgram 2 nestedTokens (reached 0 []).scope)).1 = .ok (some (.int 42))) ∧
    nestedFrame.scope.hasFunction = false ∧
      Table.get? (.str "inc") nestedProgram.entries = some (.func increment) ∧
      seen (expression (invoke 1) ⟨1, some nestedProgram, true⟩ 4
        (plainToken (.keyword .runWord) "run") true nestedFrame) = (.ok (some (.int 42)), []) := by
  obtain ⟨-, -, hresolves, -⟩ := functions_of_program 0 [] .exhausted 2 nestedTokens
  obtain ⟨-, -, -, hrun⟩ := functions_of_program 0 [] .exhausted 0 []
  have hown : nestedFrame.scope.hasFunction = false := rfl
  have hfunc : Table.get? (.str "inc") nestedProgram.entries = some (.func increment) := by
    decide +kernel
  refine ⟨⟨hresolves, by decide +kernel⟩, hown, hfunc, ?_⟩
  have hin := hrun 3 ⟨1, some nestedProgram, true⟩ nestedProgram
    (plainToken (.keyword .runWord) "run") increment.name (plainToken .leftParen "(")
    [fortyOne, plainToken .rightParen ")"] true nestedFrame rfl hown rfl rfl rfl rfl
  obtain ⟨hseen, -⟩ := hin.invoked (.str "inc") increment [some (.int 41)]
    (plainToken .rightParen ")") [] { nestedFrame with rest := [plainToken .rightParen ")"] } rfl rfl
    hfunc rfl rfl rfl
  rw [hseen]
  decide +kernel

/-- A program in which the body of `f` calls a function by a list in the place of a name. -/
def listNamedTokens : List Token :=
  Token.ofText "prog int f() \x7b run" ++
    ⟨.identifier, .arr [], .null, 1⟩ :: Token.ofText "(); \x7d run f();"

/-- **A list is no name.** The call enters no function, and it is not reported as that of an
undefined one either. -/
theorem runProgram_listNamed :
    (seen (runProgram 2 listNamedTokens .empty)).1 = .error (.failure (.fault .unsuitable)) ∧
      ∀ d, (seen (runProgram 2 listNamedTokens .empty)).1 ≠ .error (.failure (.error d)) := by
  have hfault : (seen (runProgram 2 listNamedTokens .empty)).1 =
      .error (.failure (.fault .unsuitable)) := by decide +kernel
  refine ⟨hfault, fun d h => ?_⟩
  rw [hfault] at h
  cases h

end Nested

end Hive
