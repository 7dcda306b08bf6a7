import Hive.Proofs.Digits

/-!
Where the digit limit is met. An evaluation with an **alarm** stops with a failure of choice where a
step of arithmetic comes to an integer of more digits than the limit; the plain evaluation stops
there too, since it fails to print the step. The two do the same up to that failure, whatever it is.
So printing fails nowhere else: not in output, in a concatenation, at a variable that is read or
assigned, nor in the note on a call or on the scope at the end. Main statement:
`Session.integers_limited`.
-/

namespace Hive

open Evaluator

/-! ### Evaluation with an alarm -/

namespace Evaluator

variable (alarm : Failure)

/-- Applies the operator between two items. A result of more digits than the limit raises the
alarm. -/
def applyAlarmed : Application := fun own op operator a b => do
  let left ← orFail (resolve own op.line a)
  let right ← orFail (resolve own op.line b)
  let result ← arithmetic op.line operator left right
  if result.isShort then concludeStep op left right result else throw (.failure alarm)

/-- The rule for expressions whose arithmetic raises the alarm. -/
def alarmedRule : Rule := ruleBy (operationBy (applyAlarmed alarm))

/-- Runs a program whose arithmetic raises the alarm, also in the bodies of its functions. -/
def alarmedProgram (depth : Nat) (tokens : List Token) (scope : Scope) :
    EStateM.Result Stop Frame Value :=
  runBy (alarmedRule alarm) (invokeBy (alarmedRule alarm) depth) ⟨endLine tokens, none, false⟩
    (frameOf tokens scope .empty)

/-- The result with the alarm in the place of a failure to print an integer. -/
def alarmed : EStateM.Result Stop Frame Value → EStateM.Result Stop Frame Value
  | .error (.failure (.fault .integerTooLong)) last => .error (.failure alarm) last
  | r => r

end Evaluator

/-! ### Computations that do not print -/

section Avoids

variable {ε α β : Type} {e : ε}

/-- The computation does not end with the given error. -/
def Avoids (e : ε) (x : Except ε α) : Prop := x ≠ .error e

lemma avoids_ok (a : α) : Avoids e (.ok a) := nofun

lemma avoids_error {e' : ε} (h : e' ≠ e) : Avoids e (.error e' : Except ε α) :=
  fun he => h (Except.error.inj he)

lemma Avoids.bind {x : Except ε α} {k : α → Except ε β} (hx : Avoids e x)
    (hk : ∀ a, Avoids e (k a)) : Avoids e (x >>= k) := by
  intro h
  rcases error_of_bind h with h | ⟨a, -, h⟩
  · exact hx h
  · exact hk a h

lemma Avoids.ofFault {f : Fault} {x : Except Fault α} (hx : Avoids f x) :
    Avoids (Failure.fault f) (Failure.ofFault x) := by
  cases x with
  | ok a => exact avoids_ok a
  | error g => exact avoids_error fun h => hx (congrArg Except.error (Failure.fault.inj h))

end Avoids

namespace Alarm

/-! ### Numbers -/

lemma avoids_doubleOfInteger (n : Int) : Avoids .integerTooLong (doubleOfInteger n) := by
  intro h
  cases orFault_eq_error h

lemma avoids_integerOfDouble (x : Binary64) : Avoids .integerTooLong (integerOfDouble x) := by
  unfold integerOfDouble
  split
  · exact avoids_ok _
  · exact avoids_error nofun
  · exact avoids_error nofun

lemma avoids_numberToDouble (a : Number) : Avoids .integerTooLong a.toDouble := by
  cases a with
  | int n => exact avoids_doubleOfInteger n
  | flt x => exact avoids_ok x

lemma avoids_div (a b : Number) : Avoids .integerTooLong (a.div b) := by
  unfold Number.div
  split
  · split
    · exact avoids_error nofun
    · intro h
      cases orFault_eq_error h
  · refine (avoids_numberToDouble a).bind fun x => (avoids_numberToDouble b).bind fun y => ?_
    split
    · exact avoids_error nofun
    · exact avoids_ok _

lemma avoids_combine (exact : Int → Int → Int) (rounded : Binary64 → Binary64 → Binary64)
    (a b : Number) : Avoids .integerTooLong (Number.combine exact rounded a b) := by
  unfold Number.combine
  split
  · exact avoids_ok _
  · exact (avoids_numberToDouble a).bind fun _ => (avoids_numberToDouble b).bind fun _ => avoids_ok _

lemma avoids_compute (operator : ArithOp) (a b : Number) :
    Avoids .integerTooLong (compute operator a b) := by
  cases operator with
  | add => exact avoids_combine _ _ a b
  | sub => exact avoids_combine _ _ a b
  | mul => exact avoids_combine _ _ a b
  | div => exact (avoids_div a b).bind fun _ => avoids_ok _

lemma avoids_toDouble (x : Json) : Avoids .integerTooLong x.toDouble := by
  cases x with
  | bool b => exact avoids_doubleOfInteger _
  | int n => exact avoids_doubleOfInteger n
  | flt x => exact avoids_ok x
  | str s =>
    show Avoids _ (Numeral.double s)
    unfold Numeral.double
    dsimp only
    split
    · split
      · exact avoids_ok _
      split
      · exact avoids_ok _
      split
      · exact avoids_ok _
      · exact avoids_error nofun
    · exact avoids_error nofun
  | null => exact avoids_error nofun
  | arr xs => exact avoids_error nofun
  | obj fields => exact avoids_error nofun

/-! ### Scopes -/

lemma avoids_key (x : Json) : Avoids .integerTooLong x.key := by
  cases x with
  | arr xs => exact avoids_error nofun
  | obj fields => exact avoids_error nofun
  | null | bool b | int n | flt y | str s => exact avoids_ok _

variable (s : Scope)

lemma avoids_find? (name : Json) : Avoids .integerTooLong (s.find? name) :=
  (avoids_key name).bind fun _ => avoids_ok _

lemma avoids_putAt (name : Json) (e : Entry) : Avoids .integerTooLong (s.putAt name e) :=
  (avoids_key name).bind fun _ => avoids_ok _

lemma avoids_put (e : Entry) : Avoids .integerTooLong (s.put e) := avoids_putAt s _ e

lemma avoids_erase (name : Json) : Avoids .integerTooLong (s.erase name) := by
  unfold Scope.erase
  split
  · exact avoids_ok s
  · exact (avoids_key name).bind fun _ => avoids_ok _

lemma avoids_variableAt (name : Token) :
    Avoids (.fault .integerTooLong) (s.variableAt name) := by
  refine (avoids_find? s name.lexeme).ofFault.bind fun e => ?_
  split
  · exact avoids_ok _
  · exact avoids_error nofun

lemma avoids_functionAt (name : Token) :
    Avoids (.fault .integerTooLong) (s.functionAt name) := by
  refine (avoids_find? s name.lexeme).ofFault.bind fun e => ?_
  split
  · exact avoids_ok _
  · exact avoids_error nofun

lemma avoids_ensureFree (name : Token) :
    Avoids (.fault .integerTooLong) (s.ensureFree name) := by
  refine (avoids_find? s name.lexeme).ofFault.bind fun e => ?_
  split
  · exact avoids_error nofun
  · exact avoids_ok _

lemma avoids_fit (kind : TokenKind) (v : Value) :
    Avoids (.fault .integerTooLong) (kind.fit v) := by
  unfold TokenKind.fit
  split
  · cases v with
    | none => exact avoids_error nofun
    | some l =>
      unfold Ty.fit
      dsimp only
      split
      · exact avoids_ok _
      split
      · split
        · exact avoids_ok _
        · exact avoids_error nofun
        · rename_i f _ hf
          refine avoids_error fun h => avoids_toDouble l.datum ?_
          rw [hf, Misfit.fault.inj h]
      · exact avoids_error nofun
  · exact avoids_error nofun

lemma avoids_fitVariable (name : Token) (kind : TokenKind) (v : Value) :
    Avoids (.fault .integerTooLong) (Scope.fitVariable name kind v) := by
  unfold Scope.fitVariable
  split
  · exact avoids_ok _
  · exact avoids_error nofun
  · rename_i f hf
    refine avoids_error fun h => avoids_fit kind v ?_
    rw [hf, Failure.fault.inj h]

lemma avoids_assign (name : Token) (v : Value) :
    Avoids (.fault .integerTooLong) (s.assign name v) := by
  refine (avoids_find? s name.lexeme).ofFault.bind fun e => ?_
  split
  · exact (avoids_fitVariable _ _ _).bind fun _ =>
      (avoids_putAt _ _ _).ofFault.bind fun _ => avoids_ok _
  · exact avoids_error nofun

lemma avoids_declare (name : Token) (kind : TokenKind) (v : Value) :
    Avoids (.fault .integerTooLong) (s.declare name kind v) :=
  (avoids_ensureFree s name).bind fun _ => (avoids_fitVariable _ _ _).bind fun _ =>
    (avoids_put _ _).ofFault.bind fun _ => avoids_ok _

lemma avoids_define (f : Function) : Avoids (.fault .integerTooLong) (s.define f) :=
  (avoids_ensureFree s f.name).bind fun _ => (avoids_put _ _).ofFault

lemma avoids_bindArguments (f : Function) (line : Int) (arguments : List Value) :
    Avoids (.fault .integerTooLong) (f.bindArguments line arguments) := by
  unfold Function.bindArguments
  split
  · exact avoids_error nofun
  generalize Scope.empty = own
  induction f.parameters.zip arguments generalizing own with
  | nil => exact avoids_ok own
  | cons x pairs ih =>
    rw [List.foldlM_cons]
    refine Avoids.bind ?_ ih
    obtain ⟨p, v⟩ := x
    unfold Function.bindArguments.bindOne
    dsimp only
    split
    · exact (avoids_put _ _).ofFault
    · exact avoids_error nofun
    · rename_i g hg
      refine avoids_error fun h => avoids_fit p.type v ?_
      rw [hg, Failure.fault.inj h]

lemma avoids_resolve (line : Int) (t : Token) :
    Avoids (.fault .integerTooLong) (resolve s line (.token t)) := by
  have hliteral :
      Avoids (.fault .integerTooLong) (Failure.ofFault ((Literal.ofToken t).map some)) := by
    refine Avoids.ofFault ?_
    unfold Literal.ofToken
    split
    · exact avoids_ok _
    · exact avoids_ok _
    · exact avoids_ok _
    · exact avoids_error nofun
  unfold resolve
  dsimp only
  split
  · exact (avoids_variableAt s t).bind fun _ => avoids_ok _
  · exact hliteral
  · exact hliteral
  · exact hliteral
  · exact avoids_error nofun

end Alarm

/-! ### The discipline of the alarm -/

/-- **The discipline of an evaluation with an alarm**, beside the plain one. Integers are short, and
the digit limit does not come up in the first evaluation, unless it is the alarm itself; in the
second one it comes up in the place of the alarm. -/
def alarming (alarm : Failure) : Discipline :=
  { shortness.discipline with
    fault := fun f => f = .integerTooLong → alarm = .fault .integerTooLong
    swap := fun f g => f = alarm ∧ g = .fault .integerTooLong }

namespace Alarm

variable {alarm : Failure} {α : Type} {Q : α → Prop}

lemma meets_of_avoids {x : Except Fault α} (h : Avoids .integerTooLong x)
    (hQ : ∀ a, x = .ok a → Q a) : (alarming alarm).Meets Q x := by
  cases x with
  | ok a => exact hQ a rfl
  | error f => exact fun hf => absurd (congrArg Except.error hf) h

lemma checks_of_avoids {x : Except Failure α} (h : Avoids (.fault .integerTooLong) x)
    (hQ : ∀ a, x = .ok a → Q a) : (alarming alarm).Checks Q x := by
  cases x with
  | ok a => exact hQ a rfl
  | error f =>
    cases f with
    | error d => trivial
    | fault f => exact fun hf => absurd (congrArg (fun f => Except.error (Failure.fault f)) hf) h

lemma operand_of_short {v : Value} (hv : Value.Short v) : (alarming alarm).operand v :=
  ⟨hv, fun _ => nofun⟩

lemma meets_text {v : Value} (hv : Value.Short v) :
    (alarming alarm).Meets (fun _ => True) (Value.text v) := by
  obtain ⟨s, hs⟩ := hv.exists_text
  rw [hs]
  trivial

lemma checks_substitute {s : Scope} {t : Token} (hs : shortness.scope s) (ht : t.Short) :
    (alarming alarm).Checks Token.Short (substitute s t) := by
  unfold substitute
  split
  · have hvariable := Demands.checks_variableAt hs t
    refine Discipline.checks_bind
      (checks_of_avoids (avoids_variableAt s t) fun v hv => hvariable.of_ok hv) fun v hv => ?_
    have hshort : Value.Short v.value := hv
    split
    · rename_i l hl
      rw [hl] at hshort
      refine Discipline.checks_ofFault (Discipline.meets_bind (P := fun _ => True)
        (meets_text hshort) fun text _ => ?_)
      intro m hm
      obtain rfl := Except.ok.inj hm
      exact hshort
    · exact nofun
  · exact ht

lemma checks_joinTexts {line : Int} {a b : Value} (ha : Value.Short a) (hb : Value.Short b) :
    (alarming alarm).Checks (alarming alarm).operand (joinTexts line a b) := by
  unfold joinTexts
  split
  · refine Discipline.checks_bind (Discipline.checks_ofFault (meets_text hb)) fun printed _ => ?_
    split
    · exact operand_of_short (shortness_lasting.value_str _)
    · exact nofun
  · trivial

/-- **The operations beside arithmetic do not meet the digit limit.** -/
theorem steady : (alarming alarm).Steady where
  line_of_token _ := trivial
  token_atEnd _ := shortness_lasting.token_atEnd _
  value_nil := shortness_lasting.value_nil
  value_bool := shortness_lasting.value_bool
  value_ofToken := shortness_lasting.value_ofToken
  text := meets_text
  key _ := meets_of_avoids (avoids_key _) fun _ _ => trivial
  lexeme _ := .inr nofun
  substitute := checks_substitute
  resolve {s t l} hs ht hl := checks_of_avoids (avoids_resolve s l t) fun v hv =>
    operand_of_short ((shortness_lasting.kept.resolve hs ht hl).of_ok hv).1
  joinTexts _ ha hb := checks_joinTexts ha.1 hb.1
  assign {s name v} hs hname hv := checks_of_avoids (avoids_assign s name v) fun _ =>
    (shortness_lasting.kept.assign hs hname hv).of_ok
  declare {s name type v} hs hname hid htype hv :=
    checks_of_avoids (avoids_declare s name type v) fun _ =>
      (shortness_lasting.kept.declare hs hname hid htype hv).of_ok
  define {s f closing} hs hf := by
    have hdeclares : shortness.discipline.Declares f closing :=
      ⟨hf.name, hf.isIdentifier, hf.returns, hf.parameters, hf.opening, hf.body, hf.brace, hf.isBrace⟩
    exact checks_of_avoids (avoids_define s f) fun _ =>
      (shortness_lasting.kept.define hs hdeclares).of_ok
  erase {s name} hs hname hcleared := meets_of_avoids (avoids_erase s name.lexeme) fun _ =>
    (shortness_lasting.kept.erase hs hname hcleared).of_ok
  callee_own {s name} hs hname hcalled := checks_of_avoids (avoids_functionAt s name) fun _ =>
    (shortness_lasting.kept.callee_own hs hname ⟨hcalled.1, hcalled.2⟩).of_ok
  callee_program {p q name} hp hname hcalled :=
    checks_of_avoids (avoids_functionAt p name) fun _ =>
      (shortness_lasting.kept.callee_program hp hname ⟨hcalled.1, hcalled.2⟩).of_ok
  functionAt_eq hp _ := by rw [hp.1]

lemma binds : (alarming alarm).Binds := fun {f arguments line} hf ha hl =>
  checks_of_avoids (avoids_bindArguments f line arguments) fun _ =>
    (shortness_lasting.kept.bindArguments hf ha hl).of_ok

lemma stream {tokens : List Token} (htokens : ∀ t ∈ tokens, t.Short) :
    (alarming alarm).Stream tokens :=
  Discipline.stream_of_token (fun _ _ => trivial) htokens

lemma bodies : (alarming alarm).Bodies := fun hf => stream (shortness_lasting.body hf)

/-! ### Arithmetic -/

lemma avoids_numeric (line : Int) (v : Value) :
    Avoids (.fault .integerTooLong) (numeric line v) := by
  cases v with
  | none => exact avoids_error nofun
  | some l =>
    unfold numeric
    dsimp only
    split
    · exact avoids_ok l
    · exact avoids_error nofun

lemma avoids_numbers (left right : Literal) : Avoids .integerTooLong (numbers left right) := by
  unfold numbers
  split
  · exact avoids_ok _
  · exact avoids_error nofun

lemma avoids_convert {type : Ty} (htype : type = .int ∨ type = .flt) (a : Number) :
    Avoids .integerTooLong (Literal.convert type (.ofNumber a)) := by
  rcases htype with rfl | rfl
  · cases a with
    | int n => exact avoids_ok _
    | flt x => exact (avoids_integerOfDouble x).bind fun _ => avoids_ok _
  · exact (avoids_toDouble _).bind fun _ => avoids_ok _

lemma exists_flt_of_compute {operator : ArithOp} (hop : operator ≠ .div) {x : Binary64}
    {b exact : Number} (h : compute operator (.flt x) b = .ok exact) : ∃ y, exact = .flt y := by
  have hcombine : ∀ whole rounded, Number.combine whole rounded (.flt x) b = .ok exact →
      ∃ y, exact = .flt y := by
    intro whole rounded h
    obtain ⟨x', -, h⟩ := ok_of_bind h
    obtain ⟨y', -, h⟩ := ok_of_bind h
    exact ⟨_, (Except.ok.inj h).symm⟩
  cases operator with
  | add => exact hcombine (· + ·) Binary64.add h
  | sub => exact hcombine (· - ·) Binary64.sub h
  | mul => exact hcombine (· * ·) Binary64.mul h
  | div => exact absurd rfl hop

lemma short_convert {type : Ty} (htype : type = .int ∨ type = .flt) {x : Binary64} {l : Literal}
    (h : Literal.convert type (.ofNumber (.flt x)) = .ok l) : Value.Short (some l) := by
  rcases htype with rfl | rfl
  · obtain ⟨n, hn, hl⟩ := ok_of_bind h
    obtain rfl := Except.ok.inj hl
    have htruncate : x.truncate = .ok n := by
      have hx : integerOfDouble x = .ok n := hn
      unfold integerOfDouble at hx
      split at hx
      · rwa [← Except.ok.inj hx]
      · cases hx
      · cases hx
    refine Value.short_of_literal rfl ?_
    have hlt := Binary64.natAbs_lt_of_truncate htruncate
    simpa [Literal.isShort, Literal.int, isPrintableInteger] using hlt
  · obtain ⟨y, -, hl⟩ := ok_of_bind h
    obtain rfl := Except.ok.inj hl
    exact shortness_lasting.value_flt y

/-- The note on a cut does not meet the digit limit: an integer is not cut, and a double that is cut
to an integer is not that large. -/
lemma agree_noteCut {output : List String} {line : Int} {type : Ty}
    (htype : type = .int ∨ type = .flt) {exact : Number} {result : Literal}
    (hexact : type = .flt → ∃ y, exact = .flt y)
    (hresult : Literal.convert type (.ofNumber exact) = .ok result) :
    (Ground.quiet output).Agree ((alarming alarm).stop false) (fun _ => True)
      (noteCut line exact result) (noteCut line exact result) := by
  unfold noteCut
  split
  · exact .pure trivial
  · rename_i hcut
    cases exact with
    | int n =>
      obtain rfl : type = .int := htype.resolve_right fun h => by
        obtain ⟨y, hy⟩ := hexact h
        cases hy
      obtain rfl : .int n = result := Except.ok.inj hresult
      have hequals : (Json.int n).equals (.int n) = true := by
        simp [Json.equals, Json.number?, Number.equals, Number.compare?]
      exact absurd hequals hcut
    | flt x =>
      refine Discipline.agree_note ?_
      exact Discipline.meets_bind (P := fun _ => True) trivial fun _ _ =>
        Discipline.meets_bind (meets_text (short_convert htype hresult)) fun _ _ => trivial

/-- Arithmetic on short operands does not meet the digit limit, and comes to a sound literal. -/
lemma agree_arithmetic {output : List String} {line : Int} {operator : ArithOp} {a b : Value}
    (ha : Value.Short a) :
    (Ground.quiet output).Agree ((alarming alarm).stop false) Value.Sound
      (arithmetic line operator a b) (arithmetic line operator a b) := by
  refine (Discipline.agree_orFail (checks_of_avoids (Q := fun l => numeric line a = .ok l)
    (avoids_numeric line a) fun _ h => h)).bind fun left hleft => ?_
  refine (Discipline.agree_orFail (checks_of_avoids (Q := fun _ => True)
    (avoids_numeric line b) fun _ _ => trivial)).bind fun right _ => ?_
  obtain ⟨rfl, htype⟩ := type_of_numeric hleft
  split
  · refine (Discipline.agree_ensure (D := alarming alarm) trivial).bind fun _ _ => ?_
    refine (Discipline.agree_orHalt (meets_of_avoids (Q := fun _ => True)
      (avoids_numbers left right) fun _ _ => trivial)).bind fun (m, n) _ => ?_
    refine (Discipline.agree_orHalt (meets_of_avoids (Q := fun _ => True) (avoids_div m n)
      fun _ _ => trivial)).bind fun q _ => .pure ?_
    exact (shortness_lasting.value_flt q).sound
  · rename_i hop
    refine (Discipline.agree_orHalt (meets_of_avoids (Q := fun p => numbers left right = .ok p)
      (avoids_numbers left right) fun _ h => h)).bind fun (m, n) hnumbers => ?_
    refine (Discipline.agree_orHalt (meets_of_avoids (Q := fun e => compute operator m n = .ok e)
      (avoids_compute operator m n) fun _ h => h)).bind fun exact hexact => ?_
    refine (Discipline.agree_orHalt (meets_of_avoids
      (Q := fun l => Literal.convert left.type (.ofNumber exact) = .ok l)
      (avoids_convert htype exact) fun _ h => h)).bind fun result hresult => ?_
    have hdouble : left.type = .flt → ∃ y, exact = .flt y := by
      intro hflt
      rcases Literal.forms (ha.sound left rfl) with ⟨n, rfl⟩ | ⟨x, rfl⟩ | ⟨s, rfl⟩ | ⟨t, rfl⟩
      · cases hflt
      · have hm : some (Number.flt x) = some m := (number_of_numbers hnumbers).1
        obtain rfl := Option.some.inj hm
        exact exists_flt_of_compute hop hexact
      · cases hflt
      · cases hflt
    refine (agree_noteCut htype hdouble hresult).bind fun _ _ => .pure ?_
    rintro m ⟨⟩
    exact Digits.isSound_convert htype hresult

lemma concludeStep_of_long {op : Token} {left right v : Value} (hleft : Value.Short left)
    (hright : Value.Short right) (hsound : Value.Sound v) (hlong : v.isShort = false) (c : Console) :
    concludeStep op left right v c = .error (.failure (.fault .integerTooLong)) c := by
  obtain ⟨l, hl⟩ := hleft.exists_text
  obtain ⟨r, hr⟩ := hright.exists_text
  unfold concludeStep
  rw [hl, hr, Value.text_of_long hsound hlong]
  rfl

lemma agree_concludeStep {op : Token} {left right v : Value} (hleft : Value.Short left)
    (hright : Value.Short right) (hv : Value.Short v) (output : List String) :
    (Ground.quiet output).Agree ((alarming alarm).stop false) (alarming alarm).operand
      (concludeStep op left right v) (concludeStep op left right v) := by
  refine (Discipline.agree_note ?_).bind fun _ _ => .pure (operand_of_short hv)
  exact Discipline.meets_bind (meets_text hleft) fun _ _ =>
    Discipline.meets_bind (meets_text hright) fun _ _ =>
    Discipline.meets_bind (meets_text hv) fun _ _ => trivial

/-- **Operators are applied alike with the alarm and without**, up to the alarm. -/
theorem applies : (alarming alarm).Applies (applyAlarmed alarm) applyOperator := by
  intro own op operator a b hs hop ha hb
  have hline : (alarming alarm).line op.line := trivial
  rw [applyOperator_eq]
  refine (Discipline.agree_orFail (Discipline.checks_resolve steady hs hline ha)).bind
    fun left hleft => ?_
  refine (Discipline.agree_orFail (Discipline.checks_resolve steady hs hline hb)).bind
    fun right hright => ?_
  refine (Ground.Agree.of_quiet fun _ => agree_arithmetic hleft.1).bind fun v hsound => ?_
  by_cases hshort : v.isShort = true
  · rw [if_pos hshort]
    exact .of_quiet (agree_concludeStep hleft.1 hright.1 ⟨hsound, hshort⟩)
  · rw [if_neg hshort]
    intro c _
    refine ⟨fun d => ?_, trivial, ?_⟩
    · rw [concludeStep_of_long hleft.1 hright.1 hsound (Bool.not_eq_true _ ▸ hshort)]
      exact .swap ⟨rfl, rfl⟩ c
    · show (alarming alarm).failure alarm
      cases alarm with
      | error d => trivial
      | fault f => exact fun hf => congrArg Failure.fault hf

lemma rules : (alarming alarm).Rules (alarmedRule alarm) plainRule := by
  rw [← ruleBy_operation, ← operationBy_applyOperator]
  exact Discipline.rules_ruleBy steady (Discipline.operates_operationBy steady applies)

end Alarm

/-- **A program does the same with the alarm and without**, up to the alarm. -/
theorem alarmedProgram_eq {scope : Scope} (hscope : shortness.scope scope) {tokens : List Token}
    (htokens : ∀ t ∈ tokens, t.Short) (alarm : Failure) (depth : Nat) :
    alarmedProgram alarm depth tokens scope = alarmed alarm (runProgram depth tokens scope) := by
  have hcalls : (alarming alarm).Calls (invokeBy (alarmedRule alarm) depth)
      (invokeBy plainRule depth) :=
    Discipline.agree_invokeBy Alarm.rules Alarm.steady Alarm.binds Alarm.bodies trivial (.inl rfl)
  have hs (hline : (alarming alarm).line (endLine tokens)) : (alarming alarm).Settings
      (Discipline.programSetting tokens) (Discipline.programSetting tokens) :=
    ⟨rfl, rfl, hline, .inl ⟨rfl, rfl, fun _ h => ⟨rfl, h⟩⟩⟩
  obtain ⟨hfollows, hends⟩ := Discipline.run_tokensBy Alarm.rules Alarm.steady hcalls
    (Alarm.stream htokens) hs hscope .empty
  have hfollows := hfollows .empty
  rw [Console.append_empty, invokeBy_plainRule, runBy_plainRule] at hfollows
  show runBy _ _ (Discipline.programSetting tokens) _ =
    alarmed alarm (run (invoke depth) (Discipline.programSetting tokens) _)
  generalize runBy (alarmedRule alarm) _ _ _ = r at hfollows hends
  generalize run _ _ _ = r' at hfollows
  -- the two runs are the same up to the alarm, where the fault stands in its place
  cases hfollows with
  | same =>
    rw [onState_under_empty]
    cases r with
    | ok v last => rfl
    | error e last =>
      -- the digit limit comes up only where it is the alarm
      by_cases he : e = .failure (.fault .integerTooLong)
      · subst he
        have halarm : alarm = .fault .integerTooLong := hends.2 rfl
        rw [halarm]
        rfl
      · unfold alarmed
        split
        · rename_i h
          cases h
          exact absurd rfl he
        · rfl
  | cut hcut => exact absurd hcut not_false
  | @swap f g hswap last =>
    obtain ⟨rfl, rfl⟩ := hswap
    rw [Frame.under_empty]
    rfl

/-! ### Sessions -/

namespace Alarm

lemma avoids_lexeme (cs : List Char) : Avoids .integerTooLong (Numeral.lexeme cs) := by
  unfold Numeral.lexeme
  dsimp only
  split
  · split
    · exact avoids_error fun h => by cases h
    · unfold Numeral.ofDigits
      split
      · exact avoids_ok _
      · exact avoids_error fun h => by cases h
  · exact avoids_ok _

lemma avoids_scan (line : Int) (c : Char) (cs : List Char) :
    Avoids (.fault .integerTooLong) (Lexer.scan line c cs) := by
  unfold Lexer.scan
  split
  · exact avoids_ok _
  · split <;> exact avoids_ok _
  · split
    · exact avoids_ok _
    split
    · split
      · exact avoids_ok _
      · exact avoids_error nofun
    split
    · dsimp only
      split
      · exact avoids_ok _
      · rename_i f hf
        refine avoids_error fun h => avoids_lexeme (c :: cs.takeWhile Lexer.isNumberPart) ?_
        rw [hf, Failure.fault.inj h]
    split <;> exact avoids_ok _

/-- Lexing counts the digits of integers, and prints none. -/
lemma avoids_tokensFrom (line : Nat) (text : List Char) :
    Avoids (.fault .integerTooLong) (Lexer.tokensFrom line text) := by
  fun_induction Lexer.tokensFrom line text with
  | case1 => exact avoids_ok _
  | case2 line c cs f hs =>
    have h := avoids_scan line c cs
    rw [hs] at h
    exact avoids_error fun hf => h (congrArg Except.error hf)
  | case3 line c cs s hs _ f hf ih =>
    rw [hf] at ih
    exact avoids_error fun hf => ih (congrArg Except.error hf)
  | case4 => exact avoids_ok _
  | case5 => exact avoids_ok _

end Alarm

lemma printing_of_shortness {s : Scope} (hs : shortness.scope s) : printing.scope s := by
  rintro ⟨key, entry⟩ hx
  obtain ⟨hkey, hentry⟩ := hs _ hx
  refine ⟨hkey, ?_⟩
  cases entry with
  | var v =>
    have hv : Value.Short v.value := hentry
    exact hv.exists_text
  | func f =>
    intro t ht l hl
    exact (hentry t ht l hl).exists_text

/-- A run fails to print an integer only if the evaluation of its tokens does. -/
lemma Session.outcome_perform_eq_tooLong {s : Session} (hs : shortness.scope s.scope) {p : Program}
    (hp : p.Lexed) (depth : Nat) :
    (s.perform depth p).1.outcome = .error (.failure (.fault .integerTooLong)) ↔
      ∃ tokens last, p.tokens = .ok tokens ∧
        runProgram depth tokens s.scope = .error (.failure (.fault .integerTooLong)) last := by
  show (observe (s.perform depth p)).outcome = _ ↔ _
  cases htokens : p.tokens with
  | error f =>
    rw [observe_perform_error htokens]
    constructor
    · intro h
      cases p with
      | text source => exact absurd (htokens.trans (by cases h; rfl)) (Alarm.avoids_tokensFrom 1 _)
      | stream tokens => cases htokens
    · rintro ⟨_, _, h, -⟩
      cases h
  | ok tokens =>
    have hlexed := Program.token_of_lexed (fun _ _ => Token.short_lex) hp htokens
    have hends := shortness_lasting.ends_program hlexed hs depth
    rw [observe_perform_ok htokens]
    cases hr : runProgram depth tokens s.scope with
    | ok v last =>
      rw [hr] at hends
      -- what is left in the scope is printable, so the report at the end does not meet the limit
      have hconcluded := Printing.concluded_eq (printing_of_shortness hends.1.2.2) s.verbosity v
      simp only [Observation.ofRun, hconcluded]
      constructor
      · intro h
        cases h
      · rintro ⟨_, _, h, hlast⟩
        cases h
        rw [hr] at hlast
        cases hlast
    | error e last =>
      constructor
      · intro h
        refine ⟨tokens, last, rfl, ?_⟩
        rw [hr, Except.error.inj h]
      · rintro ⟨_, _, h, hlast⟩
        cases h
        rw [hr] at hlast
        cases hlast
        rfl

/-- **Integers keep to the digit limit.** After any session of texts, the variables hold integers of
no more digits than the limit, and so is the last result; the scope can be described. For the next
program from a text:

* if it comes to a value, this is no integer of more digits either;
* to check the scopes of calls for such integers changes nothing, neither where a body starts and
  ends nor before and after each expression in it, whatever the alarm;
* it fails to print an integer just where a step of arithmetic has come to one of more digits than
  the limit: if these steps raise an alarm instead, then the alarm takes the place of this failure,
  and nothing else changes, whatever the alarm;
* the run in the session fails to print an integer only if the evaluation of its tokens does. -/
theorem Session.integers_limited (verbosity : Nat) (steps : List (Nat × Program))
    (hsteps : ∀ x ∈ steps, x.2.Lexed) :
    ((reached verbosity steps).scope.isShort = true ∧
      Value.isShort (reached verbosity steps).result = true ∧
      ∃ text, (reached verbosity steps).scope.describe = .ok text) ∧
    ∀ (depth : Nat) (p : Program), p.Lexed →
      (∀ v, ((reached verbosity steps).perform depth p).1.outcome = .ok v →
        Value.isShort v = true) ∧
      (∀ tokens, p.tokens = .ok tokens →
        (∀ alarm, checkedProgram Scope.isShort alarm depth tokens (reached verbosity steps).scope =
            runProgram depth tokens (reached verbosity steps).scope ∧
          runProgramBy (checkingScopes Scope.isShort alarm plainRule) depth tokens
              (reached verbosity steps).scope =
            runProgram depth tokens (reached verbosity steps).scope) ∧
        ∀ alarm, alarmedProgram alarm depth tokens (reached verbosity steps).scope =
          alarmed alarm (runProgram depth tokens (reached verbosity steps).scope)) ∧
      (((reached verbosity steps).perform depth p).1.outcome =
          .error (.failure (.fault .integerTooLong)) ↔
        ∃ tokens last, p.tokens = .ok tokens ∧
          runProgram depth tokens (reached verbosity steps).scope =
            .error (.failure (.fault .integerTooLong)) last) := by
  have hlex : ∀ source tokens, Token.lex source = .ok tokens → ∀ t ∈ tokens, t.Short :=
    fun _ _ => Token.short_lex
  have hscope := shortness_lasting.scope_reached hlex verbosity hsteps
  have hresult : Value.Short (reached verbosity steps).result :=
    shortness_lasting.result_after hlex Demands.scope_empty shortness_lasting.value_nil hsteps
  refine ⟨⟨isShort_of_shortness hscope, hresult.isShort,
    Printing.exists_describe (printing_of_shortness hscope)⟩, fun depth p hp => ⟨?_, ?_, ?_⟩⟩
  · intro v hv
    exact ((shortness_lasting.value_perform hlex hscope hresult hp depth).2 v hv).isShort
  · intro tokens htokens
    have hshort := Program.token_of_lexed hlex hp htokens
    exact ⟨fun alarm => ⟨checkedProgram_isShort hscope hshort alarm depth,
      checkingScopes_isShort hscope hshort alarm depth⟩,
      fun alarm => alarmedProgram_eq hscope hshort alarm depth⟩
  · exact outcome_perform_eq_tooLong hscope hp depth

/-- A session that squares a number nine times, to more than four thousand digits. -/
def squaringSteps : List (Nat × Program) :=
  [(1, .text "int a = 99999999; int square(int n) \x7b return n * n; \x7d"),
    (2, .text "a = run square(a); a = a * a; a = a * a; a = a * a; a = a * a; a = a * a"),
    (2, .text "a = a * a; a = run square(a); a = a * a")]

/-- The number is printed, but not its square: the step in the body of the function raises any
alarm. -/
theorem Session.integers_limited_squaring :
    ((reached 1 squaringSteps).perform 2 (.text "output a; run square(a)")).1.outcome =
        .error (.failure (.fault .integerTooLong)) ∧
      (reached 1 squaringSteps).scope.isShort = true ∧
      ∃ tokens last, Token.lex "output a; run square(a)" = .ok tokens ∧
        ∀ alarm, alarmedProgram alarm 2 tokens (reached 1 squaringSteps).scope =
          .error (.failure alarm) last := by
  have hlexed : ∀ x ∈ squaringSteps, x.2.Lexed := by simp [squaringSteps, Program.Lexed]
  have hfails : ((reached 1 squaringSteps).perform 2 (.text "output a; run square(a)")).1.outcome =
      .error (.failure (.fault .integerTooLong)) := by decide +kernel
  obtain ⟨⟨hshort, -⟩, hnext⟩ := integers_limited 1 squaringSteps hlexed
  obtain ⟨-, halarms, hiff⟩ := hnext 2 (.text "output a; run square(a)") trivial
  obtain ⟨tokens, last, htokens, hrun⟩ := hiff.1 hfails
  refine ⟨hfails, hshort, tokens, last, htokens, fun alarm => ?_⟩
  rw [(halarms tokens htokens).2 alarm, hrun]
  rfl

end Hive
