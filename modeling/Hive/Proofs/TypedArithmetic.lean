import Hive.Proofs.Typing

/-!
Arithmetic on typed values. Operators give sound literals of a numeric type, and on sound operands
they meet no fault but a limit on numbers: a divisor is looked at before it is used. With this the
discipline of types is kept.
-/

namespace Hive

open Evaluator

namespace Typing

variable {lexed : Prop}

/-! ### Numeric operands -/

lemma number_of_numeric {l : Literal} (hl : l.isSound = true) (ht : l.type = .int ∨ l.type = .flt) :
    ∃ a, l.number? = some a := by
  rcases Literal.forms hl with ⟨n, rfl⟩ | ⟨x, rfl⟩ | ⟨s, rfl⟩ | ⟨b, rfl⟩
  · exact ⟨_, rfl⟩
  · exact ⟨_, rfl⟩
  · rcases ht with ht | ht <;> cases ht
  · rcases ht with ht | ht <;> cases ht

lemma checks_numeric {line : Int} {v : Value} (hv : (typing lexed).value v) :
    (typing lexed).Checks (fun l => (l.type = .int ∨ l.type = .flt) ∧
      (lexed → ∃ a, l.number? = some a)) (numeric line v) := by
  cases v with
  | none => trivial
  | some l =>
    unfold numeric
    dsimp only
    split
    · rename_i ht
      exact ⟨ht, fun hlexed => number_of_numeric (hv hlexed l rfl) ht⟩
    · trivial

lemma meets_numbers {left right : Literal} (hl : lexed → ∃ a, left.number? = some a)
    (hr : lexed → ∃ b, right.number? = some b) :
    (typing lexed).Meets (fun p => right.number? = some p.2) (numbers left right) := by
  unfold numbers
  split
  · rename_i h
    exact h
  · rename_i hnone
    intro hlexed
    obtain ⟨a, ha⟩ := hl hlexed
    obtain ⟨b, hb⟩ := hr hlexed
    exact absurd hb (hnone a b ha)

lemma meets_of_isNumeric {α : Type} {x : Except Fault α}
    (h : ∀ f, x = .error f → f.isNumeric = true) : (typing lexed).Meets (fun _ => True) x := by
  cases x with
  | ok a => trivial
  | error f => exact fun _ => h f rfl

lemma meets_compute {operator : ArithOp} (hop : operator ≠ .div) (a b : Number) :
    (typing lexed).Meets (fun _ => True) (compute operator a b) := by
  refine meets_of_isNumeric fun f h => ?_
  cases operator with
  | add => exact Number.isNumeric_combine h
  | sub => exact Number.isNumeric_combine h
  | mul => exact Number.isNumeric_combine h
  | div => exact absurd rfl hop

lemma meets_convert {type : Ty} (ht : type = .int ∨ type = .flt) (n : Number) :
    (typing lexed).Meets (fun l => l.isSound = true) (Literal.convert type (.ofNumber n)) := by
  rcases ht with rfl | rfl
  · refine Discipline.meets_bind (meets_of_isNumeric fun f h => ?_) fun _ _ => rfl
    cases n with
    | int n => cases h
    | flt x => exact isNumeric_integerOfDouble h
  · refine Discipline.meets_bind (meets_of_isNumeric fun f h => ?_) fun _ _ => rfl
    cases n with
    | int n => exact isNumeric_doubleOfInteger h
    | flt x => cases h

/-! ### Operators -/

lemma agree_divide {output : List String} {line : Int} {left right : Literal}
    (hl : lexed → ∃ a, left.number? = some a) (hr : lexed → ∃ b, right.number? = some b) :
    (Ground.quiet output).Agree ((typing lexed).stop false) (typing lexed).operand
      (divide line left right) (divide line left right) := by
  refine (Discipline.agree_ensure (D := typing lexed) trivial).bind fun _ hzero => ?_
  refine (Discipline.agree_orHalt (meets_numbers hl hr)).bind fun (a, b) hb => ?_
  have hb' : b.isZero = false := by
    rw [show right.number? = some b from hb] at hzero
    exact hzero
  exact (Discipline.agree_orHalt (meets_of_isNumeric fun f h => Number.isNumeric_div hb' h)).bind
    fun x _ => .pure ⟨value_some fun _ => rfl, nofun⟩

lemma agree_noteCut {output : List String} {line : Int} {exact : Number} {result : Literal} :
    (Ground.quiet output).Agree ((typing lexed).stop false) (fun _ => True)
      (noteCut line exact result) (noteCut line exact result) := by
  unfold noteCut
  split
  · exact .pure trivial
  · refine Discipline.agree_note (Discipline.meets_bind (meets_of_isNumeric fun f h => ?_)
      fun _ _ => Discipline.meets_bind (meets_text (v := some result)) fun _ _ => trivial)
    exact Number.isNumeric_text h

lemma agree_arithmetic {output : List String} {line : Int} {operator : ArithOp} {a b : Value}
    (ha : (typing lexed).value a) (hb : (typing lexed).value b) :
    (Ground.quiet output).Agree ((typing lexed).stop false) (typing lexed).operand
      (arithmetic line operator a b) (arithmetic line operator a b) := by
  refine (Discipline.agree_orFail (checks_numeric ha)).bind fun left ⟨htype, hl⟩ => ?_
  refine (Discipline.agree_orFail (checks_numeric hb)).bind fun right ⟨_, hr⟩ => ?_
  split
  · exact agree_divide hl hr
  · rename_i hop
    refine (Discipline.agree_orHalt (meets_numbers hl hr)).bind fun (m, n) _ => ?_
    refine (Discipline.agree_orHalt (meets_compute hop m n)).bind fun exact _ => ?_
    refine (Discipline.agree_orHalt (meets_convert htype exact)).bind fun result hresult => ?_
    exact agree_noteCut.bind fun _ _ => .pure ⟨value_some fun _ => hresult, nofun⟩

lemma agree_applyOperator {own : Scope} {op : Token} {operator : ArithOp} {a b : Item}
    (ha : (typing lexed).Checks (typing lexed).operand (resolve own op.line a))
    (hb : (typing lexed).Checks (typing lexed).operand (resolve own op.line b))
    (output : List String) :
    (Ground.quiet output).Agree ((typing lexed).stop false) (typing lexed).operand
      (applyOperator own op operator a b) (applyOperator own op operator a b) := by
  refine (Discipline.agree_orFail ha).bind fun left hleft =>
    (Discipline.agree_orFail hb).bind fun right hright =>
    (agree_arithmetic hleft.1 hright.1).bind fun result hresult =>
    (Discipline.agree_note ?_).bind fun _ _ => .pure hresult
  exact Discipline.meets_bind meets_text fun _ _ => Discipline.meets_bind meets_text fun _ _ =>
    Discipline.meets_bind meets_text fun _ _ => trivial

lemma checks_joinTexts {line : Int} {a b : Value} (ha : (typing lexed).value a) :
    (typing lexed).Checks (typing lexed).operand (joinTexts line a b) := by
  unfold joinTexts
  split
  · rename_i datum
    refine Discipline.checks_bind (Discipline.checks_ofFault meets_text) fun printed _ => ?_
    split
    · exact ⟨value_some fun _ => rfl, nofun⟩
    · rename_i hdatum
      intro hlexed
      have hsound := ha hlexed _ rfl
      cases datum with
      | str s => exact absurd rfl (hdatum s)
      | _ => cases hsound
  · trivial

end Typing

/-- **The discipline of types is kept.** -/
theorem typing_kept (lexed : Prop) : (typing lexed).Kept where
  line_of_token _ := trivial
  token_atEnd _ _ := ⟨⟨"", rfl⟩, nofun⟩
  value_nil _ := nofun
  value_bool _ := Typing.value_some fun _ => rfl
  value_ofToken := Typing.value_ofToken
  text _ := Typing.meets_text
  key := Typing.meets_key
  lexeme {t} ht := by
    -- only the tokens of a text are known to have texts for lexemes
    by_cases hlexed : lexed
    · exact .inl (ht hlexed).1
    · exact .inr fun h => absurd h hlexed
  substitute := Typing.checks_substitute
  resolve hs ht _ := Typing.checks_resolve hs ht
  applyOperator {s op operator a b} hs _ ha hb c := by
    have h : ∀ t, (typing lexed).token t →
        (typing lexed).Checks (typing lexed).operand (resolve s op.line (.token t)) :=
      fun _ ht => Typing.checks_resolve hs ht
    exact Discipline.outcome_of_agree (Typing.agree_applyOperator
      (Discipline.checks_resolve_of_token h ha) (Discipline.checks_resolve_of_token h hb)) c
  joinTexts _ ha _ := Typing.checks_joinTexts ha.1
  assign := Typing.checks_assign
  declare hs hname _ htype hv := Typing.checks_declare hs hname htype hv
  define := Typing.checks_define
  erase hs hname _ := Typing.meets_erase hs hname
  callee_own hs hname _ := Typing.checks_functionAt hs hname
  callee_program hp hname _ := Typing.checks_functionAt hp.2 hname
  functionAt_eq hp _ := by rw [hp.1]
  bindArguments hf ha _ := Typing.checks_bindArguments hf ha

lemma typing_stream {lexed : Prop} {tokens : List Token}
    (htokens : ∀ t ∈ tokens, (typing lexed).token t) : (typing lexed).Stream tokens :=
  Discipline.stream_of_token (fun _ _ => trivial) htokens

lemma typing_bodies (lexed : Prop) : (typing lexed).Bodies :=
  fun hf => typing_stream fun t ht hlexed => (hf.2 hlexed).2 t ht

end Hive
