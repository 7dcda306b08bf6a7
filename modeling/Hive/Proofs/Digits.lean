import Hive.Proofs.Functions
import Hive.Proofs.Printing

/-!
Integers within the digit limit. Integers are unbounded and products double in length, and nothing
looks at the size of one; but the digits of a lexed integer are counted, the whole part of a double
is not that large, and a step of arithmetic is noted with its result before the result goes on. So
the integers that variables hold, in the scope of a program and in those of calls, are **short**,
and so are those that runs come to.
-/

namespace Hive

open Evaluator

/-- No variable of the scope holds an integer of more digits than the limit. -/
def Scope.isShort (s : Scope) : Bool :=
  s.entries.all fun x => match x.2 with
    | .var v => Value.isShort v.value
    | .func _ => true

/-- The value is sound, and no integer of more digits than the limit. -/
structure Value.Short (v : Value) : Prop where
  sound : Value.Sound v
  isShort : Value.isShort v = true

/-- The literal that the token stands for, if it does, is short. -/
def Token.Short (t : Token) : Prop := ∀ l, Literal.ofToken t = .ok l → Value.Short (some l)

/-- **The demand that integers are short**, those of variables and those that the bodies of
functions hold. -/
def shortness : Demands where
  token := Token.Short
  value := Value.Short
  entry
    | .var v => Value.Short v.value
    | .func f => ∀ t ∈ f.body, t.Short

lemma isShort_of_shortness {s : Scope} (hs : shortness.scope s) : s.isShort = true := by
  unfold Scope.isShort
  rw [List.all_eq_true]
  rintro ⟨key, entry⟩ hx
  cases entry with
  | var v =>
    have hv : Value.Short v.value := (hs _ hx).2
    exact hv.isShort
  | func f => rfl

/-! ### Printing short values -/

namespace Value

lemma isShort_int (n : Int) : Value.isShort (some (.int n)) = isPrintableInteger n := by
  simp [Value.isShort, Literal.isShort, Literal.int]

lemma text_int (n : Int) : Value.text (some (.int n)) =
    if isPrintableInteger n then .ok (decimalText n) else .error .integerTooLong :=
  rfl

lemma Short.exists_text {v : Value} (hv : v.Short) : ∃ s, Value.text v = .ok s := by
  obtain ⟨hsound, hshort⟩ := hv
  cases v with
  | none => exact ⟨_, rfl⟩
  | some l =>
    rcases Literal.forms (hsound l rfl) with ⟨n, rfl⟩ | ⟨x, rfl⟩ | ⟨s, rfl⟩ | ⟨b, rfl⟩
    · rw [isShort_int] at hshort
      rw [text_int, if_pos hshort]
      exact ⟨_, rfl⟩
    · exact ⟨_, rfl⟩
    · exact ⟨_, rfl⟩
    · exact ⟨_, rfl⟩

lemma text_of_long {v : Value} (hsound : Value.Sound v) (hlong : v.isShort = false) :
    Value.text v = .error .integerTooLong := by
  cases v with
  | none => cases hlong
  | some l =>
    rcases Literal.forms (hsound l rfl) with ⟨n, rfl⟩ | ⟨x, rfl⟩ | ⟨s, rfl⟩ | ⟨b, rfl⟩
    · rw [isShort_int] at hlong
      have hn : ¬isPrintableInteger n = true := by simp [hlong]
      rw [text_int, if_neg hn]
    · cases hlong
    · cases hlong
    · cases hlong

lemma Short.of_text {v : Value} (hsound : Value.Sound v) {s : String} (hs : Value.text v = .ok s) :
    v.Short := by
  refine ⟨hsound, ?_⟩
  by_contra hlong
  rw [text_of_long hsound (Bool.not_eq_true _ ▸ hlong)] at hs
  cases hs

lemma short_of_literal {l : Literal} (hsound : l.isSound = true) (hshort : l.isShort = true) :
    Value.Short (some l) := by
  refine ⟨?_, hshort⟩
  intro m hm
  obtain rfl := Option.mem_some.1 hm
  exact hsound

end Value

/-! ### Steps of arithmetic -/

namespace Digits

lemma isSound_convert {type : Ty} (htype : type = .int ∨ type = .flt) {x : Json} {l : Literal}
    (h : Literal.convert type x = .ok l) : l.isSound = true := by
  rcases htype with rfl | rfl
  · obtain ⟨n, -, hl⟩ := ok_of_bind h
    rw [← Except.ok.inj hl]
    rfl
  · obtain ⟨y, -, hl⟩ := ok_of_bind h
    rw [← Except.ok.inj hl]
    rfl

lemma sound_of_arithmetic {line : Int} {operator : ArithOp} {x y v : Value} {c d : Console}
    (h : arithmetic line operator x y c = .ok v d) : Value.Sound v := by
  obtain ⟨l, c₁, hl, h⟩ := bind_eq_ok h
  obtain ⟨r, c₂, -, h⟩ := bind_eq_ok h
  obtain ⟨-, htype⟩ := type_of_numeric (orFail_eq_ok hl)
  cases operator with
  | div =>
    obtain ⟨-, c₃, -, h⟩ := bind_eq_ok h
    obtain ⟨⟨a, b⟩, c₄, -, h⟩ := bind_eq_ok h
    obtain ⟨q, c₅, -, h⟩ := bind_eq_ok h
    cases h
    rintro m ⟨⟩
    rfl
  | add | sub | mul =>
    obtain ⟨⟨a, b⟩, c₃, -, h⟩ := bind_eq_ok h
    obtain ⟨exact, c₄, -, h⟩ := bind_eq_ok h
    obtain ⟨result, c₅, hresult, h⟩ := bind_eq_ok h
    obtain ⟨-, c₆, -, h⟩ := bind_eq_ok h
    cases h
    rintro m ⟨⟩
    exact isSound_convert htype (orHalt_eq_ok hresult)

/-- The note on a step prints its result, so the result is short. -/
lemma short_of_applyOperator {s : Scope} {op : Token} {operator : ArithOp} {a b : Item} {v : Value}
    {c d : Console} (h : applyOperator s op operator a b c = .ok v d) : Value.Short v := by
  obtain ⟨text, htext⟩ := Printing.printable_of_applyOperator h
  obtain ⟨left, c₁, -, h⟩ := bind_eq_ok h
  obtain ⟨right, c₂, -, h⟩ := bind_eq_ok h
  obtain ⟨result, c₃, hresult, h⟩ := bind_eq_ok h
  obtain ⟨-, c₄, -, h⟩ := bind_eq_ok h
  cases h
  exact .of_text (sound_of_arithmetic hresult) htext

lemma short_toToken {l : Literal} {line : Int} {t : Token} (hl : Value.Short (some l))
    (h : l.toToken line = .ok t) : t.Short := by
  obtain ⟨text, -, ht⟩ := ok_of_bind h
  obtain rfl := Except.ok.inj ht
  intro m hm
  obtain rfl := Except.ok.inj hm
  exact hl

end Digits

/-- **Integers stay short in the whole course of an evaluation.** -/
theorem shortness_lasting : shortness.Lasting where
  token_atEnd _ := nofun
  token_toToken := Digits.short_toToken
  value_nil := ⟨nofun, rfl⟩
  value_bool _ := Value.short_of_literal rfl rfl
  value_flt _ := Value.short_of_literal rfl rfl
  value_str _ := Value.short_of_literal rfl rfl
  value_ofToken ht h := ht _ h
  value_applyOperator := Digits.short_of_applyOperator
  value_of_entry hv := hv
  entry_declare _ _ hl := hl
  entry_assign _ hl := hl
  entry_define hf t ht := (hf.body t ht).1
  entry_bind _ _ hl := hl
  body hf := hf

/-- **The tokens of a text are short.** -/
theorem Token.short_lex {source : String} {tokens : List Token} (h : lex source = .ok tokens) :
    ∀ t ∈ tokens, t.Short := by
  intro t ht l hl
  obtain ⟨text, htext⟩ := Token.printable_lex h t ht l hl
  refine .of_text ?_ htext
  rintro m ⟨⟩
  exact (Token.sound_lex h t ht).2 l hl

/-! ### The scopes of calls -/

section Calls

variable {scope : Scope} (hscope : shortness.scope scope) {tokens : List Token}
  (htokens : ∀ t ∈ tokens, t.Short)

include hscope htokens

/-- To check that the scopes of calls are short where bodies start and end changes nothing. -/
lemma checkedProgram_isShort (alarm : Stop) (depth : Nat) :
    checkedProgram Scope.isShort alarm depth tokens scope = runProgram depth tokens scope := by
  have h := shortness_lasting
  exact checkedProgram_of_kept h.kept h.bodies not_false (fun _ _ => not_false) trivial
    (fun _ hs => ⟨rfl, hs⟩) (fun _ => isShort_of_shortness) (Demands.Lasting.stream htokens) hscope
    depth

/-- To check it before and after each expression in a body changes nothing either. -/
lemma checkingScopes_isShort (alarm : Stop) (depth : Nat) :
    runProgramBy (checkingScopes Scope.isShort alarm plainRule) depth tokens scope =
      runProgram depth tokens scope := by
  have hk := shortness_lasting.kept
  have hrule : shortness.discipline.Rules plainRule
      (checkingScopes Scope.isShort alarm plainRule) :=
    rules_checkingScopes (Discipline.rules_plainRule hk) not_false fun _ => isShort_of_shortness
  have hcalls : shortness.discipline.Calls (invokeBy plainRule depth)
      (invokeBy (checkingScopes Scope.isShort alarm plainRule) depth) :=
    Discipline.agree_invokeBy hrule hk hk.bindArguments shortness_lasting.bodies trivial (.inl rfl)
  rw [invokeBy_plainRule] at hcalls
  obtain ⟨hfollows, -⟩ := Discipline.run_program hk hcalls (fun _ hs => ⟨rfl, hs⟩)
    (Demands.Lasting.stream htokens) hscope
  have heq := hfollows.eq not_false fun _ _ => not_false
  rwa [onState_under_empty] at heq

end Calls

end Hive
