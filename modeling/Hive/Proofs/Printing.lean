import Hive.Proofs.Observations
import Hive.Proofs.Reductions
import Hive.Proofs.Segmentation

/-!
Values that can be printed. All can but integers of more digits than the limit. Such an integer does
not get beyond the step that computes it, since the note on the step prints it, and the digits of a
lexed one are counted; so no variable ever holds one. It follows that a scope can always be
described, and that the verbosity of a session makes no difference to what its programs do.
-/

namespace Hive

open Evaluator

def Value.Printable (v : Value) : Prop := ∃ s, Value.text v = .ok s

/-- The literal that the token stands for, if it does, can be printed. -/
def Token.Printable (t : Token) : Prop :=
  ∀ l, Literal.ofToken t = .ok l → Value.Printable (some l)

/-- **The demand that values can be printed**, those of variables and those that the bodies of
functions hold. -/
def printing : Demands where
  token := Token.Printable
  value := Value.Printable
  entry
    | .var v => Value.Printable v.value
    | .func f => ∀ t ∈ f.body, t.Printable

namespace Printing

/-- An integer can be printed if its digits are not too many. -/
lemma printable_int {n : Int} : Value.Printable (some (.int n)) ↔ n.natAbs < printableBound := by
  have htext : Value.text (some (.int n)) =
      if isPrintableInteger n then .ok (decimalText n) else .error .integerTooLong := rfl
  unfold Value.Printable
  rw [htext]
  by_cases h : n.natAbs < printableBound
  · simp [isPrintableInteger, h]
  · simp [isPrintableInteger, h]

lemma printable_toToken {l : Literal} {line : Int} {t : Token} (hl : Value.Printable (some l))
    (h : l.toToken line = .ok t) : t.Printable := by
  obtain ⟨text, -, ht⟩ := ok_of_bind h
  obtain rfl := Except.ok.inj ht
  intro m hm
  obtain rfl := Except.ok.inj hm
  exact hl

/-- The note on a step prints its result. -/
lemma printable_of_applyOperator {s : Scope} {op : Token} {operator : ArithOp} {a b : Item}
    {v : Value} {c d : Console} (h : applyOperator s op operator a b c = .ok v d) :
    Value.Printable v := by
  obtain ⟨left, c₁, -, h⟩ := bind_eq_ok h
  obtain ⟨right, c₂, -, h⟩ := bind_eq_ok h
  obtain ⟨result, c₃, -, h⟩ := bind_eq_ok h
  obtain ⟨u, c₄, hnote, h⟩ := bind_eq_ok h
  cases h
  obtain ⟨text, c₅, htext, -⟩ := bind_eq_ok hnote
  obtain ⟨left', -, hnext⟩ := ok_of_bind (orHalt_eq_ok htext)
  obtain ⟨right', -, hnext⟩ := ok_of_bind hnext
  obtain ⟨s, hs, -⟩ := ok_of_bind hnext
  exact ⟨s, hs⟩

end Printing

/-- **Values can be printed in the whole course of an evaluation.** -/
theorem printing_lasting : printing.Lasting where
  token_atEnd _ := nofun
  token_toToken := Printing.printable_toToken
  value_nil := ⟨_, rfl⟩
  value_bool _ := ⟨_, rfl⟩
  value_flt _ := ⟨_, rfl⟩
  value_str _ := ⟨_, rfl⟩
  value_ofToken ht h := ht _ h
  value_applyOperator := Printing.printable_of_applyOperator
  value_of_entry hv := hv
  entry_declare _ _ hl := hl
  entry_assign _ hl := hl
  entry_define hf t ht := (hf.body t ht).1
  entry_bind _ _ hl := hl
  body hf := hf

/-! ### Lexed tokens -/

namespace Lexer

/-- The digits of an integer that is scanned are not too many. -/
lemma length_of_scan {line : Nat} {c : Char} {cs : List Char} {s : Scan} {literal : Json}
    (hs : scan line c cs = .ok s) (htoken : s.token = some (.literal .int, literal)) :
    s.written.length ≤ digitLimit ∧ (∀ d ∈ s.written, d.isDigit = true) ∧
      literal = .int (Text.decimalValue s.written) := by
  have happ := scan_append hs
  have hread := reads_of_scan hs
  obtain ⟨written, token, rest⟩ := s
  cases htoken
  cases hread with
  | token hstands =>
    cases hstands with
    | single h => cases isLiteral_single? h
    | joined h => cases (isLiteral_compound? h).2
    | alone h => cases (isLiteral_compound? h).1
    | @word d ds _ _ _ _ _ h =>
      have hword := isLiteral_ofWord (String.ofList (d :: ds))
      rw [ofWord_of_mem h] at hword
      cases hword
    | integer hne hdigits hrest =>
      exact ⟨withinLimit_of_scan (.integer hne hdigits hrest) happ.symm hs _ rfl, hdigits, rfl⟩

end Lexer

/-- **The tokens of a text can be printed.** -/
theorem Token.printable_lex {source : String} {tokens : List Token} (h : lex source = .ok tokens) :
    ∀ t ∈ tokens, t.Printable := by
  refine Lexer.forall_tokensFrom (fun _ => nofun) (fun {line c cs s kind literal} hs htoken => ?_) h
  have hsound := Lexer.sound_of_soundToken (Lexer.soundToken_scan hs _ htoken)
    (String.ofList s.written) line
  intro l hl
  -- all but integers have a printed form, and the digits of an integer have been counted
  rcases Literal.forms (hsound.2 l hl) with ⟨n, rfl⟩ | ⟨x, rfl⟩ | ⟨text, rfl⟩ | ⟨b, rfl⟩
  · unfold Literal.ofToken at hl
    split at hl
    · cases hl
    · cases hl
    · rename_i hkind
      cases hkind
      cases hl
      obtain ⟨hlength, hdigits, hn⟩ := Lexer.length_of_scan hs htoken
      cases hn
      have hvalue := Text.decimalValue_lt hdigits
      exact Printing.printable_int.2
        (Nat.lt_of_lt_of_le hvalue (Nat.pow_le_pow_right (by decide) hlength))
    · cases hl
  · exact ⟨_, rfl⟩
  · exact ⟨_, rfl⟩
  · exact ⟨_, rfl⟩

/-! ### Verbosity -/

namespace Printing

lemma exists_mapM {ε α β : Type} {f : α → Except ε β} {xs : List α} (h : ∀ x ∈ xs, ∃ y, f x = .ok y) :
    ∃ ys, xs.mapM f = .ok ys := by
  induction xs with
  | nil => exact ⟨[], rfl⟩
  | cons x xs ih =>
    obtain ⟨y, hy⟩ := h x (by simp)
    obtain ⟨ys, hys⟩ := ih fun z hz => h z (by simp [hz])
    refine ⟨y :: ys, ?_⟩
    rw [List.mapM_cons, hy, hys]
    rfl

lemma exists_describe {s : Scope} (hs : printing.scope s) : ∃ text, s.describe = .ok text := by
  have hlisted : ∀ x ∈ s.entries, ∃ text, x.2.listed = .ok text := by
    rintro ⟨key, entry⟩ hx
    cases entry with
    | var v =>
      obtain ⟨text, htext⟩ : Value.Printable v.value := (hs _ hx).2
      simp only [Entry.listed, Entry.describe, Variable.describe, htext]
      exact ⟨_, rfl⟩
    | func f => exact ⟨_, rfl⟩
  obtain ⟨texts, htexts⟩ := exists_mapM hlisted
  unfold Scope.describe
  rw [htexts]
  exact ⟨_, rfl⟩

lemma concluded_eq {s : Scope} (hs : printing.scope s) (verbosity : Nat) (v : Value) :
    concluded verbosity v s = .ok v := by
  obtain ⟨text, htext⟩ := exists_describe hs
  unfold concluded
  rw [htext]
  exact ite_self _

/-- What can be seen of a program does not depend on the verbosity. -/
lemma observe_perform_eq {s t : Session} (hs : printing.scope s.scope) (hscope : t.scope = s.scope)
    (hresult : t.result = s.result) {p : Program} (hp : p.Lexed) (depth : Nat) :
    Session.observe (t.perform depth p) = Session.observe (s.perform depth p) := by
  cases htokens : p.tokens with
  | error f =>
    rw [Session.observe_perform_error htokens, Session.observe_perform_error htokens, hscope,
      hresult]
  | ok tokens =>
    have hlexed : ∀ t ∈ tokens, t.Printable :=
      Program.token_of_lexed (fun _ _ => Token.printable_lex) hp htokens
    have hends := printing_lasting.ends_program hlexed hs depth
    rw [Session.observe_perform_ok htokens, Session.observe_perform_ok htokens, hscope, hresult]
    cases hr : runProgram depth tokens s.scope with
    | error e last => rfl
    | ok v last =>
      rw [hr] at hends
      have hlast : printing.scope last.scope := hends.1.2.2
      -- the verbosity matters only where the scope cannot be printed
      simp only [Observation.ofRun, concluded_eq hlast]

/-- Sessions that start alike go on alike. -/
lemma same_after {s t : Session} (hs : printing.scope s.scope) (hscope : t.scope = s.scope)
    (hresult : t.result = s.result) {steps : List (Nat × Program)}
    (hsteps : ∀ x ∈ steps, x.2.Lexed) :
    (t.after steps).scope = (s.after steps).scope ∧
      (t.after steps).result = (s.after steps).result := by
  induction steps generalizing s t with
  | nil => exact ⟨hscope, hresult⟩
  | cons x steps ih =>
    have hx := hsteps x (by simp)
    have hseen := observe_perform_eq hs hscope hresult hx x.1
    have hnext := printing_lasting.scope_perform (fun _ _ => Token.printable_lex) hs hx x.1
    exact ih hnext (congrArg Observation.scope hseen) (congrArg Observation.result hseen)
      fun y hy => hsteps y (by simp [hy])

end Printing

/-- **Verbosity changes nothing** but the notes: after any texts, every program from a text ends in
the same way, with the same output, and leaves the same result and the same scope. -/
theorem Session.verbosity_unseen (v w : Nat) (steps : List (Nat × Program))
    (hsteps : ∀ x ∈ steps, x.2.Lexed) (depth : Nat) (p : Program) (hp : p.Lexed) :
    observe ((reached v steps).perform depth p) = observe ((reached w steps).perform depth p) := by
  have hstart : printing.scope (start w).scope := Demands.scope_empty
  have hscope : printing.scope (reached w steps).scope :=
    printing_lasting.scope_reached (fun _ _ => Token.printable_lex) w hsteps
  obtain ⟨hsame, hresult⟩ := Printing.same_after (t := start v) hstart rfl rfl hsteps
  exact Printing.observe_perform_eq hscope hsame hresult hp depth

/-- With notes shown and without, the session that declares a variable and a function comes to the
same value. -/
theorem Session.verbosity_unseen_doubling :
    ((reached 0 doublingSteps).perform 2 (.text "output y; run twice(20 + 1)")).1.outcome.toOption =
        some (some (.int 42)) ∧
      observe ((reached 3 doublingSteps).perform 2 (.text "output y; run twice(20 + 1)")) =
        observe ((reached 0 doublingSteps).perform 2 (.text "output y; run twice(20 + 1)")) :=
  ⟨by decide +kernel, verbosity_unseen 3 0 doublingSteps (by simp [doublingSteps, Program.Lexed]) 2 _
    trivial⟩

end Hive
