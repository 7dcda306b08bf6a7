import Hive.Proofs.Policies
import Hive.Proofs.Quotes
import Hive.Proofs.Sessions

/-!
Where problems are reported. Whatever token a problem is found at, be it one of the program, one of
a stored body that runs much later, the value of a variable in the place of its name, or the end of
a body, its line is that of a token of the text. Main statement: `Session.problem_placed`.
-/

namespace Hive

open Evaluator Lexer

/-! ### The lines of a program -/

/-- The policy that problems are reported on lines of some tokens, which all functions are made
of. -/
def placing (line : Int → Prop) : Policy where
  token t := line t.line
  follows _ _ := True
  line := line
  own _ f := ∀ t ∈ f.body, line t.line
  known _ f := ∀ t ∈ f.body, line t.line
  called _ := True
  exhausted := True

section Placing

variable {line : Int → Prop}

lemma placing_lasting : (placing line).Lasting where
  line_of_token ht := ht
  token_atEnd hl := hl
  token_toToken ht h := by
    obtain ⟨text, -, h⟩ := ok_of_bind h
    rw [← Except.ok.inj h]
    exact ht
  own_define hf _ t ht := (hf.body t ht).1
  known_of_own h := h
  called_of_key _ _ := trivial

lemma placing_stream {tokens : List Token} (h : ∀ t ∈ tokens, line t.line) :
    (placing line).discipline.Stream tokens :=
  Discipline.stream_of_token (fun _ _ => trivial) h

lemma placing_bodies : (placing line).discipline.Bodies := by
  rintro f ⟨k, -, hf⟩
  exact placing_stream hf

/-- **A program reports problems on the lines of its tokens only**, if the functions in its scope
have bodies on these lines. -/
theorem place_of_runProgram (line : Int → Prop) {depth : Nat} {tokens : List Token} {scope : Scope}
    (htokens : ∀ t ∈ tokens, line t.line)
    (hscope : scope.Functions fun _ f => ∀ t ∈ f.body, line t.line) {d : Diagnostic} {last : Frame}
    (h : runProgram depth tokens scope = .error (.failure (.error d)) last) :
    ∃ l, d.line = .int l ∧ line l := by
  have hk : (placing line).discipline.Kept := placing_lasting.kept
  have hcalls : (placing line).discipline.Calls (invoke depth) (invoke depth) :=
    Discipline.agree_invoke hk placing_bodies trivial (.inl rfl)
  obtain ⟨-, hends⟩ := Discipline.run_program hk hcalls placing_lasting.programs_self
    (placing_stream htokens) hscope
  rw [h] at hends
  exact hends.2

end Placing

/-! ### The lines of a text -/

lemma Token.line_of_lex {source : String} {tokens : List Token} (h : lex source = .ok tokens)
    {t : Token} (ht : t ∈ tokens) : ∃ offset, t.line = lineAt source.toList offset := by
  have hstart : 1 = 1 + ([] : List Char).count '\n' := rfl
  obtain ⟨spans, hspans⟩ := segmented_of_tokensFrom hstart h
  rcases written_of_segmented hspans t ht with ⟨span, written⟩ | rfl
  · exact ⟨span.first, written.line⟩
  · exact ⟨source.toList.length, rfl⟩

/-- **Problems are reported where the text has something.** A problem that comes up when a text runs
in a fresh session is on one of its lines, and on the line of one of its tokens, that of the end
among them; or else the text does not lex, and it is on the line of the quote that opens a string
which is never closed. -/
theorem Session.problem_placed (verbosity depth : Nat) (source : String) (d : Diagnostic)
    (h : ((start verbosity).runSource depth source).1.outcome = .error (.failure (.error d))) :
    ∃ line : Nat, d.line = .int line ∧ 1 ≤ line ∧ line ≤ 1 + source.toList.count '\n' ∧
      ((∃ tokens, Token.lex source = .ok tokens ∧ ∃ t ∈ tokens, t.line = line) ∨
        d.problem = .unterminatedString ∧
          ∃ opening, openQuote? source.toList = some opening ∧
            line = lineAt source.toList opening) := by
  -- a line is where some offset of the text is, so it is one of the lines of the text
  have hplace : ∀ offset, 1 ≤ lineAt source.toList offset ∧
      lineAt source.toList offset ≤ 1 + source.toList.count '\n' :=
    fun offset => ⟨Nat.le_add_right 1 _, lineAt_le _ offset⟩
  unfold runSource at h
  cases hlex : Token.lex source with
  | ok tokens =>
    rw [hlex] at h
    rcases stop_of_runAfter h with ⟨last, hrun⟩ | ⟨f, hf⟩
    · obtain ⟨l, hd, t, ht, hl⟩ := place_of_runProgram (fun l => ∃ t ∈ tokens, t.line = l)
        (fun t ht => ⟨t, ht, rfl⟩) Policy.functions_empty hrun
      obtain ⟨offset, hoffset⟩ := Token.line_of_lex hlex ht
      have hline : l = lineAt source.toList offset := hl.symm.trans hoffset
      refine ⟨lineAt source.toList offset, hline ▸ hd, (hplace offset).1, (hplace offset).2, ?_⟩
      exact .inl ⟨tokens, rfl, t, ht, hoffset⟩
    · cases hf
  | error f =>
    rw [hlex] at h
    obtain rfl := Stop.failure.inj (Except.error.inj h)
    have hstart : 1 = 1 + ([] : List Char).count '\n' := rfl
    obtain ⟨opening, hopening, rfl⟩ := openQuote_of_tokensFrom hstart hlex
    exact ⟨lineAt source.toList opening, rfl, (hplace opening).1, (hplace opening).2,
      .inr ⟨rfl, opening, hopening, rfl⟩⟩

/-- A text with a function that fails on its second line, where it is called from the fourth one. -/
def failingSource : String := "int f(int n) \x7b\n return n + missing;\n\x7d\n run f(1)"

theorem Session.problem_placed_failing :
    ((start 0).runSource 1 failingSource).1.outcome =
        .error (.failure (.error (.on 2 (.undefinedVariable (.str "missing"))))) ∧
      ∃ tokens, Token.lex failingSource = .ok tokens ∧ ∃ t ∈ tokens, t.line = 2 := by
  have houtcome : ((start 0).runSource 1 failingSource).1.outcome =
      .error (.failure (.error (.on 2 (.undefinedVariable (.str "missing"))))) := by decide +kernel
  refine ⟨houtcome, ?_⟩
  obtain ⟨line, hline, -, -, hplaced⟩ := problem_placed 0 1 failingSource _ houtcome
  have htwo : (line : Int) = 2 := (Json.int.inj hline).symm
  rcases hplaced with ⟨tokens, hlex, t, ht, ht'⟩ | ⟨hproblem, -⟩
  · exact ⟨tokens, hlex, t, ht, ht'.trans htwo⟩
  · cases hproblem

end Hive
