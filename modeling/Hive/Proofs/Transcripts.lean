import Hive.Proofs.Equivariance
import Hive.Proofs.Observations
import Hive.Proofs.Segmentation
import Mathlib.Logic.Equiv.Basic

/-!
Sessions with new names. The tokens of a text are proper: what is written like an identifier is one.
So a session of lexed programs, and the same one with all identifiers renamed, can be followed side
by side: each run ends as the other one does, with the same output, and the scopes between the runs
are those of the first session, renamed.
-/

namespace Hive

open Evaluator

/-! ### Lexed tokens -/

namespace Lexer

lemma kind_of_isIdentifier {lexeme rest : List Char} {kind : TokenKind} {literal : Json}
    (h : Stands lexeme rest kind literal) (hword : isIdentifier (String.ofList lexeme) = true) :
    kind = .identifier := by
  have hhead : ∀ c ∈ lexeme.head?, c.isAlpha = true := by
    rintro c hc
    obtain ⟨cs, rfl⟩ := List.head?_eq_some_iff.1 (Option.mem_def.1 hc)
    unfold isIdentifier at hword
    rw [String.toList_ofList] at hword
    simp only [Bool.and_eq_true] at hword
    exact hword.1.1
  have hkind : TokenKind.ofWord (String.ofList lexeme) = .identifier := by
    unfold isIdentifier at hword
    split at hword
    · cases hword
    · simp only [Bool.and_eq_true, beq_iff_eq] at hword
      exact hword.2
  have halnum (c : Char) (hc : c ∈ lexeme.head?) : c.isAlphanum = true :=
    isAlphanum_of_isAlpha (hhead c hc)
  have hdigit (c : Char) (hc : c ∈ lexeme.head?) : c.isDigit = false :=
    isDigit_of_isAlpha (hhead c hc)
  -- a token that starts with a letter is a word, and the words of the language are no identifiers
  cases h with
  | @single c _ _ h =>
    rw [single?_of_isAlphanum (halnum c rfl)] at h
    cases h
  | @joined c _ _ _ h =>
    rw [compound?_of_isAlphanum (halnum c rfl)] at h
    cases h
  | @alone c _ _ _ h =>
    rw [compound?_of_isAlphanum (halnum c rfl)] at h
    cases h
  | string pieces => exact absurd (hhead '\x22' rfl) (by decide)
  | integer hne hdigits =>
    obtain ⟨c, cs, rfl⟩ := List.exists_cons_of_ne_nil hne
    exact absurd (hdigits c (by simp)) (ne_true_of_eq_false (hdigit c rfl))
  | double hne hwhole =>
    obtain ⟨c, cs, rfl⟩ := List.exists_cons_of_ne_nil hne
    exact absurd (hwhole c (by simp)) (ne_true_of_eq_false (hdigit c rfl))
  | word _ _ _ h => exact (ofWord_of_mem h).symm.trans hkind
  | identifier => rfl

end Lexer

/-- **The tokens of a text are proper.** -/
theorem Token.proper_lex {source : String} {tokens : List Token} (h : lex source = .ok tokens) :
    ∀ t ∈ tokens, t.Proper := by
  refine Lexer.forall_tokensFrom (fun line => Token.proper_atEnd line)
    (fun {line c cs s kind literal} hs htoken => ?_) h
  intro hkind word hword
  have hread := Lexer.reads_of_scan hs
  obtain ⟨written, token, rest⟩ := s
  cases htoken
  cases hread with
  | token hstands =>
    obtain rfl := Json.str.inj hword
    exact eq_false_of_ne_true fun hid => hkind (Lexer.kind_of_isIdentifier hstands hid)

/-! ### Sessions -/

/-- The runs end alike: with the same value, or with stops that are alike. -/
def EndAlike : Except Stop Value → Except Stop Value → Prop
  | .ok v, .ok w => w = v
  | .error e, .error e' => e.Like e'
  | _, _ => False

/-- **What is seen of a run with new names**: the same end, output and result, and the scope with
new names. -/
structure Renaming.Seen (ρ : Renaming) (o o' : Observation) : Prop where
  outcome : EndAlike o.outcome o'.outcome
  output : o'.output = o.output
  result : o'.result = o.result
  scope : o'.scope = ρ.scope o.scope

/-- What can be seen of a session in which programs are run one after the other, each with a bound
of its own on how deep calls nest. -/
def Session.transcript (s : Session) : List (Nat × List Token) → List Observation
  | [] => []
  | (depth, tokens) :: steps =>
    observe (s.run depth tokens) :: transcript (s.run depth tokens).2 steps

namespace Renaming

variable {ρ : Renaming}

/-- The scope is described at the end of both runs, or of none. -/
lemma endAlike_concluded (verbosity : Nat) (v : Value) (s : Scope) :
    EndAlike (concluded verbosity v s) (concluded verbosity v (ρ.scope s)) := by
  have hsame := sameFault_describe (ρ := ρ) s
  unfold concluded
  split
  · rfl
  · revert hsame
    cases s.describe <;> cases (ρ.scope s).describe
    · exact fun h => h
    · exact False.elim
    · exact False.elim
    · exact fun _ => rfl

lemma seen_ofRun {r r' : EStateM.Result Stop Frame Value} (h : Mirrored ρ.Frames (· = ·) r r')
    (verbosity : Nat) (result : Value) :
    ρ.Seen (.ofRun verbosity result r) (.ofRun verbosity result r') ∧
      (Observation.ofRun verbosity result r).scope.Proper := by
  cases r with
  | ok v last =>
    cases r' with
    | error e' last' => exact h.elim
    | ok w last' =>
      obtain ⟨rfl, hframes⟩ := h
      obtain ⟨hscope, hproper⟩ := hframes.scope
      refine ⟨⟨?_, hframes.output, rfl, hscope⟩, hproper⟩
      show EndAlike (concluded verbosity v last.scope) (concluded verbosity v last'.scope)
      rw [hscope]
      exact endAlike_concluded verbosity v last.scope
  | error e last =>
    cases r' with
    | ok w last' => exact h.elim
    | error e' last' =>
      obtain ⟨hlike, hframes⟩ := h
      obtain ⟨hscope, hproper⟩ := hframes.scope
      exact ⟨⟨hlike, hframes.output, rfl, hscope⟩, hproper⟩

/-- Two sessions between runs, of which the second one has new names. -/
structure Sessions (ρ : Renaming) (s s' : Session) : Prop where
  verbosity : s'.verbosity = s.verbosity
  result : s'.result = s.result
  scope : s'.scope = ρ.scope s.scope
  proper : s.scope.Proper

/-- **One run**: what is seen of it with new names, and the sessions after it. -/
lemma seen_run {s s' : Session} (hss : ρ.Sessions s s') (depth : Nat) {tokens : List Token}
    (htokens : ∀ t ∈ tokens, t.Proper) :
    ρ.Seen (Session.observe (s.run depth tokens))
        (Session.observe (s'.run depth (tokens.map ρ.token))) ∧
      ρ.Sessions (s.run depth tokens).2 (s'.run depth (tokens.map ρ.token)).2 := by
  have hobserve : Session.observe (s.run depth tokens) =
      .ofRun s.verbosity s.result (runProgram depth tokens s.scope) :=
    Session.observe_runAfter depth [] tokens s
  have hobserve' : Session.observe (s'.run depth (tokens.map ρ.token)) =
      .ofRun s.verbosity s.result (runProgram depth (tokens.map ρ.token) (ρ.scope s.scope)) := by
    rw [← hss.verbosity, ← hss.result, ← hss.scope]
    exact Session.observe_runAfter depth [] (tokens.map ρ.token) s'
  obtain ⟨hseen, hproper⟩ :=
    seen_ofRun (mirrored_runProgram (ρ := ρ) depth htokens hss.proper) s.verbosity s.result
  rw [← hobserve, ← hobserve'] at hseen
  rw [← hobserve] at hproper
  have hverbosity := Session.verbosity_runAfter depth [] tokens s
  have hverbosity' := Session.verbosity_runAfter depth [] (tokens.map ρ.token) s'
  exact ⟨hseen, hverbosity'.trans (hss.verbosity.trans hverbosity.symm), hseen.result, hseen.scope,
    hproper⟩

lemma seen_transcript {s s' : Session} (hss : ρ.Sessions s s') {steps : List (Nat × List Token)}
    (hsteps : ∀ x ∈ steps, ∀ t ∈ x.2, t.Proper) :
    List.Forall₂ ρ.Seen (s.transcript steps)
      (s'.transcript (steps.map fun x => (x.1, x.2.map ρ.token))) := by
  induction steps generalizing s s' with
  | nil => exact .nil
  | cons x steps ih =>
    obtain ⟨hseen, hnext⟩ := seen_run hss x.1 (hsteps x (by simp))
    exact .cons hseen (ih hnext fun y hy => hsteps y (by simp [hy]))

end Renaming

/-- **Names do not matter.** Rename the identifiers in the lexed programs of a session, such that
different ones stay different. Then run by run the value is the same, or the kind and the line of
the error, and so is the output; and the scope has the new names in its keys and entries, with the
parameters and bodies of functions, in the same order. -/
theorem Session.transcript_renamed (ρ : Renaming) (verbosity : Nat)
    (steps : List (Nat × List Token))
    (hsteps : ∀ x ∈ steps, ∃ source, Token.lex source = .ok x.2) :
    List.Forall₂ ρ.Seen ((start verbosity).transcript steps)
      ((start verbosity).transcript (steps.map fun x => (x.1, x.2.map ρ.token))) := by
  have hstart : ρ.Sessions (start verbosity) (start verbosity) := ⟨rfl, rfl, rfl, .empty⟩
  refine Renaming.seen_transcript hstart fun x hx => ?_
  obtain ⟨source, hlex⟩ := hsteps x hx
  exact Token.proper_lex hlex

section Swapping

/-- The renaming that swaps `x` and `f`. -/
def swapping : Renaming where
  map := Equiv.swap ⟨"x", by decide +kernel⟩ ⟨"f", by decide +kernel⟩
  injective := Equiv.injective _

/-- A session with a function `f`, whose parameter has the name of a variable. Then the variable is
cleared. -/
def swappingTexts : List (Nat × String) :=
  [(1, "int x = 3; int f(int x) \x7b int y = x * x; return y; \x7d"),
    (2, "int y = run f(x); output y; clear x; y"),
    (2, "output run f(y); x = 1")]

def swappingSteps : List (Nat × List Token) :=
  swappingTexts.map fun x => (x.1, (Token.lex x.2).toOption.getD [])

theorem Session.transcript_renamed_swapping :
    ((start 1).transcript swappingSteps).map Observation.outcome =
        [.ok none, .ok (some (.int 9)),
          .error (.failure (.error (.on 1 (.variableNotDeclared (.str "x")))))] ∧
      ((start 1).transcript swappingSteps).map Observation.output = [[], ["9"], ["81"]] ∧
      List.Forall₂ swapping.Seen ((start 1).transcript swappingSteps)
        ((start 1).transcript (swappingSteps.map fun x => (x.1, x.2.map swapping.token))) := by
  have hlexed : ∀ x ∈ swappingTexts, (Token.lex x.2).toOption.isSome = true := by decide +kernel
  refine ⟨by decide +kernel, by decide +kernel, transcript_renamed swapping 1 swappingSteps ?_⟩
  intro x hx
  obtain ⟨⟨depth, source⟩, hmem, rfl⟩ := List.mem_map.1 hx
  have hsome := hlexed _ hmem
  refine ⟨source, ?_⟩
  cases hlex : Token.lex source with
  | ok tokens => rfl
  | error f =>
    rw [hlex] at hsome
    cases hsome

end Swapping

end Hive
