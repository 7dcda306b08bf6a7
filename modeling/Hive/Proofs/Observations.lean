import Hive.Proofs.Demands
import Hive.Proofs.Sessions

/-!
What can be seen of the runs in a session. An **observation** leaves out the notes: it is how a run
ends, what it has written, and the scope and the result that it leaves behind. It depends on the
evaluation of the tokens only, and on whether the scope is described at the end. Demands that last
hold of the scope after every session of texts.
-/

namespace Hive

open Evaluator

/-- **What can be seen of a run** beside its notes. -/
structure Observation where
  outcome : Except Stop Value
  output : List String
  result : Value
  scope : Scope

def Session.observe (p : Report × Session) : Observation :=
  ⟨p.1.outcome, p.1.output, p.2.result, p.2.scope⟩

/-- How a run ends that has come to a value: if notes are shown, the scope has to be described. -/
def concluded (verbosity : Nat) (v : Value) (scope : Scope) : Except Stop Value :=
  if verbosity = 0 then .ok v
  else match scope.describe with
    | .ok _ => .ok v
    | .error f => .error (.failure (.fault f))

lemma eq_of_concluded {verbosity : Nat} {v w : Value} {scope : Scope}
    (h : concluded verbosity v scope = .ok w) : v = w := by
  unfold concluded at h
  split at h
  · exact Except.ok.inj h
  · split at h
    · exact Except.ok.inj h
    · cases h

/-- What can be seen of an evaluation, given the result before it. -/
def Observation.ofRun (verbosity : Nat) (result : Value) :
    EStateM.Result Stop Frame Value → Observation
  | .ok v last => ⟨concluded verbosity v last.scope, last.console.output, v, last.scope⟩
  | .error e last => ⟨.error e, last.console.output, result, last.scope⟩

namespace Session

@[simp]
lemma result_settle (s : Session) (notes : List Note) : (s.settle notes).2.result = s.result := by
  unfold settle
  dsimp only
  split <;> rfl

@[simp]
lemma verbosity_settle (s : Session) (notes : List Note) :
    (s.settle notes).2.verbosity = s.verbosity := by
  unfold settle
  dsimp only
  split <;> rfl

/-- **What can be seen of a run** is what can be seen of the evaluation of its tokens. -/
lemma observe_runAfter (depth : Nat) (before : List Note) (tokens : List Token) (s : Session) :
    observe (s.runAfter depth before tokens) =
      .ofRun s.verbosity s.result (runProgram depth tokens s.scope) := by
  unfold runAfter
  cases runProgram depth tokens s.scope with
  | error e last => simp [observe, Observation.ofRun]
  | ok v last =>
    by_cases hv : s.verbosity = 0
    · simp [hv, observe, Observation.ofRun, concluded]
    · cases hd : last.scope.describe with
      | ok text =>
        have hnote : scopeNote last.scope = .ok (.remark 1 ("environment: " ++ text)) := by
          simp only [scopeNote, hd]
          rfl
        simp [hv, hnote, hd, observe, Observation.ofRun, concluded]
      | error f =>
        have hnote : scopeNote last.scope = .error f := by
          simp only [scopeNote, hd]
          rfl
        simp [hv, hnote, hd, observe, Observation.ofRun, concluded]

lemma verbosity_runAfter (depth : Nat) (before : List Note) (tokens : List Token) (s : Session) :
    (s.runAfter depth before tokens).2.verbosity = s.verbosity := by
  unfold runAfter
  cases runProgram depth tokens s.scope with
  | error e last => simp
  | ok v last =>
    dsimp only
    split
    · simp
    · split <;> simp

end Session

/-! ### Programs as tokens -/

def Program.tokens : Program → Except Failure (List Token)
  | .text source => Token.lex source
  | .stream tokens => .ok tokens

namespace Session

lemma observe_perform_ok {p : Program} {tokens : List Token} (h : p.tokens = .ok tokens)
    (depth : Nat) (s : Session) :
    observe (s.perform depth p) =
      .ofRun s.verbosity s.result (runProgram depth tokens s.scope) := by
  cases p with
  | text source =>
    have hlex : Token.lex source = .ok tokens := h
    show observe (s.runSource depth source) = _
    unfold runSource
    rw [hlex]
    exact observe_runAfter depth _ tokens s
  | stream others =>
    obtain rfl := Except.ok.inj h
    exact observe_runAfter depth _ others s

lemma observe_perform_error {p : Program} {f : Failure} (h : p.tokens = .error f) (depth : Nat)
    (s : Session) :
    observe (s.perform depth p) = ⟨.error (.failure f), [], s.result, s.scope⟩ := by
  cases p with
  | text source =>
    have hlex : Token.lex source = .error f := h
    show observe (s.runSource depth source) = _
    unfold runSource
    rw [hlex]
    simp [observe]
  | stream others => cases h

end Session

/-! ### Demands in a session -/

/-- The tokens of a program from a text are as demanded, if those of texts are. -/
lemma Program.token_of_lexed {P : Token → Prop}
    (hlex : ∀ source tokens, Token.lex source = .ok tokens → ∀ t ∈ tokens, P t) {p : Program}
    (hp : p.Lexed) {tokens : List Token} (h : p.tokens = .ok tokens) : ∀ t ∈ tokens, P t := by
  cases p with
  | text source => exact hlex source tokens h
  | stream others =>
    obtain ⟨source, hsource⟩ := hp
    exact hlex source tokens (hsource.trans h)

namespace Demands.Lasting

variable {d : Demands} (h : d.Lasting)

include h

lemma ends_program {tokens : List Token} (htokens : ∀ t ∈ tokens, d.token t) {scope : Scope}
    (hscope : d.scope scope) (depth : Nat) :
    (d.discipline.ground tokens.length).Ends (d.discipline.stop false) d.value
      (runProgram depth tokens scope) :=
  (Discipline.run_program h.kept (Discipline.agree_invoke h.kept h.bodies trivial (.inl rfl))
    (fun _ hs => ⟨rfl, hs⟩) (stream htokens) hscope).2

lemma scope_perform
    (hlex : ∀ source tokens, Token.lex source = .ok tokens → ∀ t ∈ tokens, d.token t)
    {s : Session} (hs : d.scope s.scope) {p : Program} (hp : p.Lexed) (depth : Nat) :
    d.scope (s.perform depth p).2.scope := by
  cases htokens : p.tokens with
  | error f =>
    have hseen := congrArg Observation.scope (Session.observe_perform_error htokens depth s)
    rw [show (s.perform depth p).2.scope = _ from hseen]
    exact hs
  | ok tokens =>
    have hends := h.ends_program (Program.token_of_lexed hlex hp htokens) hs depth
    have hseen := congrArg Observation.scope (Session.observe_perform_ok htokens depth s)
    rw [show (s.perform depth p).2.scope = _ from hseen]
    cases hr : runProgram depth tokens s.scope with
    | ok v last => rw [hr] at hends; exact hends.1.2.2
    | error e last => rw [hr] at hends; exact hends.1.2.2

lemma scope_after
    (hlex : ∀ source tokens, Token.lex source = .ok tokens → ∀ t ∈ tokens, d.token t)
    {s : Session} (hs : d.scope s.scope) {steps : List (Nat × Program)}
    (hsteps : ∀ x ∈ steps, x.2.Lexed) : d.scope (s.after steps).scope := by
  induction steps generalizing s with
  | nil => exact hs
  | cons x steps ih =>
    exact ih (h.scope_perform hlex hs (hsteps x (by simp)) x.1) fun y hy => hsteps y (by simp [hy])

lemma value_perform
    (hlex : ∀ source tokens, Token.lex source = .ok tokens → ∀ t ∈ tokens, d.token t)
    {s : Session} (hs : d.scope s.scope) (hresult : d.value s.result) {p : Program} (hp : p.Lexed)
    (depth : Nat) :
    d.value (s.perform depth p).2.result ∧
      ∀ v, (s.perform depth p).1.outcome = .ok v → d.value v := by
  show d.value (Session.observe (s.perform depth p)).result ∧
    ∀ v, (Session.observe (s.perform depth p)).outcome = .ok v → d.value v
  cases htokens : p.tokens with
  | error f =>
    rw [Session.observe_perform_error htokens]
    exact ⟨hresult, fun v hv => by cases hv⟩
  | ok tokens =>
    have hends := h.ends_program (Program.token_of_lexed hlex hp htokens) hs depth
    rw [Session.observe_perform_ok htokens]
    cases hr : runProgram depth tokens s.scope with
    | error e last => exact ⟨hresult, fun v hv => by cases hv⟩
    | ok v last =>
      rw [hr] at hends
      refine ⟨hends.2, fun w hw => ?_⟩
      -- the report may fail, but it does not change the value
      rw [← eq_of_concluded hw]
      exact hends.2

lemma result_after
    (hlex : ∀ source tokens, Token.lex source = .ok tokens → ∀ t ∈ tokens, d.token t)
    {s : Session} (hs : d.scope s.scope) (hresult : d.value s.result) {steps : List (Nat × Program)}
    (hsteps : ∀ x ∈ steps, x.2.Lexed) : d.value (s.after steps).result := by
  induction steps generalizing s with
  | nil => exact hresult
  | cons x steps ih =>
    have hx := hsteps x (by simp)
    exact ih (h.scope_perform hlex hs hx x.1) (h.value_perform hlex hs hresult hx x.1).1
      fun y hy => hsteps y (by simp [hy])

/-- **Demands that last hold after every session of texts**, if they hold of lexed tokens. -/
theorem scope_reached
    (hlex : ∀ source tokens, Token.lex source = .ok tokens → ∀ t ∈ tokens, d.token t)
    (verbosity : Nat) {steps : List (Nat × Program)} (hsteps : ∀ x ∈ steps, x.2.Lexed) :
    d.scope (Session.reached verbosity steps).scope :=
  h.scope_after hlex scope_empty hsteps

end Demands.Lasting

end Hive
