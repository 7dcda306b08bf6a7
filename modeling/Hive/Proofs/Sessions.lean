import Hive.Proofs.Isolation
import Hive.Proofs.Lexing
import Hive.Proofs.TypedArithmetic
import Hive.Session

/-!
Sessions of programs, each of which starts from the scope that those before it have left, whether
they succeeded or not. The scope stays typed from one program to the next, and so are the scopes of
all calls; texts end with a value, a problem in the program or a limit on numbers. How deep calls
may nest does not matter as soon as a program comes to an end.
-/

namespace Hive

open Evaluator

/-- A program as it is handed to a session: a text, or tokens. -/
inductive Program where
  | text (source : String)
  | stream (tokens : List Token)

/-- The token comes from a text. -/
def Token.Lexed (t : Token) : Prop := ∃ source tokens, Token.lex source = .ok tokens ∧ t ∈ tokens

/-- The tokens of a text without its end; none if it does not lex. -/
def Token.ofText (source : String) : List Token := ((lex source).toOption.getD []).dropLast

lemma Token.lexed_ofText {source : String} {t : Token} (ht : t ∈ ofText source) : t.Lexed := by
  unfold ofText at ht
  cases hlex : lex source with
  | ok tokens =>
    rw [hlex] at ht
    exact ⟨source, tokens, hlex, List.dropLast_subset _ ht⟩
  | error f =>
    rw [hlex] at ht
    cases ht

def Program.Lexed : Program → Prop
  | .text _ => True
  | .stream tokens => ∃ source, Token.lex source = .ok tokens

namespace Session

def perform (depth : Nat) (p : Program) (s : Session) : Report × Session :=
  match p with
  | .text source => s.runSource depth source
  | .stream tokens => s.run depth tokens

/-- The session after some programs, each of which has a bound of its own on how deep calls nest. -/
def after (s : Session) : List (Nat × Program) → Session
  | [] => s
  | (depth, p) :: steps => after (s.perform depth p).2 steps

/-- What a fresh session becomes after some programs. -/
def reached (verbosity : Nat) (steps : List (Nat × Program)) : Session :=
  (start verbosity).after steps

@[simp]
lemma scope_settle (s : Session) (notes : List Note) : (s.settle notes).2.scope = s.scope := by
  unfold settle
  dsimp only
  split <;> rfl

end Session

/-! ### The bound on calls -/

section Deeper

/-- The discipline that demands nothing, for a second evaluation in which calls may nest deeper. -/
abbrev deepening : Discipline := free (fun p q => q = p) True True

lemma deepening_kept : deepening.Kept := free_kept fun p q hpq name => by rw [hpq]

variable {depth deeper : Nat} (h : depth ≤ deeper)

include h

lemma deepening_calls : deepening.Calls (invoke depth) (invoke deeper) :=
  Discipline.agree_invoke deepening_kept free_bodies trivial (.inr ⟨trivial, h⟩)

lemma invoke_deeper (program : Scope) (f : Function) (arguments : List Value) (line : Int)
    (console : Console) :
    invoke deeper program f arguments line console = invoke depth program f arguments line console ∨
      ∃ last, invoke depth program f arguments line console = .error .exhausted last := by
  have hcall : deepening.console.Agree (deepening.stop false) deepening.value
      (invoke depth program f arguments line) (invoke deeper program f arguments line) :=
    deepening_calls h rfl trivial (fun _ _ => trivial) trivial
  rcases ((hcall console trivial).1 .empty).eq_or_cut (fun _ _ => not_false) with
    heq | ⟨-, hcut⟩
  · left
    have hunder : deepening.console.under .empty console = console := Console.empty_append console
    rw [hunder] at heq
    rw [heq]
    cases invoke depth program f arguments line console with
    | ok v c => exact congrArg (EStateM.Result.ok v) (Console.empty_append c)
    | error e c => exact congrArg (EStateM.Result.error e) (Console.empty_append c)
  · exact .inr hcut

lemma runProgram_deeper (tokens : List Token) (scope : Scope) :
    runProgram deeper tokens scope = runProgram depth tokens scope ∨
      ∃ last, runProgram depth tokens scope = .error .exhausted last := by
  have hscope : deepening.scope scope := trivial
  obtain ⟨hfollows, -⟩ := Discipline.run_program deepening_kept (deepening_calls h)
    (fun _ _ => rfl) (free_stream tokens) hscope
  rcases hfollows.eq_or_cut fun _ _ => not_false with heq | ⟨-, hcut⟩
  · rw [onState_under_empty] at heq
    exact .inl heq
  · exact .inr hcut

end Deeper

namespace Session

lemma runAfter_deeper {depth deeper : Nat} (h : depth ≤ deeper) (before : List Note)
    (tokens : List Token) (s : Session)
    (hends : (s.runAfter depth before tokens).1.outcome ≠ .error .exhausted) :
    s.runAfter deeper before tokens = s.runAfter depth before tokens := by
  rcases runProgram_deeper h tokens s.scope with heq | ⟨last, hlast⟩
  · unfold runAfter
    rw [heq]
  · refine absurd ?_ hends
    unfold runAfter
    rw [hlast]

/-- A program stops short in its own run, or at a fault in the note on its scope. -/
lemma stop_of_runAfter {depth : Nat} {before : List Note} {tokens : List Token} {s : Session}
    {e : Stop} (h : (s.runAfter depth before tokens).1.outcome = .error e) :
    (∃ last, runProgram depth tokens s.scope = .error e last) ∨ ∃ f, e = .failure (.fault f) := by
  unfold runAfter at h
  cases hr : runProgram depth tokens s.scope with
  | error e' last =>
    rw [hr] at h
    obtain rfl := Except.error.inj h
    exact .inl ⟨last, rfl⟩
  | ok v last =>
    rw [hr] at h
    -- a run that ends well can still fail when the scope is noted, and then with a fault
    dsimp only at h
    split at h
    · cases h
    · split at h
      · cases h
      · rename_i f _
        exact .inr ⟨f, (Except.error.inj h).symm⟩

lemma runSource_deeper {depth deeper : Nat} (h : depth ≤ deeper) (source : String) (s : Session)
    (hends : (s.runSource depth source).1.outcome ≠ .error .exhausted) :
    s.runSource deeper source = s.runSource depth source := by
  unfold runSource at hends ⊢
  cases hlex : Token.lex source with
  | ok tokens =>
    rw [hlex] at hends
    exact runAfter_deeper h _ tokens s hends
  | error f => rfl

end Session

/-! ### Typed sessions -/

section Typed

variable {lexed : Prop}

/-- How a program may end under the discipline of types. -/
def Ended (lexed : Prop) : Except Stop Value → Prop
  | .ok v => (typing lexed).value v
  | .error e => (typing lexed).stop false e

lemma meets_describe (s : Scope) : (typing lexed).Meets (fun _ => True) s.describe := by
  refine Discipline.meets_bind (Discipline.meets_mapM fun x _ => ?_) fun _ _ => trivial
  refine Discipline.meets_bind (P := fun _ => True) ?_ fun _ _ => trivial
  cases x.2 with
  | var v => exact Discipline.meets_bind Typing.meets_text fun _ _ => trivial
  | func f => trivial

/-- **A program keeps the scope of a session typed**, and ends as it may. -/
lemma typed_runAfter {s : Session} (hs : (typing lexed).scope s.scope) {tokens : List Token}
    (htokens : ∀ t ∈ tokens, (typing lexed).token t) (depth : Nat) (before : List Note) :
    (typing lexed).scope (s.runAfter depth before tokens).2.scope ∧
      Ended lexed (s.runAfter depth before tokens).1.outcome := by
  have hk := typing_kept lexed
  have hcalls : (typing lexed).Calls (invoke depth) (invoke depth) :=
    Discipline.agree_invoke hk (typing_bodies lexed) trivial (.inl rfl)
  obtain ⟨-, hends⟩ := Discipline.run_program hk hcalls (fun _ h => ⟨rfl, h⟩)
    (typing_stream htokens) hs
  unfold Session.runAfter
  cases hr : runProgram depth tokens s.scope with
  | error e last =>
    rw [hr] at hends
    exact ⟨by simpa using hends.1.2.2, hends.2⟩
  | ok v last =>
    rw [hr] at hends
    dsimp only
    split
    · exact ⟨by simpa using hends.1.2.2, hends.2⟩
    · have hnote : (typing lexed).Meets (fun _ => True) (Session.scopeNote last.scope) :=
        Discipline.meets_bind (meets_describe last.scope) fun _ _ => trivial
      cases hn : Session.scopeNote last.scope with
      | ok note => exact ⟨by simpa using hends.1.2.2, hends.2⟩
      | error f =>
        rw [hn] at hnote
        exact ⟨by simpa using hends.1.2.2, hnote⟩

lemma stop_of_failsSoundly {f : Failure} (h : Lexer.FailsSoundly f) :
    (typing lexed).stop false (.failure f) := by
  cases f with
  | error d => trivial
  | fault f => exact fun _ => h

lemma typed_runSource {s : Session} (hs : (typing lexed).scope s.scope) (depth : Nat)
    (source : String) :
    (typing lexed).scope (s.runSource depth source).2.scope ∧
      Ended lexed (s.runSource depth source).1.outcome := by
  unfold Session.runSource
  split
  · rename_i tokens hlex
    exact typed_runAfter hs (fun t ht _ => Token.sound_lex hlex t ht) depth _
  · rename_i f hlex
    exact ⟨by simpa using hs, stop_of_failsSoundly (Lexer.failsSoundly_tokensFrom hlex)⟩

lemma typed_perform {s : Session} (hs : (typing lexed).scope s.scope) {p : Program}
    (hp : lexed → p.Lexed) (depth : Nat) : (typing lexed).scope (s.perform depth p).2.scope := by
  cases p with
  | text source => exact (typed_runSource hs depth source).1
  | stream tokens =>
    refine (typed_runAfter hs (fun t ht hlexed => ?_) depth []).1
    obtain ⟨source, hlex⟩ := hp hlexed
    exact Token.sound_lex hlex t ht

lemma typed_after {s : Session} (hs : (typing lexed).scope s.scope) {steps : List (Nat × Program)}
    (hsteps : lexed → ∀ x ∈ steps, x.2.Lexed) : (typing lexed).scope (s.after steps).scope := by
  induction steps generalizing s with
  | nil => exact hs
  | cons x steps ih =>
    have hx := typed_perform hs (fun hlexed => hsteps hlexed x (by simp)) x.1
    exact ih hx fun hlexed y hy => hsteps hlexed y (by simp [hy])

end Typed

/-! ### The scopes of calls -/

namespace Evaluator

/-- Runs the body of a function in a scope that is checked: at the start, and at the end, whether
the body succeeds or not. If the scope fails the check, the run stops with the alarm. -/
def checkedBody (check : Scope → Bool) (alarm : Stop) (invoke : Invocation) (program : Scope)
    (f : Function) (scope : Scope) : ConsoleM Value := fun console =>
  if check scope then
    match run invoke ⟨endLine f.body, some program, true⟩ (frameOf f.body scope console) with
    | .ok v last => if check last.scope then .ok v last.console else .error alarm last.console
    | .error e last => .error (if check last.scope then e else alarm) last.console
  else .error alarm console

/-- Calls a function; its scope is checked, and those of all calls in it. -/
def checkedInvoke (check : Scope → Bool) (alarm : Stop) : Nat → Invocation
  | 0, _, _, _, _ => throw .exhausted
  | depth + 1, program, f, arguments, line =>
    callWith (checkedBody check alarm (checkedInvoke check alarm depth) program) f arguments line

/-- Runs a program; the scopes of all calls are checked. -/
def checkedProgram (check : Scope → Bool) (alarm : Stop) (depth : Nat) (tokens : List Token)
    (scope : Scope) : EStateM.Result Stop Frame Value :=
  run (checkedInvoke check alarm depth) ⟨endLine tokens, none, false⟩ (frameOf tokens scope .empty)

end Evaluator

section Checked

variable {D : Discipline} {check : Scope → Bool} {alarm : Stop}

/-- Where scopes pass the check under a discipline, checking a body changes nothing. -/
lemma agree_checkedBody (hk : D.Kept) (hcut : ¬D.cut) (hswap : ∀ f g, ¬D.swap f g)
    (hcheck : ∀ s, D.scope s → check s = true)
    {invoke invoke' : Invocation} (hcalls : D.Calls invoke invoke') {p q : Scope}
    (hp : D.programs p q) {f : Function} (hbody : D.Stream f.body) {scope : Scope}
    (hscope : D.scope scope) :
    D.console.Agree (D.stop false) D.value (runBody invoke p f scope)
      (checkedBody check alarm invoke' q f scope) := by
  intro console _
  obtain ⟨hfollows, hends⟩ := Discipline.run_tokens (Discipline.rules_plainRule hk) hk hcalls
    hbody (Discipline.bodySettings hp f) hscope console
  -- with neither cuts nor swaps, to follow is to be equal up to the console
  have heq := fun c => (hfollows c).eq hcut hswap
  have hunder : ∀ c, D.console.under c console = c.append console := fun _ => rfl
  simp only [runBody, checkedBody, hunder, heq, hcheck scope hscope, if_true]
  revert hends
  cases run invoke (Discipline.bodySetting f p) (frameOf f.body scope console) with
  | ok v last =>
    refine fun h => ⟨fun c => .of_eq ?_, trivial, h.2⟩
    simp only [onState, Frame.under_scope, hcheck last.scope h.1.2.2, if_true]
    rfl
  | error e last =>
    refine fun h => ⟨fun c => .of_eq ?_, trivial, h.2⟩
    simp only [onState, Frame.under_scope, hcheck last.scope h.1.2.2, if_true]
    rfl

lemma agree_checkedInvoke (hk : D.Kept) (hb : D.Bodies) (hcut : ¬D.cut) (hdepth : D.exhausted)
    (hcheck : ∀ s, D.scope s → check s = true) (depth : Nat)
    (hswap : ∀ f g, ¬D.swap f g := by exact fun _ _ => not_false) :
    D.Calls (invoke depth) (checkedInvoke check alarm depth) := by
  induction depth with
  | zero => exact fun _ _ _ _ => .throw hdepth
  | succ depth ih =>
    intro p q f arguments line hp hf hvalues hline
    exact Discipline.agree_callWith hk hk.bindArguments hf hvalues hline fun _ hscope =>
      agree_checkedBody hk hcut hswap hcheck ih hp (hb hf) hscope

/-- Under a discipline whose scopes pass the check, checking the scopes of calls changes nothing. -/
lemma checkedProgram_of_kept (hk : D.Kept) (hb : D.Bodies) (hcut : ¬D.cut)
    (hswap : ∀ f g, ¬D.swap f g) (hdepth : D.exhausted) (hself : ∀ s, D.scope s → D.programs s s)
    (hcheck : ∀ s, D.scope s → check s = true) {tokens : List Token} (htokens : D.Stream tokens)
    {scope : Scope} (hscope : D.scope scope) (depth : Nat) :
    checkedProgram check alarm depth tokens scope = runProgram depth tokens scope := by
  have hcalls : D.Calls (invoke depth) (checkedInvoke check alarm depth) :=
    agree_checkedInvoke hk hb hcut hdepth hcheck depth hswap
  obtain ⟨hfollows, -⟩ := Discipline.run_program hk hcalls hself htokens hscope
  have heq := hfollows.eq hcut hswap
  rw [onState_under_empty] at heq
  exact heq

end Checked

/-- In a typed scope, checking that the scopes of calls are typed changes nothing. -/
lemma checkedProgram_eq {lexed : Prop} {check : Scope → Bool}
    (hcheck : ∀ s, (typing lexed).scope s → check s = true) {scope : Scope}
    (hscope : (typing lexed).scope scope) {tokens : List Token}
    (htokens : ∀ t ∈ tokens, (typing lexed).token t) (alarm : Stop) (depth : Nat) :
    checkedProgram check alarm depth tokens scope = runProgram depth tokens scope :=
  checkedProgram_of_kept (typing_kept lexed) (typing_bodies lexed) not_false (fun _ _ => not_false)
    trivial (fun _ h => ⟨rfl, h⟩) hcheck (typing_stream htokens) hscope depth

/-! ### Main statements -/

lemma typed_reached (lexed : Prop) (verbosity : Nat) (steps : List (Nat × Program))
    (hsteps : lexed → ∀ x ∈ steps, x.2.Lexed) :
    (typing lexed).scope (Session.reached verbosity steps).scope :=
  typed_after Typing.scope_empty hsteps

/-- **The ways in which a text may end**: with a sound value or nil, with a problem in the program,
or at a limit on numbers. No operation is handed what it is not defined on, and no return gets out
of a function. -/
def Regular : Except Stop Value → Prop
  | .ok v => Value.Sound v
  | .error (.failure (.error _)) => True
  | .error (.failure (.fault f)) => f.isNumeric = true
  | .error (.returned _) => False
  | .error .exhausted => False

lemma regular_of_ended {outcome : Except Stop Value} (h : Ended True outcome)
    (hends : outcome ≠ .error .exhausted) : Regular outcome := by
  cases outcome with
  | ok v => exact h trivial
  | error e =>
    cases e with
    | failure f =>
      cases f with
      | error d => trivial
      | fault f => exact h trivial
    | returned v => exact absurd h.1 Bool.false_ne_true
    | exhausted => exact absurd rfl hends

/-- **Texts do not go wrong.** In a session of texts, every one that comes to an end does so in a
regular way, and does the same wherever calls may nest deeper. -/
theorem Session.runSource_regular (verbosity : Nat) (steps : List (Nat × Program))
    (hsteps : ∀ x ∈ steps, x.2.Lexed) (depth : Nat) (source : String)
    (hends : ((reached verbosity steps).runSource depth source).1.outcome ≠ .error .exhausted) :
    Regular ((reached verbosity steps).runSource depth source).1.outcome ∧
      ∀ deeper ≥ depth, (reached verbosity steps).runSource deeper source =
        (reached verbosity steps).runSource depth source := by
  have hscope := typed_reached True verbosity steps fun _ => hsteps
  exact ⟨regular_of_ended (typed_runSource hscope depth source).2 hends,
    fun _ h => runSource_deeper h source _ hends⟩

/-- A session that declares a variable and a function, and then fails to assign the variable. -/
def doublingSteps : List (Nat × Program) :=
  [(1, .text "flt y = 2; int twice(int n) \x7b return n * 2; \x7d"), (1, .text "y = true")]

theorem Session.runSource_regular_doubling :
    ((reached 0 doublingSteps).runSource 2 "run twice(20 + 1)").1.outcome.toOption =
        some (some (.int 42)) ∧
      Regular ((reached 0 doublingSteps).runSource 2 "run twice(20 + 1)").1.outcome := by
  have hvalue : ((reached 0 doublingSteps).runSource 2 "run twice(20 + 1)").1.outcome.toOption =
      some (some (.int 42)) := by decide +kernel
  refine ⟨hvalue, (runSource_regular 0 doublingSteps ?_ 2 _ fun hends => ?_).1⟩
  · simp [doublingSteps, Program.Lexed]
  · rw [hends] at hvalue
    cases hvalue

/-- **Scopes are typed**, after every program of a session and in all calls of the next one: to
check the scopes of calls where their bodies start and end changes nothing, whatever the alarm. In a
session of texts they are sound besides. -/
theorem Session.scopes_typed (verbosity : Nat) (steps : List (Nat × Program)) :
    ((reached verbosity steps).scope.Typed ∧
      ∀ alarm depth tokens,
        checkedProgram (fun s => decide s.Typed) alarm depth tokens
            (reached verbosity steps).scope =
          runProgram depth tokens (reached verbosity steps).scope) ∧
    ((∀ x ∈ steps, x.2.Lexed) →
      (reached verbosity steps).scope.Sound ∧
      ∀ alarm depth source tokens, Token.lex source = .ok tokens →
        checkedProgram (fun s => decide (s.Typed ∧ s.Sound)) alarm depth tokens
            (reached verbosity steps).scope =
          runProgram depth tokens (reached verbosity steps).scope) := by
  refine ⟨?_, fun hsteps => ?_⟩
  · -- the policy for tokens of any kind, where literals need not be sound
    have hscope := typed_reached False verbosity steps False.elim
    refine ⟨hscope.1, fun alarm depth tokens => ?_⟩
    exact checkedProgram_eq (fun s hs => decide_eq_true hs.1) hscope (fun _ _ => False.elim) alarm
      depth
  · have hscope := typed_reached True verbosity steps fun _ => hsteps
    refine ⟨hscope.2 trivial, fun alarm depth source tokens hlex => ?_⟩
    exact checkedProgram_eq (fun s hs => decide_eq_true ⟨hs.1, hs.2 trivial⟩) hscope
      (fun t ht _ => Token.sound_lex hlex t ht) alarm depth

theorem Session.scopes_typed_doubling :
    ∃ tokens, Token.lex "run twice(20 + 1)" = .ok tokens ∧ (reached 0 doublingSteps).scope.Sound ∧
      ∀ alarm, checkedProgram (fun s => decide (s.Typed ∧ s.Sound)) alarm 2 tokens
          (reached 0 doublingSteps).scope =
        runProgram 2 tokens (reached 0 doublingSteps).scope := by
  have hlexed : ∀ x ∈ doublingSteps, x.2.Lexed := by simp [doublingSteps, Program.Lexed]
  have hlex : (Token.lex "run twice(20 + 1)").toOption.isSome = true := by decide +kernel
  obtain ⟨hsound, hchecked⟩ := (scopes_typed 0 doublingSteps).2 hlexed
  cases h : Token.lex "run twice(20 + 1)" with
  | ok tokens => exact ⟨tokens, rfl, hsound, fun alarm => hchecked alarm 2 _ tokens h⟩
  | error f =>
    rw [h] at hlex
    cases hlex

end Hive
