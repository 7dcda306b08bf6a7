import Hive.Proofs.Joining

/-!
Sessions compose: to run two texts one after the other is to run them as one, with a semicolon
between them. What the first one does is carried to the joint, and from there on the second one runs
as it does alone, on top of what has been written. Only its value is that of the first if it has no
statement.
-/

namespace Hive

open Evaluator

namespace Evaluator

variable {setting : Setting} {depth : Nat}

lemma statements_budget {m n : Nat} {latest : Value} {f : Frame} (hm : f.rest.length ≤ m)
    (hn : f.rest.length ≤ n) :
    statements (invoke depth) setting m latest f = statements (invoke depth) setting n latest f := by
  -- a statement uses up a token or more, so neither budget runs out before the tokens do
  induction m generalizing n latest f with
  | zero =>
    have hnil : f.rest = [] := List.length_eq_zero_iff.1 (Nat.le_zero.1 hm)
    rw [statements_nil _ _ _ hnil, statements_nil _ _ _ hnil]
  | succ m ih =>
    cases hrest : f.rest with
    | nil => rw [statements_nil _ _ _ hrest, statements_nil _ _ _ hrest]
    | cons t rest =>
      rw [hrest, List.length_cons] at hm hn
      obtain ⟨n, rfl⟩ : ∃ n', n = n' + 1 := ⟨n - 1, by omega⟩
      rw [statements_cons _ _ _ hrest, statements_cons _ _ _ hrest]
      split
      · exact ih (by simp only; omega) (by simp only; omega)
      · show EStateM.bind _ _ _ = EStateM.bind _ _ _
        unfold EStateM.bind
        cases hr : evaluate (invoke depth) setting t true { f with rest := rest } with
        | ok v f' =>
          have hlength := length_of_evaluate hr
          simp only at hlength
          exact ih (by omega) (by omega)
        | error e f' => rfl

/-- **Whether there is a statement** among the tokens, and not terminators only. -/
def hasStatement (tokens : List Token) : Bool := tokens.any fun t => !t.kind.isTerminator

lemma statements_latest (invoke : Invocation) {n : Nat} {f : Frame} (hn : f.rest.length ≤ n)
    (h : hasStatement f.rest = true) (v w : Value) :
    statements invoke setting n v f = statements invoke setting n w f := by
  induction n generalizing f with
  | zero =>
    rw [List.length_eq_zero_iff.1 (Nat.le_zero.1 hn)] at h
    cases h
  | succ n ih =>
    cases hrest : f.rest with
    | nil =>
      rw [hrest] at h
      cases h
    | cons t rest =>
      rw [statements_cons _ _ _ hrest, statements_cons _ _ _ hrest]
      split
      · rename_i ht
        rw [hrest, List.length_cons] at hn
        rw [hrest, hasStatement, List.any_cons, ht] at h
        exact ih (by simp only; omega) h
      · -- a statement gives a new value, and the latest one is forgotten
        rfl

lemma statements_terminators (invoke : Invocation) {n : Nat} {f : Frame} (hn : f.rest.length ≤ n)
    (h : hasStatement f.rest = false) (v : Value) :
    statements invoke setting n v f = .ok v { f with rest := [] } := by
  induction n generalizing f with
  | zero =>
    have hnil : f.rest = [] := List.length_eq_zero_iff.1 (Nat.le_zero.1 hn)
    rw [statements_nil _ _ _ hnil, ← hnil]
  | succ n ih =>
    cases hrest : f.rest with
    | nil => rw [statements_nil _ _ _ hrest, ← hrest]
    | cons t rest =>
      rw [hrest, List.length_cons] at hn
      rw [hrest, hasStatement, List.any_cons, Bool.or_eq_false_iff, Bool.not_eq_false'] at h
      have hmore : hasStatement rest = false := h.2
      rw [statements_cons _ _ _ hrest, if_pos h.1]
      exact ih (by simp only; omega) hmore

/-- A program that comes to a value does so with its last statement: nothing can return. -/
lemma statements_of_runProgram {tokens : List Token} {own : Scope} {v : Value} {last : Frame}
    (h : runProgram depth tokens own = .ok v last) :
    statements (invoke depth) (Discipline.programSetting tokens) tokens.length none
      (frameOf tokens own .empty) = .ok v last := by
  -- `settled` hides a return, which ends a program with a value too; at the top there is none
  have hagree : ((free Scope.SameFunctions True False).ground tokens.length).Agree
      ((free Scope.SameFunctions True False).stop false)
      (free Scope.SameFunctions True False).value
      (statements (invoke depth) (Discipline.programSetting tokens) tokens.length none)
      (statements (invoke depth) (Discipline.programSetting tokens) tokens.length none) :=
    Discipline.agree_statements free_same (free_settings _) (free_calls depth) trivial
  obtain ⟨-, hends⟩ := hagree (frameOf tokens own .empty)
    ⟨Nat.le_refl _, free_stream tokens, trivial⟩
  have hrun : runProgram depth tokens own = settled (statements (invoke depth)
      (Discipline.programSetting tokens) tokens.length none (frameOf tokens own .empty)) :=
    run_eq _ _ _
  rw [hrun] at h
  revert h hends
  cases statements (invoke depth) (Discipline.programSetting tokens) tokens.length none
    (frameOf tokens own .empty) with
  | ok w f => exact fun h _ => h
  | error e f =>
    cases e with
    | returned w => exact fun _ hends => absurd hends.2.1 Bool.false_ne_true
    | failure e => exact fun h => nomatch h
    | exhausted => exact fun h => nomatch h

end Evaluator

/-! ### Programs -/

/-- **Two programs in one.** After a program that comes to a value, another one runs in the scope
that is left, on top of what has been written; if it has no statement, the value stays. -/
theorem runProgram_joined {depth : Nat} {first second : List Token} {own : Scope} {end' : Int}
    {v : Value} {last : Frame} (hfirst : ∀ t ∈ first, t.Named) (hsecond : second ≠ [])
    (hown : own.Named) (h : runProgram depth (first ++ [.atEnd end']) own = .ok v last)
    (line : Int) :
    ∃ c : Console, c.output = last.console.output ∧
      runProgram depth (first ++ .semicolon line :: second) own =
        if hasStatement second then
          onState (Frame.under c) (runProgram depth second last.scope)
        else .ok v ⟨[], 0, false, last.scope, c⟩ := by
  let j : Joint := ⟨[.atEnd end'], line, second, .inr ⟨end', rfl⟩⟩
  let alone := first ++ [Token.atEnd end']
  let both := first ++ Token.semicolon line :: second
  let setting := Discipline.programSetting second
  have hsetting : Discipline.programSetting both = setting := by
    have hline : endLine both = endLine second := by
      obtain ⟨t, ht⟩ := Option.ne_none_iff_exists'.1 (mt List.getLast?_eq_none_iff.1 hsecond)
      simp [both, endLine, List.getLast?_append, List.getLast?_cons, ht]
    simp [Discipline.programSetting, setting, hline]
  have hsettings : Joint.Settings (Discipline.programSetting alone) setting := ⟨rfl, rfl⟩
  have hbefore : j.before alone both := ⟨first, hfirst, rfl, rfl⟩
  have hstart : Alike j.around false (frameOf alone own .empty) (frameOf both own .empty) :=
    ⟨⟨rfl, rfl⟩, rfl, rfl, hown, rfl, .inl hbefore⟩
  have hjoined : j.Joined setting depth false
      (statements (invoke depth) (Discipline.programSetting alone) alone.length none
        (frameOf alone own .empty))
      (statements (invoke depth) setting both.length none (frameOf both own .empty)) :=
    Joint.joined_statements hsettings depth (Nat.le_refl _) (Nat.le_refl _) hbefore hstart
  -- the first program ends well, so the joined one gets to the second with its scope and value
  rw [statements_of_runProgram h] at hjoined
  obtain ⟨n, ⟨rest, past, inArguments, own', c⟩, hstatements, hrest, hlength, halike⟩ := hjoined
  obtain rfl : rest = second := hrest
  obtain rfl : own' = last.scope := halike.scope
  obtain rfl : past = 0 := halike.past
  obtain rfl : inArguments = false := halike.inArguments.2
  refine ⟨c, halike.output, ?_⟩
  have hboth : runProgram depth both own =
      settled (statements (invoke depth) setting n v ⟨rest, 0, false, last.scope, c⟩) := by
    rw [← hstatements, ← hsetting]
    exact run_eq _ _ _
  rw [show first ++ .semicolon line :: rest = both from rfl, hboth]
  split
  · rename_i hsome
    have hframe : (frameOf rest last.scope .empty).under c = ⟨rest, 0, false, last.scope, c⟩ := by
      simp [Frame.under, frameOf]
    have hbudget : rest.length ≤ rest.length := Nat.le_refl _
    rw [statements_latest _ hlength hsome v none, statements_budget hlength hbudget]
    show _ = onState (Frame.under c) (run (invoke depth) setting (frameOf rest last.scope .empty))
    rw [← run_under, hframe, run_eq]
  · rename_i hnone
    rw [statements_terminators _ hlength (eq_false_of_ne_true hnone) v]
    rfl

/-! ### Sessions -/

namespace Session

variable {depth : Nat} {tokens : List Token} {s : Session} {v : Value}

lemma runProgram_of_outcome (h : (s.run depth tokens).1.outcome = .ok v) :
    ∃ last, runProgram depth tokens s.scope = .ok v last ∧
      concluded s.verbosity v last.scope = .ok v := by
  have hseen := congrArg Observation.outcome (observe_runAfter depth [] tokens s)
  rw [show (observe (s.runAfter depth [] tokens)).outcome = .ok v from h] at hseen
  cases hr : runProgram depth tokens s.scope with
  | ok w last =>
    rw [hr] at hseen
    have hvalue : concluded s.verbosity w last.scope = .ok v := hseen.symm
    have hw : w = v := by
      unfold concluded at hvalue
      split at hvalue
      · exact Except.ok.inj hvalue
      split at hvalue
      · exact Except.ok.inj hvalue
      · cases hvalue
    subst hw
    exact ⟨last, rfl, hvalue⟩
  | error e last =>
    rw [hr] at hseen
    cases hseen

/-- **Sessions compose.** In a session of texts, take two texts that lex, and let the first one come
to a value. Run as one, with a semicolon between them, they leave the scope and write the output
that they do one after the other; and they end as the second one does, or with the value of the
first if the second one has no statement. -/
theorem run_joined (verbosity : Nat) (steps : List (Nat × Program))
    (hsteps : ∀ x ∈ steps, x.2.Lexed) (depth : Nat) {source source' : String}
    {first second : List Token} (hfirst : Token.lex source = .ok first)
    (hsecond : Token.lex source' = .ok second) {v : Value}
    (hv : ((reached verbosity steps).run depth first).1.outcome = .ok v) (line : Int) :
    let one := (reached verbosity steps).run depth first
    let two := one.2.run depth second
    let joined := (reached verbosity steps).run depth (first.dropLast ++ .semicolon line :: second)
    joined.2.scope = two.2.scope ∧ joined.1.output = one.1.output ++ two.1.output ∧
      joined.1.outcome = if hasStatement second then two.1.outcome else .ok v := by
  intro one two joined
  obtain ⟨ts, l, rfl⟩ := Token.ends_lex hfirst
  have hne : second ≠ [] := by
    obtain ⟨ts', l', rfl⟩ := Token.ends_lex hsecond
    simp
  have hnamed : ∀ t ∈ ts, t.Named := fun t ht => Token.named_lex hfirst t (by simp [ht])
  obtain ⟨last, hlast, hconcluded⟩ := runProgram_of_outcome hv
  obtain ⟨c, hc, hboth⟩ := runProgram_joined hnamed hne (Scope.named_reached verbosity hsteps)
    hlast line
  have hone : observe one = _ := observe_runAfter depth [] _ _
  have htwo : observe two = _ := observe_runAfter depth [] second one.2
  have hjoined : observe joined = _ := observe_runAfter depth [] _ _
  rw [hlast] at hone
  have hscope : one.2.scope = last.scope := congrArg Observation.scope hone
  have houtput : one.1.output = c.output := (congrArg Observation.output hone).trans hc.symm
  have hverbosity : one.2.verbosity = (reached verbosity steps).verbosity :=
    verbosity_runAfter depth [] _ _
  rw [hscope, hverbosity] at htwo
  rw [List.dropLast_concat, hboth] at hjoined
  have hseen {o : Observation} {p : Report × Session} (h : observe p = o) :
      p.2.scope = o.scope ∧ p.1.output = o.output ∧ p.1.outcome = o.outcome := by
    subst h
    exact ⟨rfl, rfl, rfl⟩
  obtain ⟨htscope, htoutput, htoutcome⟩ := hseen htwo
  obtain ⟨hjscope, hjoutput, hjoutcome⟩ := hseen hjoined
  rw [htscope, htoutput, htoutcome, hjscope, hjoutput, hjoutcome, houtput]
  -- alone, a second program without statements comes to nil; joined, it leaves the value there
  by_cases hsome : hasStatement second = true
  · rw [if_pos hsome, if_pos hsome]
    cases runProgram depth second last.scope with
    | ok w last' => exact ⟨rfl, rfl, rfl⟩
    | error e last' => exact ⟨rfl, rfl, rfl⟩
  · have hnone : runProgram depth second last.scope = .ok none ⟨[], 0, false, last.scope, .empty⟩ := by
      refine (run_eq _ _ _).trans ?_
      rw [statements_terminators _ (Nat.le_refl _) (eq_false_of_ne_true hsome)]
      rfl
    rw [if_neg hsome, if_neg hsome, hnone]
    exact ⟨rfl, (List.append_nil _).symm, hconcluded⟩

/-- A text that ends with a `clear`, which finds the end or the semicolon in the place of a name. -/
def leadingSource : String := "int x = 3; output x; clear"

def trailingSource : String := "x = run twice(x); output x"

theorem run_joined_clear :
    ∃ first second, Token.lex leadingSource = .ok first ∧ Token.lex trailingSource = .ok second ∧
      let one := (reached 1 doublingSteps).run 2 first
      let two := one.2.run 2 second
      let joined := (reached 1 doublingSteps).run 2 (first.dropLast ++ .semicolon 1 :: second)
      one.1.outcome = .ok none ∧ joined.2.scope = two.2.scope ∧
        joined.1.output = one.1.output ++ two.1.output ∧
        joined.1.outcome = if hasStatement second then two.1.outcome else .ok none := by
  have hlexed : ∀ x ∈ doublingSteps, x.2.Lexed := by simp [doublingSteps, Program.Lexed]
  have hsome : (Token.lex trailingSource).toOption.isSome = true := by decide +kernel
  have hnil : ((Token.lex leadingSource).toOption.bind fun first =>
      ((reached 1 doublingSteps).run 2 first).1.outcome.toOption) = some none := by decide +kernel
  cases hsecond : Token.lex trailingSource with
  | error f =>
    rw [hsecond] at hsome
    cases hsome
  | ok second =>
    cases hfirst : Token.lex leadingSource with
    | error f =>
      rw [hfirst] at hnil
      cases hnil
    | ok first =>
      rw [hfirst] at hnil
      have hv : ((reached 1 doublingSteps).run 2 first).1.outcome = .ok none := by
        change ((reached 1 doublingSteps).run 2 first).1.outcome.toOption = some none at hnil
        cases hr : ((reached 1 doublingSteps).run 2 first).1.outcome with
        | ok v =>
          rw [hr] at hnil
          exact congrArg Except.ok (Option.some.inj hnil)
        | error e =>
          rw [hr] at hnil
          cases hnil
      exact ⟨first, second, rfl, rfl, hv,
        run_joined 1 doublingSteps hlexed 2 hfirst hsecond hv 1⟩

end Session

end Hive
