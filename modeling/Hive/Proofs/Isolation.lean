import Hive.Proofs.Entries
import Hive.Proofs.Evaluation

/-!
Calls are isolated. A call works in a scope of its own, and of the program around it it sees nothing
but the functions: what it comes to and what it writes depend on those, on the function and on the
arguments only. The caller finds its frame as it was, with more written on its console.
-/

namespace Hive

open Evaluator

/-! ### Programs with the same functions -/

/-- **The scopes have the same functions** under the same names. Their variables may differ. -/
def Scope.SameFunctions (s t : Scope) : Prop :=
  ∀ key f, Table.get? key s.entries = some (.func f) ↔ Table.get? key t.entries = some (.func f)

lemma Scope.SameFunctions.refl (s : Scope) : s.SameFunctions s := fun _ _ => Iff.rfl

lemma Scope.functionAt_of_key {s : Scope} {name : Token} {k : Json} (hk : name.lexeme.key = .ok k) :
    s.functionAt name = match Table.get? k s.entries with
      | some (.func f) => .ok f
      | _ => .error (.error (.on name.line (.undefinedFunction name.lexeme))) := by
  unfold functionAt
  rw [find?_of_key hk]
  rfl

lemma Scope.SameFunctions.functionAt_eq {s t : Scope} (h : s.SameFunctions t) (name : Token) :
    t.functionAt name = s.functionAt name := by
  cases hk : name.lexeme.key with
  | error f =>
    unfold functionAt
    rw [find?_eq_error.2 hk, find?_eq_error.2 hk]
  | ok k =>
    rw [functionAt_of_key hk, functionAt_of_key hk]
    -- a variable and a free name give the same report, so only the functions count
    by_cases hf : ∃ f, Table.get? k s.entries = some (.func f)
    · obtain ⟨f, hf⟩ := hf
      rw [hf, (h k f).1 hf]
    · have ht : ∀ f, Table.get? k t.entries ≠ some (.func f) :=
        fun f ht => hf ⟨f, (h k f).2 ht⟩
      split
      · rename_i f ht'
        exact absurd ht' (ht f)
      · split
        · rename_i f hs
          exact absurd ⟨f, hs⟩ hf
        · rfl

/-! ### The discipline that demands nothing -/

/-- The discipline that demands nothing but a relation between programs, and of calls not to nest
too deep if that is not allowed. -/
def free (programs : Scope → Scope → Prop) (exhausted cut : Prop) : Discipline where
  token _ := True
  place _ := True
  value _ := True
  scope _ := True
  callee _ := True
  programs := programs
  fault _ := True
  exhausted := exhausted
  cut := cut

section Free

variable {programs : Scope → Scope → Prop} {exhausted cut : Prop} {α : Type}

lemma free_lenient : (free programs exhausted cut).Lenient := ⟨fun _ => trivial, fun _ => trivial⟩

theorem free_kept
    (h : ∀ p q, programs p q → ∀ name, q.functionAt name = p.functionAt name) :
    (free programs exhausted cut).Kept where
  line_of_token _ := trivial
  token_atEnd _ := trivial
  value_nil := trivial
  value_bool _ := trivial
  value_ofToken _ _ := trivial
  text _ := free_lenient.meets fun _ _ => trivial
  key _ := free_lenient.meets fun _ _ => trivial
  lexeme _ := .inr trivial
  substitute _ _ := free_lenient.checks fun _ _ => trivial
  resolve _ _ _ := free_lenient.checks fun _ _ => free_lenient.operand trivial
  applyOperator _ _ _ _ _ := free_lenient.outcome_applyOperator fun _ _ _ => trivial
  joinTexts _ _ _ := free_lenient.checks fun _ _ => free_lenient.operand trivial
  assign _ _ _ := free_lenient.checks fun _ _ => ⟨trivial, trivial⟩
  declare _ _ _ _ _ := free_lenient.checks fun _ _ => ⟨trivial, trivial⟩
  define _ _ := free_lenient.checks fun _ _ => trivial
  erase _ _ _ := free_lenient.meets fun _ _ => trivial
  callee_own _ _ _ := free_lenient.checks fun _ _ => trivial
  callee_program _ _ _ := free_lenient.checks fun _ _ => trivial
  functionAt_eq {p q} hp name := h p q hp name
  bindArguments _ _ _ := free_lenient.checks fun _ _ => trivial

lemma free_stream (tokens : List Token) : (free programs exhausted cut).Stream tokens :=
  Discipline.stream_of_token (fun _ _ => trivial) fun _ _ => trivial

lemma free_bodies : (free programs exhausted cut).Bodies := fun {f} _ => free_stream f.body

end Free

/-! ### Evaluation on top of what has been written -/

/-- Where programs have the same functions, nothing else has to be known of them. -/
lemma free_same : (free Scope.SameFunctions True False).Kept :=
  free_kept fun _ _ hp => hp.functionAt_eq

lemma free_settings (a : Setting) : (free Scope.SameFunctions True False).Settings a a := by
  refine ⟨rfl, rfl, trivial, ?_⟩
  cases a.program with
  | none => exact .inl ⟨rfl, rfl, fun s _ => .refl s⟩
  | some p => exact .inr ⟨p, p, rfl, rfl, .refl p⟩

lemma free_calls (depth : Nat) :
    (free Scope.SameFunctions True False).Calls (invoke depth) (invoke depth) :=
  Discipline.agree_invoke free_same free_bodies trivial (.inl rfl)

lemma run_under {depth : Nat} (setting : Setting) (f : Frame) (c : Console) :
    run (invoke depth) setting (f.under c) =
      onState (Frame.under c) (run (invoke depth) setting f) := by
  obtain ⟨hfollows, -⟩ := Discipline.agree_run (n := f.rest.length) free_same
    (free_settings setting) (free_calls depth) f ⟨Nat.le_refl _, free_stream f.rest, trivial⟩
  exact (hfollows c).eq not_false fun _ _ => not_false

/-- Calls in programs with the same functions agree, on top of what has been written. -/
lemma invoke_append {p q : Scope} (h : p.SameFunctions q) (depth : Nat) (f : Function)
    (arguments : List Value) (line : Int) (c d : Console) :
    invoke depth q f arguments line (c.append d) =
      onState c.append (invoke depth p f arguments line d) := by
  obtain ⟨hfollows, -⟩ := free_calls depth h trivial (fun _ _ => trivial) trivial d trivial
  exact (hfollows c).eq not_false fun _ _ => not_false

/-! ### Calls from a frame -/

/-- The scope of the program in which a frame is evaluated: its own one unless it is that of a
call. -/
def Setting.programOf (setting : Setting) (frame : Frame) : Scope :=
  setting.program.getD frame.scope

def Frame.wrote (frame : Frame) (c : Console) : Frame :=
  { frame with console := frame.console.append c }

/-- A result on an empty console, as that of a frame: all that changes is what has been written. -/
def Frame.receives (frame : Frame) : EStateM.Result Stop Console Value →
    EStateM.Result Stop Frame Value
  | .ok v c => .ok v (frame.wrote c)
  | .error e c => .error e (frame.wrote c)

def lastFrame : EStateM.Result Stop Frame Value → Frame
  | .ok _ frame => frame
  | .error _ frame => frame

/-- What can be seen of an evaluation: its value or why it stops, and its output. -/
def seen : EStateM.Result Stop Frame Value → Except Stop Value × List String
  | .ok v last => (.ok v, last.console.output)
  | .error e last => (.error e, last.console.output)

lemma programOf_wrote (setting : Setting) (frame : Frame) (c : Console) :
    setting.programOf (frame.wrote c) = setting.programOf frame := rfl

lemma programOf_of_some {setting : Setting} {program : Scope} (h : setting.program = some program)
    (frame : Frame) : setting.programOf frame = program := by
  rw [Setting.programOf, h]
  rfl

lemma programOf_of_none {setting : Setting} (h : setting.program = none) (frame : Frame) :
    setting.programOf frame = frame.scope := by
  rw [Setting.programOf, h]
  rfl

lemma lastFrame_receives (frame : Frame) (r : EStateM.Result Stop Console Value) :
    ∃ c, lastFrame (frame.receives r) = frame.wrote c := by
  cases r with
  | ok v c => exact ⟨c, rfl⟩
  | error e c => exact ⟨c, rfl⟩

/-- A call from a frame does what it does in any program with the same functions, on an empty
console. -/
lemma callFunction_eq {p : Scope} (setting : Setting) (frame : Frame)
    (h : p.SameFunctions (setting.programOf frame)) (depth : Nat) (f : Function)
    (arguments : List Value) (line : Int) :
    callFunction setting (invoke depth) f arguments line frame =
      frame.receives (invoke depth p f arguments line .empty) := by
  have hcall := invoke_append h depth f arguments line frame.console .empty
  rw [Console.append_empty] at hcall
  show onConsole (invoke depth (setting.programOf frame) f arguments line) frame = _
  unfold onConsole
  rw [hcall]
  cases invoke depth p f arguments line .empty with
  | ok v c => rfl
  | error e c => rfl

/-- **Calls are isolated.** Made from any two frames whose programs have the same functions, calls
with the same arguments come to the same result and write the same; the scopes of the caller and of
the program stay as they are, and the same call made again comes to that result again. -/
theorem callFunction_isolated (depth : Nat) (f : Function) (arguments : List Value) (line : Int)
    (a b : Setting) (s t : Frame) (h : (a.programOf s).SameFunctions (b.programOf t)) :
    ∃ r : EStateM.Result Stop Console Value,
      (callFunction a (invoke depth) f arguments line s = s.receives r ∧
        callFunction b (invoke depth) f arguments line t = t.receives r) ∧
      ∀ last, last = lastFrame (callFunction a (invoke depth) f arguments line s) →
        last.scope = s.scope ∧ a.programOf last = a.programOf s ∧
        callFunction a (invoke depth) f arguments line last = last.receives r := by
  have hs := callFunction_eq a s (Scope.SameFunctions.refl _) depth f arguments line
  have ht := callFunction_eq b t h depth f arguments line
  refine ⟨invoke depth (a.programOf s) f arguments line .empty, ⟨hs, ht⟩, ?_⟩
  intro last hlast
  rw [hs] at hlast
  obtain ⟨c, hc⟩ := lastFrame_receives s (invoke depth (a.programOf s) f arguments line .empty)
  rw [hlast, hc]
  refine ⟨rfl, rfl, ?_⟩
  -- the frame after the call has the scope of the one before it, and more on its console
  have hagain : (a.programOf s).SameFunctions (a.programOf (s.wrote c)) := by
    rw [programOf_wrote]
    exact Scope.SameFunctions.refl _
  exact callFunction_eq a (s.wrote c) hagain depth f arguments line

section Twice

/-- A token without a literal, on the first line. -/
def plainToken (kind : TokenKind) (lexeme : String) : Token := ⟨kind, .str lexeme, .null, 1⟩

/-- The function `int twice(int n)`, which returns `n + n`. -/
def twice : Function where
  name := plainToken .identifier "twice"
  returns := .typeName .int
  parameters := [⟨plainToken .identifier "n", .typeName .int⟩]
  body := [plainToken (.keyword .returnWord) "return", plainToken .identifier "n",
    plainToken .plus "+", plainToken .identifier "n"]

def bareProgram : Scope := ⟨[(.str "twice", .func twice)]⟩

/-- A program in which the name of the parameter is that of a text as well. -/
def crowdedProgram : Scope :=
  ⟨[(.str "n", .var ⟨plainToken .identifier "n", some (.str "text"), .typeName .str⟩),
    (.str "twice", .func twice)]⟩

theorem callFunction_isolated_twice :
    bareProgram.SameFunctions crowdedProgram ∧
    ∃ r : EStateM.Result Stop Console Value,
      callFunction ⟨1, none, false⟩ (invoke 1) twice [some (.int 21)] 1
          (frameOf [] bareProgram .empty) =
        (frameOf [] bareProgram .empty).receives r ∧
      callFunction ⟨1, none, false⟩ (invoke 1) twice [some (.int 21)] 1
          (frameOf [] crowdedProgram .empty) =
        (frameOf [] crowdedProgram .empty).receives r ∧
      ∃ c, r = .ok (some (.int 42)) c := by
  have hsame : bareProgram.SameFunctions crowdedProgram := by
    intro key f
    by_cases hn : key = .str "n"
    · simp [bareProgram, crowdedProgram, Table.get?, hn]
    · simp [bareProgram, crowdedProgram, Table.get?, Ne.symm hn]
  obtain ⟨r, ⟨hbare, hcrowded⟩, -⟩ := callFunction_isolated 1 twice [some (.int 21)] 1
    ⟨1, none, false⟩ ⟨1, none, false⟩ (frameOf [] bareProgram .empty)
    (frameOf [] crowdedProgram .empty) hsame
  refine ⟨hsame, r, hbare, hcrowded, ?_⟩
  have hvalue : (seen ((frameOf [] bareProgram .empty).receives r)).1 = .ok (some (.int 42)) := by
    rw [← hbare]
    decide +kernel
  cases r with
  | ok v c =>
    cases hvalue
    exact ⟨c, rfl⟩
  | error e c => cases hvalue

end Twice

end Hive
