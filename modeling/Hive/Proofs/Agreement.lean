import Hive.Evaluator.Expression
import Mathlib.Tactic.Common

/-!
Two computations side by side. The second one **agrees** with the first if, from every state that
meets what is demanded, it does the same on top of whatever its console holds already; and what the
first one comes to meets the demands again. With the same computation on both sides this says that
the demands are kept and that nothing depends on what was written before. Where calls may nest
deeper in the second computation, it may go on where the first one is cut off; and where the two are
to fail in different ways, a failure of the first may be another one in the second.
-/

namespace Hive

def Console.append (c d : Console) : Console := ⟨c.output ++ d.output, c.notes ++ d.notes⟩

/-- The frame with more on its console, before all that it wrote. -/
def Frame.under (c : Console) (frame : Frame) : Frame :=
  { frame with console := c.append frame.console }

section Console

variable (c : Console)

@[simp]
lemma Console.append_empty : c.append .empty = c := by simp [Console.append, Console.empty]

@[simp]
lemma Console.empty_append : Console.empty.append c = c := by simp [Console.append, Console.empty]

variable (frame : Frame)

@[simp] lemma Frame.under_scope : (frame.under c).scope = frame.scope := rfl

@[simp]
lemma Frame.under_empty : frame.under .empty = frame := by simp [Frame.under]

end Console

/-- What is demanded of states, and how a state is put under more on the console. -/
structure Ground (σ : Type) where
  holds : σ → Prop
  under : Console → σ → σ
  /-- Whether the second computation may go on where the first one is cut off for the depth of its
  calls. -/
  cut : Prop := False
  /-- The failures of the first computation that may be others in the second. -/
  swap : Failure → Failure → Prop := fun _ _ => False

/-- Nothing is demanded of consoles. -/
def Ground.console (cut : Prop) (swap : Failure → Failure → Prop) : Ground Console :=
  ⟨fun _ => True, Console.append, cut, swap⟩

/-- Consoles with the given output on them. A computation that keeps to it writes notes only. -/
def Ground.quiet (output : List String) : Ground Console where
  holds c := c.output = output
  under := Console.append

lemma bind_of_ok {σ α β : Type} {m : EStateM Stop σ α} {k : α → EStateM Stop σ β} {s t : σ} {a : α}
    (h : m s = .ok a t) : (m >>= k) s = k a t := by
  show EStateM.bind m k s = _
  rw [EStateM.bind, h]

lemma bind_of_error {σ α β : Type} {m : EStateM Stop σ α} {k : α → EStateM Stop σ β} {s t : σ}
    {e : Stop} (h : m s = .error e t) : (m >>= k) s = .error e t := by
  show EStateM.bind m k s = _
  rw [EStateM.bind, h]

/-- The result with its state changed, to one of another kind maybe. -/
def onState {σ τ α : Type} (g : σ → τ) : EStateM.Result Stop σ α → EStateM.Result Stop τ α
  | .ok a s => .ok a (g s)
  | .error e s => .error e (g s)

@[simp]
lemma onState_under_empty {α : Type} (r : EStateM.Result Stop Frame α) :
    onState (Frame.under .empty) r = r := by
  cases r <;> simp [onState]

/-! ### Computations inside others

What a computation makes of the result of the one that it runs inside. -/

namespace Evaluator

lemma onConsole_eq {α : Type} (m : ConsoleM α) (frame : Frame) :
    onConsole m frame = onState (fun c => { frame with console := c }) (m frame.console) := by
  unfold onConsole
  cases m frame.console <;> rfl

lemma argument_eq (a : Setting) (e : Evaluation) (frame : Frame) :
    argument a e frame = onState (fun inner => { inner with inArguments := frame.inArguments })
      ((advance a >>= fun t => e t true) { frame with inArguments := true }) := by
  unfold argument
  cases (advance a >>= fun t => e t true) { frame with inArguments := true } <;> rfl

lemma expressionTokens_append (inArguments : Bool) (depth : Nat) (tokens : List Token) :
    (expressionTokens inArguments depth tokens).1 ++ (expressionTokens inArguments depth tokens).2 =
      tokens := by
  fun_induction expressionTokens inArguments depth tokens with
  | case1 => rfl
  | case2 => rfl
  | case3 => rfl
  | case4 depth t rest _ _ depth' taken left he ih =>
    rw [he] at ih
    exact congrArg (t :: ·) ih

/-- A return ends an evaluation with its value. -/
def settled : EStateM.Result Stop Frame Value → EStateM.Result Stop Frame Value
  | .error (.returned v) last => .ok v { last with rest := [], past := 1 }
  | result => result

lemma run_eq (invoke : Invocation) (setting : Setting) (frame : Frame) :
    run invoke setting frame = settled (statements invoke setting frame.rest.length none frame) := by
  unfold run settled
  rfl

lemma runBody_eq (invoke : Invocation) (program : Scope) (f : Function) (scope : Scope)
    (console : Console) :
    runBody invoke program f scope console =
      onState Frame.console
        (run invoke ⟨endLine f.body, some program, true⟩ (frameOf f.body scope console)) := by
  unfold runBody
  cases run invoke ⟨endLine f.body, some program, true⟩ (frameOf f.body scope console) <;> rfl

end Evaluator

/-! ### Agreement -/

/-- **The second result follows the first**: it is the same one but for its state, or the first one
is cut off, or both have failed in ways that may stand for each other. -/
inductive Follows {σ α : Type} (cut : Prop) (swap : Failure → Failure → Prop) (g : σ → σ) :
    EStateM.Result Stop σ α → EStateM.Result Stop σ α → Prop where
  | same (r : EStateM.Result Stop σ α) : Follows cut swap g r (onState g r)
  | cut (h : cut) (s : σ) (r' : EStateM.Result Stop σ α) :
    Follows cut swap g (.error .exhausted s) r'
  | swap {f f' : Failure} (h : swap f f') (s : σ) :
    Follows cut swap g (.error (.failure f) s) (.error (.failure f') (g s))

namespace Follows

variable {σ τ α β : Type} {cut : Prop} {swap : Failure → Failure → Prop} {g : σ → σ}
  {r r' : EStateM.Result Stop σ α}

lemma of_eq (h : r' = onState g r) : Follows cut swap g r r' := h ▸ .same r

lemma eq_or_cut (h : Follows cut swap g r r') (hswap : ∀ f f', ¬swap f f') :
    r' = onState g r ∨ cut ∧ ∃ s, r = .error .exhausted s := by
  cases h with
  | same => exact .inl rfl
  | cut hc s => exact .inr ⟨hc, s, rfl⟩
  | swap hs => exact absurd hs (hswap _ _)

lemma eq (h : Follows cut swap g r r') (hcut : ¬cut) (hswap : ∀ f f', ¬swap f f') :
    r' = onState g r :=
  (h.eq_or_cut hswap).resolve_right fun hr => hcut hr.1

lemma onState {g' : τ → τ} {p q : σ → τ} (h : Follows cut swap g r r')
    (hsame : ∀ s, q (g s) = g' (p s)) : Follows cut swap g' (onState p r) (onState q r') := by
  cases h with
  | same =>
    refine .of_eq ?_
    cases r with
    | ok a s => exact congrArg (EStateM.Result.ok a) (hsame s)
    | error e s => exact congrArg (EStateM.Result.error e) (hsame s)
  | cut hc => exact .cut hc _ _
  | @swap f f' hs s =>
    show Follows _ _ _ _ (.error (.failure f') (q (g s)))
    rw [hsame]
    exact .swap hs _

lemma settled {c : Console} {r r' : EStateM.Result Stop Frame Value}
    (h : Follows cut swap (Frame.under c) r r') :
    Follows cut swap (Frame.under c) (Evaluator.settled r) (Evaluator.settled r') := by
  cases h with
  | same =>
    refine .of_eq ?_
    cases r with
    | ok v last => rfl
    | error e last => cases e <;> rfl
  | cut hc => exact .cut hc _ _
  | swap hs => exact .swap hs _

end Follows

namespace Ground

variable {σ α β : Type}

/-- The result meets the demands: those on its state, and the ones for stops or values. -/
def Ends (G : Ground σ) (E : Stop → Prop) (Q : α → Prop) : EStateM.Result Stop σ α → Prop
  | .ok a s => G.holds s ∧ Q a
  | .error e s => G.holds s ∧ E e

/-- **The second computation agrees with the first**, which meets the demands. -/
def Agree (G : Ground σ) (E : Stop → Prop) (Q : α → Prop) (m n : EStateM Stop σ α) : Prop :=
  ∀ s, G.holds s → (∀ c, Follows G.cut G.swap (G.under c) (m s) (n (G.under c s))) ∧ G.Ends E Q (m s)

/-- The same from one state on. -/
abbrev AgreeAt (G : Ground σ) (E : Stop → Prop) (Q : α → Prop) (m n : EStateM Stop σ α) (s : σ) :
    Prop :=
  (∀ c, Follows G.cut G.swap (G.under c) (m s) (n (G.under c s))) ∧ G.Ends E Q (m s)

variable {G : Ground σ} {E E' : Stop → Prop} {P Q : α → Prop} {R : β → Prop}

lemma Ends.mono {r : EStateM.Result Stop σ α} (h : G.Ends E P r) (hE : ∀ e, E e → E' e)
    (hQ : ∀ a, P a → Q a) : G.Ends E' Q r := by
  cases r with
  | ok a s => exact ⟨h.1, hQ a h.2⟩
  | error e s => exact ⟨h.1, hE e h.2⟩

lemma Ends.onState {τ : Type} {G' : Ground τ} {p : σ → τ} {r : EStateM.Result Stop σ α}
    (h : G.Ends E Q r) (hp : ∀ s, G.holds s → G'.holds (p s)) : G'.Ends E Q (onState p r) := by
  cases r with
  | ok a s => exact ⟨hp s h.1, h.2⟩
  | error e s => exact ⟨hp s h.1, h.2⟩

/-- A computation that only looks at the state is passed over. -/
lemma AgreeAt.step {m n : EStateM Stop σ α} {k l : α → EStateM Stop σ β} {s : σ} {a : α}
    (hm : m s = .ok a s) (hn : ∀ c, n (G.under c s) = .ok a (G.under c s))
    (h : G.AgreeAt E R (k a) (l a) s) : G.AgreeAt E R (m >>= k) (n >>= l) s := by
  unfold AgreeAt
  simp only [bind_of_ok hm, bind_of_ok (hn _)]
  exact h

lemma AgreeAt.bind {m n : EStateM Stop σ α} {k l : α → EStateM Stop σ β} {s : σ}
    (hm : G.AgreeAt E P m n s) (hk : ∀ a, P a → G.Agree E R (k a) (l a)) :
    G.AgreeAt E R (m >>= k) (n >>= l) s := by
  obtain ⟨hfollows, hends⟩ := hm
  have hm' : (m >>= k) s = EStateM.bind m k s := rfl
  have hn' : ∀ c, (n >>= l) (G.under c s) = EStateM.bind n l (G.under c s) := fun _ => rfl
  unfold AgreeAt
  simp only [hm', hn', EStateM.bind]
  cases hr : m s with
  | ok a t =>
    rw [hr] at hends hfollows
    refine ⟨fun c => ?_, (hk a hends.2 t hends.1).2⟩
    have h := hfollows c
    generalize n (G.under c s) = r' at h ⊢
    cases h with
    | same => exact (hk a hends.2 t hends.1).1 c
  | error e t =>
    rw [hr] at hends hfollows
    refine ⟨fun c => ?_, hends⟩
    have h := hfollows c
    generalize n (G.under c s) = r' at h ⊢
    cases h with
    | same => exact .same _
    | cut hcut => exact .cut hcut _ _
    | swap hswap => exact .swap hswap _

namespace Agree

lemma mono {m n : EStateM Stop σ α} (h : G.Agree E P m n) (hQ : ∀ a, P a → Q a) :
    G.Agree E Q m n :=
  fun s hs => ⟨(h s hs).1, (h s hs).2.mono (fun _ he => he) hQ⟩

lemma mono_stop {m n : EStateM Stop σ α} (h : G.Agree E Q m n) (hE : ∀ e, E e → E' e) :
    G.Agree E' Q m n :=
  fun s hs => ⟨(h s hs).1, (h s hs).2.mono hE fun _ ha => ha⟩

lemma pure {a : α} (h : Q a) : G.Agree E Q (pure a) (pure a) :=
  fun _ hs => ⟨fun _ => .same _, hs, h⟩

lemma throw {e : Stop} (h : E e) : G.Agree E Q (throw e : EStateM Stop σ α) (throw e) :=
  fun _ hs => ⟨fun _ => .same _, hs, h⟩

lemma bind {m n : EStateM Stop σ α} {k l : α → EStateM Stop σ β} (hm : G.Agree E P m n)
    (hk : ∀ a, P a → G.Agree E R (k a) (l a)) : G.Agree E R (m >>= k) (n >>= l) :=
  fun s hs => AgreeAt.bind (hm s hs) hk

lemma of_quiet {cut : Prop} {swap : Failure → Failure → Prop} {m n : ConsoleM α}
    (h : ∀ o, (Ground.quiet o).Agree E Q m n) : (Ground.console cut swap).Agree E Q m n := by
  intro c _
  obtain ⟨hfollows, hends⟩ := h c.output c rfl
  refine ⟨fun d => .of_eq ((hfollows d).eq not_false fun _ _ => not_false), ?_⟩
  cases hr : m c with
  | ok a d => rw [hr] at hends; exact ⟨trivial, hends.2⟩
  | error e d => rw [hr] at hends; exact ⟨trivial, hends.2⟩

end Agree

end Ground

end Hive
