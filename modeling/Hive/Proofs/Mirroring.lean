import Hive.Proofs.Renaming
import Hive.Proofs.Rules

/-!
Evaluation with new names. Two computations are put side by side, the second one with all tokens and
scopes renamed. It **mirrors** the first: it comes to the same value or stops alike, writes the same
output, and the tokens left and the scope are those of the first one renamed. Only the notes may be
different. This is shown function by function, given that the expressions nested in it are mirrored,
and so for whole programs.
-/

namespace Hive

open Evaluator

/-! ### Mirrored computations -/

/-- **The computations stop alike.** -/
def Stop.Like : Stop → Stop → Prop
  | .failure f, .failure g => f.Like g
  | .returned v, .returned w => w = v
  | .exhausted, .exhausted => True
  | _, _ => False

section Mirrors

variable {σ τ α β γ δ : Type} {R : σ → τ → Prop} {V : α → β → Prop} {W : γ → δ → Prop}

/-- The results are alike: both are values that are related, or stops that are alike, and the states
are related. -/
def Mirrored (R : σ → τ → Prop) (V : α → β → Prop) :
    EStateM.Result Stop σ α → EStateM.Result Stop τ β → Prop
  | .ok a s, .ok b t => V a b ∧ R s t
  | .error e s, .error e' t => e.Like e' ∧ R s t
  | _, _ => False

lemma Mirrored.onState {σ' τ' : Type} {R' : σ' → τ' → Prop} {r : EStateM.Result Stop σ α}
    {r' : EStateM.Result Stop τ β} {g : σ → σ'} {g' : τ → τ'} (h : Mirrored R V r r')
    (hg : ∀ s t, R s t → R' (g s) (g' t)) : Mirrored R' V (onState g r) (onState g' r') := by
  cases r <;> cases r'
  · exact ⟨h.1, hg _ _ h.2⟩
  · exact h.elim
  · exact h.elim
  · exact ⟨h.1, hg _ _ h.2⟩

/-- **The second computation mirrors the first** on states that are related. -/
def Mirrors (R : σ → τ → Prop) (V : α → β → Prop) (m : EStateM Stop σ α) (n : EStateM Stop τ β) :
    Prop :=
  ∀ s t, R s t → Mirrored R V (m s) (n t)

namespace Mirrors

variable {m : EStateM Stop σ α} {n : EStateM Stop τ β} {k : α → EStateM Stop σ γ}
  {l : β → EStateM Stop τ δ}

lemma pure {a : α} {b : β} (h : V a b) : Mirrors R V (pure a) (pure b) := fun _ _ hst => ⟨h, hst⟩

lemma throw {e e' : Stop} (h : e.Like e') :
    Mirrors R V (throw e : EStateM Stop σ α) (throw e' : EStateM Stop τ β) :=
  fun _ _ hst => ⟨h, hst⟩

lemma bind (hm : Mirrors R V m n) (hk : ∀ a b, V a b → Mirrors R W (k a) (l b)) :
    Mirrors R W (m >>= k) (n >>= l) := by
  intro s t hst
  have h := hm s t hst
  show Mirrored R W (EStateM.bind m k s) (EStateM.bind n l t)
  unfold EStateM.bind
  revert h
  cases m s <;> cases n t
  · exact fun h => hk _ _ h.1 _ _ h.2
  · exact False.elim
  · exact False.elim
  · exact fun h => h

lemma fail {line line' : Int} {p p' : Problem} (hline : line' = line) (h : p'.kind = p.kind) :
    Mirrors R V (Evaluator.fail line p : EStateM Stop σ α)
      (Evaluator.fail line' p' : EStateM Stop τ β) :=
  throw ⟨h, congrArg Json.int hline⟩

lemma ensure_bind {k : Unit → EStateM Stop σ γ} {l : Unit → EStateM Stop τ δ} {p p' : Prop}
    [Decidable p] [Decidable p'] {line line' : Int} {q q' : Problem} (hp : p' ↔ p)
    (hline : line' = line) (hkind : q'.kind = q.kind) (hk : p → Mirrors R W (k ()) (l ())) :
    Mirrors R W (ensure p line q >>= k) (ensure p' line' q' >>= l) := by
  unfold ensure
  by_cases h : p
  · rw [if_pos h, if_pos (hp.2 h)]
    exact hk h
  · rw [if_neg h, if_neg (mt hp.1 h)]
    exact fun _ _ hst => ⟨⟨hkind, congrArg Json.int hline⟩, hst⟩

lemma orFail {x : Except Failure α} {y : Except Failure β} (h : Matches V x y) :
    Mirrors R V (Evaluator.orFail x) (Evaluator.orFail y) := by
  cases x <;> cases y
  · exact throw h
  · exact h.elim
  · exact h.elim
  · exact pure h

lemma orHalt {x : Except Fault α} {y : Except Fault β} {g : α → β} (hy : y = x.map g)
    (hV : ∀ a, x = .ok a → V a (g a)) : Mirrors R V (Evaluator.orHalt x) (Evaluator.orHalt y) := by
  subst hy
  cases x with
  | ok a => exact pure (hV a rfl)
  | error f => exact throw rfl

/-- The same computation on both sides. -/
lemma orHalt_self (x : Except Fault α) :
    Mirrors R (· = ·) (Evaluator.orHalt x : EStateM Stop σ α)
      (Evaluator.orHalt x : EStateM Stop τ α) := by
  cases x with
  | ok a => exact pure rfl
  | error f => exact throw rfl

end Mirrors

end Mirrors

/-! ### Consoles -/

/-- The consoles have the same output on them. Their notes may differ. -/
def SameOutput (c d : Console) : Prop := d.output = c.output

/-- Both computations succeed, or there is the same fault in both. -/
def SameFault {α β : Type} : Except Fault α → Except Fault β → Prop
  | .ok _, .ok _ => True
  | .error f, .error f' => f' = f
  | _, _ => False

namespace SameFault

variable {α β γ δ : Type}

lemma ok (a : α) (b : β) : SameFault (.ok a) (.ok b) := trivial

lemma refl (x : Except Fault α) : SameFault x x := by
  cases x with
  | ok _ => trivial
  | error f => rfl

lemma bind {x : Except Fault α} {y : Except Fault β} {k : α → Except Fault γ}
    {l : β → Except Fault δ} (h : SameFault x y) (hk : ∀ a b, SameFault (k a) (l b)) :
    SameFault (x >>= k) (y >>= l) := by
  cases x <;> cases y
  · exact h
  · exact h.elim
  · exact h.elim
  · exact hk _ _

end SameFault

namespace Mirrors

lemma note {level level' : Nat} {x y : Except Fault String} (h : SameFault x y) :
    Mirrors SameOutput (fun _ _ => True) (Evaluator.note level x) (Evaluator.note level' y) := by
  intro c d hcd
  cases x <;> cases y
  · exact ⟨h, hcd⟩
  · exact h.elim
  · exact h.elim
  · exact ⟨trivial, hcd⟩

lemma write (line : String) :
    Mirrors SameOutput (fun _ _ => True) (Evaluator.write line) (Evaluator.write line) :=
  fun _ _ hcd => ⟨trivial, congrArg (· ++ [line]) hcd⟩

end Mirrors

/-! ### Frames -/

/-- **A frame and the same one with new names**, up to the notes. -/
structure Renaming.Frames (ρ : Renaming) (f g : Frame) : Prop where
  rest : g.rest = f.rest.map ρ.token
  proper : ∀ t ∈ f.rest, t.Proper
  past : g.past = f.past
  inArguments : g.inArguments = f.inArguments
  scope : ρ.Scopes f.scope g.scope
  output : SameOutput f.console g.console

/-- A setting and the same one with new names in the scope of the program. -/
structure Renaming.Settings (ρ : Renaming) (a b : Setting) : Prop where
  endLine : b.endLine = a.endLine
  mayReturn : b.mayReturn = a.mayReturn
  program : b.program = a.program.map ρ.scope
  proper : ∀ p ∈ a.program, p.Proper

lemma Renaming.Frames.tail {ρ : Renaming} {t : Token} {rest : List Token} {past past' : Nat}
    {i i' : Bool} {own own' : Scope} {c c' : Console}
    (h : ρ.Frames ⟨t :: rest, past, i, own, c⟩
      ⟨ρ.token t :: rest.map ρ.token, past', i', own', c'⟩) :
    ρ.Frames ⟨rest, past, i, own, c⟩ ⟨rest.map ρ.token, past', i', own', c'⟩ :=
  ⟨rfl, fun u hu => h.proper u (by simp [hu]), h.past, h.inArguments, h.scope, h.output⟩

lemma Mirrored.settled {ρ : Renaming} {r r' : EStateM.Result Stop Frame Value}
    (h : Mirrored ρ.Frames (· = ·) r r') :
    Mirrored ρ.Frames (· = ·) (Evaluator.settled r) (Evaluator.settled r') := by
  cases r with
  | ok v f =>
    cases r' with
    | ok w g => exact h
    | error e' g => exact h.elim
  | error e f =>
    cases r' with
    | ok w g => exact h.elim
    | error e' g =>
      cases e <;> cases e'
      case returned.returned v w =>
        obtain ⟨rfl, hfg⟩ : w = v ∧ ρ.Frames f g := h
        exact ⟨rfl, rfl, by simp, rfl, hfg.inArguments, hfg.scope, hfg.output⟩
      case failure.failure => exact h
      case exhausted.exhausted => exact h
      all_goals exact h.1.elim

namespace Mirrors

variable {ρ : Renaming} {α β : Type} {V : α → β → Prop} {a b : Setting}

lemma onConsole {m : ConsoleM α} {n : ConsoleM β} (h : Mirrors SameOutput V m n) :
    Mirrors ρ.Frames V (Evaluator.onConsole m) (Evaluator.onConsole n) := by
  intro f g hfg
  rw [onConsole_eq, onConsole_eq]
  refine (h f.console g.console hfg.output).onState fun c d hcd => ?_
  exact ⟨hfg.rest, hfg.proper, hfg.past, hfg.inArguments, hfg.scope, hcd⟩

lemma scope_bind {k : Scope → EvalM α} {l : Scope → EvalM β}
    (hk : ∀ s : Scope, s.Proper → Mirrors ρ.Frames V (k s) (l (ρ.scope s))) :
    Mirrors ρ.Frames V (Evaluator.scope >>= k) (Evaluator.scope >>= l) := by
  intro f g hfg
  obtain ⟨hscope, hproper⟩ := hfg.scope
  show Mirrored ρ.Frames V (k f.scope f) (l g.scope g)
  rw [hscope]
  exact hk f.scope hproper f g hfg

lemma setScope {s t : Scope} (h : ρ.Scopes s t) :
    Mirrors ρ.Frames (fun _ _ => True) (Evaluator.setScope s) (Evaluator.setScope t) :=
  fun _ _ hfg => ⟨trivial, hfg.rest, hfg.proper, hfg.past, hfg.inArguments, h, hfg.output⟩

/-- The next token is the one of the first frame, renamed. -/
lemma peek_bind (hs : ρ.Settings a b) {k : Token → EvalM α} {l : Token → EvalM β}
    (hk : ∀ t : Token, Mirrors ρ.Frames V (k t) (l (ρ.token t))) :
    Mirrors ρ.Frames V (peek a >>= k) (peek b >>= l) := by
  intro f g hfg
  show Mirrored ρ.Frames V (k (f.rest.headD (.atEnd a.endLine)) f)
    (l (g.rest.headD (.atEnd b.endLine)) g)
  have hnext : g.rest.headD (.atEnd b.endLine) = ρ.token (f.rest.headD (.atEnd a.endLine)) := by
    rw [hfg.rest, hs.endLine]
    cases f.rest with
    | nil => exact (ρ.token_atEnd _).symm
    | cons t rest => rfl
  rw [hnext]
  exact hk _ f g hfg

lemma advance_bind (hs : ρ.Settings a b) {k : Token → EvalM α} {l : Token → EvalM β}
    (hk : ∀ t : Token, t.Proper → Mirrors ρ.Frames V (k t) (l (ρ.token t))) :
    Mirrors ρ.Frames V (advance a >>= k) (advance b >>= l) := by
  rintro ⟨rest, past, inArguments, own, console⟩ ⟨rest', past', inArguments', own', console'⟩ hfg
  obtain rfl : rest' = rest.map ρ.token := hfg.rest
  have hpast : past' = past := hfg.past
  cases rest with
  | nil =>
    have h := hk (.atEnd a.endLine) (Token.proper_atEnd _)
      ⟨[], past + 1, inArguments, own, console⟩ ⟨[], past' + 1, inArguments', own', console'⟩
      ⟨rfl, by simp, congrArg (· + 1) hpast, hfg.inArguments, hfg.scope, hfg.output⟩
    rw [ρ.token_atEnd] at h
    show Mirrored ρ.Frames V (k (.atEnd a.endLine) ⟨[], past + 1, inArguments, own, console⟩)
      (l (.atEnd b.endLine) ⟨[], past' + 1, inArguments', own', console'⟩)
    rw [hs.endLine]
    exact h
  | cons t rest =>
    exact hk t (hfg.proper t (by simp)) _ _ hfg.tail

lemma length_bind {k : Nat → EvalM α} {l : Nat → EvalM β}
    (hk : ∀ n, Mirrors ρ.Frames V (k n) (l n)) :
    Mirrors ρ.Frames V (do k (← get).rest.length) (do l (← get).rest.length) := by
  intro f g hfg
  show Mirrored ρ.Frames V (k f.rest.length f) (l g.rest.length g)
  rw [hfg.rest, List.length_map]
  exact hk _ f g hfg

/-! ### Runs of tokens -/

lemma takeUntil (stop : TokenKind → Bool) :
    Mirrors ρ.Frames (fun ts us => us = ts.map ρ.token ∧ ∀ t ∈ ts, t.Proper)
      (Evaluator.takeUntil stop) (Evaluator.takeUntil stop) := by
  intro f g hfg
  have hkinds : ((fun t : Token => !stop t.kind) ∘ ρ.token) = fun t => !stop t.kind := by
    funext t
    simp
  have htake : g.rest.takeWhile (fun t => !stop t.kind) =
      (f.rest.takeWhile fun t => !stop t.kind).map ρ.token := by
    rw [hfg.rest, List.takeWhile_map, hkinds]
  have hdrop : g.rest.dropWhile (fun t => !stop t.kind) =
      (f.rest.dropWhile fun t => !stop t.kind).map ρ.token := by
    rw [hfg.rest, List.dropWhile_map, hkinds]
  refine ⟨⟨htake, fun t ht => hfg.proper t ((List.takeWhile_prefix _).subset ht)⟩, hdrop,
    fun t ht => hfg.proper t ((List.dropWhile_suffix _).subset ht), hfg.past, hfg.inArguments,
    hfg.scope, hfg.output⟩

/-- As many tokens belong to an expression after its first one. -/
lemma collect (first : Token) :
    Mirrors ρ.Frames (fun ts us => us = ts.map ρ.token) (Evaluator.collect first)
      (Evaluator.collect (ρ.token first)) := by
  intro f g hfg
  unfold Evaluator.collect
  dsimp only
  rw [ρ.token_kind, hfg.rest, hfg.inArguments, ρ.relabels_token.expressionTokens]
  refine ⟨rfl, rfl, fun t ht => hfg.proper t ?_, hfg.past, rfl, hfg.scope, hfg.output⟩
  rw [← expressionTokens_append f.inArguments (if first.kind = .leftParen then 1 else 0) f.rest]
  exact List.mem_append_right _ ht

end Mirrors

end Hive
