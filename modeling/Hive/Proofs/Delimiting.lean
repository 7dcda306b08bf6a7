import Hive.Proofs.Functions
import Hive.Proofs.Joining

/-!
Where an argument of a call ends. Arguments are not marked off before they are evaluated: each form
of expression stops by a rule of its own. An argument is therefore compared with its tokens
**alone**, where the end comes in the place of the comma or parenthesis after it. If its parentheses
are balanced and it comes to a literal in the call, then it comes to the same one alone, from the
same tokens: the second evaluation **echoes** the first. Nil and failures are of no use in a call,
so nothing is said of them.
-/

namespace Hive

open Evaluator

/-! ### Parentheses -/

/-- Whether tokens close the parentheses that are open before them, as many as `depth`, and all that
they open themselves. There is no comma outside of parentheses, and no terminator. -/
def closes : Nat → List Token → Bool
  | depth, [] => depth == 0
  | depth, t :: rest =>
    match t.kind with
    | .leftParen => closes (depth + 1) rest
    | .rightParen => depth != 0 && closes (depth - 1) rest
    | .comma => depth != 0 && closes depth rest
    | kind => !kind.isTerminator && closes depth rest

def TokenKind.turn (depth : Nat) : TokenKind → Nat
  | .leftParen => depth + 1
  | .rightParen => depth - 1
  | _ => depth

section Parentheses

variable {depth k : Nat} {i : Bool} {t : Token} {rest : List Token}

lemma turn_of_kind {kind : TokenKind} (hleft : kind ≠ .leftParen) (hright : kind ≠ .rightParen) :
    kind.turn depth = depth := by
  unfold TokenKind.turn
  split
  · exact absurd rfl hleft
  · exact absurd rfl hright
  · rfl

lemma turn_of_literal {kind : TokenKind} (h : kind.isLiteral = true) :
    kind.turn depth = depth ∧ kind ≠ .rightParen := by
  cases kind with
  | literal type => exact ⟨rfl, nofun⟩
  | _ => cases h

lemma closes_tail (h : closes depth (t :: rest) = true) :
    closes (t.kind.turn depth) rest = true := by
  unfold closes at h
  split at h
  · rename_i hkind
    rw [hkind]
    exact h
  · rename_i hkind
    rw [hkind]
    exact (Bool.and_eq_true_iff.1 h).2
  · rename_i hkind
    rw [hkind]
    exact (Bool.and_eq_true_iff.1 h).2
  · rename_i hleft hright hcomma
    rw [turn_of_kind hleft hright]
    exact (Bool.and_eq_true_iff.1 h).2

lemma isTerminator_of_closes (h : closes depth (t :: rest) = true) :
    t.kind.isTerminator = false := by
  unfold closes at h
  split at h
  · rename_i hkind
    rw [hkind]
    rfl
  · rename_i hkind
    rw [hkind]
    rfl
  · rename_i hkind
    rw [hkind]
    rfl
  · simpa using (Bool.and_eq_true_iff.1 h).1

/-- A comma or a closing parenthesis stands inside of parentheses. -/
lemma depth_of_closes (h : closes depth (t :: rest) = true)
    (hmark : t.kind = .comma ∨ t.kind = .rightParen) : depth ≠ 0 := by
  unfold closes at h
  rcases hmark with hkind | hkind
  · rw [hkind] at h
    simpa using (Bool.and_eq_true_iff.1 h).1
  · rw [hkind] at h
    simpa using (Bool.and_eq_true_iff.1 h).1

lemma expressionTokens_go (hend : t.kind.isTerminator = false)
    (hgo : ¬(i = true ∧ k = 0 ∧ (t.kind = .comma ∨ t.kind = .rightParen))) :
    expressionTokens i k (t :: rest) =
      (t :: (expressionTokens i (t.kind.turn k) rest).1,
        (expressionTokens i (t.kind.turn k) rest).2) := by
  have hturn : (if t.kind = .rightParen then k - 1 else if t.kind = .leftParen then k + 1 else k) =
      t.kind.turn k := by
    unfold TokenKind.turn
    cases t.kind <;> simp
  have hstop : ¬(i && k == 0 && (t.kind == .comma || t.kind == .rightParen)) = true := by
    simpa [and_assoc] using hgo
  rw [expressionTokens, if_neg (by simp [hend]), if_neg hstop, hturn]

/-- Among arguments, an expression stops at a comma or a closing parenthesis that is not its own. -/
lemma expressionTokens_stop (hmark : t.kind = .comma ∨ t.kind = .rightParen) :
    expressionTokens true 0 (t :: rest) = ([], t :: rest) := by
  have hend : t.kind.isTerminator = false := by
    rcases hmark with h | h <;> rw [h] <;> rfl
  rw [expressionTokens, if_neg (by simp [hend]), if_pos (by simpa using hmark)]

end Parentheses

/-! ### Frames -/

/-- The comma or parenthesis after an argument, and all that comes after it. -/
structure Border where
  mark : Token
  after : List Token
  /-- How often the end has been read before the call; it is not read in it. -/
  past : Nat
  isMark : mark.kind = .comma ∨ mark.kind = .rightParen

/-- **Inside of an argument.** The frames differ in that the tokens left go on beyond the border in
the first. What is left before the border is no longer than `n`; `depth` parentheses are open. -/
structure Border.Within (β : Border) (n depth : Nat) (i : Bool) (f g : Frame) : Prop where
  rest : f.rest = g.rest ++ β.mark :: β.after
  closes : closes depth g.rest = true
  length : g.rest.length ≤ n
  inArguments : f.inArguments = true ∧ g.inArguments = i
  past : f.past = β.past ∧ g.past = 0
  scope : g.scope = f.scope
  console : g.console = f.console

lemma Border.expressionTokens (β : Border) {i : Bool} {depth k : Nat} {tokens : List Token}
    (hi : depth = 0 ∨ i = true) (h : closes (k + depth) tokens = true) :
    ∃ taken left, Evaluator.expressionTokens true k (tokens ++ β.mark :: β.after) =
        (taken, left ++ β.mark :: β.after) ∧
      Evaluator.expressionTokens i k tokens = (taken, left) ∧ closes depth left = true ∧
      left.length ≤ tokens.length := by
  induction tokens generalizing k with
  | nil =>
    obtain ⟨rfl, rfl⟩ : k = 0 ∧ depth = 0 := by simpa [closes] using h
    exact ⟨[], [], expressionTokens_stop β.isMark, rfl, rfl, Nat.le_refl _⟩
  | cons t tokens ih =>
    have hend := isTerminator_of_closes h
    -- the expression ends at a mark outside of its own parentheses: inside the part if some were
    -- opened before it, and otherwise at the border
    by_cases hstop : k = 0 ∧ (t.kind = .comma ∨ t.kind = .rightParen)
    · obtain ⟨rfl, hmark⟩ := hstop
      rw [Nat.zero_add] at h
      obtain rfl : i = true := hi.resolve_left (depth_of_closes h hmark)
      exact ⟨[], t :: tokens, expressionTokens_stop hmark, expressionTokens_stop hmark, h,
        Nat.le_refl _⟩
    · have hturn : t.kind.turn (k + depth) = t.kind.turn k + depth := by
        unfold TokenKind.turn
        split
        · omega
        · have hk : k ≠ 0 := fun hk => hstop ⟨hk, .inr ‹_›⟩
          omega
        · rfl
      have htail := closes_tail h
      rw [hturn] at htail
      obtain ⟨taken, left, hcall, halone, hleft, hlength⟩ := ih htail
      refine ⟨t :: taken, left, ?_, ?_, hleft, Nat.le_succ_of_le hlength⟩
      · rw [List.cons_append, expressionTokens_go hend fun hs => hstop hs.2, hcall]
      · rw [expressionTokens_go hend fun hs => hstop hs.2, halone]

namespace Border.Within

variable {β : Border} {n depth : Nat} {i : Bool} {f g : Frame} {a b : Setting}

/-- The next token is the same one, or the border has been reached. -/
lemma head_cases (h : β.Within n depth i f g) :
    (∃ t rest, g.rest = t :: rest ∧ f.rest = t :: (rest ++ β.mark :: β.after)) ∨
      g.rest = [] ∧ f.rest = β.mark :: β.after := by
  cases hg : g.rest with
  | nil => exact .inr ⟨rfl, by rw [h.rest, hg, List.nil_append]⟩
  | cons t rest => exact .inl ⟨t, rest, rfl, by rw [h.rest, hg, List.cons_append]⟩

/-- What does not tell the end from a comma or a closing parenthesis is the same. -/
lemma kind (h : β.Within n depth i f g) {γ : Type} (p : TokenKind → γ)
    (hcomma : p .comma = p .endOfInput) (hparen : p .rightParen = p .endOfInput) :
    p (g.rest.headD (.atEnd b.endLine)).kind = p (f.rest.headD (.atEnd a.endLine)).kind := by
  rcases h.head_cases with ⟨t, rest, hg, hf⟩ | ⟨hg, hf⟩
  · rw [hg, hf]
    rfl
  · rw [hg, hf]
    show p .endOfInput = p β.mark.kind
    rcases β.isMark with hmark | hmark
    · rw [hmark, hcomma]
    · rw [hmark, hparen]

/-- A token of a class that has neither parentheses nor the end comes before the border. -/
lemma next_of_kind (h : β.Within n depth i f g) {p : TokenKind → Bool}
    (hleft : p .leftParen = false) (hright : p .rightParen = false) (hend : p .endOfInput = false)
    (hp : p (g.rest.headD (.atEnd b.endLine)).kind = true) :
    ∃ t rest, g.rest = t :: rest ∧ t.kind.turn depth = depth := by
  rcases h.head_cases with ⟨t, rest, hg, -⟩ | ⟨hg, -⟩
  · rw [hg, List.headD_cons] at hp
    refine ⟨t, rest, hg, turn_of_kind (fun hk => ?_) fun hk => ?_⟩
    · rw [hk, hleft] at hp
      cases hp
    · rw [hk, hright] at hp
      cases hp
  · rw [hg] at hp
    exact absurd (hend.symm.trans hp) Bool.false_ne_true

/-- Inside of parentheses the border has not been reached. -/
lemma exists_next (h : β.Within n (depth + 1) i f g) : ∃ t rest, g.rest = t :: rest := by
  rcases h.head_cases with ⟨t, rest, hg, -⟩ | ⟨hg, -⟩
  · exact ⟨t, rest, hg⟩
  · have hcloses := h.closes
    rw [hg] at hcloses
    cases hcloses

lemma tail (h : β.Within n depth i f g) {t : Token} {rest : List Token} (hg : g.rest = t :: rest) :
    β.Within (n - 1) (t.kind.turn depth) i { f with rest := rest ++ β.mark :: β.after }
      { g with rest := rest } := by
  have hcloses := h.closes
  have hlength := h.length
  rw [hg] at hcloses hlength
  rw [List.length_cons] at hlength
  exact ⟨rfl, closes_tail hcloses, Nat.le_sub_one_of_lt hlength, h.inArguments, h.past, h.scope,
    h.console⟩

lemma tight (h : β.Within n depth i f g) : β.Within g.rest.length depth i f g :=
  ⟨h.rest, h.closes, Nat.le_refl _, h.inArguments, h.past, h.scope, h.console⟩

lemma mono (h : β.Within n depth i f g) {m : Nat} (hm : n ≤ m) : β.Within m depth i f g :=
  ⟨h.rest, h.closes, Nat.le_trans h.length hm, h.inArguments, h.past, h.scope, h.console⟩

end Border.Within

/-! ### Echoes -/

section Echoes

variable {α γ : Type}

/-- **The second computation echoes the first**, from two frames on: what the first one comes to, if
it is good, the second one comes to as well, in a frame that is related by `Q`. -/
def EchoesAt (Q : Frame → Frame → Prop) (good : α → Prop) (m n : EvalM α) (f g : Frame) : Prop :=
  ∀ x f', m f = .ok x f' → good x → ∃ g', n g = .ok x g' ∧ Q f' g'

/-- The computation comes to nothing good. -/
def Never (good : α → Prop) (m : EvalM α) : Prop := ∀ f x f', m f = .ok x f' → ¬good x

namespace Never

variable {good : α → Prop} {m : EvalM α} {k : γ → EvalM α}

lemma throw (e : Stop) : Never good (throw e : EvalM α) := by
  intro f x f' h
  cases h

lemma pure {x : α} (hx : ¬good x) : Never good (pure x) := by
  intro f y f' h
  cases h
  exact hx

lemma bind {m : EvalM γ} (hk : ∀ y, Never good (k y)) : Never good (m >>= k) := by
  intro f x f' h
  obtain ⟨y, f₁, -, h⟩ := bind_eq_ok h
  exact hk y f₁ x f' h

lemma orFail_bind {x : Except Failure γ} (hx : ∀ y, x ≠ .ok y) : Never good (orFail x >>= k) := by
  cases x with
  | ok y => exact absurd rfl (hx y)
  | error e => exact fun f y f' h => nomatch h

lemma ensure_bind {p : Prop} [Decidable p] {line : Int} {problem : Problem} {k : Unit → EvalM α}
    (hp : ¬p) : Never good (ensure p line problem >>= k) := by
  unfold ensure
  rw [if_neg hp]
  intro f x f' h
  cases h

end Never

namespace EchoesAt

variable {Q T : Frame → Frame → Prop} {good : α → Prop} {good' : γ → Prop} {m n : EvalM α}
  {k l : α → EvalM γ} {f g : Frame}

lemma of_never (h : Never good m) : EchoesAt Q good m n f g :=
  fun x f' hx hgood => absurd hgood (h f x f' hx)

lemma pure {x : α} (h : Q f g) : EchoesAt Q good (pure x) (pure x) f g := by
  intro y f' hy _
  cases hy
  exact ⟨g, rfl, h⟩

lemma bind (hm : EchoesAt T good m n f g) (hbad : ∀ x, ¬good x → Never good' (k x))
    (hk : ∀ x f' g', good x → T f' g' → EchoesAt Q good' (k x) (l x) f' g') :
    EchoesAt Q good' (m >>= k) (n >>= l) f g := by
  intro y f'' h hy
  obtain ⟨x, f', hx, h⟩ := bind_eq_ok h
  have hgood : good x := by
    by_contra hx'
    exact hbad x hx' f' y f'' h hy
  obtain ⟨g', hg', hT⟩ := hm x f' hx hgood
  obtain ⟨g'', hg'', hQ⟩ := hk x f' g' hgood hT y f'' h hy
  exact ⟨g'', by rw [bind_of_ok hg']; exact hg'', hQ⟩

lemma step (hm : EchoesAt T (fun _ => True) m n f g)
    (hk : ∀ x f' g', T f' g' → EchoesAt Q good' (k x) (l x) f' g') :
    EchoesAt Q good' (m >>= k) (n >>= l) f g :=
  hm.bind (fun _ hbad => absurd trivial hbad) fun x f' g' _ => hk x f' g'

lemma orFail_bind {x : Except Failure α} (hk : ∀ y, x = .ok y → EchoesAt Q good' (k y) (l y) f g) :
    EchoesAt Q good' (orFail x >>= k) (orFail x >>= l) f g := by
  cases x with
  | ok y => exact hk y rfl
  | error e => exact fun y f' h => nomatch h

lemma orFail {x : Except Failure α} (h : Q f g) : EchoesAt Q good (orFail x) (orFail x) f g := by
  cases x with
  | ok y => exact pure h
  | error e => exact fun y f' h => nomatch h

lemma orHalt_bind {x : Except Fault α} (hk : ∀ y, x = .ok y → EchoesAt Q good' (k y) (l y) f g) :
    EchoesAt Q good' (orHalt x >>= k) (orHalt x >>= l) f g := by
  cases x with
  | ok y => exact hk y rfl
  | error e => exact fun y f' h => nomatch h

lemma ensure_bind {p : Prop} [Decidable p] {line line' : Int} {problem problem' : Problem}
    {k l : Unit → EvalM γ} (hk : p → EchoesAt Q good' (k ()) (l ()) f g) :
    EchoesAt Q good' (ensure p line problem >>= k) (ensure p line' problem' >>= l) f g := by
  by_cases hp : p
  · intro y f' h hy
    rw [bind_of_ok (ensure_of hp)] at h ⊢
    exact hk hp y f' h hy
  · exact of_never (Never.ensure_bind hp)

end EchoesAt

end Echoes

/-! ### Nil -/

section Nil

lemma onConsole_eq_ok {α : Type} {m : ConsoleM α} {f f' : Frame} {x : α}
    (h : onConsole m f = .ok x f') :
    ∃ c, m f.console = .ok x c ∧ f' = { f with console := c } := by
  rw [onConsole_eq] at h
  cases hm : m f.console with
  | ok y c =>
    rw [hm] at h
    cases h
    exact ⟨c, rfl, rfl⟩
  | error e c =>
    rw [hm] at h
    cases h

/-- Nil goes into no place. -/
lemma fit_nil (kind : TokenKind) (l : Literal) : kind.fit none ≠ .ok l := by
  unfold TokenKind.fit
  cases kind.type? <;> exact nofun

lemma fitVariable_nil (name : Token) (kind : TokenKind) (l : Literal) :
    Scope.fitVariable name kind none ≠ .ok l := by
  unfold Scope.fitVariable
  cases hfit : kind.fit none with
  | ok l' => exact absurd hfit (fit_nil kind l')
  | error m => cases m <;> exact nofun

lemma assign_nil (s : Scope) (name : Token) (x : Literal × Scope) : s.assign name none ≠ .ok x := by
  intro h
  obtain ⟨entry, -, h⟩ := ok_of_bind h
  split at h
  · obtain ⟨l, hl, -⟩ := ok_of_bind h
    exact fitVariable_nil _ _ l hl
  · cases h

lemma values_of_bindAll {line : Int} {pairs : List (Parameter × Value)} {s t : Scope}
    (h : pairs.foldlM (Function.bindArguments.bindOne line) s = .ok t) :
    ∀ x ∈ pairs, x.2 ≠ none := by
  induction pairs generalizing s with
  | nil => exact fun x hx => absurd hx List.not_mem_nil
  | cons x pairs ih =>
    rw [List.foldlM_cons] at h
    obtain ⟨s', hs', h⟩ := ok_of_bind h
    rintro y (_ | ⟨_, hy⟩)
    · intro hnone
      obtain ⟨p, v⟩ := x
      obtain rfl : v = none := hnone
      unfold Function.bindArguments.bindOne at hs'
      dsimp only at hs'
      cases hfit : p.type.fit none with
      | ok l => exact fit_nil p.type l hfit
      | error m =>
        rw [hfit] at hs'
        cases m <;> cases hs'
    · exact ih h y hy

/-- A call that comes to a value has one literal for each parameter. -/
lemma arguments_of_invoke {depth : Nat} {program : Scope} {f : Function} {values : List Value}
    {line : Int} {c c' : Console} {v : Value}
    (h : invoke depth program f values line c = .ok v c') :
    values.length = f.parameters.length ∧ none ∉ values := by
  cases depth with
  | zero => cases h
  | succ depth =>
    obtain ⟨s, c₁, hbind, -⟩ := bind_eq_ok h
    replace hbind := orFail_eq_ok hbind
    unfold Function.bindArguments at hbind
    split at hbind
    · cases hbind
    · rename_i hlength
      replace hlength := not_not.1 hlength
      refine ⟨hlength, fun hnone => ?_⟩
      rw [← List.map_snd_zip (Nat.le_of_eq hlength)] at hnone
      obtain ⟨x, hx, hxnone⟩ := List.mem_map.1 hnone
      exact values_of_bindAll hbind x hx hxnone

end Nil

/-! ### Steps inside of an argument -/

namespace Border

variable {β : Border} {n depth : Nat} {i : Bool} {f g : Frame} {a b : Setting} {α : Type}
  {Q : Frame → Frame → Prop} {good : α → Prop}

lemma echoes_scope_bind (h : β.Within n depth i f g) {k l : Scope → EvalM α}
    (hk : EchoesAt Q good (k f.scope) (l f.scope) f g) :
    EchoesAt Q good (scope >>= k) (scope >>= l) f g := by
  intro x f' hx hgood
  obtain ⟨g', hg', hQ⟩ := hk x f' hx hgood
  rw [← h.scope] at hg'
  exact ⟨g', hg', hQ⟩

lemma echoes_setScope (h : β.Within n depth i f g) (s : Scope) {good : Unit → Prop} :
    EchoesAt (β.Within n depth i) good (setScope s) (setScope s) f g := by
  intro x f' hx _
  cases hx
  exact ⟨{ g with scope := s }, rfl, h.rest, h.closes, h.length, h.inArguments, h.past, rfl,
    h.console⟩

lemma echoes_onConsole (h : β.Within n depth i f g) (m : ConsoleM α) :
    EchoesAt (β.Within n depth i) good (onConsole m) (onConsole m) f g := by
  intro x f' hx _
  obtain ⟨c, hc, rfl⟩ := onConsole_eq_ok hx
  refine ⟨{ g with console := c }, ?_, h.rest, h.closes, h.length, h.inArguments, h.past, h.scope,
    rfl⟩
  rw [onConsole_eq, h.console, hc]
  rfl

lemma echoes_advance_cons (h : β.Within n depth i f g) {k l : Token → EvalM α} {t : Token}
    {rest : List Token} (hg : g.rest = t :: rest)
    (hk : ∀ f' g', β.Within (n - 1) (t.kind.turn depth) i f' g' →
      EchoesAt Q good (k t) (l t) f' g') :
    EchoesAt Q good (advance a >>= k) (advance b >>= l) f g := by
  have hf : f.rest = t :: (rest ++ β.mark :: β.after) := by rw [h.rest, hg, List.cons_append]
  intro x f' hx hgood
  rw [bind_of_ok (advance_of_rest hf)] at hx
  rw [bind_of_ok (advance_of_rest hg)]
  exact hk _ _ (h.tail hg) x f' hx hgood

/-- The next token is read in both, unless the border has been reached. -/
lemma echoes_advance_bind (h : β.Within n depth i f g) {k l : Token → EvalM α}
    (hsame : ∀ t rest f' g', g.rest = t :: rest → β.Within (n - 1) (t.kind.turn depth) i f' g' →
      EchoesAt Q good (k t) (l t) f' g')
    (hend : Never good (k β.mark)) :
    EchoesAt Q good (advance a >>= k) (advance b >>= l) f g := by
  rcases h.head_cases with ⟨t, rest, hg, -⟩ | ⟨-, hf⟩
  · exact echoes_advance_cons h hg fun f' g' => hsame t rest f' g' hg
  · intro x f' hx hgood
    rw [bind_of_ok (advance_of_rest hf)] at hx
    exact absurd hgood (hend _ x f' hx)

lemma echoes_peek_bind (h : β.Within n (depth + 1) i f g) {k l : Token → EvalM α}
    (hk : ∀ t rest, g.rest = t :: rest → EchoesAt Q good (k t) (l t) f g) :
    EchoesAt Q good (peek a >>= k) (peek b >>= l) f g := by
  obtain ⟨t, rest, hg⟩ := h.exists_next
  have hf : f.rest = t :: (rest ++ β.mark :: β.after) := by rw [h.rest, hg, List.cons_append]
  intro x f' hx hgood
  rw [bind_of_ok (peek_of_rest hf)] at hx
  rw [bind_of_ok (peek_of_rest hg)]
  exact hk t rest hg x f' hx hgood

lemma echoes_collect {first : Token} {good : List Token → Prop} (hfirst : first.kind ≠ .rightParen)
    (hi : depth = 0 ∨ i = true) (h : β.Within n (first.kind.turn depth) i f g) :
    EchoesAt (β.Within n depth i) good (collect first) (collect first) f g := by
  intro tokens f' hf _
  -- the collection counts from an opening parenthesis on, as `closes` does
  have hturn : first.kind.turn depth = (if first.kind = .leftParen then 1 else 0) + depth := by
    unfold TokenKind.turn
    split
    · rename_i hkind
      rw [if_pos hkind]
      omega
    · exact absurd ‹_› hfirst
    · rename_i hleft _
      rw [if_neg hleft]
      omega
  have hcloses := h.closes
  rw [hturn] at hcloses
  obtain ⟨taken, left, hcall, halone, hleft, hlength⟩ := β.expressionTokens hi hcloses
  have hcollect : collect first f =
      .ok (first :: taken) { f with rest := left ++ β.mark :: β.after } := by
    unfold collect
    dsimp only
    rw [h.inArguments.1, h.rest, hcall]
  have hcollect' : collect first g = .ok (first :: taken) { g with rest := left } := by
    unfold collect
    dsimp only
    rw [h.inArguments.2, halone]
  rw [hcollect] at hf
  cases hf
  exact ⟨_, hcollect', rfl, hleft, Nat.le_trans hlength h.length, h.inArguments, h.past, h.scope,
    h.console⟩

end Border

end Hive
