import Hive.Proofs.Entries
import Hive.Proofs.Nesting

/-!
Groups that are not closed. In tokens with an opening parenthesis that no closing one follows, the
first such parenthesis is reported, on its line, once the groups that are closed before it have come
to their values. A group that is closed never brings up this report, and neither does a step of
arithmetic. Main statement: the report is made exactly there, unless the parenthesis is the only
token; then it is taken for an operand and refused as one.
-/

namespace Hive

open Evaluator

/-! ### What is reported -/

def Failure.IsUnclosed : Failure → Prop
  | .error d => d.problem = .unterminatedParenthesis
  | .fault _ => False

/-- The result is the diagnostic, which reports a group that is not closed. -/
def ReportsUnclosed {σ α : Type} (d : Diagnostic) (r : EStateM.Result Stop σ α) : Prop :=
  d.problem = .unterminatedParenthesis ∧ ∃ last, r = .error (.failure (.error d)) last

/-- A computation that never reports a group that is not closed. -/
def Groupless {α : Type} (m : ConsoleM α) : Prop :=
  ∀ c f last, m c = .error (.failure f) last → ¬f.IsUnclosed

namespace Groupless

variable {α β : Type}

lemma pure (a : α) : Groupless (pure a) := by
  intro c f last h
  cases h

lemma throw {f : Failure} (hf : ¬f.IsUnclosed) : Groupless (throw (.failure f) : ConsoleM α) := by
  intro c f last h
  cases h
  exact hf

lemma bind {m : ConsoleM α} {k : α → ConsoleM β} (hm : Groupless m) (hk : ∀ a, Groupless (k a)) :
    Groupless (m >>= k) := by
  intro c f last h
  rcases bind_eq_error h with h | ⟨a, d, -, h⟩
  · exact hm c f last h
  · exact hk a d f last h

lemma orFail {x : Except Failure α} (hx : ∀ f, x = .error f → ¬f.IsUnclosed) :
    Groupless (orFail x) := by
  cases x with
  | ok a => exact pure a
  | error f => exact throw (hx f rfl)

lemma orHalt (x : Except Fault α) : Groupless (orHalt x) := by
  cases x with
  | ok a => exact pure a
  | error f => exact throw not_false

lemma note (level : Nat) (text : Except Fault String) : Groupless (note level text) := by
  refine (orHalt text).bind fun s => ?_
  intro c f last h
  cases h

lemma not_isUnclosed_of_resolve {own : Scope} {line : Int} {i : Item} {f : Failure}
    (h : resolve own line i = .error f) : ¬f.IsUnclosed := by
  have hliteral {x : Except Fault Value} (hx : Failure.ofFault x = .error f) : ¬f.IsUnclosed := by
    cases x with
    | ok v => cases hx
    | error e => cases hx; exact not_false
  cases i with
  | value v =>
    cases v with
    | some l => cases h
    | none => cases h; exact not_false
  | token t =>
    unfold resolve at h
    dsimp only at h
    split at h
    · rcases error_of_bind h with h | ⟨v, -, h⟩
      · unfold Scope.variableAt at h
        rcases error_of_bind h with h | ⟨e, -, h⟩
        · cases hfind : own.find? t.lexeme with
          | ok e => rw [hfind] at h; cases h
          | error e => rw [hfind] at h; cases h; exact not_false
        · split at h
          · cases h
          · cases h; exact nofun
      · cases h
    · exact hliteral h
    · exact hliteral h
    · exact hliteral h
    · cases h; exact nofun

lemma not_isUnclosed_of_numeric {line : Int} {v : Value} {f : Failure}
    (h : numeric line v = .error f) : ¬f.IsUnclosed := by
  unfold numeric at h
  split at h
  · split at h
    · cases h
    · cases h; exact nofun
  · cases h; exact nofun

lemma divide (line : Int) (left right : Literal) : Groupless (divide line left right) := by
  have hensure (p : Prop) [Decidable p] : Groupless (ensure p line .divisionByZero) := by
    unfold ensure
    split
    · exact pure ()
    · exact throw nofun
  exact (hensure _).bind fun _ => (orHalt _).bind fun (_, _) => (orHalt _).bind fun _ => pure _

lemma noteCut (line : Int) (exact : Number) (result : Literal) :
    Groupless (noteCut line exact result) := by
  unfold Evaluator.noteCut
  split
  · exact pure ()
  · exact note _ _

lemma arithmetic (line : Int) (operator : ArithOp) (left right : Value) :
    Groupless (arithmetic line operator left right) := by
  unfold Evaluator.arithmetic
  refine (orFail fun _ => not_isUnclosed_of_numeric).bind fun l =>
    (orFail fun _ => not_isUnclosed_of_numeric).bind fun r => ?_
  split
  · exact divide line l r
  · exact (orHalt _).bind fun (a, b) => (orHalt _).bind fun n => (orHalt _).bind fun result =>
      (noteCut line n result).bind fun _ => pure _

lemma applyOperator (own : Scope) (op : Token) (operator : ArithOp) (left right : Item) :
    Groupless (applyOperator own op operator left right) :=
  (orFail fun _ => not_isUnclosed_of_resolve).bind fun _ =>
    (orFail fun _ => not_isUnclosed_of_resolve).bind fun _ =>
      (arithmetic _ _ _ _).bind fun _ => (note _ _).bind fun _ => pure _

lemma finish (own : Scope) (line : Int) (items : List Item) :
    Groupless (Evaluator.orFail (finish own line items)) := by
  refine orFail fun f h => ?_
  cases items with
  | nil => cases h; exact not_false
  | cons i more =>
    rw [Evaluator.finish] at h
    split at h
    · exact not_isUnclosed_of_resolve h
    · cases h
      intro hproblem
      cases hproblem

end Groupless

/-! ### The first parenthesis that is not closed -/

/-- The first opening parenthesis that no closing one follows, and the tokens before it. -/
structure FirstUnclosed (tokens before : List Token) (opening : Token) : Prop where
  opens : opening.kind = .leftParen
  split : ∃ after, tokens = before ++ opening :: after ∧ ∀ t ∈ after, t.kind ≠ .rightParen
  closed : ∀ early u late, before = early ++ u :: late → u.kind = .leftParen →
    ∃ t ∈ late, t.kind = .rightParen

namespace Nesting

/-- The groups of the items are closed, and all of them come to values. -/
def Reduces (own : Scope) (items : List Item) : Prop := (scan own [] [] items).isSome

/-- The opening parenthesis is the first among the items that is not closed, and the groups before
it come to values. -/
def Unclosed (own : Scope) (items : List Item) (opening : Token) : Prop :=
  ∃ before after, items = before ++ .token opening :: after ∧ opening.kind = .leftParen ∧
    Clear (· == .rightParen) after ∧ Reduces own before

section Unclosed

variable {own : Scope} {items before inner after : List Item} {opening closing p : Token}

lemma reduces_of_clear (h : Clear isOpening items) : Reduces own items := by
  have hscan : scan own [] [] (items ++ []) = scan own ([] ++ items) [] [] := scan_append h
  unfold Reduces
  rw [List.append_nil, List.nil_append] at hscan
  rw [hscan]
  rfl

/-- A scan that meets a parenthesis that is not closed comes to nothing. -/
lemma scan_opening (hopening : opening.kind = .leftParen) (hafter : Clear (· == .rightParen) after)
    (current : List Item) (around : List (List Item)) :
    scan own current around (before ++ .token opening :: after) = none := by
  induction before generalizing current around with
  | nil =>
    have hopen : (Item.token opening).isKind isOpening = true := by simp [hopening]
    rw [List.nil_append, scan, if_pos hopen]
    exact scan_of_unclosed (List.cons_ne_nil _ _) hafter
  | cons i before ih =>
    rw [List.cons_append, scan]
    split
    · exact ih _ _
    split
    · cases closeAll own current around with
      | none => rfl
      | some bottom => exact ih _ _
    · exact ih _ _

/-- **A group takes its value along**: what follows is read as if the value had been in its place. -/
lemma scan_closed (hbefore : Clear isOpening before) (hopening : opening.kind = .leftParen)
    (hinner : Clear (· == .rightParen) inner) (hclosing : closing.kind = .rightParen) :
    scan own [] [] (before ++ .token opening :: (inner ++ .token closing :: after)) =
      (value own (inner ++ [.token closing])).bind fun v =>
        scan own [] [] (before ++ .value v :: after) := by
  have hvalue (v : Value) : scan own [] [] (before ++ .value v :: after) =
      scan own (before ++ [.value v]) [] after := by
    rw [scan_append hbefore]
    simp [scan, Item.isKind, isClosing]
  have hopen : (Item.token opening).isKind isOpening = true := by simp [hopening]
  rw [scan_append hbefore, List.nil_append, scan, if_pos hopen, ← List.nil_append [before],
    scan_group hinner hclosing]
  simp only [hvalue]
  rfl

lemma exists_closing_of_reduces (h : Reduces own (before ++ .token opening :: after))
    (hopening : opening.kind = .leftParen) : ¬Clear (· == .rightParen) after := by
  intro hafter
  unfold Reduces at h
  rw [scan_opening hopening hafter] at h
  cases h

/-- A closing parenthesis that comes last is after all opening ones. -/
lemma not_clear_of_closing (hclosing : closing.kind = .rightParen) (hp : p.kind = .leftParen)
    (h : inner ++ [.token closing] = before ++ .token p :: after) :
    ¬Clear (· == .rightParen) after := by
  intro hafter
  rcases after.eq_nil_or_concat' with rfl | ⟨after, i, rfl⟩
  · cases (List.append_inj' h rfl).2
    rw [hclosing] at hp
    cases hp
  · rw [← List.cons_append, ← List.append_assoc] at h
    cases (List.append_inj' h rfl).2
    simp [hclosing] at hafter

/-- Where a closing parenthesis comes last, none is left open. -/
lemma not_unclosed_closing (hclosing : closing.kind = .rightParen) :
    ¬Unclosed own (inner ++ [.token closing]) p := by
  rintro ⟨before, after, hitems, hp, hafter, -⟩
  exact not_clear_of_closing hclosing hp hitems hafter

lemma not_clear_of_opening (hp : p.kind = .leftParen) :
    ¬Clear isOpening (before ++ .token p :: after) := by
  intro hclear
  have hopen : isOpening p.kind = false := (clear_cons.1 (clear_append.1 hclear).2).1
  simp [hp] at hopen

lemma not_unclosed_of_clear (h : Clear isOpening items) : ¬Unclosed own items p := by
  rintro ⟨before, after, rfl, hp, -, -⟩
  exact not_clear_of_opening hp h

/-- An item that cannot be among the first ones comes after them. -/
lemma exists_of_append_eq {i : Item} {early late : List Item}
    (h : before ++ after = early ++ i :: late)
    (hbefore : ∀ l m, before = l ++ i :: m → late ≠ m ++ after) :
    ∃ between, early = before ++ between ∧ after = between ++ i :: late := by
  rcases List.append_eq_append_iff.1 h with ⟨between, hearly, hafter⟩ | ⟨l, hsplit, hlate⟩
  · exact ⟨between, hearly, hafter⟩
  · cases l with
    | nil => exact ⟨[], by simpa using hsplit.symm, by simpa using hlate.symm⟩
    | cons j m =>
      obtain ⟨rfl, hm⟩ := List.cons.inj hlate
      exact absurd hm (hbefore early m hsplit)

/-- **The parenthesis that is left open stays the same** when the first group takes its value. -/
lemma unclosed_group (hbefore : Clear isOpening before) (hopening : opening.kind = .leftParen)
    (hinner : Clear (· == .rightParen) inner) (hclosing : closing.kind = .rightParen) :
    Unclosed own (before ++ .token opening :: (inner ++ .token closing :: after)) p ↔
      ∃ v, value own (inner ++ [.token closing]) = some v ∧
        Unclosed own (before ++ .value v :: after) p := by
  have hgroup (l : List Item) : before ++ .token opening :: (inner ++ .token closing :: l) =
      (before ++ .token opening :: (inner ++ [.token closing])) ++ l := by simp
  have hvalue (v : Value) (l : List Item) :
      before ++ .value v :: l = (before ++ [.value v]) ++ l := by simp
  constructor
  · rintro ⟨early, late, hitems, hp, hlate, hreduces⟩
    rw [hgroup] at hitems
    -- the closing parenthesis of the group is none of those after the one that is left open
    obtain ⟨between, rfl, rfl⟩ := exists_of_append_eq hitems fun l m hsplit hm => by
      rw [← List.cons_append, ← List.append_assoc] at hsplit
      rw [hm] at hlate
      exact not_clear_of_closing hclosing hp hsplit (clear_append.1 hlate).1
    rw [← hgroup] at hreduces
    unfold Reduces at hreduces
    rw [scan_closed hbefore hopening hinner hclosing] at hreduces
    cases hv : value own (inner ++ [.token closing]) with
    | none => rw [hv] at hreduces; cases hreduces
    | some v =>
      rw [hv] at hreduces
      refine ⟨v, rfl, before ++ .value v :: between, late, ?_, hp, hlate, hreduces⟩
      simp
  · rintro ⟨v, hv, early, late, hitems, hp, hlate, hreduces⟩
    rw [hvalue] at hitems
    -- before the value nothing is open, so what is left open is after it
    obtain ⟨between, rfl, rfl⟩ := exists_of_append_eq hitems fun l m hsplit _ => by
      have hclear : Clear isOpening (before ++ [.value v]) :=
        clear_append.2 ⟨hbefore, clear_cons.2 ⟨rfl, clear_nil⟩⟩
      rw [hsplit] at hclear
      exact not_clear_of_opening hp hclear
    refine ⟨before ++ .token opening :: (inner ++ .token closing :: between), late, by simp, hp,
      hlate, ?_⟩
    unfold Reduces
    rw [scan_closed hbefore hopening hinner hclosing, hv, Option.bind_some, hvalue]
    exact hreduces

/-- Where nothing is closed after the first opening parenthesis, it is the one that is left open. -/
lemma eq_of_unclosed (hbefore : Clear isOpening before) (hopening : opening.kind = .leftParen)
    (hafter : Clear (· == .rightParen) after)
    (h : Unclosed own (before ++ .token opening :: after) p) : p = opening := by
  obtain ⟨early, late, hitems, hp, -, hreduces⟩ := h
  obtain ⟨between, rfl, hsplit⟩ := exists_of_append_eq hitems fun l m hsplit _ => by
    rw [hsplit] at hbefore
    exact not_clear_of_opening hp hbefore
  cases between with
  | nil =>
    cases hsplit
    rfl
  | cons i m =>
    obtain ⟨rfl, rfl⟩ := List.cons.inj hsplit
    exact absurd (clear_append.1 hafter).1 (exists_closing_of_reduces hreduces hopening)

/-! ### The report -/

lemma reduction_of_unclosed (hbefore : Clear isOpening before)
    (hopening : opening.kind = .leftParen) (hafter : Clear (· == .rightParen) after)
    (hlen : 1 < (before ++ .token opening :: after).length) :
    reduction (before ++ .token opening :: after) = .unclosed opening := by
  have hopen : isOpening opening.kind = true := by simp [hopening]
  unfold reduction
  rw [if_neg (Nat.not_le.2 hlen), splitFirst?_append hbefore hopen]
  dsimp only
  rw [splitFirst?_of_clear hafter]

lemma length_of_unclosed {v : Value} (h : Unclosed own (before ++ .value v :: after) p) :
    1 < (before ++ .value v :: after).length := by
  obtain ⟨early, late, hitems, -⟩ := h
  have hmem : Item.token p ∈ before ++ .value v :: after := by simp [hitems]
  rw [List.length_append, List.length_cons]
  rcases List.mem_append.1 hmem with hmem | hmem
  · have := List.length_pos_of_mem hmem
    omega
  · rcases List.mem_cons.1 hmem with heq | hmem
    · cases heq
    · have := List.length_pos_of_mem hmem
      omega

/-- **The parenthesis that is left open is reported.** -/
lemma operate_of_unclosed (groupLine line : Int) (c : Console) (h : Unclosed own items p)
    (hlen : 1 < items.length) :
    ∃ last, operate own groupLine line items c =
      .error (.failure (.error (.on p.line .unterminatedParenthesis))) last := by
  induction hn : items.length using Nat.strong_induction_on generalizing items c with
  | h n ih =>
  subst hn
  rcases clear_or_split isOpening items with
    hclear | ⟨before, opening, rest, rfl, hbefore, hopening⟩
  · exact absurd h (not_unclosed_of_clear hclear)
  have hopen := eq_of_beq hopening
  rcases clear_or_split (· == .rightParen) rest with
    hclear | ⟨inner, closing, after, rfl, hinner, hclosing⟩
  · obtain rfl := eq_of_unclosed hbefore hopen hclear h
    rw [operate_eq, reduction_of_unclosed hbefore hopen hclear hlen]
    exact ⟨c, rfl⟩
  · -- the first group comes to its value, and the parenthesis is left open beside it
    have hclose := eq_of_beq hclosing
    obtain ⟨v, hv, hp⟩ := (unclosed_group hbefore hopen hinner hclose).1 h
    obtain ⟨d, hd⟩ :=
      ((settles_operate own groupLine groupLine (inner ++ [.token closing]) c).1 v).2 hv
    rw [operate_eq, reduction_of_group hbefore hopen hinner hclose]
    dsimp only
    rw [bind_of_ok hd]
    refine ih _ ?_ d hp (length_of_unclosed hp) rfl
    simp only [List.length_append, List.length_cons]
    omega

/-- Items without groups report none that is not closed. -/
lemma groupless_operate (groupLine line : Int) (h : Clear isOpening items) :
    Groupless (operate own groupLine line items) := by
  induction hn : items.length using Nat.strong_induction_on generalizing items with
  | h n ih =>
  subst hn
  rw [operate_eq]
  rcases reduction_of_clear_opening h with hnothing | ⟨earlier, op, later, hop⟩
  · rw [hnothing]
    exact Groupless.finish own line items
  unfold reduceOperator at hop
  split at hop
  · -- the value of the operator takes the place of its items
    obtain rfl := fits_of_reduction hop
    rw [hop]
    obtain ⟨hbefore, hothers⟩ := clear_append.1 h
    obtain ⟨-, hothers⟩ := clear_cons.1 hothers
    obtain ⟨-, hothers⟩ := clear_cons.1 hothers
    refine (Groupless.applyOperator _ _ _ _ _).bind fun v => ih _ ?_ ?_ rfl
    · simp only [List.length_append, List.length_cons]
      omega
    · exact clear_append.2 ⟨hbefore, clear_cons.2 ⟨rfl, (clear_cons.1 hothers).2⟩⟩
  · rw [hop]
    exact Groupless.throw nofun

/-- **Nothing else is reported as a group that is not closed.** -/
lemma unclosed_of_operate (groupLine line : Int) {c last : Console} {d : Diagnostic}
    (hd : d.problem = .unterminatedParenthesis)
    (h : operate own groupLine line items c = .error (.failure (.error d)) last) :
    1 < items.length ∧ ∃ p, Unclosed own items p ∧ d = .on p.line .unterminatedParenthesis := by
  induction hn : items.length using Nat.strong_induction_on generalizing items c line with
  | h n ih =>
  subst hn
  rcases clear_or_split isOpening items with
    hclear | ⟨before, opening, rest, rfl, hbefore, hopening⟩
  · exact absurd hd (groupless_operate groupLine line hclear c _ last h)
  have hopen := eq_of_beq hopening
  rcases clear_or_split (· == .rightParen) rest with
    hclear | ⟨inner, closing, after, rfl, hinner, hclosing⟩
  · by_cases hlen : 1 < (before ++ .token opening :: rest).length
    · rw [operate_eq, reduction_of_unclosed hbefore hopen hclear hlen] at h
      cases h
      exact ⟨hlen, opening, ⟨before, rest, rfl, hopen, hclear, reduces_of_clear hbefore⟩, rfl⟩
    · have hnothing : reduction (before ++ .token opening :: rest) = .nothing := by
        unfold reduction
        rw [if_pos (Nat.not_lt.1 hlen)]
      rw [operate_eq, hnothing] at h
      exact absurd hd (Groupless.finish own line _ c _ last h)
  · have hclose := eq_of_beq hclosing
    rw [operate_eq, reduction_of_group hbefore hopen hinner hclose] at h
    -- the report is not from inside the group, which is closed, so it is from what is beside it
    rcases bind_eq_error h with h | ⟨v, d', hv, h⟩
    · obtain ⟨-, p, hp, -⟩ := ih _ (by
        simp only [List.length_append, List.length_cons, List.length_nil]
        omega) groupLine h rfl
      exact absurd hp (not_unclosed_closing hclose)
    · obtain ⟨-, p, hp, hpd⟩ := ih _ (by
        simp only [List.length_append, List.length_cons]
        omega) line h rfl
      have hvalue := ((settles_operate own groupLine groupLine _ c).1 v).1 ⟨d', hv⟩
      refine ⟨by simp only [List.length_append, List.length_cons]; omega, p, ?_, hpd⟩
      exact (unclosed_group hbefore hopen hinner hclose).2 ⟨v, hvalue, hp⟩

end Unclosed

/-- The report in terms of the tokens. -/
lemma unclosed_tokens (own : Scope) (tokens : List Token) (p : Token) :
    Unclosed own (tokens.map .token) p ↔
      ∃ before, FirstUnclosed tokens before p ∧ Reduces own (before.map .token) := by
  constructor
  · rintro ⟨before, after, hitems, hp, hafter, hreduces⟩
    obtain ⟨early, rest, rfl, rfl, hrest⟩ := List.map_eq_append_iff.1 hitems
    obtain ⟨q, late, rfl, hq, rfl⟩ := List.map_eq_cons_iff.1 hrest
    cases hq
    refine ⟨early, ⟨hp, ⟨late, rfl, ?_⟩, ?_⟩, hreduces⟩
    · intro t ht hclosing
      have hclear := hafter (.token t) (List.mem_map_of_mem ht)
      simp [hclosing] at hclear
    · rintro first u others rfl hu
      rw [List.map_append, List.map_cons] at hreduces
      by_contra hnone
      refine exists_closing_of_reduces hreduces hu fun i hi => ?_
      obtain ⟨t, ht, rfl⟩ := List.mem_map.1 hi
      have hkind : t.kind ≠ .rightParen := fun hclosing => hnone ⟨t, ht, hclosing⟩
      simpa using hkind
  · rintro ⟨before, ⟨hp, ⟨after, rfl, hafter⟩, -⟩, hreduces⟩
    refine ⟨before.map .token, after.map .token, by simp, hp, fun i hi => ?_, hreduces⟩
    obtain ⟨t, ht, rfl⟩ := List.mem_map.1 hi
    simpa using hafter t ht

/-- **The report of a group that is not closed**, exactly. -/
lemma reportsUnclosed_operate (own : Scope) (groupLine line : Int) (tokens : List Token)
    (c : Console) (d : Diagnostic) :
    ReportsUnclosed d (operate own groupLine line (tokens.map .token) c) ↔
      tokens.length ≠ 1 ∧ ∃ before p, FirstUnclosed tokens before p ∧
        Reduces own (before.map .token) ∧ d = .on p.line .unterminatedParenthesis := by
  constructor
  · rintro ⟨hd, last, h⟩
    obtain ⟨hlen, p, hp, hpd⟩ := unclosed_of_operate groupLine line hd h
    obtain ⟨before, hfirst, hreduces⟩ := (unclosed_tokens own tokens p).1 hp
    rw [List.length_map] at hlen
    exact ⟨by omega, before, p, hfirst, hreduces, hpd⟩
  · rintro ⟨hlen, before, p, hfirst, hreduces, rfl⟩
    have hp := (unclosed_tokens own tokens p).2 ⟨before, hfirst, hreduces⟩
    obtain ⟨after, rfl, -⟩ := hfirst.split
    refine ⟨rfl, operate_of_unclosed groupLine line c hp ?_⟩
    simp only [List.length_append, List.length_cons, List.length_map] at hlen ⊢
    omega

end Nesting

lemma ReportsUnclosed.onState {σ τ α : Type} {d : Diagnostic} {r : EStateM.Result Stop σ α}
    (g : σ → τ) : ReportsUnclosed d (Hive.onState g r) ↔ ReportsUnclosed d r := by
  refine and_congr_right fun _ => ?_
  cases r with
  | ok a s => exact ⟨nofun, nofun⟩
  | error e s => simp [Hive.onState]

/-- **Groups that are not closed.** Whatever the tokens, the scope and the console are, working out
the tokens reports a group that is not closed exactly if there is an opening parenthesis that no
closing one follows, the groups closed before the first such one come to values, and it is not the
only token; the report is on its line. So does the operation in every frame, on the tokens that it
collects. A group that is closed never makes the report. A parenthesis that is the only token is
refused as an operand instead. -/
theorem operation_unclosed (own : Scope) (groupLine line : Int) (buffer : List Token) (c : Console)
    (first : Token) (frame : Frame) :
    (∀ d, ReportsUnclosed d (operate own groupLine line (buffer.map .token) c) ↔
      buffer.length ≠ 1 ∧ ∃ before opening, FirstUnclosed buffer before opening ∧
        Nesting.Reduces own (before.map .token) ∧
        d = .on opening.line .unterminatedParenthesis) ∧
    (∃ others last, collect first frame = .ok (first :: others) last ∧
      ∀ d, ReportsUnclosed d (operation first frame) ↔
        others ≠ [] ∧ ∃ before opening, FirstUnclosed (first :: others) before opening ∧
          Nesting.Reduces frame.scope (before.map .token) ∧
          d = .on opening.line .unterminatedParenthesis) ∧
    (∀ inner closing, closing.kind = .rightParen →
      ∀ d, ¬ReportsUnclosed d (operate own groupLine line (inner ++ [.token closing]) c)) ∧
    (∀ opening, opening.kind = .leftParen →
      operate own groupLine line [.token opening] c =
        .error (.failure (.error (.on line (.unsupportedOperationType
          (if opening.lexeme.truth then opening.lexeme else .str opening.kind.label))))) c) := by
  refine ⟨Nesting.reportsUnclosed_operate own groupLine line buffer c, ?_, ?_, ?_⟩
  · obtain ⟨others, rest, groupLine', hcollect, hoperation⟩ := operation_of_collect first frame
    refine ⟨others, _, hcollect, fun d => ?_⟩
    rw [hoperation, onConsole_eq, ReportsUnclosed.onState, Nesting.reportsUnclosed_operate]
    simp
  · rintro inner closing hclosing d ⟨hd, last, h⟩
    obtain ⟨-, p, hp, -⟩ := Nesting.unclosed_of_operate groupLine line hd h
    exact Nesting.not_unclosed_closing hclosing hp
  · rintro ⟨kind, lexeme, literal, place⟩ hopening
    obtain rfl : kind = .leftParen := hopening
    rw [operate_eq]
    rfl

/-- In `(;` the parenthesis is the first that no closing one follows, and no group comes before it;
but it is reported as an operand of the wrong type. -/
theorem operation_unclosed_alone :
    let opening : Token := ⟨.leftParen, .str "(", .null, 1⟩
    let frame := frameOf [⟨.semicolon, .str ";", .null, 1⟩] .empty .empty
    FirstUnclosed [opening] [] opening ∧ Nesting.Reduces .empty [] ∧
      collect opening frame = .ok [opening] frame ∧
      operation opening frame =
        .error (.failure (.error (.on 1 (.unsupportedOperationType (.str "("))))) frame := by
  intro opening frame
  refine ⟨⟨rfl, ⟨[], rfl, nofun⟩, fun early u late h => ?_⟩, rfl, rfl, ?_⟩
  · simp at h
  · show onConsole (operate .empty 1 1 [.token opening]) frame = _
    rw [onConsole_eq, operate_eq]
    rfl

end Hive
