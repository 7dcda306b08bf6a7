import Hive.Proofs.Entries
import Hive.Proofs.Evaluation

/-!
Disciplines that are about the lines of problems and about functions: on which lines a problem may
be reported, which functions a scope may hold, and which of them may be called by which name. They
demand nothing of values and allow every fault. Whether such a **policy** is kept comes down to what
the tokens are, since a problem is always reported on the line of a token at hand.
-/

namespace Hive

open Evaluator

/-- The functions of the scope are as demanded, each with the name that it is under. -/
def Scope.Functions (P : Json → Function → Prop) (s : Scope) : Prop :=
  ∀ x ∈ s.entries, ∀ f, x.2 = .func f → P x.1 f

/-- **A policy** on lines and functions. -/
structure Policy where
  token : Token → Prop
  follows : Token → Token → Prop
  /-- The lines on which problems may be reported. -/
  line : Int → Prop
  /-- The functions that the scope of an evaluation may hold. -/
  own : Json → Function → Prop
  /-- The functions that the scope of the program may hold. -/
  known : Json → Function → Prop
  /-- The names of the functions that may be called. -/
  called : Json → Prop
  exhausted : Prop

namespace Policy

variable (p : Policy)

def discipline : Discipline where
  token := p.token
  follows := p.follows
  place x := ∃ l, x = .int l ∧ p.line l
  value _ := True
  scope := Scope.Functions p.own
  callee f := ∃ k, p.called k ∧ p.known k f
  programs s t := t = s ∧ s.Functions p.known
  fault _ := True
  exhausted := p.exhausted
  cut := False

/-- **The policy lasts**: what is made under it is as it demands. -/
structure Lasting : Prop where
  line_of_token {t : Token} (ht : p.token t) : p.line t.line
  token_atEnd {l : Int} (hl : p.line l) : p.token (.atEnd l)
  token_toToken {t u : Token} {l : Literal} (ht : p.token t) (h : l.toToken t.line = .ok u) :
    p.token u
  own_define {f : Function} {closing : Token} {k : Json} (hf : p.discipline.Declares f closing)
    (hk : f.name.lexeme.key = .ok k) : p.own k f
  known_of_own {k : Json} {f : Function} (h : p.own k f) : p.known k f
  called_of_key {name : Token} {k : Json} (hcalled : p.discipline.Called name)
    (hk : name.lexeme.key = .ok k) : p.called k

variable {p} {α : Type}

/-! ### Lines -/

@[simp]
lemma line_iff {l : Int} : p.discipline.line l ↔ p.line l := by
  constructor
  · rintro ⟨m, hm, hl⟩
    rw [Json.int.inj hm]
    exact hl
  · intro hl
    exact ⟨l, rfl, hl⟩

lemma meets_of_ok {Q : α → Prop} {x : Except Fault α} (h : ∀ a, x = .ok a → Q a) :
    p.discipline.Meets Q x :=
  Discipline.meets_of_ok (fun _ => trivial) h

lemma checks_ofFault {Q : α → Prop} {x : Except Fault α} (h : ∀ a, x = .ok a → Q a) :
    p.discipline.Checks Q (Failure.ofFault x) :=
  Discipline.checks_ofFault (meets_of_ok h)

lemma operand (v : Value) : p.discipline.operand v := ⟨trivial, fun _ => trivial⟩

/-! ### Functions -/

lemma functions_empty {P : Json → Function → Prop} : Scope.empty.Functions P :=
  fun _ h => absurd h List.not_mem_nil

lemma functions_mono {P Q : Json → Function → Prop} {s : Scope} (h : s.Functions P)
    (hPQ : ∀ k f, P k f → Q k f) : s.Functions Q :=
  fun x hx f hf => hPQ x.1 f (h x hx f hf)

lemma functions_bind {P : Json → Function → Prop} {s t : Scope} {v : Variable}
    (hs : s.Functions P) (h : s.bind v = .ok t) : t.Functions P :=
  Scope.forall_put h hs fun _ _ _ hf => nomatch hf

section Lines

variable {s : Scope} {name : Token} {l : Int}

lemma checks_variableAt (hl : p.line name.line) :
    p.discipline.Checks (fun _ => True) (s.variableAt name) := by
  refine Discipline.checks_bind (checks_ofFault fun _ _ => trivial) fun found _ => ?_
  split
  · trivial
  · exact line_iff.2 hl

lemma checks_functionAt {P : Json → Function → Prop} (hs : s.Functions P) (hl : p.line name.line) :
    p.discipline.Checks (fun f => ∃ k, name.lexeme.key = .ok k ∧ P k f) (s.functionAt name) := by
  refine Discipline.checks_bind (checks_ofFault fun _ hfound => hfound) fun found hfound => ?_
  split
  · obtain ⟨k, hk, hmem⟩ := Scope.mem_of_find? hfound
    exact ⟨k, hk, hs _ hmem _ rfl⟩
  · exact line_iff.2 hl

lemma checks_ensureFree (hl : p.line name.line) :
    p.discipline.Checks (fun _ => True) (s.ensureFree name) := by
  refine Discipline.checks_bind (checks_ofFault fun _ _ => trivial) fun found _ => ?_
  split
  · exact line_iff.2 hl
  · trivial

lemma checks_fitVariable {type : TokenKind} {v : Value} (hl : p.line name.line) :
    p.discipline.Checks (fun _ => True) (Scope.fitVariable name type v) := by
  unfold Scope.fitVariable
  split
  · trivial
  · exact line_iff.2 hl
  · trivial

lemma checks_assign {v : Value} (hs : s.Functions p.own) (hl : p.line name.line) :
    p.discipline.Checks
      (fun x => p.discipline.value (some x.1) ∧ p.discipline.scope x.2) (s.assign name v) := by
  refine Discipline.checks_bind (checks_ofFault fun _ _ => trivial) fun found _ => ?_
  split
  · refine Discipline.checks_bind (checks_fitVariable hl) fun m _ => ?_
    exact Discipline.checks_bind
      (checks_ofFault fun t ht => Scope.forall_putAt ht hs fun _ _ _ hf => nomatch hf)
      fun _ ht => ⟨trivial, ht⟩
  · exact line_iff.2 hl

lemma checks_declare {type : TokenKind} {v : Value} (hs : s.Functions p.own)
    (hl : p.line name.line) :
    p.discipline.Checks
      (fun x => p.discipline.value x.1.value ∧ p.discipline.scope x.2) (s.declare name type v) := by
  refine Discipline.checks_bind (checks_ensureFree hl) fun _ _ => ?_
  refine Discipline.checks_bind (checks_fitVariable hl) fun m _ => ?_
  exact Discipline.checks_bind (checks_ofFault fun t ht => functions_bind hs ht)
    fun _ ht => ⟨trivial, ht⟩

lemma checks_define {f : Function} (hs : s.Functions p.own) (hl : p.line f.name.line)
    (hf : ∀ k, f.name.lexeme.key = .ok k → p.own k f) :
    p.discipline.Checks (Scope.Functions p.own) (s.define f) := by
  refine Discipline.checks_bind (checks_ensureFree hl) fun _ _ => checks_ofFault fun t ht => ?_
  refine Scope.forall_put ht hs fun k hk g hg => ?_
  rw [← Entry.func.inj hg]
  exact hf k hk

lemma checks_resolve {t : Token} (ht : p.line t.line) (hl : p.line l) :
    p.discipline.Checks p.discipline.operand (resolve s l (.token t)) := by
  have hliteral : p.discipline.Checks p.discipline.operand
      (Failure.ofFault ((Literal.ofToken t).map some)) := checks_ofFault fun v _ => operand v
  unfold resolve
  dsimp only
  split
  · exact Discipline.checks_bind (checks_variableAt ht) fun v _ => operand v.value
  · exact hliteral
  · exact hliteral
  · exact hliteral
  · exact line_iff.2 hl

lemma checks_joinTexts {a b : Value} (hl : p.line l) :
    p.discipline.Checks p.discipline.operand (joinTexts l a b) := by
  unfold joinTexts
  split
  · refine Discipline.checks_bind (checks_ofFault fun _ _ => trivial) fun printed _ => ?_
    split
    · exact operand _
    · trivial
  · exact line_iff.2 hl

lemma checks_numeric {v : Value} (hl : p.line l) :
    p.discipline.Checks (fun _ => True) (numeric l v) := by
  unfold numeric
  split
  · split
    · trivial
    · exact line_iff.2 hl
  · exact line_iff.2 hl

lemma checks_bindAll {pairs : List (Parameter × Value)} {own : Scope} (hown : own.Functions p.own)
    (hl : p.line l) :
    p.discipline.Checks (Scope.Functions p.own)
      (pairs.foldlM (Function.bindArguments.bindOne l) own) := by
  induction pairs generalizing own with
  | nil => exact hown
  | cons x pairs ih =>
    obtain ⟨q, v⟩ := x
    rw [List.foldlM_cons]
    refine Discipline.checks_bind (P := Scope.Functions p.own) ?_ fun t ht => ih ht
    unfold Function.bindArguments.bindOne
    dsimp only
    split
    · exact checks_ofFault fun t ht => functions_bind hown ht
    · exact line_iff.2 hl
    · trivial

lemma checks_bindArguments {f : Function} {arguments : List Value} (hl : p.line l) :
    p.discipline.Checks (Scope.Functions p.own) (f.bindArguments l arguments) := by
  unfold Function.bindArguments
  split
  · exact line_iff.2 hl
  · exact checks_bindAll functions_empty hl

end Lines

/-! ### Arithmetic -/

section Arithmetic

variable {output : List String} {l : Int}

lemma agree_note {level : Nat} {text : Except Fault String} :
    (Ground.quiet output).Agree (p.discipline.stop false) (fun _ => True) (note level text)
      (note level text) :=
  Discipline.agree_note (meets_of_ok fun _ _ => trivial)

lemma agree_orHalt {x : Except Fault α} :
    (Ground.quiet output).Agree (p.discipline.stop false) (fun _ => True) (orHalt x) (orHalt x) :=
  Discipline.agree_orHalt (meets_of_ok fun _ _ => trivial)

lemma agree_arithmetic {operator : ArithOp} {a b : Value} (hl : p.line l) :
    (Ground.quiet output).Agree (p.discipline.stop false) (fun _ => True)
      (arithmetic l operator a b) (arithmetic l operator a b) := by
  refine (Discipline.agree_orFail (checks_numeric hl)).bind fun left _ =>
    (Discipline.agree_orFail (checks_numeric hl)).bind fun right _ => ?_
  split
  · exact (Discipline.agree_ensure (line_iff.2 hl)).bind fun _ _ => agree_orHalt.bind
      fun (_, _) _ => agree_orHalt.bind fun _ _ => .pure trivial
  · refine agree_orHalt.bind fun (_, _) _ => agree_orHalt.bind fun exact _ =>
      agree_orHalt.bind fun result _ => Ground.Agree.bind (P := fun _ => True) ?_ fun _ _ =>
        .pure trivial
    unfold noteCut
    split
    · exact .pure trivial
    · exact agree_note

lemma agree_applyOperator {s : Scope} {op : Token} {operator : ArithOp} {a b : Item}
    (hop : p.line op.line)
    (ha : p.discipline.Checks p.discipline.operand (resolve s op.line a))
    (hb : p.discipline.Checks p.discipline.operand (resolve s op.line b)) :
    (Ground.quiet output).Agree (p.discipline.stop false) p.discipline.operand
      (applyOperator s op operator a b) (applyOperator s op operator a b) :=
  (Discipline.agree_orFail ha).bind fun _ _ => (Discipline.agree_orFail hb).bind fun _ _ =>
    (agree_arithmetic hop).bind fun result _ => agree_note.bind fun _ _ => .pure (operand result)

end Arithmetic

namespace Lasting

variable (h : p.Lasting)

include h

lemma checks_substitute {s : Scope} {t : Token} (ht : p.token t) :
    p.discipline.Checks p.token (substitute s t) := by
  unfold substitute
  split
  · refine Discipline.checks_bind (checks_variableAt (h.line_of_token ht)) fun v _ => ?_
    split
    · exact checks_ofFault fun u hu => h.token_toToken ht hu
    · trivial
  · exact ht

lemma checks_callee {s : Scope} (hs : s.Functions p.known) {name : Token} (hname : p.token name)
    (hcalled : p.discipline.Called name) :
    p.discipline.Checks p.discipline.callee (s.functionAt name) := by
  have hfound := checks_functionAt hs (h.line_of_token hname)
  cases hr : s.functionAt name with
  | error f =>
    rw [hr] at hfound
    exact hfound
  | ok f =>
    rw [hr] at hfound
    obtain ⟨k, hk, hf⟩ := hfound
    exact ⟨k, h.called_of_key hcalled hk, hf⟩

/-- **The discipline of a policy that lasts is kept.** -/
theorem kept : p.discipline.Kept where
  line_of_token ht := line_iff.2 (h.line_of_token ht)
  token_atEnd hl := h.token_atEnd (line_iff.1 hl)
  value_nil := trivial
  value_bool _ := trivial
  value_ofToken _ _ := trivial
  text _ := meets_of_ok fun _ _ => trivial
  key _ := meets_of_ok fun _ _ => trivial
  lexeme _ := .inr trivial
  substitute _ ht := h.checks_substitute ht
  resolve _ ht hl := checks_resolve (h.line_of_token ht) (line_iff.1 hl)
  applyOperator {s op operator a b} _ hop ha hb c := by
    have hline := h.line_of_token hop
    have hresolve : ∀ t, p.token t →
        p.discipline.Checks p.discipline.operand (resolve s op.line (.token t)) :=
      fun t ht => checks_resolve (h.line_of_token ht) hline
    exact Discipline.outcome_of_agree (fun _ => agree_applyOperator hline
      (Discipline.checks_resolve_of_token hresolve ha)
      (Discipline.checks_resolve_of_token hresolve hb)) c
  joinTexts hl _ _ := checks_joinTexts (line_iff.1 hl)
  assign hs hname _ := checks_assign hs (h.line_of_token hname)
  declare hs hname _ _ _ := checks_declare hs (h.line_of_token hname)
  define hs hf := checks_define hs (h.line_of_token hf.name) fun k hk => h.own_define hf hk
  erase hs _ _ := meets_of_ok fun _ ht => Scope.forall_erase ht hs
  callee_own hs hname hcalled :=
    h.checks_callee (functions_mono hs fun _ _ => h.known_of_own) hname hcalled
  callee_program hp hname hcalled := h.checks_callee hp.2 hname hcalled
  functionAt_eq hp _ := by rw [hp.1]
  bindArguments _ _ hl := checks_bindArguments (line_iff.1 hl)

/-- The scope of a program is looked up as the own one at the top. -/
lemma programs_self (s : Scope) (hs : p.discipline.scope s) : p.discipline.programs s s :=
  ⟨rfl, functions_mono hs fun _ _ => h.known_of_own⟩

end Lasting

/-! ### Where no function can be declared -/

/-- The policy for tokens without one of the braces, so that no function can be declared. Functions
are called by the names that come right after `run`. -/
def undeclaring (brace : TokenKind) (own known : Json → Function → Prop) (called : Json → Prop)
    (exhausted : Prop) : Policy where
  token t := t.kind ≠ brace
  follows t u := t.kind = .keyword .runWord → u.kind = .identifier →
    ∀ k, u.lexeme.key = .ok k → called k
  line _ := True
  own := own
  known := known
  called := called
  exhausted := exhausted

section Undeclaring

variable {brace : TokenKind} {own known : Json → Function → Prop} {called : Json → Prop}
  {exhausted : Prop}

lemma undeclaring_lasting (hbrace : brace = .leftBrace ∨ brace = .rightBrace)
    (hown : ∀ k f, own k f → known k f) :
    (undeclaring brace own known called exhausted).Lasting where
  line_of_token _ := trivial
  token_atEnd _ := by
    rcases hbrace with rfl | rfl <;> exact nofun
  token_toToken _ h := by
    obtain ⟨text, -, h⟩ := ok_of_bind h
    rw [← Except.ok.inj h]
    rcases hbrace with rfl | rfl <;> exact nofun
  own_define hf _ := by
    obtain ⟨opening, hopening, hkind⟩ := hf.opening
    rcases hbrace with rfl | rfl
    · exact absurd hkind hopening
    · exact absurd hf.isBrace hf.brace
  known_of_own := hown _ _
  called_of_key hcalled hk := by
    obtain ⟨t, ht, hfollows⟩ := hcalled.follows
    exact hfollows ht hcalled.isIdentifier _ hk

/-- Tokens without the brace run the names that come right after `run`. -/
lemma undeclaring_stream {tokens : List Token} (htokens : ∀ t ∈ tokens, t.kind ≠ brace)
    (hcalled : ∀ run name : Token, [run, name] <:+: tokens → run.kind = .keyword .runWord →
      name.kind = .identifier → ∀ k, name.lexeme.key = .ok k → called k) :
    (undeclaring brace own known called exhausted).discipline.Stream tokens :=
  Discipline.stream_of_chain htokens ((List.isChain_isInfix tokens).imp hcalled)
    fun _ _ _ hid => nomatch hid

end Undeclaring

end Policy

end Hive
