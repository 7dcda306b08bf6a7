import Hive.Proofs.Entries
import Hive.Proofs.Evaluation

/-!
Disciplines that are about tokens, values and the entries of scopes, each on its own, and that allow
every failure. Whether such a discipline is kept comes down to a few facts: on how values are made,
and on how they get into entries.
-/

namespace Hive

open Evaluator

/-- **Demands** on tokens, on values and on the entries of scopes. -/
structure Demands where
  token : Token → Prop
  value : Value → Prop
  entry : Entry → Prop

namespace Demands

variable (d : Demands)

/-- The entries of a scope are as demanded, and each is under the key of its name. -/
def scope (s : Scope) : Prop := ∀ x ∈ s.entries, x.2.name.lexeme.key = .ok x.1 ∧ d.entry x.2

def discipline : Discipline where
  token := d.token
  place _ := True
  value := d.value
  scope := d.scope
  callee f := d.entry (.func f)
  programs p q := q = p ∧ d.scope p
  fault _ := True
  exhausted := True
  cut := False

/-- **The demands last**: what is made from tokens, values and entries that are as demanded is so
itself. -/
structure Lasting : Prop where
  token_atEnd (l : Int) : d.token (.atEnd l)
  token_toToken {l : Literal} {line : Int} {t : Token} (hl : d.value (some l))
    (h : l.toToken line = .ok t) : d.token t
  value_nil : d.value none
  value_bool (b : Bool) : d.value (some (.bool b))
  value_flt (x : Binary64) : d.value (some (.flt x))
  value_str (s : String) : d.value (some (.str s))
  value_ofToken {t : Token} {l : Literal} (ht : d.token t) (h : Literal.ofToken t = .ok l) :
    d.value (some l)
  value_applyOperator {s : Scope} {op : Token} {operator : ArithOp} {a b : Item} {v : Value}
    {c c' : Console} (h : applyOperator s op operator a b c = .ok v c') : d.value v
  value_of_entry {v : Variable} (h : d.entry (.var v)) : d.value v.value
  entry_declare {name : Token} {type : TokenKind} {l : Literal} (hname : d.token name)
    (hid : name.kind = .identifier) (hl : d.value (some l)) : d.entry (.var ⟨name, some l, type⟩)
  entry_assign {v : Variable} {l : Literal} (hv : d.entry (.var v)) (hl : d.value (some l)) :
    d.entry (.var { v with value := some l })
  entry_define {f : Function} {closing : Token} (hf : d.discipline.Declares f closing) :
    d.entry (.func f)
  entry_bind {f : Function} {p : Parameter} {l : Literal} (hf : d.entry (.func f))
    (hp : p ∈ f.parameters) (hl : d.value (some l)) : d.entry (.var ⟨p.name, some l, p.type⟩)
  body {f : Function} (hf : d.entry (.func f)) : ∀ t ∈ f.body, d.token t

variable {d} {α : Type}

lemma scope_empty : d.scope .empty := fun _ h => absurd h List.not_mem_nil

lemma lenient : d.discipline.Lenient := ⟨fun _ => trivial, fun _ => trivial⟩

/-! ### Finding entries -/

lemma checks_find? {s : Scope} (hs : d.scope s) (name : Json) :
    d.discipline.Checks (fun e => ∀ x ∈ e, d.entry x) (Failure.ofFault (s.find? name)) := by
  refine Discipline.checks_ofFault (lenient.meets fun e he x hx => ?_)
  obtain rfl := Option.mem_def.1 hx
  obtain ⟨k, -, hmem⟩ := Scope.mem_of_find? he
  exact (hs _ hmem).2

lemma checks_variableAt {s : Scope} (hs : d.scope s) (name : Token) :
    d.discipline.Checks (fun v => d.entry (.var v)) (s.variableAt name) := by
  refine Discipline.checks_bind (checks_find? hs name.lexeme) fun e he => ?_
  split
  · exact he _ rfl
  · trivial

lemma checks_functionAt {s : Scope} (hs : d.scope s) (name : Token) :
    d.discipline.Checks (fun f => d.entry (.func f)) (s.functionAt name) := by
  refine Discipline.checks_bind (checks_find? hs name.lexeme) fun e he => ?_
  split
  · exact he _ rfl
  · trivial

lemma meets_put {s : Scope} {e : Entry} (hs : d.scope s) (he : d.entry e) :
    d.discipline.Meets d.scope (s.put e) :=
  lenient.meets fun _ ht => Scope.forall_put ht hs fun _ hk => ⟨hk, he⟩

namespace Lasting

variable (h : d.Lasting)

include h

/-! ### Tokens and operands -/

lemma checks_substitute {s : Scope} {t : Token} (hs : d.scope s) (ht : d.token t) :
    d.discipline.Checks d.token (substitute s t) := by
  unfold substitute
  split
  · refine Discipline.checks_bind (checks_variableAt hs t) fun v hv => ?_
    split
    · rename_i l hl
      have hvalue := h.value_of_entry hv
      rw [hl] at hvalue
      exact Discipline.checks_ofFault (lenient.meets fun _ ht => h.token_toToken hvalue ht)
    · trivial
  · exact ht

lemma checks_resolve {s : Scope} {t : Token} {line : Int} (hs : d.scope s) (ht : d.token t) :
    d.discipline.Checks d.discipline.operand (resolve s line (.token t)) := by
  have hliteral : d.discipline.Checks d.discipline.operand
      (Failure.ofFault ((Literal.ofToken t).map some)) := by
    cases hl : Literal.ofToken t with
    | ok l => exact lenient.operand (h.value_ofToken ht hl)
    | error f => trivial
  unfold resolve
  dsimp only
  split
  · exact Discipline.checks_bind (checks_variableAt hs t) fun v hv => lenient.operand (h.value_of_entry hv)
  · exact hliteral
  · exact hliteral
  · exact hliteral
  · trivial

/-! ### Operators -/

lemma outcome_applyOperator (s : Scope) (op : Token) (operator : ArithOp) (a b : Item)
    (c : Console) :
    d.discipline.Outcome d.discipline.operand (applyOperator s op operator a b c) :=
  lenient.outcome_applyOperator fun _ _ hr => h.value_applyOperator hr

lemma checks_joinTexts (line : Int) (a b : Value) :
    d.discipline.Checks d.discipline.operand (joinTexts line a b) := by
  unfold joinTexts
  split
  · refine Discipline.checks_bind (P := fun _ => True) (lenient.checks fun _ _ => trivial)
      fun printed _ => ?_
    split
    · exact lenient.operand (h.value_str _)
    · trivial
  · trivial

/-! ### Storing values -/

/-- A value that fits stays as it is or becomes a double. -/
lemma value_of_fit {kind : TokenKind} {v : Value} {l : Literal} (hv : d.value v)
    (hfit : kind.fit v = .ok l) : d.value (some l) := by
  unfold TokenKind.fit at hfit
  split at hfit
  · cases v with
    | none => cases hfit
    | some m =>
      unfold Ty.fit at hfit
      dsimp only at hfit
      split at hfit
      · cases hfit
        exact hv
      split at hfit
      · split at hfit
        · cases hfit
          exact h.value_flt _
        · cases hfit
        · cases hfit
      · cases hfit
  · cases hfit

lemma checks_fitVariable {name : Token} {kind : TokenKind} {v : Value} (hv : d.value v) :
    d.discipline.Checks (fun l => d.value (some l)) (Scope.fitVariable name kind v) := by
  unfold Scope.fitVariable
  split
  · rename_i hfit
    exact h.value_of_fit hv hfit
  · trivial
  · trivial

lemma checks_assign {s : Scope} {name : Token} {v : Value} (hs : d.scope s) (hv : d.value v) :
    d.discipline.Checks (fun p => d.value (some p.1) ∧ d.scope p.2) (s.assign name v) := by
  refine lenient.checks fun p hp => ?_
  obtain ⟨k, w, -, hget, hfit, ht⟩ := Scope.exists_of_assign hp
  have hl : d.value (some p.1) := h.value_of_fit hv hfit
  have hw := hs _ (Table.mem_of_get? hget)
  refine ⟨hl, fun y hy => ?_⟩
  rw [ht] at hy
  rcases Table.mem_insert hy with rfl | hy
  · exact ⟨hw.1, h.entry_assign hw.2 hl⟩
  · exact hs y hy

lemma checks_declare {s : Scope} {name : Token} {kind : TokenKind} {v : Value} (hs : d.scope s)
    (hname : d.token name) (hid : name.kind = .identifier) (hv : d.value v) :
    d.discipline.Checks (fun p => d.value p.1.value ∧ d.scope p.2) (s.declare name kind v) := by
  refine Discipline.checks_bind (P := fun _ => True) (lenient.checks fun _ _ => trivial) fun _ _ => ?_
  refine Discipline.checks_bind (h.checks_fitVariable hv) fun l hl => ?_
  exact Discipline.checks_bind
    (Discipline.checks_ofFault (meets_put hs (h.entry_declare hname hid hl))) fun t ht => ⟨hl, ht⟩

lemma checks_define {s : Scope} {f : Function} {closing : Token} (hs : d.scope s)
    (hf : d.discipline.Declares f closing) : d.discipline.Checks d.scope (s.define f) :=
  Discipline.checks_bind (P := fun _ => True) (lenient.checks fun _ _ => trivial) fun _ _ =>
    Discipline.checks_ofFault (meets_put hs (h.entry_define hf))

lemma checks_bindAll {f : Function} (hf : d.entry (.func f)) {pairs : List (Parameter × Value)}
    (hpairs : ∀ x ∈ pairs, x.1 ∈ f.parameters ∧ d.value x.2) {line : Int} {own : Scope}
    (hown : d.scope own) :
    d.discipline.Checks d.scope (pairs.foldlM (Function.bindArguments.bindOne line) own) := by
  induction pairs generalizing own with
  | nil => exact hown
  | cons x pairs ih =>
    rw [List.foldlM_cons]
    refine Discipline.checks_bind (P := d.scope) ?_ fun t ht =>
      ih (fun y hy => hpairs y (by simp [hy])) ht
    obtain ⟨hp, hv⟩ := hpairs x (by simp)
    obtain ⟨p, v⟩ := x
    unfold Function.bindArguments.bindOne
    dsimp only
    split
    · rename_i hfit
      exact Discipline.checks_ofFault
        (meets_put hown (h.entry_bind hf hp (h.value_of_fit hv hfit)))
    · trivial
    · trivial

lemma checks_bindArguments {f : Function} (hf : d.entry (.func f)) {arguments : List Value}
    {line : Int} (ha : ∀ v ∈ arguments, d.value v) :
    d.discipline.Checks d.scope (f.bindArguments line arguments) := by
  unfold Function.bindArguments
  split
  · trivial
  · refine h.checks_bindAll hf (fun x hx => ?_) scope_empty
    exact ⟨(List.of_mem_zip hx).1, ha x.2 (List.of_mem_zip hx).2⟩

/-- **The discipline of demands that last is kept.** -/
theorem kept : d.discipline.Kept where
  line_of_token _ := trivial
  token_atEnd _ := h.token_atEnd _
  value_nil := h.value_nil
  value_bool := h.value_bool
  value_ofToken := h.value_ofToken
  text _ := lenient.meets fun _ _ => trivial
  key _ := lenient.meets fun _ _ => trivial
  lexeme _ := .inr trivial
  substitute := h.checks_substitute
  resolve hs ht _ := h.checks_resolve hs ht
  applyOperator {s op operator a b} _ _ _ _ := h.outcome_applyOperator s op operator a b
  joinTexts _ _ _ := h.checks_joinTexts _ _ _
  assign hs _ hv := h.checks_assign hs hv
  declare hs hname hid _ hv := h.checks_declare hs hname hid hv
  define := h.checks_define
  erase hs _ _ := lenient.meets fun _ ht => Scope.forall_erase ht hs
  callee_own hs _ _ := checks_functionAt hs _
  callee_program hp _ _ := checks_functionAt hp.2 _
  functionAt_eq hp _ := by rw [hp.1]
  bindArguments hf ha _ := h.checks_bindArguments hf ha

omit h in
lemma stream {tokens : List Token} (htokens : ∀ t ∈ tokens, d.token t) :
    d.discipline.Stream tokens :=
  Discipline.stream_of_token (fun _ _ => trivial) htokens

lemma bodies : d.discipline.Bodies := fun hf => stream (h.body hf)

end Lasting

end Demands

end Hive
