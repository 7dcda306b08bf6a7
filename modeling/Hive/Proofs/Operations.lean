import Hive.Proofs.Discipline
import Hive.Proofs.Rules

/-!
Arithmetic and concatenation under a discipline. Working out an expression writes notes and no
output, and what it comes to does not depend on the console.
-/

namespace Hive

open Evaluator

/-! ### Arithmetic writes notes only -/

section Quiet

variable {α β : Type}

/-- A computation that writes notes only, and the same ones on every console, and that stops with
failures only. -/
def Quiet (m : ConsoleM α) : Prop :=
  ∀ output, (Ground.quiet output).Agree (fun e => ∃ f, e = .failure f) (fun _ => True) m m

namespace Quiet

lemma pure (a : α) : Quiet (pure a) := fun _ => .pure trivial

lemma throw (f : Failure) : Quiet (throw (.failure f) : ConsoleM α) := fun _ => .throw ⟨f, rfl⟩

lemma bind {m : ConsoleM α} {k : α → ConsoleM β} (hm : Quiet m) (hk : ∀ a, Quiet (k a)) :
    Quiet (m >>= k) :=
  fun o => (hm o).bind fun a _ => hk a o

lemma orFail (x : Except Failure α) : Quiet (orFail x) := by
  cases x with
  | ok a => exact pure a
  | error f => exact throw _

lemma orHalt (x : Except Fault α) : Quiet (orHalt x) := by
  cases x with
  | ok a => exact pure a
  | error f => exact throw _

lemma ensure (p : Prop) [Decidable p] (line : Int) (problem : Problem) :
    Quiet (ensure p line problem) := by
  unfold Evaluator.ensure
  split
  · exact pure ()
  · exact throw _

lemma note (level : Nat) (text : Except Fault String) : Quiet (note level text) :=
  fun output => Discipline.agree_note_of_text (orHalt text output)

lemma divide (line : Int) (left right : Literal) : Quiet (divide line left right) :=
  (ensure _ _ _).bind fun _ => (orHalt _).bind fun (_, _) => (orHalt _).bind fun _ => pure _

lemma noteCut (line : Int) (exact : Number) (result : Literal) :
    Quiet (noteCut line exact result) := by
  unfold Evaluator.noteCut
  split
  · exact pure ()
  · exact note _ _

lemma arithmetic (line : Int) (operator : ArithOp) (left right : Value) :
    Quiet (arithmetic line operator left right) := by
  unfold Evaluator.arithmetic
  refine (orFail _).bind fun l => (orFail _).bind fun r => ?_
  split
  · exact divide line l r
  · exact (orHalt _).bind fun (a, b) => (orHalt _).bind fun n => (orHalt _).bind fun result =>
      (noteCut line n result).bind fun _ => pure _

lemma applyOperator (scope : Scope) (op : Token) (operator : ArithOp) (left right : Item) :
    Quiet (applyOperator scope op operator left right) :=
  (orFail _).bind fun _ => (orFail _).bind fun _ => (arithmetic _ _ _ _).bind fun _ =>
    (note _ _).bind fun _ => pure _

/-- A quiet computation agrees with itself on demands that its outcome meets. -/
lemma agree {D : Discipline} {Q : α → Prop} {m : ConsoleM α} (hm : Quiet m)
    (h : ∀ c, D.Outcome Q (m c)) (output : List String) :
    (Ground.quiet output).Agree (D.stop false) Q m m := by
  intro c hc
  obtain ⟨hfollows, hends⟩ := hm output c hc
  refine ⟨hfollows, ?_⟩
  have hout := h c
  cases hr : m c with
  | ok a d => rw [hr] at hends hout; exact ⟨hends.1, hout⟩
  | error e d => rw [hr] at hends hout; exact ⟨hends.1, hout⟩

end Quiet

end Quiet

namespace Discipline

variable {D : Discipline} {n : Nat} {mayReturn : Bool}

lemma outcome_of_agree {α : Type} {Q : α → Prop} {m : ConsoleM α}
    (h : ∀ output, (Ground.quiet output).Agree (D.stop false) Q m m) (c : Console) :
    D.Outcome Q (m c) := by
  obtain ⟨-, hends⟩ := h c.output c rfl
  cases hr : m c with
  | ok a d => rw [hr] at hends; exact hends.2
  | error e d => rw [hr] at hends; exact hends.2

lemma stop_of_false {e : Stop} (h : D.stop false e) : D.stop mayReturn e := by
  cases e with
  | failure f => exact h
  | returned v => cases h.1
  | exhausted => exact h

/-! ### Working out items -/

section Items

variable {own : Scope} {line groupLine : Int} {items : List Item}

/-- An item has a value as demanded if the tokens have. -/
lemma checks_resolve_of_token
    (h : ∀ t, D.token t → D.Checks D.operand (resolve own line (.token t))) {i : Item}
    (hi : D.item i) : D.Checks D.operand (resolve own line i) := by
  cases i with
  | token t => exact h t hi
  | value v =>
    cases v with
    | none => exact hi.2 rfl
    | some l => exact hi

lemma checks_resolve (hk : D.Steady) (hs : D.scope own) (hl : D.line line) {i : Item}
    (hi : D.item i) : D.Checks D.operand (resolve own line i) :=
  checks_resolve_of_token (fun _ ht => hk.resolve hs ht hl) hi

lemma checks_finish (hk : D.Steady) (hs : D.scope own) (hl : D.line line)
    (hitems : ∀ i ∈ items, D.item i) (hne : items ≠ []) :
    D.Checks D.operand (finish own line items) := by
  cases items with
  | nil => exact absurd rfl hne
  | cons i more =>
    rw [finish]
    split
    · exact checks_resolve hk hs hl (hitems i (by simp))
    · exact hl

/-- A value may take the place of the items it was worked out from. -/
lemma items_replaced {before after : List Item} {v : Value} (hbefore : ∀ i ∈ before, D.item i)
    (hv : D.operand v) (hafter : ∀ i ∈ after, D.item i) :
    ∀ i ∈ before ++ .value v :: after, D.item i :=
  List.forall_mem_append.2 ⟨hbefore, List.forall_mem_cons.2 ⟨hv, hafter⟩⟩

/-- **Two ways to apply operators agree** in the scopes of an evaluation. -/
def Applies (D : Discipline) (apply apply' : Application) : Prop :=
  ∀ (own : Scope) (op : Token) (operator : ArithOp) (left right : Item), D.scope own → D.token op →
    D.item left → D.item right → D.console.Agree (D.stop false) D.operand
      (apply own op operator left right) (apply' own op operator left right)

lemma applies_applyOperator
    (h : ∀ {s : Scope} {op : Token} {operator : ArithOp} {a b : Item}, D.scope s → D.token op →
      D.item a → D.item b → ∀ c, D.Outcome D.operand (applyOperator s op operator a b c)) :
    D.Applies applyOperator applyOperator :=
  fun own op operator left right hs hop hleft hright => .of_quiet fun output =>
    (Quiet.applyOperator own op operator left right).agree (h hs hop hleft hright) output

lemma Lenient.outcome_applyOperator (h : D.Lenient) {op : Token} {operator : ArithOp}
    {left right : Item} {c : Console}
    (hvalue : ∀ v d, applyOperator own op operator left right c = .ok v d → D.value v) :
    D.Outcome D.operand (applyOperator own op operator left right c) := by
  obtain ⟨-, hends⟩ := Quiet.applyOperator own op operator left right c.output c rfl
  cases hr : applyOperator own op operator left right c with
  | ok v d => exact h.operand (hvalue v d hr)
  | error e d =>
    rw [hr] at hends
    obtain ⟨f, rfl⟩ := hends.2
    exact h.failure f

lemma agree_operateBy (hk : D.Steady) {apply apply' : Application} (happly : D.Applies apply apply')
    (hs : D.scope own) (hg : D.line groupLine) (hl : D.line line) (hitems : ∀ i ∈ items, D.item i)
    (hne : items ≠ []) :
    D.console.Agree (D.stop false) D.operand (operateBy apply own groupLine line items)
      (operateBy apply' own groupLine line items) := by
  -- along the reductions of the first run; the second one makes the same ones
  fun_induction operateBy apply own groupLine line items with
  | case1 line items h =>
    rw [operateBy_eq apply', h]
    exact agree_orFail (checks_finish hk hs hl hitems hne)
  | case2 line items opening h =>
    rw [operateBy_eq apply', h]
    exact agree_fail (hk.line_of_token (hitems _ (fits_of_reduction h)))
  | case3 line items before inner closing after h ihInner ih =>
    rw [operateBy_eq apply', h]
    obtain ⟨opening, rfl⟩ := fits_of_reduction h
    simp only [List.forall_mem_append, List.forall_mem_cons] at hitems
    obtain ⟨hbefore, -, hinner, hclosing, hafter⟩ := hitems
    have hgroup : ∀ i ∈ inner ++ [.token closing], D.item i := by
      simpa only [List.forall_mem_append, List.forall_mem_singleton] using ⟨hinner, hclosing⟩
    exact (ihInner hg hgroup (by simp)).bind fun v hv =>
      ih v hl (items_replaced hbefore hv hafter) (by simp)
  | case4 line items op h =>
    rw [operateBy_eq apply', h]
    exact agree_fail (hk.line_of_token (hitems _ (fits_of_reduction h)))
  | case5 line items before left op operator right after h ih =>
    rw [operateBy_eq apply', h]
    obtain rfl := fits_of_reduction h
    simp only [List.forall_mem_append, List.forall_mem_cons] at hitems
    obtain ⟨hbefore, hleft, hop, hright, hafter⟩ := hitems
    exact (happly _ _ _ _ _ hs hop hleft hright).bind fun v hv =>
      ih v hl (items_replaced hbefore hv hafter) (by simp)

lemma checks_join (hk : D.Steady) (hs : D.scope own) (hl : D.line line)
    (hitems : ∀ i ∈ items, D.item i) (hne : items ≠ []) :
    D.Checks D.operand (join own line items) := by
  fun_induction join own line items with
  | case1 => exact absurd rfl hne
  | case2 i => exact checks_resolve hk hs hl (hitems i (by simp))
  | case3 => exact hl
  | case4 first second more dot before left right after h ih =>
    rw [firstJoint?_eq_append h] at hitems
    simp only [List.forall_mem_append, List.forall_mem_cons] at hitems
    obtain ⟨hbefore, hleft, hdot, hright, hafter⟩ := hitems
    have hline : D.line dot.line := hk.line_of_token hdot
    exact checks_bind (checks_resolve hk hs hline hleft) fun a ha =>
      checks_bind (checks_resolve hk hs hline hright) fun b hb =>
      checks_bind (hk.joinTexts hline ha hb) fun v hv =>
      ih v (items_replaced hbefore hv hafter) (by simp)

end Items

/-! ### Reading and working out expressions -/

lemma items_map_token {tokens : List Token} (h : ∀ t ∈ tokens, D.token t) :
    ∀ i ∈ tokens.map Item.token, D.item i := by
  intro i hi
  obtain ⟨t, ht, rfl⟩ := List.mem_map.1 hi
  exact h t ht

/-- **Two ways to do arithmetic agree** in the frames of an evaluation. -/
def Operates (D : Discipline) (operation operation' : Token → EvalM Value) : Prop :=
  ∀ {n : Nat} {mayReturn : Bool} {first : Token}, D.token first →
    (D.ground n).Agree (D.stop mayReturn) D.value (operation first) (operation' first)

lemma operates_operationBy (hk : D.Steady) {apply apply' : Application}
    (happly : D.Applies apply apply') : D.Operates (operationBy apply) (operationBy apply') := by
  intro n mayReturn first hfirst
  refine (agree_collect hfirst).bind fun tokens ⟨hne, htokens⟩ => agree_scope.bind fun own hs => ?_
  have hlast : D.token (tokens.getLast?.getD first) := by
    rw [List.getLast?_eq_some_getLast hne]
    exact htokens _ (List.getLast_mem hne)
  have h := agree_operateBy hk happly hs (hk.line_of_token hlast) (hk.line_of_token hfirst)
    (items_map_token htokens) (by simpa using hne)
  exact agree_onConsole ((h.mono fun v hv => hv.1).mono_stop fun _ => stop_of_false)

lemma operates_operation (hk : D.Steady) (happly : D.Applies applyOperator applyOperator) :
    D.Operates operation operation := by
  rw [← operationBy_applyOperator]
  exact operates_operationBy hk happly

lemma agree_concatenation (hk : D.Steady) {first : Token} (hfirst : D.token first) :
    (D.ground n).Agree (D.stop mayReturn) D.value (concatenation first) (concatenation first) := by
  refine (agree_collect hfirst).bind fun tokens ⟨hne, htokens⟩ => agree_scope.bind fun own hs => ?_
  have h := checks_join hk hs (hk.line_of_token hfirst) (items_map_token htokens)
    (by simpa using hne)
  exact (agree_orFail h).mono fun v hv => hv.1

end Discipline

end Hive
