import Hive.Proofs.Agreement
import Mathlib.Data.List.Chain
import Mathlib.Data.List.TakeWhile

/-!
A **discipline** says what is demanded of the tokens that an evaluation reads, of its values and
scopes, of the functions that it calls, and of the ways in which it may stop. It is **kept** if the
operations on values and scopes keep to it; then a whole evaluation does, which the modules after
this one show function by function. The demand on programs is on two at once, so that evaluations
which differ in the scope of the program can be compared.
-/

namespace Hive

open Evaluator

/-- What is demanded in an evaluation. -/
structure Discipline where
  token : Token → Prop
  /-- Which tokens may come right after which. -/
  follows : Token → Token → Prop := fun _ _ => True
  /-- Where problems may be reported to be. -/
  place : Json → Prop
  value : Value → Prop
  scope : Scope → Prop
  /-- The functions that may be called. -/
  callee : Function → Prop
  /-- The scopes of the programs of two evaluations that are compared. -/
  programs : Scope → Scope → Prop
  fault : Fault → Prop
  /-- Whether calls may nest too deep. -/
  exhausted : Prop
  /-- Whether they may nest deeper in the second of two evaluations. -/
  cut : Prop
  /-- The failures that may be others in the second of two evaluations. -/
  swap : Failure → Failure → Prop := fun _ _ => False

namespace Discipline

variable (D : Discipline) {α σ : Type}

/-- The lines on which problems may be reported. -/
def line (l : Int) : Prop := D.place (.int l)

def failure : Failure → Prop
  | .error d => D.place d.line
  | .fault f => D.fault f

def stop (mayReturn : Bool) : Stop → Prop
  | .failure f => D.failure f
  | .returned v => mayReturn = true ∧ D.value v
  | .exhausted => D.exhausted

/-- A result that is as demanded, or a failure that may come up. -/
def Checks (Q : α → Prop) : Except Failure α → Prop
  | .ok a => Q a
  | .error f => D.failure f

/-- A result that is as demanded, or a fault that may come up. -/
def Meets (Q : α → Prop) : Except Fault α → Prop
  | .ok a => Q a
  | .error f => D.fault f

/-- The outcome of a computation that writes to a console, in which no function returns. -/
def Outcome (Q : α → Prop) : EStateM.Result Stop σ α → Prop
  | .ok a _ => Q a
  | .error e _ => D.stop false e

/-- A value with which an operator can go on, unless its lack may come up as a fault. -/
def operand (v : Value) : Prop := D.value v ∧ (v = none → D.fault .noValue)

def item : Item → Prop
  | .token t => D.token t
  | .value v => D.operand v

/-- Tokens that are as demanded, and each as it may come after the one before. The end comes after
the last one. -/
structure Stream (tokens : List Token) : Prop where
  token : ∀ t ∈ tokens, D.token t
  follows : ∀ l, (tokens ++ [Token.atEnd l]).IsChain D.follows

/-- What comes next may come right after the token, unless that is the end. -/
def Before (t : Token) (rest : List Token) : Prop :=
  t.kind ≠ .endOfInput → ∀ l, D.follows t (rest.headD (.atEnd l))

/-- The token is an identifier that may come right after `run`. -/
structure Called (name : Token) : Prop where
  isIdentifier : name.kind = .identifier
  follows : ∃ t : Token, t.kind = .keyword .runWord ∧ D.follows t name

/-- The token may come right after `clear`. -/
def Cleared (name : Token) : Prop :=
  ∃ t : Token, t.kind = .keyword .clearWord ∧ D.follows t name

/-- A function as a declaration makes it, whose body ends with the token `closing`. -/
structure Declares (f : Function) (closing : Token) : Prop where
  name : D.token f.name
  isIdentifier : f.name.kind = .identifier
  returns : f.returns.isTypeName = true
  parameters : ∀ p ∈ f.parameters,
    D.token p.name ∧ p.name.kind = .identifier ∧ p.type.isTypeName = true
  opening : ∃ t, D.token t ∧ t.kind = .leftBrace
  body : ∀ t ∈ f.body, D.token t ∧ endsBody t.kind = false
  brace : D.token closing
  isBrace : closing.kind = .rightBrace

/-- Problems may be reported where there are tokens, and the end may be read. -/
structure Reading : Prop where
  line_of_token {t : Token} (ht : D.token t) : D.line t.line
  token_atEnd {l : Int} (hl : D.line l) : D.token (.atEnd l)

/-- **The operations on values and on a scope keep the discipline**, except for arithmetic. -/
structure Steady : Prop extends D.Reading where
  value_nil : D.value none
  value_bool (b : Bool) : D.value (some (.bool b))
  value_ofToken {t : Token} {l : Literal} (ht : D.token t) (h : Literal.ofToken t = .ok l) :
    D.value (some l)
  text {v : Value} (hv : D.value v) : D.Meets (fun _ => True) (Value.text v)
  key {t : Token} (ht : D.token t) : D.Meets (fun _ => True) t.lexeme.key
  lexeme {t : Token} (ht : D.token t) : (∃ s, t.lexeme = .str s) ∨ D.fault .notText
  substitute {s : Scope} {t : Token} (hs : D.scope s) (ht : D.token t) :
    D.Checks D.token (substitute s t)
  resolve {s : Scope} {t : Token} {l : Int} (hs : D.scope s) (ht : D.token t) (hl : D.line l) :
    D.Checks D.operand (resolve s l (.token t))
  joinTexts {l : Int} {a b : Value} (hl : D.line l) (ha : D.operand a) (hb : D.operand b) :
    D.Checks D.operand (joinTexts l a b)
  assign {s : Scope} {name : Token} {v : Value} (hs : D.scope s) (hname : D.token name)
    (hv : D.value v) :
    D.Checks (fun p => D.value (some p.1) ∧ D.scope p.2) (s.assign name v)
  declare {s : Scope} {name : Token} {type : TokenKind} {v : Value} (hs : D.scope s)
    (hname : D.token name) (hid : name.kind = .identifier) (htype : type.isTypeName = true)
    (hv : D.value v) :
    D.Checks (fun p => D.value p.1.value ∧ D.scope p.2) (s.declare name type v)
  define {s : Scope} {f : Function} {closing : Token} (hs : D.scope s)
    (hf : D.Declares f closing) : D.Checks D.scope (s.define f)
  erase {s : Scope} {name : Token} (hs : D.scope s) (hname : D.token name)
    (hcleared : D.Cleared name) : D.Meets D.scope (s.erase name.lexeme)
  callee_own {s : Scope} {name : Token} (hs : D.scope s) (hname : D.token name)
    (hcalled : D.Called name) : D.Checks D.callee (s.functionAt name)
  callee_program {p q : Scope} {name : Token} (hp : D.programs p q) (hname : D.token name)
    (hcalled : D.Called name) : D.Checks D.callee (p.functionAt name)
  functionAt_eq {p q : Scope} (hp : D.programs p q) (name : Token) :
    q.functionAt name = p.functionAt name

/-- **Calls start in scopes as demanded.** -/
abbrev Binds : Prop :=
  ∀ {f : Function} {arguments : List Value} {l : Int}, D.callee f → (∀ v ∈ arguments, D.value v) →
    D.line l → D.Checks D.scope (f.bindArguments l arguments)

/-- **The operations on values and scopes keep the discipline.** -/
structure Kept : Prop extends D.Steady where
  applyOperator {s : Scope} {op : Token} {operator : ArithOp} {a b : Item} (hs : D.scope s)
    (hop : D.token op) (ha : D.item a) (hb : D.item b) (c : Console) :
    D.Outcome D.operand (applyOperator s op operator a b c)
  bindArguments : D.Binds

instance : Coe D.Steady D.Reading := ⟨Steady.toReading⟩

instance : Coe D.Kept D.Steady := ⟨Kept.toSteady⟩

/-- **The functions that may be called have bodies as demanded.** -/
def Bodies : Prop := ∀ {f : Function}, D.callee f → D.Stream f.body

/-- Two settings that differ in the scope of the program only. -/
structure Settings (a b : Setting) : Prop where
  endLine : b.endLine = a.endLine
  mayReturn : b.mayReturn = a.mayReturn
  line : D.line a.endLine
  program : (a.program = none ∧ b.program = none ∧ ∀ s, D.scope s → D.programs s s) ∨
    ∃ p q, a.program = some p ∧ b.program = some q ∧ D.programs p q

/-- Frames with no more than `n` tokens left. -/
def ground (n : Nat) : Ground Frame :=
  ⟨fun f => f.rest.length ≤ n ∧ D.Stream f.rest ∧ D.scope f.scope, Frame.under, D.cut, D.swap⟩

abbrev console : Ground Console := .console D.cut D.swap

/-- **Two ways to call functions that agree** on the calls that may be made. -/
def Calls (a b : Invocation) : Prop :=
  ∀ {p q : Scope} {f : Function} {arguments : List Value} {l : Int}, D.programs p q → D.callee f →
    (∀ v ∈ arguments, D.value v) → D.line l →
    D.console.Agree (D.stop false) D.value (a p f arguments l) (b q f arguments l)

/-! ### Results -/

section Results

variable {D : Discipline} {β : Type} {P Q : α → Prop} {R : β → Prop}

lemma meets_ok {a : α} (h : Q a) : D.Meets Q (.ok a) := h

lemma meets_bind {x : Except Fault α} {k : α → Except Fault β} (hx : D.Meets P x)
    (hk : ∀ a, P a → D.Meets R (k a)) : D.Meets R (x >>= k) := by
  cases x with
  | ok a => exact hk a hx
  | error f => exact hx

lemma meets_mapM {g : α → Except Fault β} {xs : List α}
    (h : ∀ x ∈ xs, D.Meets (fun _ => True) (g x)) : D.Meets (fun _ => True) (xs.mapM g) := by
  induction xs with
  | nil => exact trivial
  | cons x xs ih =>
    rw [List.mapM_cons]
    exact meets_bind (h x (by simp)) fun _ _ =>
      meets_bind (ih fun y hy => h y (by simp [hy])) fun _ _ => meets_ok trivial

lemma checks_bind {x : Except Failure α} {k : α → Except Failure β} (hx : D.Checks P x)
    (hk : ∀ a, P a → D.Checks R (k a)) : D.Checks R (x >>= k) := by
  cases x with
  | ok a => exact hk a hx
  | error f => exact hx

lemma checks_ofFault {x : Except Fault α} (h : D.Meets Q x) :
    D.Checks Q (Failure.ofFault x) := by
  cases x <;> exact h

lemma Meets.of_ok {x : Except Fault α} {a : α} (h : D.Meets Q x) (hx : x = .ok a) : Q a := by
  rw [hx] at h
  exact h

lemma Checks.of_ok {x : Except Failure α} {a : α} (h : D.Checks Q x) (hx : x = .ok a) : Q a := by
  rw [hx] at h
  exact h

/-- Where every fault may come up, it is enough that the results are as demanded. -/
lemma meets_of_ok {x : Except Fault α} (h : ∀ f, D.fault f) (hx : ∀ a, x = .ok a → Q a) :
    D.Meets Q x := by
  cases x with
  | ok a => exact hx a rfl
  | error f => exact h f

/-- Every failure may come up. -/
structure Lenient (D : Discipline) : Prop where
  place : ∀ x, D.place x
  fault : ∀ f, D.fault f

lemma Lenient.failure (h : D.Lenient) (f : Failure) : D.failure f := by
  cases f with
  | error d => exact h.place d.line
  | fault f => exact h.fault f

lemma Lenient.meets (h : D.Lenient) {x : Except Fault α} (hx : ∀ a, x = .ok a → Q a) :
    D.Meets Q x :=
  meets_of_ok h.fault hx

lemma Lenient.checks (h : D.Lenient) {x : Except Failure α} (hx : ∀ a, x = .ok a → Q a) :
    D.Checks Q x := by
  cases x with
  | ok a => exact hx a rfl
  | error f => exact h.failure f

lemma Lenient.operand (h : D.Lenient) {v : Value} (hv : D.value v) : D.operand v :=
  ⟨hv, fun _ => h.fault _⟩

end Results

/-! ### Stopping -/

section Stopping

variable {D : Discipline} {G : Ground σ} {mayReturn : Bool} {Q : α → Prop}

lemma agree_fail {l : Int} {problem : Problem} (hl : D.line l) :
    G.Agree (D.stop mayReturn) Q (fail l problem) (fail l problem) :=
  .throw hl

lemma agree_ensure {p : Prop} [Decidable p] {l : Int} {problem : Problem} (hl : D.line l) :
    G.Agree (D.stop mayReturn) (fun _ => p) (ensure p l problem) (ensure p l problem) := by
  unfold ensure
  split
  · exact .pure ‹p›
  · exact agree_fail hl

lemma agree_halt {f : Fault} (hf : D.fault f) :
    G.Agree (D.stop mayReturn) Q (halt f) (halt f) :=
  .throw hf

lemma agree_orFail {x : Except Failure α} (h : D.Checks Q x) :
    G.Agree (D.stop mayReturn) Q (orFail x) (orFail x) := by
  cases x with
  | ok a => exact .pure h
  | error f => exact .throw h

lemma agree_orHalt {x : Except Fault α} (h : D.Meets Q x) :
    G.Agree (D.stop mayReturn) Q (orHalt x) (orHalt x) := by
  cases x with
  | ok a => exact .pure h
  | error f => exact agree_halt h

end Stopping

/-! ### The console -/

section OnConsole

variable {D : Discipline} {n : Nat} {mayReturn : Bool} {E : Stop → Prop} {Q : α → Prop}

lemma agree_note_of_text {output : List String} {level : Nat} {text : Except Fault String}
    (h : (Ground.quiet output).Agree E (fun _ => True) (orHalt text) (orHalt text)) :
    (Ground.quiet output).Agree E (fun _ => True) (note level text) (note level text) := by
  refine h.bind fun text _ d hd => ⟨fun c => .of_eq ?_, hd, trivial⟩
  show EStateM.Result.ok () _ = EStateM.Result.ok () _
  simp [Ground.quiet, Console.append]

lemma agree_note {output : List String} {level : Nat} {text : Except Fault String}
    (h : D.Meets (fun _ => True) text) :
    (Ground.quiet output).Agree (D.stop mayReturn) (fun _ => True) (note level text)
      (note level text) :=
  agree_note_of_text (agree_orHalt h)

lemma agree_write {line : String} :
    D.console.Agree E (fun _ => True) (write line) (write line) := by
  refine fun d _ => ⟨fun c => .of_eq ?_, trivial, trivial⟩
  show EStateM.Result.ok () _ = EStateM.Result.ok () _
  simp [Ground.console, Console.append]

lemma agree_onConsole {a b : ConsoleM α} (h : D.console.Agree E Q a b) :
    (D.ground n).Agree E Q (onConsole a) (onConsole b) := by
  intro frame hf
  obtain ⟨hfollows, hends⟩ := h frame.console trivial
  simp only [onConsole_eq]
  exact ⟨fun c => (hfollows c).onState fun _ => rfl, hends.onState fun _ _ => hf⟩

lemma agree_frameNote {level : Nat} {text : Except Fault String}
    (h : D.Meets (fun _ => True) text) :
    (D.ground n).Agree (D.stop mayReturn) (fun _ => True) (onConsole (note level text))
      (onConsole (note level text)) :=
  agree_onConsole (.of_quiet fun _ => agree_note h)

end OnConsole

/-! ### Streams -/

section Streams

variable {D : Discipline} {t : Token} {tokens rest : List Token}

lemma stream_nil : D.Stream [] := ⟨by simp, fun _ => .singleton _⟩

lemma Stream.suffix (h : D.Stream tokens) (hrest : rest <:+ tokens) : D.Stream rest := by
  refine ⟨fun t ht => h.token t (hrest.subset ht), fun l => (h.follows l).suffix ?_⟩
  obtain ⟨before, rfl⟩ := hrest
  exact ⟨before, (List.append_assoc ..).symm⟩

lemma Stream.tail (h : D.Stream (t :: rest)) : D.Stream rest := h.suffix (List.suffix_cons t rest)

lemma Stream.next (h : D.Stream (t :: rest)) : D.Before t rest := by
  intro _ l
  have hchain := h.follows l
  cases rest with
  | nil => exact hchain.rel
  | cons u rest => exact hchain.rel

/-- Where every token may be the last one, only what comes between tokens matters. -/
lemma stream_of_chain (h : ∀ t ∈ tokens, D.token t) (hchain : tokens.IsChain D.follows)
    (hlast : ∀ t l, D.follows t (.atEnd l)) : D.Stream tokens := by
  refine ⟨h, fun l => List.isChain_append.2 ⟨hchain, .singleton _, fun t _ u hu => ?_⟩⟩
  obtain rfl : Token.atEnd l = u := by simpa using hu
  exact hlast t l

/-- Where any token may come after any other, only the tokens matter. -/
lemma stream_of_token (hfollows : ∀ t u, D.follows t u) (h : ∀ t ∈ tokens, D.token t) :
    D.Stream tokens :=
  stream_of_chain h (List.pairwise_of_forall hfollows).isChain fun _ _ => hfollows _ _

end Streams

/-! ### Reading tokens -/

section Reading

variable {D : Discipline} {n : Nat} {E : Stop → Prop} {a b : Setting}

lemma agree_scope : (D.ground n).Agree E D.scope Evaluator.scope Evaluator.scope :=
  fun _ hf => ⟨fun _ => .same _, hf, hf.2.2⟩

lemma agree_setScope {s : Scope} (hs : D.scope s) :
    (D.ground n).Agree E (fun _ => True) (setScope s) (setScope s) :=
  fun _ hf => ⟨fun _ => .same _, ⟨hf.1, hf.2.1, hs⟩, trivial⟩

lemma Settings.token_atEnd (hk : D.Reading) (hs : D.Settings a b) : D.token (.atEnd a.endLine) :=
  hk.token_atEnd hs.line

/-- What follows a look at the next token may depend on where that token comes from. -/
lemma agree_peek_bind {α : Type} {Q : α → Prop} {k l : Token → EvalM α} (hs : D.Settings a b)
    (h : ∀ f, (D.ground n).holds f → ∀ t, t = f.rest.headD (.atEnd a.endLine) →
      (∀ c, Follows D.cut D.swap (Frame.under c) (k t f) (l t (f.under c))) ∧
        (D.ground n).Ends E Q (k t f)) :
    (D.ground n).Agree E Q (peek a >>= k) (peek b >>= l) := by
  intro f hf
  obtain ⟨hfollows, hends⟩ := h f hf _ rfl
  refine ⟨fun c => ?_, hends⟩
  show Follows _ _ _ _ (l (f.rest.headD (.atEnd b.endLine)) _)
  rw [hs.endLine]
  exact hfollows c

lemma agree_peek (hk : D.Reading) (hs : D.Settings a b) :
    (D.ground n).Agree E D.token (peek a) (peek b) := by
  have h := agree_peek_bind (n := n) (E := E) (Q := D.token) (k := pure) (l := pure) hs
    fun f hf t ht => ⟨fun _ => .same _, hf, ?_⟩
  · simpa only [bind_pure] using h
  · subst ht
    cases hr : f.rest with
    | nil => exact hs.token_atEnd hk
    | cons u rest => exact hf.2.1.token u (by simp [hr])

lemma Ends.widen {α : Type} {Q : α → Prop} {m : Nat} {r : EStateM.Result Stop Frame α}
    (h : (D.ground m).Ends E Q r) (hmn : m ≤ n) : (D.ground n).Ends E Q r := by
  cases r with
  | ok v f => exact ⟨⟨Nat.le_trans h.1.1 hmn, h.1.2⟩, h.2⟩
  | error e f => exact ⟨⟨Nat.le_trans h.1.1 hmn, h.1.2⟩, h.2⟩

/-- What follows a token that is read may depend on which token comes next. Reading leaves fewer of
them, unless it is the end. -/
lemma agree_advance_next {α : Type} {Q : α → Prop} {k l : Token → EvalM α} (hk : D.Reading)
    (hs : D.Settings a b)
    (h : ∀ t m, D.token t → m ≤ n → (t.kind ≠ .endOfInput → m < n) → ∀ f, (D.ground m).holds f →
      D.Before t f.rest → (D.ground m).AgreeAt E Q (k t) (l t) f) :
    (D.ground n).Agree E Q (advance a >>= k) (advance b >>= l) := by
  rintro ⟨rest, past, inArguments, own, console⟩ ⟨hlen, hstream, hscope⟩
  cases rest with
  | nil =>
    -- past the tokens the end is read again and again, and nothing gets shorter
    obtain ⟨hfollows, hends⟩ := h (.atEnd a.endLine) 0 (hs.token_atEnd hk) (Nat.zero_le n)
      (fun hne => absurd rfl hne) ⟨[], past + 1, inArguments, own, console⟩
      ⟨Nat.le_refl 0, hstream, hscope⟩ fun hne => absurd rfl hne
    refine ⟨fun c => ?_, Ends.widen hends (Nat.zero_le n)⟩
    show Follows _ _ _ _ (l (.atEnd b.endLine) _)
    rw [hs.endLine]
    exact hfollows c
  | cons t rest =>
    obtain ⟨hfollows, hends⟩ := h t rest.length (hstream.token t (by simp)) (Nat.le_of_lt hlen)
      (fun _ => hlen) ⟨rest, past, inArguments, own, console⟩
      ⟨Nat.le_refl _, hstream.tail, hscope⟩ hstream.next
    exact ⟨hfollows, Ends.widen hends (Nat.le_of_lt hlen)⟩

lemma agree_advance_bind {α : Type} {Q : α → Prop} {k l : Token → EvalM α} (hk : D.Reading)
    (hs : D.Settings a b)
    (h : ∀ t m, D.token t → m ≤ n → (t.kind ≠ .endOfInput → m < n) →
      (D.ground m).Agree E Q (k t) (l t)) :
    (D.ground n).Agree E Q (advance a >>= k) (advance b >>= l) :=
  agree_advance_next hk hs fun t m ht hle hlt f hf _ => h t m ht hle hlt f hf

lemma agree_advance (hk : D.Reading) (hs : D.Settings a b) :
    (D.ground n).Agree E D.token (advance a) (advance b) := by
  have h := agree_advance_bind (n := n) (E := E) (Q := D.token) (k := pure) (l := pure) hk hs
    fun t _ ht _ _ => .pure ht
  simpa only [bind_pure] using h

lemma agree_advance_of_next {α : Type} {Q : α → Prop} {k l : Token → EvalM α} (hk : D.Reading)
    (hs : D.Settings a b) {f : Frame} (hf : (D.ground n).holds f)
    (h : ∀ t, D.token t → t = f.rest.headD (.atEnd a.endLine) →
      (D.ground n).Agree E Q (k t) (l t)) :
    (D.ground n).AgreeAt E Q (advance a >>= k) (advance b >>= l) f := by
  obtain ⟨rest, past, inArguments, own, console⟩ := f
  obtain ⟨hlen, hstream, hscope⟩ := hf
  cases rest with
  | nil =>
    obtain ⟨hfollows, hends⟩ := h (.atEnd a.endLine) (hs.token_atEnd hk) rfl
      ⟨[], past + 1, inArguments, own, console⟩ ⟨hlen, hstream, hscope⟩
    refine ⟨fun c => ?_, hends⟩
    show Follows _ _ _ _ (l (.atEnd b.endLine) _)
    rw [hs.endLine]
    exact hfollows c
  | cons t rest =>
    exact h t (hstream.token t (by simp)) rfl ⟨rest, past, inArguments, own, console⟩
      ⟨Nat.le_of_lt hlen, hstream.tail, hscope⟩

lemma agree_takeUntil (stop : TokenKind → Bool) :
    (D.ground n).Agree E (fun ts => ∀ t ∈ ts, D.token t ∧ stop t.kind = false)
      (takeUntil stop) (takeUntil stop) := by
  rintro frame ⟨hlen, hstream, hscope⟩
  refine ⟨fun _ => .same _, ⟨?_, hstream.suffix (List.dropWhile_suffix _), hscope⟩, fun t ht => ?_⟩
  · exact Nat.le_trans (List.length_dropWhile_le _ _) hlen
  · exact ⟨hstream.token t ((List.takeWhile_prefix _).subset ht),
      by simpa using List.mem_takeWhile_imp ht⟩

lemma agree_collect {first : Token} (hfirst : D.token first) :
    (D.ground n).Agree E (fun ts => ts ≠ [] ∧ ∀ t ∈ ts, D.token t) (collect first)
      (collect first) := by
  rintro frame ⟨hlen, hstream, hscope⟩
  have happ := expressionTokens_append frame.inArguments
    (if first.kind = .leftParen then 1 else 0) frame.rest
  have hsuffix := List.suffix_append
    (expressionTokens frame.inArguments (if first.kind = .leftParen then 1 else 0) frame.rest).1
    (expressionTokens frame.inArguments (if first.kind = .leftParen then 1 else 0) frame.rest).2
  rw [happ] at hsuffix
  refine ⟨fun _ => .same _, ⟨Nat.le_trans hsuffix.length_le hlen, hstream.suffix hsuffix, hscope⟩,
    by simp, fun t ht => ?_⟩
  rcases List.mem_cons.1 ht with rfl | ht
  · exact hfirst
  · refine hstream.token t ?_
    rw [← happ]
    exact List.mem_append_left _ ht

end Reading

end Discipline

end Hive
