import Hive.Proofs.Entries
import Hive.Proofs.Evaluation
import Hive.Proofs.Numbers

/-!
Typed scopes. Every entry is found under its own name, a variable holds a literal of its declared
type, and a function has the shape that a declaration gives it. Programs that come from a text have
**sound** tokens besides, and then the literals in a scope are sound too. `typing` is the discipline
of both; operations on sound values meet no fault but a limit on numbers.
-/

namespace Hive

open Evaluator

/-! ### Typed entries -/

/-- The variable holds a literal of its declared type. -/
def Variable.Typed (v : Variable) : Prop :=
  v.value.map (fun l => TokenKind.typeName l.type) = some v.type

/-- The function has a declared type, parameters with a type and a name each, and a body that stops
before the brace which closes it. -/
def Function.Typed (f : Function) : Prop :=
  f.returns.isTypeName = true ∧
  (∀ p ∈ f.parameters, p.type.isTypeName = true ∧ p.name.kind = .identifier) ∧
  ∀ t ∈ f.body, t.kind ≠ .rightBrace ∧ t.kind ≠ .endOfInput

def Entry.Typed : Entry → Prop
  | .var v => v.Typed
  | .func f => f.Typed

/-- **The scope is typed**: its entries are, and stand under the keys of their names. -/
def Scope.Typed (s : Scope) : Prop :=
  ∀ x ∈ s.entries, x.2.name.lexeme.key.toOption = some x.1 ∧ x.2.Typed

instance : DecidablePred Variable.Typed := fun v =>
  inferInstanceAs (Decidable (v.value.map _ = some v.type))

instance : DecidablePred Function.Typed := fun f =>
  inferInstanceAs (Decidable (f.returns.isTypeName = true ∧ _ ∧ _))

instance : DecidablePred Entry.Typed
  | .var v => inferInstanceAs (Decidable v.Typed)
  | .func f => inferInstanceAs (Decidable f.Typed)

instance : DecidablePred Scope.Typed := fun s =>
  inferInstanceAs (Decidable (∀ x ∈ s.entries, _ ∧ x.2.Typed))

/-! ### Sound tokens and entries -/

/-- The token is one that a text can have: its lexeme is a text, and the literal that it stands for,
if it does, is sound. -/
def Token.Sound (t : Token) : Prop :=
  (∃ s, t.lexeme = .str s) ∧ ∀ l, Literal.ofToken t = .ok l → l.isSound = true

def Function.Sound (f : Function) : Prop :=
  (∀ p ∈ f.parameters, p.name.Sound) ∧ ∀ t ∈ f.body, t.Sound

/-- The literal of a variable is sound, and so are the tokens of a function. -/
def Entry.Sound : Entry → Prop
  | .var v => ∀ l ∈ v.value, l.isSound = true
  | .func f => f.Sound

def Scope.Sound (s : Scope) : Prop := ∀ x ∈ s.entries, x.2.Sound

def Value.Sound (v : Value) : Prop := ∀ l ∈ v, l.isSound = true

instance : DecidablePred Token.Sound := fun t =>
  have : Decidable (∃ s, t.lexeme = .str s) :=
    match t.lexeme with
    | .str s => .isTrue ⟨s, rfl⟩
    | .null | .bool _ | .int _ | .flt _ | .arr _ | .obj _ => .isFalse nofun
  have : Decidable (∀ l, Literal.ofToken t = .ok l → l.isSound = true) :=
    match Literal.ofToken t with
    | .ok l => decidable_of_iff (l.isSound = true) ⟨fun h _ hl => Except.ok.inj hl ▸ h, (· l rfl)⟩
    | .error _ => .isTrue nofun
  inferInstanceAs (Decidable (_ ∧ _))

instance : DecidablePred Function.Sound := fun f =>
  inferInstanceAs (Decidable ((∀ p ∈ f.parameters, p.name.Sound) ∧ ∀ t ∈ f.body, t.Sound))

instance : DecidablePred Entry.Sound
  | .var v => inferInstanceAs (Decidable (∀ l ∈ v.value, l.isSound = true))
  | .func f => inferInstanceAs (Decidable f.Sound)

instance : DecidablePred Scope.Sound := fun s =>
  inferInstanceAs (Decidable (∀ x ∈ s.entries, x.2.Sound))

lemma Variable.Typed.exists_value {v : Variable} (h : v.Typed) :
    ∃ l, v.value = some l ∧ v.type = .typeName l.type := by
  obtain ⟨l, hl, ht⟩ := Option.map_eq_some_iff.1 h
  exact ⟨l, hl, ht.symm⟩

/-- The sound literals are those of integers, doubles, texts and truth values. -/
lemma Literal.forms {l : Literal} (h : l.isSound = true) :
    (∃ n, l = .int n) ∨ (∃ x, l = .flt x) ∨ (∃ s, l = .str s) ∨ ∃ b, l = .bool b := by
  obtain ⟨type, datum⟩ := l
  revert h
  cases type <;> cases datum <;> simp [isSound, int, flt, str, bool]

/-! ### The discipline of types -/

/-- **The discipline of types.** Where programs are lexed, tokens and values are sound, and only
limits on numbers come up as faults. -/
def typing (lexed : Prop) : Discipline where
  token t := lexed → t.Sound
  place _ := True
  value v := lexed → Value.Sound v
  scope s := s.Typed ∧ (lexed → s.Sound)
  callee f := f.Typed ∧ (lexed → f.Sound)
  programs p q := q = p ∧ p.Typed ∧ (lexed → p.Sound)
  fault f := lexed → f.isNumeric = true
  exhausted := True
  cut := False

namespace Typing

variable {lexed : Prop}

/-- What a typed scope says of one entry. -/
def stored (lexed : Prop) (x : Json × Entry) : Prop :=
  (x.2.name.lexeme.key.toOption = some x.1 ∧ x.2.Typed) ∧ (lexed → x.2.Sound)

lemma scope_iff {s : Scope} : (typing lexed).scope s ↔ ∀ x ∈ s.entries, stored lexed x :=
  ⟨fun h x hx => ⟨h.1 x hx, fun hl => h.2 hl x hx⟩,
    fun h => ⟨fun x hx => (h x hx).1, fun hl x hx => (h x hx).2 hl⟩⟩

lemma value_some {l : Literal} (h : lexed → l.isSound = true) : (typing lexed).value (some l) := by
  intro hlexed m hm
  obtain rfl := Option.mem_some.1 hm
  exact h hlexed

lemma scope_empty : (typing lexed).scope .empty :=
  scope_iff.2 fun _ hx => absurd hx List.not_mem_nil

/-- An entry that is typed, and sound in a lexed program, may be put into a scope, under the key of
its own name. -/
lemma meets_putAt {s : Scope} {name : Json} {e : Entry} (hs : (typing lexed).scope s)
    (hkey : (typing lexed).Meets (fun _ => True) name.key) (hown : e.name.lexeme.key = name.key)
    (ht : e.Typed) (he : lexed → e.Sound) :
    (typing lexed).Meets (typing lexed).scope (s.putAt name e) := by
  cases hp : s.putAt name e with
  | ok t =>
    refine scope_iff.2 (Scope.forall_putAt hp (scope_iff.1 hs) fun k hk => ⟨⟨?_, ht⟩, he⟩)
    rw [hown, hk]
    rfl
  | error f =>
    rw [Scope.putAt_eq_error.1 hp] at hkey
    exact hkey

lemma meets_put {s : Scope} {e : Entry} (hs : (typing lexed).scope s)
    (hkey : (typing lexed).Meets (fun _ => True) e.name.lexeme.key) (ht : e.Typed)
    (he : lexed → e.Sound) : (typing lexed).Meets (typing lexed).scope (s.put e) :=
  meets_putAt hs hkey rfl ht he

/-! ### Finding entries -/

lemma meets_key {t : Token} (ht : (typing lexed).token t) :
    (typing lexed).Meets (fun _ => True) t.lexeme.key := by
  cases hk : t.lexeme.key with
  | ok k => trivial
  | error f =>
    intro hl
    obtain ⟨s, hs⟩ := (ht hl).1
    rw [hs] at hk
    cases hk

lemma key_of_toOption {x : Except Fault Json} {k : Json} (h : x.toOption = some k) : x = .ok k := by
  cases x with
  | ok j => exact congrArg Except.ok (Option.some.inj h)
  | error f => cases h

lemma meets_find? {s : Scope} {name : Token} (hs : (typing lexed).scope s)
    (hname : (typing lexed).token name) :
    (typing lexed).Meets (fun e => ∀ x ∈ e, x.Typed ∧ (lexed → x.Sound) ∧
      x.name.lexeme.key = name.lexeme.key) (s.find? name.lexeme) := by
  have hkey := meets_key hname
  cases hf : s.find? name.lexeme with
  | ok e =>
    rintro x rfl
    obtain ⟨k, hk, hx⟩ := Scope.mem_of_find? hf
    obtain ⟨⟨hstored, ht⟩, hsound⟩ := scope_iff.1 hs _ hx
    exact ⟨ht, hsound, (key_of_toOption hstored).trans hk.symm⟩
  | error f =>
    rw [Scope.find?_eq_error.1 hf] at hkey
    exact hkey

lemma checks_variableAt {s : Scope} {name : Token} (hs : (typing lexed).scope s)
    (hname : (typing lexed).token name) :
    (typing lexed).Checks (fun v => v.Typed ∧ (lexed → Value.Sound v.value))
      (s.variableAt name) := by
  refine Discipline.checks_bind (Discipline.checks_ofFault (meets_find? hs hname)) fun e he => ?_
  split
  · exact ⟨(he _ rfl).1, (he _ rfl).2.1⟩
  · trivial

lemma checks_functionAt {s : Scope} {name : Token} (hs : (typing lexed).scope s)
    (hname : (typing lexed).token name) :
    (typing lexed).Checks (typing lexed).callee (s.functionAt name) := by
  refine Discipline.checks_bind (Discipline.checks_ofFault (meets_find? hs hname)) fun e he => ?_
  split
  · exact ⟨(he _ rfl).1, (he _ rfl).2.1⟩
  · trivial

lemma checks_ensureFree {s : Scope} {name : Token} (hname : (typing lexed).token name) :
    (typing lexed).Checks (fun _ => True) (s.ensureFree name) := by
  have hfind : (typing lexed).Meets (fun _ => True) (s.find? name.lexeme) :=
    Discipline.meets_bind (meets_key hname) fun _ _ => trivial
  refine Discipline.checks_bind (Discipline.checks_ofFault hfind) fun e _ => ?_
  split
  · trivial
  · trivial

/-! ### Values and tokens -/

lemma meets_text {v : Value} : (typing lexed).Meets (fun _ => True) (Value.text v) := by
  cases h : Value.text v with
  | ok s => trivial
  | error f =>
    cases v with
    | none => cases h
    | some l => exact fun _ => Literal.isNumeric_text h

lemma value_ofToken {t : Token} {l : Literal} (ht : (typing lexed).token t)
    (h : Literal.ofToken t = .ok l) : (typing lexed).value (some l) :=
  value_some fun hlexed => (ht hlexed).2 l h

lemma checks_toToken {l : Literal} (hl : lexed → l.isSound = true) (line : Int) :
    (typing lexed).Checks (typing lexed).token (Failure.ofFault (l.toToken line)) := by
  refine Discipline.checks_ofFault (Discipline.meets_bind (meets_text (v := some l)) fun s _ => ?_)
  refine fun hlexed => ⟨⟨s, rfl⟩, fun m hm => ?_⟩
  cases hm
  exact hl hlexed

lemma checks_substitute {s : Scope} {t : Token} (hs : (typing lexed).scope s)
    (ht : (typing lexed).token t) :
    (typing lexed).Checks (typing lexed).token (substitute s t) := by
  unfold substitute
  split
  · refine Discipline.checks_bind (checks_variableAt hs ht) fun v hv => ?_
    obtain ⟨l, hl, -⟩ := hv.1.exists_value
    rw [hl]
    exact checks_toToken (fun h => hv.2 h l hl) t.line
  · exact ht

lemma checks_resolve {s : Scope} {t : Token} {line : Int} (hs : (typing lexed).scope s)
    (ht : (typing lexed).token t) :
    (typing lexed).Checks (typing lexed).operand (resolve s line (.token t)) := by
  have hliteral : ∀ l, Literal.ofToken t = .ok l → (typing lexed).Checks (typing lexed).operand
      (Failure.ofFault ((Literal.ofToken t).map some)) := by
    intro l hl
    rw [hl]
    exact ⟨value_ofToken ht hl, nofun⟩
  unfold resolve
  dsimp only
  split
  · refine Discipline.checks_bind (checks_variableAt hs ht) fun v hv => ?_
    obtain ⟨l, hl, -⟩ := hv.1.exists_value
    exact ⟨hv.2, fun hnone => by rw [hl] at hnone; cases hnone⟩
  · rename_i h
    exact hliteral _ (Discipline.ofToken_of_literal h)
  · rename_i h
    exact hliteral (.bool true) (by simp [Literal.ofToken, h])
  · rename_i h
    exact hliteral (.bool false) (by simp [Literal.ofToken, h])
  · trivial

/-! ### Storing values -/

/-- A value that fits becomes a literal of the declared type, and a sound one if it was sound. -/
lemma fit_spec {type : TokenKind} {v : Value} (htype : type.isTypeName = true)
    (hv : (typing lexed).value v) :
    (∃ l, type.fit v = .ok l ∧ type = .typeName l.type ∧ (lexed → l.isSound = true)) ∨
      type.fit v = .error .mismatch ∨
      ∃ f, type.fit v = .error (.fault f) ∧ (typing lexed).fault f := by
  obtain ⟨ty, hty⟩ := Option.isSome_iff_exists.1 htype
  have hkind : type = .typeName ty := by
    cases type with
    | typeName ty' => cases hty; rfl
    | _ => cases hty
  have hfit : type.fit v = ty.fit v := by simp [TokenKind.fit, hty]
  rw [hfit]
  cases v with
  | none => exact .inr (.inl rfl)
  | some l =>
    unfold Ty.fit
    dsimp only
    split
    · rename_i hl
      exact .inl ⟨l, rfl, by rw [hl, hkind], fun h => hv h l rfl⟩
    split
    · rename_i hne h
      split
      · exact .inl ⟨_, rfl, by rw [hkind, h.1]; rfl, fun _ => rfl⟩
      · exact .inr (.inl rfl)
      · rename_i f _ hd
        refine .inr (.inr ⟨f, rfl, fun hlexed => ?_⟩)
        -- the literal is an integer, so its datum is one
        rcases Literal.forms (hv hlexed l rfl) with ⟨n, rfl⟩ | ⟨x, rfl⟩ | ⟨s, rfl⟩ | ⟨b, rfl⟩
        · exact isNumeric_doubleOfInteger hd
        · cases h.2
        · cases h.2
        · cases h.2
    · exact .inr (.inl rfl)

lemma checks_fitVariable {name : Token} {type : TokenKind} {v : Value}
    (htype : type.isTypeName = true) (hv : (typing lexed).value v) :
    (typing lexed).Checks (fun l => type = .typeName l.type ∧ (lexed → l.isSound = true))
      (Scope.fitVariable name type v) := by
  unfold Scope.fitVariable
  rcases fit_spec htype hv with ⟨l, h, hl⟩ | h | ⟨f, h, hf⟩
  · rw [h]
    exact hl
  · rw [h]
    trivial
  · rw [h]
    exact hf

lemma typed_mk {name : Token} {type : TokenKind} {l : Literal} (h : type = .typeName l.type) :
    (Entry.var ⟨name, some l, type⟩).Typed := congrArg some h.symm

lemma sound_mk {name : Token} {type : TokenKind} {l : Literal} (h : lexed → l.isSound = true) :
    lexed → (Entry.var ⟨name, some l, type⟩).Sound := value_some h

lemma checks_assign {s : Scope} {name : Token} {v : Value} (hs : (typing lexed).scope s)
    (hname : (typing lexed).token name) (hv : (typing lexed).value v) :
    (typing lexed).Checks (fun p => (typing lexed).value (some p.1) ∧ (typing lexed).scope p.2)
      (s.assign name v) := by
  refine Discipline.checks_bind (Discipline.checks_ofFault (meets_find? hs hname)) fun e he => ?_
  split
  · rename_i w
    obtain ⟨hw, -, hown⟩ := he _ rfl
    obtain ⟨old, -, hold⟩ := hw.exists_value
    refine Discipline.checks_bind (checks_fitVariable (by rw [hold]; rfl) hv) fun l hl => ?_
    exact Discipline.checks_bind (Discipline.checks_ofFault (meets_putAt hs (meets_key hname) hown
      (typed_mk hl.1) (sound_mk hl.2))) fun t ht => ⟨value_some hl.2, ht⟩
  · trivial

lemma checks_declare {s : Scope} {name : Token} {type : TokenKind} {v : Value}
    (hs : (typing lexed).scope s) (hname : (typing lexed).token name)
    (htype : type.isTypeName = true) (hv : (typing lexed).value v) :
    (typing lexed).Checks
      (fun p => (typing lexed).value p.1.value ∧ (typing lexed).scope p.2)
      (s.declare name type v) := by
  refine Discipline.checks_bind (checks_ensureFree hname) fun _ _ => ?_
  refine Discipline.checks_bind (checks_fitVariable htype hv) fun l hl => ?_
  exact Discipline.checks_bind (Discipline.checks_ofFault (meets_put hs (meets_key hname)
    (typed_mk hl.1) (sound_mk hl.2))) fun t ht => ⟨value_some hl.2, ht⟩

lemma checks_define {s : Scope} {f : Function} {closing : Token} (hs : (typing lexed).scope s)
    (hf : (typing lexed).Declares f closing) :
    (typing lexed).Checks (typing lexed).scope (s.define f) := by
  refine Discipline.checks_bind (checks_ensureFree hf.name) fun _ _ => Discipline.checks_ofFault
    (meets_put hs (meets_key hf.name) ⟨hf.returns, fun p hp => ?_, fun t ht => ?_⟩
      fun h => ⟨fun p hp => (hf.parameters p hp).1 h, fun t ht => (hf.body t ht).1 h⟩)
  · exact ⟨(hf.parameters p hp).2.2, (hf.parameters p hp).2.1⟩
  · have := (hf.body t ht).2
    constructor
    · intro hk
      rw [hk] at this
      cases this
    · intro hk
      rw [hk] at this
      cases this

lemma meets_erase {s : Scope} {name : Token} (hs : (typing lexed).scope s)
    (hname : (typing lexed).token name) :
    (typing lexed).Meets (typing lexed).scope (s.erase name.lexeme) := by
  have hkey := meets_key hname
  cases he : s.erase name.lexeme with
  | ok t => exact scope_iff.2 (Scope.forall_erase he (scope_iff.1 hs))
  | error f =>
    rw [Scope.key_of_erase he] at hkey
    exact hkey

lemma checks_bindOne {f : Function} (hf : (typing lexed).callee f) {p : Parameter}
    (hp : p ∈ f.parameters) {v : Value} (hv : (typing lexed).value v) {line : Int} {own : Scope}
    (hown : (typing lexed).scope own) :
    (typing lexed).Checks (typing lexed).scope
      (Function.bindArguments.bindOne line own (p, v)) := by
  obtain ⟨htype, -⟩ := hf.1.2.1 p hp
  have hname : (typing lexed).token p.name := fun hlexed => (hf.2 hlexed).1 p hp
  unfold Function.bindArguments.bindOne
  rcases fit_spec htype hv with ⟨l, h, hl, hsound⟩ | h | ⟨g, h, hg⟩
  · simp only [h]
    exact Discipline.checks_ofFault (meets_put hown (meets_key hname) (typed_mk hl)
      (sound_mk hsound))
  · simp only [h]
    trivial
  · simp only [h]
    exact hg

lemma checks_bindAll {f : Function} (hf : (typing lexed).callee f)
    {pairs : List (Parameter × Value)}
    (hpairs : ∀ x ∈ pairs, x.1 ∈ f.parameters ∧ (typing lexed).value x.2) {line : Int}
    {own : Scope} (hown : (typing lexed).scope own) :
    (typing lexed).Checks (typing lexed).scope
      (pairs.foldlM (Function.bindArguments.bindOne line) own) := by
  induction pairs generalizing own with
  | nil => exact hown
  | cons x pairs ih =>
    obtain ⟨hp, hv⟩ := hpairs x (by simp)
    rw [List.foldlM_cons]
    exact Discipline.checks_bind (checks_bindOne hf hp hv hown) fun t ht =>
      ih (fun y hy => hpairs y (by simp [hy])) ht

lemma checks_bindArguments {f : Function} {arguments : List Value} {line : Int}
    (hf : (typing lexed).callee f) (ha : ∀ v ∈ arguments, (typing lexed).value v) :
    (typing lexed).Checks (typing lexed).scope (f.bindArguments line arguments) := by
  unfold Function.bindArguments
  split
  · trivial
  · have hpairs : ∀ x ∈ f.parameters.zip arguments,
        x.1 ∈ f.parameters ∧ (typing lexed).value x.2 := by
      rintro ⟨p, v⟩ hx
      obtain ⟨hp, hv⟩ := List.of_mem_zip hx
      exact ⟨hp, ha v hv⟩
    exact checks_bindAll hf hpairs scope_empty

end Typing

end Hive
