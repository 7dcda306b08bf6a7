import Hive.Evaluator.Expression
import Hive.Proofs.Entries
import Hive.Proofs.Relabeling
import Mathlib.Logic.Function.Basic

/-!
Renaming. A renaming gives every identifier another one, and no two the same. It acts on the tokens
of a program, and so on the names, parameters and bodies in a scope and on its keys. Names are only
ever compared, so what is looked up under a new name is what was there under the old one, renamed:
the operations on scopes and on the items of an expression are shown to come to the same here, up to
the names in their errors.
-/

namespace Hive

open Evaluator

/-- Whether a word is an identifier: a letter, followed by letters and digits, and none of the words
of the language. -/
def isIdentifier (word : String) : Bool :=
  match word.toList with
  | [] => false
  | c :: cs => c.isAlpha && cs.all Char.isAlphanum && TokenKind.ofWord word == .identifier

abbrev Identifier := { word : String // isIdentifier word = true }

/-- **A renaming** of identifiers. -/
structure Renaming where
  map : Identifier → Identifier
  injective : Function.Injective map

namespace Renaming

variable (ρ : Renaming)

/-- The new name of an identifier; other words stay as they are. -/
def word (w : String) : String :=
  if h : isIdentifier w = true then (ρ.map ⟨w, h⟩).val else w

/-- The datum with a new name, if it is an identifier. -/
def datum : Json → Json
  | .str w => .str (ρ.word w)
  | x => x

def token (t : Token) : Token :=
  if t.kind = .identifier then { t with lexeme := ρ.datum t.lexeme } else t

def var (v : Variable) : Variable := { v with name := ρ.token v.name }

def param (p : Parameter) : Parameter := { p with name := ρ.token p.name }

/-- The function with a new name, also for its parameters and for the identifiers in its body. -/
def func (f : Function) : Function :=
  ⟨ρ.token f.name, f.returns, f.parameters.map ρ.param, f.body.map ρ.token⟩

def entry : Entry → Entry
  | .var v => .var (ρ.var v)
  | .func f => .func (ρ.func f)

/-- The scope with new names, in its keys and in its entries. -/
def scope (s : Scope) : Scope := ⟨s.entries.map fun x => (ρ.datum x.1, ρ.entry x.2)⟩

def item : Item → Item
  | .token t => .token (ρ.token t)
  | .value v => .value v

/-! ### Names and data -/

lemma isIdentifier_word (w : String) : isIdentifier (ρ.word w) = isIdentifier w := by
  unfold word
  split
  · rename_i h
    rw [h]
    exact (ρ.map ⟨w, h⟩).2
  · rfl

lemma word_injective : Function.Injective ρ.word := by
  intro v w h
  have hsame : isIdentifier v = isIdentifier w := by
    rw [← ρ.isIdentifier_word v, ← ρ.isIdentifier_word w, h]
  unfold word at h
  by_cases hw : isIdentifier w = true
  · have hv := hsame.trans hw
    rw [dif_pos hv, dif_pos hw] at h
    exact congrArg Subtype.val (ρ.injective (Subtype.ext h))
  · have hv : ¬isIdentifier v = true := hsame ▸ hw
    rwa [dif_neg hv, dif_neg hw] at h

lemma datum_injective : Function.Injective ρ.datum := by
  intro x y h
  cases x with
  | str v =>
    cases y with
    | str w => rw [ρ.word_injective (Json.str.inj h)]
    | _ => cases h
  | _ =>
    cases y with
    | str w => cases h
    | _ => exact h

/-- Two data have the same key before and after they are renamed. -/
lemma key_datum (x : Json) : (ρ.datum x).key = x.key.map ρ.datum := by
  cases x with
  | flt y =>
    show Except.ok ((y.integer?.map Json.int).getD (.flt y)) =
      Except.ok (ρ.datum ((y.integer?.map Json.int).getD (.flt y)))
    cases y.integer? <;> rfl
  | _ => rfl

/-! ### Tokens -/

@[simp]
lemma token_kind (t : Token) : (ρ.token t).kind = t.kind := by
  unfold token
  split <;> rfl

@[simp]
lemma token_literal (t : Token) : (ρ.token t).literal = t.literal := by
  unfold token
  split <;> rfl

@[simp]
lemma token_line (t : Token) : (ρ.token t).line = t.line := by
  unfold token
  split <;> rfl

lemma token_of_kind {t : Token} (h : t.kind ≠ .identifier) : ρ.token t = t := if_neg h

lemma lexeme_of_kind {t : Token} (h : t.kind = .identifier) :
    (ρ.token t).lexeme = ρ.datum t.lexeme := by
  unfold token
  rw [if_pos h]

@[simp]
lemma token_atEnd (line : Int) : ρ.token (.atEnd line) = .atEnd line := ρ.token_of_kind nofun

@[simp]
lemma ofToken_token (t : Token) : Literal.ofToken (ρ.token t) = Literal.ofToken t := by
  unfold Literal.ofToken
  rw [token_kind, token_literal]

lemma name_entry (e : Entry) : (ρ.entry e).name = ρ.token e.name := by
  cases e <;> rfl

end Renaming

/-! ### Proper tokens -/

/-- A token that is no identifier is not written like one either. -/
def Token.Proper (t : Token) : Prop :=
  t.kind ≠ .identifier → ∀ word, t.lexeme = .str word → isIdentifier word = false

/-- The function and its parameters are named by identifiers, and the tokens of its body are
proper. -/
structure Function.Proper (f : Function) : Prop where
  name : f.name.kind = .identifier
  parameters : ∀ p ∈ f.parameters, p.name.kind = .identifier
  body : ∀ t ∈ f.body, t.Proper

/-- The entry is named by an identifier, and the tokens of a function are proper. -/
def Entry.Proper : Entry → Prop
  | .var v => v.name.kind = .identifier
  | .func f => f.Proper

def Scope.Proper (s : Scope) : Prop := ∀ x ∈ s.entries, x.2.Proper

lemma Token.proper_atEnd (line : Int) : (Token.atEnd line).Proper := by
  rintro - word ⟨⟩
  rfl

lemma Entry.Proper.name {e : Entry} (h : e.Proper) : e.name.kind = .identifier := by
  cases e with
  | var v => exact h
  | func f => exact Function.Proper.name h

/-- The lexeme of a proper token has a new name where the token has. -/
lemma Renaming.lexeme_token (ρ : Renaming) {t : Token} (ht : t.Proper) :
    (ρ.token t).lexeme = ρ.datum t.lexeme := by
  by_cases hkind : t.kind = .identifier
  · exact ρ.lexeme_of_kind hkind
  · rw [ρ.token_of_kind hkind]
    cases hlexeme : t.lexeme with
    | str w =>
      have hw : ¬isIdentifier w = true := by simp [ht hkind w hlexeme]
      show Json.str w = .str (ρ.word w)
      rw [Renaming.word, dif_neg hw]
    | _ => rfl

/-! ### Tables -/

namespace Table

variable {κ α β : Type} [DecidableEq κ] {g : κ → κ} (hg : Function.Injective g) (h : α → β)

include hg

lemma get?_map (key : κ) (table : List (κ × α)) :
    get? (g key) (table.map fun x => (g x.1, h x.2)) = (get? key table).map h := by
  induction table with
  | nil => rfl
  | cons x table ih =>
    obtain ⟨k, a⟩ := x
    by_cases hk : k = key
    · simp [get?, hk]
    · simp [get?, hk, hg.ne hk, ih]

lemma insert_map (key : κ) (a : α) (table : List (κ × α)) :
    insert (g key) (h a) (table.map fun x => (g x.1, h x.2)) =
      (insert key a table).map fun x => (g x.1, h x.2) := by
  induction table with
  | nil => rfl
  | cons x table ih =>
    obtain ⟨k, b⟩ := x
    by_cases hk : k = key
    · simp [insert, hk]
    · simp [insert, hk, hg.ne hk, ih]

lemma erase_map (key : κ) (table : List (κ × α)) :
    erase (g key) (table.map fun x => (g x.1, h x.2)) =
      (erase key table).map fun x => (g x.1, h x.2) := by
  induction table with
  | nil => rfl
  | cons x table ih =>
    obtain ⟨k, a⟩ := x
    by_cases hk : k = key
    · simp [erase, hk]
    · simp [erase, hk, hg.ne hk, ih]

end Table

/-! ### Operations on scopes that meet faults only -/

namespace Renaming

variable (ρ : Renaming) (s : Scope)

lemma find?_scope (x : Json) :
    (ρ.scope s).find? (ρ.datum x) = (s.find? x).map (Option.map ρ.entry) := by
  unfold Scope.find?
  rw [key_datum]
  cases x.key with
  | ok k => exact congrArg Except.ok (Table.get?_map ρ.datum_injective ρ.entry k s.entries)
  | error f => rfl

lemma contains_scope (x : Json) : (ρ.scope s).contains (ρ.datum x) = s.contains x := by
  unfold Scope.contains
  rw [find?_scope]
  cases s.find? x with
  | ok e => cases e <;> rfl
  | error f => rfl

lemma hasVariable_scope (x : Json) : (ρ.scope s).hasVariable (ρ.datum x) = s.hasVariable x := by
  unfold Scope.hasVariable
  rw [find?_scope]
  cases s.find? x with
  | ok e =>
    cases e with
    | none => rfl
    | some e => cases e <;> rfl
  | error f => rfl

lemma putAt_scope (x : Json) (e : Entry) :
    (ρ.scope s).putAt (ρ.datum x) (ρ.entry e) = (s.putAt x e).map ρ.scope := by
  unfold Scope.putAt
  rw [key_datum]
  cases x.key with
  | ok k =>
    exact congrArg (fun entries => Except.ok (Scope.mk entries))
      (Table.insert_map ρ.datum_injective ρ.entry k e s.entries)
  | error f => rfl

lemma erase_scope (x : Json) : (ρ.scope s).erase (ρ.datum x) = (s.erase x).map ρ.scope := by
  have hempty : (ρ.scope s).entries.isEmpty = s.entries.isEmpty := by simp [scope]
  unfold Scope.erase
  rw [hempty]
  split
  · rfl
  · rw [key_datum]
    cases x.key with
    | ok k =>
      exact congrArg (fun entries => Except.ok (Scope.mk entries))
        (Table.erase_map ρ.datum_injective ρ.entry k s.entries)
    | error f => rfl

end Renaming

/-! ### Errors that are alike -/

/-- **The failures are alike**: the same fault, or problems of one kind on the same line. -/
def Failure.Like : Failure → Failure → Prop
  | .error d, .error d' => d'.problem.kind = d.problem.kind ∧ d'.line = d.line
  | .fault f, .fault f' => f' = f
  | _, _ => False

lemma Failure.Like.refl (f : Failure) : f.Like f := by
  cases f with
  | error d => exact ⟨rfl, rfl⟩
  | fault f => rfl

section Matches

variable {α β γ δ : Type} {V : α → β → Prop} {W : γ → δ → Prop}

/-- **The results match**: they are related, or failures that are alike. -/
def Matches (V : α → β → Prop) : Except Failure α → Except Failure β → Prop
  | .ok a, .ok b => V a b
  | .error f, .error f' => f.Like f'
  | _, _ => False

namespace Matches

lemma problem {line : Int} {p p' : Problem} (h : p'.kind = p.kind) :
    Matches V (.error (.error (.on line p))) (.error (.error (.on line p'))) :=
  ⟨h, rfl⟩

lemma fault (f : Fault) : Matches V (.error (.fault f)) (.error (.fault f)) := rfl

lemma refl (x : Except Failure α) : Matches (· = ·) x x := by
  cases x with
  | ok a => rfl
  | error f => exact Failure.Like.refl f

lemma mono {V' : α → β → Prop} {x : Except Failure α} {y : Except Failure β} (h : Matches V x y)
    (hV : ∀ a b, V a b → V' a b) : Matches V' x y := by
  cases x <;> cases y
  · exact h
  · exact h.elim
  · exact h.elim
  · exact hV _ _ h

lemma bind {x : Except Failure α} {y : Except Failure β} {k : α → Except Failure γ}
    {l : β → Except Failure δ} (hx : Matches V x y) (hk : ∀ a b, V a b → Matches W (k a) (l b)) :
    Matches W (x >>= k) (y >>= l) := by
  cases x <;> cases y
  · exact hx
  · exact hx.elim
  · exact hx.elim
  · exact hk _ _ hx

lemma ofFault {x : Except Fault α} {y : Except Fault β} {g : α → β} (hy : y = x.map g)
    (hV : ∀ a, x = .ok a → V a (g a)) : Matches V (Failure.ofFault x) (Failure.ofFault y) := by
  subst hy
  cases x with
  | ok a => exact hV a rfl
  | error f => exact fault f

end Matches

end Matches

/-! ### Operations on scopes -/

namespace Scope.Proper

variable {s t : Scope}

lemma empty : Scope.empty.Proper := fun _ hx => absurd hx List.not_mem_nil

lemma putAt {name : Json} {e : Entry} (hs : s.Proper) (he : e.Proper)
    (h : s.putAt name e = .ok t) : t.Proper :=
  Scope.forall_putAt h hs fun _ _ => he

lemma erase {name : Json} (hs : s.Proper) (h : s.erase name = .ok t) : t.Proper :=
  Scope.forall_erase h hs

lemma find? {x : Json} {e : Entry} (hs : s.Proper) (h : s.find? x = .ok (some e)) : e.Proper := by
  obtain ⟨k, -, hmem⟩ := Scope.mem_of_find? h
  exact hs _ hmem

end Scope.Proper

namespace Renaming

variable (ρ : Renaming) {s : Scope} {name : Token}

/-- A proper scope and the same one renamed. -/
def Scopes (s t : Scope) : Prop := t = ρ.scope s ∧ s.Proper

/-- What is found under a new name is what was there under the old one. -/
lemma matches_find? (hs : s.Proper) (hname : name.kind = .identifier) :
    Matches (fun e e' => e' = e.map ρ.entry ∧ ∀ x ∈ e, x.Proper)
      (Failure.ofFault (s.find? name.lexeme))
      (Failure.ofFault ((ρ.scope s).find? (ρ.token name).lexeme)) := by
  rw [ρ.lexeme_of_kind hname]
  refine .ofFault (ρ.find?_scope s name.lexeme) fun e he => ⟨rfl, fun x hx => ?_⟩
  obtain rfl := Option.mem_def.1 hx
  exact hs.find? he

lemma matches_variableAt (hs : s.Proper) (hname : name.kind = .identifier) :
    Matches (fun v w => w = ρ.var v) (s.variableAt name)
      ((ρ.scope s).variableAt (ρ.token name)) := by
  refine (ρ.matches_find? hs hname).bind ?_
  rintro e _ ⟨rfl, -⟩
  cases e with
  | none => exact ⟨rfl, congrArg Json.int (ρ.token_line name)⟩
  | some e =>
    cases e with
    | var v => rfl
    | func f => exact ⟨rfl, congrArg Json.int (ρ.token_line name)⟩

lemma matches_functionAt (hs : s.Proper) (hname : name.kind = .identifier) :
    Matches (fun f g => g = ρ.func f ∧ f.Proper) (s.functionAt name)
      ((ρ.scope s).functionAt (ρ.token name)) := by
  refine (ρ.matches_find? hs hname).bind ?_
  rintro e _ ⟨rfl, he⟩
  cases e with
  | none => exact ⟨rfl, congrArg Json.int (ρ.token_line name)⟩
  | some e =>
    cases e with
    | var v => exact ⟨rfl, congrArg Json.int (ρ.token_line name)⟩
    | func f => exact ⟨rfl, he _ rfl⟩

lemma matches_ensureFree (hs : s.Proper) (hname : name.kind = .identifier) :
    Matches (· = ·) (s.ensureFree name) ((ρ.scope s).ensureFree (ρ.token name)) := by
  refine (ρ.matches_find? hs hname).bind ?_
  rintro e _ ⟨rfl, -⟩
  cases e with
  | none => rfl
  | some e => exact ⟨rfl, congrArg Json.int (ρ.token_line name)⟩

lemma matches_fitVariable (name : Token) (type : TokenKind) (v : Value) :
    Matches (· = ·) (Scope.fitVariable name type v) (Scope.fitVariable (ρ.token name) type v) := by
  unfold Scope.fitVariable
  rw [token_line]
  cases type.fit v with
  | ok l => rfl
  | error m =>
    cases m with
    | mismatch => exact .problem rfl
    | fault f => exact .fault f

lemma matches_putAt (hs : s.Proper) (x : Json) {e : Entry} (he : e.Proper) :
    Matches ρ.Scopes (Failure.ofFault (s.putAt x e))
      (Failure.ofFault ((ρ.scope s).putAt (ρ.datum x) (ρ.entry e))) :=
  .ofFault (ρ.putAt_scope s x e) fun _ ht => ⟨rfl, hs.putAt he ht⟩

lemma matches_put (hs : s.Proper) {e : Entry} (he : e.Proper) :
    Matches ρ.Scopes (Failure.ofFault (s.put e))
      (Failure.ofFault ((ρ.scope s).put (ρ.entry e))) := by
  unfold Scope.put
  rw [name_entry, ρ.lexeme_of_kind he.name]
  exact ρ.matches_putAt hs _ he

lemma matches_declare (hs : s.Proper) (hname : name.kind = .identifier) (type : TokenKind)
    (v : Value) :
    Matches (fun p q => q.1 = ρ.var p.1 ∧ ρ.Scopes p.2 q.2) (s.declare name type v)
      ((ρ.scope s).declare (ρ.token name) type v) := by
  refine (ρ.matches_ensureFree hs hname).bind fun _ _ _ => ?_
  refine (ρ.matches_fitVariable name type v).bind ?_
  rintro l _ rfl
  have hvar : (Entry.var ⟨name, some l, type⟩).Proper := hname
  exact (ρ.matches_put hs hvar).bind fun t u htu => ⟨rfl, htu⟩

lemma matches_define (hs : s.Proper) {f : Function} (hf : f.Proper) :
    Matches ρ.Scopes (s.define f) ((ρ.scope s).define (ρ.func f)) :=
  (ρ.matches_ensureFree hs hf.name).bind fun _ _ _ => ρ.matches_put (e := .func f) hs hf

lemma matches_assign (hs : s.Proper) (hname : name.kind = .identifier) (v : Value) :
    Matches (fun p q => q.1 = p.1 ∧ ρ.Scopes p.2 q.2) (s.assign name v)
      ((ρ.scope s).assign (ρ.token name) v) := by
  refine (ρ.matches_find? hs hname).bind ?_
  rintro e _ ⟨rfl, he⟩
  cases e with
  | none => exact ⟨rfl, congrArg Json.int (ρ.token_line name)⟩
  | some e =>
    cases e with
    | func f => exact ⟨rfl, congrArg Json.int (ρ.token_line name)⟩
    | var w =>
      refine (ρ.matches_fitVariable name w.type v).bind ?_
      rintro l _ rfl
      have hvar : (Entry.var { w with value := some l }).Proper := he (.var w) rfl
      rw [ρ.lexeme_of_kind hname]
      exact (ρ.matches_putAt hs name.lexeme hvar).bind fun t u htu => ⟨rfl, htu⟩

lemma matches_bindAll {pairs : List (Parameter × Value)}
    (hpairs : ∀ x ∈ pairs, x.1.name.kind = .identifier) (line : Int) (hs : s.Proper) :
    Matches ρ.Scopes (pairs.foldlM (Function.bindArguments.bindOne line) s)
      ((pairs.map fun x => (ρ.param x.1, x.2)).foldlM (Function.bindArguments.bindOne line)
        (ρ.scope s)) := by
  induction pairs generalizing s with
  | nil => exact ⟨rfl, hs⟩
  | cons x pairs ih =>
    obtain ⟨p, v⟩ := x
    rw [List.map_cons, List.foldlM_cons, List.foldlM_cons]
    refine Matches.bind (V := ρ.Scopes) ?_ ?_
    · show Matches ρ.Scopes (Function.bindArguments.bindOne line s (p, v))
        (Function.bindArguments.bindOne line (ρ.scope s) (ρ.param p, v))
      unfold Function.bindArguments.bindOne
      have htype : (ρ.param p).type = p.type := rfl
      dsimp only
      rw [htype]
      cases p.type.fit v with
      | ok l =>
        have hvar : (Entry.var ⟨p.name, some l, p.type⟩).Proper := hpairs (p, v) (by simp)
        exact ρ.matches_put hs hvar
      | error m =>
        cases m with
        | mismatch => exact .problem rfl
        | fault f => exact .fault f
    · rintro t _ ⟨rfl, ht⟩
      exact ih (fun y hy => hpairs y (by simp [hy])) ht

lemma matches_bindArguments {f : Function} (hf : f.Proper) (line : Int) (arguments : List Value) :
    Matches ρ.Scopes (f.bindArguments line arguments)
      ((ρ.func f).bindArguments line arguments) := by
  have hlength : (ρ.func f).parameters.length = f.parameters.length := List.length_map ..
  have hzip : (ρ.func f).parameters.zip arguments =
      (f.parameters.zip arguments).map fun x => (ρ.param x.1, x.2) := by
    show (f.parameters.map ρ.param).zip arguments = _
    rw [List.zip_map_left]
    rfl
  have hpairs : ∀ x ∈ f.parameters.zip arguments, x.1.name.kind = .identifier :=
    fun x hx => hf.parameters x.1 (List.of_mem_zip hx).1
  unfold Function.bindArguments
  rw [hlength, hzip]
  split
  · exact .problem rfl
  · exact ρ.matches_bindAll hpairs line Scope.Proper.empty

/-! ### Operands -/

/-- What is put in the place of a first token is no identifier, so there is no name in it. -/
lemma matches_substitute (hs : s.Proper) (t : Token) :
    Matches (fun u u' => u' = ρ.token u ∧ u.kind ≠ .identifier) (substitute s t)
      (substitute (ρ.scope s) (ρ.token t)) := by
  unfold substitute
  rw [token_kind]
  split
  · rename_i hkind
    refine (ρ.matches_variableAt hs hkind).bind ?_
    rintro v _ rfl
    have hvalue : (ρ.var v).value = v.value := rfl
    rw [hvalue, token_line]
    cases v.value with
    | none => exact .fault _
    | some l =>
      dsimp only
      refine .ofFault (g := id) (Except.map_id.symm ▸ rfl) fun u hu => ?_
      obtain ⟨text, -, hu⟩ := ok_of_bind hu
      -- the value is written as a literal, which a renaming leaves as it is
      have hkind : u.kind ≠ .identifier := by
        rw [← Except.ok.inj hu]
        exact nofun
      exact ⟨(ρ.token_of_kind hkind).symm, hkind⟩
  · rename_i hkind
    exact ⟨rfl, hkind⟩

lemma matches_resolve (hs : s.Proper) (line : Int) (i : Item) :
    Matches (· = ·) (resolve s line i) (resolve (ρ.scope s) line (ρ.item i)) := by
  cases i with
  | value v => cases v <;> exact .refl _
  | token t =>
    show Matches _ (resolve s line (.token t)) (resolve (ρ.scope s) line (.token (ρ.token t)))
    by_cases hkind : t.kind = .identifier
    · have hkind' : (ρ.token t).kind = .identifier := (ρ.token_kind t).trans hkind
      rw [resolve_identifier s line hkind, resolve_identifier (ρ.scope s) line hkind']
      refine (ρ.matches_variableAt hs hkind).bind ?_
      rintro v _ rfl
      rfl
    · rw [ρ.token_of_kind hkind]
      unfold resolve
      dsimp only
      split
      · exact absurd ‹_› hkind
      · exact .refl _
      · exact .refl _
      · exact .refl _
      · exact .refl _

/-! ### Items -/

lemma relabels_token : Relabels ρ.token := fun t => .inl (ρ.token_kind t)

lemma item_eq : ρ.item = Item.relabel ρ.token := by
  funext i
  cases i <;> rfl

def reduction : Reduction → Reduction
  | .nothing => .nothing
  | .unclosed opening => .unclosed (ρ.token opening)
  | .group before inner closing after =>
    .group (before.map ρ.item) (inner.map ρ.item) (ρ.token closing) (after.map ρ.item)
  | .dangling op => .dangling (ρ.token op)
  | .apply before left op operator right after =>
    .apply (before.map ρ.item) (ρ.item left) (ρ.token op) operator (ρ.item right)
      (after.map ρ.item)

/-- **Renamed items are worked out in the same order.** -/
lemma reduction_item (items : List Item) :
    Evaluator.reduction (items.map ρ.item) = ρ.reduction (Evaluator.reduction items) := by
  rw [item_eq, ρ.relabels_token.reduction]
  cases Evaluator.reduction items <;> simp only [reduction, Reduction.relabel, item_eq]

lemma firstJoint?_item (items : List Item) :
    firstJoint? (items.map ρ.item) = (firstJoint? items).map fun x =>
      (ρ.token x.1, x.2.1.map ρ.item, ρ.item x.2.2.1, ρ.item x.2.2.2.1, x.2.2.2.2.map ρ.item) := by
  rw [item_eq, ρ.relabels_token.firstJoint?]

end Renaming

end Hive
