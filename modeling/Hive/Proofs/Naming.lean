import Hive.Proofs.Observations
import Hive.Proofs.Segmentation

/-!
The names in the scopes of a session of texts are words: the only tokens that declare something are
identifiers, and a lexed identifier starts with a letter and goes on with letters and digits. So
there is never an entry under the lexeme of the end or of a mark.
-/

namespace Hive

open Evaluator

/-- **The datum is a name**: a letter, followed by letters and digits. -/
def Json.IsName (x : Json) : Prop :=
  ∃ c cs, x = .str (String.ofList (c :: cs)) ∧ c.isAlpha = true ∧ ∀ d ∈ cs, d.isAlphanum = true

/-- If the token is an identifier, its lexeme is a name. -/
def Token.Named (t : Token) : Prop := t.kind = .identifier → t.lexeme.IsName

/-- **The demand that all is named by names**: entries, the parameters of functions, and the
identifiers in their bodies. -/
def naming : Demands where
  token := Token.Named
  value _ := True
  entry
    | .var v => v.name.lexeme.IsName
    | .func f => f.name.lexeme.IsName ∧ (∀ p ∈ f.parameters, p.name.lexeme.IsName) ∧
        ∀ t ∈ f.body, t.Named

/-- **Names are names in the whole course of an evaluation.** -/
theorem naming_lasting : naming.Lasting where
  token_atEnd _ := nofun
  token_toToken {l line t} _ h := by
    -- a value is written as a literal, so it is no name
    unfold Literal.toToken at h
    cases htext : l.text with
    | ok text =>
      rw [htext] at h
      obtain rfl := Except.ok.inj h
      exact nofun
    | error f =>
      rw [htext] at h
      cases h
  value_nil := trivial
  value_bool _ := trivial
  value_flt _ := trivial
  value_str _ := trivial
  value_ofToken _ _ := trivial
  value_applyOperator _ := trivial
  value_of_entry _ := trivial
  entry_declare hname hid _ := hname hid
  entry_assign hv _ := hv
  entry_define hf := by
    refine ⟨hf.name hf.isIdentifier, fun p hp => ?_, fun t ht => (hf.body t ht).1⟩
    obtain ⟨hname, hid, -⟩ := hf.parameters p hp
    exact hname hid
  entry_bind hf hp _ := hf.2.1 _ hp
  body hf := hf.2.2

/-! ### Scopes of names -/

/-- **All entries of the scope are named by names**, and so are their keys. -/
def Scope.Named (s : Scope) : Prop := ∀ x ∈ s.entries, x.1.IsName ∧ x.2.name.lexeme.IsName

namespace Naming

lemma named_of_naming {s : Scope} (hs : naming.scope s) : s.Named := by
  rintro ⟨key, entry⟩ hx
  obtain ⟨hkey, hentry⟩ := hs _ hx
  have hname : entry.name.lexeme.IsName := by
    cases entry with
    | var v => exact hentry
    | func f => exact hentry.1
  refine ⟨?_, hname⟩
  obtain ⟨c, cs, hlexeme, hword⟩ := hname
  rw [hlexeme, Json.key_str] at hkey
  exact ⟨c, cs, (Except.ok.inj hkey).symm, hword⟩

/-- A name differs from every text that starts with no letter. -/
lemma ne_of_isName {x : Json} (hx : x.IsName) {s : String}
    (hs : ∀ c ∈ s.toList.head?, c.isAlpha = false) : x ≠ .str s := by
  rintro rfl
  obtain ⟨c, cs, heq, hc, -⟩ := hx
  obtain rfl := Json.str.inj heq
  rw [String.toList_ofList] at hs
  rw [hs c rfl] at hc
  cases hc

lemma erase_absent {κ α : Type} [DecidableEq κ] {key : κ} {table : List (κ × α)}
    (h : ∀ x ∈ table, x.1 ≠ key) : Table.erase key table = table := by
  induction table with
  | nil => rfl
  | cons x table ih =>
    unfold Table.erase
    rw [if_neg (h x (by simp)), ih fun y hy => h y (by simp [hy])]

/-- There is nothing to remove under a text that starts with no letter. -/
lemma erase_eq {s : Scope} (hs : s.Named) {text : String}
    (htext : ∀ c ∈ text.toList.head?, c.isAlpha = false) : s.erase (.str text) = .ok s := by
  unfold Scope.erase
  split
  · rfl
  · rw [Json.key_str]
    show Except.ok (⟨Table.erase (.str text) s.entries⟩ : Scope) = .ok s
    rw [erase_absent fun x hx => ne_of_isName (hs x hx).1 htext]

lemma named_put {s t : Scope} {e : Entry} (h : s.put e = .ok t) (hs : s.Named)
    (he : e.name.lexeme.IsName) : t.Named := by
  refine Scope.forall_put h hs fun k hk => ⟨?_, he⟩
  obtain ⟨c, cs, hlexeme, hword⟩ := he
  rw [hlexeme, Json.key_str] at hk
  exact ⟨c, cs, (Except.ok.inj hk).symm, hword⟩

lemma named_erase {s t : Scope} {name : Json} (hs : s.Named) (h : s.erase name = .ok t) :
    t.Named :=
  Scope.forall_erase h hs

lemma named_assign {s t : Scope} {name : Token} {v : Value} {l : Literal} (hs : s.Named)
    (h : s.assign name v = .ok (l, t)) : t.Named := by
  obtain ⟨k, x, -, hget, -, rfl⟩ := Scope.exists_of_assign h
  have hx := hs _ (Table.mem_of_get? hget)
  intro y hy
  rcases Table.mem_insert hy with rfl | hy
  · exact hx
  · exact hs y hy

lemma named_declare {s t : Scope} {name : Token} {type : TokenKind} {v : Value} {x : Variable}
    (hs : s.Named) (hname : name.lexeme.IsName) (h : s.declare name type v = .ok (x, t)) :
    t.Named := by
  obtain ⟨-, -, h⟩ := ok_of_bind h
  obtain ⟨l, -, h⟩ := ok_of_bind h
  obtain ⟨t', ht, h⟩ := ok_of_bind h
  cases h
  exact named_put (ofFault_eq_ok ht) hs hname

lemma named_define {s t : Scope} {f : Function} (hs : s.Named) (hname : f.name.lexeme.IsName)
    (h : s.define f = .ok t) : t.Named := by
  obtain ⟨-, -, h⟩ := ok_of_bind h
  exact named_put (ofFault_eq_ok h) hs hname

end Naming

/-! ### Lexed names -/

namespace Lexer

lemma isName_of_stands {lexeme rest : List Char} {kind : TokenKind} {literal : Json}
    (h : Stands lexeme rest kind literal) (hkind : kind = .identifier) :
    (Json.str (String.ofList lexeme)).IsName := by
  cases h with
  | single h =>
    unfold single? at h
    split at h <;> cases h <;> cases hkind
  | joined h =>
    unfold compound? at h
    split at h <;> cases h <;> cases hkind
  | alone h =>
    unfold compound? at h
    split at h <;> cases h <;> cases hkind
  | string pieces => cases hkind
  | integer => cases hkind
  | double => cases hkind
  | word hc hcs => exact ⟨_, _, rfl, hc, hcs⟩
  | identifier hc hcs => exact ⟨_, _, rfl, hc, hcs⟩

end Lexer

/-- **The identifiers of a text are names.** -/
theorem Token.named_lex {source : String} {tokens : List Token} (h : lex source = .ok tokens) :
    ∀ t ∈ tokens, t.Named := by
  refine Lexer.forall_tokensFrom (fun _ => nofun) (fun {line c cs s kind literal} hs htoken => ?_) h
  intro hkind
  have hread := Lexer.reads_of_scan hs
  obtain ⟨written, token, rest⟩ := s
  cases htoken
  cases hread with
  | token hstands => exact Lexer.isName_of_stands hstands hkind

lemma Token.Lexed.named {t : Token} (h : t.Lexed) : t.Named := by
  obtain ⟨source, tokens, hlex, ht⟩ := h
  exact named_lex hlex t ht

/-- The scope after a session of texts is one of names. -/
theorem Scope.named_reached (verbosity : Nat) {steps : List (Nat × Program)}
    (hsteps : ∀ x ∈ steps, x.2.Lexed) : (Session.reached verbosity steps).scope.Named :=
  Naming.named_of_naming
    (naming_lasting.scope_reached (fun _ _ => Token.named_lex) verbosity hsteps)

end Hive
