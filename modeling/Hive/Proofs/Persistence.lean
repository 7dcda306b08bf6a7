import Hive.Proofs.Isolation
import Hive.Proofs.Observations

/-!
Entries persist. Only `clear` removes an entry, and what it removes is the name of the token right
after it. So when tokens have run in a scope, well or not, the entries under all other names are
still there in their order: functions as they were, variables under the same name and with the same
type. Names that are new come after them. Main statement: `Session.entries_persist`.
-/

namespace Hive

open Evaluator

/-! ### What stays of a scope -/

/-- The keys of the names that tokens may clear: those of the tokens right after `clear`. The end
comes after the last one. -/
def clearedKeys : List Token → List Json
  | [] => []
  | t :: rest =>
    if t.kind = .keyword .clearWord then
      (rest.headD (.atEnd t.line)).lexeme.key.toOption.toList ++ clearedKeys rest
    else clearedKeys rest

/-- The second entry is the first one with another value at most: a function is the same, and a
variable has the same name and type. -/
def Entry.KeptAs : Entry → Entry → Prop
  | .func f, .func g => g = f
  | .var v, .var w => w.name = v.name ∧ w.type = v.type
  | _, _ => False

namespace Scope

def names (s : Scope) : List Json := s.entries.map Prod.fst

/-- Each entry is under the key of its own name. -/
def Filed (s : Scope) : Prop := ∀ x ∈ s.entries, x.2.name.lexeme.key = .ok x.1

/-- **The entries of a scope persist in another one**, but for some that may have been cleared. -/
structure Persists (cleared : List Json) (s t : Scope) : Prop where
  /-- Entries that have not been cleared are there, with another value at most. -/
  kept : ∀ key e, (key, e) ∈ s.entries → key ∉ cleared → ∃ e', (key, e') ∈ t.entries ∧ e.KeptAs e'
  /-- They are in their order. -/
  order : t.names.filter (fun key => key ∈ s.names ∧ key ∉ cleared) =
    s.names.filter fun key => key ∉ cleared
  /-- Names that were not there before come after all of them. -/
  later : t.names.Pairwise fun key key' => key ∉ s.names → key' ∈ s.names → key' ∈ cleared

end Scope

lemma Entry.KeptAs.refl (e : Entry) : e.KeptAs e := by
  cases e with
  | var v => exact ⟨rfl, rfl⟩
  | func f => rfl

lemma Entry.KeptAs.trans {e e' e'' : Entry} (h : e.KeptAs e') (h' : e'.KeptAs e'') :
    e.KeptAs e'' := by
  cases e <;> cases e' <;> cases e'' <;> simp_all [KeptAs]

/-! ### Thinned tables -/

/-- A table with some entries given other values, and with some removed that are under cleared
keys. -/
inductive Thinned (cleared : List Json) : List (Json × Entry) → List (Json × Entry) → Prop where
  | nil : Thinned cleared [] []
  | kept {key : Json} {e e' : Entry} {l l' : List (Json × Entry)} (he : e.KeptAs e')
    (h : Thinned cleared l l') : Thinned cleared ((key, e) :: l) ((key, e') :: l')
  | removed {key : Json} {e : Entry} {l l' : List (Json × Entry)} (hkey : key ∈ cleared)
    (h : Thinned cleared l l') : Thinned cleared ((key, e) :: l) l'

namespace Thinned

variable {cleared : List Json} {l l' : List (Json × Entry)} {key : Json} {e e' : Entry}

lemma refl (l : List (Json × Entry)) : Thinned cleared l l := by
  induction l with
  | nil => exact .nil
  | cons x l ih => exact .kept (.refl x.2) ih

lemma exists_of_mem (h : Thinned cleared l l') (hmem : (key, e) ∈ l) (hkey : key ∉ cleared) :
    ∃ e', (key, e') ∈ l' ∧ e.KeptAs e' := by
  induction h with
  | nil => cases hmem
  | kept he _ ih =>
    rcases List.mem_cons.1 hmem with heq | hmem
    · cases heq
      exact ⟨_, List.mem_cons_self, he⟩
    · obtain ⟨e', hmem', hkept⟩ := ih hmem
      exact ⟨e', List.mem_cons_of_mem _ hmem', hkept⟩
  | removed hcleared _ ih =>
    rcases List.mem_cons.1 hmem with heq | hmem
    · cases heq
      exact absurd hcleared hkey
    · exact ih hmem

lemma sublist (h : Thinned cleared l l') : (l'.map Prod.fst).Sublist (l.map Prod.fst) := by
  induction h with
  | nil => exact .slnil
  | kept _ _ ih => exact ih.cons_cons _
  | removed _ _ ih => exact ih.cons _

lemma filter_eq (h : Thinned cleared l l') :
    (l'.map Prod.fst).filter (fun key => key ∉ cleared) =
      (l.map Prod.fst).filter fun key => key ∉ cleared := by
  induction h with
  | nil => rfl
  | kept _ _ ih => simp only [List.map_cons, List.filter_cons, ih]
  | removed hcleared _ ih =>
    rw [ih, List.map_cons, List.filter_cons_of_neg (by simpa using hcleared)]

lemma insert (h : Thinned cleared l l') (hget : Table.get? key l' = some e) (he : e.KeptAs e') :
    Thinned cleared l (Table.insert key e' l') := by
  induction h with
  | nil => cases hget
  | @kept k _ e₀ _ l₀ hkept h ih =>
    unfold Table.get? at hget
    unfold Table.insert
    by_cases hk : k = key
    · rw [if_pos hk] at hget ⊢
      cases hget
      subst hk
      exact .kept (hkept.trans he) h
    · rw [if_neg hk] at hget ⊢
      exact .kept hkept (ih hget)
  | removed hcleared _ ih => exact .removed hcleared (ih hget)

lemma erase (h : Thinned cleared l l') (hkey : key ∈ cleared) :
    Thinned cleared l (Table.erase key l') := by
  induction h with
  | nil => exact .nil
  | @kept k _ _ _ _ hkept h ih =>
    unfold Table.erase
    by_cases hk : k = key
    · rw [if_pos hk]
      exact .removed (hk ▸ hkey) h
    · rw [if_neg hk]
      exact .kept hkept ih
  | removed hcleared _ ih => exact .removed hcleared ih

end Thinned

namespace Table

variable {κ α : Type} [DecidableEq κ] {key : κ} {a : α} {l l' : List (κ × α)}

lemma get?_append (l l' : List (κ × α)) :
    get? key (l ++ l') = (get? key l).or (get? key l') := by
  induction l with
  | nil => rfl
  | cons x l ih =>
    obtain ⟨k, b⟩ := x
    simp only [List.cons_append, get?]
    split
    · rfl
    · exact ih

lemma get?_eq_none : get? key l = none ↔ key ∉ l.map Prod.fst := by
  induction l with
  | nil => simp [get?]
  | cons x l ih =>
    obtain ⟨k, b⟩ := x
    by_cases hk : k = key
    · simp [get?, hk]
    · simp [get?, hk, ih, Ne.symm hk]

lemma insert_of_get? {b : α} (h : get? key l = some b) :
    insert key a (l ++ l') = insert key a l ++ l' := by
  induction l with
  | nil => cases h
  | cons x l ih =>
    obtain ⟨k, c⟩ := x
    unfold get? at h
    simp only [List.cons_append, insert]
    split
    · rfl
    · rename_i hk
      rw [if_neg hk] at h
      rw [ih h]
      rfl

lemma insert_append (h : get? key l = none) : insert key a (l ++ l') = l ++ insert key a l' := by
  induction l with
  | nil => rfl
  | cons x l ih =>
    obtain ⟨k, c⟩ := x
    unfold get? at h
    split at h
    · cases h
    · rename_i hk
      simp only [List.cons_append, insert, if_neg hk, ih h]

lemma map_fst_insert {b : α} (h : get? key l = some b) :
    (insert key a l).map Prod.fst = l.map Prod.fst := by
  induction l with
  | nil => cases h
  | cons x l ih =>
    obtain ⟨k, c⟩ := x
    unfold get? at h
    unfold insert
    by_cases hk : k = key
    · simp [hk]
    · rw [if_neg hk] at h
      simp [hk, ih h]

lemma erase_append (l l' : List (κ × α)) :
    erase key (l ++ l') = erase key l ++ l' ∨ erase key (l ++ l') = l ++ erase key l' := by
  induction l with
  | nil => exact .inr rfl
  | cons x l ih =>
    obtain ⟨k, c⟩ := x
    by_cases hk : k = key
    · exact .inl (by simp [erase, hk])
    · simpa [erase, hk] using ih

end Table

/-! ### Continued scopes -/

namespace Scope

/-- A scope goes on in another one: its entries are thinned, and new ones come after them. -/
def Continues (cleared : List Json) (s t : Scope) : Prop :=
  ∃ old new, t.entries = old ++ new ∧ Thinned cleared s.entries old ∧
    ∀ x ∈ new, x.1 ∈ s.names → x.1 ∈ cleared

section Continues

variable {cleared : List Json} {s t : Scope} {key : Json} {e e' : Entry}

lemma Continues.refl (s : Scope) : s.Continues cleared s :=
  ⟨s.entries, [], (List.append_nil _).symm, .refl _, fun _ hx => absurd hx List.not_mem_nil⟩

lemma Continues.insert (h : s.Continues cleared t) (hget : Table.get? key t.entries = some e)
    (he : e.KeptAs e') : s.Continues cleared ⟨Table.insert key e' t.entries⟩ := by
  obtain ⟨old, new, hentries, hold, hnew⟩ := h
  rw [hentries, Table.get?_append] at hget
  rw [hentries]
  cases hfound : Table.get? key old with
  | some d =>
    rw [hfound, Option.some_or] at hget
    obtain rfl := Option.some.inj hget
    exact ⟨_, new, Table.insert_of_get? hfound, hold.insert hfound he, hnew⟩
  | none =>
    rw [hfound, Option.none_or] at hget
    refine ⟨old, _, Table.insert_append hfound, hold, fun x hx hmem => ?_⟩
    have hfst : x.1 ∈ new.map Prod.fst := by
      rw [← Table.map_fst_insert hget]
      exact List.mem_map_of_mem hx
    obtain ⟨y, hy, hyx⟩ := List.mem_map.1 hfst
    rw [← hyx] at hmem ⊢
    exact hnew y hy hmem

lemma Continues.add (h : s.Continues cleared t) (hget : Table.get? key t.entries = none) :
    s.Continues cleared ⟨Table.insert key e t.entries⟩ := by
  obtain ⟨old, new, hentries, hold, hnew⟩ := h
  refine ⟨old, new ++ [(key, e)], ?_, hold, fun x hx hmem => ?_⟩
  · show Table.insert key e t.entries = _
    rw [Table.insert_of_not_mem (Table.get?_eq_none.1 hget), hentries, List.append_assoc]
  rcases List.mem_append.1 hx with hx | hx
  · exact hnew x hx hmem
  · obtain rfl := List.mem_singleton.1 hx
    -- a name that is free has been cleared if it was there
    by_contra hkey
    obtain ⟨⟨k, d⟩, hd, hk⟩ := List.mem_map.1 hmem
    obtain rfl : k = key := hk
    obtain ⟨d', hd', -⟩ := hold.exists_of_mem hd hkey
    refine Table.get?_eq_none.1 hget (List.mem_map.2 ⟨(k, d'), ?_, rfl⟩)
    rw [hentries]
    exact List.mem_append_left _ hd'

lemma Continues.erase (h : s.Continues cleared t) (hkey : key ∈ cleared) :
    s.Continues cleared ⟨Table.erase key t.entries⟩ := by
  obtain ⟨old, new, hentries, hold, hnew⟩ := h
  rw [hentries]
  rcases Table.erase_append old new with heq | heq
  · exact ⟨_, new, heq, hold.erase hkey, hnew⟩
  · exact ⟨old, _, heq, hold, fun x hx => hnew x (Table.mem_of_mem_erase hx)⟩

/-- **What a scope goes on in keeps its entries.** -/
lemma Continues.persists (h : s.Continues cleared t) : s.Persists cleared t := by
  obtain ⟨old, new, hentries, hold, hnew⟩ := h
  have hnames : t.names = old.map Prod.fst ++ new.map Prod.fst := by
    unfold names
    rw [hentries, List.map_append]
  have hsub : ∀ k ∈ old.map Prod.fst, k ∈ s.names := hold.sublist.subset
  have hlate : ∀ k ∈ new.map Prod.fst, k ∈ s.names → k ∈ cleared := by
    intro k hk
    obtain ⟨x, hx, rfl⟩ := List.mem_map.1 hk
    exact hnew x hx
  refine ⟨fun k e hmem hk => ?_, ?_, ?_⟩
  · obtain ⟨e', hmem', hkept⟩ := hold.exists_of_mem hmem hk
    rw [hentries]
    exact ⟨e', List.mem_append_left _ hmem', hkept⟩
  · -- what was added under an old name had been cleared, so it is none of those that stay
    have hadded : (new.map Prod.fst).filter (fun k => k ∈ s.names ∧ k ∉ cleared) = [] := by
      rw [List.filter_eq_nil_iff]
      intro k hk hboth
      obtain ⟨hmem, hkey⟩ := of_decide_eq_true hboth
      exact hkey (hlate k hk hmem)
    have hstayed : (old.map Prod.fst).filter (fun k => k ∈ s.names ∧ k ∉ cleared) =
        (old.map Prod.fst).filter fun k => k ∉ cleared :=
      List.filter_congr fun k hk => by simp [hsub k hk]
    rw [hnames, List.filter_append, hadded, List.append_nil, hstayed]
    exact hold.filter_eq
  · rw [hnames, List.pairwise_append]
    refine ⟨?_, ?_, fun k hk k' _ hnot => absurd (hsub k hk) hnot⟩
    · exact List.pairwise_iff_forall_sublist.2 fun hpair hnot =>
        absurd (hsub _ (hpair.subset (by simp))) hnot
    · exact List.pairwise_iff_forall_sublist.2 fun hpair _ hmem =>
        hlate _ (hpair.subset (by simp)) hmem

end Continues

end Scope

/-! ### Evaluation in a scope that goes on -/

/-- The discipline of evaluations in a scope that goes on: what comes right after `clear` is among
the cleared names. Entries stay under their own names, if they were so at first. -/
def persisting (cleared : List Json) (s : Scope) : Discipline :=
  { free (fun p q => q = p) True False with
    follows := fun t u => t.kind = .keyword .clearWord → ∀ k, u.lexeme.key = .ok k → k ∈ cleared
    scope := fun t => s.Continues cleared t ∧ (s.Filed → t.Filed) }

section Persisting

variable {cleared : List Json} {s : Scope}

lemma persisting_lenient : (persisting cleared s).Lenient := ⟨fun _ => trivial, fun _ => trivial⟩

lemma persisting_assign {t u : Scope} {name : Token} {v : Value} {l : Literal}
    (ht : (persisting cleared s).scope t) (h : t.assign name v = .ok (l, u)) :
    (persisting cleared s).scope u := by
  obtain ⟨k, x, -, hget, -, rfl⟩ := Scope.exists_of_assign h
  refine ⟨ht.1.insert hget ⟨rfl, rfl⟩, fun hs y hy => ?_⟩
  have hfiled := ht.2 hs
  have hx : x.name.lexeme.key = .ok k := hfiled _ (Table.mem_of_get? hget)
  rcases Table.mem_insert hy with rfl | hy
  · exact hx
  · exact hfiled y hy

lemma persisting_put {t u : Scope} {e : Entry} (ht : (persisting cleared s).scope t)
    (h : t.put e = .ok u) (hfree : t.ensureFree e.name = .ok ()) :
    (persisting cleared s).scope u := by
  refine ⟨?_, fun hs => Scope.forall_put h (ht.2 hs) fun _ hk => hk⟩
  obtain ⟨found, hfound, hfree⟩ := ok_of_bind hfree
  cases found with
  | some d => cases hfree
  | none =>
    cases hk : e.name.lexeme.key with
    | error f =>
      rw [Scope.put_eq_error.2 hk] at h
      cases h
    | ok k =>
      have hget := ofFault_eq_ok hfound
      rw [Scope.find?_of_key hk] at hget
      rw [Scope.put_of_key hk] at h
      cases h
      exact ht.1.add (Except.ok.inj hget)

lemma persisting_erase {t u : Scope} {name : Token} (ht : (persisting cleared s).scope t)
    (hcleared : (persisting cleared s).Cleared name) (h : t.erase name.lexeme = .ok u) :
    (persisting cleared s).scope u := by
  refine ⟨?_, fun hs => Scope.forall_erase h (ht.2 hs)⟩
  obtain ⟨clear, hclear, hfollows⟩ := hcleared
  unfold Scope.erase at h
  split at h
  · cases h
    exact ht.1
  · obtain ⟨k, hk, h⟩ := ok_of_bind h
    cases h
    exact ht.1.erase (hfollows hclear k hk)

lemma persisting_steady : (persisting cleared s).Steady where
  line_of_token _ := trivial
  token_atEnd _ := trivial
  value_nil := trivial
  value_bool _ := trivial
  value_ofToken _ _ := trivial
  text _ := persisting_lenient.meets fun _ _ => trivial
  key _ := persisting_lenient.meets fun _ _ => trivial
  lexeme _ := .inr trivial
  substitute _ _ := persisting_lenient.checks fun _ _ => trivial
  resolve _ _ _ := persisting_lenient.checks fun _ _ => persisting_lenient.operand trivial
  joinTexts _ _ _ := persisting_lenient.checks fun _ _ => persisting_lenient.operand trivial
  assign hs _ _ := persisting_lenient.checks fun _ h => ⟨trivial, persisting_assign hs h⟩
  declare hs _ _ _ _ := persisting_lenient.checks fun _ h => by
    obtain ⟨_, hfree, h⟩ := ok_of_bind h
    obtain ⟨l, -, h⟩ := ok_of_bind h
    obtain ⟨u, hu, h⟩ := ok_of_bind h
    cases h
    exact ⟨trivial, persisting_put hs (ofFault_eq_ok hu) hfree⟩
  define hs _ := persisting_lenient.checks fun _ h => by
    obtain ⟨_, hfree, h⟩ := ok_of_bind h
    exact persisting_put hs (ofFault_eq_ok h) hfree
  erase hs _ hcleared := persisting_lenient.meets fun _ h => persisting_erase hs hcleared h
  callee_own _ _ _ := persisting_lenient.checks fun _ _ => trivial
  callee_program _ _ _ := persisting_lenient.checks fun _ _ => trivial
  functionAt_eq hp _ := by rw [hp]

lemma persisting_rules : (persisting cleared s).Rules plainRule :=
  Discipline.rules_of_steady persisting_steady <| Discipline.applies_applyOperator
    fun _ _ _ _ _ => persisting_lenient.outcome_applyOperator fun _ _ _ => trivial

/-- What comes right after `clear` is cleared. -/
lemma persisting_stream {tokens : List Token} (h : clearedKeys tokens ⊆ cleared) :
    (persisting cleared s).Stream tokens := by
  refine ⟨fun _ _ => trivial, fun l => ?_⟩
  induction tokens with
  | nil => exact .singleton _
  | cons t rest ih =>
    have hrest : ∀ k ∈ clearedKeys rest, k ∈ clearedKeys (t :: rest) := by
      intro k hk
      rw [clearedKeys]
      split
      · exact List.mem_append_right _ hk
      · exact hk
    rw [List.cons_append, List.isChain_cons]
    refine ⟨fun u hu hclear k hk => h ?_, ih fun k hk => h (hrest k hk)⟩
    -- at the end of the tokens `clear` is given the end of the input
    have hlexeme : (rest.headD (.atEnd t.line)).lexeme = u.lexeme := by
      cases rest with
      | nil => cases hu; rfl
      | cons v rest => cases hu; rfl
    rw [clearedKeys, if_pos hclear, hlexeme, hk]
    exact List.mem_append_left _ (by simp [Except.toOption])

/-- Calls work in scopes of their own, so nothing has to be said of their entries. -/
lemma persisting_calls (depth : Nat) :
    (persisting cleared s).Calls (invoke depth) (invoke depth) := by
  have hk : (free (fun p q => q = p) True False).Kept := free_kept fun p q hpq name => by rw [hpq]
  have hcalls : (free (fun p q => q = p) True False).Calls (invoke depth) (invoke depth) :=
    Discipline.agree_invoke hk free_bodies trivial (.inl rfl)
  intro p q f arguments line hp hf ha hl
  exact hcalls hp hf ha hl

end Persisting

/-- **Entries persist.** When tokens have run in a session, well or not, the entries of its scope
that are not named by a token right after `clear`, or by the end if `clear` is the last token, are
still there: functions as they were, variables under the same name token and with the same type.
They are in their order, and names that were not there before come after them. If each entry was
under its own name, so it is again. -/
theorem Session.entries_persist (s : Session) (depth : Nat) (tokens : List Token) :
    s.scope.Persists (clearedKeys tokens) (s.run depth tokens).2.scope ∧
      (s.scope.Filed → (s.run depth tokens).2.scope.Filed) := by
  have hscope : (persisting (clearedKeys tokens) s.scope).scope s.scope := ⟨.refl _, id⟩
  obtain ⟨-, hends⟩ := Discipline.run_steady persisting_rules persisting_steady
    (persisting_calls depth) (fun _ _ => rfl) (persisting_stream (List.Subset.refl _)) hscope
  have hseen : (s.run depth tokens).2.scope =
      (Observation.ofRun s.verbosity s.result (runProgram depth tokens s.scope)).scope :=
    congrArg Observation.scope (observe_runAfter depth [] tokens s)
  rw [hseen]
  revert hends
  cases runProgram depth tokens s.scope with
  | ok v last => exact fun hends => ⟨hends.1.2.2.1.persists, hends.1.2.2.2⟩
  | error e last => exact fun hends => ⟨hends.1.2.2.1.persists, hends.1.2.2.2⟩

section Tidying

/-- A session in which the variables `x` and `y` and the function `f` are declared. -/
def tidiedSession : Session :=
  { Session.start 0 with
    scope := ⟨[(.str "x", .var ⟨plainToken .identifier "x", some (.int 1), .typeName .int⟩),
      (.str "y", .var ⟨plainToken .identifier "y", some (.int 2), .typeName .int⟩),
      (.str "f", .func ⟨plainToken .identifier "f", .typeName .int, [], []⟩)]⟩ }

/-- The program `clear x; int z = 3; y = z; nothing`, which fails at its last name. -/
def tidying : List Token :=
  [plainToken (.keyword .clearWord) "clear", plainToken .identifier "x", plainToken .semicolon ";",
    plainToken (.typeName .int) "int", plainToken .identifier "z", plainToken .equal "=",
    ⟨.literal .int, .str "3", .int 3, 1⟩, plainToken .semicolon ";",
    plainToken .identifier "y", plainToken .equal "=", plainToken .identifier "z",
    plainToken .semicolon ";", plainToken .identifier "nothing"]

theorem Session.entries_persist_tidying :
    tidiedSession.scope.Filed ∧
      tidiedSession.scope.Persists [.str "x"] (tidiedSession.run 0 tidying).2.scope ∧
      (tidiedSession.run 0 tidying).2.scope.Filed := by
  have hfiled : tidiedSession.scope.Filed := by
    intro x hx
    simp only [tidiedSession, List.mem_cons, List.not_mem_nil, or_false] at hx
    rcases hx with rfl | rfl | rfl <;> rfl
  obtain ⟨hpersists, hkept⟩ := Session.entries_persist tidiedSession 0 tidying
  exact ⟨hfiled, hpersists, hkept hfiled⟩

/-- The run fails, and `x` is gone; `y` has another value, and `z` comes last. -/
example : (tidiedSession.run 0 tidying).2.scope.names = [.str "y", .str "f", .str "z"] := by
  decide +kernel

end Tidying

end Hive
