import Hive.Proofs.Persistence
import Mathlib.Data.List.Nodup
import Mathlib.Data.Nat.Find

/-!
Scopes are ordered maps. Calls change them: declarations, definitions, bindings, assignments and
removals. A call is about one name, and what it makes of the entry under it depends on that entry
only. Carried out in place, on a scope that survives a failure, it writes once, after all that can
fail; so a call that fails leaves the scope as it was. Names are distinct after any calls, and in
the order of the calls that inserted them last. Main statement: `Scope.calls_ordered`.
-/

namespace Hive

/-! ### One key of a table -/

namespace Table

variable {κ α : Type} [DecidableEq κ]

lemma get?_insert_self (key : κ) (a : α) (l : List (κ × α)) :
    get? key (insert key a l) = some a := by
  induction l with
  | nil => simp [insert, get?]
  | cons x l ih =>
    obtain ⟨k, c⟩ := x
    by_cases hk : k = key
    · simp [insert, get?, hk]
    · simpa [insert, get?, hk] using ih

lemma filter_insert (key : κ) (a : α) (l : List (κ × α)) :
    (insert key a l).filter (fun x => x.1 ≠ key) = l.filter fun x => x.1 ≠ key := by
  induction l with
  | nil => simp [insert]
  | cons x l ih =>
    obtain ⟨k, c⟩ := x
    by_cases hk : k = key
    · simp [insert, hk]
    · simpa [insert, hk] using ih

lemma filter_erase (key : κ) (l : List (κ × α)) :
    (erase key l).filter (fun x => x.1 ≠ key) = l.filter fun x => x.1 ≠ key := by
  induction l with
  | nil => rfl
  | cons x l ih =>
    obtain ⟨k, c⟩ := x
    by_cases hk : k = key
    · simp [erase, hk]
    · simpa [erase, hk] using ih

lemma map_fst_erase (key : κ) (l : List (κ × α)) :
    (erase key l).map Prod.fst = (l.map Prod.fst).erase key := by
  induction l with
  | nil => rfl
  | cons x l ih =>
    obtain ⟨k, c⟩ := x
    by_cases hk : k = key
    · simp [erase, hk]
    · simp [erase, hk, ih]

end Table

/-- The entry with another value, if it is a variable. -/
def Entry.withValue (l : Literal) : Entry → Entry
  | .var v => .var { v with value := some l }
  | .func f => .func f

namespace Scope

/-! ### Calls -/

inductive Call where
  | declare (name : Token) (type : TokenKind) (value : Value)
  | define (f : Function)
  | bind (v : Variable)
  | assign (name : Token) (value : Value)
  | remove (name : Json)

def Call.name : Call → Json
  | .declare name _ _ | .assign name _ => name.lexeme
  | .define f => f.name.lexeme
  | .bind v => v.name.lexeme
  | .remove name => name

def Call.outcome (s : Scope) : Call → Except Failure Scope
  | .declare name type value => Prod.snd <$> s.declare name type value
  | .define f => s.define f
  | .bind v => Failure.ofFault (s.bind v)
  | .assign name value => Prod.snd <$> s.assign name value
  | .remove name => Failure.ofFault (s.erase name)

/-- What a call makes of the entry under its name, or why it fails. -/
def Call.next : Call → Option Entry → Except Failure (Option Entry)
  | .declare name type value, none => do
    return some (.var ⟨name, some (← fitVariable name type value), type⟩)
  | .declare name _ _, some _ =>
    .error (.error (.on name.line (.variableAlreadyDeclared name.lexeme)))
  | .define f, none => .ok (some (.func f))
  | .define f, some _ =>
    .error (.error (.on f.name.line (.variableAlreadyDeclared f.name.lexeme)))
  | .bind v, _ => .ok (some (.var v))
  | .assign name value, some (.var v) => do
    return some (.var { v with value := some (← fitVariable name v.type value) })
  | .assign name _, _ => .error (.error (.on name.line (.variableNotDeclared name.lexeme)))
  | .remove _, _ => .ok none

/-! ### Calls in place -/

/-- Computations on a scope, which survives a failure. -/
abbrev Change := EStateM Failure Scope

def look {α : Type} (x : Scope → Except Failure α) : Change α := fun s =>
  match x s with
  | .ok a => .ok a s
  | .error f => .error f s

def write (name : Json) (g : Json → List (Json × Entry) → List (Json × Entry)) : Change Unit := do
  let key ← look fun _ => Failure.ofFault name.key
  modify fun s => ⟨g key s.entries⟩

/-- The variable under the name of a token, which is to be given a value. -/
def declaredAt (s : Scope) (name : Token) : Except Failure Variable := do
  match ← Failure.ofFault (s.find? name.lexeme) with
  | some (.var v) => return v
  | _ => throw (.error (.on name.line (.variableNotDeclared name.lexeme)))

/-- Gives the variable under a key another value, where it stands. -/
def setValue (l : Literal) (key : Json) (entries : List (Json × Entry)) : List (Json × Entry) :=
  entries.map fun x => if x.1 = key then (x.1, x.2.withValue l) else x

/-- The call carried out in place, step by step. -/
def Call.perform : Call → Change Unit
  | .declare name type value => do
    look fun s => s.ensureFree name
    let l ← look fun _ => fitVariable name type value
    write name.lexeme fun key => Table.insert key (.var ⟨name, some l, type⟩)
  | .define f => do
    look fun s => s.ensureFree f.name
    write f.name.lexeme fun key => Table.insert key (.func f)
  | .bind v => write v.name.lexeme fun key => Table.insert key (.var v)
  | .assign name value => do
    let v ← look fun s => s.declaredAt name
    let l ← look fun _ => fitVariable name v.type value
    write name.lexeme (setValue l)
  | .remove name => do
    if (← get).entries.isEmpty then return () else write name Table.erase

/-- How a call ends in place: in the scope that it makes, or in the old one if it fails. -/
def ended (s : Scope) : Except Failure Scope → EStateM.Result Failure Scope Unit
  | .ok t => .ok () t
  | .error f => .error f s

section InPlace

variable {s : Scope} {key name : Json}

lemma look_bind {α : Type} {x : Scope → Except Failure α} {k : α → Change Unit}
    {g : α → Except Failure Scope} (h : ∀ a, x s = .ok a → k a s = ended s (g a)) :
    (look x >>= k) s = ended s (x s >>= g) := by
  show EStateM.bind (look x) k s = _
  unfold EStateM.bind look
  cases hx : x s with
  | ok a => exact h a hx
  | error f => rfl

lemma write_of_key {g : Json → List (Json × Entry) → List (Json × Entry)}
    (hkey : name.key = .ok key) : write name g s = .ok () ⟨g key s.entries⟩ := by
  show EStateM.bind (look _) _ s = _
  unfold EStateM.bind look
  rw [hkey]
  rfl

lemma write_of_error {g : Json → List (Json × Entry) → List (Json × Entry)} {f : Fault}
    (hkey : name.key = .error f) : write name g s = .error (.fault f) s := by
  show EStateM.bind (look _) _ s = _
  unfold EStateM.bind look
  rw [hkey]
  rfl

lemma write_insert (name : Json) (e : Entry) (s : Scope) :
    write name (fun key => Table.insert key e) s = ended s (Failure.ofFault (s.putAt name e)) := by
  cases hkey : name.key with
  | ok key =>
    rw [write_of_key hkey, putAt_of_key hkey]
    rfl
  | error f =>
    rw [write_of_error hkey, putAt_eq_error.2 hkey]
    rfl

/-- Under distinct keys, a variable that is given a value where it stands is put back with it. -/
lemma setValue_eq {v : Variable} {l : Literal} {entries : List (Json × Entry)}
    (hdistinct : (entries.map Prod.fst).Nodup) (hget : Table.get? key entries = some (.var v)) :
    setValue l key entries = Table.insert key (.var { v with value := some l }) entries := by
  induction entries with
  | nil => cases hget
  | cons x rest ih =>
    obtain ⟨k, d⟩ := x
    rw [List.map_cons, List.nodup_cons] at hdistinct
    unfold Table.get? at hget
    by_cases hk : k = key
    · rw [if_pos hk] at hget
      cases hget
      subst hk
      -- the key is not among the rest, which stays as it is
      have hrest : setValue l k rest = rest := by
        refine (List.map_congr_left fun y hy => if_neg fun hyk => hdistinct.1 ?_).trans
          (List.map_id _)
        exact List.mem_map.2 ⟨y, hy, hyk⟩
      simp only [Table.insert, setValue, List.map_cons, if_true] at hrest ⊢
      rw [hrest]
      rfl
    · rw [if_neg hk] at hget
      simp only [Table.insert, if_neg hk, ← ih hdistinct.2 hget]
      simp [setValue, hk]

end InPlace

/-! ### One call -/

/-- Each entry is under the key of its own name, and no two are under one key. -/
structure Orderly (s : Scope) : Prop where
  filed : s.Filed
  distinct : s.names.Nodup

/-- **A scope with another entry under one key**, or with none there. -/
structure Updated (key : Json) (e : Option Entry) (s t : Scope) : Prop where
  entry : Table.get? key t.entries = e
  /-- The entries under other keys are the same, in the same order. -/
  others : t.entries.filter (fun x => x.1 ≠ key) = s.entries.filter fun x => x.1 ≠ key
  /-- A name that was there and has another entry keeps its place. -/
  stays : e.isSome → key ∈ s.names → t.names = s.names
  /-- A name that was not there comes last. -/
  comes : e.isSome → key ∉ s.names → t.names = s.names ++ [key]
  /-- A name that has no entry any more is gone. -/
  goes : e = none → t.names = s.names.erase key

section Calls

variable {s t : Scope} {c : Call} {key : Json}

lemma outcome_declare (s : Scope) (name : Token) (type : TokenKind) (value : Value) :
    (Call.declare name type value).outcome s = (do
      s.ensureFree name
      let l ← fitVariable name type value
      Failure.ofFault (s.bind ⟨name, some l, type⟩)) := by
  simp [Call.outcome, declare]

lemma outcome_assign (s : Scope) (name : Token) (value : Value) :
    (Call.assign name value).outcome s = (do
      let v ← s.declaredAt name
      let l ← fitVariable name v.type value
      Failure.ofFault (s.putAt name.lexeme (.var { v with value := some l }))) := by
  show Prod.snd <$> s.assign name value = _
  unfold assign declaredAt
  cases Failure.ofFault (s.find? name.lexeme) with
  | error f => rfl
  | ok found =>
    cases found with
    | none => rfl
    | some e =>
      cases e with
      | func f => rfl
      | var v =>
        show Prod.snd <$> (do
          let l ← fitVariable name v.type value
          return (l, ← Failure.ofFault
            (s.putAt name.lexeme (.var { v with value := some l })))) = _
        simp only [map_bind, map_pure, bind_pure]
        rfl

lemma get?_of_declaredAt {name : Token} {v : Variable} (h : s.declaredAt name = .ok v) :
    ∃ key, name.lexeme.key = .ok key ∧ Table.get? key s.entries = some (.var v) := by
  obtain ⟨found, hfound, h⟩ := ok_of_bind h
  split at h
  · cases h
    exact get?_of_find? (ofFault_eq_ok hfound)
  · cases h

/-- **A call in place** ends in the scope that it makes, and leaves the scope as it was if it
fails. -/
lemma perform_eq (hs : s.names.Nodup) (c : Call) : c.perform s = ended s (c.outcome s) := by
  cases c with
  | declare name type value =>
    rw [outcome_declare]
    refine look_bind fun _ _ => look_bind fun l _ => ?_
    exact write_insert name.lexeme (.var ⟨name, some l, type⟩) s
  | define f => exact look_bind fun _ _ => write_insert f.name.lexeme (.func f) s
  | bind v => exact write_insert v.name.lexeme (.var v) s
  | assign name value =>
    rw [outcome_assign]
    refine look_bind fun v hv => look_bind fun l _ => ?_
    obtain ⟨key, hkey, hget⟩ := get?_of_declaredAt hv
    rw [write_of_key hkey, putAt_of_key hkey, setValue_eq hs hget]
    rfl
  | remove name =>
    show (if s.entries.isEmpty then pure () else write name Table.erase : Change Unit) s =
      ended s (Failure.ofFault (s.erase name))
    unfold erase
    split
    · rfl
    · cases hkey : name.key with
      | ok key => exact write_of_key hkey
      | error f => exact write_of_error hkey

lemma ensureFree_of_none {name : Token} (hkey : name.lexeme.key = .ok key)
    (hget : Table.get? key s.entries = none) : s.ensureFree name = .ok () := by
  unfold ensureFree
  rw [find?_of_key hkey, hget]
  rfl

lemma ensureFree_of_some {name : Token} {e : Entry} (hkey : name.lexeme.key = .ok key)
    (hget : Table.get? key s.entries = some e) :
    s.ensureFree name = .error (.error (.on name.line (.variableAlreadyDeclared name.lexeme))) := by
  unfold ensureFree
  rw [find?_of_key hkey, hget]
  rfl

lemma erase_of_key {name : Json} (hkey : name.key = .ok key) :
    s.erase name = .ok ⟨Table.erase key s.entries⟩ := by
  unfold erase
  split
  · rename_i hempty
    obtain ⟨entries⟩ := s
    obtain rfl := List.isEmpty_iff.1 hempty
    rfl
  · rw [hkey]
    rfl

def withEntry (s : Scope) (key : Json) : Option Entry → Scope
  | some e => ⟨Table.insert key e s.entries⟩
  | none => ⟨Table.erase key s.entries⟩

lemma putAt_given (x : Except Failure Literal) (v : Literal → Variable) {name : Json}
    (hkey : name.key = .ok key) :
    (x >>= fun l => Failure.ofFault (s.putAt name (.var (v l)))) =
      s.withEntry key <$> (do return some (.var (v (← x)))) := by
  cases x with
  | error f => rfl
  | ok l => exact congrArg Failure.ofFault (putAt_of_key hkey)

/-- **What a call makes of a scope** it makes of the entry under its name. -/
lemma outcome_of_key (hkey : c.name.key = .ok key) :
    c.outcome s = s.withEntry key <$> c.next (Table.get? key s.entries) := by
  cases c with
  | declare name type value =>
    rw [outcome_declare]
    cases hget : Table.get? key s.entries with
    | some e =>
      rw [ensureFree_of_some hkey hget]
      rfl
    | none =>
      rw [ensureFree_of_none hkey hget]
      exact putAt_given _ (fun l => ⟨name, some l, type⟩) hkey
  | define f =>
    show s.define f = _
    unfold define
    cases hget : Table.get? key s.entries with
    | some e =>
      rw [ensureFree_of_some hkey hget]
      rfl
    | none =>
      have hput : s.put (.func f) = _ := put_of_key hkey
      rw [ensureFree_of_none hkey hget, hput]
      rfl
  | bind v =>
    have hput : s.bind v = _ := put_of_key hkey
    exact congrArg Failure.ofFault hput
  | assign name value =>
    rw [outcome_assign]
    have hfind : s.find? name.lexeme = _ := find?_of_key hkey
    unfold declaredAt
    rw [hfind]
    cases hget : Table.get? key s.entries with
    | none => rfl
    | some e =>
      cases e with
      | func f => rfl
      | var v => exact putAt_given _ (fun l => { v with value := some l }) hkey
  | remove name => exact congrArg Failure.ofFault (erase_of_key hkey)

/-- A name that is no key is refused, unless it is to be removed from an empty scope. -/
lemma outcome_of_error {f : Fault} (hkey : c.name.key = .error f) :
    c.outcome s = .error (.fault f) ∨ c.outcome s = .ok s := by
  cases c with
  | declare name type value =>
    have hfind : s.find? name.lexeme = _ := find?_eq_error.2 hkey
    rw [outcome_declare]
    unfold ensureFree
    rw [hfind]
    exact .inl rfl
  | define g =>
    have hfind : s.find? g.name.lexeme = _ := find?_eq_error.2 hkey
    unfold Call.outcome define ensureFree
    dsimp only
    rw [hfind]
    exact .inl rfl
  | bind v =>
    have hput : s.bind v = .error f := put_eq_error.2 hkey
    exact .inl (congrArg Failure.ofFault hput)
  | assign name value =>
    have hfind : s.find? name.lexeme = _ := find?_eq_error.2 hkey
    rw [outcome_assign]
    unfold declaredAt
    rw [hfind]
    exact .inl rfl
  | remove name =>
    -- an empty scope is not searched, so that a name of any form can be removed from it
    unfold Call.outcome erase
    dsimp only
    split
    · exact .inr rfl
    · have hname : name.key = .error f := hkey
      rw [hname]
      exact .inl rfl

lemma updated_withEntry (hs : s.names.Nodup) (key : Json) (e : Option Entry) :
    Updated key e s (s.withEntry key e) := by
  cases e with
  | some e =>
    refine ⟨Table.get?_insert_self .., Table.filter_insert .., fun _ hmem => ?_, fun _ hnot => ?_,
      fun hnone => (by cases hnone)⟩
    · cases hget : Table.get? key s.entries with
      | none => exact absurd hmem (Table.get?_eq_none.1 hget)
      | some d => exact Table.map_fst_insert hget
    · have hend : Table.insert key e s.entries = s.entries ++ [(key, e)] :=
        Table.insert_of_not_mem hnot
      simp [names, withEntry, hend]
  | none =>
    have hnames : (s.withEntry key none).names = s.names.erase key := Table.map_fst_erase ..
    have hgone : key ∉ (s.withEntry key none).names := hnames ▸ hs.not_mem_erase
    exact ⟨Table.get?_eq_none.2 hgone, Table.filter_erase .., fun hsome => (by cases hsome),
      fun hsome => (by cases hsome), fun _ => hnames⟩

lemma Updated.names_cases {e : Option Entry} (h : Updated key e s t) :
    t.names.Sublist s.names ∨ key ∉ s.names ∧ t.names = s.names ++ [key] := by
  cases e with
  | none => exact .inl (h.goes rfl ▸ List.erase_sublist)
  | some e =>
    by_cases hmem : key ∈ s.names
    · exact .inl (h.stays rfl hmem ▸ .refl _)
    · exact .inr ⟨hmem, h.comes rfl hmem⟩

lemma key_of_next {e : Option Entry} {d : Entry} (hkey : c.name.key = .ok key)
    (he : ∀ d ∈ e, d.name.lexeme.key = .ok key) (h : c.next e = .ok (some d)) :
    d.name.lexeme.key = .ok key := by
  cases c with
  | declare name type value =>
    cases e with
    | none =>
      obtain ⟨l, -, h⟩ := ok_of_bind h
      cases h
      exact hkey
    | some _ => cases h
  | define f =>
    cases e with
    | none =>
      cases h
      exact hkey
    | some _ => cases h
  | bind v =>
    cases h
    exact hkey
  | assign name value =>
    cases e with
    | none => cases h
    | some e =>
      cases e with
      | func f => cases h
      | var v =>
        obtain ⟨l, -, h⟩ := ok_of_bind h
        cases h
        -- an assignment leaves the declared name in place
        exact he (.var v) rfl
  | remove name => cases h

/-- **What a call does to a scope.** -/
structure Call.Confined (c : Call) (s : Scope) : Prop where
  /-- In place it ends in the scope that it makes, and in the same scope as before if it fails. -/
  inPlace : c.perform s = ended s (c.outcome s)
  /-- It fails if the entry under its name makes it fail. -/
  refused : ∀ key f, c.name.key = .ok key → c.next (Table.get? key s.entries) = .error f →
    c.outcome s = .error f
  /-- Otherwise it changes that entry and nothing else. -/
  done : ∀ key e, c.name.key = .ok key → c.next (Table.get? key s.entries) = .ok e →
    ∃ t, c.outcome s = .ok t ∧ Updated key e s t
  /-- With a name that is no key, it changes nothing. -/
  keyless : ∀ f, c.name.key = .error f → c.outcome s = .error (.fault f) ∨ c.outcome s = .ok s

lemma Orderly.confined (hs : s.Orderly) (c : Call) : c.Confined s where
  inPlace := perform_eq hs.distinct c
  refused key f hkey hnext := by
    rw [outcome_of_key hkey, hnext]
    rfl
  done key e hkey hnext := by
    refine ⟨s.withEntry key e, ?_, updated_withEntry hs.distinct key e⟩
    rw [outcome_of_key hkey, hnext]
    rfl
  keyless f hkey := outcome_of_error hkey

/-- The scope in which a call ends in place. -/
def Call.leaves (c : Call) (s : Scope) : Scope :=
  match c.perform s with
  | .ok _ t => t
  | .error _ t => t

lemma leaves_cases (hs : s.Orderly) (c : Call) :
    c.leaves s = s ∨ ∃ key e, c.name.key = .ok key ∧
      c.next (Table.get? key s.entries) = .ok e ∧ c.leaves s = s.withEntry key e := by
  unfold Call.leaves
  rw [perform_eq hs.distinct c]
  cases hkey : c.name.key with
  | error f =>
    rcases outcome_of_error hkey with h | h <;> rw [h] <;> exact .inl rfl
  | ok key =>
    rw [outcome_of_key hkey]
    cases hnext : c.next (Table.get? key s.entries) with
    | error f => exact .inl rfl
    | ok e => exact .inr ⟨key, e, rfl, hnext, rfl⟩

/-- A call takes names away or adds one at the end. -/
lemma names_leaves (hs : s.Orderly) (c : Call) :
    (c.leaves s).names.Sublist s.names ∨
      ∃ key, key ∉ s.names ∧ (c.leaves s).names = s.names ++ [key] := by
  rcases leaves_cases hs c with h | ⟨key, e, -, -, h⟩
  · rw [h]
    exact .inl (.refl _)
  · rw [h]
    exact (updated_withEntry hs.distinct key e).names_cases.imp_right fun hnew => ⟨key, hnew⟩

lemma Orderly.leaves (hs : s.Orderly) (c : Call) : (c.leaves s).Orderly := by
  refine ⟨?_, ?_⟩
  · rcases leaves_cases hs c with h | ⟨key, e, hkey, hnext, h⟩
    · rw [h]
      exact hs.filed
    · rw [h]
      intro x hx
      cases e with
      | none => exact hs.filed x (Table.mem_of_mem_erase hx)
      | some d =>
        rcases Table.mem_insert hx with rfl | hx
        · exact key_of_next hkey (fun d hd => hs.filed _ (Table.mem_of_get? hd)) hnext
        · exact hs.filed x hx
  · rcases names_leaves hs c with h | ⟨key, hnot, h⟩
    · exact hs.distinct.sublist h
    · rw [h]
      exact List.Nodup.append hs.distinct (List.nodup_singleton _)
        (List.disjoint_singleton.2 hnot)

end Calls

/-! ### Calls one after the other -/

/-- The scope after some calls, from the empty one on. -/
def after (calls : List Call) : Scope := calls.foldl (fun s c => c.leaves s) .empty

/-- The call of this number inserts a name: it is not there before the call, and there after it. -/
def InsertedBy (calls : List Call) (key : Json) (n : Nat) : Prop :=
  key ∉ (after (calls.take (n - 1))).names ∧ key ∈ (after (calls.take n)).names

instance (calls : List Call) (key : Json) : DecidablePred (InsertedBy calls key) := fun n =>
  inferInstanceAs (Decidable (key ∉ (after (calls.take (n - 1))).names ∧
    key ∈ (after (calls.take n)).names))

/-- The number of the call that inserted a name last, or zero if none did. -/
def latestInsertion (calls : List Call) (key : Json) : Nat :=
  Nat.findGreatest (InsertedBy calls key) calls.length

section History

variable {calls : List Call} {c : Call} {key : Json} {n : Nat}

lemma after_concat (calls : List Call) (c : Call) :
    after (calls ++ [c]) = c.leaves (after calls) := by
  simp [after]

lemma after_orderly (calls : List Call) : (after calls).Orderly := by
  induction calls using List.reverseRecOn with
  | nil => exact ⟨fun _ hx => absurd hx List.not_mem_nil, List.nodup_nil⟩
  | append_singleton calls c ih =>
    rw [after_concat]
    exact ih.leaves c

lemma insertedBy_concat (hn : n ≤ calls.length) :
    InsertedBy (calls ++ [c]) key n ↔ InsertedBy calls key n := by
  unfold InsertedBy
  rw [List.take_append_of_le_length hn, List.take_append_of_le_length (by omega)]

lemma insertedBy_last :
    InsertedBy (calls ++ [c]) key (calls.length + 1) ↔
      key ∉ (after calls).names ∧ key ∈ (after (calls ++ [c])).names := by
  unfold InsertedBy
  rw [Nat.add_sub_cancel, List.take_left, List.take_of_length_le (by simp)]

/-- A name that is there has been inserted before. -/
lemma latestInsertion_of_mem (h : key ∈ (after calls).names) :
    latestInsertion (calls ++ [c]) key = latestInsertion calls key := by
  have hnot : ¬InsertedBy (calls ++ [c]) key (calls.length + 1) := fun hlast =>
    (insertedBy_last.1 hlast).1 h
  unfold latestInsertion
  rw [List.length_append, List.length_singleton, Nat.findGreatest_of_not hnot,
    Nat.findGreatest_eq_iff]
  refine ⟨Nat.findGreatest_le _, fun hpos => ?_, fun m hm hle => ?_⟩
  · exact (insertedBy_concat (Nat.findGreatest_le _)).2 (Nat.findGreatest_of_ne_zero rfl hpos)
  · rw [insertedBy_concat hle]
    exact Nat.findGreatest_is_greatest hm hle

/-- A name that was not there is inserted by the last call. -/
lemma latestInsertion_of_not_mem (hnot : key ∉ (after calls).names)
    (h : key ∈ (after (calls ++ [c])).names) :
    latestInsertion (calls ++ [c]) key = calls.length + 1 := by
  unfold latestInsertion
  rw [List.length_append, List.length_singleton]
  exact Nat.findGreatest_eq (insertedBy_last.2 ⟨hnot, h⟩)

/-- The names are in the order of their latest insertions. -/
lemma after_sorted (calls : List Call) :
    (∀ key ∈ (after calls).names, InsertedBy calls key (latestInsertion calls key)) ∧
      (after calls).names.Pairwise fun key key' =>
        latestInsertion calls key < latestInsertion calls key' := by
  -- on the last call, since a scope is what the calls before it have left
  induction calls using List.reverseRecOn with
  | nil => exact ⟨fun _ hmem => absurd hmem List.not_mem_nil, .nil⟩
  | append_singleton calls c ih =>
    obtain ⟨hinserted, hsorted⟩ := ih
    -- what was there before the call has the same latest insertion as before it
    have hold : ∀ key ∈ (after calls).names,
        InsertedBy (calls ++ [c]) key (latestInsertion (calls ++ [c]) key) := by
      intro key hmem
      rw [latestInsertion_of_mem hmem]
      exact (insertedBy_concat (Nat.findGreatest_le _)).2 (hinserted key hmem)
    have holder : (after calls).names.Pairwise fun key key' =>
        latestInsertion (calls ++ [c]) key < latestInsertion (calls ++ [c]) key' := by
      refine hsorted.imp_of_mem fun hkey hkey' hlt => ?_
      rwa [latestInsertion_of_mem hkey, latestInsertion_of_mem hkey']
    have hnames := names_leaves (after_orderly calls) c
    rw [← after_concat] at hnames
    -- a call takes names away or adds one at the end, whose insertion is the latest of all
    rcases hnames with hsub | ⟨new, hnot, hnames⟩
    · exact ⟨fun key hmem => hold key (hsub.subset hmem), holder.sublist hsub⟩
    · have hnew : latestInsertion (calls ++ [c]) new = calls.length + 1 :=
        latestInsertion_of_not_mem hnot (by simp [hnames])
      rw [hnames]
      refine ⟨fun key hmem => ?_, ?_⟩
      · rcases List.mem_append.1 hmem with hmem | hmem
        · exact hold key hmem
        · obtain rfl := List.mem_singleton.1 hmem
          rw [hnew]
          exact insertedBy_last.2 ⟨hnot, by simp [hnames]⟩
      · refine List.pairwise_append.2 ⟨holder, List.pairwise_singleton .., ?_⟩
        intro key hkey key' hkey'
        obtain rfl := List.mem_singleton.1 hkey'
        rw [hnew, latestInsertion_of_mem hkey]
        exact Nat.lt_succ_of_le (Nat.findGreatest_le _)

end History

/-- **Scopes are ordered maps, and failures change nothing.** After any calls, from the empty scope
on, names are distinct, and they are in the order of the calls that inserted them last, of which
each name has one. Whatever call comes next, it is confined to the entry under its name, and leaves
the scope as it was if it fails. -/
theorem calls_ordered (calls : List Call) :
    (after calls).names.Nodup ∧
      (∀ key ∈ (after calls).names, InsertedBy calls key (latestInsertion calls key)) ∧
      ((after calls).names.Pairwise fun key key' =>
        latestInsertion calls key < latestInsertion calls key') ∧
      ∀ c : Call, c.Confined (after calls) := by
  have hs := after_orderly calls
  obtain ⟨hinserted, hsorted⟩ := after_sorted calls
  exact ⟨hs.distinct, hinserted, hsorted, hs.confined⟩

section Moving

/-- The name `x`, which is removed and declared again; `y`, which is bound twice; and `z`, which is
declared and cannot be declared again. -/
def movingCalls : List Call :=
  [.declare (plainToken .identifier "x") (.typeName .int) (some (.int 1)),
    .bind ⟨plainToken .identifier "y", none, .typeName .str⟩,
    .declare (plainToken .identifier "z") (.typeName .flt) (some (.int 2)),
    .bind ⟨plainToken .identifier "y", some (.bool true), .typeName .bool⟩,
    .remove (.str "x"),
    .declare (plainToken .identifier "x") (.typeName .str) (some (.str "again")),
    .define ⟨plainToken .identifier "z", .typeName .int, [], []⟩]

/-- The assignment of an integer to `z` that is too large for a double. -/
def tooLarge : Call := .assign (plainToken .identifier "z") (some (.int (Nat.pow 10 400)))

theorem calls_ordered_moving :
    (after movingCalls).names = [.str "y", .str "z", .str "x"] ∧
      ((after movingCalls).names.Pairwise fun key key' =>
        latestInsertion movingCalls key < latestInsertion movingCalls key') ∧
      tooLarge.outcome (after movingCalls) = .error (.fault .integerTooLarge) ∧
      tooLarge.Confined (after movingCalls) :=
  ⟨by decide +kernel, (calls_ordered movingCalls).2.2.1, by decide +kernel,
    (calls_ordered movingCalls).2.2.2 tooLarge⟩

/-- The name `y` keeps its first insertion, and `x` has its second one. -/
example : (after movingCalls).names.map (latestInsertion movingCalls) = [2, 3, 6] := by
  decide +kernel

end Moving

end Scope

end Hive
