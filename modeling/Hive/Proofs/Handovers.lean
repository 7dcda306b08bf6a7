import Hive.Proofs.Functions
import Hive.Proofs.Printing

/-!
How literals are handed over to the parameters of a function, and what a call with them comes to.
The parameters take the literals one after the other; the first that cannot take its one is
reported. If all can, the body runs in a scope in which each parameter holds what it has taken.
-/

namespace Hive

open Evaluator

/-- **The literal that a parameter takes** when it is given one. An integer given to a `flt` becomes
a double, if it is not too large; any other literal must be of the type. -/
def Parameter.take (line : Int) (p : Parameter) (l : Literal) : Except Failure Literal :=
  if p.type = .typeName l.type then .ok l
  else if p.type = .typeName .flt ∧ l.type = .int then
    match l.datum.toDouble with
    | .ok x => .ok (.flt x)
    | .error _ => .error (.fault .integerTooLarge)
  else
    .error (.error (.on line
      (.argumentType p.name.lexeme (.str p.type.label) (.str l.type.name))))

/-- **The entry of a parameter that is given a literal**, under its key. A name that is no key
cannot be bound, whatever the literal. -/
def Parameter.entry (line : Int) (p : Parameter) (l : Literal) : Except Failure (Json × Entry) := do
  let taken ← p.take line l
  let key ← Failure.ofFault p.name.lexeme.key
  return (key, .var ⟨p.name, some taken, p.type⟩)

/-- **The entries of parameters that are given literals**, one after the other; the first that
cannot be made is reported. -/
def Parameter.entries (line : Int) :
    List Parameter → List Literal → Except Failure (List (Json × Entry))
  | p :: ps, l :: ls => do
    let entry ← p.entry line l
    return entry :: (← entries line ps ls)
  | _, _ => .ok []

/-- The token is a name, under the key. -/
structure Token.Names (t : Token) (key : Json) : Prop where
  isIdentifier : t.kind = .identifier
  key_lexeme : t.lexeme.key = .ok key

structure Parameter.Declared (p : Parameter) : Prop where
  isTypeName : p.type.isTypeName = true
  isIdentifier : p.name.kind = .identifier

/-- **What a call with literals comes to**, its end and its output, given what the body does in a
scope. Of two parameters under one key, the later one counts. -/
def Function.calledWith (f : Function) (line : Int) (ls : List Literal)
    (body : Scope → Except Stop Value × List String) : Except Stop Value × List String :=
  if ls.length ≠ f.parameters.length then
    (.error (.failure (.error (.on line
      (.argumentCountMismatch f.name.lexeme (.int f.parameters.length) (.int ls.length))))), [])
  else match Parameter.entries line f.parameters ls with
    | .error e => (.error (.failure e), [])
    | .ok entries => body ⟨Table.ofList entries⟩

lemma noted_of_printable {r : EStateM.Result Stop Frame Value}
    (h : ∀ v last, r = .ok v last → v.Printable) : noted (seen r) = seen r := by
  cases r with
  | ok v last =>
    obtain ⟨text, htext⟩ := h v last rfl
    simp only [seen, noted, htext]
  | error e last => rfl

/-! ### Parameters and their scope -/

section Binding

variable {line : Int}

lemma exists_of_isTypeName {kind : TokenKind} (h : kind.isTypeName = true) :
    ∃ type, kind = .typeName type := by
  cases kind with
  | typeName type => exact ⟨type, rfl⟩
  | _ => cases h

lemma toDouble_int (n : Int) :
    (∃ x, (Json.int n).toDouble = .ok x) ∨ (Json.int n).toDouble = .error .integerTooLarge := by
  have hdouble : (Json.int n).toDouble = orFault .integerTooLarge (Binary64.ofInt? n) := rfl
  rw [hdouble]
  cases Binary64.ofInt? n with
  | some x => exact .inl ⟨x, rfl⟩
  | none => exact .inr rfl

lemma bind_map (own : Scope) (v : Variable) :
    Failure.ofFault (own.bind v) = (Failure.ofFault v.name.lexeme.key).map fun key =>
      ⟨Table.insert key (.var v) own.entries⟩ := by
  cases hkey : v.name.lexeme.key with
  | ok key => exact congrArg Failure.ofFault (Scope.put_of_key (e := .var v) hkey)
  | error f => exact congrArg Failure.ofFault ((Scope.put_eq_error (e := .var v)).2 hkey)

lemma bindOne_eq {p : Parameter} (hp : p.Declared) {l : Literal} (hl : l.isSound = true)
    (own : Scope) :
    Function.bindArguments.bindOne line own (p, some l) =
      (p.entry line l).map fun x => ⟨Table.insert x.1 x.2 own.entries⟩ := by
  obtain ⟨type, htype⟩ := exists_of_isTypeName hp.isTypeName
  have hfit : p.type.fit (some l) = type.fit (some l) := by
    rw [htype]
    rfl
  have hkind (type' : Ty) : p.type = .typeName type' ↔ type = type' := by
    rw [htype, TokenKind.typeName.injEq]
  -- what is taken is bound if the name is a key
  have htaken (l' : Literal) (htake : p.take line l = .ok l') :
      Failure.ofFault (own.bind ⟨p.name, some l', p.type⟩) =
        (p.entry line l).map fun x => ⟨Table.insert x.1 x.2 own.entries⟩ := by
    unfold Parameter.entry
    rw [bind_map, htake]
    cases p.name.lexeme.key with
    | ok key => rfl
    | error f => rfl
  have hrefused (e : Failure) (htake : p.take line l = .error e) :
      .error e = (p.entry line l).map fun x => (⟨Table.insert x.1 x.2 own.entries⟩ : Scope) := by
    unfold Parameter.entry
    rw [htake]
    rfl
  unfold Function.bindArguments.bindOne
  dsimp only
  rw [hfit]
  unfold Ty.fit
  dsimp only
  -- the cases of `Ty.fit`: the same type, an integer for a `flt`, and the rest
  by_cases hsame : l.type = type
  · rw [if_pos hsame]
    exact htaken l (if_pos ((hkind _).2 hsame.symm))
  rw [if_neg hsame]
  have hother : p.type ≠ .typeName l.type := fun h => hsame ((hkind _).1 h).symm
  by_cases hflt : type = .flt ∧ l.type = .int
  · rw [if_pos hflt]
    obtain ⟨n, hn⟩ : ∃ n, l.datum = .int n := by
      rcases Literal.forms hl with ⟨n, rfl⟩ | ⟨x, rfl⟩ | ⟨s, rfl⟩ | ⟨b, rfl⟩
      · exact ⟨n, rfl⟩
      all_goals exact absurd hflt.2 nofun
    have htake : p.take line l = match l.datum.toDouble with
        | .ok x => .ok (.flt x)
        | .error _ => .error (.fault .integerTooLarge) :=
      (if_neg hother).trans (if_pos ⟨(hkind _).2 hflt.1, hflt.2⟩)
    rcases toDouble_int n with ⟨x, hx⟩ | hlarge
    · rw [hn, hx] at htake ⊢
      exact htaken (.flt x) htake
    · rw [hn, hlarge] at htake ⊢
      exact hrefused _ htake
  · rw [if_neg hflt]
    exact hrefused _ ((if_neg hother).trans (if_neg fun h => hflt ⟨(hkind _).1 h.1, h.2⟩))

/-- **The parameters are bound one after the other**, by induction on them: what a scope has taken
so far is what the rest is added to. -/
lemma bindAll_eq {ps : List Parameter} (hps : ∀ p ∈ ps, p.Declared) {ls : List Literal}
    (hls : ∀ l ∈ ls, l.isSound = true) (own : Scope) :
    (ps.zip (ls.map some)).foldlM (Function.bindArguments.bindOne line) own =
      (Parameter.entries line ps ls).map fun entries =>
        ⟨entries.foldl (fun table x => Table.insert x.1 x.2 table) own.entries⟩ := by
  induction ps generalizing ls own with
  | nil => rfl
  | cons p ps ih =>
    cases ls with
    | nil => rfl
    | cons l ls =>
      simp only [List.map_cons, List.zip_cons_cons, List.foldlM_cons, Parameter.entries]
      rw [bindOne_eq (hps p List.mem_cons_self) (hls l List.mem_cons_self)]
      cases p.entry line l with
      | error e => rfl
      | ok x =>
        have hrest := ih (fun q hq => hps q (List.mem_cons_of_mem p hq))
          (fun m hm => hls m (List.mem_cons_of_mem l hm)) ⟨Table.insert x.1 x.2 own.entries⟩
        refine hrest.trans ?_
        cases Parameter.entries line ps ls with
        | error e => rfl
        | ok entries => rfl

/-- **The scope of a call with literals**, if there are as many as parameters. -/
lemma bindArguments_eq {f : Function} (hf : ∀ p ∈ f.parameters, p.Declared) {ls : List Literal}
    (hls : ∀ l ∈ ls, l.isSound = true) (hlength : ls.length = f.parameters.length) :
    f.bindArguments line (ls.map some) =
      (Parameter.entries line f.parameters ls).map fun entries => ⟨Table.ofList entries⟩ := by
  unfold Function.bindArguments
  rw [List.length_map, if_neg (not_not_intro hlength), bindAll_eq hf hls]
  rfl

end Binding

/-! ### Calls -/

section Calls

variable {depth : Nat} {program : Scope} {f : Function} {line : Int} {ls : List Literal}

/-- **A call with literals** that can be printed. -/
lemma entered_literals (hf : ∀ p ∈ f.parameters, p.Declared)
    (hls : ∀ l ∈ ls, l.isSound = true ∧ Value.Printable (some l))
    (body : Scope → Except Stop Value × List String) :
    f.entered line (ls.map some) body = f.calledWith line ls fun held => noted (body held) := by
  obtain ⟨texts, htexts⟩ : ∃ texts, (ls.map some).mapM Value.text = .ok texts := by
    refine Printing.exists_mapM fun v hv => ?_
    obtain ⟨l, hl, rfl⟩ := List.mem_map.1 hv
    exact (hls l hl).2
  unfold Function.entered Function.calledWith
  rw [htexts]
  by_cases hlength : ls.length = f.parameters.length
  · rw [if_neg (not_not_intro hlength), bindArguments_eq hf (fun l hl => (hls l hl).1) hlength]
    cases Parameter.entries line f.parameters ls with
    | error e => rfl
    | ok entries => rfl
  · have hbind : f.bindArguments line (ls.map some) = .error (.error (.on line
        (.argumentCountMismatch f.name.lexeme (.int f.parameters.length) (.int ls.length)))) := by
      unfold Function.bindArguments
      rw [List.length_map, if_pos hlength]
    rw [if_pos hlength, hbind]

/-- The value of a body can be printed, where that holds of all it can get at. -/
lemma printable_of_body (hprogram : printing.scope program) (hbody : ∀ t ∈ f.body, t.Printable)
    {own : Scope} (hown : printing.scope own) {v : Value} {last : Frame}
    (h : run (invoke depth) (Discipline.bodySetting f program) (frameOf f.body own .empty) =
      .ok v last) : v.Printable := by
  have hk := printing_lasting.kept
  have hcalls : printing.discipline.Calls (invoke depth) (invoke depth) :=
    Discipline.agree_invoke hk printing_lasting.bodies trivial (.inl rfl)
  have hprograms : printing.discipline.programs program program := ⟨rfl, hprogram⟩
  obtain ⟨-, hends⟩ := Discipline.run_tokens (Discipline.rules_plainRule hk) hk hcalls
    (Demands.Lasting.stream hbody) (Discipline.bodySettings hprograms f) hown .empty
  rw [h] at hends
  exact hends.2

/-- **A call in a program whose values can be printed** is seen as its body is. -/
lemma calledWith_noted (hprogram : printing.scope program) (hbody : ∀ t ∈ f.body, t.Printable)
    (hf : ∀ p ∈ f.parameters, p.Declared)
    (hls : ∀ l ∈ ls, l.isSound = true ∧ Value.Printable (some l)) :
    (f.calledWith line ls fun own => noted (seen (run (invoke depth)
      (Discipline.bodySetting f program) (frameOf f.body own .empty)))) =
    f.calledWith line ls fun own => seen (run (invoke depth) (Discipline.bodySetting f program)
      (frameOf f.body own .empty)) := by
  unfold Function.calledWith
  split
  · rfl
  · rename_i hlength
    split
    · rfl
    · rename_i entries hentries
      have hbind : f.bindArguments line (ls.map some) = .ok ⟨Table.ofList entries⟩ := by
        rw [bindArguments_eq hf (fun l hl => (hls l hl).1) (not_not.1 hlength), hentries]
        rfl
      have hvalues : ∀ v ∈ ls.map some, printing.value v := by
        intro v hv
        obtain ⟨l, hl, rfl⟩ := List.mem_map.1 hv
        exact (hls l hl).2
      have hown : printing.scope ⟨Table.ofList entries⟩ :=
        (printing_lasting.checks_bindArguments hbody hvalues).of_ok hbind
      exact noted_of_printable fun v last => printable_of_body hprogram hbody hown

end Calls

end Hive
