import Hive.Proofs.Policies
import Hive.Proofs.Sessions
import Mathlib.Data.Finset.Card
import Mathlib.Data.List.Infix
import Mathlib.Logic.Relation

/-!
Programs come to an end if their functions do not call one another in circles. A function can only
call what comes right after `run` in its body, since a body declares no functions; so each call has
fewer functions within its reach than the one it is made from, and calls nest no deeper than there
are entries in the scope of the program. Main statement: `Session.acyclic_ends`.
-/

namespace Hive

open Evaluator

/-! ### The graph of calls -/

/-- **The function runs a name**: somewhere in its body, an identifier under that key comes right
after `run`. -/
def Function.Runs (f : Function) (key : Json) : Prop :=
  ∃ run name : Token, [run, name] <:+: f.body ∧ run.kind = .keyword .runWord ∧
    name.kind = .identifier ∧ name.lexeme.key = .ok key

namespace Scope

variable (s : Scope)

/-- The function under the first key runs the second one. -/
def CallsTo (caller callee : Json) : Prop :=
  ∃ f, (caller, .func f) ∈ s.entries ∧ f.Runs callee

/-- **No function gets back to itself** by any chain of calls. -/
def Acyclic : Prop := ∀ key, ¬Relation.TransGen s.CallsTo key key

def keys : Finset Json := (s.entries.map Prod.fst).toFinset

open Classical in
/-- The keys that the function under a key can get to. -/
noncomputable def reach (key : Json) : Finset Json :=
  s.keys.filter fun k => Relation.TransGen s.CallsTo key k

variable {s}

lemma mem_keys {key : Json} {e : Entry} (h : (key, e) ∈ s.entries) : key ∈ s.keys :=
  List.mem_toFinset.2 (List.mem_map.2 ⟨(key, e), h, rfl⟩)

lemma card_keys_le : s.keys.card ≤ s.size := by
  have h := (s.entries.map Prod.fst).toFinset_card_le
  rwa [List.length_map] at h

@[simp]
lemma mem_reach {caller key : Json} :
    key ∈ s.reach caller ↔ key ∈ s.keys ∧ Relation.TransGen s.CallsTo caller key := by
  classical
  simp [reach]

lemma Acyclic.not_mem_reach (hs : s.Acyclic) (key : Json) : key ∉ s.reach key :=
  fun h => hs key (mem_reach.1 h).2

/-- What is called can get to less than its caller. -/
lemma card_reach_lt (hs : s.Acyclic) {caller callee : Json}
    (hcall : Relation.TransGen s.CallsTo caller callee) (hmem : callee ∈ s.keys) :
    (s.reach callee).card < (s.reach caller).card := by
  have hsubset : s.reach callee ⊆ s.reach caller := by
    intro key hkey
    obtain ⟨hkey, hreach⟩ := mem_reach.1 hkey
    exact mem_reach.2 ⟨hkey, hcall.trans hreach⟩
  exact Finset.card_lt_card ((Finset.ssubset_iff_of_subset hsubset).2
    ⟨callee, mem_reach.2 ⟨hmem, hcall⟩, hs.not_mem_reach callee⟩)

/-- No function can get to as many keys as there are entries. -/
lemma card_reach_lt_size (hs : s.Acyclic) {key : Json} (hmem : key ∈ s.keys) :
    (s.reach key).card < s.size := by
  have hsubset : s.reach key ⊆ s.keys := fun k hk => (mem_reach.1 hk).1
  have hlt : (s.reach key).card < s.keys.card :=
    Finset.card_lt_card ((Finset.ssubset_iff_of_subset hsubset).2
      ⟨key, hmem, hs.not_mem_reach key⟩)
  exact Nat.lt_of_lt_of_le hlt card_keys_le

/-- A rank that falls with every call rules out circles. -/
lemma acyclic_of_rank (rank : Json → Nat)
    (h : ∀ caller callee, s.CallsTo caller callee → rank callee < rank caller) : s.Acyclic := by
  have hfalls : ∀ {caller callee}, Relation.TransGen s.CallsTo caller callee →
      rank callee < rank caller := by
    intro caller callee hcalls
    induction hcalls with
    | single hcall => exact h _ _ hcall
    | tail _ hcall ih => exact Nat.lt_trans (h _ _ hcall) ih
  intro key hcycle
  exact Nat.lt_irrefl _ (hfalls hcycle)

end Scope

/-! ### Calls come to an end -/

/-- The policy for calls in a program that has no functions but those of a scope, and where only
names of a class are run. Calls must not nest too deep. -/
abbrev ending (program : Scope) (called : Json → Prop) : Policy :=
  Policy.undeclaring .rightBrace (fun _ _ => False) (fun k f => (k, .func f) ∈ program.entries)
    called False

section Ending

variable {program : Scope}

lemma ending_kept (called : Json → Prop) : (ending program called).discipline.Kept :=
  (Policy.undeclaring_lasting (.inr rfl) fun _ _ => False.elim).kept

/-- The body of a function runs what the function can get to. -/
lemma ending_stream {key : Json} {f : Function} (hf : (key, .func f) ∈ program.entries)
    (hbody : ∀ t ∈ f.body, t.kind ≠ .rightBrace) :
    (ending program (Relation.TransGen program.CallsTo key)).discipline.Stream f.body := by
  refine Policy.undeclaring_stream hbody fun run name hinfix hrun hid k hk => ?_
  exact .single ⟨f, hf, run, name, hinfix, hrun, hid, hk⟩

variable
  (hbodies : ∀ key f, (key, .func f) ∈ program.entries → ∀ t ∈ f.body, t.kind ≠ .rightBrace)
  (hacyclic : program.Acyclic)

include hbodies hacyclic

/-- **A call ends** if the bound is more than what its function can get to. -/
theorem ending_invoke {depth : Nat} {key : Json} {f : Function}
    (hf : (key, .func f) ∈ program.entries) (hdepth : (program.reach key).card < depth)
    {p : Scope} (hp : p.Functions fun k f => (k, .func f) ∈ program.entries)
    (arguments : List Value) (line : Int) :
    (ending program fun _ => True).discipline.console.Agree
      ((ending program fun _ => True).discipline.stop false) (fun _ => True)
      (invoke depth p f arguments line) (invoke depth p f arguments line) := by
  induction depth generalizing key f p arguments line with
  | zero => omega
  | succ depth ih =>
    -- the policy for the body: it runs nothing but what the function can get to
    have hk : (ending program (Relation.TransGen program.CallsTo key)).discipline.Kept :=
      ending_kept _
    have hcalls : (ending program (Relation.TransGen program.CallsTo key)).discipline.Calls
        (invoke depth) (invoke depth) := by
      rintro p q g arguments line ⟨rfl, hp⟩ ⟨k, hreach, hg⟩ - -
      -- without a cycle the callee gets to fewer functions than its caller
      have hlt := Scope.card_reach_lt hacyclic hreach (Scope.mem_keys hg)
      exact ih hg (by omega) hp arguments line
    have hcallee : (ending program fun _ => True).discipline.callee f := ⟨key, trivial, hf⟩
    have hany : (ending program fun _ => True).discipline.Kept := ending_kept _
    refine Discipline.agree_callWith hany hany.bindArguments hcallee (fun _ _ => trivial)
      (Policy.line_iff.2 trivial) fun scope hscope => ?_
    have hbody := Discipline.agree_runBodyBy (Discipline.rules_plainRule hk) hk hcalls
      ⟨rfl, hp⟩ (ending_stream hf (hbodies key f hf)) hscope
    simp only [runBodyBy_plainRule] at hbody
    exact hbody

/-- A program ends if it declares no function, since it cannot call any but those of its scope. -/
theorem ending_runProgram {tokens : List Token} (htokens : ∀ t ∈ tokens, t.kind ≠ .leftBrace)
    {scope : Scope} (hscope : scope.Functions fun k f => (k, .func f) ∈ program.entries)
    (last : Frame) : runProgram program.size tokens scope ≠ .error .exhausted last := by
  let known (k : Json) (f : Function) : Prop := (k, .func f) ∈ program.entries
  let D := (Policy.undeclaring .leftBrace known known (fun _ => True) False).discipline
  have hlasting : (Policy.undeclaring .leftBrace known known (fun _ => True) False).Lasting :=
    Policy.undeclaring_lasting (.inl rfl) fun _ _ h => h
  have hcalls : D.Calls (invoke program.size) (invoke program.size) := by
    rintro p q f arguments line ⟨rfl, hp⟩ ⟨k, -, hf⟩ - -
    have hdepth := Scope.card_reach_lt_size hacyclic (Scope.mem_keys hf)
    exact ending_invoke hbodies hacyclic hf hdepth hp arguments line
  have hstream : D.Stream tokens :=
    Policy.undeclaring_stream htokens fun _ _ _ _ _ _ _ => trivial
  obtain ⟨-, hends⟩ := Discipline.run_program hlasting.kept hcalls hlasting.programs_self hstream
    hscope
  intro hexhausted
  rw [hexhausted] at hends
  exact hends.2

end Ending

/-- A call that ends by some depth is the same at any greater one. -/
lemma invoke_of_ends {depth : Nat} {program : Scope} {f : Function} {arguments : List Value}
    {line : Int} {console : Console}
    (hends : ∀ c, invoke depth program f arguments line console ≠ .error .exhausted c) :
    ∃ r, (∀ c, r ≠ .error .exhausted c) ∧
      ∀ deeper ≥ depth, invoke deeper program f arguments line console = r := by
  refine ⟨_, hends, fun deeper h => ?_⟩
  rcases invoke_deeper h program f arguments line console with heq | ⟨c, hc⟩
  · exact heq
  · exact absurd hc (hends c)

/-- **Programs without circles come to an end.** Let no body of a scope have a closing brace, and
let no function of it get back to itself by calls. Then all calls of its functions come to an end,
and so do all runs of tokens without an opening brace in a session with this scope: calls nest no
deeper than there are entries, so every greater bound gives the same. -/
theorem Session.acyclic_ends (program : Scope)
    (hbodies : ∀ key f, (key, .func f) ∈ program.entries → ∀ t ∈ f.body, t.kind ≠ .rightBrace)
    (hacyclic : program.Acyclic) :
    (∀ key f, (key, .func f) ∈ program.entries → ∀ arguments line console,
      ∃ r, (∀ c, r ≠ .error .exhausted c) ∧
        ∀ depth ≥ program.size, invoke depth program f arguments line console = r) ∧
    ∀ s : Session, s.scope = program → ∀ tokens, (∀ t ∈ tokens, t.kind ≠ .leftBrace) →
      ∃ r : Report × Session, r.1.outcome ≠ .error .exhausted ∧
        ∀ depth ≥ program.size, s.run depth tokens = r := by
  have hself : program.Functions fun k f => (k, .func f) ∈ program.entries := by
    rintro ⟨k, e⟩ hx f rfl
    exact hx
  constructor
  · intro key f hf arguments line console
    have hdepth := Scope.card_reach_lt_size hacyclic (Scope.mem_keys hf)
    have hagree := ending_invoke hbodies hacyclic hf hdepth hself arguments line
    refine invoke_of_ends fun c hc => ?_
    have hends := (hagree console trivial).2
    rw [hc] at hends
    exact hends.2
  · rintro s rfl tokens htokens
    -- one run that ends is enough, since a deeper one ends alike
    have hends : (s.run s.scope.size tokens).1.outcome ≠ .error .exhausted := by
      intro hexhausted
      rcases stop_of_runAfter hexhausted with ⟨last, hlast⟩ | ⟨f, hf⟩
      · exact ending_runProgram hbodies hacyclic htokens hself last hlast
      · cases hf
    exact ⟨_, hends, fun depth h => runAfter_deeper h [] tokens s hends⟩

section Layered

/-- The function `int fourfold(int n)`, which returns what `twice` makes of what it makes of `n`. -/
def fourfold : Function where
  name := plainToken .identifier "fourfold"
  returns := .typeName .int
  parameters := [⟨plainToken .identifier "n", .typeName .int⟩]
  body := [plainToken (.keyword .returnWord) "return", plainToken (.keyword .runWord) "run",
    plainToken .identifier "twice", plainToken .leftParen "(",
    plainToken (.keyword .runWord) "run", plainToken .identifier "twice", plainToken .leftParen "(",
    plainToken .identifier "n", plainToken .rightParen ")", plainToken .rightParen ")"]

/-- A program with two functions, of which one calls the other. -/
def layeredProgram : Scope := ⟨[(.str "twice", .func twice), (.str "fourfold", .func fourfold)]⟩

def fourfoldCall : List Token :=
  [plainToken (.keyword .runWord) "run", plainToken .identifier "fourfold",
    plainToken .leftParen "(", ⟨.literal .int, .str "5", .int 5, 1⟩, plainToken .rightParen ")"]

lemma function_of_layeredProgram {key : Json} {f : Function}
    (h : (key, .func f) ∈ layeredProgram.entries) :
    key = .str "twice" ∧ f = twice ∨ key = .str "fourfold" ∧ f = fourfold := by
  simpa [layeredProgram] using h

lemma acyclic_layeredProgram : layeredProgram.Acyclic := by
  have htwice : ∀ t ∈ twice.body, t.kind ≠ .keyword .runWord := by decide
  have hfourfold : ∀ t ∈ fourfold.body, t.lexeme.key ≠ .ok (.str "fourfold") := by decide
  refine Scope.acyclic_of_rank (fun key => if key = .str "fourfold" then 1 else 0) ?_
  rintro caller callee ⟨f, hf, run, name, hinfix, hrun, -, hkey⟩
  have hrunmem : run ∈ f.body := hinfix.subset (by simp)
  have hnamemem : name ∈ f.body := hinfix.subset (by simp)
  rcases function_of_layeredProgram hf with ⟨-, rfl⟩ | ⟨rfl, rfl⟩
  · exact absurd hrun (htwice run hrunmem)
  · have hne : callee ≠ .str "fourfold" := fun h => hfourfold name hnamemem (h ▸ hkey)
    simp [hne]

theorem Session.acyclic_ends_layered :
    layeredProgram.Acyclic ∧ layeredProgram.CallsTo (.str "fourfold") (.str "twice") ∧
      ∃ r : Report × Session, r.1.outcome.toOption = some (some (.int 20)) ∧
        ∀ depth ≥ 2, Session.run depth fourfoldCall ⟨0, layeredProgram, none, false, []⟩ = r := by
  have hbodies : ∀ key f, (key, .func f) ∈ layeredProgram.entries →
      ∀ t ∈ f.body, t.kind ≠ .rightBrace := by
    intro key f hf
    rcases function_of_layeredProgram hf with ⟨-, rfl⟩ | ⟨-, rfl⟩ <;> decide
  have hcalls : layeredProgram.CallsTo (.str "fourfold") (.str "twice") := by
    refine ⟨fourfold, by simp [layeredProgram], plainToken (.keyword .runWord) "run",
      plainToken .identifier "twice", ⟨[plainToken (.keyword .returnWord) "return"], _, rfl⟩, rfl,
      rfl, rfl⟩
  have hvalue : (Session.run 2 fourfoldCall
      ⟨0, layeredProgram, none, false, []⟩).1.outcome.toOption = some (some (.int 20)) := by
    decide +kernel
  obtain ⟨r, -, hr⟩ := (acyclic_ends layeredProgram hbodies acyclic_layeredProgram).2
    ⟨0, layeredProgram, none, false, []⟩ rfl fourfoldCall (by decide)
  rw [hr 2 (Nat.le_refl 2)] at hvalue
  exact ⟨acyclic_layeredProgram, hcalls, r, hvalue, hr⟩

end Layered

end Hive
