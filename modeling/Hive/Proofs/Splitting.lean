import Hive.Proofs.Echoing

/-!
How the arguments of a call are split. If a call comes to a value, then the tokens between its
commas have been evaluated one after the other, each as it is evaluated alone in the scope that
those before it have left, and the literals they come to are handed to the function.
-/

namespace Hive

open Evaluator

/-- **Parts with commas between them**, in one list of tokens. -/
inductive Separated : List (List Token) → List Token → Prop where
  | none : Separated [] []
  | last (part : List Token) : Separated [part] part
  | more {part next list : List Token} {parts : List (List Token)} {comma : Token}
    (hcomma : comma.kind = .comma) (h : Separated (next :: parts) list) :
    Separated (part :: next :: parts) (part ++ comma :: list)

lemma Separated.exists_append {part list : List Token} {parts : List (List Token)}
    (h : Separated (part :: parts) list) : ∃ rest, list = part ++ rest := by
  cases h with
  | last => exact ⟨[], (List.append_nil part).symm⟩
  | more hcomma h => exact ⟨_, rfl⟩

/-- Whether tokens can be an argument of a call: there are some, their parentheses are balanced, and
there is no comma outside of parentheses and no terminator. -/
def isArgument (tokens : List Token) : Bool := !tokens.isEmpty && closes 0 tokens

/-- **The tokens alone come to a literal.** They are the only ones of an evaluation that starts with
a scope and a console, and one expression reads all of them. -/
def Alone (depth : Nat) (setting : Setting) (tokens : List Token) (own : Scope) (console : Console)
    (l : Literal) (own' : Scope) (console' : Console) : Prop :=
  let alone : Setting := { setting with endLine := endLine tokens }
  (advance alone >>= fun first => evaluate (invoke depth) alone first true)
    (frameOf tokens own console) = .ok (some l) (frameOf [] own' console')

/-- **The parts come to literals in turn**, each one alone with what those before it have left. -/
inductive InTurn (depth : Nat) (setting : Setting) :
    List (List Token) → Scope → Console → List Literal → Scope → Console → Prop where
  | nil (own : Scope) (console : Console) : InTurn depth setting [] own console [] own console
  | cons {part : List Token} {parts : List (List Token)} {own own₁ own₂ : Scope}
    {console console₁ console₂ : Console} {l : Literal} {ls : List Literal}
    (h : Alone depth setting part own console l own₁ console₁)
    (hs : InTurn depth setting parts own₁ console₁ ls own₂ console₂) :
    InTurn depth setting (part :: parts) own console (l :: ls) own₂ console₂

lemma InTurn.length_eq {depth : Nat} {setting : Setting} {parts : List (List Token)}
    {own own' : Scope} {console console' : Console} {ls : List Literal}
    (h : InTurn depth setting parts own console ls own' console') : ls.length = parts.length := by
  induction h with
  | nil => rfl
  | cons _ _ ih => rw [List.length_cons, List.length_cons, ih]

namespace Splitting

variable {depth m : Nat} {a : Setting} {f f' : Frame} {β : Border}

lemma exists_of_isArgument {part : List Token} (h : isArgument part = true) :
    ∃ t rest, part = t :: rest ∧ closes 0 part = true ∧ t.kind ≠ .comma ∧ t.kind ≠ .rightParen := by
  cases part with
  | nil => cases h
  | cons t rest =>
    have hcloses : closes 0 (t :: rest) = true := h
    exact ⟨t, rest, rfl, hcloses, fun hk => depth_of_closes hcloses (.inl hk) rfl,
      fun hk => depth_of_closes hcloses (.inr hk) rfl⟩

/-- **One argument.** Of its tokens, those are left that are left of them alone. -/
lemma alone_of_argument {part : List Token} {l : Literal} (hpart : isArgument part = true)
    (hf : f.rest = part ++ β.mark :: β.after) (hpast : f.past = β.past)
    (h : argument a (expression (invoke depth) a m) f = .ok (some l) f') :
    ∃ left, closes 0 left = true ∧
      f' = { f with
        rest := left ++ β.mark :: β.after, scope := f'.scope, console := f'.console } ∧
      (advance { a with endLine := endLine part } >>= fun first =>
        evaluate (invoke depth) { a with endLine := endLine part } first true)
          (frameOf part f.scope f.console) =
        .ok (some l) ⟨left, 0, false, f'.scope, f'.console⟩ := by
  obtain ⟨t, rest, hcons, hcloses, -, hright⟩ := exists_of_isArgument hpart
  have hstart : β.Within part.length 0 false { f with inArguments := true }
      (frameOf part f.scope f.console) :=
    ⟨hf, hcloses, Nat.le_refl _, ⟨rfl, rfl⟩, ⟨hpast, rfl⟩, rfl, rfl⟩
  have hs : Joint.Settings a { a with endLine := endLine part } := ⟨rfl, rfl⟩
  -- a run on the part alone echoes the one in the list, up to the border after the part
  have hechoes : EchoesAt (β.Within part.length 0 false) (· ≠ none)
      (advance a >>= fun first => expression (invoke depth) a m first true)
      (advance { a with endLine := endLine part } >>= fun first =>
        evaluate (invoke depth) { a with endLine := endLine part } first true)
      { f with inArguments := true } (frameOf part f.scope f.console) := by
    refine Border.echoes_advance_cons hstart hcons fun f₁ g₁ h₁ v f₂ hv hnone => ?_
    obtain ⟨g₂, hg₂, h₂⟩ := Border.echoes_expression hs depth (Nat.lt_add_of_pos_right Nat.two_pos)
      (.inl rfl) true hright h₁.tight v f₂ hv hnone
    exact ⟨g₂, hg₂, h₂.mono (Nat.le_trans h₁.length (Nat.sub_le _ 1))⟩
  rw [argument_eq] at h
  revert h
  cases hr : (advance a >>= fun first => expression (invoke depth) a m first true)
    { f with inArguments := true } with
  | error stop f₁ => exact fun h => nomatch h
  | ok v f₁ =>
    intro h
    cases h
    obtain ⟨⟨left, past, i, own, console⟩, hg, h'⟩ := hechoes _ f₁ hr (Option.some_ne_none l)
    obtain ⟨rest₁, past₁, i₁, own₁, console₁⟩ := f₁
    obtain rfl : rest₁ = left ++ β.mark :: β.after := h'.rest
    obtain rfl : past₁ = β.past := h'.past.1
    obtain rfl : past = 0 := h'.past.2
    obtain rfl : i = false := h'.inArguments.2
    obtain rfl : own = own₁ := h'.scope
    obtain rfl : console = console₁ := h'.console
    refine ⟨left, h'.closes, ?_, hg⟩
    rw [← hpast]

/-- If a comma or a closing parenthesis comes next, nothing is left of the argument. -/
lemma eq_nil_of_closes {left tail : List Token} {fallback : Token} (h : closes 0 left = true)
    (hnext : ((left ++ tail).headD fallback).kind = .comma ∨
      ((left ++ tail).headD fallback).kind = .rightParen) : left = [] := by
  cases left with
  | nil => rfl
  | cons t rest => exact absurd rfl (depth_of_closes h hnext)

lemma arguments_cases {e : Evaluation} {n : Nat} {values : List Value}
    (h : arguments a e n f = .ok values f') :
    ∃ v f₁, argument a e f = .ok v f₁ ∧
      ((f₁.rest.headD (.atEnd a.endLine)).kind = .comma ∧ (∃ n' vs, values = v :: vs ∧
          (advance a >>= fun _ => arguments a e n') f₁ = .ok vs f') ∨
        (f₁.rest.headD (.atEnd a.endLine)).kind ≠ .comma ∧ values = [v] ∧ f' = f₁) := by
  cases n with
  | zero => cases h
  | succ n =>
    obtain ⟨v, f₁, hv, h⟩ := bind_eq_ok h
    refine ⟨v, f₁, hv, ?_⟩
    change (if (f₁.rest.headD (.atEnd a.endLine)).kind = .comma then
        advance a >>= fun _ => arguments a e n >>= fun vs => pure (v :: vs)
      else pure [v]) f₁ = .ok values f' at h
    split at h
    · rename_i hcomma
      rw [← bind_assoc] at h
      obtain ⟨vs, f₂, hvs, h⟩ := bind_eq_ok h
      cases h
      exact .inl ⟨hcomma, n, vs, rfl, hvs⟩
    · rename_i hcomma
      cases h
      exact .inr ⟨hcomma, rfl, rfl⟩

/-- **All arguments**, by induction on the parts between the commas: each is followed by a comma, or
by the parenthesis that closes the call. -/
lemma inTurn_of_arguments {parts : List (List Token)} {list after : List Token} {closing : Token}
    {n : Nat} {values : List Value} (hparts : Separated parts list) (hne : parts ≠ [])
    (hargument : ∀ part ∈ parts, isArgument part = true) (hclosing : closing.kind = .rightParen)
    (hf : f.rest = list ++ closing :: after)
    (h : arguments a (expression (invoke depth) a m) n f = .ok values f')
    (hnext : (f'.rest.headD (.atEnd a.endLine)).kind = .rightParen) (hvalues : none ∉ values) :
    ∃ ls own console, values = ls.map some ∧
      InTurn depth a parts f.scope f.console ls own console ∧
      f' = { f with rest := closing :: after, scope := own, console := console } := by
  -- on the parts; the border of a part is the comma after it, or the parenthesis after the last
  induction hparts generalizing f n values with
  | none => exact absurd rfl hne
  | last part =>
    obtain ⟨v, f₁, hv, hmore⟩ := arguments_cases h
    obtain ⟨l, rfl⟩ : ∃ l, v = some l := by
      refine Option.ne_none_iff_exists'.1 fun hnone => hvalues ?_
      rcases hmore with ⟨-, n', vs, rfl, -⟩ | ⟨-, rfl, -⟩ <;> simp [hnone]
    let β : Border := ⟨closing, after, f.past, .inr hclosing⟩
    obtain ⟨left, hcloses, hf₁, halone⟩ :=
      alone_of_argument (β := β) (hargument part (by simp)) hf rfl hv
    rw [hf₁] at hmore
    rcases hmore with ⟨hcomma, -⟩ | ⟨-, rfl, rfl⟩
    · obtain rfl := eq_nil_of_closes hcloses (.inl hcomma)
      exact absurd (hcomma.symm.trans hclosing) nofun
    · obtain rfl := eq_nil_of_closes hcloses (.inr hnext)
      exact ⟨[l], _, _, rfl, .cons halone (.nil _ _), rfl⟩
  | @more part next list parts comma hcomma hparts ih =>
    obtain ⟨v, f₁, hv, hmore⟩ := arguments_cases h
    obtain ⟨l, rfl⟩ : ∃ l, v = some l := by
      refine Option.ne_none_iff_exists'.1 fun hnone => hvalues ?_
      rcases hmore with ⟨-, n', vs, rfl, -⟩ | ⟨-, rfl, -⟩ <;> simp [hnone]
    let β : Border := ⟨comma, list ++ closing :: after, f.past, .inl hcomma⟩
    obtain ⟨left, hcloses, hf₁, halone⟩ :=
      alone_of_argument (β := β) (hargument part (by simp)) (by simpa using hf) rfl hv
    rw [hf₁] at hmore
    rcases hmore with ⟨hnext', n', vs, rfl, hvs⟩ | ⟨hnext', rfl, rfl⟩
    · -- what is left of a part closes what it opens, and a comma comes next: nothing is left
      obtain rfl := eq_nil_of_closes hcloses (.inl hnext')
      rw [bind_of_ok (advance_of_rest rfl)] at hvs
      obtain ⟨ls, own, console, rfl, hturn, rfl⟩ := ih (by simp)
        (fun part hpart => hargument part (List.mem_cons_of_mem _ hpart)) rfl hvs
        fun hnone => hvalues (by simp [hnone])
      exact ⟨l :: ls, own, console, rfl, .cons halone hturn, rfl⟩
    · obtain rfl := eq_nil_of_closes hcloses (.inr hnext)
      exact absurd hcomma hnext'

lemma ensure_eq_ok {p : Prop} [Decidable p] {line : Int} {problem : Problem} {u : Unit}
    (h : ensure p line problem f = .ok u f') : p ∧ f' = f := by
  unfold ensure at h
  split at h
  · rename_i hp
    cases h
    exact ⟨hp, rfl⟩
  · cases h

/-- After the arguments, the closing parenthesis is read, and the function is called. -/
lemma callFound_cases {e : Evaluation} {function : Function} {name opening : Token}
    {rest : List Token} {v : Value} (hf : f.rest = opening :: rest)
    (h : callFound a (invoke depth) e function name f = .ok v f') :
    ∃ values f₁ console, argumentList a e { f with rest := rest } = .ok values f₁ ∧
      (f₁.rest.headD (.atEnd a.endLine)).kind = .rightParen ∧
      invoke depth (a.program.getD f₁.scope) function values name.line f₁.console = .ok v console ∧
      f' = { f₁ with rest := f₁.rest.tail, console := console } := by
  obtain ⟨t, f₀, ht, h⟩ := bind_eq_ok h
  rw [advance_of_rest hf] at ht
  cases ht
  obtain ⟨values, f₁, hvalues, h⟩ := bind_eq_ok h
  obtain ⟨closing, f₂, hpeek, h⟩ := bind_eq_ok h
  cases hpeek
  obtain ⟨u, f₃, hensure, h⟩ := bind_eq_ok h
  obtain ⟨hclosing, heq⟩ := ensure_eq_ok hensure
  rw [heq] at h
  cases hrest : f₁.rest with
  | nil =>
    rw [hrest] at hclosing
    cases hclosing
  | cons t tail =>
    rw [bind_of_ok (advance_of_rest hrest)] at h
    obtain ⟨own, f₄, hown, h⟩ := bind_eq_ok h
    cases hown
    obtain ⟨c, hc, rfl⟩ := onConsole_eq_ok h
    exact ⟨values, f₁, c, hvalues, hclosing, hc, by rw [hrest]; rfl⟩

lemma argumentList_eq {e : Evaluation}
    (h : (f.rest.headD (.atEnd a.endLine)).kind ≠ .rightParen) :
    argumentList a e f = arguments a e (f.rest.length + 1) f := by
  show (if (f.rest.headD (.atEnd a.endLine)).kind = .rightParen then
      (pure [] : EvalM (List Value))
    else do arguments a e ((← get).rest.length + 1)) f = _
  rw [if_neg h]
  rfl

end Splitting

open Splitting

/-- **Arguments are split at the commas.** Let a call come to a value, with parts between its
parentheses each of which can be an argument. Then the function has as many parameters, the parts
came to literals in turn, each of them as it does alone in the scope that those before it have left,
and the function was called with those; the closing parenthesis was the last token to be read. -/
theorem call_split {depth : Nat} {setting : Setting} {frame last : Frame} {operators : Bool}
    {first name opening closing : Token} {parts : List (List Token)} {list after : List Token}
    {v : Value} (hrun : first.kind = .keyword .runWord) (hopening : opening.kind = .leftParen)
    (hclosing : closing.kind = .rightParen) (hparts : Separated parts list) (hne : parts ≠ [])
    (hargument : ∀ part ∈ parts, isArgument part = true)
    (hrest : frame.rest = name :: opening :: (list ++ closing :: after))
    (h : evaluate (invoke depth) setting first operators frame = .ok v last) :
    ∃ f ls own console console', lookUpFunction setting frame.scope name = .ok f ∧
      f.parameters.length = parts.length ∧
      InTurn depth setting parts frame.scope frame.console ls own console ∧
      invoke depth (setting.program.getD own) f (ls.map some) name.line console = .ok v console' ∧
      last = { frame with rest := after, scope := own, console := console' } := by
  let e := expression (invoke depth) setting (frame.rest.length + 1)
  replace h : call setting (invoke depth) e name
      { frame with rest := opening :: (list ++ closing :: after) } = .ok v last := by
    rw [← plainRule_run hrun hrest]
    exact h
  have hid : name.kind = .identifier := by
    obtain ⟨u, f₁, hensure, -⟩ := bind_eq_ok h
    exact (ensure_eq_ok hensure).1
  rw [call_of_opening hid hopening rfl] at h
  cases hf : lookUpFunction setting frame.scope name with
  | error failure =>
    rw [hf] at h
    cases h
  | ok f =>
    rw [hf] at h
    obtain ⟨f, f₀, hfound, h⟩ := bind_eq_ok h
    cases hfound
    obtain ⟨values, f₁, console', hvalues, hnext, hinvoke, rfl⟩ := callFound_cases rfl h
    obtain ⟨hlength, hnone⟩ := arguments_of_invoke hinvoke
    have hhead :
        ((list ++ closing :: after).headD (.atEnd setting.endLine)).kind ≠ .rightParen := by
      obtain ⟨part, more, rfl⟩ := List.exists_cons_of_ne_nil hne
      obtain ⟨t, rest, rfl, -, -, ht⟩ := exists_of_isArgument (hargument part List.mem_cons_self)
      obtain ⟨others, rfl⟩ := hparts.exists_append
      exact ht
    rw [argumentList_eq hhead] at hvalues
    obtain ⟨ls, own, console, rfl, hturn, rfl⟩ :=
      inTurn_of_arguments hparts hne hargument hclosing rfl hvalues hnext hnone
    have hparameters : f.parameters.length = parts.length := by
      rw [← hlength, List.length_map, hturn.length_eq]
    exact ⟨f, ls, own, console, console', rfl, hparameters, hturn, hinvoke, rfl⟩

section Sums

/-- The function `int sum(int a, int b)`, which returns `a + b`. -/
def sum : Function where
  name := plainToken .identifier "sum"
  returns := .typeName .int
  parameters := [⟨plainToken .identifier "a", .typeName .int⟩,
    ⟨plainToken .identifier "b", .typeName .int⟩]
  body := Token.ofText "return a + b"

def sumProgram : Scope :=
  ⟨[(.str "sum", .func sum),
    (.str "x", .var ⟨plainToken .identifier "x", some (.int 5), .typeName .int⟩)]⟩

/-- Two arguments; the second one is a call, and gives the variable another value. -/
def sumParts : List (List Token) := [Token.ofText "(1 + 2) * x", Token.ofText "run sum(x, x = 7)"]

def sumList : List Token :=
  Token.ofText "(1 + 2) * x" ++ plainToken .comma "," :: Token.ofText "run sum(x, x = 7)"

/-- The call, from the name of the function on, with more after it. -/
def sumTokens : List Token :=
  plainToken .identifier "sum" :: plainToken .leftParen "(" ::
    (sumList ++ plainToken .rightParen ")" :: Token.ofText ". x")

theorem call_split_sum :
    ∃ v last, Separated sumParts sumList ∧ (∀ part ∈ sumParts, isArgument part = true) ∧
      evaluate (invoke 3) ⟨1, none, false⟩ (plainToken (.keyword .runWord) "run") true
        (frameOf sumTokens sumProgram .empty) = .ok v last ∧ v = some (.int 27) ∧
      ∃ f ls own console console',
        lookUpFunction ⟨1, none, false⟩ sumProgram (plainToken .identifier "sum") = .ok f ∧
        f.parameters.length = sumParts.length ∧
        InTurn 3 ⟨1, none, false⟩ sumParts sumProgram .empty ls own console ∧
        invoke 3 own f (ls.map some) 1 console = .ok v console' ∧
        last = frameOf (Token.ofText ". x") own console' := by
  have hparts : Separated sumParts sumList := .more rfl (.last _)
  have hargument : ∀ part ∈ sumParts, isArgument part = true := by decide +kernel
  have hvalue : (seen (evaluate (invoke 3) ⟨1, none, false⟩ (plainToken (.keyword .runWord) "run")
      true (frameOf sumTokens sumProgram .empty))).1 = .ok (some (.int 27)) := by
    decide +kernel
  cases h : evaluate (invoke 3) ⟨1, none, false⟩ (plainToken (.keyword .runWord) "run") true
    (frameOf sumTokens sumProgram .empty) with
  | error stop last =>
    rw [h] at hvalue
    cases hvalue
  | ok v last =>
    rw [h] at hvalue
    exact ⟨v, last, hparts, hargument, rfl, Except.ok.inj hvalue,
      call_split rfl rfl rfl hparts (by simp [sumParts]) hargument rfl h⟩

end Sums

end Hive
