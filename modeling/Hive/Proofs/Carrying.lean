import Hive.Proofs.Isolation
import Hive.Proofs.Naming
import Hive.Proofs.Reductions

/-!
A text with another one after it. The evaluation of tokens up to their end is compared with an
evaluation in which a semicolon and more tokens come after them. As long as the first one does not
fail, the second one **carries** it: it does the same up to the **joint**, where the end is read in
the first and the semicolon in the second. The two are told apart by nothing but the note of a
`clear` before the joint.
-/

namespace Hive

open Evaluator

abbrev Rests := List Token → List Token → Prop

/-- The frames differ in the tokens left and in their notes only, and names are names. In both, the
arguments of a call are being read, or in neither. The tokens left are related by `R` all the
time. -/
structure Alike (R : Rests) (i : Bool) (f g : Frame) : Prop where
  inArguments : f.inArguments = i ∧ g.inArguments = i
  scope : g.scope = f.scope
  output : g.console.output = f.console.output
  named : f.scope.Named
  past : g.past = 0
  rest : R f.rest g.rest

section Carries

variable {α β : Type}

/-- **The second result carries the first**: it has the same value, or returns the same, in a frame
that is alike. Nothing is said where the first one fails. -/
def Carried (R : Rests) (i : Bool) (T : Rests) :
    EStateM.Result Stop Frame α → EStateM.Result Stop Frame α → Prop
  | .ok a f, r => ∃ g, r = .ok a g ∧ T f.rest g.rest ∧ Alike R i f g
  | .error (.returned v) f, r => ∃ g, r = .error (.returned v) g ∧ Alike R i f g
  | .error _ _, _ => True

/-- **The second computation carries the first** from frames whose tokens are related by `S` to
such whose tokens are related by `T`. -/
def Carries (R S T : Rests) (m n : EvalM α) : Prop :=
  ∀ i f g, S f.rest g.rest → Alike R i f g → Carried R i T (m f) (n g)

variable {R S S' T T' U : Rests} {m n : EvalM α} {k l : α → EvalM β}

lemma Carried.mono {i : Bool} {r r' : EStateM.Result Stop Frame α} (h : Carried R i T r r')
    (hT : ∀ x y, T x y → T' x y) : Carried R i T' r r' := by
  cases r with
  | ok a f =>
    obtain ⟨g, hg, hrest, halike⟩ := h
    exact ⟨g, hg, hT _ _ hrest, halike⟩
  | error e f => cases e <;> exact h

namespace Carries

lemma mono (h : Carries R S T m n) (hS : ∀ x y, S' x y → S x y) (hT : ∀ x y, T x y → T' x y) :
    Carries R S' T' m n :=
  fun i f g hrest halike => (h i f g (hS _ _ hrest) halike).mono hT

lemma mono_left (h : Carries R S T m n) (hS : ∀ x y, S' x y → S x y) : Carries R S' T m n :=
  h.mono hS fun _ _ hT => hT

lemma pure (a : α) : Carries R S S (pure a) (pure a) :=
  fun _ _ g hrest halike => ⟨g, rfl, hrest, halike⟩

lemma bind (hm : Carries R S T m n) (hk : ∀ a, Carries R T U (k a) (l a)) :
    Carries R S U (m >>= k) (n >>= l) := by
  intro i f g hrest halike
  have hcarried := hm i f g hrest halike
  show Carried R i U (EStateM.bind m k f) (EStateM.bind n l g)
  unfold EStateM.bind
  cases hr : m f with
  | ok a f' =>
    rw [hr] at hcarried
    obtain ⟨g', hg', hrest', halike'⟩ := hcarried
    rw [hg']
    exact hk a i f' g' hrest' halike'
  | error e f' =>
    rw [hr] at hcarried
    cases e with
    | returned v =>
      obtain ⟨g', hg', halike'⟩ := hcarried
      rw [hg']
      exact ⟨g', rfl, halike'⟩
    | failure e => trivial
    | exhausted => trivial

/-! ### Stopping -/

lemma fail (line line' : Int) (problem problem' : Problem) :
    Carries R S T (Evaluator.fail line problem : EvalM α) (Evaluator.fail line' problem') :=
  fun _ _ _ _ _ => trivial

lemma halt (fault : Fault) :
    Carries R S T (Evaluator.halt fault : EvalM α) (Evaluator.halt fault) :=
  fun _ _ _ _ _ => trivial

lemma returned (v : Value) :
    Carries R S T (throw (.returned v) : EvalM α) (throw (.returned v)) :=
  fun _ _ g _ halike => ⟨g, rfl, halike⟩

lemma orFail_bind {x : Except Failure α} (hk : ∀ a, x = .ok a → Carries R S T (k a) (l a)) :
    Carries R S T (orFail x >>= k) (orFail x >>= l) := by
  cases x with
  | ok a => exact hk a rfl
  | error e => exact fun _ _ _ _ _ => trivial

lemma orHalt_bind {x : Except Fault α} (hk : ∀ a, x = .ok a → Carries R S T (k a) (l a)) :
    Carries R S T (orHalt x >>= k) (orHalt x >>= l) := by
  cases x with
  | ok a => exact hk a rfl
  | error e => exact fun _ _ _ _ _ => trivial

/-- Where the first evaluation makes sure of something, it holds from there on. -/
lemma ensure_bind {p : Prop} [Decidable p] {line : Int} {problem : Problem} {k l : Unit → EvalM β}
    (hk : p → Carries R S T (k ()) (l ())) :
    Carries R S T (ensure p line problem >>= k) (ensure p line problem >>= l) := by
  unfold ensure
  split
  · rename_i hp
    exact hk hp
  · exact fun _ _ _ _ _ => trivial

/-! ### The scope -/

lemma scope_bind {k l : Scope → EvalM β} (hk : ∀ s : Scope, s.Named → Carries R S T (k s) (l s)) :
    Carries R S T (scope >>= k) (scope >>= l) := by
  intro i f g hrest halike
  have hg : (scope >>= l) g = l f.scope g := by rw [← halike.scope]; rfl
  rw [hg]
  exact hk f.scope halike.named i f g hrest halike

lemma setScope {s : Scope} (hs : s.Named) :
    Carries R S S (Evaluator.setScope s) (Evaluator.setScope s) :=
  fun _ _ g hrest halike =>
    ⟨{ g with scope := s }, rfl, hrest, halike.inArguments, rfl, halike.output, hs, halike.past,
      halike.rest⟩

end Carries

/-! ### The console -/

/-- The second result writes the same output as the first, unless that one fails. -/
def Written : EStateM.Result Stop Console α → EStateM.Result Stop Console α → Prop
  | .ok a c, r => ∃ d, r = .ok a d ∧ d.output = c.output
  | .error (.returned v) c, r => ∃ d, r = .error (.returned v) d ∧ d.output = c.output
  | .error _ _, _ => True

/-- **The computations write the same output.** Their notes may differ. -/
def WriteAlike (m n : ConsoleM α) : Prop :=
  ∀ c d : Console, d.output = c.output → Written (m c) (n d)

lemma Carries.onConsole {m n : ConsoleM α} (h : WriteAlike m n) :
    Carries R S S (Evaluator.onConsole m) (Evaluator.onConsole n) := by
  intro i f g hrest halike
  have hwritten := h f.console g.console halike.output
  have hlike {c d : Console} (hcd : d.output = c.output) :
      Alike R i { f with console := c } { g with console := d } :=
    ⟨halike.inArguments, halike.scope, hcd, halike.named, halike.past, halike.rest⟩
  unfold Evaluator.onConsole
  cases hr : m f.console with
  | ok a c =>
    rw [hr] at hwritten
    obtain ⟨d, hd, hcd⟩ := hwritten
    rw [hd]
    exact ⟨_, rfl, hrest, hlike hcd⟩
  | error e c =>
    rw [hr] at hwritten
    cases e with
    | returned v =>
      obtain ⟨d, hd, hcd⟩ := hwritten
      rw [hd]
      exact ⟨_, rfl, hlike hcd⟩
    | failure e => trivial
    | exhausted => trivial

lemma WriteAlike.of_append {m : ConsoleM α} (h : ∀ c, m c = onState c.append (m .empty)) :
    WriteAlike m m := by
  intro c d hcd
  rw [h c, h d]
  cases m .empty with
  | ok a e => exact ⟨_, rfl, by simp [Console.append, hcd]⟩
  | error e e' =>
    cases e with
    | returned v => exact ⟨_, rfl, by simp [Console.append, hcd]⟩
    | failure e => trivial
    | exhausted => trivial

lemma WriteAlike.of_quiet {m : ConsoleM α} (h : Quiet m) : WriteAlike m m := .of_append h.apply

lemma WriteAlike.write (line : String) : WriteAlike (Evaluator.write line) (Evaluator.write line) :=
  fun _ d hcd => ⟨{ d with output := d.output ++ [line] }, rfl, by simp [hcd]⟩

lemma WriteAlike.note {level level' : Nat} (text text' : String) :
    WriteAlike (Evaluator.note level (.ok text)) (Evaluator.note level' (.ok text')) :=
  fun _ d hcd => ⟨{ d with notes := d.notes ++ [.remark level' text'] }, rfl, hcd⟩

lemma Quiet.compareBy (op : Token) (left right : Literal) :
    Quiet (compareBy op left right) := by
  unfold Evaluator.compareBy
  split
  · exact throw _
  split
  · exact throw _
  · exact (note _ _).bind fun _ => pure _

/-! ### Failing at the end -/

/-- The result is a failure, or calls have nested too deep. -/
def Failed {σ : Type} : EStateM.Result Stop σ α → Prop
  | .error (.failure _) _ | .error .exhausted _ => True
  | _ => False

lemma carried_of_failed {i : Bool} {r r' : EStateM.Result Stop Frame α} (h : Failed r) :
    Carried R i T r r' := by
  cases r with
  | ok a f => exact h.elim
  | error e f =>
    cases e with
    | returned v => exact h.elim
    | failure e => trivial
    | exhausted => trivial

/-- **The computation fails where there are no tokens left.** -/
def Fails (m : EvalM α) : Prop := ∀ f, f.rest = [] → Failed (m f)

namespace Fails

variable {setting : Setting}

lemma fail (line : Int) (problem : Problem) : Fails (Evaluator.fail line problem : EvalM α) :=
  fun _ _ => trivial

lemma orFail_bind {x : Except Failure α} {e : Failure} (hx : x = .error e) :
    Fails (orFail x >>= k) := by
  subst hx
  exact fun _ _ => trivial

lemma ensure_bind {p : Prop} [Decidable p] {line : Int} {problem : Problem} {k : Unit → EvalM β}
    (hp : ¬p) : Fails (ensure p line problem >>= k) := by
  unfold ensure
  rw [if_neg hp]
  exact fun _ _ => trivial

lemma peek_bind {k : Token → EvalM β} (hk : Fails (k (.atEnd setting.endLine))) :
    Fails (peek setting >>= k) := by
  intro f hf
  have hpeek : (peek setting >>= k) f = k (f.rest.headD (.atEnd setting.endLine)) f := rfl
  rw [hpeek, hf]
  exact hk f hf

lemma advance_bind {k : Token → EvalM β} (hk : Fails (k (.atEnd setting.endLine))) :
    Fails (advance setting >>= k) := by
  intro f hf
  have hadvance : (advance setting >>= k) f =
      k (.atEnd setting.endLine) { f with past := f.past + 1 } := by
    show EStateM.bind (advance setting) k f = _
    unfold EStateM.bind advance
    rw [hf]
  rw [hadvance]
  exact hk _ hf

end Fails

end Carries

/-! ### The joint -/

def Token.semicolon (line : Int) : Token := ⟨.semicolon, .str ";", .null, line⟩

/-- **Where a text is joined to another one**: what is at its end when it stands alone, and the line
of the semicolon and the tokens after it when it does not. -/
structure Joint where
  tail : List Token
  line : Int
  more : List Token
  /-- At the end of a text there is nothing, or the token of the end. -/
  isEnd : tail = [] ∨ ∃ l, tail = [.atEnd l]

namespace Joint

variable (j : Joint)

def rest : List Token := .semicolon j.line :: j.more

/-- The same tokens are left up to the joint. -/
def before : Rests := fun x y =>
  ∃ r : List Token, (∀ t ∈ r, t.Named) ∧ x = r ++ j.tail ∧ y = r ++ j.rest

/-- The same tokens are left up to the joint, and this is the first of them. -/
def ahead (t : Token) : Rests := fun x y =>
  t.Named ∧ ∃ x' y', j.before x' y' ∧ x = t :: x' ∧ y = t :: y'

def next : Rests := fun x y => x = j.tail ∧ y = j.rest

/-- The joint has been read. -/
def after : Rests := fun x y => x = [] ∧ y = j.more

/-- The joint has been read or is still to come. -/
def around : Rests := fun x y => j.before x y ∨ j.after x y

variable {j}

lemma before_of_ahead {t : Token} {x y : List Token} (h : j.ahead t x y) : j.before x y := by
  obtain ⟨ht, x', y', ⟨r, hr, rfl, rfl⟩, rfl, rfl⟩ := h
  refine ⟨t :: r, fun u hu => ?_, rfl, rfl⟩
  rcases List.mem_cons.1 hu with rfl | hu
  · exact ht
  · exact hr u hu

lemma before_of_next {x y : List Token} (h : j.next x y) : j.before x y :=
  ⟨[], by simp, h.1, h.2⟩

/-- Before the joint, the next token is the same one, or the joint itself. -/
lemma before_cases {x y : List Token} (h : j.before x y) : (∃ t, j.ahead t x y) ∨ j.next x y := by
  obtain ⟨r, hr, rfl, rfl⟩ := h
  cases r with
  | nil => exact .inr ⟨rfl, rfl⟩
  | cons t r =>
    exact .inl ⟨t, hr t (by simp), _, _, ⟨r, fun u hu => hr u (by simp [hu]), rfl, rfl⟩, rfl, rfl⟩

lemma length_le_of_before {x y : List Token} (h : j.before x y) : x.length ≤ y.length := by
  obtain ⟨r, -, rfl, rfl⟩ := h
  have htail : j.tail.length ≤ 1 := by
    rcases j.isEnd with h | ⟨l, h⟩ <;> simp [h]
  simp only [rest, List.length_append, List.length_cons]
  omega

/-! ### Reading across the joint -/

section Reading

variable {α : Type} {T : Rests} {a b : Setting} {k l : Token → EvalM α}

/-- To read up to the joint and beyond is to read before it or after it. -/
lemma carries_around {m n : EvalM α} (hbefore : Carries j.around j.before T m n)
    (hafter : Carries j.around j.after T m n) : Carries j.around j.around T m n := by
  intro i f g hrest halike
  rcases hrest with hrest | hrest
  · exact hbefore i f g hrest halike
  · exact hafter i f g hrest halike

lemma carries_of_fails {m n : EvalM α} (h : Fails m) : Carries j.around j.after T m n :=
  fun _ f _ hrest _ => carried_of_failed (h f hrest.1)

/-- A look at the next token shows the same one, or the end and the semicolon. -/
lemma carries_peek_bind (hahead : ∀ t, Carries j.around (j.ahead t) T (k t) (l t))
    (hnext : ∀ line, Carries j.around j.next T (k (.atEnd line)) (l (.semicolon j.line))) :
    Carries j.around j.before T (peek a >>= k) (peek b >>= l) := by
  intro i f g hrest halike
  have hf : (peek a >>= k) f = k (f.rest.headD (.atEnd a.endLine)) f := rfl
  have hg : (peek b >>= l) g = l (g.rest.headD (.atEnd b.endLine)) g := rfl
  rw [hf, hg]
  rcases before_cases hrest with ⟨t, hahead'⟩ | hnext'
  · have hcarried := hahead t i f g hahead' halike
    obtain ⟨-, x, y, -, hx, hy⟩ := hahead'
    rw [hx, hy]
    exact hcarried
  · obtain ⟨hx, hy⟩ := id hnext'
    rw [hx, hy]
    rcases j.isEnd with htail | ⟨line, htail⟩
    · rw [htail]
      exact hnext _ i f g hnext' halike
    · rw [htail]
      exact hnext line i f g hnext' halike

lemma carries_advance_ahead {t : Token} (h : Carries j.around j.before T (k t) (l t)) :
    Carries j.around (j.ahead t) T (advance a >>= k) (advance b >>= l) := by
  rintro i ⟨x, past, inArguments, own, console⟩ ⟨y, past', inArguments', own', console'⟩
    ⟨-, x', y', hrest, hx, hy⟩ halike
  obtain rfl : x = t :: x' := hx
  obtain rfl : y = t :: y' := hy
  exact h i _ _ hrest
    ⟨halike.inArguments, halike.scope, halike.output, halike.named, halike.past, .inl hrest⟩

lemma carries_advance_next
    (h : ∀ line, Carries j.around j.after T (k (.atEnd line)) (l (.semicolon j.line))) :
    Carries j.around j.next T (advance a >>= k) (advance b >>= l) := by
  rintro i ⟨x, past, inArguments, own, console⟩ ⟨y, past', inArguments', own', console'⟩
    ⟨hx, hy⟩ halike
  obtain rfl : x = j.tail := hx
  obtain rfl : y = j.rest := hy
  have hlike (p : Nat) : Alike j.around i ⟨[], p, inArguments, own, console⟩
      ⟨j.more, past', inArguments', own', console'⟩ :=
    ⟨halike.inArguments, halike.scope, halike.output, halike.named, halike.past, .inr ⟨rfl, rfl⟩⟩
  rcases j.isEnd with htail | ⟨line, htail⟩
  · rw [htail]
    exact h a.endLine i _ _ ⟨rfl, rfl⟩ (hlike (past + 1))
  · rw [htail]
    exact h line i _ _ ⟨rfl, rfl⟩ (hlike past)

/-- The next token is the same one, or the joint is read. -/
lemma carries_advance_bind (hsame : ∀ t : Token, t.Named → Carries j.around j.before T (k t) (l t))
    (hjoint : ∀ line, Carries j.around j.after T (k (.atEnd line)) (l (.semicolon j.line))) :
    Carries j.around j.before T (advance a >>= k) (advance b >>= l) := by
  intro i f g hrest halike
  rcases before_cases hrest with ⟨t, hahead⟩ | hnext
  · exact carries_advance_ahead (hsame t hahead.1) i f g hahead halike
  · exact carries_advance_next hjoint i f g hnext halike

/-- A token has to be read that is not at the joint, since the first evaluation fails there. -/
lemma carries_advance_token (hsame : ∀ t : Token, t.Named → Carries j.around j.before T (k t) (l t))
    (hend : ∀ line, Fails (k (.atEnd line))) :
    Carries j.around j.before T (advance a >>= k) (advance b >>= l) :=
  carries_advance_bind hsame fun line => carries_of_fails (hend line)

lemma carries_length_bind {k l : Nat → EvalM α}
    (h : ∀ m n, m ≤ n → Carries j.around j.before T (k m) (l n)) :
    Carries j.around j.before T (do k (← get).rest.length) (do l (← get).rest.length) :=
  fun i f g hrest halike => h _ _ (length_le_of_before hrest) i f g hrest halike

/-! ### Runs of tokens -/

lemma takeWhile_append_of_dropWhile {p : Token → Bool} {r q : List Token} {t : Token}
    (h : r.dropWhile p = t :: q) (s : List Token) :
    (r ++ s).takeWhile p = r.takeWhile p ∧ (r ++ s).dropWhile p = t :: (q ++ s) := by
  have hlength : (r.takeWhile p).length ≠ r.length := by
    have happ := congrArg List.length (List.takeWhile_append_dropWhile (p := p) (l := r))
    rw [h, List.length_append, List.length_cons] at happ
    omega
  rw [List.takeWhile_append, if_neg hlength, List.dropWhile_append, h]
  exact ⟨rfl, rfl⟩

/-- Tokens up to one of a class are read. It has to come before the joint, if the first evaluation
fails when it stops at its end. -/
lemma carries_takeUntil_bind {stop : TokenKind → Bool} {k l : List Token → EvalM α}
    (hstop : stop .endOfInput = true)
    (hfound : ∀ body t, Carries j.around (j.ahead t) T (k body) (l body))
    (hend : ∀ body f, f.rest = j.tail → Failed (k body f)) :
    Carries j.around j.before T (takeUntil stop >>= k) (takeUntil stop >>= l) := by
  rintro i ⟨x, past, inArguments, own, console⟩ ⟨y, past', inArguments', own', console'⟩
    ⟨r, hr, hx, hy⟩ halike
  obtain rfl : x = r ++ j.tail := hx
  obtain rfl : y = r ++ j.rest := hy
  let p (t : Token) : Bool := !stop t.kind
  show Carried j.around i T
    (k ((r ++ j.tail).takeWhile p)
      ⟨(r ++ j.tail).dropWhile p, past, inArguments, own, console⟩)
    (l ((r ++ j.rest).takeWhile p)
      ⟨(r ++ j.rest).dropWhile p, past', inArguments', own', console'⟩)
  -- either the tokens stop in the first program, or it comes to its end, where the body fails
  cases hdrop : r.dropWhile p with
  | nil =>
    have htail : (r ++ j.tail).dropWhile p = j.tail := by
      rw [List.dropWhile_append, hdrop]
      rcases j.isEnd with h | ⟨line, h⟩
      · rw [h]
        rfl
      · rw [h]
        simp [p, Token.atEnd, hstop]
    exact carried_of_failed (hend _ _ htail)
  | cons t q =>
    have hq : ∀ u ∈ t :: q, u.Named := fun u hu =>
      hr u ((List.dropWhile_suffix p).subset (hdrop ▸ hu))
    obtain ⟨htake, hleft⟩ := takeWhile_append_of_dropWhile hdrop j.tail
    obtain ⟨htake', hleft'⟩ := takeWhile_append_of_dropWhile hdrop j.rest
    have hahead : j.ahead t (t :: (q ++ j.tail)) (t :: (q ++ j.rest)) :=
      ⟨hq t (by simp), _, _, ⟨q, fun u hu => hq u (by simp [hu]), rfl, rfl⟩, rfl, rfl⟩
    rw [htake, htake', hleft, hleft']
    exact hfound _ t i _ _ hahead
      ⟨halike.inArguments, halike.scope, halike.output, halike.named, halike.past,
        .inl (before_of_ahead hahead)⟩

lemma expressionTokens_of_end {inArguments : Bool} {depth : Nat} {r s : List Token}
    (hs : ∀ t ∈ s.head?, t.kind.isTerminator = true) :
    expressionTokens inArguments depth (r ++ s) =
      ((expressionTokens inArguments depth r).1, (expressionTokens inArguments depth r).2 ++ s) := by
  induction r generalizing depth with
  | nil =>
    cases s with
    | nil => rfl
    | cons t s => simp [expressionTokens, hs t rfl]
  | cons t r ih =>
    rw [List.cons_append]
    unfold expressionTokens
    split
    · rfl
    split
    · rfl
    · simp only [ih]

lemma carries_collect (first : Token) :
    Carries j.around j.before j.before (collect first) (collect first) := by
  intro i f g hrest halike
  obtain ⟨r, hr, hf, hg⟩ := hrest
  have htail : ∀ t ∈ j.tail.head?, t.kind.isTerminator = true := by
    rcases j.isEnd with h | ⟨l, h⟩
    · simp [h]
    · rw [h]
      rintro t ⟨⟩
      rfl
  have hmore : ∀ t ∈ j.rest.head?, t.kind.isTerminator = true := by
    rintro t ⟨⟩
    rfl
  have happ := expressionTokens_append i (if first.kind = .leftParen then 1 else 0) r
  unfold collect
  rw [hf, hg, halike.inArguments.1, halike.inArguments.2]
  -- an expression does not go over a terminator, whichever of the two it is
  simp only [expressionTokens_of_end htail, expressionTokens_of_end hmore]
  have hleft : ∀ t ∈ (expressionTokens i (if first.kind = .leftParen then 1 else 0) r).2,
      t.Named := by
    intro t ht
    refine hr t ?_
    rw [← happ]
    exact List.mem_append_right _ ht
  exact ⟨_, rfl, ⟨_, hleft, rfl, rfl⟩, ⟨rfl, rfl⟩, halike.scope, halike.output, halike.named,
    halike.past, .inl ⟨_, hleft, rfl, rfl⟩⟩

end Reading

end Joint

end Hive
