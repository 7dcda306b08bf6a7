import Hive.Proofs.Precedence
import Mathlib.Data.List.DropRight

/-!
Nested parentheses. The evaluator closes the first opening parenthesis by the first closing one after
it, and works out what is between them together with the closing one. What this comes to for groups
in groups is said by one scan from left to right with a stack of open groups: a closing parenthesis
closes all groups that are open, from the inside out. Main statement: the operation returns a value
exactly if that scan comes to it, and fails exactly if the scan comes to nothing.
-/

namespace Hive

open Evaluator

namespace Nesting

/-! ### The value of a list without groups -/

/-- What an operator makes of the two items beside it. -/
def combine (own : Scope) (op : Token) (left right : Item) : Option Value :=
  (meaning own left).bind fun x => (meaning own right).bind fun y => step op x y

/-- Applies the operators of a class to what is beside them, from the left, where an item that is no
such operator comes first. -/
def sweepFrom (own : Scope) (p : TokenKind → Bool) (left : Item) : List Item → Option (List Item)
  | [] => some [left]
  | .value v :: rest => (sweepFrom own p (.value v) rest).map (left :: ·)
  | .token op :: rest =>
    if p op.kind then
      match rest with
      | [] => none
      | right :: later => (combine own op left right).bind fun v => sweepFrom own p (.value v) later
    else (sweepFrom own p (.token op) rest).map (left :: ·)

/-- Applies the operators of a class to what is beside them, from the left. -/
def sweep (own : Scope) (p : TokenKind → Bool) : List Item → Option (List Item)
  | [] => some []
  | i :: rest => if i.isKind p then none else sweepFrom own p i rest

/-- The value of the one item that is left without the closing parentheses at the end. -/
def single (own : Scope) (items : List Item) : Option Value :=
  match items.rdropWhile isClosing with
  | [i] => meaning own i
  | _ => none

/-- **The value of a list**: products, then sums, and then one item must be left. -/
def reduce (own : Scope) (items : List Item) : Option Value :=
  (sweep own TokenKind.isProduct items).bind fun l =>
    (sweep own TokenKind.isSum l).bind (single own)

/-! ### The scan -/

/-- Closes the groups that are open, from the inside out: the value of each is added to the group
around it. -/
def closeAll (own : Scope) (current : List Item) : List (List Item) → Option (List Item)
  | [] => some current
  | outer :: around => (reduce own current).bind fun v => closeAll own (outer ++ [.value v]) around

/-- Reads items into the innermost group, with the groups around it, and comes to the items that are
outside all groups. A closing parenthesis closes all groups; without one to close, it is an item like
others. -/
def scan (own : Scope) (current : List Item) (around : List (List Item)) :
    List Item → Option (List Item)
  | [] => if around = [] then some current else none
  | i :: rest =>
    if i.isKind isOpening then scan own [] (current :: around) rest
    else if isClosing i ∧ around ≠ [] then
      (closeAll own current around).bind fun bottom => scan own bottom [] rest
    else scan own (current ++ [i]) around rest

/-- **The value of items** in which each closing parenthesis closes all groups open before it. -/
def value (own : Scope) (items : List Item) : Option Value :=
  (scan own [] [] items).bind (reduce own)

/-! ### Operands -/

section Operands

variable {own : Scope} {op t : Token} {left right : Item}

lemma meaning_of_kind (h : t.kind.isOperand = false) : meaning own (.token t) = none := by
  unfold meaning resolve
  dsimp only
  split
  case h_5 => rfl
  all_goals
    rename_i hkind
    rw [hkind] at h
    cases h

lemma isOperand_of_isArithmetic {kind : TokenKind} (h : kind.isArithmetic = true) :
    kind.isOperand = false := by
  unfold TokenKind.isArithmetic TokenKind.arithmetic? at h
  split at h
  case h_5 => cases h
  all_goals rfl

lemma meaning_of_isClosing {i : Item} (h : isClosing i = true) : meaning own i = none := by
  cases i with
  | value v => cases h
  | token t => exact meaning_of_kind (by rw [eq_of_beq h]; rfl)

lemma combine_of_right (h : meaning own right = none) : combine own op left right = none := by
  unfold combine
  rw [h]
  cases meaning own left <;> rfl

end Operands

/-! ### Splitting at a token -/

section Splits

variable {p : TokenKind → Bool}

lemma clear_or_split (p : TokenKind → Bool) (items : List Item) :
    Clear p items ∨ ∃ before t after, items = before ++ .token t :: after ∧ Clear p before ∧
      p t.kind = true := by
  induction items with
  | nil => exact .inl clear_nil
  | cons i items ih =>
    by_cases hi : i.isKind p = true
    · cases i with
      | value v => cases hi
      | token t => exact .inr ⟨[], t, items, rfl, clear_nil, hi⟩
    · have hi : i.isKind p = false := by simpa using hi
      rcases ih with hclear | ⟨before, t, after, rfl, hbefore, ht⟩
      · exact .inl (clear_cons.2 ⟨hi, hclear⟩)
      · exact .inr ⟨i :: before, t, after, rfl, clear_cons.2 ⟨hi, hbefore⟩, ht⟩

lemma isClosing_eq (i : Item) : isClosing i = i.isKind (· == .rightParen) := by cases i <;> rfl

/-- Goes on with the value of an operator in the place of the operator and the two items beside it,
if there are two. -/
def atOperator {γ : Type} (own : Scope) (op : Token) (before after : List Item)
    (go : List Item → Option γ) : Option γ :=
  (beside? before after).bind fun (earlier, left, right, later) =>
    (combine own op left right).bind fun v => go (earlier ++ .value v :: later)

variable {γ δ : Type} {own : Scope} {op : Token} {before after : List Item}

lemma atOperator_bind (go : List Item → Option γ) (k : γ → Option δ) :
    (atOperator own op before after go).bind k =
      atOperator own op before after fun l => (go l).bind k := by
  simp only [atOperator, Option.bind_assoc]

lemma atOperator_congr {f g : List Item → Option γ}
    (h : ∀ l : List Item, l.length < (before ++ .token op :: after).length →
      (∀ q, Clear q before → Clear q after → Clear q l) → f l = g l) :
    atOperator own op before after f = atOperator own op before after g := by
  unfold atOperator
  cases hb : beside? before after with
  | none => rfl
  | some sides =>
    obtain ⟨earlier, left, right, later⟩ := sides
    obtain ⟨rfl, rfl⟩ := beside?_eq_some hb
    dsimp only [Option.bind_some]
    congr 1
    funext v
    refine h _ ?_ fun q hq hq' => ?_
    · simp only [List.length_append, List.length_cons]
      omega
    · rw [clear_append, clear_cons] at hq
      rw [clear_cons] at hq'
      exact clear_append.2 ⟨hq.1, clear_cons.2 ⟨rfl, hq'.2⟩⟩

lemma beside?_nil_left (after : List Item) : beside? [] after = none := rfl

lemma beside?_nil_right (before : List Item) : beside? before [] = none := by
  unfold beside?
  cases before.reverse <;> rfl

lemma beside?_concat (before : List Item) (left right : Item) (after : List Item) :
    beside? (before ++ [left]) (right :: after) = some (before, left, right, after) := by
  unfold beside?
  rw [List.reverse_append]
  simp

end Splits

/-! ### Sweeps -/

section Sweeps

variable {own : Scope} {p : TokenKind → Bool} {before after rest items : List Item} {i left : Item}
  {op c : Token}

lemma sweepFrom_cons (hi : i.isKind p = false) :
    sweepFrom own p left (i :: rest) = (sweepFrom own p i rest).map (left :: ·) := by
  cases i with
  | value v => rfl
  | token t =>
    have ht : p t.kind = false := hi
    cases rest <;> simp [sweepFrom, ht]

lemma sweepFrom_append (hbefore : Clear p before) (hi : i.isKind p = false) :
    sweepFrom own p left (before ++ i :: rest) =
      (sweepFrom own p i rest).map (left :: before ++ ·) := by
  induction before generalizing left with
  | nil => exact sweepFrom_cons hi
  | cons j before ih =>
    obtain ⟨hj, hbefore'⟩ := clear_cons.1 hbefore
    rw [List.cons_append, sweepFrom_cons hj, ih hbefore', Option.map_map]
    rfl

/-- A sweep leaves items as they are up to the first operator of the class. -/
lemma sweep_append (hbefore : Clear p before) (hi : i.isKind p = false) :
    sweep own p (before ++ i :: rest) = (sweepFrom own p i rest).map (before ++ ·) := by
  cases before with
  | nil => simp [sweep, hi]
  | cons j before =>
    obtain ⟨hj, hbefore⟩ := clear_cons.1 hbefore
    simp only [List.cons_append, sweep, hj, Bool.false_eq_true, if_false]
    exact sweepFrom_append hbefore hi

lemma sweep_of_clear (h : Clear p items) : sweep own p items = some items := by
  rcases items.eq_nil_or_concat' with rfl | ⟨before, i, rfl⟩
  · rfl
  · obtain ⟨hbefore, hi⟩ := clear_append.1 h
    rw [sweep_append hbefore (clear_cons.1 hi).1]
    rfl

/-- **One step of a sweep.** -/
lemma sweep_operator (hbefore : Clear p before) (hop : p op.kind = true) :
    sweep own p (before ++ .token op :: after) = atOperator own op before after (sweep own p) := by
  unfold atOperator
  rcases before.eq_nil_or_concat' with rfl | ⟨earlier, left, rfl⟩
  · simp [sweep, hop, beside?_nil_left]
  obtain ⟨hearlier, hleft⟩ := clear_append.1 hbefore
  rw [List.append_assoc, List.singleton_append, sweep_append hearlier (clear_cons.1 hleft).1]
  cases after with
  | nil => simp [sweepFrom, hop, beside?_nil_right]
  | cons right later =>
    rw [beside?_concat]
    simp only [sweepFrom, hop, if_true, Option.bind_some, Option.map_bind]
    congr 1
    funext v
    exact (sweep_append hearlier rfl).symm

/-- A closing parenthesis at the end takes no part in a sweep: as an operand, it stands for nothing. -/
lemma sweepFrom_closing (hc : c.kind = .rightParen) (hp : p .rightParen = false) (left : Item)
    (items : List Item) :
    sweepFrom own p left (items ++ [.token c]) =
      (sweepFrom own p left items).map (· ++ [.token c]) := by
  fun_induction sweepFrom own p left items with
  | case1 left => simp [sweepFrom, hc, hp]
  | case2 left v rest ih => simp [sweepFrom, ih, Function.comp_def]
  | case3 left op hop =>
    have hnone : meaning own (.token c) = none := meaning_of_kind (by rw [hc]; rfl)
    simp [sweepFrom, hop, combine_of_right hnone]
  | case4 left op hop right later ih =>
    simp only [List.cons_append, sweepFrom, hop, if_true, Option.map_bind]
    congr 1
    funext v
    exact ih v
  | case5 left op rest hop ih =>
    have hop : (Item.token op).isKind p = false := by simpa using hop
    rw [List.cons_append, sweepFrom_cons hop, ih, Option.map_map, Option.map_map]
    rfl

lemma sweep_closing (hc : c.kind = .rightParen) (hp : p .rightParen = false) (items : List Item) :
    sweep own p (items ++ [.token c]) = (sweep own p items).map (· ++ [.token c]) := by
  cases items with
  | nil => simp [sweep, sweepFrom, hc, hp]
  | cons i rest =>
    simp only [List.cons_append, sweep]
    split
    · rfl
    · exact sweepFrom_closing hc hp i rest

lemma single_closing (hc : c.kind = .rightParen) (items : List Item) :
    single own (items ++ [.token c]) = single own items := by
  unfold single
  rw [List.rdropWhile_concat_pos _ _ _ (by simp [isClosing, hc])]

/-- **The closing parenthesis of a group does not matter to its value.** -/
lemma reduce_closing (hc : c.kind = .rightParen) (items : List Item) :
    reduce own (items ++ [.token c]) = reduce own items := by
  unfold reduce
  rw [sweep_closing hc rfl, Option.bind_map]
  congr 1
  funext l
  rw [Function.comp_apply, sweep_closing hc rfl, Option.bind_map]
  congr 1
  funext l'
  exact single_closing hc l'

end Sweeps

/-! ### Items without groups -/

section Flat

variable {own : Scope} {groupLine line : Int} {items before after : List Item} {op : Token}

lemma worked_single (i : Item) : worked own groupLine line [i] = meaning own i :=
  worked_of_nothing rfl nofun

lemma worked_of_dangling (h : reduction items = .dangling op) :
    worked own groupLine line items = none := by
  unfold worked
  rw [operate_eq, h]
  rfl

lemma worked_of_unclosed (h : reduction items = .unclosed op) :
    worked own groupLine line items = none := by
  unfold worked
  rw [operate_eq, h]
  rfl

/-- The first operator is applied to the items beside it. -/
lemma worked_operator (hop : op.kind.isArithmetic = true)
    (hopening : Clear isOpening (before ++ .token op :: after))
    (hfirst : firstOperator? (before ++ .token op :: after) = some (before, op, after)) :
    worked own groupLine line (before ++ .token op :: after) =
      atOperator own op before after (worked own groupLine line) := by
  obtain ⟨operator, hoperator⟩ := Option.isSome_iff_exists.1 hop
  cases hb : beside? before after with
  | some sides =>
    obtain ⟨earlier, left, right, later⟩ := sides
    obtain ⟨rfl, rfl⟩ := beside?_eq_some hb
    rw [List.append_assoc, List.singleton_append] at hopening hfirst ⊢
    rw [worked_of_apply hoperator (reduction_of_operator hoperator hopening hfirst)]
    unfold atOperator
    rw [hb]
    rfl
  | none =>
    have hnone : atOperator own op before after (worked own groupLine line) = none := by
      unfold atOperator
      rw [hb]
      rfl
    rw [hnone]
    by_cases hlen : (before ++ .token op :: after).length ≤ 1
    · -- the operator stands alone
      simp only [List.length_append, List.length_cons] at hlen
      obtain rfl : before = [] := List.eq_nil_of_length_eq_zero (by omega)
      obtain rfl : after = [] := List.eq_nil_of_length_eq_zero (by omega)
      rw [List.nil_append, worked_single, meaning_of_kind (isOperand_of_isArithmetic hop)]
    · have hdangling : reduction (before ++ .token op :: after) = .dangling op := by
        unfold reduction
        rw [if_neg hlen, splitFirst?_of_clear hopening]
        dsimp only
        rw [hfirst]
        dsimp only
        unfold reduceOperator
        rw [hb]
      exact worked_of_dangling hdangling

lemma single_cons (i : Item) (more : List Item) :
    single own (i :: more) = if more.all isClosing then meaning own i else none := by
  unfold single List.rdropWhile
  rw [List.reverse_cons, List.dropWhile_append]
  by_cases hmore : more.all isClosing = true
  · have hempty : (more.reverse.dropWhile isClosing).isEmpty = true := by
      simpa [List.isEmpty_iff, List.dropWhile_eq_nil_iff] using hmore
    rw [if_pos hempty, if_pos hmore]
    cases hi : isClosing i with
    | true => simp [hi, meaning_of_isClosing hi]
    | false => simp [hi]
  · have hempty : ¬(more.reverse.dropWhile isClosing).isEmpty = true := by
      simpa [List.isEmpty_iff, List.dropWhile_eq_nil_iff] using hmore
    rw [if_neg hempty, if_neg hmore, List.reverse_append]
    -- a second item is left
    cases hlast : (more.reverse.dropWhile isClosing).reverse with
    | nil => exact absurd (List.isEmpty_iff.2 (List.reverse_eq_nil_iff.1 hlast)) hempty
    | cons j others => rfl

/-- Items with neither groups nor operators are one operand, or come to nothing. -/
lemma worked_of_clear (hopening : Clear isOpening items) (hproduct : Clear TokenKind.isProduct items)
    (hsum : Clear TokenKind.isSum items) : worked own groupLine line items = single own items := by
  unfold worked
  rw [operate_eq, reduction_of_clear hopening hproduct hsum]
  dsimp only
  rw [outcome_orFail]
  cases items with
  | nil => rfl
  | cons i more =>
    rw [single_cons, finish]
    split
    · exact toOption_resolve own line i
    · rfl

/-- **Items without groups come to the value of a list.** -/
lemma worked_of_clear_opening (groupLine line : Int) (items : List Item)
    (hopening : Clear isOpening items) : worked own groupLine line items = reduce own items := by
  induction hn : items.length using Nat.strong_induction_on generalizing items with
  | h n ih =>
  subst hn
  have hnext {before after : List Item} {op : Token}
      (hbefore : Clear isOpening (before ++ .token op :: after))
      (hlen : (before ++ .token op :: after).length = items.length) :
      atOperator own op before after (worked own groupLine line) =
        atOperator own op before after (reduce own) := by
    obtain ⟨hbefore, hafter⟩ := clear_append.1 hbefore
    exact atOperator_congr fun l hl hclear =>
      ih _ (hlen ▸ hl) l (hclear _ hbefore (clear_cons.1 hafter).2) rfl
  rcases clear_or_split TokenKind.isProduct items with
    hproduct | ⟨before, op, after, rfl, hbefore, hop⟩
  · rcases clear_or_split TokenKind.isSum items with
      hsum | ⟨before, op, after, rfl, hbefore, hop⟩
    · rw [worked_of_clear hopening hproduct hsum]
      unfold reduce
      rw [sweep_of_clear hproduct, Option.bind_some, sweep_of_clear hsum, Option.bind_some]
    · have hfirst : firstOperator? (before ++ .token op :: after) = some (before, op, after) := by
        unfold firstOperator?
        rw [splitFirst?_of_clear hproduct]
        exact splitFirst?_append hbefore hop
      rw [worked_operator (isArithmetic_of_isSum hop) hopening hfirst, hnext hopening rfl]
      unfold reduce
      rw [sweep_of_clear hproduct, Option.bind_some, sweep_operator hbefore hop, atOperator_bind]
      -- what is left has no products either
      obtain ⟨hproduct, hproduct'⟩ := clear_append.1 hproduct
      refine atOperator_congr fun l _ hclear => ?_
      rw [sweep_of_clear (hclear _ hproduct (clear_cons.1 hproduct').2), Option.bind_some]
  · have hfirst : firstOperator? (before ++ .token op :: after) = some (before, op, after) := by
      unfold firstOperator?
      rw [splitFirst?_append hbefore hop]
    rw [worked_operator (isArithmetic_of_isProduct hop) hopening hfirst, hnext hopening rfl]
    unfold reduce
    rw [sweep_operator hbefore hop, atOperator_bind]

end Flat

/-! ### Groups -/

section Groups

variable {own : Scope} {before inner after current rest : List Item} {around : List (List Item)}
  {opening closing : Token}

/-- Outside all groups, items are read as they are up to the first opening parenthesis. -/
lemma scan_append (hbefore : Clear isOpening before) :
    scan own current [] (before ++ rest) = scan own (current ++ before) [] rest := by
  induction before generalizing current with
  | nil => simp
  | cons i before ih =>
    obtain ⟨hi, hbefore⟩ := clear_cons.1 hbefore
    simp [scan, hi, ih hbefore]

/-- A group that is never closed comes to nothing. -/
lemma scan_of_unclosed (haround : around ≠ []) (h : Clear (· == .rightParen) rest) :
    scan own current around rest = none := by
  induction rest generalizing current around with
  | nil => simp [scan, haround]
  | cons i rest ih =>
    obtain ⟨hi, hrest⟩ := clear_cons.1 h
    rw [← isClosing_eq] at hi
    unfold scan
    split
    · exact ih (List.cons_ne_nil _ _) hrest
    · simp [hi, ih haround hrest]

lemma closeAll_append (current before : List Item) (around : List (List Item)) :
    closeAll own current (around ++ [before]) = (closeAll own current around).bind fun bottom =>
      (reduce own bottom).map fun v => before ++ [.value v] := by
  induction around generalizing current with
  | nil => simp [closeAll, Option.map_eq_bind]
  | cons outer around ih =>
    simp only [List.cons_append, closeAll, Option.bind_assoc]
    congr 1
    funext v
    exact ih _

/-- **A group with groups in it.** Up to the first closing parenthesis, an outer group is read as if
it were the whole; then its value goes to what is around it. -/
lemma scan_group (hinner : Clear (· == .rightParen) inner) (hclosing : closing.kind = .rightParen) :
    scan own current (around ++ [before]) (inner ++ .token closing :: after) =
      ((scan own current around (inner ++ [.token closing])).bind (reduce own)).bind fun v =>
        scan own (before ++ [.value v]) [] after := by
  have hopen : (Item.token closing).isKind isOpening = false := by simp [hclosing]
  have hclose : isClosing (.token closing) = true := by simp [isClosing, hclosing]
  induction inner generalizing current around with
  | nil =>
    -- all groups are closed here, the outermost one last
    have hne : around ++ [before] ≠ [] := by simp
    simp only [List.nil_append, scan, hopen, hclose, Bool.false_eq_true, if_false, hne, true_and,
      ne_eq, not_false_eq_true, if_true]
    rw [closeAll_append]
    by_cases haround : around = []
    · subst haround
      simp [closeAll, reduce_closing hclosing, Option.bind_map]
    · simp [haround, Option.bind_map, Option.bind_assoc]
  | cons i inner ih =>
    obtain ⟨hi, hinner⟩ := clear_cons.1 hinner
    rw [← isClosing_eq] at hi
    simp only [List.cons_append, scan, hi, Bool.false_eq_true, false_and, if_false]
    split
    · rw [← List.cons_append]
      exact ih hinner
    · exact ih hinner

end Groups

/-- **Items come to the value of the scan.** -/
lemma worked_eq_value (own : Scope) (groupLine line : Int) (items : List Item) :
    worked own groupLine line items = value own items := by
  induction hn : items.length using Nat.strong_induction_on generalizing items line with
  | h n ih =>
  subst hn
  -- a group goes from the first `(` to the first `)`, so there may be others open inside it:
  -- the induction is on the number of items, not on how deep they nest
  rcases clear_or_split isOpening items with
    hclear | ⟨before, opening, rest, rfl, hbefore, hopening⟩
  · have hscan : scan own [] [] items = some items := by
      have h : scan own [] [] (items ++ []) = scan own ([] ++ items) [] [] := scan_append hclear
      rwa [List.append_nil, List.nil_append] at h
    rw [worked_of_clear_opening groupLine line items hclear]
    unfold value
    rw [hscan, Option.bind_some]
  have hscan : scan own [] [] (before ++ .token opening :: rest) = scan own [] [before] rest := by
    rw [scan_append hbefore]
    simp [scan, hopening]
  rcases clear_or_split (· == .rightParen) rest with
    hclear | ⟨inner, closing, after, rfl, hinner, hclosing⟩
  · have hvalue : value own (before ++ .token opening :: rest) = none := by
      unfold value
      rw [hscan, scan_of_unclosed (List.cons_ne_nil _ _) hclear]
      rfl
    rw [hvalue]
    by_cases hlen : (before ++ .token opening :: rest).length ≤ 1
    · -- the parenthesis stands alone
      simp only [List.length_append, List.length_cons] at hlen
      obtain rfl : before = [] := List.eq_nil_of_length_eq_zero (by omega)
      obtain rfl : rest = [] := List.eq_nil_of_length_eq_zero (by omega)
      rw [List.nil_append, worked_single, meaning_of_kind (by rw [eq_of_beq hopening]; rfl)]
    · have hunclosed : reduction (before ++ .token opening :: rest) = .unclosed opening := by
        unfold reduction
        rw [if_neg hlen, splitFirst?_append hbefore hopening]
        dsimp only
        rw [splitFirst?_of_clear hclear]
      exact worked_of_unclosed hunclosed
  · have hclose := eq_of_beq hclosing
    have hgroup : reduction (before ++ .token opening :: (inner ++ .token closing :: after)) =
        .group before inner closing after :=
      reduction_of_group hbefore (eq_of_beq hopening) hinner hclose
    have hshorter : (inner ++ [Item.token closing]).length <
        (before ++ .token opening :: (inner ++ .token closing :: after)).length := by
      simp only [List.length_append, List.length_cons, List.length_nil]
      omega
    have hinside := ih (inner ++ [Item.token closing]).length hshorter groupLine
      (inner ++ [.token closing]) rfl
    have hfewer (v : Value) : (before ++ Item.value v :: after).length <
        (before ++ .token opening :: (inner ++ .token closing :: after)).length := by
      simp only [List.length_append, List.length_cons]
      omega
    have hafter (v : Value) : worked own groupLine line (before ++ .value v :: after) =
        value own (before ++ .value v :: after) :=
      ih (before ++ Item.value v :: after).length (hfewer v) line _ rfl
    -- both settle the inside first, and go on with its value in its place
    calc worked own groupLine line (before ++ .token opening :: (inner ++ .token closing :: after))
        = (value own (inner ++ [.token closing])).bind fun v =>
            value own (before ++ .value v :: after) := by
          rw [worked_of_group hgroup, hinside]
          simp only [hafter]
      _ = (value own (inner ++ [.token closing])).bind fun v =>
            (scan own (before ++ [.value v]) [] after).bind (reduce own) := by
          congr 1
          funext v
          unfold value
          rw [scan_append hbefore]
          simp [scan, Item.isKind, isClosing]
      _ = value own (before ++ .token opening :: (inner ++ .token closing :: after)) := by
          unfold value
          rw [hscan, ← List.nil_append [before], scan_group hinner hclose]
          simp only [Option.bind_assoc]

end Nesting

/-! ### The whole operation -/

/-- The result is the value, if there is one, and otherwise a failure. -/
def Settles {σ : Type} (value : Option Value) (r : EStateM.Result Stop σ Value) : Prop :=
  (∀ v, (∃ last, r = .ok v last) ↔ value = some v) ∧
    ((∃ f last, r = .error (.failure f) last) ↔ value = none)

lemma settles_ok {σ : Type} (v : Value) (last : σ) : Settles (some v) (.ok v last) := by
  refine ⟨fun w => ⟨?_, ?_⟩, ⟨?_, nofun⟩⟩
  · rintro ⟨last, h⟩
    cases h
    rfl
  · rintro h
    cases h
    exact ⟨last, rfl⟩
  · rintro ⟨f, last, h⟩
    cases h

lemma settles_error {σ : Type} (f : Failure) (last : σ) :
    Settles none (.error (.failure f) last) := by
  refine ⟨fun w => ⟨?_, nofun⟩, ⟨fun _ => rfl, fun _ => ⟨f, last, rfl⟩⟩⟩
  rintro ⟨last, h⟩
  cases h

/-- Working out items comes to the value of the scan on every console. -/
lemma settles_operate (own : Scope) (groupLine line : Int) (items : List Item) (c : Console) :
    Settles (Nesting.value own items) (operate own groupLine line items c) := by
  have hquiet := Quiet.operate own groupLine line items
  have hvalue := Nesting.worked_eq_value own groupLine line items
  obtain ⟨-, hends⟩ := hquiet [] .empty rfl
  unfold worked outcome at hvalue
  rw [← hvalue, hquiet.apply c]
  cases hr : operate own groupLine line items .empty with
  | ok v d => exact settles_ok v _
  | error stop d =>
    rw [hr] at hends
    obtain ⟨f, rfl⟩ := hends.2
    exact settles_error f _

lemma Settles.onState {σ τ : Type} {value : Option Value} {r : EStateM.Result Stop σ Value}
    (h : Settles value r) (g : σ → τ) : Settles value (Hive.onState g r) := by
  cases r with
  | ok v s =>
    obtain rfl : value = some v := (h.1 v).1 ⟨s, rfl⟩
    exact settles_ok v _
  | error e s =>
    cases value with
    | none =>
      obtain ⟨f, last, hf⟩ := h.2.2 rfl
      cases hf
      exact settles_error f _
    | some v =>
      obtain ⟨last, hv⟩ := (h.1 v).2 rfl
      cases hv

lemma operation_of_collect (first : Token) (frame : Frame) :
    ∃ others rest groupLine,
      collect first frame = .ok (first :: others) { frame with rest := rest } ∧
      operation first frame =
        onConsole (operate frame.scope groupLine first.line ((first :: others).map .token))
          { frame with rest := rest } :=
  ⟨_, _, _, rfl, rfl⟩

/-- **Nested parentheses.** Whatever the tokens, the scope and the console are, working out the tokens
returns a value exactly if the scan in which a closing parenthesis closes all open groups comes to
that value, and fails exactly if the scan comes to nothing. So does the operation in every frame, on
the tokens that it collects from its first one on. -/
theorem operation_nested (own : Scope) (groupLine line : Int) (buffer : List Token) (c : Console)
    (first : Token) (frame : Frame) :
    Settles (Nesting.value own (buffer.map .token))
      (operate own groupLine line (buffer.map .token) c) ∧
    ∃ others last, collect first frame = .ok (first :: others) last ∧
      Settles (Nesting.value frame.scope ((first :: others).map .token)) (operation first frame) := by
  obtain ⟨others, rest, groupLine', hcollect, hoperation⟩ := operation_of_collect first frame
  refine ⟨settles_operate _ _ _ _ _, others, _, hcollect, ?_⟩
  rw [hoperation, onConsole_eq]
  exact (settles_operate _ _ _ _ _).onState _

/-- One closing parenthesis is enough for the two groups of `((1 + 2)`. -/
example :
    Nesting.value ⟨[]⟩
      [.token ⟨.leftParen, .str "(", .null, 1⟩, .token ⟨.leftParen, .str "(", .null, 1⟩,
        .token ⟨.literal .int, .str "1", .int 1, 1⟩, .token ⟨.plus, .str "+", .null, 1⟩,
        .token ⟨.literal .int, .str "2", .int 2, 1⟩, .token ⟨.rightParen, .str ")", .null, 1⟩] =
      some (some (.int 3)) := by
  decide +kernel

end Hive
