import Hive.Proofs.Nesting
import Hive.Proofs.Printing
import Hive.Proofs.Relabeling

/-!
Concatenations. A text is joined to what follows it at the first dot, and again at the first dot of
what is left, without a look at the whole. All the same, only operands with single dots between them
come to a text: once two items without a dot between them stand at the front, they stay there, and
there is no way to be left with one item. Main statement: `concatenation_alternating`.
-/

namespace Hive

open Evaluator

/-- **What a token stands for** as an operand: a value token for its literal, and an identifier for
the value of its variable. -/
inductive Scope.Denotes (own : Scope) (t : Token) : Value → Prop where
  | literal {type : Ty} (hkind : t.kind = .literal type) : own.Denotes t (some ⟨type, t.literal⟩)
  | yes (hkind : t.kind = .keyword .trueWord) : own.Denotes t (some (.bool true))
  | no (hkind : t.kind = .keyword .falseWord) : own.Denotes t (some (.bool false))
  | name {v : Variable} (hkind : t.kind = .identifier) (hv : own.variableAt t = .ok v) :
    own.Denotes t v.value

/-- **Alternating tokens**: dots with an operand after each, and the values of the operands. -/
inductive Scope.Alternates (own : Scope) : List Token → List Value → Prop where
  | nil : own.Alternates [] []
  | cons {dot operand : Token} {tokens : List Token} {v : Value} {values : List Value}
    (hdot : dot.kind = .dot) (hoperand : own.Denotes operand v)
    (more : own.Alternates tokens values) : own.Alternates (dot :: operand :: tokens) (v :: values)

/-- Whether no integer in the value has more digits than the limit. Truth values are printed without
a look at the datum. -/
def Value.isPrintable : Value → Bool
  | none => true
  | some l => l.type == .bool || l.datum.isPrintable

namespace Concatenations

/-! ### Operands -/

abbrev isDot (kind : TokenKind) : Bool := kind == .dot

section Operands

variable {own : Scope} {line : Int}

lemma printable_iff {v : Value} : v.Printable ↔ v.isPrintable = true := by
  cases v with
  | none => exact ⟨fun _ => rfl, fun _ => ⟨_, rfl⟩⟩
  | some l =>
    obtain ⟨type, datum⟩ := l
    cases type with
    | bool => exact ⟨fun _ => rfl, fun _ => ⟨_, rfl⟩⟩
    | int | flt | str =>
      show (∃ s, (if datum.isPrintable then Except.ok _ else Except.error Fault.integerTooLong) =
        Except.ok s) ↔ datum.isPrintable = true
      by_cases h : datum.isPrintable = true
      · simp [h]
      · simp [h]

lemma exists_texts {values : List Value} (h : ∀ v ∈ values, v.isPrintable = true) :
    ∃ texts : List String, values.map Value.text = texts.map .ok := by
  induction values with
  | nil => exact ⟨[], rfl⟩
  | cons v values ih =>
    obtain ⟨s, hs⟩ := printable_iff.2 (h v (by simp))
    obtain ⟨texts, htexts⟩ := ih fun w hw => h w (by simp [hw])
    exact ⟨s :: texts, by rw [List.map_cons, List.map_cons, hs, htexts]⟩

lemma resolve_of_denotes {t : Token} {v : Value} (h : own.Denotes t v) :
    resolve own line (.token t) = .ok v := by
  cases h with
  | literal hkind => simp only [resolve, hkind, Literal.ofToken]; rfl
  | yes hkind => simp only [resolve, hkind, Literal.ofToken]; rfl
  | no hkind => simp only [resolve, hkind, Literal.ofToken]; rfl
  | name hkind hv => simp only [resolve, hkind, hv]; rfl

lemma denotes_of_resolve {t : Token} {v : Value} (h : resolve own line (.token t) = .ok v) :
    own.Denotes t v := by
  unfold resolve at h
  dsimp only at h
  split at h
  · rename_i hkind
    obtain ⟨x, hx, h⟩ := ok_of_bind h
    cases h
    exact .name hkind hx
  · rename_i type hkind
    simp only [Literal.ofToken, hkind] at h
    cases h
    exact .literal hkind
  · rename_i hkind
    simp only [Literal.ofToken, hkind] at h
    cases h
    exact .yes hkind
  · rename_i hkind
    simp only [Literal.ofToken, hkind] at h
    cases h
    exact .no hkind
  · cases h

lemma isDot_of_resolve {i : Item} {v : Value} (h : resolve own line i = .ok v) :
    i.isKind isDot = false := by
  cases i with
  | value w => rfl
  | token t =>
    cases denotes_of_resolve h with
    | literal hkind | yes hkind | no hkind | name hkind =>
      rw [Item.isKind_token, hkind]
      rfl

end Operands

/-! ### One joint -/

section Joints

variable {own : Scope} {line : Int}

/-- The item stands for the text, whichever line is reported. -/
def IsText (own : Scope) (i : Item) (s : String) : Prop :=
  ∀ line, resolve own line i = .ok (some (.str s))

lemma isText_value (s : String) : IsText own (.value (some (.str s))) s := fun _ => rfl

lemma joinTexts_str (s : String) (v : Value) :
    joinTexts line (some (.str s)) v =
      (Failure.ofFault (Value.text v)).map fun printed => some (.str (s ++ printed)) := by
  show (Failure.ofFault (Value.text v) >>= fun printed =>
    pure (some (Literal.str (s ++ printed)))) = _
  cases Value.text v <;> rfl

lemma splitFirst?_dot {i : Item} {s : String} {dot : Token} {after : List Item}
    (hi : IsText own i s) (hdot : dot.kind = .dot) :
    splitFirst? isDot (i :: .token dot :: after) = some ([i], dot, after) := by
  have hbefore : Clear isDot [i] := by simp [isDot_of_resolve (hi 0)]
  exact splitFirst?_append hbefore (beq_iff_eq.2 hdot)

lemma join_dot {i right : Item} {s : String} {dot : Token} {after : List Item}
    (hi : IsText own i s) (hdot : dot.kind = .dot) :
    join own line (i :: .token dot :: right :: after) = (do
      let v ← resolve own dot.line right
      let printed ← Failure.ofFault (Value.text v)
      join own line (.value (some (.str (s ++ printed))) :: after)) := by
  have hjoint : firstJoint? (i :: .token dot :: right :: after) =
      some (dot, [], i, right, after) := by
    unfold firstJoint?
    rw [splitFirst?_dot hi hdot]
    rfl
  rw [join_cons_cons, hjoint]
  dsimp only [List.nil_append]
  rw [hi dot.line]
  show (resolve own dot.line right >>= fun v => joinTexts dot.line (some (.str s)) v >>= fun joined =>
    join own line (.value joined :: after)) = _
  congr 1
  funext v
  rw [joinTexts_str]
  cases Failure.ofFault (Value.text v) <;> rfl

/-- A dot with nothing after it joins nothing. -/
lemma join_trailing {i : Item} {s : String} {dot : Token} (hi : IsText own i s)
    (hdot : dot.kind = .dot) :
    join own line [i, .token dot] = .error (.error (.on line .invalidOperation)) := by
  have hnone : firstJoint? [i, .token dot] = none := by
    unfold firstJoint?
    rw [splitFirst?_dot hi hdot]
    rfl
  rw [join_cons_cons, hnone]

lemma isDot_of_firstJoint? {items : List Item} {dot : Token}
    {sides : List Item × Item × Item × List Item} (h : firstJoint? items = some (dot, sides)) :
    dot.kind = .dot := by
  unfold firstJoint? at h
  rcases Nesting.clear_or_split isDot items with hclear | ⟨before, op, after, rfl, hbefore, hop⟩
  · rw [splitFirst?_of_clear hclear] at h
    cases h
  · rw [splitFirst?_append hbefore hop] at h
    obtain ⟨x, -, hx⟩ := Option.map_eq_some_iff.1 h
    cases hx
    exact eq_of_beq hop

/-- **Two items without a dot between them are never joined.** They stay at the front: the second
may become a part of a text, but it does not become a dot. -/
lemma join_stuck {first second : Item} {more : List Item}
    (hsecond : second.isKind isDot = false) (v : Value) :
    join own line (first :: second :: more) ≠ .ok v := by
  induction hlen : more.length using Nat.strong_induction_on generalizing second more with
  | _ n ih =>
  intro h
  rw [join_cons_cons] at h
  cases hjoint : firstJoint? (first :: second :: more) with
  | none =>
    rw [hjoint] at h
    cases h
  | some joint =>
    obtain ⟨dot, before, left, right, after⟩ := joint
    rw [hjoint] at h
    obtain ⟨l, -, h⟩ := ok_of_bind h
    obtain ⟨r, -, h⟩ := ok_of_bind h
    obtain ⟨joined, -, h⟩ := ok_of_bind h
    have hdot := isDot_of_firstJoint? hjoint
    have hitems := firstJoint?_eq_append hjoint
    -- the joint is not between the two items, so the first one is before it
    cases before with
    | nil =>
      obtain ⟨-, rfl, -⟩ : _ ∧ second = .token dot ∧ _ := by simpa using hitems
      simp [hdot] at hsecond
    | cons i before =>
      rw [List.cons_append] at hitems
      obtain ⟨rfl, htail⟩ := List.cons.inj hitems
      cases before with
      | nil =>
        obtain ⟨-, rfl⟩ := List.cons.inj htail
        exact ih after.length (by simp only [List.length_cons] at hlen; omega) rfl rfl h
      | cons j before =>
        rw [List.cons_append] at htail
        obtain ⟨rfl, rfl⟩ := List.cons.inj htail
        refine ih (before ++ .value joined :: after).length ?_ hsecond rfl h
        simp only [List.length_append, List.length_cons] at hlen ⊢
        omega

end Joints

/-! ### Whole concatenations -/

section Chains

variable {own : Scope} {line : Int}

lemma join_of_alternates {tokens : List Token} {values : List Value}
    (h : own.Alternates tokens values) {i : Item} {s : String} (hi : IsText own i s)
    {texts : List String} (htexts : values.map Value.text = texts.map .ok) :
    join own line (i :: tokens.map .token) = .ok (some (.str (s ++ String.join texts))) := by
  induction h generalizing i s texts with
  | nil =>
    obtain rfl : texts = [] := by simpa using htexts.symm
    rw [List.map_nil, join, hi line]
    simp
  | @cons dot operand tokens v values hdot hoperand _ ih =>
    cases texts with
    | nil => cases htexts
    | cons printed texts =>
      obtain ⟨hv, htexts⟩ := List.cons.inj htexts
      rw [List.map_cons, List.map_cons, join_dot hi hdot, resolve_of_denotes hoperand]
      show (Failure.ofFault (Value.text v) >>= fun printed =>
        join own line (.value (some (.str (s ++ printed))) :: tokens.map .token)) = _
      rw [hv]
      show join own line (.value (some (.str (s ++ printed))) :: tokens.map .token) = _
      rw [ih (isText_value _) htexts, String.join_cons, String.append_assoc]

/-- **Only alternating tokens are joined**, and their values can be printed. -/
lemma alternates_of_join {tokens : List Token} {i : Item} {s : String} (hi : IsText own i s)
    {v : Value} (h : join own line (i :: tokens.map .token) = .ok v) :
    ∃ values, own.Alternates tokens values ∧ ∀ w ∈ values, w.isPrintable = true := by
  -- the first two operands become one text, so each step takes a dot and an operand off
  induction hlen : tokens.length using Nat.strong_induction_on generalizing tokens i s with
  | _ n ih =>
  cases tokens with
  | nil => exact ⟨[], .nil, nofun⟩
  | cons t tokens =>
    by_cases hdot : t.kind = .dot
    · cases tokens with
      | nil =>
        rw [List.map_cons, List.map_nil, join_trailing hi hdot] at h
        cases h
      | cons operand tokens =>
        rw [List.map_cons, List.map_cons, join_dot hi hdot] at h
        obtain ⟨w, hw, h⟩ := ok_of_bind h
        obtain ⟨printed, hprinted, h⟩ := ok_of_bind h
        obtain ⟨values, halternates, hvalues⟩ := ih tokens.length
          (by simp only [List.length_cons] at hlen; omega) (isText_value _) h rfl
        refine ⟨w :: values, .cons hdot (denotes_of_resolve hw) halternates,
          List.forall_mem_cons.2 ⟨?_, hvalues⟩⟩
        exact printable_iff.1 ⟨printed, ofFault_eq_ok hprinted⟩
    · have ht : (Item.token t).isKind isDot = false := beq_false_of_ne hdot
      exact absurd h (join_stuck ht v)

end Chains

end Concatenations

open Concatenations

lemma concatenation_eq (first : Token) {frame : Frame} {tokens follow : List Token}
    (hrest : frame.rest = tokens ++ follow) (harguments : frame.inArguments = false)
    (htokens : ∀ t ∈ tokens, t.kind.isTerminator = false)
    (hfollow : ∀ t ∈ follow.head?, t.kind.isTerminator = true) :
    concatenation first frame =
      orFail (join frame.scope first.line ((first :: tokens).map .token))
        { frame with rest := follow } := by
  have hcollect : collect first frame = .ok (first :: tokens) { frame with rest := follow } := by
    unfold collect
    dsimp only
    rw [harguments, hrest, expressionTokens_of_terminator _ htokens hfollow]
  have hbind : concatenation first frame = EStateM.bind (collect first) (fun tokens => do
      orFail (join (← Evaluator.scope) first.line (tokens.map .token))) frame := rfl
  rw [hbind, EStateM.bind, hcollect]
  rfl

/-- **Concatenations alternate.** Called on a text with tokens after it up to a terminator, the
concatenation comes to a value exactly if these are dots with an operand after each, and no integer
among the operands is too long to be printed; the value is then the text with the printed forms of
the operands after it. In all other cases it fails. -/
theorem concatenation_alternating (frame : Frame) (first : Token) (s : String)
    (tokens follow : List Token) (hfirst : first.kind = .literal .str)
    (hliteral : first.literal = .str s) (hrest : frame.rest = tokens ++ follow)
    (harguments : frame.inArguments = false)
    (htokens : ∀ t ∈ tokens, t.kind.isTerminator = false)
    (hfollow : ∀ t ∈ follow.head?, t.kind.isTerminator = true) :
    ((∃ v last, concatenation first frame = .ok v last) ↔
      ∃ values, frame.scope.Alternates tokens values ∧ ∀ v ∈ values, v.isPrintable = true) ∧
    (∀ (values : List Value) (texts : List String), frame.scope.Alternates tokens values →
      values.map Value.text = texts.map .ok → concatenation first frame =
        .ok (some (.str (s ++ String.join texts))) { frame with rest := follow }) ∧
    ((∃ f last, concatenation first frame = .error (.failure f) last) ↔
      ¬∃ values, frame.scope.Alternates tokens values ∧ ∀ v ∈ values, v.isPrintable = true) := by
  have htext : IsText frame.scope (.token first) s := by
    intro line
    have hdenotes : frame.scope.Denotes first (some ⟨.str, first.literal⟩) := .literal hfirst
    rw [hliteral] at hdenotes
    exact resolve_of_denotes hdenotes
  have heq := concatenation_eq first hrest harguments htokens hfollow
  have hjoined (values : List Value) (texts : List String)
      (halternates : frame.scope.Alternates tokens values)
      (htexts : values.map Value.text = texts.map .ok) : concatenation first frame =
        .ok (some (.str (s ++ String.join texts))) { frame with rest := follow } := by
    rw [heq, List.map_cons, join_of_alternates halternates htext htexts]
    rfl
  have hsucceeds : (∃ v last, concatenation first frame = .ok v last) ↔
      ∃ values, frame.scope.Alternates tokens values ∧ ∀ v ∈ values, v.isPrintable = true := by
    constructor
    · rintro ⟨v, last, h⟩
      rw [heq] at h
      exact alternates_of_join htext (orFail_eq_ok h)
    · rintro ⟨values, halternates, hvalues⟩
      obtain ⟨texts, htexts⟩ := exists_texts hvalues
      exact ⟨_, _, hjoined values texts halternates htexts⟩
  refine ⟨hsucceeds, hjoined, ?_⟩
  rw [← hsucceeds, heq]
  cases join frame.scope first.line ((first :: tokens).map .token) with
  | ok v =>
    refine ⟨?_, fun h => absurd ⟨v, _, rfl⟩ h⟩
    rintro ⟨f, last, h⟩
    cases h
  | error f =>
    refine ⟨fun _ => ?_, fun _ => ⟨f, _, rfl⟩⟩
    rintro ⟨v, last, h⟩
    cases h

section Labels

def labelToken : Token := ⟨.literal .str, .str "\x22a\x22", .str "a", 1⟩

def dotToken : Token := ⟨.dot, .str ".", .null, 1⟩

def trueToken : Token := ⟨.keyword .trueWord, .str "true", .null, 1⟩

/-- The tokens of `. x . true`. -/
def labelTokens : List Token := [dotToken, nameOperand "x", dotToken, trueToken]

/-- The tokens of `. x . . true`. -/
def crowdedTokens : List Token := [dotToken, nameOperand "x", dotToken, dotToken, trueToken]

/-- A frame with some tokens and a semicolon left, and with `x` as `5`. -/
def labelFrame (tokens : List Token) : Frame :=
  { mixedFrame with rest := tokens ++ [⟨.semicolon, .str ";", .null, 1⟩] }

theorem concatenation_alternating_labels :
    (∃ last, concatenation labelToken (labelFrame labelTokens) =
      .ok (some (.str "a5true")) last) ∧
    ∃ f last, concatenation labelToken (labelFrame crowdedTokens) = .error (.failure f) last := by
  have hfollow : ∀ t ∈ [(⟨.semicolon, .str ";", .null, 1⟩ : Token)].head?,
      t.kind.isTerminator = true := by simp; rfl
  have hjoined := concatenation_alternating (labelFrame labelTokens) labelToken "a" labelTokens
    [⟨.semicolon, .str ";", .null, 1⟩] rfl rfl rfl rfl (by decide) hfollow
  have hcrowded := concatenation_alternating (labelFrame crowdedTokens) labelToken "a" crowdedTokens
    [⟨.semicolon, .str ";", .null, 1⟩] rfl rfl rfl rfl (by decide) hfollow
  constructor
  · have hx : mixedFrame.scope.variableAt (nameOperand "x") =
        .ok ⟨nameOperand "x", some (.int 5), .typeName .int⟩ := by rfl
    have halternates : mixedFrame.scope.Alternates labelTokens [some (.int 5), some (.bool true)] :=
      .cons rfl (.name rfl hx) (.cons rfl (.yes rfl) .nil)
    exact ⟨_, hjoined.2.1 _ ["5", "true"] halternates (by decide +kernel)⟩
  · refine hcrowded.2.2.2 ?_
    rintro ⟨values, halternates, -⟩
    -- after the second dot there is no operand but a dot
    cases halternates with
    | cons _ _ more =>
      cases more with
      | cons _ hoperand _ =>
        have hresolve : resolve _ 1 _ = .ok _ := resolve_of_denotes hoperand
        cases hresolve

end Labels

end Hive
