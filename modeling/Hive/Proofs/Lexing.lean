import Hive.Proofs.Typing
import Hive.Token.Lexer

/-!
Lexing makes sound tokens. The lexeme of a token is the text it is written with, and a token of a
literal kind comes from a scan that has read a datum of its type. Where lexing fails, a string is
not closed or the digits of a number are too many.
-/

namespace Hive

namespace Lexer

/-! ### The kinds of tokens that are no literals -/

lemma isLiteral_single? {c : Char} {kind : TokenKind} (h : single? c = some kind) :
    kind.isLiteral = false := by
  unfold single? at h
  split at h <;> cases h <;> rfl

lemma isLiteral_compound? {c : Char} {alone joined : TokenKind}
    (h : compound? c = some (alone, joined)) :
    alone.isLiteral = false ∧ joined.isLiteral = false := by
  unfold compound? at h
  split at h <;> cases h <;> exact ⟨rfl, rfl⟩

lemma isLiteral_ofWord (word : String) : (TokenKind.ofWord word).isLiteral = false := by
  have hwords : ∀ entry ∈ TokenKind.words, entry.2.isLiteral = false := by decide
  unfold TokenKind.ofWord
  cases h : TokenKind.words.find? fun entry => entry.1 == word with
  | none => rfl
  | some entry => exact hwords entry (List.mem_of_find?_eq_some h)

/-! ### Scans -/

/-- The datum of a literal kind is one of its type. -/
def SoundToken (token : TokenKind × Json) : Prop :=
  ∀ type, token.1 = .literal type → Literal.isSound ⟨type, token.2⟩ = true

lemma soundToken_of_isLiteral {kind : TokenKind} {datum : Json} (h : kind.isLiteral = false) :
    SoundToken (kind, datum) := by
  intro type htype
  rw [show kind = .literal type from htype] at h
  cases h

lemma soundToken_numberToken (n : Number) : SoundToken (numberToken n) := by
  cases n with
  | int n => rintro type ⟨⟩; rfl
  | flt x => rintro type ⟨⟩; rfl

lemma soundToken_scan {line : Int} {c : Char} {cs : List Char} {s : Scan}
    (h : scan line c cs = .ok s) : ∀ token ∈ s.token, SoundToken token := by
  -- strings and numbers come with their literals; every other token has none
  unfold scan at h
  split at h
  · rename_i hkind
    cases h
    rintro _ ⟨⟩
    exact soundToken_of_isLiteral (isLiteral_single? hkind)
  · rename_i hkinds
    split at h
    · cases h
      rintro _ ⟨⟩
      exact soundToken_of_isLiteral (isLiteral_compound? hkinds).2
    · cases h
      rintro _ ⟨⟩
      exact soundToken_of_isLiteral (isLiteral_compound? hkinds).1
  · split at h
    · cases h
      exact nofun
    split at h
    · split at h
      · cases h
        rintro _ ⟨⟩ type ⟨⟩
        rfl
      · cases h
    split at h
    · dsimp only at h
      split at h
      · cases h
        rintro _ ⟨⟩
        exact soundToken_numberToken _
      · cases h
    split at h
    · cases h
      rintro _ ⟨⟩
      exact soundToken_of_isLiteral (isLiteral_ofWord _)
    · cases h
      exact nofun

lemma isNumeric_ofDigits {digits : List Char} {f : Fault} (h : Numeral.ofDigits digits = .error f) :
    f.isNumeric = true := by
  unfold Numeral.ofDigits at h
  split at h
  · cases h
  · cases h
    rfl

lemma isNumeric_lexeme {c : Char} (hc : c.isDigit = true) {cs : List Char} {f : Fault}
    (h : Numeral.lexeme (c :: cs) = .error f) : f.isNumeric = true := by
  have hdot : (c != '.') = true := by
    refine bne_iff_ne.2 fun hc' => ?_
    rw [hc'] at hc
    cases hc
  unfold Numeral.lexeme at h
  simp only [List.takeWhile_cons, hdot, if_true, List.isEmpty_cons, Bool.false_eq_true,
    if_false] at h
  split at h
  · cases hn : Numeral.ofDigits (c :: cs.takeWhile (· != '.')) with
    | ok n =>
      rw [hn] at h
      cases h
    | error g =>
      rw [hn] at h
      cases h
      exact isNumeric_ofDigits hn
  · cases h

/-- **The failures of lexing**: a string that is not closed, or a limit on numbers. -/
def FailsSoundly : Failure → Prop
  | .error d => d.problem = .unterminatedString
  | .fault f => f.isNumeric = true

lemma failsSoundly_scan {line : Int} {c : Char} {cs : List Char} {f : Failure}
    (h : scan line c cs = .error f) : FailsSoundly f := by
  unfold scan at h
  split at h
  · cases h
  · split at h <;> cases h
  · split at h
    · cases h
    split at h
    · split at h
      · cases h
      · cases h
        rfl
    split at h
    · rename_i hdigit
      dsimp only at h
      split at h
      · cases h
      · rename_i hlexeme
        cases h
        exact isNumeric_lexeme hdigit hlexeme
    split at h <;> cases h

/-! ### Whole texts -/

lemma sound_atEnd (line : Int) : (Token.atEnd line).Sound := ⟨⟨"", rfl⟩, nofun⟩

lemma sound_of_soundToken {kind : TokenKind} {datum : Json} (h : SoundToken (kind, datum))
    (lexeme : String) (line : Int) : Token.Sound ⟨kind, .str lexeme, datum, line⟩ := by
  refine ⟨⟨lexeme, rfl⟩, fun l hl => ?_⟩
  unfold Literal.ofToken at hl
  split at hl
  · cases hl
    rfl
  · cases hl
    rfl
  · rename_i type htype
    cases hl
    exact h type htype
  · cases hl

lemma sound_tokensFrom {line : Nat} {text : List Char} {tokens : List Token}
    (h : tokensFrom line text = .ok tokens) : ∀ t ∈ tokens, t.Sound := by
  fun_induction tokensFrom line text generalizing tokens with
  | case1 line =>
    cases h
    intro t ht
    rw [List.mem_singleton.1 ht]
    exact sound_atEnd line
  | case2 => cases h
  | case3 => cases h
  | case4 line c cs s hs _ more hmore kind literal htoken ih =>
    cases h
    intro t ht
    rcases List.mem_cons.1 ht with rfl | ht
    · exact sound_of_soundToken (soundToken_scan hs (kind, literal) htoken) _ _
    · exact ih hmore t ht
  | case5 line c cs s hs _ more hmore htoken ih =>
    cases h
    exact ih hmore

lemma failsSoundly_tokensFrom {line : Nat} {text : List Char} {f : Failure}
    (h : tokensFrom line text = .error f) : FailsSoundly f := by
  fun_induction tokensFrom line text with
  | case1 => cases h
  | case2 line c cs e hs =>
    cases h
    exact failsSoundly_scan hs
  | case3 line c cs s hs _ e he ih =>
    cases h
    exact ih he
  | case4 => cases h
  | case5 => cases h

end Lexer

/-- **The tokens of a text are sound.** -/
theorem Token.sound_lex {source : String} {tokens : List Token} (h : lex source = .ok tokens) :
    ∀ t ∈ tokens, t.Sound :=
  Lexer.sound_tokensFrom h

end Hive
